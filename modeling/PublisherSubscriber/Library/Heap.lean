import Mathlib.Data.List.Basic
import Mathlib.Data.Nat.Notation

/-!
# Heaps whose objects have an identity

A cell is allocated once and keeps its identity for ever.  Deleting the object
marks the cell as freed, so a pointer that outlives its object is told apart
from a pointer to a live one and from the null pointer.
-/

namespace PointerHeap

/-- `none` is the null pointer. -/
abbrev Pointer := Option ℕ

inductive Fault
  | nullDereference
  | useAfterFree
  | wildPointer
  deriving DecidableEq, Repr

inductive Cell (α : Type)
  | live (object : α)
  | freed
  deriving DecidableEq, Repr

structure Heap (α : Type) where
  cells : List (Cell α) := []
  deriving DecidableEq, Repr

namespace Heap

variable {α : Type}

def load (h : Heap α) : Pointer → Except Fault α
  | none => .error .nullDereference
  | some a =>
      match h.cells[a]? with
      | some (.live x) => .ok x
      | some .freed => .error .useAfterFree
      | none => .error .wildPointer

def new (h : Heap α) (x : α) : Pointer × Heap α :=
  (some h.cells.length, ⟨h.cells ++ [.live x]⟩)

/-- Overwrite the cell of `p`, whatever it holds. -/
def update (h : Heap α) (p : Pointer) (x : α) : Heap α :=
  match p with
  | none => h
  | some a => ⟨h.cells.set a (.live x)⟩

/-- Mark the cell of `p` as freed, whatever it holds. -/
def release (h : Heap α) (p : Pointer) : Heap α :=
  match p with
  | none => h
  | some a => ⟨h.cells.set a .freed⟩

def modify (h : Heap α) (p : Pointer) (f : α → α) : Except Fault (Heap α) := do
  let x ← h.load p
  return h.update p (f x)

/-- Deleting the null pointer does nothing; deleting an object twice is a fault. -/
def delete (h : Heap α) (p : Pointer) : Except Fault (Heap α) :=
  match p with
  | none => .ok h
  | some a => do
      let _ ← h.load (some a)
      return h.release (some a)

def Live (h : Heap α) (p : Pointer) : Prop := ∃ x, h.load p = .ok x

theorem Live.ne_none {h : Heap α} {p : Pointer} (hp : h.Live p) : p ≠ none := by
  rintro rfl
  obtain ⟨x, hx⟩ := hp
  simp [load] at hx

theorem Live.address_lt {h : Heap α} {a : ℕ} (hp : h.Live (some a)) : a < h.cells.length := by
  obtain ⟨x, hx⟩ := hp
  by_contra hn
  have hcell : h.cells[a]? = none := List.getElem?_eq_none (Nat.le_of_not_lt hn)
  simp [load, hcell] at hx

theorem not_live_empty (p : Pointer) : ¬ (⟨[]⟩ : Heap α).Live p := by
  intro hp
  cases p with
  | none => exact hp.ne_none rfl
  | some a => exact absurd hp.address_lt (Nat.not_lt_zero a)

@[simp] theorem load_new_self (h : Heap α) (x : α) : (h.new x).2.load (h.new x).1 = .ok x := by
  simp [new, load]

theorem load_new_of_live {h : Heap α} {p : Pointer} (hp : h.Live p) (x : α) :
    (h.new x).2.load p = h.load p := by
  cases p with
  | none => exact (hp.ne_none rfl).elim
  | some a =>
      have ha : (h.cells ++ [Cell.live x])[a]? = h.cells[a]? :=
        List.getElem?_append_left hp.address_lt
      simp only [new, load, ha]

theorem load_update_self {h : Heap α} {p : Pointer} (hp : h.Live p) (x : α) :
    (h.update p x).load p = .ok x := by
  cases p with
  | none => exact (hp.ne_none rfl).elim
  | some a => simp [update, load, hp.address_lt]

theorem load_update_ne (h : Heap α) {p q : Pointer} (hpq : q ≠ p) (x : α) :
    (h.update p x).load q = h.load q := by
  cases p with
  | none => rfl
  | some a =>
      cases q with
      | none => rfl
      | some b =>
          have hab : a ≠ b := fun hab ↦ hpq (hab ▸ rfl)
          simp [update, load, List.getElem?_set_ne hab]

theorem load_release_ne (h : Heap α) {p q : Pointer} (hpq : q ≠ p) :
    (h.release p).load q = h.load q := by
  cases p with
  | none => rfl
  | some a =>
      cases q with
      | none => rfl
      | some b =>
          have hab : a ≠ b := fun hab ↦ hpq (hab ▸ rfl)
          simp [release, load, List.getElem?_set_ne hab]

theorem load_release_self {h : Heap α} {p : Pointer} (hp : h.Live p) :
    (h.release p).load p = .error .useAfterFree := by
  cases p with
  | none => exact (hp.ne_none rfl).elim
  | some a => simp [release, load, hp.address_lt]

@[simp] theorem length_update (h : Heap α) (p : Pointer) (x : α) :
    (h.update p x).cells.length = h.cells.length := by
  cases p <;> simp [update]

@[simp] theorem update_update (h : Heap α) (p : Pointer) (x y : α) :
    (h.update p x).update p y = h.update p y := by
  cases p <;> simp [update]

@[simp] theorem length_release (h : Heap α) (p : Pointer) :
    (h.release p).cells.length = h.cells.length := by
  cases p <;> simp [release]

theorem Live.new {h : Heap α} {p : Pointer} (hp : h.Live p) (x : α) : (h.new x).2.Live p := by
  rw [Live, load_new_of_live hp]
  exact hp

theorem live_new_self (h : Heap α) (x : α) : (h.new x).2.Live (h.new x).1 :=
  ⟨x, load_new_self h x⟩

theorem Live.update {h : Heap α} {p q : Pointer} (hq : h.Live q) (x : α) :
    (h.update p x).Live q := by
  by_cases hpq : q = p
  · subst hpq
    exact ⟨x, load_update_self hq x⟩
  · rw [Live, load_update_ne h hpq]
    exact hq

theorem Live.release {h : Heap α} {p q : Pointer} (hq : h.Live q) (hpq : q ≠ p) :
    (h.release p).Live q := by
  rw [Live, load_release_ne h hpq]
  exact hq

theorem Live.of_new {h : Heap α} {x : α} {p : Pointer} (hp : (h.new x).2.Live p) :
    h.Live p ∨ p = (h.new x).1 := by
  by_cases hself : p = (h.new x).1
  · exact Or.inr hself
  · left
    cases p with
    | none => exact (hp.ne_none rfl).elim
    | some a =>
        have hle : a < h.cells.length + 1 := by simpa [Heap.new] using hp.address_lt
        have hne : a ≠ h.cells.length := fun ha ↦ hself (by rw [ha]; rfl)
        have hcell : (h.cells ++ [Cell.live x])[a]? = h.cells[a]? :=
          List.getElem?_append_left (by omega)
        simpa only [Live, Heap.new, load, hcell] using hp

theorem Live.of_update {h : Heap α} {p q : Pointer} {x : α} (hp : h.Live p)
    (hq : (h.update p x).Live q) : h.Live q := by
  by_cases hpq : q = p
  · exact hpq ▸ hp
  · rwa [Live, load_update_ne h hpq] at hq

theorem Live.of_release {h : Heap α} {p q : Pointer} (hp : h.Live p)
    (hq : (h.release p).Live q) : h.Live q ∧ q ≠ p := by
  have hpq : q ≠ p := by
    rintro rfl
    obtain ⟨x, hx⟩ := hq
    rw [load_release_self hp] at hx
    cases hx
  rw [Live, load_release_ne h hpq] at hq
  exact ⟨hq, hpq⟩

theorem modify_of_load {h : Heap α} {p : Pointer} {x : α} (hp : h.load p = .ok x) (f : α → α) :
    h.modify p f = .ok (h.update p (f x)) := by
  simp [modify, hp]

theorem delete_of_live {h : Heap α} {p : Pointer} (hp : h.Live p) :
    h.delete p = .ok (h.release p) := by
  obtain ⟨x, hx⟩ := hp
  cases p with
  | none => simp [load] at hx
  | some a => simp [delete, hx]

/-! ## Total access -/

variable [Inhabited α]

/-- The object of a live pointer; an arbitrary value for any other pointer. -/
def deref (h : Heap α) (p : Pointer) : α :=
  match h.load p with
  | .ok x => x
  | .error _ => default

theorem deref_of_load {h : Heap α} {p : Pointer} {x : α} (hp : h.load p = .ok x) :
    h.deref p = x := by
  simp [deref, hp]

theorem Live.load_eq {h : Heap α} {p : Pointer} (hp : h.Live p) : h.load p = .ok (h.deref p) := by
  obtain ⟨x, hx⟩ := hp
  rw [hx, deref_of_load hx]

@[simp] theorem deref_new_self (h : Heap α) (x : α) : (h.new x).2.deref (h.new x).1 = x :=
  deref_of_load (load_new_self h x)

theorem deref_new_of_live {h : Heap α} {p : Pointer} (hp : h.Live p) (x : α) :
    (h.new x).2.deref p = h.deref p := by
  simp only [deref, load_new_of_live hp]

theorem deref_update {h : Heap α} {p q : Pointer} (hq : h.Live q) (x : α) :
    (h.update p x).deref q = if q = p then x else h.deref q := by
  by_cases hpq : q = p
  · subst hpq
    rw [if_pos rfl, deref_of_load (load_update_self hq x)]
  · rw [if_neg hpq]
    simp only [deref, load_update_ne h hpq]

theorem deref_release_ne (h : Heap α) {p q : Pointer} (hpq : q ≠ p) :
    (h.release p).deref q = h.deref q := by
  simp only [deref, load_release_ne h hpq]

end Heap

end PointerHeap
