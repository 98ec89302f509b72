import Mathlib.Data.List.Basic

/-!
# Maps whose subscript inserts

Looking an absent key up with a subscript inserts a default value for it.  A
map that started as `base` and was only read that way answers every subscript
as `base` would.
-/

/-- The entries of a map from keys to values; the first one of a key counts. -/
structure AssociativeMap (κ α : Type) where
  entries : List (κ × α)
  deriving DecidableEq, Repr

namespace AssociativeMap

variable {κ α : Type} [DecidableEq κ] [Inhabited α]

def find (m : AssociativeMap κ α) (key : κ) : Option α := m.entries.lookup key

/-- `operator[]` used as a value. -/
def subscript (m : AssociativeMap κ α) (key : κ) : α × AssociativeMap κ α :=
  match m.find key with
  | some value => (value, m)
  | none => (default, ⟨(key, default) :: m.entries⟩)

/-- `m` holds the entries of `base`, and defaults besides. -/
def Extends (m base : AssociativeMap κ α) : Prop :=
  ∀ key, m.find key = base.find key ∨ (base.find key = none ∧ m.find key = some default)

theorem Extends.refl (m : AssociativeMap κ α) : m.Extends m := fun _ ↦ Or.inl rfl

theorem subscript_fst (m : AssociativeMap κ α) (key : κ) :
    (m.subscript key).1 = (m.find key).getD default := by
  unfold subscript
  cases m.find key <;> rfl

/-- What a subscript answers does not depend on the subscripts before it. -/
theorem Extends.subscript_fst {m base : AssociativeMap κ α} (h : m.Extends base) (key : κ) :
    (m.subscript key).1 = (base.subscript key).1 := by
  rw [AssociativeMap.subscript_fst, AssociativeMap.subscript_fst]
  rcases h key with heq | ⟨hbase, hm⟩
  · rw [heq]
  · rw [hbase, hm]
    rfl

theorem Extends.subscript_snd {m base : AssociativeMap κ α} (h : m.Extends base) (key : κ) :
    (m.subscript key).2.Extends base := by
  unfold subscript
  cases hfind : m.find key with
  | some value => exact h
  | none =>
      intro other
      by_cases hother : other = key
      · subst hother
        refine Or.inr ⟨?_, by simp [find]⟩
        rcases h other with heq | ⟨hbase, -⟩
        · rw [← heq, hfind]
        · exact hbase
      · have hbeq : (other == key) = false := beq_false_of_ne hother
        have hsame : (⟨(key, default) :: m.entries⟩ : AssociativeMap κ α).find other =
            m.find other := by
          simp [find, List.lookup_cons, hbeq]
        rw [hsame]
        exact h other

end AssociativeMap
