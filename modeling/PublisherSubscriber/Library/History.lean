import Mathlib.Data.List.Basic

/-!
# Histories

A history lists what happened, newest entry first.  `Latest` picks the newest
entry of a kind, and `Justified` says of every entry that the ones before it
account for it; both are settled by looking at one new entry at a time.
-/

namespace History

variable {α : Type} {P Q : α → Prop} {J : List α → α → Prop} {h : List α} {e x : α}

/-- The newest entry of `h` with property `P` is `e`. -/
def Latest (P : α → Prop) (h : List α) (e : α) : Prop :=
  ∃ newer older, h = newer ++ e :: older ∧ P e ∧ ∀ x ∈ newer, ¬ P x

theorem Latest.mem (he : Latest P h e) : e ∈ h := by
  obtain ⟨newer, older, rfl, -, -⟩ := he
  simp

theorem Latest.cons_self (hx : P x) (h : List α) : Latest P (x :: h) x :=
  ⟨[], h, rfl, hx, by simp⟩

theorem Latest.cons_of_not (hx : ¬ P x) (he : Latest P h e) : Latest P (x :: h) e := by
  obtain ⟨newer, older, rfl, hP, hnewer⟩ := he
  refine ⟨x :: newer, older, rfl, hP, fun y hy ↦ ?_⟩
  rcases List.mem_cons.mp hy with rfl | hy
  · exact hx
  · exact hnewer y hy

theorem latest_cons_iff : Latest P (x :: h) e ↔ (P x ∧ e = x) ∨ (¬ P x ∧ Latest P h e) := by
  constructor
  · rintro ⟨newer, older, heq, hP, hnewer⟩
    cases newer with
    | nil =>
        obtain ⟨rfl, rfl⟩ : x = e ∧ h = older := by simpa using heq
        exact Or.inl ⟨hP, rfl⟩
    | cons y newer =>
        obtain ⟨rfl, rfl⟩ : x = y ∧ h = newer ++ e :: older := by simpa using heq
        exact Or.inr ⟨hnewer x (by simp), newer, older, rfl, hP,
          fun z hz ↦ hnewer z (List.mem_cons_of_mem x hz)⟩
  · rintro (⟨hx, rfl⟩ | ⟨hx, he⟩)
    · exact .cons_self hx h
    · exact he.cons_of_not hx

theorem Latest.unique {e' : α} (he : Latest P h e) (he' : Latest P h e') : e = e' := by
  induction h with
  | nil => exact absurd he.mem List.not_mem_nil
  | cons x h ih =>
      rcases latest_cons_iff.mp he with ⟨hx, rfl⟩ | ⟨hx, hrest⟩
      · rcases latest_cons_iff.mp he' with ⟨-, rfl⟩ | ⟨hx', -⟩
        · rfl
        · exact (hx' hx).elim
      · rcases latest_cons_iff.mp he' with ⟨hx', -⟩ | ⟨-, hrest'⟩
        · exact (hx hx').elim
        · exact ih hrest hrest'

/-- The newest entry of a kind in a history that starts with entries of which none, or
in a longer history some, are of that kind. -/
theorem Latest.of_append {newer older : List α} (he : Latest P (newer ++ x :: older) e)
    (hx : P x) : e = x ∨ e ∈ newer := by
  induction newer with
  | nil =>
      rcases latest_cons_iff.mp he with ⟨-, rfl⟩ | ⟨hn, -⟩
      · exact Or.inl rfl
      · exact (hn hx).elim
  | cons y newer ih =>
      rcases latest_cons_iff.mp he with ⟨-, rfl⟩ | ⟨-, hrest⟩
      · exact Or.inr (by simp)
      · rcases ih hrest with rfl | hmem
        · exact Or.inl rfl
        · exact Or.inr (List.mem_cons_of_mem y hmem)

/-- Every entry stands in the relation `J` to the entries before it. -/
def Justified (J : List α → α → Prop) (h : List α) : Prop :=
  ∀ newer e older, h = newer ++ e :: older → J older e

theorem justified_nil : Justified J [] := by
  intro newer e older heq
  simp at heq

theorem justified_cons_iff : Justified J (x :: h) ↔ J h x ∧ Justified J h := by
  constructor
  · intro hall
    exact ⟨hall [] x h rfl, fun newer e older heq ↦ hall (x :: newer) e older (by rw [heq]; rfl)⟩
  · rintro ⟨hx, hall⟩ newer e older heq
    cases newer with
    | nil =>
        obtain ⟨rfl, rfl⟩ : x = e ∧ h = older := by simpa using heq
        exact hx
    | cons y newer =>
        obtain ⟨rfl, rfl⟩ : x = y ∧ h = newer ++ e :: older := by simpa using heq
        exact hall newer e older rfl

end History
