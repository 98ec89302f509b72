import Mathlib.Algebra.Ring.Nat
import Mathlib.Data.List.DropRight

/-!
# Fields between separators

Reading a list of fields from a text where a separator stands between them, and
the two ways of writing one: with the separator between neighbours, and with
the separator behind every field that is not equal to the last.
-/

namespace Separated

variable {α : Type} [DecidableEq α]

/-- What a loop of `getline` extracts: an empty field at the end is none. -/
def getlines (delimiter : α) (s : List α) : List (List α) :=
  if (s.splitOn delimiter).getLast? = some [] then (s.splitOn delimiter).dropLast
  else s.splitOn delimiter

/-- Without the blanks at either end. -/
def trim (blank : α) (s : List α) : List α :=
  (s.dropWhile (· = blank)).rdropWhile (· = blank)

/-- The separator follows every field that differs from the last one. -/
def joinByValue (separator : List α) (fields : List (List α)) : List α :=
  fields.flatMap fun field ↦
    if fields.getLast? = some field then field else field ++ separator

section

variable {delimiter blank : α} {s field : List α} {fields : List (List α)}

theorem notMem_of_mem_splitOn (h : field ∈ s.splitOn delimiter) : delimiter ∉ field := by
  induction s generalizing field with
  | nil =>
      rw [List.splitOn_nil, List.mem_singleton] at h
      exact h ▸ List.not_mem_nil
  | cons a s ih =>
      rw [List.splitOn_cons_eq_if_modifyHead] at h
      obtain ⟨first, rest, hsplit⟩ := List.exists_cons_of_ne_nil (List.splitOn_ne_nil delimiter s)
      rw [hsplit] at h ih
      by_cases ha : a = delimiter
      · rw [if_pos (by simpa using ha)] at h
        rcases List.mem_cons.mp h with rfl | h
        · exact List.not_mem_nil
        · exact ih h
      · rw [if_neg (by simpa using ha)] at h
        rcases List.mem_cons.mp h with rfl | h
        · intro hmem
          rcases List.mem_cons.mp hmem with rfl | hmem
          · exact ha rfl
          · exact ih List.mem_cons_self hmem
        · exact ih (List.mem_cons_of_mem first h)

theorem notMem_of_mem_getlines (h : field ∈ getlines delimiter s) : delimiter ∉ field := by
  apply notMem_of_mem_splitOn (s := s)
  unfold getlines at h
  split_ifs at h
  · exact List.dropLast_subset _ h
  · exact h

/-- Fields are read back, up to an empty one at the end. -/
theorem getlines_intercalate (hfields : ∀ field ∈ fields, delimiter ∉ field)
    (hlast : fields.getLast? ≠ some []) :
    getlines delimiter (List.intercalate [delimiter] fields) = fields := by
  unfold getlines
  cases fields with
  | nil => simp
  | cons field fields =>
      rw [List.splitOn_intercalate delimiter hfields (List.cons_ne_nil _ _), if_neg hlast]

theorem getlines_intercalate_concat_nil (delimiter : α)
    (hfields : ∀ field ∈ fields, delimiter ∉ field) :
    getlines delimiter (List.intercalate [delimiter] (fields ++ [[]])) = fields := by
  have hall : ∀ field ∈ fields ++ [[]], delimiter ∉ field := by
    intro field hfield
    rcases List.mem_append.mp hfield with hfield | hfield
    · exact hfields field hfield
    · rw [List.mem_singleton.mp hfield]
      exact List.not_mem_nil
  have hsplit := List.splitOn_intercalate delimiter hall (by simp)
  simp only [getlines, hsplit, List.getLast?_concat, if_true, List.dropLast_concat]

omit [DecidableEq α] in
theorem intercalate_concat (separator last : List α) (hne : fields ≠ []) :
    List.intercalate separator (fields ++ [last]) =
      List.intercalate separator fields ++ (separator ++ last) := by
  induction fields with
  | nil => exact absurd rfl hne
  | cons field fields ih =>
      cases fields with
      | nil => simp
      | cons next fields =>
          have hrest := ih (List.cons_ne_nil next fields)
          simp only [List.cons_append, List.intercalate_cons_cons, List.append_assoc] at hrest ⊢
          rw [hrest]

/-- Unless the text ends with a separator, the fields that are extracted make it up. -/
theorem intercalate_getlines (hlast : s.getLast? ≠ some delimiter) :
    List.intercalate [delimiter] (getlines delimiter s) = s := by
  have hsplit : List.intercalate [delimiter] (s.splitOn delimiter) = s :=
    List.intercalate_splitOn delimiter
  unfold getlines
  split_ifs with hempty
  · obtain ⟨init, hinit⟩ := List.getLast?_eq_some_iff.mp hempty
    rw [hinit] at hsplit
    rw [hinit, List.dropLast_concat]
    by_cases hne : init = []
    · rw [hne] at hsplit ⊢
      exact hsplit
    · rw [intercalate_concat [delimiter] [] hne] at hsplit
      apply absurd _ hlast
      rw [← hsplit]
      simp
  · exact hsplit

omit [DecidableEq α] in
/-- The last field is the end of the text. -/
theorem getLast?_intercalate_ne (hfields : ∀ field ∈ fields, delimiter ∉ field)
    (hlast : fields.getLast? ≠ some []) :
    (List.intercalate [delimiter] fields).getLast? ≠ some delimiter := by
  rcases List.eq_nil_or_concat' fields with rfl | ⟨init, last, rfl⟩
  · simp
  · have hlast_ne : last ≠ [] := fun hnil ↦ hlast (by simp [hnil])
    have hend : (List.intercalate [delimiter] (init ++ [last])).getLast? = last.getLast? := by
      by_cases hne : init = []
      · simp [hne]
      · rw [intercalate_concat [delimiter] last hne, ← List.append_assoc,
          List.getLast?_append_of_ne_nil _ hlast_ne]
    rw [hend]
    intro hdelimiter
    exact hfields last (by simp) (List.mem_of_getLast? hdelimiter)

theorem trim_sublist (blank : α) (s : List α) : (trim blank s).Sublist s :=
  (List.rdropWhile_prefix _ _).sublist.trans (List.dropWhile_suffix _).sublist

theorem head?_dropWhile_ne (blank : α) (s : List α) :
    (s.dropWhile (· = blank)).head? ≠ some blank := by
  have hnot := List.head?_dropWhile_not (· = blank) s
  intro h
  rw [h] at hnot
  simp at hnot

theorem head?_trim_ne (blank : α) (s : List α) : (trim blank s).head? ≠ some blank := by
  have hdrop := head?_dropWhile_ne blank s
  obtain ⟨rest, hrest⟩ : trim blank s <+: s.dropWhile (· = blank) := List.rdropWhile_prefix _ _
  intro htrim
  rw [← hrest, List.head?_append, htrim] at hdrop
  exact hdrop rfl

theorem getLast?_trim_ne (blank : α) (s : List α) : (trim blank s).getLast? ≠ some blank := by
  intro htrim
  have hne : trim blank s ≠ [] := by
    intro hnil
    simp [hnil] at htrim
  have hlast := List.rdropWhile_last_not (· = blank) (s.dropWhile (· = blank)) hne
  rw [List.getLast?_eq_some_getLast hne, Option.some.injEq] at htrim
  exact hlast (decide_eq_true htrim)

/-- A text is trimmed when no blank stands at either end. -/
theorem trim_eq_self_iff :
    trim blank s = s ↔ s.head? ≠ some blank ∧ s.getLast? ≠ some blank := by
  constructor
  · intro h
    exact ⟨h ▸ head?_trim_ne blank s, h ▸ getLast?_trim_ne blank s⟩
  · rintro ⟨hhead, hlast⟩
    have hdrop : s.dropWhile (· = blank) = s := by
      cases s with
      | nil => rfl
      | cons a s => exact List.dropWhile_cons_of_neg (by simpa using hhead)
    rw [trim, hdrop, List.rdropWhile_eq_self_iff]
    intro hne hblank
    apply hlast
    rw [List.getLast?_eq_some_getLast hne]
    simpa using hblank

theorem trim_trim (blank : α) (s : List α) : trim blank (trim blank s) = trim blank s :=
  trim_eq_self_iff.mpr ⟨head?_trim_ne blank s, getLast?_trim_ne blank s⟩

/-- Splitting and trimming gives the fields back exactly when none of them holds
a separator or has a blank at an end, and the last one is not empty. -/
theorem map_trim_getlines_eq_iff (delimiter blank : α) (fields : List (List α)) :
    (getlines delimiter (List.intercalate [delimiter] fields)).map (trim blank) = fields ↔
      (∀ field ∈ fields, delimiter ∉ field ∧ trim blank field = field) ∧
        fields.getLast? ≠ some [] := by
  constructor
  · intro h
    have hfields : ∀ field ∈ fields, delimiter ∉ field ∧ trim blank field = field := by
      intro field hfield
      rw [← h] at hfield
      obtain ⟨token, htoken, rfl⟩ := List.mem_map.mp hfield
      refine ⟨fun hmem ↦ ?_, trim_trim blank token⟩
      exact notMem_of_mem_getlines htoken ((trim_sublist blank token).subset hmem)
    refine ⟨hfields, fun hlast ↦ ?_⟩
    obtain ⟨init, rfl⟩ := List.getLast?_eq_some_iff.mp hlast
    have hinit := getlines_intercalate_concat_nil delimiter fun field hfield ↦
      (hfields field (List.mem_append_left _ hfield)).1
    rw [hinit] at h
    have hlength := congrArg List.length h
    simp only [List.length_map, List.length_append, List.length_singleton] at hlength
    omega
  · rintro ⟨hfields, hlast⟩
    rw [getlines_intercalate (fun field hfield ↦ (hfields field hfield).1) hlast]
    exact (List.map_congr_left fun field hfield ↦ (hfields field hfield).2).trans (List.map_id _)

omit [DecidableEq α] in
theorem mem_intercalate {separator : List α} {a : α}
    (h : a ∈ List.intercalate separator fields) : a ∈ separator ∨ ∃ field ∈ fields, a ∈ field := by
  induction fields with
  | nil => exact absurd h List.not_mem_nil
  | cons field fields ih =>
      cases fields with
      | nil =>
          rw [List.intercalate_singleton] at h
          exact Or.inr ⟨field, List.mem_singleton_self field, h⟩
      | cons next fields =>
          rw [List.intercalate_cons_cons, List.mem_append, List.mem_append] at h
          rcases h with (h | h) | h
          · exact Or.inr ⟨field, List.mem_cons_self, h⟩
          · exact Or.inl h
          · rcases ih h with h | ⟨other, hother, h⟩
            · exact Or.inl h
            · exact Or.inr ⟨other, List.mem_cons_of_mem field hother, h⟩

omit [DecidableEq α] in
theorem mem_intercalate_of_mem (separator : List α) (hfield : field ∈ fields) {a : α}
    (ha : a ∈ field) : a ∈ List.intercalate separator fields := by
  induction fields with
  | nil => exact absurd hfield List.not_mem_nil
  | cons first fields ih =>
      cases fields with
      | nil =>
          rw [List.mem_singleton.mp hfield] at ha
          rwa [List.intercalate_singleton]
      | cons next fields =>
          rw [List.intercalate_cons_cons, List.mem_append, List.mem_append]
          rcases List.mem_cons.mp hfield with rfl | hfield
          · exact Or.inl (Or.inl ha)
          · exact Or.inr (ih hfield)

omit [DecidableEq α] in
/-- Every field but the last comes with a separator. -/
theorem length_intercalate (delimiter : α) (hne : fields ≠ []) :
    (List.intercalate [delimiter] fields).length + 1 =
      (fields.map fun field ↦ field.length + 1).sum := by
  induction fields with
  | nil => exact absurd rfl hne
  | cons field fields ih =>
      cases fields with
      | nil => simp
      | cons next fields =>
          have hrest := ih (List.cons_ne_nil next fields)
          simp only [List.intercalate_cons_cons, List.length_append, List.map_cons, List.sum_cons,
            List.length_cons, List.length_nil] at hrest ⊢
          omega

/-- Fields that are distinct are written with the separator between neighbours. -/
theorem joinByValue_eq_intercalate (separator : List α) (h : fields.Nodup) :
    joinByValue separator fields = List.intercalate separator fields := by
  rcases List.eq_nil_or_concat' fields with rfl | ⟨init, last, rfl⟩
  · rfl
  · have hnew : last ∉ init := by
      have hdisjoint := (List.nodup_append.mp h).2.2
      intro hmem
      exact hdisjoint last hmem last (List.mem_singleton_self last) rfl
    have hinit : ∀ fields : List (List α), last ∉ fields →
        (fields.flatMap fun field ↦ if some last = some field then field else field ++ separator) ++
          last = List.intercalate separator (fields ++ [last]) := by
      intro fields hfields
      induction fields with
      | nil => simp
      | cons field fields ih =>
          obtain ⟨hfield, hfields⟩ := List.ne_and_not_mem_of_not_mem_cons hfields
          have hrest := ih hfields
          rw [List.flatMap_cons, if_neg (by simpa using hfield), List.append_assoc,
            List.append_assoc, hrest, List.cons_append,
            List.intercalate_cons_of_ne_nil (by simp), List.append_assoc]
    have hjoin := hinit init hnew
    simp only [joinByValue, List.getLast?_concat, List.flatMap_append, List.flatMap_singleton,
      if_true]
    exact hjoin

end

end Separated
