import Mathlib.Data.List.Nodup

/-!
# Values kept beside their names

A record with a fixed list of names keeps its values in a second list, and the
position of a name is the position of its value.
-/

namespace Slots

variable {κ α : Type} [DecidableEq κ]

/-- The value kept for a name. -/
def read (names : List κ) (values : List α) (d : α) (name : κ) : α :=
  values.getD (names.idxOf name) d

/-- Replacing the value kept for a name. -/
def write (names : List κ) (values : List α) (name : κ) (value : α) : List α :=
  values.set (names.idxOf name) value

variable {names : List κ} {values : List α} {name : κ} {d : α}

@[simp] theorem length_write (names : List κ) (values : List α) (name : κ) (value : α) :
    (write names values name value).length = values.length :=
  List.length_set

theorem read_write_self (hlength : values.length = names.length) (hname : name ∈ names)
    (value : α) : read names (write names values name value) d name = value := by
  have hlt : names.idxOf name < values.length := by
    rw [hlength]
    exact List.idxOf_lt_length_of_mem hname
  simp [read, write, List.getD_eq_getElem?_getD, hlt]

theorem read_write_ne {other : κ} (hname : name ∈ names) (hne : other ≠ name) (value : α) :
    read names (write names values name value) d other = read names values d other := by
  have hidx : names.idxOf name ≠ names.idxOf other := fun h ↦
    hne ((List.idxOf_inj hname).mp h).symm
  simp [read, write, List.getD_eq_getElem?_getD, hidx]

theorem read_cons_ne {other : κ} (hne : name ≠ other) (value : α) :
    read (name :: names) (value :: values) d other = read names values d other := by
  simp [read, List.idxOf_cons_ne _ hne]

@[simp] theorem read_cons_self (value : α) :
    read (name :: names) (value :: values) d name = value := by
  simp [read]

/-- Reading every name in turn gives the values back. -/
theorem map_read (hnames : names.Nodup) (hlength : values.length = names.length) :
    names.map (read names values d) = values := by
  induction names generalizing values with
  | nil => exact (List.length_eq_zero_iff.mp hlength).symm
  | cons name names ih =>
      obtain ⟨hname, hnames⟩ := List.nodup_cons.mp hnames
      cases values with
      | nil => simp at hlength
      | cons value values =>
          have hrest := ih hnames (by simpa using hlength)
          rw [List.map_cons, read_cons_self]
          congr 1
          refine Eq.trans (List.map_congr_left fun other hother ↦ ?_) hrest
          apply read_cons_ne
          rintro rfl
          exact hname hother

/-- The values are determined by what every name reads. -/
theorem values_ext {values' : List α} (hnames : names.Nodup)
    (hlength : values.length = names.length) (hlength' : values'.length = names.length)
    (h : ∀ name ∈ names, read names values d name = read names values' d name) :
    values = values' := by
  rw [← map_read hnames hlength (d := d), ← map_read hnames hlength' (d := d)]
  exact List.map_congr_left h

theorem forall_mem_values {p : α → Prop} (hnames : names.Nodup)
    (hlength : values.length = names.length) :
    (∀ value ∈ values, p value) ↔ ∀ name ∈ names, p (read names values d name) := by
  conv_lhs => rw [← map_read hnames hlength (d := d)]
  simp

theorem read_map_const (hname : name ∈ names) : read names (names.map fun _ ↦ d) d name = d := by
  have hlt := List.idxOf_lt_length_of_mem hname
  simp [read, List.getD_eq_getElem?_getD, hlt]

/-- Writing several names in turn. -/
theorem read_foldl_write {written : List κ} (hwritten : ∀ name ∈ written, name ∈ names)
    (hlength : values.length = names.length) (f : κ → α) (name : κ) :
    read names (written.foldl (fun values name ↦ write names values name (f name)) values) d name =
      if name ∈ written then f name else read names values d name := by
  induction written generalizing values with
  | nil => simp
  | cons first written ih =>
      have hfirst := hwritten first (by simp)
      have hrest := fun other hother ↦ hwritten other (List.mem_cons_of_mem first hother)
      have hlength' := (length_write names values first (f first)).trans hlength
      rw [List.foldl_cons, ih hrest hlength']
      by_cases hname : name = first
      · subst hname
        simp [read_write_self hlength hfirst]
      · simp [hname, read_write_ne hfirst hname]

theorem length_foldl_write (written : List κ) (f : κ → α) :
    (written.foldl (fun values name ↦ write names values name (f name)) values).length =
      values.length := by
  induction written generalizing values with
  | nil => rfl
  | cons name written ih => rw [List.foldl_cons, ih, length_write]

/-- Writing every name leaves nothing of the old values. -/
theorem foldl_write_names (hnames : names.Nodup) (hlength : values.length = names.length)
    (f : κ → α) :
    names.foldl (fun values name ↦ write names values name (f name)) values = names.map f := by
  have hfold : (names.foldl (fun values name ↦ write names values name (f name)) values).length =
      names.length := by
    rw [length_foldl_write, hlength]
  cases names with
  | nil => simpa using hlength
  | cons first rest =>
      rw [← map_read hnames hfold (d := f first)]
      apply List.map_congr_left
      intro name hname
      rw [read_foldl_write (fun _ h ↦ h) hlength, if_pos hname]

end Slots
