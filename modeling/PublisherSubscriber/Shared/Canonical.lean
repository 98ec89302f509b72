import PublisherSubscriber.Shared.Written

/-!
# The values that the reader builds

Their members are sorted, and each number has the smallest type it fits.  Such
a value comes back unchanged when it is written and read again, unless one of
its strings is not valid.
-/

namespace PublisherSubscriber

open OurReader

/-- A text that is valid UTF-8. -/
def ValidText (s : Text) : Prop := ∃ cs : List Char, s = utf8 cs

namespace Json

/-! ## Members in order -/

def Sorted (members : List (Text × Json)) : Prop := members.Pairwise fun m n ↦ m.1 < n.1

theorem lt_of_not_lt {s t : Text} (hne : s ≠ t) (h : ¬ s < t) : t < s := by
  rcases List.le_iff_lt_or_eq.mp (List.not_lt.mp h) with hlt | heq
  · exact hlt
  · exact absurd heq.symm hne

theorem mem_assign {key : Text} {v : Json} {members : List (Text × Json)} {m : Text × Json}
    (h : m ∈ assign key v members) : m = (key, v) ∨ m ∈ members := by
  induction members with
  | nil => exact Or.inl (List.mem_singleton.mp h)
  | cons member members ih =>
      obtain ⟨k, u⟩ := member
      rw [assign] at h
      split_ifs at h with hsame hlt
      · rcases List.mem_cons.mp h with rfl | h
        · exact Or.inl (by rw [hsame])
        · exact Or.inr (List.mem_cons_of_mem _ h)
      · rcases List.mem_cons.mp h with rfl | h
        · exact Or.inl rfl
        · exact Or.inr h
      · rcases List.mem_cons.mp h with rfl | h
        · exact Or.inr (by simp)
        · exact (ih h).imp_right (List.mem_cons_of_mem _)

theorem sorted_assign {key : Text} {v : Json} {members : List (Text × Json)}
    (h : Sorted members) : Sorted (assign key v members) := by
  induction members with
  | nil => exact List.pairwise_singleton _ _
  | cons member members ih =>
      obtain ⟨k, u⟩ := member
      obtain ⟨hfirst, hrest⟩ := List.pairwise_cons.mp h
      rw [assign]
      split_ifs with hsame hlt
      · exact List.pairwise_cons.mpr ⟨hfirst, hrest⟩
      · refine List.pairwise_cons.mpr ⟨fun m hm ↦ ?_, h⟩
        rcases List.mem_cons.mp hm with rfl | hm
        · exact hlt
        · exact List.lt_trans hlt (hfirst m hm)
      · refine List.pairwise_cons.mpr ⟨fun m hm ↦ ?_, ih hrest⟩
        rcases mem_assign hm with rfl | hm
        · exact lt_of_not_lt hsame hlt
        · exact hfirst m hm

/-- A name behind all others is added at the end. -/
theorem assign_of_forall_lt {key : Text} {v : Json} {members : List (Text × Json)}
    (h : ∀ m ∈ members, m.1 < key) : assign key v members = members ++ [(key, v)] := by
  induction members with
  | nil => rfl
  | cons member members ih =>
      obtain ⟨k, u⟩ := member
      obtain ⟨hk, hmembers⟩ := List.forall_mem_cons.mp h
      have hne : key ≠ k := by
        rintro rfl
        exact List.lt_irrefl _ hk
      rw [assign, if_neg hne, if_neg (List.lt_asymm hk), ih hmembers, List.cons_append]

theorem foldl_assign_of_sorted {members done : List (Text × Json)}
    (h : Sorted (done ++ members)) :
    members.foldl (fun ms m ↦ assign m.1 m.2 ms) done = done ++ members := by
  induction members generalizing done with
  | nil => rw [List.foldl_nil, List.append_nil]
  | cons member members ih =>
      have hlt : ∀ m ∈ done, m.1 < member.1 := fun m hm ↦
        (List.pairwise_append.mp h).2.2 m hm member (by simp)
      rw [List.foldl_cons, assign_of_forall_lt hlt, ih (by simpa using h), List.append_assoc,
        List.singleton_append]

theorem foldl_assign_keeps {P : Text × Json → Prop} {members done : List (Text × Json)}
    (hmembers : ∀ m ∈ members, P m) (hdone : ∀ m ∈ done, P m) :
    ∀ m ∈ members.foldl (fun ms m ↦ assign m.1 m.2 ms) done, P m := by
  induction members generalizing done with
  | nil => exact hdone
  | cons member members ih =>
      obtain ⟨hfirst, hrest⟩ := List.forall_mem_cons.mp hmembers
      refine ih hrest fun m hm ↦ ?_
      rcases mem_assign hm with rfl | hm
      · exact hfirst
      · exact hdone m hm

theorem sorted_foldl_assign {members done : List (Text × Json)} (h : Sorted done) :
    Sorted (members.foldl (fun ms m ↦ assign m.1 m.2 ms) done) := by
  induction members generalizing done with
  | nil => exact h
  | cons member members ih => exact ih (sorted_assign h)

/-! ## Canonical values -/

mutual

/-- The values as the reader types them. -/
def Canonical : Json → Prop
  | int n => longLongMin ≤ n ∧ n ≤ longLongMax
  | uint n => longLongMax < n ∧ n < 18446744073709551616
  | array elements => CanonicalElements elements
  | object members => CanonicalMembers members
  | null => True
  | real _ => True
  | string _ => True
  | bool _ => True

def CanonicalElements : List Json → Prop
  | [] => True
  | v :: elements => v.Canonical ∧ CanonicalElements elements

def CanonicalMembers : List (Text × Json) → Prop
  | [] => True
  | (key, v) :: members =>
      (∀ m ∈ members, key < m.1) ∧ key.length < 2 ^ 30 ∧ v.Canonical ∧ CanonicalMembers members

end

mutual

/-- The strings and the names are valid. -/
def Valid : Json → Prop
  | string s => ValidText s
  | array elements => ValidElements elements
  | object members => ValidMembers members
  | null => True
  | int _ => True
  | uint _ => True
  | real _ => True
  | bool _ => True

def ValidElements : List Json → Prop
  | [] => True
  | v :: elements => v.Valid ∧ ValidElements elements

def ValidMembers : List (Text × Json) → Prop
  | [] => True
  | (key, v) :: members => ValidText key ∧ v.Valid ∧ ValidMembers members

end

theorem canonicalElements_iff (elements : List Json) :
    CanonicalElements elements ↔ ∀ v ∈ elements, v.Canonical := by
  induction elements with
  | nil => simp [CanonicalElements]
  | cons v elements ih => rw [CanonicalElements, ih, List.forall_mem_cons]

theorem canonicalMembers_iff (members : List (Text × Json)) : CanonicalMembers members ↔
    Sorted members ∧ ∀ m ∈ members, m.1.length < 2 ^ 30 ∧ m.2.Canonical := by
  induction members with
  | nil => simp [CanonicalMembers, Sorted]
  | cons member members ih =>
      obtain ⟨key, v⟩ := member
      rw [CanonicalMembers, ih, Sorted, Sorted, List.pairwise_cons, List.forall_mem_cons]
      tauto

theorem validElements_iff (elements : List Json) :
    ValidElements elements ↔ ∀ v ∈ elements, v.Valid := by
  induction elements with
  | nil => simp [ValidElements]
  | cons v elements ih => rw [ValidElements, ih, List.forall_mem_cons]

theorem validMembers_iff (members : List (Text × Json)) :
    ValidMembers members ↔ ∀ m ∈ members, ValidText m.1 ∧ m.2.Valid := by
  induction members with
  | nil => simp [ValidMembers]
  | cons member members ih =>
      obtain ⟨key, v⟩ := member
      rw [ValidMembers, ih, List.forall_mem_cons, and_assoc]

/-! ## The values that come back unchanged -/

mutual

theorem reread_eq_self : ∀ v : Json, v.Canonical → v.Valid → v.reread = v
  | null, _, _ => by rw [reread]
  | int n, _, _ => by rw [reread]
  | uint n, hv, _ => by
      rw [Canonical] at hv
      rw [reread, if_neg (by omega)]
  | real r, _, _ => by rw [reread]
  | string s, _, hvalid => by
      rw [Valid] at hvalid
      rw [reread, (reread_eq_self_iff s).mpr hvalid]
  | bool b, _, _ => by rw [reread]
  | array elements, hv, hvalid => by
      rw [Canonical] at hv
      rw [Valid] at hvalid
      rw [reread, rereadElements_eq_self elements hv hvalid]
  | object members, hv, hvalid => by
      rw [Canonical] at hv
      rw [Valid] at hvalid
      have hsame : members.foldl (fun ms m ↦ assign m.1 m.2 ms) [] = members :=
        foldl_assign_of_sorted ((canonicalMembers_iff members).mp hv).1
      rw [reread, rereadMembers_eq_self members hv hvalid, hsame]

theorem rereadElements_eq_self : ∀ elements : List Json, CanonicalElements elements →
    ValidElements elements → rereadElements elements = elements
  | [], _, _ => by rw [rereadElements]
  | v :: elements, hv, hvalid => by
      rw [CanonicalElements] at hv
      rw [ValidElements] at hvalid
      rw [rereadElements, reread_eq_self v hv.1 hvalid.1,
        rereadElements_eq_self elements hv.2 hvalid.2]

theorem rereadMembers_eq_self : ∀ members : List (Text × Json), CanonicalMembers members →
    ValidMembers members → rereadMembers members = members
  | [], _, _ => by rw [rereadMembers]
  | (key, v) :: members, hv, hvalid => by
      rw [CanonicalMembers] at hv
      rw [ValidMembers] at hvalid
      rw [rereadMembers, (OurReader.reread_eq_self_iff key).mpr hvalid.1,
        reread_eq_self v hv.2.2.1 hvalid.2.1, rereadMembers_eq_self members hv.2.2.2 hvalid.2.2]

end

mutual

theorem valid_reread : ∀ v : Json, v.reread.Valid
  | null => by rw [reread, Valid]; trivial
  | int n => by rw [reread, Valid]; trivial
  | uint n => by
      rw [reread]
      split_ifs <;> rw [Valid] <;> trivial
  | real r => by rw [reread, Valid]; trivial
  | string s => by
      rw [reread, Valid]
      exact exists_reread_eq_utf8 s
  | bool b => by rw [reread, Valid]; trivial
  | array elements => by
      rw [reread, Valid, validElements_iff]
      exact valid_rereadElements elements
  | object members => by
      rw [reread, Valid, validMembers_iff]
      exact foldl_assign_keeps (valid_rereadMembers members) (by simp)

theorem valid_rereadElements : ∀ (elements : List Json), ∀ v ∈ rereadElements elements, v.Valid
  | [] => by simp [rereadElements]
  | v :: elements => by
      rw [rereadElements, List.forall_mem_cons]
      exact ⟨valid_reread v, valid_rereadElements elements⟩

theorem valid_rereadMembers : ∀ (members : List (Text × Json)), ∀ m ∈ rereadMembers members,
    ValidText m.1 ∧ m.2.Valid
  | [] => by simp [rereadMembers]
  | (key, v) :: members => by
      rw [rereadMembers, List.forall_mem_cons]
      exact ⟨⟨exists_reread_eq_utf8 key, valid_reread v⟩, valid_rereadMembers members⟩

end

variable {decodeDouble : Text → Option Double}

mutual

theorem canonical_reread : ∀ v : Json, v.Writable decodeDouble → v.reread.Canonical
  | null, _ => by rw [reread, Canonical]; trivial
  | int n, hv => by
      rw [Writable] at hv
      rwa [reread, Canonical]
  | uint n, hv => by
      rw [Writable] at hv
      rw [reread]
      split_ifs with hsmall
      · rw [Canonical]
        simp only [longLongMin]
        omega
      · rw [Canonical]
        omega
  | real r, _ => by rw [reread, Canonical]; trivial
  | string s, _ => by rw [reread, Canonical]; trivial
  | bool b, _ => by rw [reread, Canonical]; trivial
  | array elements, hv => by
      rw [Writable] at hv
      rw [reread, Canonical, canonicalElements_iff]
      exact canonical_rereadElements elements hv
  | object members, hv => by
      rw [Writable] at hv
      rw [reread, Canonical, canonicalMembers_iff]
      exact ⟨sorted_foldl_assign List.Pairwise.nil,
        foldl_assign_keeps (canonical_rereadMembers members hv) (by simp)⟩

theorem canonical_rereadElements : ∀ (elements : List Json),
    WritableElements decodeDouble elements → ∀ v ∈ rereadElements elements, v.Canonical
  | [], _ => by simp [rereadElements]
  | v :: elements, hv => by
      rw [WritableElements] at hv
      rw [rereadElements, List.forall_mem_cons]
      exact ⟨canonical_reread v hv.1, canonical_rereadElements elements hv.2⟩

theorem canonical_rereadMembers : ∀ (members : List (Text × Json)),
    WritableMembers decodeDouble members →
      ∀ m ∈ rereadMembers members, m.1.length < 2 ^ 30 ∧ m.2.Canonical
  | [], _ => by simp [rereadMembers]
  | (key, v) :: members, hv => by
      rw [WritableMembers] at hv
      rw [rereadMembers, List.forall_mem_cons]
      exact ⟨⟨hv.1, canonical_reread v hv.2.1⟩, canonical_rereadMembers members hv.2.2⟩

end

/-- What came back once comes back unchanged from then on. -/
theorem reread_reread {v : Json} (hv : v.Writable decodeDouble) : v.reread.reread = v.reread :=
  reread_eq_self v.reread (canonical_reread v hv) (valid_reread v)

/-! ## The values that are read -/

theorem depthOfMembers_le_iff {members : List (Text × Json)} {n : ℕ} :
    depthOfMembers members ≤ n ↔ ∀ m ∈ members, m.2.depth + 1 ≤ n := by
  induction members with
  | nil => simp [depthOfMembers]
  | cons member members ih =>
      obtain ⟨key, v⟩ := member
      rw [depthOfMembers, Nat.max_le, ih, List.forall_mem_cons]

/-- A value that may be read with a stack of this size. -/
def Fits (nodes : ℕ) (v : Json) : Prop := v.Canonical ∧ nodes + v.depth ≤ stackLimit

end Json

end PublisherSubscriber
