import PublisherSubscriber.Shared.Documents

/-!
# Reading back what was written

The text of a value is a document.  It stands for the value with its numbers
typed as the reader types them, its strings read as code points and encoded
again, and its members assigned one after the other.
-/

namespace PublisherSubscriber

open OurReader

/-- The digits of a double: a number that is no integer and is read as the same double. -/
def Double.Printed (decodeDouble : Text → Option Double) (r : Double) : Prop :=
  (∃ m : NumberText, m.text = r.decimal) ∧ decodeNumber r.decimal = none ∧
    decodeDouble r.decimal = some r

namespace Json

mutual

/-- What a value is read back as. -/
def reread : Json → Json
  | null => null
  | int n => int n
  | uint n => if (n : ℤ) ≤ longLongMax then int n else uint n
  | real r => real r
  | string s => string (OurReader.reread s)
  | bool b => bool b
  | array elements => array (rereadElements elements)
  | object members =>
      object ((rereadMembers members).foldl (fun ms m ↦ assign m.1 m.2 ms) [])

def rereadElements : List Json → List Json
  | [] => []
  | v :: elements => v.reread :: rereadElements elements

def rereadMembers : List (Text × Json) → List (Text × Json)
  | [] => []
  | (key, v) :: members => (OurReader.reread key, v.reread) :: rereadMembers members

end

mutual

/-- How many brackets and braces are open around the innermost value. -/
def depth : Json → ℕ
  | array elements => depthOfElements elements
  | object members => depthOfMembers members
  | null => 0
  | int _ => 0
  | uint _ => 0
  | real _ => 0
  | string _ => 0
  | bool _ => 0

def depthOfElements : List Json → ℕ
  | [] => 0
  | v :: elements => max (v.depth + 1) (depthOfElements elements)

def depthOfMembers : List (Text × Json) → ℕ
  | [] => 0
  | (_, v) :: members => max (v.depth + 1) (depthOfMembers members)

end

section

variable (decodeDouble : Text → Option Double)

mutual

/-- The integers fit their types, the doubles are read as they are printed, so none of
them is NaN, and the names are not too long. -/
def Writable : Json → Prop
  | int n => longLongMin ≤ n ∧ n ≤ longLongMax
  | uint n => n < 18446744073709551616
  | real r => r.Printed decodeDouble
  | array elements => WritableElements elements
  | object members => WritableMembers members
  | null => True
  | string _ => True
  | bool _ => True

def WritableElements : List Json → Prop
  | [] => True
  | v :: elements => v.Writable ∧ WritableElements elements

def WritableMembers : List (Text × Json) → Prop
  | [] => True
  | (key, v) :: members =>
      (OurReader.reread key).length < 2 ^ 30 ∧ v.Writable ∧ WritableMembers members

end

end

variable {decodeDouble : Text → Option Double}

theorem denotes_of_value {depth : ℕ} {s : Text} {v : Json}
    (h : ∀ R, Value decodeDouble R s v) : Denotes decodeDouble depth s v := by
  cases depth with
  | zero => exact h _
  | succ depth => exact h _

/-- What `to_string` prints is a number. -/
theorem exists_numberText (n : ℤ) : ∃ m : NumberText, m.text = to_string n := by
  refine ⟨⟨n < 0, decimalDigits n.natAbs, [], [], decimalDigits_ne_nil _,
    fun _ ↦ isDigit_of_mem_decimalDigits, Or.inl rfl, Or.inl rfl⟩, ?_⟩
  by_cases hn : n < 0 <;> simp [NumberText.text, to_string, hn]

theorem value_number {R : Text → Json → Prop} {n : ℤ} {v : Json}
    (h : decodeNumber (to_string n) = some v) : Value decodeDouble R (to_string n) v := by
  obtain ⟨m, hm⟩ := exists_numberText n
  rw [← hm] at h ⊢
  exact .number m (by rw [h]; rfl)

theorem value_int {R : Text → Json → Prop} {n : ℤ} (hlower : longLongMin ≤ n)
    (hupper : n ≤ longLongMax) : Value decodeDouble R (to_string n) (int n) := by
  apply value_number
  have hnumber := decodeNumber_asString (v := int n) (Or.inr ⟨n, hlower, hupper, rfl⟩) rfl
  exact hnumber

theorem value_uint {R : Text → Json → Prop} {n : ℕ} (hn : n < 18446744073709551616) :
    Value decodeDouble R (to_string n) (uint n).reread := by
  apply value_number
  rw [reread]
  exact decodeNumber_of_nonneg hn

theorem denotes_string {depth : ℕ} (s : Text) :
    Denotes decodeDouble depth (valueToQuotedStringN s) (string (OurReader.reread s)) := by
  obtain ⟨content, hwritten, hcontent⟩ := valueToQuotedStringN_stringText s
  rw [hwritten]
  exact denotes_of_value fun R ↦ .string hcontent

theorem blank_nil : Blank [] := by rintro c ⟨⟩

mutual

/-- The text of a value is a document without blanks. -/
theorem denotes_writeValue : ∀ (v : Json) (depth : ℕ), v.Writable decodeDouble →
    v.depth ≤ depth → Denotes decodeDouble depth v.writeValue v.reread
  | null, _, _, _ => denotes_of_value fun R ↦ by
      rw [writeValue, reread]
      exact .null
  | int n, _, hv, _ => denotes_of_value fun R ↦ by
      rw [Writable] at hv
      rw [writeValue, reread]
      exact value_int hv.1 hv.2
  | uint n, _, hv, _ => denotes_of_value fun R ↦ by
      rw [Writable] at hv
      rw [writeValue]
      exact value_uint hv
  | real r, _, hv, _ => denotes_of_value fun R ↦ by
      rw [Writable] at hv
      obtain ⟨⟨m, hm⟩, hnumber, hdouble⟩ := hv
      rw [writeValue, reread, ← hm]
      refine .number m ?_
      rw [hm, hnumber, hdouble]
      rfl
  | string s, depth, _, _ => by
      rw [writeValue, reread]
      exact denotes_string s
  | bool b, _, _, _ => denotes_of_value fun R ↦ by
      rw [writeValue, reread]
      exact .bool b
  | array [], _, _, _ => denotes_of_value fun R ↦ by
      rw [writeValue, reread, writeElements, rereadElements]
      exact .emptyArray blank_nil
  | array (v :: elements), depth, hv, hdepth => by
      rw [Json.depth, depthOfElements] at hdepth
      obtain ⟨depth, rfl⟩ : ∃ d, depth = d + 1 := ⟨depth - 1, by omega⟩
      rw [Writable] at hv
      rw [writeValue, reread]
      exact .array (elements_writeElements v elements depth hv (by rwa [depthOfElements]))
  | object [], _, _, _ => denotes_of_value fun R ↦ by
      rw [writeValue, reread, writeMembers, rereadMembers]
      exact .emptyObject blank_nil
  | object (member :: members), depth, hv, hdepth => by
      have hpositive : 1 ≤ depth := by
        rw [Json.depth, depthOfMembers] at hdepth
        omega
      obtain ⟨depth, rfl⟩ : ∃ d, depth = d + 1 := ⟨depth - 1, by omega⟩
      rw [Writable] at hv
      rw [Json.depth] at hdepth
      rw [writeValue, reread]
      exact .object (members_writeMembers member members depth hv hdepth)

theorem elements_writeElements : ∀ (v : Json) (elements : List Json) (depth : ℕ),
    WritableElements decodeDouble (v :: elements) →
      depthOfElements (v :: elements) ≤ depth + 1 →
        Elements (Denotes decodeDouble depth) (writeElements (v :: elements) ++ ascii "]")
          (rereadElements (v :: elements))
  | v, [], depth, hv, hdepth => by
      rw [WritableElements] at hv
      rw [depthOfElements] at hdepth
      rw [writeElements, rereadElements, rereadElements]
      exact .last blank_nil (denotes_writeValue v depth hv.1 (by omega)) blank_nil
  | v, w :: elements, depth, hv, hdepth => by
      rw [WritableElements] at hv
      rw [depthOfElements] at hdepth
      have hrest := elements_writeElements w elements depth hv.2 (by omega)
      rw [writeElements, rereadElements, List.append_assoc, List.append_assoc]
      · exact .cons blank_nil (denotes_writeValue v depth hv.1 (by omega)) blank_nil hrest
      · rintro ⟨⟩

theorem members_writeMembers : ∀ (member : Text × Json) (members : List (Text × Json))
    (depth : ℕ), WritableMembers decodeDouble (member :: members) →
      depthOfMembers (member :: members) ≤ depth + 1 →
        Members (Denotes decodeDouble depth) (writeMembers (member :: members) ++ ascii "\x7d")
          (rereadMembers (member :: members))
  | (key, v), [], depth, hv, hdepth => by
      rw [WritableMembers] at hv
      rw [depthOfMembers] at hdepth
      obtain ⟨content, hwritten, hcontent⟩ := valueToQuotedStringN_stringText key
      have hvalue := denotes_writeValue v depth hv.2.1 (by omega)
      rw [writeMembers, rereadMembers, rereadMembers, hwritten, List.cons_append,
        List.cons_append, List.cons_append]
      simp only [List.append_assoc]
      exact .last blank_nil hcontent hv.1 blank_nil blank_nil hvalue blank_nil
  | (key, v), member :: members, depth, hv, hdepth => by
      rw [WritableMembers] at hv
      rw [depthOfMembers] at hdepth
      obtain ⟨content, hwritten, hcontent⟩ := valueToQuotedStringN_stringText key
      have hvalue := denotes_writeValue v depth hv.2.1 (by omega)
      have hrest := members_writeMembers member members depth hv.2.2 (by omega)
      rw [writeMembers, rereadMembers, hwritten, List.cons_append, List.cons_append,
        List.cons_append, List.cons_append, List.cons_append]
      · simp only [List.append_assoc]
        exact .cons blank_nil hcontent hv.1 blank_nil blank_nil hvalue blank_nil hrest
      · rintro ⟨⟩

end

/-- The library reads the value that its text stands for. -/
theorem parse_writeValue {v : Json} (hv : v.Writable decodeDouble) (hdepth : v.depth < stackLimit) :
    parse decodeDouble v.writeValue = .ok (some v.reread) :=
  parse_of_document hdepth
    ⟨[], v.writeValue, [], blank_nil, denotes_writeValue v v.depth hv (le_refl _), blank_nil, by
      rw [List.append_nil, List.nil_append]⟩

/-! ## What holds of every written text -/

/-- What holds of the pieces a text is written from, and of their composition. -/
structure Pieces (P : Text → Prop) : Prop where
  append : ∀ s t, P s → P t → P (s ++ t)
  braces : ∀ s, P s → P (ascii "\x7b" ++ s ++ ascii "\x7d")
  nil : P []
  numeral : ∀ m : NumberText, P m.text
  string : ∀ s, P (valueToQuotedStringN s)
  word : ∀ word ∈ ["null", "true", "false", "[", "]", ",", ":"], P (ascii word)

namespace Pieces

variable {P : Text → Prop} (h : Pieces P)

include h

theorem to_string (n : ℤ) : P (PublisherSubscriber.to_string n) := by
  obtain ⟨m, hm⟩ := exists_numberText n
  exact hm ▸ h.numeral m

theorem member {t : Text} (key : Text) (ht : P t) :
    P (valueToQuotedStringN key ++ ascii ":" ++ t) :=
  h.append _ _ (h.append _ _ (h.string key) (h.word ":" (by simp))) ht

theorem separated {s t : Text} (hs : P s) (ht : P t) : P (s ++ ascii "," ++ t) :=
  h.append _ _ (h.append _ _ hs (h.word "," (by simp))) ht

mutual

theorem writeValue : ∀ v : Json, v.Writable decodeDouble → P v.writeValue
  | null, _ => by rw [Json.writeValue]; exact h.word "null" (by simp)
  | int n, _ => by rw [Json.writeValue]; exact h.to_string n
  | uint n, _ => by rw [Json.writeValue]; exact h.to_string n
  | real r, hv => by
      rw [Writable] at hv
      obtain ⟨⟨m, hm⟩, -⟩ := hv
      rw [Json.writeValue, ← hm]
      exact h.numeral m
  | .string s, _ => by rw [Json.writeValue]; exact h.string s
  | bool b, _ => by
      rw [Json.writeValue]
      cases b
      · exact h.word "false" (by simp)
      · exact h.word "true" (by simp)
  | array elements, hv => by
      rw [Writable] at hv
      rw [Json.writeValue]
      exact h.append _ _ (h.append _ _ (h.word "[" (by simp)) (writeElements elements hv))
        (h.word "]" (by simp))
  | object members, hv => by
      rw [Writable] at hv
      rw [Json.writeValue]
      exact h.braces _ (writeMembers members hv)

theorem writeElements : ∀ elements : List Json,
    WritableElements decodeDouble elements → P (Json.writeElements elements)
  | [], _ => by rw [Json.writeElements]; exact h.nil
  | [v], hv => by
      rw [WritableElements] at hv
      rw [Json.writeElements]
      exact writeValue v hv.1
  | v :: w :: elements, hv => by
      rw [WritableElements] at hv
      rw [Json.writeElements]
      · exact h.separated (writeValue v hv.1) (writeElements (w :: elements) hv.2)
      · rintro ⟨⟩

theorem writeMembers : ∀ members : List (Text × Json),
    WritableMembers decodeDouble members → P (Json.writeMembers members)
  | [], _ => by rw [Json.writeMembers]; exact h.nil
  | [(key, v)], hv => by
      rw [WritableMembers] at hv
      rw [Json.writeMembers]
      exact h.member key (writeValue v hv.2.1)
  | (key, v) :: member :: members, hv => by
      rw [WritableMembers] at hv
      rw [Json.writeMembers]
      · exact h.separated (h.member key (writeValue v hv.2.1))
          (writeMembers (member :: members) hv.2.2)
      · rintro ⟨⟩

end

end Pieces

end Json

end PublisherSubscriber
