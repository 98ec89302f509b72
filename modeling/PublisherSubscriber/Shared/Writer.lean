import PublisherSubscriber.Shared.Json
import Mathlib.Algebra.Ring.Nat

/-!
# The JSON writer

`writeString` without indentation, as the library under `include` computes it.
Strings are written in ASCII: bytes are read as UTF-8, and what lies beyond
ASCII or is a control character becomes an escape.
-/

namespace PublisherSubscriber

def replacementCharacter : ℕ := 0xFFFD

/-- The code point that begins with `firstByte`, and how many of the bytes `s`
behind it were used.  Masks and shifts are remainders and products. -/
def utf8ToCodepoint (firstByte : ℕ) (s : Text) : ℕ × ℕ :=
  if firstByte < 0x80 then (firstByte, 0)
  else if firstByte < 0xE0 then
    match s with
    | s₁ :: _ =>
        let calculated := firstByte % 32 * 64 + s₁.toNat % 64
        (if calculated < 0x80 then replacementCharacter else calculated, 1)
    | _ => (replacementCharacter, 0)
  else if firstByte < 0xF0 then
    match s with
    | s₁ :: s₂ :: _ =>
        let calculated := firstByte % 16 * 4096 + s₁.toNat % 64 * 64 + s₂.toNat % 64
        (if 0xD800 ≤ calculated ∧ calculated ≤ 0xDFFF then replacementCharacter
          else if calculated < 0x800 then replacementCharacter else calculated, 2)
    | _ => (replacementCharacter, 0)
  else if firstByte < 0xF8 then
    match s with
    | s₁ :: s₂ :: s₃ :: _ =>
        let calculated := firstByte % 8 * 262144 + s₁.toNat % 64 * 4096 + s₂.toNat % 64 * 64 +
          s₃.toNat % 64
        (if calculated < 0x10000 then replacementCharacter else calculated, 3)
    | _ => (replacementCharacter, 0)
  else (replacementCharacter, 0)

def hexDigit (n : ℕ) : UInt8 := UInt8.ofNat (if n < 10 then 48 + n else 87 + n)

def toHex16Bit (x : ℕ) : Text :=
  [hexDigit (x / 4096 % 16), hexDigit (x / 256 % 16), hexDigit (x / 16 % 16), hexDigit (x % 16)]

def appendHex (x : ℕ) : Text := ascii "\\u" ++ toHex16Bit x

/-- The named cases of the switch over the bytes. -/
def namedEscape (c : ℕ) : Option Text :=
  if c = 34 then some (ascii "\\\"")
  else if c = 92 then some (ascii "\\\\")
  else if c = 8 then some (ascii "\\b")
  else if c = 12 then some (ascii "\\f")
  else if c = 10 then some (ascii "\\n")
  else if c = 13 then some (ascii "\\r")
  else if c = 9 then some (ascii "\\t")
  else none

/-- The default case of the switch; what lies beyond 16 bits is a surrogate pair. -/
def escapedCodepoint (codepoint : ℕ) : Text :=
  if codepoint < 0x20 then appendHex codepoint
  else if codepoint < 0x80 then [UInt8.ofNat codepoint]
  else if codepoint < 0x10000 then appendHex codepoint
  else appendHex (0xD800 + (codepoint - 0x10000) / 1024 % 1024) ++
    appendHex (0xDC00 + (codepoint - 0x10000) % 1024)

/-- The loop over the bytes; the first `used` of them belong to a code point
that is already written. -/
def escapeFrom : ℕ → Text → Text
  | _, [] => []
  | used + 1, _ :: s => escapeFrom used s
  | 0, c :: s =>
      match namedEscape c.toNat with
      | some text => text ++ escapeFrom 0 s
      | none =>
          escapedCodepoint (utf8ToCodepoint c.toNat s).1 ++
            escapeFrom (utf8ToCodepoint c.toNat s).2 s

def requiresEscaping (c : UInt8) : Bool := c = 92 || c = 34 || c < 32 || 127 < c

def valueToQuotedStringN (value : Text) : Text :=
  if value.any requiresEscaping then ascii "\"" ++ escapeFrom 0 value ++ ascii "\""
  else ascii "\"" ++ value ++ ascii "\""

namespace Json

mutual

def writeValue : Json → Text
  | null => ascii "null"
  | int n => to_string n
  | uint n => to_string n
  | real r => r.decimal
  | string s => valueToQuotedStringN s
  | bool b => ascii (if b then "true" else "false")
  | array elements => ascii "[" ++ writeElements elements ++ ascii "]"
  | object members => ascii "\x7b" ++ writeMembers members ++ ascii "\x7d"

def writeElements : List Json → Text
  | [] => []
  | [v] => writeValue v
  | v :: elements => writeValue v ++ ascii "," ++ writeElements elements

def writeMembers : List (Text × Json) → Text
  | [] => []
  | [(key, v)] => valueToQuotedStringN key ++ ascii ":" ++ writeValue v
  | (key, v) :: members =>
      valueToQuotedStringN key ++ ascii ":" ++ writeValue v ++ ascii "," ++ writeMembers members

end

end Json

/-- The library with its own writer, and some reader. -/
def JsonLibrary.jsoncpp (parse : Text → Except CppException (Option Json)) : JsonLibrary where
  parse := parse
  writeString := Json.writeValue

/-- The library with a reader that knows the texts of these values only. -/
def JsonLibrary.jsoncppOf (values : List Json) : JsonLibrary :=
  jsoncpp fun text ↦ .ok (values.find? fun v ↦ v.writeValue = text)

theorem JsonLibrary.readsBack_jsoncppOf_head (v : Json) (values : List Json) :
    (jsoncppOf (v :: values)).ReadsBack v := by
  simp [ReadsBack, jsoncppOf, jsoncpp]

/-! ## Code points -/

/-- The code points that the writer reads in a string. -/
def codepointsFrom : ℕ → Text → List ℕ
  | _, [] => []
  | used + 1, _ :: s => codepointsFrom used s
  | 0, c :: s =>
      (utf8ToCodepoint c.toNat s).1 :: codepointsFrom (utf8ToCodepoint c.toNat s).2 s

def escapedCharacter (codepoint : ℕ) : Text :=
  (namedEscape codepoint).getD (escapedCodepoint codepoint)

theorem namedEscape_eq_none {c : ℕ} (hc : 0x80 ≤ c) : namedEscape c = none := by
  simp only [namedEscape]
  split_ifs <;> first | rfl | omega

theorem utf8ToCodepoint_of_lt {c : ℕ} (hc : c < 0x80) (s : Text) : utf8ToCodepoint c s = (c, 0) :=
  if_pos hc

/-- What is not ASCII is not read as ASCII, however badly it is encoded. -/
theorem le_utf8ToCodepoint {c : ℕ} (hc : 0x80 ≤ c) (s : Text) : 0x80 ≤ (utf8ToCodepoint c s).1 := by
  unfold utf8ToCodepoint replacementCharacter
  split_ifs with h₁ h₂ h₃ h₄
  · omega
  · split
    · dsimp only
      split_ifs <;> omega
    · decide
  · split
    · dsimp only
      split_ifs <;> omega
    · decide
  · split
    · dsimp only
      split_ifs <;> omega
    · decide
  · decide

theorem plain_bounds {c : UInt8} (hc : requiresEscaping c = false) :
    c.toNat ≠ 34 ∧ c.toNat ≠ 92 ∧ 32 ≤ c.toNat ∧ c.toNat < 128 := by
  simp only [requiresEscaping, Bool.or_eq_false_iff, decide_eq_false_iff_not,
    UInt8.lt_iff_toNat_lt, ← UInt8.toNat_inj, UInt8.reduceToNat] at hc
  omega

theorem namedEscape_of_plain {c : UInt8} (hc : requiresEscaping c = false) :
    namedEscape c.toNat = none := by
  have hbounds := plain_bounds hc
  simp only [namedEscape]
  split_ifs <;> first | rfl | omega

/-- Strings that need no escape are written as they are. -/
theorem escapeFrom_of_plain {s : Text} (h : ∀ c ∈ s, requiresEscaping c = false) :
    escapeFrom 0 s = s := by
  induction s with
  | nil => rfl
  | cons c s ih =>
      obtain ⟨hc, hs⟩ := List.forall_mem_cons.mp h
      have hbounds := plain_bounds hc
      have hnone := namedEscape_of_plain hc
      have hcodepoint : escapedCodepoint c.toNat = [c] := by
        rw [escapedCodepoint, if_neg (by omega), if_pos (by omega), UInt8.ofNat_toNat]
      rw [escapeFrom, hnone]
      dsimp only
      rw [utf8ToCodepoint_of_lt (by omega), hcodepoint, ih hs]
      rfl

/-- The loop escapes the code points one after the other. -/
theorem escapeFrom_eq (used : ℕ) (s : Text) :
    escapeFrom used s = (codepointsFrom used s).flatMap escapedCharacter := by
  induction s generalizing used with
  | nil => cases used <;> rfl
  | cons c s ih =>
      cases used with
      | succ used => exact ih used
      | zero =>
          rw [escapeFrom, codepointsFrom, List.flatMap_cons]
          by_cases hc : c.toNat < 0x80
          · rw [utf8ToCodepoint_of_lt hc, ih 0, escapedCharacter]
            cases namedEscape c.toNat <;> rfl
          · have hnone := namedEscape_eq_none (Nat.le_of_not_lt hc)
            have hread := namedEscape_eq_none (le_utf8ToCodepoint (Nat.le_of_not_lt hc) s)
            rw [hnone, escapedCharacter, hread]
            exact congrArg _ (ih _)

/-- A string between its quotes. -/
theorem valueToQuotedStringN_eq (s : Text) :
    valueToQuotedStringN s =
      ascii "\"" ++ (codepointsFrom 0 s).flatMap escapedCharacter ++ ascii "\"" := by
  rw [← escapeFrom_eq, valueToQuotedStringN]
  split_ifs with hany
  · rfl
  · rw [escapeFrom_of_plain]
    simpa using hany

/-! ## Widths -/

/-- The length of what a code point is written as. -/
def characterWidth (codepoint : ℕ) : ℕ :=
  if codepoint = 34 ∨ codepoint = 92 ∨ codepoint = 8 ∨ codepoint = 12 ∨ codepoint = 10 ∨
    codepoint = 13 ∨ codepoint = 9 then 2
  else if codepoint < 0x20 then 6
  else if codepoint < 0x80 then 1
  else if codepoint < 0x10000 then 6
  else 12

/-- The sum of the widths of the code points of a string. -/
def width (s : Text) : ℕ := ((codepointsFrom 0 s).map characterWidth).sum

theorem length_escapedCharacter (codepoint : ℕ) :
    (escapedCharacter codepoint).length = characterWidth codepoint := by
  unfold escapedCharacter namedEscape characterWidth escapedCodepoint
  split_ifs <;> first | rfl | omega

theorem length_valueToQuotedStringN (s : Text) :
    (valueToQuotedStringN s).length = width s + 2 := by
  have hquote : (ascii "\"").length = 1 := rfl
  have hescaped : ((codepointsFrom 0 s).flatMap escapedCharacter).length = width s := by
    rw [List.length_flatMap, width]
    simp only [length_escapedCharacter]
  rw [valueToQuotedStringN_eq, List.length_append, List.length_append, hescaped, hquote]
  omega

theorem codepointsFrom_of_plain {s : Text} (h : ∀ c ∈ s, requiresEscaping c = false) :
    codepointsFrom 0 s = s.map UInt8.toNat := by
  induction s with
  | nil => rfl
  | cons c s ih =>
      obtain ⟨hc, hs⟩ := List.forall_mem_cons.mp h
      have hbounds := plain_bounds hc
      rw [codepointsFrom, utf8ToCodepoint_of_lt (by omega), ih hs]
      rfl

theorem characterWidth_of_plain {c : UInt8} (hc : requiresEscaping c = false) :
    characterWidth c.toNat = 1 := by
  have hbounds := plain_bounds hc
  unfold characterWidth
  split_ifs <;> first | rfl | omega

theorem width_of_plain {s : Text} (h : ∀ c ∈ s, requiresEscaping c = false) :
    width s = s.length := by
  have hones : (s.map UInt8.toNat).map characterWidth = List.replicate s.length 1 := by
    rw [List.map_map, List.eq_replicate_iff]
    refine ⟨List.length_map _, fun n hn ↦ ?_⟩
    obtain ⟨c, hc, rfl⟩ := List.mem_map.mp hn
    exact characterWidth_of_plain (h c hc)
  rw [width, codepointsFrom_of_plain h, hones, List.sum_replicate_nat, Nat.mul_one]

namespace Json

theorem length_writeValue_string (s : Text) : (writeValue (.string s)).length = width s + 2 := by
  rw [writeValue, length_valueToQuotedStringN]

theorem length_writeValue_uint (n : ℕ) :
    (writeValue (.uint n)).length = (to_string (n : ℤ)).length := by
  rw [writeValue]

theorem length_writeValue_object (members : List (Text × Json)) :
    (writeValue (.object members)).length = (writeMembers members).length + 2 := by
  have hbraces : (ascii "\x7b").length = 1 ∧ (ascii "\x7d").length = 1 := ⟨rfl, rfl⟩
  rw [writeValue, List.length_append, List.length_append, hbraces.1, hbraces.2]
  omega

theorem length_writeMembers_singleton (key : Text) (v : Json) :
    (writeMembers [(key, v)]).length = width key + (writeValue v).length + 3 := by
  have hcolon : (ascii ":").length = 1 := rfl
  rw [writeMembers, List.length_append, List.length_append, length_valueToQuotedStringN, hcolon]
  omega

theorem length_writeMembers_cons (key : Text) (v : Json) (member : Text × Json)
    (members : List (Text × Json)) :
    (writeMembers ((key, v) :: member :: members)).length =
      width key + (writeValue v).length + 4 + (writeMembers (member :: members)).length := by
  have hseparators : (ascii ":").length = 1 ∧ (ascii ",").length = 1 := ⟨rfl, rfl⟩
  rw [writeMembers, List.length_append, List.length_append, List.length_append,
    List.length_append, length_valueToQuotedStringN, hseparators.1, hseparators.2]
  · omega
  · rintro ⟨⟩

end Json

/-! ## Text that is valid -/

/-- The UTF-8 encoding of a sequence of characters. -/
def utf8 (s : List Char) : Text := s.flatMap String.utf8EncodeChar

section

variable {n : ℕ} (s : Text)

theorem toNat_ofNat_of_lt (hn : n < 256) : (UInt8.ofNat n).toNat = n := Nat.mod_eq_of_lt hn

theorem utf8ToCodepoint_two (hlower : 0x7f < n) (hupper : n ≤ 0x7ff) :
    utf8ToCodepoint (n / 64 % 0x20 + 0xc0) (UInt8.ofNat (n % 0x40 + 0x80) :: s) = (n, 1) := by
  unfold utf8ToCodepoint
  rw [if_neg (by omega), if_pos (by omega)]
  dsimp only
  rw [toNat_ofNat_of_lt (by omega), if_neg (by omega)]
  congr 1
  omega

theorem utf8ToCodepoint_three (hlower : 0x7ff < n) (hupper : n ≤ 0xffff)
    (hsurrogate : ¬ (0xD800 ≤ n ∧ n ≤ 0xDFFF)) :
    utf8ToCodepoint (n / 4096 % 0x10 + 0xe0) (UInt8.ofNat (n / 64 % 0x40 + 0x80) ::
      UInt8.ofNat (n % 0x40 + 0x80) :: s) = (n, 2) := by
  unfold utf8ToCodepoint
  rw [if_neg (by omega), if_neg (by omega), if_pos (by omega)]
  dsimp only
  rw [toNat_ofNat_of_lt (by omega), toNat_ofNat_of_lt (by omega), if_neg (by omega),
    if_neg (by omega)]
  congr 1
  omega

theorem utf8ToCodepoint_four (hlower : 0xffff < n) (hupper : n < 0x110000) :
    utf8ToCodepoint (n / 262144 % 0x08 + 0xf0) (UInt8.ofNat (n / 4096 % 0x40 + 0x80) ::
      UInt8.ofNat (n / 64 % 0x40 + 0x80) :: UInt8.ofNat (n % 0x40 + 0x80) :: s) = (n, 3) := by
  unfold utf8ToCodepoint
  rw [if_neg (by omega), if_neg (by omega), if_neg (by omega), if_pos (by omega)]
  dsimp only
  rw [toNat_ofNat_of_lt (by omega), toNat_ofNat_of_lt (by omega), toNat_ofNat_of_lt (by omega),
    if_neg (by omega)]
  congr 1
  omega

theorem codepointsFrom_utf8EncodeChar (c : Char) :
    codepointsFrom 0 (String.utf8EncodeChar c ++ s) = c.toNat :: codepointsFrom 0 s := by
  have hvalid : c.toNat < 0xD800 ∨ 0xDFFF < c.toNat ∧ c.toNat < 0x110000 := c.valid
  have hval : c.val.toNat = c.toNat := rfl
  rw [String.utf8EncodeChar, hval]
  by_cases h₁ : c.toNat ≤ 0x7f
  · simp only [if_pos h₁, List.cons_append, List.nil_append, codepointsFrom]
    rw [toNat_ofNat_of_lt (by omega), utf8ToCodepoint_of_lt (by omega)]
  · by_cases h₂ : c.toNat ≤ 0x7ff
    · simp only [if_neg h₁, if_pos h₂, List.cons_append, List.nil_append, codepointsFrom]
      rw [toNat_ofNat_of_lt (by omega), utf8ToCodepoint_two s (by omega) h₂]
      rfl
    · by_cases h₃ : c.toNat ≤ 0xffff
      · simp only [if_neg h₁, if_neg h₂, if_pos h₃, List.cons_append, List.nil_append,
          codepointsFrom]
        rw [toNat_ofNat_of_lt (by omega), utf8ToCodepoint_three s (by omega) h₃ (by omega)]
        rfl
      · simp only [if_neg h₁, if_neg h₂, if_neg h₃, List.cons_append, List.nil_append,
          codepointsFrom]
        rw [toNat_ofNat_of_lt (by omega), utf8ToCodepoint_four s (by omega) (by omega)]
        rfl

end

/-- Text that is valid is read as the characters it is made of. -/
theorem width_utf8 (s : List Char) :
    width (utf8 s) = (s.map fun c ↦ characterWidth c.toNat).sum := by
  have hread : codepointsFrom 0 (utf8 s) = s.map Char.toNat := by
    induction s with
    | nil => rfl
    | cons c s ih =>
        rw [utf8, List.flatMap_cons, codepointsFrom_utf8EncodeChar, List.map_cons]
        exact congrArg _ ih
  rw [width, hread, List.map_map]
  rfl

end PublisherSubscriber
