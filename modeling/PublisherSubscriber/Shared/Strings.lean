import PublisherSubscriber.Shared.Writer

/-!
# How the reader decodes a string

An escape stands for a byte or for a code point, which is encoded again.  The
writer reads a string as code points and the reader encodes them, so a string
that was written is read back as a text that is valid, and as itself only if it
was valid before.
-/

namespace PublisherSubscriber

namespace OurReader

def hexValue (c : UInt8) : Option ℕ :=
  if 48 ≤ c ∧ c ≤ 57 then some (c.toNat - 48)
  else if 97 ≤ c ∧ c ≤ 102 then some (c.toNat - 87)
  else if 65 ≤ c ∧ c ≤ 70 then some (c.toNat - 55)
  else none

def decodeUnicodeEscapeSequence : Text → Option ℕ
  | a :: b :: c :: d :: _ => do
      let a ← hexValue a
      let b ← hexValue b
      let c ← hexValue c
      let d ← hexValue d
      some (((a * 16 + b) * 16 + c) * 16 + d)
  | _ => none

/-- The code point and how many bytes were used; the second half of a pair is
not checked to be one. -/
def decodeUnicodeCodePoint (s : Text) : Option (ℕ × ℕ) := do
  let unicode ← decodeUnicodeEscapeSequence s
  if 0xD800 ≤ unicode ∧ unicode ≤ 0xDBFF then
    if (s.drop 4).length < 6 then none
    else if ascii "\\u" <+: s.drop 4 then do
      let surrogatePair ← decodeUnicodeEscapeSequence (s.drop 6)
      some (0x10000 + unicode % 1024 * 1024 + surrogatePair % 1024, 10)
    else none
  else some (unicode, 4)

def codePointToUTF8 (cp : ℕ) : Text :=
  if cp ≤ 0x7f then [UInt8.ofNat cp]
  else if cp ≤ 0x7FF then [UInt8.ofNat (0xC0 + cp / 64 % 32), UInt8.ofNat (0x80 + cp % 64)]
  else if cp ≤ 0xFFFF then
    [UInt8.ofNat (0xE0 + cp / 4096 % 16), UInt8.ofNat (0x80 + cp / 64 % 64),
      UInt8.ofNat (0x80 + cp % 64)]
  else if cp ≤ 0x10FFFF then
    [UInt8.ofNat (0xF0 + cp / 262144 % 8), UInt8.ofNat (0x80 + cp / 4096 % 64),
      UInt8.ofNat (0x80 + cp / 64 % 64), UInt8.ofNat (0x80 + cp % 64)]
  else []

/-- The cases of the switch over the byte behind a backslash, but for `u`. -/
def simpleEscape (c : UInt8) : Option UInt8 :=
  if c = 34 then some 34
  else if c = 47 then some 47
  else if c = 92 then some 92
  else if c = 98 then some 8
  else if c = 102 then some 12
  else if c = 110 then some 10
  else if c = 114 then some 13
  else if c = 116 then some 9
  else none

/-- What an escape stands for, and how many bytes behind the backslash were used. -/
def decodeEscape : Text → Option (Text × ℕ)
  | [] => none
  | c :: s =>
      if c = 117 then (decodeUnicodeCodePoint s).map fun p ↦ (codePointToUTF8 p.1, p.2 + 1)
      else (simpleEscape c).map fun b ↦ ([b], 1)

/-- The loop of `decodeString`; the first `used` bytes belong to an escape that
is already decoded. -/
def decodeFrom : ℕ → Text → Option Text
  | _, [] => some []
  | used + 1, _ :: s => decodeFrom used s
  | 0, c :: s =>
      if c = 34 then some []
      else if c = 92 then
        match decodeEscape s with
        | none => none
        | some (text, used) => (decodeFrom used s).map (text ++ ·)
      else (decodeFrom 0 s).map (c :: ·)

/-- The token has its quotes around it. -/
def decodeString (token : Text) : Option Text := decodeFrom 0 token.tail.dropLast

/-! ## String literals -/

/-- Four digits of either case. -/
def HexDigits (h : Text) (x : ℕ) : Prop :=
  ∃ a b c d v w y z, h = [a, b, c, d] ∧ hexValue a = some v ∧ hexValue b = some w ∧
    hexValue c = some y ∧ hexValue d = some z ∧ x = v * 4096 + w * 256 + y * 16 + z

/-- What stands between the quotes, and the text it stands for; no surrogate stands
alone. -/
inductive StringText : Text → Text → Prop
  | nil : StringText [] []
  | plain {c : UInt8} {s t : Text} (hquote : c ≠ 34) (hescape : c ≠ 92) (h : StringText s t) :
      StringText (c :: s) (c :: t)
  | simple {c b : UInt8} {s t : Text} (hc : simpleEscape c = some b) (h : StringText s t) :
      StringText (92 :: c :: s) (b :: t)
  | character {c : Char} {digits s t : Text} (hc : HexDigits digits c.toNat)
      (h : StringText s t) :
      StringText (92 :: 117 :: (digits ++ s)) (String.utf8EncodeChar c ++ t)
  | pair {c : Char} {high low s t : Text} (hc : 0x10000 ≤ c.toNat)
      (hhigh : HexDigits high (0xD800 + (c.toNat - 0x10000) / 1024))
      (hlow : HexDigits low (0xDC00 + (c.toNat - 0x10000) % 1024)) (h : StringText s t) :
      StringText (92 :: 117 :: (high ++ 92 :: 117 :: (low ++ s))) (String.utf8EncodeChar c ++ t)

theorem HexDigits.length_eq {h : Text} {x : ℕ} (hh : HexDigits h x) : h.length = 4 := by
  obtain ⟨a, b, c, d, v, w, y, z, rfl, -⟩ := hh
  rfl

theorem HexDigits.decode {h : Text} {x : ℕ} (hh : HexDigits h x) (s : Text) :
    decodeUnicodeEscapeSequence (h ++ s) = some x := by
  obtain ⟨a, b, c, d, v, w, y, z, rfl, ha, hb, hc, hd, rfl⟩ := hh
  simp only [List.cons_append, List.nil_append, decodeUnicodeEscapeSequence, ha, hb, hc, hd,
    Option.bind_eq_bind, Option.bind_some]
  congr 1
  omega

theorem hexValue_eq_some {c : UInt8} {v : ℕ} (h : hexValue c = some v) : c ≠ 34 ∧ c ≠ 92 := by
  constructor <;> rintro rfl <;> cases h

theorem decodeFrom_length_append (t s : Text) : decodeFrom t.length (t ++ s) = decodeFrom 0 s := by
  induction t with
  | nil => rfl
  | cons c t ih => exact ih

theorem decodeFrom_of_escape {text t s : Text} (h : decodeEscape (t ++ s) = some (text, t.length)) :
    decodeFrom 0 (92 :: (t ++ s)) = (decodeFrom 0 s).map (text ++ ·) := by
  rw [decodeFrom, if_neg (by decide), if_pos rfl, h]
  dsimp only
  rw [decodeFrom_length_append]

theorem codePointToUTF8_toNat (c : Char) : codePointToUTF8 c.toNat = String.utf8EncodeChar c := by
  have hvalid : c.toNat < 0xD800 ∨ 0xDFFF < c.toNat ∧ c.toNat < 0x110000 := c.valid
  have hval : c.val.toNat = c.toNat := rfl
  rw [String.utf8EncodeChar, hval, codePointToUTF8]
  by_cases h₁ : c.toNat ≤ 0x7f
  · rw [if_pos h₁, if_pos h₁]
  · by_cases h₂ : c.toNat ≤ 0x7ff
    · rw [if_neg h₁, if_neg h₁, if_pos h₂, if_pos h₂, Nat.add_comm 0xC0, Nat.add_comm 0x80]
    · by_cases h₃ : c.toNat ≤ 0xffff
      · rw [if_neg h₁, if_neg h₁, if_neg h₂, if_neg h₂, if_pos h₃, if_pos h₃]
        simp only [Nat.add_comm]
      · rw [if_neg h₁, if_neg h₁, if_neg h₂, if_neg h₂, if_neg h₃, if_neg h₃,
          if_pos (by omega)]
        simp only [Nat.add_comm]

theorem decodeFrom_character {c : Char} {digits : Text} (hc : HexDigits digits c.toNat) (s : Text) :
    decodeFrom 0 (92 :: 117 :: (digits ++ s)) =
      (decodeFrom 0 s).map (String.utf8EncodeChar c ++ ·) := by
  have hvalid : c.toNat < 0xD800 ∨ 0xDFFF < c.toNat ∧ c.toNat < 0x110000 := c.valid
  have hread : decodeUnicodeCodePoint (digits ++ s) = some (c.toNat, 4) := by
    simp only [decodeUnicodeCodePoint, hc.decode, Option.bind_eq_bind, Option.bind_some]
    exact if_neg (by omega)
  have hescape : decodeEscape (117 :: digits ++ s) =
      some (String.utf8EncodeChar c, (117 :: digits).length) := by
    rw [List.cons_append, decodeEscape, if_pos rfl, hread, Option.map_some,
      codePointToUTF8_toNat, List.length_cons, hc.length_eq]
  exact decodeFrom_of_escape hescape

theorem decodeUnicodeCodePoint_pair {high low s : Text} {x y : ℕ} (hhigh : HexDigits high x)
    (hrange : 0xD800 ≤ x ∧ x ≤ 0xDBFF) (hlow : HexDigits low y) :
    decodeUnicodeCodePoint (high ++ 92 :: 117 :: (low ++ s)) =
      some (0x10000 + x % 1024 * 1024 + y % 1024, 10) := by
  have hdrop : (high ++ 92 :: 117 :: (low ++ s)).drop 4 = 92 :: 117 :: (low ++ s) :=
    List.drop_left' hhigh.length_eq
  have hrest : (high ++ 92 :: 117 :: (low ++ s)).drop 6 = low ++ s := by
    rw [← List.drop_drop (i := 2) (j := 4), hdrop]
    rfl
  have hlength : ¬ (92 :: 117 :: (low ++ s)).length < 6 := by
    have hfour := hlow.length_eq
    simp only [List.length_cons, List.length_append]
    omega
  have hprefix : ascii "\\u" <+: 92 :: 117 :: (low ++ s) := ⟨low ++ s, rfl⟩
  simp only [decodeUnicodeCodePoint, hhigh.decode, hlow.decode, hdrop, hrest,
    Option.bind_eq_bind, Option.bind_some, if_neg hlength, if_pos hprefix, if_pos hrange]

theorem decodeFrom_pair {c : Char} {high low : Text} (hc : 0x10000 ≤ c.toNat)
    (hhigh : HexDigits high (0xD800 + (c.toNat - 0x10000) / 1024))
    (hlow : HexDigits low (0xDC00 + (c.toNat - 0x10000) % 1024)) (s : Text) :
    decodeFrom 0 (92 :: 117 :: (high ++ 92 :: 117 :: (low ++ s))) =
      (decodeFrom 0 s).map (String.utf8EncodeChar c ++ ·) := by
  have hvalid : c.toNat < 0xD800 ∨ 0xDFFF < c.toNat ∧ c.toNat < 0x110000 := c.valid
  have hvalue : 0x10000 + (0xD800 + (c.toNat - 0x10000) / 1024) % 1024 * 1024 +
      (0xDC00 + (c.toNat - 0x10000) % 1024) % 1024 = c.toNat := by omega
  have hread := decodeUnicodeCodePoint_pair (s := s) hhigh (by omega) hlow
  rw [hvalue] at hread
  have hassoc : (117 :: (high ++ 92 :: 117 :: low)) ++ s =
      117 :: (high ++ 92 :: 117 :: (low ++ s)) := by
    simp only [List.cons_append, List.append_assoc]
  have hlength : (117 :: (high ++ 92 :: 117 :: low)).length = 10 + 1 := by
    simp only [List.length_cons, List.length_append, hhigh.length_eq, hlow.length_eq]
  have hescape : decodeEscape ((117 :: (high ++ 92 :: 117 :: low)) ++ s) =
      some (String.utf8EncodeChar c, (117 :: (high ++ 92 :: 117 :: low)).length) := by
    rw [hassoc, hlength, decodeEscape, if_pos rfl, hread, Option.map_some, codePointToUTF8_toNat]
  have hdecode := decodeFrom_of_escape hescape
  rwa [hassoc] at hdecode

/-- The reader decodes a literal to the text it stands for. -/
theorem StringText.decodeFrom {s t : Text} (h : StringText s t) :
    OurReader.decodeFrom 0 s = some t := by
  induction h with
  | nil => rfl
  | @plain c s t hquote hescape _ ih =>
      rw [OurReader.decodeFrom, if_neg hquote, if_neg hescape, ih]
      rfl
  | @simple c b s t hc _ ih =>
      have hu : c ≠ 117 := by
        rintro rfl
        cases hc
      have hescape : decodeEscape ([c] ++ s) = some ([b], [c].length) := by
        rw [List.singleton_append, decodeEscape, if_neg hu, hc]
        rfl
      have hdecode := decodeFrom_of_escape hescape
      rw [List.singleton_append, ih] at hdecode
      exact hdecode
  | character hc _ ih =>
      rw [decodeFrom_character hc, ih]
      rfl
  | pair hc hhigh hlow _ ih =>
      rw [decodeFrom_pair hc hhigh hlow, ih]
      rfl

/-- The quotes are not part of the text. -/
theorem StringText.decodeString {s t : Text} (h : StringText s t) :
    OurReader.decodeString (34 :: (s ++ [34])) = some t := by
  have hquotes : (34 :: (s ++ [34])).tail.dropLast = s := List.dropLast_concat
  rw [OurReader.decodeString, hquotes]
  exact h.decodeFrom

/-! ## What was written -/

/-- A surrogate pair has room for twenty bits. -/
def rereadCodepoint (codepoint : ℕ) : ℕ :=
  if codepoint < 0x10000 then codepoint else 0x10000 + (codepoint - 0x10000) % 1048576

/-- What a string is read back as. -/
def reread (s : Text) : Text :=
  (codepointsFrom 0 s).flatMap fun codepoint ↦ codePointToUTF8 (rereadCodepoint codepoint)

theorem exists_char_of_scalar {codepoint : ℕ}
    (h : ¬ (0xD800 ≤ codepoint ∧ codepoint ≤ 0xDFFF)) :
    ∃ c : Char, c.toNat = rereadCodepoint codepoint := by
  have hchar : (rereadCodepoint codepoint).isValidChar := by
    rw [rereadCodepoint, Nat.isValidChar]
    split_ifs <;> omega
  exact ⟨Char.ofNatAux _ hchar, rfl⟩

theorem hexDigits_toHex16Bit {x : ℕ} (hx : x < 0x10000) : HexDigits (toHex16Bit x) x := by
  have hvalue : ∀ n < 16, hexValue (hexDigit n) = some n := by decide
  exact ⟨_, _, _, _, _, _, _, _, rfl, hvalue _ (Nat.mod_lt _ (by decide)),
    hvalue _ (Nat.mod_lt _ (by decide)), hvalue _ (Nat.mod_lt _ (by decide)),
    hvalue _ (Nat.mod_lt _ (by decide)), by omega⟩

theorem stringText_of_namedEscape {c : ℕ} {text s t : Text} (hnamed : namedEscape c = some text)
    (h : StringText s t) : StringText (text ++ s) (codePointToUTF8 (rereadCodepoint c) ++ t) := by
  unfold namedEscape at hnamed
  split_ifs at hnamed <;> obtain rfl := Option.some.inj hnamed <;> subst c <;>
    exact .simple rfl h

/-- A code point is written as a literal that stands for its encoding. -/
theorem stringText_escapedCharacter {codepoint : ℕ} {s t : Text}
    (hscalar : ¬ (0xD800 ≤ codepoint ∧ codepoint ≤ 0xDFFF)) (h : StringText s t) :
    StringText (escapedCharacter codepoint ++ s)
      (codePointToUTF8 (rereadCodepoint codepoint) ++ t) := by
  cases hnamed : namedEscape codepoint with
  | some text =>
      rw [escapedCharacter, hnamed]
      exact stringText_of_namedEscape hnamed h
  | none =>
      obtain ⟨c, hc⟩ := exists_char_of_scalar hscalar
      rw [escapedCharacter, hnamed, Option.getD_none, escapedCodepoint]
      split_ifs with hcontrol hascii hbmp
      · have hsame : c.toNat = codepoint := by rw [hc, rereadCodepoint, if_pos (by omega)]
        rw [← hc, codePointToUTF8_toNat, ← hsame]
        exact .character (hexDigits_toHex16Bit (by omega)) h
      · have hne : codepoint ≠ 34 ∧ codepoint ≠ 92 := by
          constructor <;> rintro rfl <;> cases hnamed
        rw [rereadCodepoint, if_pos (by omega), codePointToUTF8, if_pos (by omega)]
        refine .plain ?_ ?_ h <;>
          simp only [ne_eq, ← UInt8.toNat_inj, UInt8.toNat_ofNat', UInt8.reduceToNat] <;> omega
      · have hsame : c.toNat = codepoint := by rw [hc, rereadCodepoint, if_pos hbmp]
        rw [← hc, codePointToUTF8_toNat, ← hsame]
        exact .character (hexDigits_toHex16Bit (by omega)) h
      · have hsame : c.toNat = 0x10000 + (codepoint - 0x10000) % 1048576 := by
          rw [hc, rereadCodepoint, if_neg hbmp]
        have hhigh : (codepoint - 0x10000) / 1024 % 1024 = (c.toNat - 0x10000) / 1024 := by omega
        have hlow : (codepoint - 0x10000) % 1024 = (c.toNat - 0x10000) % 1024 := by omega
        rw [← hc, codePointToUTF8_toNat, hhigh, hlow]
        have hvalid : c.toNat < 0xD800 ∨ 0xDFFF < c.toNat ∧ c.toNat < 0x110000 := c.valid
        exact .pair (by omega) (hexDigits_toHex16Bit (by omega))
          (hexDigits_toHex16Bit (by omega)) h

/-- The writer reads no surrogates, and nothing beyond 21 bits. -/
theorem utf8ToCodepoint_scalar {c : ℕ} (hc : c < 256) (s : Text) :
    ¬ (0xD800 ≤ (utf8ToCodepoint c s).1 ∧ (utf8ToCodepoint c s).1 ≤ 0xDFFF) := by
  unfold utf8ToCodepoint replacementCharacter
  split_ifs with h₁ h₂ h₃ h₄
  · dsimp only
    omega
  · split
    · dsimp only
      split_ifs <;> omega
    · decide
  · split
    · dsimp only
      split_ifs <;> omega
    · decide
  · split
    · dsimp only
      split_ifs <;> omega
    · decide
  · decide

theorem scalar_of_mem_codepointsFrom {used codepoint : ℕ} {s : Text}
    (h : codepoint ∈ codepointsFrom used s) : ¬ (0xD800 ≤ codepoint ∧ codepoint ≤ 0xDFFF) := by
  induction s generalizing used with
  | nil => cases used <;> exact absurd h List.not_mem_nil
  | cons c s ih =>
      cases used with
      | succ used => exact ih h
      | zero =>
          rcases List.mem_cons.mp h with rfl | h
          · exact utf8ToCodepoint_scalar c.toNat_lt s
          · exact ih h

/-- A string is written as a literal for what it is read back as. -/
theorem valueToQuotedStringN_stringText (s : Text) :
    ∃ content, valueToQuotedStringN s = 34 :: (content ++ [34]) ∧
      StringText content (reread s) := by
  refine ⟨(codepointsFrom 0 s).flatMap escapedCharacter, valueToQuotedStringN_eq s, ?_⟩
  have hscalar : ∀ codepoint ∈ codepointsFrom 0 s, ¬ (0xD800 ≤ codepoint ∧ codepoint ≤ 0xDFFF) :=
    fun _ ↦ scalar_of_mem_codepointsFrom
  rw [reread]
  generalize codepointsFrom 0 s = codepoints at hscalar
  induction codepoints with
  | nil => exact .nil
  | cons codepoint codepoints ih =>
      obtain ⟨hfirst, hrest⟩ := List.forall_mem_cons.mp hscalar
      exact stringText_escapedCharacter hfirst (ih hrest)

/-! ## Text that is valid -/

theorem codepointsFrom_utf8 (s : List Char) : codepointsFrom 0 (utf8 s) = s.map Char.toNat := by
  induction s with
  | nil => rfl
  | cons c s ih =>
      rw [utf8, List.flatMap_cons, codepointsFrom_utf8EncodeChar, List.map_cons]
      exact congrArg _ ih

theorem reread_utf8 (s : List Char) : reread (utf8 s) = utf8 s := by
  rw [reread, codepointsFrom_utf8, List.flatMap_map, utf8]
  congr 1
  funext c
  have hvalid : c.toNat < 0xD800 ∨ 0xDFFF < c.toNat ∧ c.toNat < 0x110000 := c.valid
  have hsame : rereadCodepoint c.toNat = c.toNat := by
    rw [rereadCodepoint]
    split_ifs <;> omega
  rw [hsame, codePointToUTF8_toNat]

/-- Whatever a text was, it is valid when it is read back. -/
theorem exists_reread_eq_utf8 (s : Text) : ∃ cs : List Char, reread s = utf8 cs := by
  have hvalid : ∀ codepoint ∈ codepointsFrom 0 s, ∃ c : Char, c.toNat = rereadCodepoint codepoint :=
    fun codepoint hmem ↦ exists_char_of_scalar (scalar_of_mem_codepointsFrom hmem)
  rw [reread]
  generalize codepointsFrom 0 s = codepoints at hvalid
  induction codepoints with
  | nil => exact ⟨[], rfl⟩
  | cons codepoint codepoints ih =>
      obtain ⟨⟨c, hc⟩, hrest⟩ := List.forall_mem_cons.mp hvalid
      obtain ⟨cs, hcs⟩ := ih hrest
      refine ⟨c :: cs, ?_⟩
      rw [List.flatMap_cons, hcs, ← hc, codePointToUTF8_toNat]
      rfl

theorem reread_eq_self_iff (s : Text) : reread s = s ↔ ∃ cs : List Char, s = utf8 cs := by
  constructor
  · intro h
    obtain ⟨cs, hcs⟩ := exists_reread_eq_utf8 s
    exact ⟨cs, h.symm.trans hcs⟩
  · rintro ⟨cs, rfl⟩
    exact reread_utf8 cs

/-- Nothing more is lost the second time. -/
theorem reread_reread (s : Text) : reread (reread s) = reread s :=
  (reread_eq_self_iff _).mpr (exists_reread_eq_utf8 s)

end OurReader

end PublisherSubscriber
