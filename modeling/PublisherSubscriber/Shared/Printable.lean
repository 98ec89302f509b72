import PublisherSubscriber.Shared.Canonical

/-!
# What is written is printable

Whatever bytes a string consists of, its text is ASCII without control
characters.  So no text that is sent has a zero in it, and none gets longer by
being read and written again.
-/

namespace PublisherSubscriber

open OurReader

def Printable (s : Text) : Prop := ∀ c ∈ s, 32 ≤ c ∧ c < 128

instance (s : Text) : Decidable (Printable s) :=
  List.decidableBAll (fun c ↦ 32 ≤ c ∧ c < 128) s

theorem Printable.append {s t : Text} (hs : Printable s) (ht : Printable t) :
    Printable (s ++ t) := by
  intro c hc
  rcases List.mem_append.mp hc with hc | hc
  · exact hs c hc
  · exact ht c hc

theorem Printable.zero_notMem {s : Text} (h : Printable s) : 0 ∉ s := fun hzero ↦
  absurd (h 0 hzero).1 (by decide)

theorem printable_digits {s : Text} (h : ∀ c ∈ s, isDigit c = true) : Printable s := by
  intro c hc
  have hdigit := h c hc
  simp only [isDigit, Bool.and_eq_true, decide_eq_true_eq, UInt8.le_iff_toNat_le,
    UInt8.reduceToNat] at hdigit
  rw [UInt8.le_iff_toNat_le, UInt8.lt_iff_toNat_lt]
  exact ⟨by simpa using (by omega : 32 ≤ c.toNat), by simpa using (by omega : c.toNat < 128)⟩

theorem printable_to_string (n : ℤ) : Printable (to_string n) := by
  intro c hc
  rcases mem_to_string hc with hdigit | rfl
  · exact printable_digits (s := [c]) (by simpa using hdigit) c (by simp)
  · decide

theorem printable_toHex16Bit (x : ℕ) : Printable (toHex16Bit x) := by
  have hdigit : ∀ n < 16, 32 ≤ hexDigit n ∧ hexDigit n < 128 := by decide
  intro c hc
  simp only [toHex16Bit, List.mem_cons, List.not_mem_nil, or_false] at hc
  rcases hc with rfl | rfl | rfl | rfl <;> exact hdigit _ (Nat.mod_lt _ (by decide))

theorem printable_appendHex (x : ℕ) : Printable (appendHex x) :=
  Printable.append (by decide) (printable_toHex16Bit x)

theorem printable_escapedCharacter (codepoint : ℕ) : Printable (escapedCharacter codepoint) := by
  cases hnamed : namedEscape codepoint with
  | some text =>
      rw [escapedCharacter, hnamed, Option.getD_some]
      unfold namedEscape at hnamed
      split_ifs at hnamed <;> obtain rfl := Option.some.inj hnamed <;> decide
  | none =>
      rw [escapedCharacter, hnamed, Option.getD_none, escapedCodepoint]
      split_ifs with hcontrol hascii
      · exact printable_appendHex _
      · intro c hc
        rw [List.mem_singleton.mp hc, UInt8.le_iff_toNat_le, UInt8.lt_iff_toNat_lt,
          toNat_ofNat_of_lt (by omega)]
        exact ⟨by simpa using (by omega : 32 ≤ codepoint), by simpa using hascii⟩
      · exact printable_appendHex _
      · exact (printable_appendHex _).append (printable_appendHex _)

theorem printable_valueToQuotedStringN (s : Text) : Printable (valueToQuotedStringN s) := by
  rw [valueToQuotedStringN_eq]
  have hcontent : Printable ((codepointsFrom 0 s).flatMap escapedCharacter) := by
    intro c hc
    obtain ⟨codepoint, -, hc⟩ := List.mem_flatMap.mp hc
    exact printable_escapedCharacter codepoint c hc
  exact Printable.append (s := [34]) (by decide) (hcontent.append (t := [34]) (by decide))

/-! ## Values -/

theorem OurReader.NumberText.printable (m : NumberText) : Printable m.text := by
  have hsign : Printable (if m.negative then [45] else []) := by
    split_ifs <;> decide
  have hfraction : Printable m.fraction := by
    rcases m.fraction_eq with h | ⟨ds, hds, h⟩ <;> rw [h]
    · decide
    · exact Printable.append (s := [46]) (by decide) (printable_digits hds)
  have hexponent : Printable m.exponent := by
    rcases m.exponent_eq with h | ⟨e, sign, ds, he, hsigned, hds, h⟩ <;> rw [h]
    · decide
    · have hletter : Printable [e] := by rcases he with rfl | rfl <;> decide
      have hafter : Printable sign := by rcases hsigned with rfl | rfl | rfl <;> decide
      exact hletter.append (hafter.append (printable_digits hds))
  exact hsign.append ((printable_digits m.isDigit_of_mem_digits).append
    (hfraction.append hexponent))

namespace Json

theorem pieces_printable : Pieces Printable where
  append _ _ := Printable.append
  braces _ hs := (Printable.append (by decide) hs).append (by decide)
  nil := by decide
  numeral := NumberText.printable
  string := printable_valueToQuotedStringN
  word := by decide

theorem printable_writeValue {decodeDouble : Text → Option Double} (v : Json)
    (hv : v.Writable decodeDouble) : Printable v.writeValue :=
  pieces_printable.writeValue v hv

end Json

/-! ## Strings that are read back -/

namespace OurReader

/-- Printable text is valid. -/
theorem reread_of_printable {s : Text} (h : Printable s) : reread s = s := by
  rw [reread_eq_self_iff]
  induction s with
  | nil => exact ⟨[], rfl⟩
  | cons c s ih =>
      obtain ⟨hc, hs⟩ := List.forall_mem_cons.mp h
      obtain ⟨cs, hcs⟩ := ih hs
      have hlt : c.toNat < 128 := by simpa [UInt8.lt_iff_toNat_lt] using hc.2
      have hchar : (c.toNat).isValidChar := Or.inl (by omega)
      have hencode : String.utf8EncodeChar (Char.ofNatAux c.toNat hchar) = [c] := by
        rw [← codePointToUTF8_toNat]
        have hsame : (Char.ofNatAux c.toNat hchar).toNat = c.toNat := rfl
        rw [hsame, codePointToUTF8, if_pos (by omega), UInt8.ofNat_toNat]
      refine ⟨Char.ofNatAux c.toNat hchar :: cs, ?_⟩
      rw [utf8, List.flatMap_cons, hencode, hcs]
      rfl

theorem characterWidth_reread (codepoint : ℕ) :
    characterWidth (rereadCodepoint codepoint) = characterWidth codepoint := by
  rw [rereadCodepoint]
  split_ifs with h
  · rfl
  · rw [characterWidth, characterWidth, if_neg (by omega), if_neg (by omega), if_neg (by omega),
      if_neg (by omega), if_neg (by omega), if_neg (by omega), if_neg (by omega), if_neg (by omega)]

theorem codepointsFrom_reread (s : Text) :
    codepointsFrom 0 (reread s) = (codepointsFrom 0 s).map rereadCodepoint := by
  have hscalar : ∀ codepoint ∈ codepointsFrom 0 s,
      ∃ c : Char, c.toNat = rereadCodepoint codepoint := fun codepoint hmem ↦
    exists_char_of_scalar (scalar_of_mem_codepointsFrom hmem)
  have hchars : ∃ cs : List Char, reread s = utf8 cs ∧
      cs.map Char.toNat = (codepointsFrom 0 s).map rereadCodepoint := by
    rw [reread]
    generalize codepointsFrom 0 s = codepoints at hscalar
    induction codepoints with
    | nil => exact ⟨[], rfl, rfl⟩
    | cons codepoint codepoints ih =>
        obtain ⟨⟨c, hc⟩, hrest⟩ := List.forall_mem_cons.mp hscalar
        obtain ⟨cs, hcs, hmap⟩ := ih hrest
        refine ⟨c :: cs, ?_, by rw [List.map_cons, List.map_cons, hc, hmap]⟩
        rw [List.flatMap_cons, hcs, ← hc, codePointToUTF8_toNat]
        rfl
  obtain ⟨cs, hcs, hmap⟩ := hchars
  rw [hcs, codepointsFrom_utf8, hmap]

/-- The text of a string keeps its length when the string is read back. -/
theorem width_reread (s : Text) : width (reread s) = width s := by
  rw [width, width, codepointsFrom_reread, List.map_map]
  congr 2
  funext codepoint
  exact characterWidth_reread codepoint

end OurReader

end PublisherSubscriber
