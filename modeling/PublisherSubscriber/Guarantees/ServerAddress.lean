import PublisherSubscriber.Client.Settings

/-!
# Addresses that the client accepts

The validator stops reading a field at the first byte that is no digit, and it
passes blanks and a sign in front of them.
-/

namespace PublisherSubscriber

/-- Four fields of digits, none above 255. -/
def IsIPv4Address (s : Text) : Prop := IsQuad IsOctet s

/-- Four fields that are read as octets, and a byte that belongs to none of them. -/
def HidesOtherBytes (s : Text) : Prop :=
  IsQuad ReadAsOctet s ∧ ∃ c ∈ s, isDigit c = false ∧ c ≠ dot

theorem isIPv4Address_iff (s : Text) :
    IsIPv4Address s ↔ IsQuad ReadAsOctet s ∧ ∀ c ∈ s, isDigit c = true ∨ c = dot := by
  constructor
  · rintro ⟨fields, hlength, rfl, hfields⟩
    refine ⟨⟨fields, hlength, rfl, fun field hfield ↦ ?_⟩, fun c hc ↦ ?_⟩
    · obtain ⟨hplain, hoctet⟩ := hfields field hfield
      exact ⟨hplain, ((isOctet_iff field).mp hoctet).1⟩
    · rcases Separated.mem_intercalate hc with hdot | ⟨field, hfield, hmem⟩
      · exact Or.inr (List.mem_singleton.mp hdot)
      · exact Or.inl ((hfields field hfield).2.isDigit c hmem)
  · rintro ⟨⟨fields, hlength, rfl, hfields⟩, hbytes⟩
    refine ⟨fields, hlength, rfl, fun field hfield ↦ ?_⟩
    obtain ⟨hplain, hread⟩ := hfields field hfield
    refine ⟨hplain, (isOctet_iff field).mpr ⟨hread, fun c hc ↦ ?_⟩⟩
    rcases hbytes c (Separated.mem_intercalate_of_mem [dot] hfield hc) with hdigit | rfl
    · exact hdigit
    · exact (hplain hc).elim

/-- The validator is exact for the texts in which no other byte is hidden. -/
theorem isValidIPv4Address_exact_iff (s : Text) :
    (isValidIPv4Address s = true ↔ IsIPv4Address s) ↔ ¬ HidesOtherBytes s := by
  rw [isValidIPv4Address_iff, isIPv4Address_iff]
  constructor
  · rintro hexact ⟨hquad, c, hc, hdigit, hdot⟩
    rcases (hexact.mp hquad).2 c hc with h | h
    · rw [h] at hdigit
      cases hdigit
    · exact hdot h
  · intro hhides
    refine ⟨fun hquad ↦ ⟨hquad, fun c hc ↦ ?_⟩, And.left⟩
    by_contra hother
    obtain ⟨hdigit, hdot⟩ := not_or.mp hother
    exact hhides ⟨hquad, c, hc, Bool.not_eq_true _ ▸ hdigit, hdot⟩

/-- Letters behind the last octet. -/
theorem isValidIPv4Address_accepts_letters :
    isValidIPv4Address (ascii "1.2.3.4abc") = true ∧ ¬ IsIPv4Address (ascii "1.2.3.4abc") := by
  refine ⟨by decide +kernel, fun h ↦ ?_⟩
  rcases ((isIPv4Address_iff _).mp h).2 97 (by decide) with hdigit | hdot
  · exact absurd hdigit (by decide)
  · exact absurd hdot (by decide)

end PublisherSubscriber
