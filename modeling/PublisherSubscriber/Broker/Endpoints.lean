import PublisherSubscriber.Broker.Contents
import PublisherSubscriber.Shared.ArrayString
import PublisherSubscriber.Shared.Numerals

/-!
# Endpoints as texts

The addresses of the connections are dotted decimal numbers, so the text of an
endpoint needs no escape, is no list of its own, and tells endpoints apart.
-/

namespace PublisherSubscriber

/-- The address of a peer in the notation of four numbers. -/
def inet_ntoa (a b c d : UInt8) : Text :=
  decimalDigits a.toNat ++ ascii "." ++ decimalDigits b.toNat ++ ascii "." ++
    decimalDigits c.toNat ++ ascii "." ++ decimalDigits d.toNat

/-- A connection comes from an address that `inet_ntoa` returned. -/
def Occurrence.FromInetNtoa : Occurrence → Prop
  | connection clientIpAddress _ _ => ∃ a b c d, clientIpAddress = inet_ntoa a b c d
  | tick => True

theorem mem_inet_ntoa {a b c d x : UInt8} (hx : x ∈ inet_ntoa a b c d) : isDigit x ∨ x = 46 := by
  have hdot : ascii "." = [46] := rfl
  simp only [inet_ntoa, hdot, List.mem_append, List.mem_singleton] at hx
  rcases hx with (((((hx | hx) | hx) | hx) | hx) | hx) | hx
  · exact Or.inl (isDigit_of_mem_decimalDigits hx)
  · exact Or.inr hx
  · exact Or.inl (isDigit_of_mem_decimalDigits hx)
  · exact Or.inr hx
  · exact Or.inl (isDigit_of_mem_decimalDigits hx)
  · exact Or.inr hx
  · exact Or.inl (isDigit_of_mem_decimalDigits hx)

namespace Endpoint

def HasDottedAddress (e : Endpoint) : Prop := ∃ a b c d, e.ipAddress = inet_ntoa a b c d

variable {e f : Endpoint}

theorem toText_eq (e : Endpoint) : e.toText = e.ipAddress ++ 58 :: to_string e.port := by
  have hcolon : ascii ":" = [58] := rfl
  simp [toText, hcolon]

theorem toText_ne_nil (e : Endpoint) : e.toText ≠ [] := by
  simp [toText_eq]

/-- Digits, dots, the sign of the port and the colon. -/
theorem HasDottedAddress.mem_toText (he : e.HasDottedAddress) {x : UInt8} (hx : x ∈ e.toText) :
    isDigit x ∨ x = 45 ∨ x = 46 ∨ x = 58 := by
  obtain ⟨a, b, c, d, haddress⟩ := he
  rw [toText_eq, haddress, List.mem_append, List.mem_cons] at hx
  rcases hx with hx | rfl | hx
  · rcases mem_inet_ntoa hx with hdigit | rfl
    · exact Or.inl hdigit
    · simp
  · simp
  · rcases mem_to_string hx with hdigit | rfl
    · exact Or.inl hdigit
    · simp

theorem HasDottedAddress.plain (he : e.HasDottedAddress) : PlainElement e.toText := by
  have hcomma : comma ∉ e.toText := by
    intro hmem
    exact absurd (he.mem_toText hmem) (by decide)
  have hspace : space ∉ e.toText := by
    intro hmem
    exact absurd (he.mem_toText hmem) (by decide)
  refine ⟨hcomma, fun hhead ↦ ?_, fun hlast ↦ ?_⟩
  · exact hspace (List.mem_of_head? hhead)
  · exact hspace (List.mem_of_getLast? hlast)

/-- The colon stands in neither half. -/
theorem HasDottedAddress.toText_inj (he : e.HasDottedAddress) (h : e.toText = f.toText) :
    e = f := by
  obtain ⟨a, b, c, d, haddress⟩ := he
  have haddressColon : (58 : UInt8) ∉ e.ipAddress := by
    rw [haddress]
    intro hmem
    exact absurd (mem_inet_ntoa hmem) (by decide)
  have hportColon : (58 : UInt8) ∉ to_string e.port := by
    intro hmem
    exact absurd (mem_to_string hmem) (by decide)
  rw [toText_eq, toText_eq] at h
  have hparts := (List.append_cons_inj_of_notMem haddressColon hportColon).mp h
  obtain ⟨hip, -, hport⟩ := hparts
  cases e
  cases f
  simp_all [to_string_injective.eq_iff]

end Endpoint

theorem Occurrence.FromInetNtoa.vets {library : JsonLibrary} {o : Occurrence}
    (ho : o.FromInetNtoa) : Process.Vets library (· ≠ []) Endpoint.HasDottedAddress o := by
  apply Process.vets_of_address
  rintro clientIpAddress received bytesSent rfl port
  exact ho

end PublisherSubscriber
