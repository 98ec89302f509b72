import PublisherSubscriber.Library.Separated
import PublisherSubscriber.Shared.Numerals

/-!
# The validators of the settings

A port and an address are given as text and are read with `stoi`.
-/

namespace PublisherSubscriber

def dot : UInt8 := 46

/-- −1 for a text that is no port number. -/
def getPortNumber (portStr : Text) : ℤ :=
  match stoi portStr with
  | .error _ => -1
  | .ok port => if port > 65535 ∨ port < 0 then -1 else port

/-- The loop over the octets; `none` when it returns false. -/
def countOctets : List Text → ℕ → Option ℕ
  | [], octetCount => some octetCount
  | octet :: octets, octetCount =>
      match stoi octet with
      | .error _ => none
      | .ok value =>
          if value < 0 ∨ value > 255 then none else countOctets octets (octetCount + 1)

/-- The last byte of the empty text is not defined, but no value of it lets that text pass. -/
def isValidIPv4Address (ipAddress : Text) : Bool :=
  if ipAddress.getLast? = some dot then false
  else countOctets (Separated.getlines dot ipAddress) 0 = some 4

/-- Four fields with that property, and single dots between them. -/
def IsQuad (P : Text → Prop) (s : Text) : Prop :=
  ∃ fields : List Text, fields.length = 4 ∧ s = List.intercalate [dot] fields ∧
    ∀ field ∈ fields, dot ∉ field ∧ P field

/-- Decimal digits with a value up to 255. -/
structure IsOctet (field : Text) : Prop where
  ne_nil : field ≠ []
  isDigit : ∀ c ∈ field, isDigit c = true
  value : digitsValue field ≤ 255

/-- Digits with a value up to 255, possibly behind blanks and a sign and in
front of other bytes. -/
def ReadAsOctet (field : Text) : Prop :=
  ∃ m : Numeral, m.text = field ∧ 0 ≤ m.value ∧ m.value ≤ 255

theorem readAsOctet_iff (field : Text) :
    ReadAsOctet field ↔ ∃ value, stoi field = .ok value ∧ 0 ≤ value ∧ value ≤ 255 := by
  constructor
  · rintro ⟨m, rfl, hlower, hupper⟩
    refine ⟨m.value, ?_, hlower, hupper⟩
    have hrange : intMin ≤ m.value ∧ m.value ≤ intMax := by
      simp only [intMin, intMax]
      omega
    exact stoInteger_eq_ok_iff.mpr ⟨m.strtol_text, hrange⟩
  · rintro ⟨value, hvalue, hlower, hupper⟩
    obtain ⟨hread, -⟩ := stoInteger_eq_ok_iff.mp hvalue
    obtain ⟨m, hm, rfl⟩ := (strtol_eq_some_iff field value).mp hread
    exact ⟨m, hm, hlower, hupper⟩

theorem ReadAsOctet.ne_nil {field : Text} (h : ReadAsOctet field) : field ≠ [] := by
  obtain ⟨m, rfl, -⟩ := h
  simp [Numeral.text, m.digits_ne_nil]

theorem isOctet_iff (field : Text) :
    IsOctet field ↔ ReadAsOctet field ∧ ∀ c ∈ field, isDigit c = true := by
  constructor
  · rintro ⟨hne, hdigits, hvalue⟩
    refine ⟨⟨.ofDigits field hne hdigits, Numeral.text_ofDigits hne hdigits, ?_⟩, hdigits⟩
    rw [Numeral.value_ofDigits]
    omega
  · rintro ⟨hread, hdigits⟩
    have hne := hread.ne_nil
    obtain ⟨m, rfl, -, hvalue⟩ := hread
    refine ⟨hne, hdigits, ?_⟩
    have hread := strtol_of_digits hne hdigits
    rw [m.strtol_text, Option.some.injEq] at hread
    omega

theorem countOctets_eq_some_iff (octets : List Text) (octetCount count : ℕ) :
    countOctets octets octetCount = some count ↔
      (∀ octet ∈ octets, ReadAsOctet octet) ∧ octetCount + octets.length = count := by
  induction octets generalizing octetCount with
  | nil => simp [countOctets]
  | cons octet octets ih =>
      rw [List.forall_mem_cons, readAsOctet_iff]
      cases hvalue : stoi octet with
      | error e => simp [countOctets, hvalue]
      | ok value =>
          by_cases hrange : value < 0 ∨ value > 255
          · simp only [countOctets, hvalue, if_pos hrange]
            constructor
            · rintro ⟨⟩
            · rintro ⟨⟨⟨n, hn, hlower, hupper⟩, -⟩, -⟩
              obtain rfl := Except.ok.inj hn
              omega
          · have hoctet : 0 ≤ value ∧ value ≤ 255 := by omega
            simp only [countOctets, hvalue, if_neg hrange, ih, List.length_cons]
            constructor
            · rintro ⟨hrest, hcount⟩
              exact ⟨⟨⟨value, rfl, hoctet⟩, hrest⟩, by omega⟩
            · rintro ⟨⟨-, hrest⟩, hcount⟩
              exact ⟨hrest, by omega⟩

theorem isValidIPv4Address_iff (s : Text) : isValidIPv4Address s = true ↔ IsQuad ReadAsOctet s := by
  constructor
  · intro h
    unfold isValidIPv4Address at h
    split_ifs at h with hlast
    obtain ⟨hoctets, hcount⟩ :=
      (countOctets_eq_some_iff _ _ _).mp (of_decide_eq_true h)
    refine ⟨_, by omega, (Separated.intercalate_getlines hlast).symm, fun field hfield ↦ ?_⟩
    exact ⟨Separated.notMem_of_mem_getlines hfield, hoctets field hfield⟩
  · rintro ⟨fields, hlength, rfl, hfields⟩
    have hplain : ∀ field ∈ fields, dot ∉ field := fun field hfield ↦ (hfields field hfield).1
    have hlast : fields.getLast? ≠ some [] := by
      intro hnil
      exact (hfields [] (List.mem_of_getLast? hnil)).2.ne_nil rfl
    rw [isValidIPv4Address, if_neg (Separated.getLast?_intercalate_ne hplain hlast),
      Separated.getlines_intercalate hplain hlast, decide_eq_true_eq, countOctets_eq_some_iff]
    exact ⟨fun field hfield ↦ (hfields field hfield).2, by omega⟩

end PublisherSubscriber
