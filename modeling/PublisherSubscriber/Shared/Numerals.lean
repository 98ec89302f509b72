import PublisherSubscriber.Shared.Text

/-!
# The texts that `strtol` reads

A numeral is blanks, at most one sign, digits, and a rest that does not go on
with a digit.  Only the digits may not be missing.  A printed number is a
numeral, so it is read back.
-/

namespace PublisherSubscriber

inductive Sign
  | absent
  | plus
  | minus
  deriving DecidableEq, Repr

namespace Sign

def text : Sign → Text
  | absent => []
  | plus => [43]
  | minus => [45]

def apply (sign : Sign) (n : ℕ) : ℤ := if sign = minus then -(n : ℤ) else n

end Sign

structure Numeral where
  blanks : Text
  sign : Sign
  digits : Text
  rest : Text
  isSpace_of_mem_blanks : ∀ c ∈ blanks, isSpace c = true
  digits_ne_nil : digits ≠ []
  isDigit_of_mem_digits : ∀ c ∈ digits, isDigit c = true
  not_isDigit_of_head?_rest : ∀ c, rest.head? = some c → isDigit c = false

namespace Numeral

def text (m : Numeral) : Text := m.blanks ++ (m.sign.text ++ (m.digits ++ m.rest))

def value (m : Numeral) : ℤ := m.sign.apply (digitsValue m.digits)

/-- Digits and nothing else. -/
def ofDigits (s : Text) (hne : s ≠ []) (hdigits : ∀ c ∈ s, isDigit c = true) : Numeral where
  blanks := []
  sign := .absent
  digits := s
  rest := []
  isSpace_of_mem_blanks := by simp
  digits_ne_nil := hne
  isDigit_of_mem_digits := hdigits
  not_isDigit_of_head?_rest := by simp

theorem text_ofDigits {s : Text} (hne : s ≠ []) (hdigits : ∀ c ∈ s, isDigit c = true) :
    (ofDigits s hne hdigits).text = s := by
  simp [text, ofDigits, Sign.text]

theorem value_ofDigits {s : Text} (hne : s ≠ []) (hdigits : ∀ c ∈ s, isDigit c = true) :
    (ofDigits s hne hdigits).value = digitsValue s := by
  simp [value, ofDigits, Sign.apply]

/-- What `to_string` prints. -/
def ofInt (n : ℤ) : Numeral where
  blanks := []
  sign := if n < 0 then .minus else .absent
  digits := decimalDigits n.natAbs
  rest := []
  isSpace_of_mem_blanks := by simp
  digits_ne_nil := decimalDigits_ne_nil _
  isDigit_of_mem_digits := fun _ ↦ isDigit_of_mem_decimalDigits
  not_isDigit_of_head?_rest := by simp

theorem text_ofInt (n : ℤ) : (ofInt n).text = to_string n := by
  by_cases hn : n < 0
  · simp [text, ofInt, to_string, hn, Sign.text]
  · simp [text, ofInt, to_string, hn, Sign.text]

theorem value_ofInt (n : ℤ) : (ofInt n).value = n := by
  have hdigits : digitsValue (ofInt n).digits = n.natAbs := digitsValue_decimalDigits _
  rw [value, hdigits]
  by_cases hn : n < 0
  · simp only [ofInt, if_pos hn, Sign.apply, if_true]
    omega
  · have hsign : (ofInt n).sign ≠ .minus := by simp [ofInt, hn]
    rw [Sign.apply, if_neg hsign]
    omega

theorem isSpace_sign {sign : Sign} {c : UInt8} (hc : sign.text.head? = some c) :
    isSpace c = false := by
  cases sign with
  | absent => cases hc
  | plus | minus =>
      obtain rfl := Option.some.inj hc
      decide

/-- The blanks end where the sign or the digits begin. -/
theorem dropWhile_isSpace_text (m : Numeral) :
    m.text.dropWhile isSpace = m.sign.text ++ (m.digits ++ m.rest) := by
  rw [text, List.dropWhile_append_of_pos m.isSpace_of_mem_blanks]
  cases hsign : m.sign.text with
  | cons c s =>
      have hc := isSpace_sign (c := c) (by rw [hsign]; rfl)
      exact List.dropWhile_cons_of_neg (by simp [hc])
  | nil =>
      obtain ⟨c, s, hdigits⟩ := List.exists_cons_of_ne_nil m.digits_ne_nil
      have hc := not_isSpace_of_isDigit (m.isDigit_of_mem_digits c (by simp [hdigits]))
      rw [hdigits]
      exact List.dropWhile_cons_of_neg (by simp [hc])

theorem splitSign_text (m : Numeral) :
    splitSign (m.sign.text ++ (m.digits ++ m.rest)) =
      (decide (m.sign = .minus), m.digits ++ m.rest) := by
  cases hsign : m.sign with
  | plus | minus => rfl
  | absent =>
      obtain ⟨c, s, hdigits⟩ := List.exists_cons_of_ne_nil m.digits_ne_nil
      have hc := m.isDigit_of_mem_digits c (by simp [hdigits])
      rw [hdigits]
      exact splitSign_of_isDigit hc (s ++ m.rest)

theorem takeWhile_isDigit_text (m : Numeral) :
    (m.digits ++ m.rest).takeWhile isDigit = m.digits := by
  rw [List.takeWhile_append_of_pos m.isDigit_of_mem_digits]
  have hrest : m.rest.takeWhile isDigit = [] := by
    cases hrest : m.rest with
    | nil => rfl
    | cons c s =>
        have hc := m.not_isDigit_of_head?_rest c (by simp [hrest])
        exact List.takeWhile_cons_of_neg (by simp [hc])
  rw [hrest, List.append_nil]

theorem strtol_text (m : Numeral) : strtol m.text = some m.value := by
  simp only [strtol, m.dropWhile_isSpace_text, m.splitSign_text, m.takeWhile_isDigit_text,
    m.digits_ne_nil, if_false, value, Sign.apply, decide_eq_true_eq]

end Numeral

theorem exists_sign_of_splitSign (s : Text) :
    ∃ sign : Sign, s = sign.text ++ (splitSign s).2 ∧
      (splitSign s).1 = decide (sign = .minus) := by
  cases s with
  | nil => exact ⟨.absent, rfl, rfl⟩
  | cons c s =>
      by_cases hminus : c = 45
      · exact ⟨.minus, by simp [splitSign, hminus, Sign.text], by simp [splitSign, hminus]⟩
      · by_cases hplus : c = 43
        · exact ⟨.plus, by simp [splitSign, hplus, Sign.text], by simp [splitSign, hplus]⟩
        · exact ⟨.absent, by simp [splitSign, hminus, hplus, Sign.text],
            by simp [splitSign, hminus, hplus]⟩

/-- A text is a numeral exactly when `strtol` reads a number from it. -/
theorem strtol_eq_some_iff (s : Text) (n : ℤ) :
    strtol s = some n ↔ ∃ m : Numeral, m.text = s ∧ m.value = n := by
  constructor
  · intro h
    obtain ⟨sign, hsign, hnegative⟩ := exists_sign_of_splitSign (s.dropWhile isSpace)
    simp only [strtol] at h
    generalize splitSign (s.dropWhile isSpace) = signed at h hsign hnegative
    by_cases hdigits : signed.2.takeWhile isDigit = []
    · simp [hdigits] at h
    · refine ⟨⟨s.takeWhile isSpace, sign, signed.2.takeWhile isDigit,
        signed.2.dropWhile isDigit, fun c ↦ List.mem_takeWhile_imp, hdigits,
        fun c ↦ List.mem_takeWhile_imp, fun c hc ↦ ?_⟩, ?_, ?_⟩
      · have hnot := List.head?_dropWhile_not isDigit signed.2
        rw [hc] at hnot
        simpa using hnot
      · rw [Numeral.text, List.takeWhile_append_dropWhile, ← hsign,
          List.takeWhile_append_dropWhile]
      · rw [if_neg hdigits, Option.some.injEq, hnegative] at h
        simpa [Numeral.value, Sign.apply] using h
  · rintro ⟨m, rfl, rfl⟩
    exact m.strtol_text

theorem strtol_of_digits {s : Text} (hne : s ≠ []) (hdigits : ∀ c ∈ s, isDigit c = true) :
    strtol s = some (digitsValue s : ℤ) :=
  (strtol_eq_some_iff s _).mpr
    ⟨.ofDigits s hne hdigits, Numeral.text_ofDigits hne hdigits,
      Numeral.value_ofDigits hne hdigits⟩

/-! ## Reading a printed number back -/

theorem strtol_to_string (n : ℤ) : strtol (to_string n) = some n :=
  (strtol_eq_some_iff _ n).mpr ⟨.ofInt n, Numeral.text_ofInt n, Numeral.value_ofInt n⟩

theorem stoi_to_string {n : ℤ} (hlower : intMin ≤ n) (hupper : n ≤ intMax) :
    stoi (to_string n) = .ok n :=
  stoInteger_eq_ok_iff.mpr ⟨strtol_to_string n, hlower, hupper⟩

theorem to_string_injective : Function.Injective to_string := by
  intro m n h
  have hm := strtol_to_string m
  rw [h, strtol_to_string, Option.some.injEq] at hm
  exact hm.symm

/-- The cast to `uint64_t`. -/
theorem toNat_ofInt_uint64 (n : ℤ) :
    ((UInt64.ofInt n).toNat : ℤ) = n % 18446744073709551616 := by
  rw [UInt64.ofInt, UInt64.toNat_ofNat']
  have hlower := Int.emod_nonneg n (show (18446744073709551616 : ℤ) ≠ 0 by decide)
  have hupper := Int.emod_lt_of_pos n (show (0 : ℤ) < 18446744073709551616 by decide)
  omega

/-- A number that fits `long long` and is not negative passes the cast. -/
theorem stoll_to_string_uint64 {n : ℤ} (h : 0 ≤ n ∧ n ≤ longLongMax) :
    stoll (to_string (UInt64.ofInt n).toNat) = .ok n := by
  have hmin : longLongMin ≤ 0 := by decide
  have hmax : longLongMax < 18446744073709551616 := by decide
  have hcast : ((UInt64.ofInt n).toNat : ℤ) = n := by
    rw [toNat_ofInt_uint64]
    exact Int.emod_eq_of_lt h.1 (by omega)
  rw [hcast]
  exact stoll_eq_ok (strtol_to_string n) ⟨by omega, h.2⟩

/-- A negative one passes it as a number that does not fit `long long`. -/
theorem stoll_to_string_uint64_of_neg {n : ℤ} (hmin : longLongMin ≤ n) (hneg : n < 0) :
    stoll (to_string (UInt64.ofInt n).toNat) = .error (.outOfRange "stoll") := by
  have hwritten := toNat_ofInt_uint64 n
  have hbeyond : longLongMax < ((UInt64.ofInt n).toNat : ℤ) := by
    simp only [longLongMin, longLongMax] at hmin ⊢
    omega
  exact stoll_eq_outOfRange (strtol_to_string _) fun hin ↦ Int.not_le.mpr hbeyond hin.2

end PublisherSubscriber
