import Mathlib.Data.List.TakeWhile
import Mathlib.Data.Int.Notation

/-!
# Strings, exceptions and the decimal conversions of the standard library

A `std::string` is its bytes: names, messages and received texts need not be
valid UTF-8.  `stoi` is lenient in the way of `strtol`: leading blanks, one
sign, then digits up to the first byte that is none.
-/

namespace PublisherSubscriber

abbrev Text := List UInt8

/-- The bytes of an ASCII literal. -/
def ascii (s : String) : Text := s.toList.map Char.toUInt8

/-- The exceptions thrown on the paths that are modelled.  Those of the JSON
library derive from `std::exception` but not from `std::runtime_error`. -/
inductive CppException
  | runtimeError (what : String)
  | invalidArgument (what : String)
  | outOfRange (what : String)
  | jsonLogicError (what : String)
  | jsonRuntimeError (what : String)
  deriving DecidableEq, Repr

/-- A computation that succeeds succeeds at its first step. -/
theorem of_bind_eq_ok {ε α β : Type} {x : Except ε α} {f : α → Except ε β} {b : β}
    (h : (x >>= f) = .ok b) : ∃ a, x = .ok a ∧ f a = .ok b := by
  cases x with
  | error e => cases h
  | ok a => exact ⟨a, rfl, h⟩

theorem of_map_eq_ok {ε α β : Type} {x : Except ε α} {f : α → β} {b : β}
    (h : x.map f = .ok b) : ∃ a, x = .ok a ∧ f a = b := by
  cases x with
  | error e => cases h
  | ok a => exact ⟨a, rfl, Except.ok.inj h⟩

theorem of_map_eq_error {ε α β : Type} {x : Except ε α} {f : α → β} {e : ε}
    (h : x.map f = .error e) : x = .error e := by
  cases x with
  | error e' => rw [Except.error.inj h]
  | ok a => cases h

def decimalDigits (n : ℕ) : Text := (Nat.toDigits 10 n).map Char.toUInt8

def to_string (n : ℤ) : Text :=
  if n < 0 then 45 :: decimalDigits n.natAbs else decimalDigits n.natAbs

def isSpace (c : UInt8) : Bool := c = 32 || (9 ≤ c && c ≤ 13)

def isDigit (c : UInt8) : Bool := 48 ≤ c && c ≤ 57

def digitsValue (s : Text) : ℕ := s.foldl (fun n c ↦ 10 * n + (c.toNat - 48)) 0

/-- The sign that `strtol` accepts in front of the digits. -/
def splitSign : Text → Bool × Text
  | [] => (false, [])
  | c :: s => if c = 45 then (true, s) else if c = 43 then (false, s) else (false, c :: s)

/-- `none` when no digit is read. -/
def strtol (s : Text) : Option ℤ :=
  let signed := splitSign (s.dropWhile isSpace)
  let digits := signed.2.takeWhile isDigit
  if digits = [] then none
  else some (if signed.1 then -(digitsValue digits : ℤ) else digitsValue digits)

/-- The range check that `stoi` and `stoll` share. -/
def stoInteger (name : String) (lower upper : ℤ) (s : Text) : Except CppException ℤ :=
  match strtol s with
  | none => .error (.invalidArgument name)
  | some n => if lower ≤ n ∧ n ≤ upper then .ok n else .error (.outOfRange name)

def intMin : ℤ := -2147483648

def intMax : ℤ := 2147483647

def stoi (s : Text) : Except CppException ℤ := stoInteger "stoi" intMin intMax s

def longLongMin : ℤ := -9223372036854775808

def longLongMax : ℤ := 9223372036854775807

def stoll (s : Text) : Except CppException ℤ := stoInteger "stoll" longLongMin longLongMax s

section

variable {s : Text} {n : ℤ}

theorem stoInteger_eq_ok_iff {name : String} {lower upper : ℤ} :
    stoInteger name lower upper s = .ok n ↔ strtol s = some n ∧ lower ≤ n ∧ n ≤ upper := by
  unfold stoInteger
  cases strtol s with
  | none => exact iff_of_false (by rintro ⟨⟩) (by rintro ⟨⟨⟩, -⟩)
  | some m =>
      by_cases hrange : lower ≤ m ∧ m ≤ upper
      · simp only [if_pos hrange, Except.ok.injEq, Option.some.injEq]
        exact ⟨by rintro rfl; exact ⟨rfl, hrange⟩, And.left⟩
      · simp only [if_neg hrange, Option.some.injEq]
        exact iff_of_false (by rintro ⟨⟩) (by rintro ⟨rfl, h⟩; exact hrange h)

theorem stoll_eq_ok (hread : strtol s = some n) (hrange : longLongMin ≤ n ∧ n ≤ longLongMax) :
    stoll s = .ok n :=
  stoInteger_eq_ok_iff.mpr ⟨hread, hrange⟩

theorem strtol_of_stoll (h : stoll s = .ok n) : strtol s = some n :=
  (stoInteger_eq_ok_iff.mp h).1

theorem stoll_eq_outOfRange (hread : strtol s = some n)
    (hrange : ¬ (longLongMin ≤ n ∧ n ≤ longLongMax)) : stoll s = .error (.outOfRange "stoll") := by
  rw [stoll, stoInteger, hread]
  exact if_neg hrange

theorem stoll_eq_invalidArgument (hread : strtol s = none) :
    stoll s = .error (.invalidArgument "stoll") := by
  rw [stoll, stoInteger, hread]

end

/-- `BUFFER_SIZE`, the same in both programs. -/
def bufferSize : ℕ := 2048

/-! ## Printed numbers -/

theorem char_isDigit_bounds {c : Char} (hc : c.isDigit = true) : 48 ≤ c.toNat ∧ c.toNat ≤ 57 := by
  simp only [Char.isDigit, Bool.and_eq_true, decide_eq_true_eq] at hc
  exact ⟨hc.1, hc.2⟩

theorem toNat_toUInt8_of_isDigit {c : Char} (hc : c.isDigit = true) :
    c.toUInt8.toNat = c.toNat := by
  have hlt : c.toNat < 256 := by
    have hbounds := char_isDigit_bounds hc
    omega
  simp only [Char.toUInt8, UInt32.toNat_toUInt8]
  exact Nat.mod_eq_of_lt hlt

theorem isDigit_toUInt8 {c : Char} (hc : c.isDigit = true) : isDigit c.toUInt8 = true := by
  have hbounds := char_isDigit_bounds hc
  rw [← toNat_toUInt8_of_isDigit hc] at hbounds
  simpa [isDigit, UInt8.le_iff_toNat_le] using hbounds

theorem isDigit_of_mem_decimalDigits {n : ℕ} {c : UInt8} (hc : c ∈ decimalDigits n) :
    isDigit c = true := by
  obtain ⟨d, hd, rfl⟩ := List.mem_map.mp hc
  exact isDigit_toUInt8 (Nat.isDigit_of_mem_toDigits (by decide) (by decide) hd)

theorem decimalDigits_ne_nil (n : ℕ) : decimalDigits n ≠ [] := by
  simp [decimalDigits, Nat.toDigits_ne_nil]

theorem digitsValue_decimalDigits (n : ℕ) : digitsValue (decimalDigits n) = n := by
  have hvalue : ∀ (ds : List Char) (init : ℕ), (∀ d ∈ ds, d.isDigit = true) →
      (ds.map Char.toUInt8).foldl (fun n c ↦ 10 * n + (c.toNat - 48)) init =
        Nat.ofDigitChars 10 ds init := by
    intro ds
    induction ds with
    | nil => intro init _; simp
    | cons d ds ih =>
        intro init hds
        have hd := toNat_toUInt8_of_isDigit (hds d (by simp))
        rw [List.map_cons, List.foldl_cons, Nat.ofDigitChars_cons, hd]
        exact ih _ fun e he ↦ hds e (List.mem_cons_of_mem d he)
  have hdigits : ∀ d ∈ Nat.toDigits 10 n, d.isDigit = true := fun d hd ↦
    Nat.isDigit_of_mem_toDigits (by decide) (by decide) hd
  rw [digitsValue, decimalDigits, hvalue _ _ hdigits, Nat.ofDigitChars_ten_toDigits]

/-- A digit is neither a blank nor a sign. -/
theorem not_isSpace_of_isDigit {c : UInt8} (hc : isDigit c = true) : isSpace c = false := by
  simp only [isDigit, isSpace, Bool.and_eq_true, decide_eq_true_eq, UInt8.le_iff_toNat_le] at *
  have h32 : ¬ c = 32 := by
    rintro rfl
    exact absurd hc.1 (by decide)
  have h13 : 13 < c.toNat := by
    have h48 : (48 : UInt8).toNat ≤ c.toNat := hc.1
    simp only [UInt8.reduceToNat] at h48
    omega
  simp [h32, h13]

theorem splitSign_of_isDigit {c : UInt8} (hc : isDigit c = true) (s : Text) :
    splitSign (c :: s) = (false, c :: s) := by
  have h45 : c ≠ 45 := by
    rintro rfl
    exact absurd hc (by decide)
  have h43 : c ≠ 43 := by
    rintro rfl
    exact absurd hc (by decide)
  simp [splitSign, h45, h43]

theorem mem_to_string {n : ℤ} {c : UInt8} (hc : c ∈ to_string n) : isDigit c ∨ c = 45 := by
  unfold to_string at hc
  split at hc
  · rcases List.mem_cons.mp hc with rfl | hc
    · exact Or.inr rfl
    · exact Or.inl (isDigit_of_mem_decimalDigits hc)
  · exact Or.inl (isDigit_of_mem_decimalDigits hc)

theorem to_string_ne_nil (n : ℤ) : to_string n ≠ [] := by
  unfold to_string
  split
  · simp
  · exact decimalDigits_ne_nil _

end PublisherSubscriber
