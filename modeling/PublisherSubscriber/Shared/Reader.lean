import PublisherSubscriber.Shared.Json
import Mathlib.Algebra.Ring.Nat

/-!
# How the reader types a number

A number is decoded as a signed integer if it fits one, as an unsigned integer
beyond that, and as a double where the digits go past both.  So a value can
come back with another type than it was written with; `normal` forgets that.
-/

namespace PublisherSubscriber

/-- The loop of `decodeNumber` over the digits; `none` where it turns to `decodeDouble`. -/
def decodeDigits (threshold maxLastDigit : ℕ) : Text → ℕ → Option ℕ
  | [], value => some value
  | c :: current, value =>
      if c < 48 ∨ 57 < c then none
      else if threshold ≤ value ∧
          (threshold < value ∨ current ≠ [] ∨ maxLastDigit < c.toNat - 48) then none
      else decodeDigits threshold maxLastDigit current (10 * value + (c.toNat - 48))

/-- The thresholds are the largest and the smallest number without their last digits. -/
def decodeNumber (token : Text) : Option Json :=
  if token.head? = some 45 then
    (decodeDigits 922337203685477580 8 token.tail 0).map fun (value : ℕ) ↦ .int (-(value : ℤ))
  else
    (decodeDigits 1844674407370955161 5 token 0).map fun (value : ℕ) ↦
      if (value : ℤ) ≤ longLongMax then .int value else .uint value

/-! ## Numbers in range -/

def digitsFrom (value : ℕ) (s : Text) : ℕ := s.foldl (fun n c ↦ 10 * n + (c.toNat - 48)) value

theorem le_digitsFrom (value : ℕ) (s : Text) : value ≤ digitsFrom value s := by
  induction s generalizing value with
  | nil => exact le_refl value
  | cons c s ih =>
      have hrest : 10 * value + (c.toNat - 48) ≤ digitsFrom value (c :: s) := ih _
      omega

theorem decodeDigits_eq_some {threshold maxLastDigit : ℕ} (hthreshold : 0 < threshold)
    (hlast : maxLastDigit < 10) {s : Text} (hs : ∀ c ∈ s, isDigit c = true) {value : ℕ}
    (hfits : digitsFrom value s ≤ 10 * threshold + maxLastDigit) :
    decodeDigits threshold maxLastDigit s value = some (digitsFrom value s) := by
  induction s generalizing value with
  | nil => rfl
  | cons c s ih =>
      obtain ⟨hc, hs⟩ := List.forall_mem_cons.mp hs
      have hdigit : ¬ (c < 48 ∨ 57 < c) := by
        simpa [isDigit, not_or] using hc
      have hnext : 10 * value + (c.toNat - 48) ≤ digitsFrom value (c :: s) := le_digitsFrom _ s
      have hroom : ¬ (threshold ≤ value ∧
          (threshold < value ∨ s ≠ [] ∨ maxLastDigit < c.toNat - 48)) := by
        rintro ⟨hreached, hpast | hmore | hdigit⟩
        · omega
        · obtain ⟨d, s, rfl⟩ := List.exists_cons_of_ne_nil hmore
          have hlater : 10 * (10 * value + (c.toNat - 48)) + (d.toNat - 48) ≤
              digitsFrom value (c :: d :: s) := le_digitsFrom _ s
          omega
        · omega
      rw [decodeDigits, if_neg hdigit, if_neg hroom]
      exact ih hs hfits

theorem decodeNumber_of_nonneg {n : ℕ} (hn : n < 18446744073709551616) :
    decodeNumber (to_string n) = some (if (n : ℤ) ≤ longLongMax then .int n else .uint n) := by
  have hvalue : digitsFrom 0 (decimalDigits n) = n := digitsValue_decimalDigits n
  have hread : decodeDigits 1844674407370955161 5 (decimalDigits n) 0 = some n := by
    rw [decodeDigits_eq_some (by decide) (by decide) (fun c ↦ isDigit_of_mem_decimalDigits)
      (by omega), hvalue]
  have hpositive : (decimalDigits n).head? ≠ some 45 := by
    intro hminus
    exact absurd (isDigit_of_mem_decimalDigits (List.mem_of_mem_head? hminus)) (by decide)
  have htoken : to_string n = decimalDigits n := by
    rw [to_string, if_neg (by omega), Int.natAbs_natCast]
  rw [htoken, decodeNumber, if_neg hpositive, hread]
  rfl

theorem decodeNumber_of_neg {n : ℤ} (hlower : longLongMin ≤ n) (hneg : n < 0) :
    decodeNumber (to_string n) = some (.int n) := by
  have hvalue : digitsFrom 0 (decimalDigits n.natAbs) = n.natAbs := digitsValue_decimalDigits _
  have hread : decodeDigits 922337203685477580 8 (decimalDigits n.natAbs) 0 = some n.natAbs := by
    have hfits : n.natAbs ≤ 10 * 922337203685477580 + 8 := by
      simp only [longLongMin] at hlower
      omega
    rw [decodeDigits_eq_some (by decide) (by decide) (fun c ↦ isDigit_of_mem_decimalDigits)
      (by omega), hvalue]
  rw [to_string, if_pos hneg, decodeNumber, if_pos List.head?_cons, List.tail_cons, hread]
  have hback : -(n.natAbs : ℤ) = n := by omega
  rw [Option.map_some, hback]

/-! ## The type of a number forgotten -/

namespace Json

mutual

/-- Every number has the type that the reader gives it. -/
def normal : Json → Json
  | uint n => if (n : ℤ) ≤ longLongMax then int n else uint n
  | array elements => array (normalElements elements)
  | object members => object (normalMembers members)
  | null => null
  | int n => int n
  | real r => real r
  | string s => string s
  | bool b => bool b

def normalElements : List Json → List Json
  | [] => []
  | v :: elements => v.normal :: normalElements elements

def normalMembers : List (Text × Json) → List (Text × Json)
  | [] => []
  | (key, v) :: members => (key, v.normal) :: normalMembers members

end

theorem asString_normal (v : Json) : v.normal.asString = v.asString := by
  cases v with
  | uint n =>
      rw [normal]
      split_ifs <;> rfl
  | _ => rfl

theorem lookup_normalMembers (members : List (Text × Json)) (key : Text) :
    (normalMembers members).lookup key = (members.lookup key).map normal := by
  induction members with
  | nil => rfl
  | cons member members ih =>
      obtain ⟨k, v⟩ := member
      rw [normalMembers, List.lookup_cons, List.lookup_cons, ih]
      cases key == k <;> rfl

theorem index_normal (v : Json) (key : Text) : v.normal.index key = (v.index key).map normal := by
  cases v with
  | object members =>
      rw [normal, index, index, lookup_normalMembers, Except.map]
      cases members.lookup key <;> rfl
  | uint n =>
      rw [normal]
      split_ifs <;> rfl
  | _ => rfl

/-- The text of a number that fits 64 bits is decoded to the number with that type. -/
theorem decodeNumber_asString {v : Json} {token : Text}
    (hv : (∃ n : ℕ, n < 18446744073709551616 ∧ v = uint n) ∨
      ∃ n : ℤ, longLongMin ≤ n ∧ n ≤ longLongMax ∧ v = int n)
    (htoken : v.asString = .ok token) : decodeNumber token = some v.normal := by
  rcases hv with ⟨n, hn, rfl⟩ | ⟨n, hlower, hupper, rfl⟩
  · obtain rfl : to_string n = token := Except.ok.inj htoken
    rw [decodeNumber_of_nonneg hn, normal]
  · obtain rfl : to_string n = token := Except.ok.inj htoken
    by_cases hneg : n < 0
    · rw [decodeNumber_of_neg hlower hneg, normal]
    · obtain ⟨n, rfl⟩ := Int.eq_ofNat_of_zero_le (Int.not_lt.mp hneg)
      have hn : n < 18446744073709551616 := by
        simp only [longLongMax] at hupper
        omega
      rw [decodeNumber_of_nonneg hn, if_pos hupper, normal]

/-- A member is converted to the same text. -/
theorem memberText_normal (v : Json) (key : Text) :
    v.normal.memberText key = v.memberText key := by
  rw [memberText, memberText, index_normal]
  cases v.index key with
  | error e => rfl
  | ok w => exact asString_normal w

end Json

/-- What the library reads is the value it wrote, up to the types of the numbers. -/
def JsonLibrary.ReadsValueBack (library : JsonLibrary) (v : Json) : Prop :=
  ∃ w : Json, library.parse (library.writeString v) = .ok (some w) ∧ w.normal = v.normal

/-- A reader may know the text of a value under another type of its numbers. -/
theorem JsonLibrary.readsValueBack_ofValues {values : List Json}
    (hnodup : (values.map Json.compact).Nodup) {v w : Json} (hw : w ∈ values)
    (htext : v.compact = w.compact) (hnormal : w.normal = v.normal) :
    (ofValues values).ReadsValueBack v := by
  have hread : (ofValues values).parse v.compact = .ok (some w) := by
    rw [htext]
    exact readsBack_ofValues_of_nodup hnodup hw
  exact ⟨w, hread, hnormal⟩

end PublisherSubscriber
