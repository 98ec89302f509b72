import PublisherSubscriber.Shared.Parser

/-!
# The nesting limit

The calls of the parser end by themselves.  They end with an exception only
when too many braces and brackets are open at once, or when the name of a
member is too long.
-/

namespace PublisherSubscriber

namespace OurReader

open TokenType

/-! ## Enough fuel -/

theorem andThen_congr {α β : Type} {x : Except CppException (Option α)}
    {f g : α → Except CppException (Option β)} (h : ∀ a, x = .ok (some a) → f a = g a) :
    andThen x f = andThen x g := by
  unfold andThen
  split
  · rfl
  · rfl
  · exact h _ rfl

section

variable {decodeDouble : Text → Option Double}

theorem length_lt_of_readValue {fuel nodes : ℕ} {s : Text} {value : Json × Text}
    (h : readValue decodeDouble fuel nodes s = .ok (some value)) :
    value.2.length < s.length :=
  (invariant_length.read fuel).1 nodes s value.1 value.2 h

/-- Two amounts of fuel that are both enough lead to the same result. -/
theorem read_fuel (fuel : ℕ) :
    (∀ more nodes s, 2 * s.length + 1 ≤ fuel → 2 * s.length + 1 ≤ more →
      readValue decodeDouble fuel nodes s = readValue decodeDouble more nodes s) ∧
    (∀ more nodes members s, 2 * s.length + 2 ≤ fuel → 2 * s.length + 2 ≤ more →
      readObject decodeDouble fuel nodes members s =
        readObject decodeDouble more nodes members s) ∧
    ∀ more nodes elements s, 2 * s.length + 2 ≤ fuel → 2 * s.length + 2 ≤ more →
      readArray decodeDouble fuel nodes elements s =
        readArray decodeDouble more nodes elements s := by
  induction fuel with
  | zero => exact ⟨fun _ _ _ hle ↦ by omega, fun _ _ _ _ hle ↦ by omega,
      fun _ _ _ _ hle ↦ by omega⟩
  | succ fuel ih =>
      obtain ⟨ihValue, ihObject, ihArray⟩ := ih
      refine ⟨fun more nodes s hle hmore ↦ ?_, fun more nodes members s hle hmore ↦ ?_,
        fun more nodes elements s hle hmore ↦ ?_⟩
      · obtain ⟨more, rfl⟩ : ∃ m, more = m + 1 := ⟨more - 1, by omega⟩
        simp only [readValue]
        split_ifs with hlimit hobject harray
        · rfl
        · have hlt := skipCommentTokens_lt hobject (by decide)
          rw [ihObject more nodes [] _ (by omega) (by omega)]
        · have hlt := skipCommentTokens_lt harray (by decide)
          rw [ihArray more nodes [] _ (by omega) (by omega)]
        · rfl
      · obtain ⟨more, rfl⟩ : ∃ m, more = m + 1 := ⟨more - 1, by omega⟩
        rw [readObject, readObject]
        refine andThen_congr fun member hname ↦ ?_
        obtain ⟨name, t⟩ := member
        have hlt := readMemberName_lt hname
        cases name with
        | none => rfl
        | some key =>
            dsimp only
            rw [ihValue more (nodes + 1) t (by omega) (by omega)]
            refine andThen_congr fun value hvalue ↦ ?_
            have hrest := length_lt_of_readValue hvalue
            split
            · rfl
            · have hend := readMemberEnd_lt ‹_›
              exact ihObject more nodes _ _ (by omega) (by omega)
            · rfl
      · obtain ⟨more, rfl⟩ : ∃ m, more = m + 1 := ⟨more - 1, by omega⟩
        have hspaces : (skipSpaces s).length ≤ s.length := (List.dropWhile_suffix _).length_le
        rw [readArray, readArray]
        split_ifs
        · rfl
        · rw [ihValue more (nodes + 1) (skipSpaces s) (by omega) (by omega)]
          refine andThen_congr fun value hvalue ↦ ?_
          have hrest := length_lt_of_readValue hvalue
          split
          · rfl
          · have hend := readElementEnd_lt ‹_›
            exact ihArray more nodes _ _ (by omega) (by omega)
          · rfl

theorem skipBom_suffix (text : Text) : skipBom text <:+ text := by
  unfold skipBom
  split_ifs
  · exact List.drop_suffix 3 text
  · exact List.suffix_refl text

/-- The calls of `parse` end by themselves, not for want of fuel. -/
theorem parse_eq_readValue {text : Text} {fuel : ℕ} (hfuel : 2 * text.length + 1 ≤ fuel) :
    parse decodeDouble text =
      (readValue decodeDouble fuel 1 (skipBom text)).map (Option.map Prod.fst) := by
  have hle := (skipBom_suffix text).length_le
  rw [parse, (read_fuel _).1 fuel 1 (skipBom text) (by omega) (by omega)]

end

/-! ## Exceptions -/

/-- How many braces and brackets could be open at once. -/
def openings (s : Text) : ℕ := s.countP fun c ↦ c = 123 ∨ c = 91

/-- An exception and what the text must be for it, with the stack at this size. -/
inductive Thrown (nodes : ℕ) (s : Text) : CppException → Prop
  | limit (h : stackLimit < nodes + openings s) :
      Thrown nodes s (.jsonRuntimeError "Exceeded stackLimit in readValue().")
  | name (h : 2 ^ 30 ≤ s.length) : Thrown nodes s (.jsonRuntimeError "keylength >= 2^30")

theorem Thrown.mono {nodes nodes' : ℕ} {s t : Text} {e : CppException} (h : Thrown nodes t e)
    (hnodes : nodes + openings t ≤ nodes' + openings s) (hlength : t.length ≤ s.length) :
    Thrown nodes' s e := by
  cases h with
  | limit h => exact .limit (h.trans_le hnodes)
  | name h => exact .name (h.trans hlength)

section

variable {decodeDouble : Text → Option Double}

/-- Each bracket is one more node. -/
theorem readValue_brackets {k fuel nodes : ℕ} (s : Text) (hfuel : 2 * k < fuel)
    (hlimit : stackLimit < nodes + k) :
    readValue decodeDouble fuel nodes (List.replicate (k + 1) 91 ++ s) =
      .error (.jsonRuntimeError "Exceeded stackLimit in readValue().") := by
  induction k generalizing fuel nodes with
  | zero =>
      obtain ⟨fuel, rfl⟩ : ∃ m, fuel = m + 1 := ⟨fuel - 1, by omega⟩
      exact if_pos hlimit
  | succ k ih =>
      obtain ⟨fuel, rfl⟩ : ∃ m, fuel = m + 2 := ⟨fuel - 2, by omega⟩
      have htoken := skipCommentTokens_of_punctuation
        (show punctuation 91 = some tokenArrayBegin from rfl) (List.replicate (k + 1) 91 ++ s)
      have hspaces : skipSpaces (List.replicate (k + 1) 91 ++ s) =
          List.replicate (k + 1) 91 ++ s := skipSpaces_of_not_isBlank rfl _
      have hhead : (List.replicate (k + 1) (91 : UInt8) ++ s).head? ≠ some 93 := by
        rw [List.replicate_succ]
        simp
      by_cases hnodes : nodes ≤ stackLimit
      · rw [List.replicate_succ, List.cons_append, readValue_array hnodes htoken, readArray,
          hspaces, if_neg hhead, ih (by omega) (by omega)]
        rfl
      · exact if_pos (Nat.lt_of_not_le hnodes)

theorem parse_brackets {n : ℕ} (hn : stackLimit < n) (s : Text) :
    parse decodeDouble (List.replicate n 91 ++ s) =
      .error (.jsonRuntimeError "Exceeded stackLimit in readValue().") := by
  obtain ⟨k, rfl⟩ : ∃ k, n = k + 1 := ⟨n - 1, by omega⟩
  have hbom : skipBom (List.replicate (k + 1) 91 ++ s) = List.replicate (k + 1) 91 ++ s := by
    rw [skipBom, if_neg]
    rw [List.replicate_succ, List.cons_append]
    exact fun h ↦ absurd (List.cons_prefix_cons.mp h).1 (by decide)
  have hlength : k + 1 ≤ (List.replicate (k + 1) (91 : UInt8) ++ s).length := by
    rw [List.length_append, List.length_replicate]
    omega
  rw [parse, hbom, readValue_brackets s (by omega) (by omega)]
  rfl

end

end OurReader

end PublisherSubscriber
