import PublisherSubscriber.Shared.Text
import Mathlib.Data.List.Basic

/-!
# The tokens of the JSON reader

The reader under `include` goes through a text byte by byte.  Its position is
the text that is left.  The features are those of a `CharReaderBuilder` nobody
changed: comments are allowed, single quotes and special numbers are not.
-/

namespace PublisherSubscriber

namespace OurReader

inductive TokenType
  | tokenEndOfStream
  | tokenObjectBegin
  | tokenObjectEnd
  | tokenArrayBegin
  | tokenArrayEnd
  | tokenString
  | tokenNumber
  | tokenTrue
  | tokenFalse
  | tokenNull
  | tokenArraySeparator
  | tokenMemberSeparator
  | tokenComment
  | tokenError
  deriving DecidableEq, Repr

open TokenType

/-- The bytes between `start_` and `end_`. -/
structure Token where
  type : TokenType
  text : Text
  deriving DecidableEq, Repr

def isBlank (c : UInt8) : Bool := c = 32 || c = 9 || c = 13 || c = 10

def skipSpaces (s : Text) : Text := s.dropWhile isBlank

def skipBom (s : Text) : Text := if [0xEF, 0xBB, 0xBF] <+: s then s.drop 3 else s

/-- There is a zero behind the end. -/
def getNextChar : Text → UInt8 × Text
  | [] => (0, [])
  | c :: s => (c, s)

/-- `match`: the pattern is consumed as a whole or not at all. -/
def matchPattern (pattern s : Text) : Bool × Text :=
  if pattern <+: s then (true, s.drop pattern.length) else (false, s)

/-- The loop of `readCStyleComment` stops in front of the slash, or of the last byte. -/
def skipCStyleComment : Text → Text
  | [] => []
  | [c] => [c]
  | c :: d :: s => if c = 42 ∧ d = 47 then d :: s else skipCStyleComment (d :: s)

def readCStyleComment (s : Text) : Bool × Text :=
  let next := getNextChar (skipCStyleComment s)
  (next.1 = 47, next.2)

def readCppStyleComment : Text → Text
  | [] => []
  | c :: s =>
      if c = 10 then s
      else if c = 13 then (if s.head? = some 10 then s.tail else s)
      else readCppStyleComment s

def readComment (s : Text) : Bool × Text :=
  let next := getNextChar s
  if next.1 = 42 then readCStyleComment next.2
  else if next.1 = 47 then (true, readCppStyleComment next.2)
  else (false, next.2)

def readFraction (s : Text) : Text :=
  if s.head? = some 46 then s.tail.dropWhile isDigit else s

def readExponent (s : Text) : Text :=
  if s.head? = some 101 ∨ s.head? = some 69 then
    let signed := s.tail
    (if signed.head? = some 43 ∨ signed.head? = some 45 then signed.tail else signed).dropWhile
      isDigit
  else s

/-- The first byte is read already; false in front of what may be `Infinity`. -/
def readNumber (checkInf : Bool) (s : Text) : Bool × Text :=
  if checkInf = true ∧ s.head? = some 73 then (false, s.tail)
  else (true, readExponent (readFraction (s.dropWhile isDigit)))

/-- The opening quote is read already; a backslash takes the next byte along. -/
def readString : Text → Bool × Text
  | [] => (false, [])
  | [c] => (c = 34, [])
  | c :: d :: s =>
      if c = 92 then readString s
      else if c = 34 then (true, d :: s)
      else readString (d :: s)

/-- The cases of the switch that read nothing more. -/
def punctuation (c : UInt8) : Option TokenType :=
  if c = 123 then some tokenObjectBegin
  else if c = 125 then some tokenObjectEnd
  else if c = 91 then some tokenArrayBegin
  else if c = 93 then some tokenArrayEnd
  else if c = 44 then some tokenArraySeparator
  else if c = 58 then some tokenMemberSeparator
  else if c = 0 then some tokenEndOfStream
  else none

def typed (type : TokenType) (read : Bool × Text) : TokenType × Text :=
  (if read.1 then type else tokenError, read.2)

/-- The switch over the first byte of a token. -/
def scanToken (c : UInt8) (s : Text) : TokenType × Text :=
  match punctuation c with
  | some type => (type, s)
  | none =>
      if c = 34 then typed tokenString (readString s)
      else if c = 47 then typed tokenComment (readComment s)
      else if isDigit c then typed tokenNumber (readNumber false s)
      else if c = 45 ∨ c = 43 then typed tokenNumber (readNumber true s)
      else if c = 116 then typed tokenTrue (matchPattern (ascii "rue") s)
      else if c = 102 then typed tokenFalse (matchPattern (ascii "alse") s)
      else if c = 110 then typed tokenNull (matchPattern (ascii "ull") s)
      else (tokenError, s)

def textBetween (start current : Text) : Text := start.take (start.length - current.length)

/-- What `readToken` returns is whether the type is not `tokenError`. -/
def readToken (s : Text) : Token × Text :=
  let start := skipSpaces s
  let next := getNextChar start
  let scanned := scanToken next.1 next.2
  (⟨scanned.1, textBetween start scanned.2⟩, scanned.2)

/-- Each loop that passes over comments; there are no more of them than bytes. -/
def skipComments : ℕ → Text → Token × Text
  | 0, s => readToken s
  | n + 1, s => if (readToken s).1.type = tokenComment then skipComments n (readToken s).2
      else readToken s

def skipCommentTokens (s : Text) : Token × Text := skipComments s.length s

example : skipCommentTokens (ascii " /* a */ // b\n \"c\\\"d\" e") =
    (⟨tokenString, ascii "\"c\\\"d\""⟩, ascii " e") := by decide +kernel

/-! ## What is left is a part of what was there -/

@[simp] theorem textBetween_append_left (s t : Text) : textBetween (s ++ t) t = s := by
  simp [textBetween]

theorem getNextChar_suffix (s : Text) : (getNextChar s).2 <:+ s := by
  cases s with
  | nil => exact List.suffix_refl _
  | cons c s => exact List.suffix_cons c s

theorem skipCStyleComment_suffix (s : Text) : skipCStyleComment s <:+ s := by
  fun_induction skipCStyleComment s with
  | case1 => exact List.suffix_refl _
  | case2 => exact List.suffix_refl _
  | case3 c d s => exact List.suffix_cons c _
  | case4 c d s _ ih => exact ih.trans (List.suffix_cons c _)

theorem readCppStyleComment_suffix (s : Text) : readCppStyleComment s <:+ s := by
  induction s with
  | nil => exact List.suffix_refl _
  | cons c s ih =>
      rw [readCppStyleComment]
      split_ifs
      · exact List.suffix_cons c s
      · exact (List.tail_suffix s).trans (List.suffix_cons c s)
      · exact List.suffix_cons c s
      · exact ih.trans (List.suffix_cons c s)

theorem readComment_suffix (s : Text) : (readComment s).2 <:+ s := by
  have hnext := getNextChar_suffix s
  simp only [readComment, readCStyleComment]
  split_ifs
  · exact (getNextChar_suffix _).trans ((skipCStyleComment_suffix _).trans hnext)
  · exact (readCppStyleComment_suffix _).trans hnext
  · exact hnext

theorem readFraction_suffix (s : Text) : readFraction s <:+ s := by
  unfold readFraction
  split_ifs
  · exact (List.dropWhile_suffix _).trans (List.tail_suffix s)
  · exact List.suffix_refl s

theorem readExponent_suffix (s : Text) : readExponent s <:+ s := by
  simp only [readExponent]
  split_ifs
  · exact (List.dropWhile_suffix _).trans ((List.tail_suffix _).trans (List.tail_suffix s))
  · exact (List.dropWhile_suffix _).trans (List.tail_suffix s)
  · exact List.suffix_refl s

theorem readNumber_suffix (checkInf : Bool) (s : Text) : (readNumber checkInf s).2 <:+ s := by
  unfold readNumber
  split_ifs
  · exact List.tail_suffix s
  · exact (readExponent_suffix _).trans ((readFraction_suffix _).trans (List.dropWhile_suffix _))

theorem readString_suffix (s : Text) : (readString s).2 <:+ s := by
  fun_induction readString s with
  | case1 => exact List.suffix_refl _
  | case2 c => exact List.nil_suffix
  | case3 d s ih => exact ih.trans ((List.suffix_cons d s).trans (List.suffix_cons _ _))
  | case4 d s => exact List.suffix_cons _ _
  | case5 c d s _ _ ih => exact ih.trans (List.suffix_cons c _)

theorem matchPattern_suffix (pattern s : Text) : (matchPattern pattern s).2 <:+ s := by
  unfold matchPattern
  split_ifs
  · exact List.drop_suffix _ s
  · exact List.suffix_refl s

theorem scanToken_suffix (c : UInt8) (s : Text) : (scanToken c s).2 <:+ s := by
  unfold scanToken
  cases punctuation c with
  | some type => exact List.suffix_refl s
  | none =>
      dsimp only
      split_ifs
      · exact readString_suffix s
      · exact readComment_suffix s
      · exact readNumber_suffix false s
      · exact readNumber_suffix true s
      · exact matchPattern_suffix _ s
      · exact matchPattern_suffix _ s
      · exact matchPattern_suffix _ s
      · exact List.suffix_refl s

/-! ## What a token is -/

def words : List (UInt8 × Text × TokenType) :=
  [(116, ascii "rue", tokenTrue), (102, ascii "alse", tokenFalse), (110, ascii "ull", tokenNull)]

/-- What the switch over the first byte makes of the text behind it. -/
inductive Scans : UInt8 → Text → TokenType → Text → Prop
  | punctuation {c : UInt8} {s : Text} {type : TokenType} (h : punctuation c = some type) :
      Scans c s type s
  | string {s t : Text} (h : readString s = (true, t)) : Scans 34 s tokenString t
  | comment {s t : Text} (h : readComment s = (true, t)) : Scans 47 s tokenComment t
  | number {c : UInt8} {s t : Text} (checkInf : Bool) (hc : isDigit c = true ∨ c = 45 ∨ c = 43)
      (h : readNumber checkInf s = (true, t)) : Scans c s tokenNumber t
  | word {c : UInt8} {pattern s : Text} {type : TokenType} (h : (c, pattern, type) ∈ words) :
      Scans c (pattern ++ s) type s
  | error {c : UInt8} {s t : Text} : Scans c s tokenError t

theorem scans_typed {c : UInt8} {s : Text} {type : TokenType} {read : Bool × Text}
    (h : ∀ t, read = (true, t) → Scans c s type t) :
    Scans c s (typed type read).1 (typed type read).2 := by
  obtain ⟨ok, t⟩ := read
  cases ok with
  | false => exact .error
  | true => exact h t rfl

theorem scans_matchPattern {c : UInt8} {pattern : Text} {type : TokenType}
    (hword : (c, pattern, type) ∈ words) (s : Text) :
    Scans c s (typed type (matchPattern pattern s)).1 (typed type (matchPattern pattern s)).2 := by
  apply scans_typed
  intro t ht
  unfold matchPattern at ht
  split_ifs at ht with hprefix
  · obtain ⟨u, rfl⟩ := hprefix
    obtain ⟨-, hrest⟩ := Prod.mk.inj ht
    rw [List.drop_left] at hrest
    exact hrest ▸ .word hword
  · cases ht

theorem scanToken_scans (c : UInt8) (s : Text) : Scans c s (scanToken c s).1 (scanToken c s).2 := by
  unfold scanToken
  cases hpunctuation : punctuation c with
  | some type => exact .punctuation hpunctuation
  | none =>
      dsimp only
      split_ifs with hquote hslash hdigit hsign htrue hfalse hnull
      · subst hquote
        exact scans_typed fun t ↦ .string
      · subst hslash
        exact scans_typed fun t ↦ .comment
      · exact scans_typed fun t ↦ .number false (Or.inl hdigit)
      · exact scans_typed fun t ↦ .number true (Or.inr hsign)
      · subst htrue
        exact scans_matchPattern (by decide +kernel) s
      · subst hfalse
        exact scans_matchPattern (by decide +kernel) s
      · subst hnull
        exact scans_matchPattern (by decide +kernel) s
      · exact .error

/-- The end, or a byte and what the switch makes of it. -/
theorem readToken_cases (s : Text) :
    (skipSpaces s = [] ∧ readToken s = (⟨tokenEndOfStream, []⟩, [])) ∨
      ∃ c t, skipSpaces s = c :: t ∧ Scans c t (readToken s).1.type (readToken s).2 := by
  cases hstart : skipSpaces s with
  | nil =>
      refine Or.inl ⟨rfl, ?_⟩
      simp only [readToken, hstart]
      rfl
  | cons c t =>
      refine Or.inr ⟨c, t, rfl, ?_⟩
      simp only [readToken, hstart]
      exact scanToken_scans c t

/-- The byte that a token of this type consists of. -/
def TokenType.byte : TokenType → Option UInt8
  | tokenObjectBegin => some 123
  | tokenObjectEnd => some 125
  | tokenArrayBegin => some 91
  | tokenArrayEnd => some 93
  | tokenArraySeparator => some 44
  | tokenMemberSeparator => some 58
  | _ => none

theorem Scans.eq_of_byte {c b : UInt8} {s t : Text} {type : TokenType} (h : Scans c s type t)
    (hb : type.byte = some b) : c = b ∧ t = s := by
  cases h with
  | punctuation hpunctuation =>
      unfold OurReader.punctuation at hpunctuation
      split_ifs at hpunctuation <;> obtain rfl := Option.some.inj hpunctuation <;> cases hb <;>
        exact ⟨by assumption, rfl⟩
  | word hword =>
      simp only [words, List.mem_cons, List.not_mem_nil, or_false, Prod.mk.injEq] at hword
      rcases hword with ⟨-, -, rfl⟩ | ⟨-, -, rfl⟩ | ⟨-, -, rfl⟩ <;> cases hb
  | _ => cases hb

theorem skipSpaces_of_byte {s : Text} {b : UInt8} (hb : (readToken s).1.type.byte = some b) :
    skipSpaces s = b :: (readToken s).2 := by
  rcases readToken_cases s with ⟨-, hend⟩ | ⟨c, t, hstart, hscans⟩
  · rw [hend] at hb
    cases hb
  · obtain ⟨rfl, hrest⟩ := hscans.eq_of_byte hb
    rw [hstart, hrest]

theorem skipCommentTokens_of_ne {s : Text} (h : (readToken s).1.type ≠ tokenComment) :
    skipCommentTokens s = readToken s := by
  rw [skipCommentTokens]
  cases s.length with
  | zero => rfl
  | succ n => exact if_neg h

/-! ## Tokens at the front of a text -/

theorem skipSpaces_append {blanks s : Text} (h : ∀ c ∈ blanks, isBlank c = true) :
    skipSpaces (blanks ++ s) = skipSpaces s :=
  List.dropWhile_append_of_pos h

theorem skipSpaces_of_not_isBlank {c : UInt8} (hc : isBlank c = false) (s : Text) :
    skipSpaces (c :: s) = c :: s :=
  List.dropWhile_cons_of_neg (by simp [hc])

theorem readToken_append {blanks s : Text} (h : ∀ c ∈ blanks, isBlank c = true) :
    readToken (blanks ++ s) = readToken s := by
  simp only [readToken, skipSpaces_append h]

theorem readToken_of_scanToken {c : UInt8} (hc : isBlank c = false) {t s : Text}
    {type : TokenType} (h : scanToken c (t ++ s) = (type, s)) :
    readToken (c :: (t ++ s)) = (⟨type, c :: t⟩, s) := by
  simp only [readToken, skipSpaces_of_not_isBlank hc, getNextChar, h]
  rw [← List.cons_append, textBetween_append_left]

theorem readToken_of_punctuation {c : UInt8} {type : TokenType} (h : punctuation c = some type)
    (s : Text) : readToken (c :: s) = (⟨type, [c]⟩, s) := by
  have hc : isBlank c = false := by
    unfold punctuation at h
    split_ifs at h with h₁ h₂ h₃ h₄ h₅ h₆ h₇ <;> subst c <;> rfl
  apply readToken_of_scanToken (t := []) hc
  rw [scanToken, h]
  rfl

theorem skipCommentTokens_of_punctuation {c : UInt8} {type : TokenType}
    (h : punctuation c = some type) (s : Text) : skipCommentTokens (c :: s) = (⟨type, [c]⟩, s) := by
  have htype : type ≠ tokenComment := by
    rintro rfl
    unfold punctuation at h
    split_ifs at h <;> cases h
  rw [skipCommentTokens_of_ne (by rwa [readToken_of_punctuation h]), readToken_of_punctuation h]

/-! ## What is left is shorter -/

theorem readToken_suffix (s : Text) : (readToken s).2 <:+ s :=
  ((scanToken_suffix _ _).trans (getNextChar_suffix _)).trans (List.dropWhile_suffix _)

/-- There is always a token, but at the end. -/
theorem readToken_lt {s : Text} (h : (readToken s).1.type ≠ tokenEndOfStream) :
    (readToken s).2.length < s.length := by
  have hblanks : (skipSpaces s).length ≤ s.length := (List.dropWhile_suffix _).length_le
  cases hstart : skipSpaces s with
  | nil =>
      have hend : (readToken s).1.type = tokenEndOfStream := by
        simp only [readToken, hstart]
        rfl
      exact absurd hend h
  | cons c t =>
      have hrest : (readToken s).2 <:+ t := by
        simp only [readToken, hstart]
        exact scanToken_suffix c t
      have hle := hrest.length_le
      rw [hstart, List.length_cons] at hblanks
      omega

end OurReader

end PublisherSubscriber
