import PublisherSubscriber.Shared.Nesting

/-!
# JSON documents

The grammar of JSON, with blanks wherever it allows them, and the value that
each document stands for.  Escapes of surrogates come in pairs, names are shorter
than 2^30 bytes, and a number has the value that the reader decodes.  The reader
takes every document that is not nested too deeply, and reads the value it stands
for.
-/

namespace PublisherSubscriber

namespace OurReader

open TokenType

def Blank (s : Text) : Prop := ∀ c ∈ s, isBlank c = true

/-- What ends a number inside a document: its end, a blank, a comma or a closing
bracket or brace. -/
def Delimited (s : Text) : Prop :=
  ∀ c, s.head? = some c → isBlank c = true ∨ c = 44 ∨ c = 93 ∨ c = 125

structure NumberText where
  negative : Bool
  digits : Text
  fraction : Text
  exponent : Text
  digits_ne_nil : digits ≠ []
  isDigit_of_mem_digits : ∀ c ∈ digits, isDigit c = true
  fraction_eq : fraction = [] ∨ ∃ ds, (∀ c ∈ ds, isDigit c = true) ∧ fraction = 46 :: ds
  exponent_eq : exponent = [] ∨ ∃ e sign ds, (e = 101 ∨ e = 69) ∧
    (sign = [] ∨ sign = [43] ∨ sign = [45]) ∧ (∀ c ∈ ds, isDigit c = true) ∧
      exponent = e :: (sign ++ ds)

namespace NumberText

def text (m : NumberText) : Text :=
  (if m.negative then [45] else []) ++ (m.digits ++ (m.fraction ++ m.exponent))

end NumberText

/-- The elements of an array and the bracket behind them, with the texts of the
elements in this relation to their values. -/
inductive Elements (R : Text → Json → Prop) : Text → List Json → Prop
  | last {b s b' : Text} {v : Json} (hb : Blank b) (h : R s v) (hb' : Blank b') :
      Elements R (b ++ (s ++ (b' ++ [93]))) [v]
  | cons {b s b' u : Text} {v : Json} {vs : List Json} (hb : Blank b) (h : R s v)
      (hb' : Blank b') (hvs : Elements R u vs) :
      Elements R (b ++ (s ++ (b' ++ 44 :: u))) (v :: vs)

theorem Elements.exists {R : Text → Json → Prop} {s : Text} {vs : List Json}
    (h : Elements R s vs) : ∃ u v, R u v := by
  cases h with
  | last _ hu => exact ⟨_, _, hu⟩
  | cons _ hu => exact ⟨_, _, hu⟩

/-- The members of an object in the order of the text, and the brace behind them. -/
inductive Members (R : Text → Json → Prop) : Text → List (Text × Json) → Prop
  | last {b n b' b'' s b₃ : Text} {name : Text} {v : Json} (hb : Blank b) (hn : StringText n name)
      (hname : name.length < 2 ^ 30) (hb' : Blank b') (hb'' : Blank b'') (h : R s v)
      (hb₃ : Blank b₃) :
      Members R (b ++ 34 :: (n ++ 34 :: (b' ++ 58 :: (b'' ++ (s ++ (b₃ ++ [125])))))) [(name, v)]
  | cons {b n b' b'' s b₃ u : Text} {name : Text} {v : Json} {ms : List (Text × Json)}
      (hb : Blank b) (hn : StringText n name) (hname : name.length < 2 ^ 30) (hb' : Blank b')
      (hb'' : Blank b'') (h : R s v) (hb₃ : Blank b₃) (hms : Members R u ms) :
      Members R (b ++ 34 :: (n ++ 34 :: (b' ++ 58 :: (b'' ++ (s ++ (b₃ ++ 44 :: u))))))
        ((name, v) :: ms)

theorem Members.exists {R : Text → Json → Prop} {s : Text} {ms : List (Text × Json)}
    (h : Members R s ms) : ∃ u v, R u v := by
  cases h with
  | last _ _ _ _ _ hu => exact ⟨_, _, hu⟩
  | cons _ _ _ _ _ hu => exact ⟨_, _, hu⟩

/-- A value whose elements and members are texts in this relation to their values. -/
inductive Value (decodeDouble : Text → Option Double) (R : Text → Json → Prop) :
    Text → Json → Prop
  | null : Value decodeDouble R (ascii "null") .null
  | bool (b : Bool) : Value decodeDouble R (ascii (if b then "true" else "false")) (.bool b)
  | number (m : NumberText) {v : Json}
      (hv : (decodeNumber m.text).or ((decodeDouble m.text).map Json.real) = some v) :
      Value decodeDouble R m.text v
  | string {s t : Text} (h : StringText s t) : Value decodeDouble R (34 :: (s ++ [34])) (.string t)
  | emptyArray {b : Text} (hb : Blank b) : Value decodeDouble R (91 :: (b ++ [93])) (.array [])
  | array {s : Text} {vs : List Json} (h : Elements R s vs) :
      Value decodeDouble R (91 :: s) (.array vs)
  | emptyObject {b : Text} (hb : Blank b) : Value decodeDouble R (123 :: (b ++ [125])) (.object [])
  | object {s : Text} {ms : List (Text × Json)} (h : Members R s ms) :
      Value decodeDouble R (123 :: s)
        (.object (ms.foldl (fun members m ↦ Json.assign m.1 m.2 members) []))

/-- A text that stands for a value and is nested at most so deeply. -/
def Denotes (decodeDouble : Text → Option Double) : ℕ → Text → Json → Prop
  | 0 => Value decodeDouble fun _ _ ↦ False
  | depth + 1 => Value decodeDouble (Denotes decodeDouble depth)

/-- A value with blanks around it. -/
def Document (decodeDouble : Text → Option Double) (depth : ℕ) (text : Text) (v : Json) : Prop :=
  ∃ b s b', Blank b ∧ Denotes decodeDouble depth s v ∧ Blank b' ∧ text = b ++ (s ++ b')

/-! ## Scalars -/

theorem delimited_append {b s : Text} (hb : Blank b) (hs : Delimited s) : Delimited (b ++ s) := by
  cases b with
  | nil => exact hs
  | cons c b =>
      intro d hd
      obtain rfl := Option.some.inj hd
      exact Or.inl (hb c (by simp))

theorem delimited_cons {c : UInt8} (hc : c = 44 ∨ c = 93 ∨ c = 125) (s : Text) :
    Delimited (c :: s) := by
  intro d hd
  obtain rfl := Option.some.inj hd
  exact Or.inr hc

theorem delimited_of_blank {b : Text} (hb : Blank b) : Delimited b := by
  rw [← List.append_nil b]
  exact delimited_append hb (by rintro c ⟨⟩)

/-- A number does not go on there. -/
theorem Delimited.ne {s : Text} (h : Delimited s) {c : UInt8} (hc : s.head? = some c) :
    isDigit c = false ∧ c ≠ 46 ∧ c ≠ 101 ∧ c ≠ 69 ∧ c ≠ 43 ∧ c ≠ 45 := by
  have hset : c ∈ [32, 9, 13, 10, 44, 93, 125] := by
    have hc := h c hc
    simp only [isBlank, Bool.or_eq_true, decide_eq_true_eq] at hc
    simp only [List.mem_cons, List.not_mem_nil, or_false]
    tauto
  have hall : ∀ d ∈ ([32, 9, 13, 10, 44, 93, 125] : Text), isDigit d = false ∧ d ≠ 46 ∧
      d ≠ 101 ∧ d ≠ 69 ∧ d ≠ 43 ∧ d ≠ 45 := by decide +kernel
  exact hall c hset

theorem dropWhile_digits {ds s : Text} (hds : ∀ c ∈ ds, isDigit c = true)
    (hs : ∀ c, s.head? = some c → isDigit c = false) : (ds ++ s).dropWhile isDigit = s := by
  rw [List.dropWhile_append_of_pos hds]
  cases s with
  | nil => rfl
  | cons c s =>
      have hc := hs c rfl
      exact List.dropWhile_cons_of_neg (by simp [hc])

theorem readExponent_append (m : NumberText) {rest : Text} (hrest : Delimited rest) :
    readExponent (m.exponent ++ rest) = rest := by
  have hdigit : ∀ c, rest.head? = some c → isDigit c = false := fun c hc ↦ (hrest.ne hc).1
  rcases m.exponent_eq with hnone | ⟨e, sign, ds, he, hsign, hds, hexponent⟩
  · rw [hnone, List.nil_append, readExponent, if_neg]
    rintro (h | h)
    · exact (hrest.ne h).2.2.1 rfl
    · exact (hrest.ne h).2.2.2.1 rfl
  · have hhead : (m.exponent ++ rest).head? = some 101 ∨ (m.exponent ++ rest).head? = some 69 := by
      rw [hexponent]
      exact he.imp (congrArg some) (congrArg some)
    have hrun := dropWhile_digits hds hdigit
    rw [readExponent, if_pos hhead, hexponent, List.cons_append, List.tail_cons]
    rcases hsign with rfl | rfl | rfl
    · rw [List.nil_append]
      dsimp only
      rw [if_neg, hrun]
      have hfirst : ∀ c, (ds ++ rest).head? = some c → c ≠ 43 ∧ c ≠ 45 := by
        intro c hc
        cases ds with
        | nil => exact (hrest.ne hc).2.2.2.2
        | cons d ds =>
            obtain rfl := Option.some.inj hc
            have hd := hds d (by simp)
            constructor <;> rintro rfl <;> exact absurd hd (by decide)
      rintro (h | h)
      · exact (hfirst _ h).1 rfl
      · exact (hfirst _ h).2 rfl
    · exact hrun
    · exact hrun

theorem readFraction_append (m : NumberText) {rest : Text} (hrest : Delimited rest) :
    readFraction (m.fraction ++ (m.exponent ++ rest)) = m.exponent ++ rest := by
  have hfirst : ∀ c, (m.exponent ++ rest).head? = some c → isDigit c = false ∧ c ≠ 46 := by
    intro c hc
    rcases m.exponent_eq with hnone | ⟨e, sign, ds, he, -, -, hexponent⟩
    · rw [hnone] at hc
      exact ⟨(hrest.ne hc).1, (hrest.ne hc).2.1⟩
    · rw [hexponent] at hc
      obtain rfl := Option.some.inj hc
      rcases he with rfl | rfl <;> decide
  rcases m.fraction_eq with hnone | ⟨ds, hds, hfraction⟩
  · rw [hnone, List.nil_append, readFraction, if_neg]
    exact fun h ↦ (hfirst _ h).2 rfl
  · rw [hfraction, readFraction]
    exact dropWhile_digits hds fun c hc ↦ (hfirst c hc).1

/-- The digits, the fraction and the exponent are read as they are written. -/
theorem readNumber_append (m : NumberText) {rest ds : Text} (hrest : Delimited rest)
    (hds : ∀ c ∈ ds, isDigit c = true) {checkInf : Bool} (hinf : checkInf = false ∨ ds ≠ []) :
    readNumber checkInf (ds ++ (m.fraction ++ (m.exponent ++ rest))) = (true, rest) := by
  have hfirst : ∀ c, (m.fraction ++ (m.exponent ++ rest)).head? = some c → isDigit c = false := by
    intro c hc
    rcases m.fraction_eq with hnone | ⟨_, -, hfraction⟩
    · rw [hnone] at hc
      rcases m.exponent_eq with hexponent | ⟨e, sign, _, he, -, -, hexponent⟩
      · rw [hexponent] at hc
        exact (hrest.ne hc).1
      · rw [hexponent] at hc
        obtain rfl := Option.some.inj hc
        rcases he with rfl | rfl <;> decide
    · rw [hfraction] at hc
      obtain rfl := Option.some.inj hc
      decide
  rw [readNumber, if_neg, dropWhile_digits hds hfirst, readFraction_append m hrest,
    readExponent_append m hrest]
  rintro ⟨htrue, hhead⟩
  rcases hinf with hfalse | hne
  · rw [hfalse] at htrue
    cases htrue
  · obtain ⟨d, ds, rfl⟩ := List.exists_cons_of_ne_nil hne
    obtain rfl := Option.some.inj hhead
    exact absurd (hds 73 (by simp)) (by decide)

theorem ne_of_isDigit {c : UInt8} (hc : isDigit c = true) (d : UInt8) (hd : isDigit d = false) :
    c ≠ d := by
  rintro rfl
  rw [hc] at hd
  cases hd

theorem scanToken_digit {c : UInt8} (hc : isDigit c = true) (s : Text) :
    scanToken c s = typed tokenNumber (readNumber false s) := by
  have hpunctuation : punctuation c = none := by
    have hne := ne_of_isDigit hc
    simp only [punctuation, hne 123 rfl, hne 125 rfl, hne 91 rfl, hne 93 rfl, hne 44 rfl,
      hne 58 rfl, hne 0 rfl, if_false]
  rw [scanToken, hpunctuation]
  dsimp only
  rw [if_neg (ne_of_isDigit hc 34 rfl), if_neg (ne_of_isDigit hc 47 rfl), if_pos hc]

theorem readToken_number (m : NumberText) {rest : Text} (hrest : Delimited rest) :
    readToken (m.text ++ rest) = (⟨tokenNumber, m.text⟩, rest) := by
  obtain ⟨d, ds, hdigits⟩ := List.exists_cons_of_ne_nil m.digits_ne_nil
  have hd : isDigit d = true := m.isDigit_of_mem_digits d (by rw [hdigits]; simp)
  have hds : ∀ c ∈ ds, isDigit c = true := fun c hc ↦
    m.isDigit_of_mem_digits c (by rw [hdigits]; exact List.mem_cons_of_mem d hc)
  rw [NumberText.text]
  cases m.negative with
  | true =>
      have hread : readNumber true (m.digits ++ (m.fraction ++ (m.exponent ++ rest))) =
          (true, rest) :=
        readNumber_append m hrest m.isDigit_of_mem_digits (Or.inr m.digits_ne_nil)
      have hscan : scanToken 45 ((m.digits ++ (m.fraction ++ m.exponent)) ++ rest) =
          (tokenNumber, rest) := by
        simp only [List.append_assoc]
        exact congrArg (typed tokenNumber) hread
      exact readToken_of_scanToken rfl hscan
  | false =>
      have hread : readNumber false (ds ++ (m.fraction ++ (m.exponent ++ rest))) = (true, rest) :=
        readNumber_append m hrest hds (Or.inl rfl)
      have hscan : scanToken d ((ds ++ (m.fraction ++ m.exponent)) ++ rest) =
          (tokenNumber, rest) := by
        simp only [List.append_assoc]
        rw [scanToken_digit hd, hread]
        rfl
      have hblank : isBlank d = false := by
        have hne := ne_of_isDigit hd
        simp only [isBlank, hne 32 rfl, hne 9 rfl, hne 13 rfl, hne 10 rfl, decide_false,
          Bool.or_self]
      have htoken := readToken_of_scanToken hblank hscan
      simpa only [hdigits, Bool.false_eq_true, if_false, List.nil_append, List.cons_append]
        using htoken

/-! ## Literals and words -/

theorem readString_plain {c : UInt8} (hquote : c ≠ 34) (hescape : c ≠ 92) (s : Text) (d : UInt8) :
    readString (c :: d :: s) = readString (d :: s) := by
  rw [readString, if_neg hescape, if_neg hquote]

theorem readString_escape (c : UInt8) (s : Text) : readString (92 :: c :: s) = readString s := by
  rw [readString, if_pos rfl]

theorem readString_quote (s : Text) : readString (34 :: s) = (true, s) := by
  cases s <;> rfl

theorem readString_hexDigits {digits : Text} {x : ℕ} (h : HexDigits digits x) (s : Text)
    (d : UInt8) : readString (digits ++ d :: s) = readString (d :: s) := by
  obtain ⟨a, b, c, e, v, w, y, z, rfl, ha, hb, hc, he, -⟩ := h
  simp only [List.cons_append, List.nil_append]
  rw [readString_plain (hexValue_eq_some ha).1 (hexValue_eq_some ha).2,
    readString_plain (hexValue_eq_some hb).1 (hexValue_eq_some hb).2,
    readString_plain (hexValue_eq_some hc).1 (hexValue_eq_some hc).2,
    readString_plain (hexValue_eq_some he).1 (hexValue_eq_some he).2]

/-- The literal ends at the quote that is not part of it. -/
theorem StringText.readString {s t : Text} (h : StringText s t) (rest : Text) :
    OurReader.readString (s ++ 34 :: rest) = (true, rest) := by
  have hcons : ∀ u : Text, ∃ d v, u ++ 34 :: rest = d :: v := fun u ↦
    List.exists_cons_of_ne_nil (by simp)
  induction h with
  | nil => exact readString_quote rest
  | @plain c s t hquote hescape _ ih =>
      obtain ⟨d, v, hd⟩ := hcons s
      rw [List.cons_append, hd, readString_plain hquote hescape, ← hd, ih]
  | simple _ _ ih => exact (readString_escape _ _).trans ih
  | @character c digits s t hc _ ih =>
      obtain ⟨d, v, hd⟩ := hcons s
      simp only [List.cons_append, List.append_assoc]
      rw [readString_escape, hd, readString_hexDigits hc, ← hd, ih]
  | @pair c high low s t hc hhigh hlow _ ih =>
      obtain ⟨d, v, hd⟩ := hcons s
      simp only [List.cons_append, List.append_assoc]
      rw [readString_escape, readString_hexDigits hhigh, readString_escape, hd,
        readString_hexDigits hlow, ← hd, ih]

theorem readToken_string {s t : Text} (h : StringText s t) (rest : Text) :
    readToken (34 :: (s ++ 34 :: rest)) = (⟨tokenString, 34 :: (s ++ [34])⟩, rest) := by
  have hscan : scanToken 34 ((s ++ [34]) ++ rest) = (tokenString, rest) := by
    rw [List.append_assoc]
    exact congrArg (typed tokenString) (h.readString rest)
  have htoken := readToken_of_scanToken rfl hscan
  rwa [List.append_assoc] at htoken

theorem readToken_word {c : UInt8} {pattern : Text} {type : TokenType}
    (hword : (c, pattern, type) ∈ words) (rest : Text) :
    readToken (c :: pattern ++ rest) = (⟨type, c :: pattern⟩, rest) := by
  have hmatch : matchPattern pattern (pattern ++ rest) = (true, rest) := by
    rw [matchPattern, if_pos (List.prefix_append _ _), List.drop_left]
  have hscan : scanToken c (pattern ++ rest) = typed type (matchPattern pattern (pattern ++ rest)) ∧
      isBlank c = false := by
    simp only [words, List.mem_cons, List.not_mem_nil, or_false, Prod.mk.injEq] at hword
    rcases hword with ⟨rfl, rfl, rfl⟩ | ⟨rfl, rfl, rfl⟩ | ⟨rfl, rfl, rfl⟩ <;> exact ⟨rfl, rfl⟩
  rw [hmatch] at hscan
  exact readToken_of_scanToken hscan.2 hscan.1

/-! ## Values -/

/-- What a value begins with is neither a blank, nor a bracket that closes, nor
part of a byte order mark. -/
def StartsValue (s : Text) : Prop :=
  ∃ c t, s = c :: t ∧ isBlank c = false ∧ c ≠ 93 ∧ c ≠ 0xEF

/-- The reader reads these texts as their values, with a stack of this size. -/
structure ReadsAll (decodeDouble : Text → Option Double) (nodes : ℕ) (R : Text → Json → Prop) :
    Prop where
  starts : ∀ s v, R s v → StartsValue s
  reads : ∀ s v, R s v → ∀ fuel rest, 2 * s.length + 1 ≤ fuel → Delimited rest →
    readValue decodeDouble fuel nodes (s ++ rest) = .ok (some (v, rest))

/-- Each comment has at least one byte. -/
theorem skipComments_fuel {n m : ℕ} {s : Text} (hn : s.length ≤ n) (hm : s.length ≤ m) :
    skipComments n s = skipComments m s := by
  have hnil : ∀ k, skipComments k [] = readToken [] := fun k ↦ by cases k <;> rfl
  induction n generalizing m s with
  | zero =>
      obtain rfl := List.eq_nil_of_length_eq_zero (Nat.le_zero.mp hn)
      rw [hnil, hnil]
  | succ n ih =>
      cases m with
      | zero =>
          obtain rfl := List.eq_nil_of_length_eq_zero (Nat.le_zero.mp hm)
          rw [hnil, hnil]
      | succ m =>
          rw [skipComments, skipComments]
          split_ifs with hcomment
          · have hlt := readToken_lt (s := s) (by rw [hcomment]; decide)
            exact ih (by omega) (by omega)
          · rfl

theorem skipCommentTokens_blank {b : Text} (hb : Blank b) (s : Text) :
    skipCommentTokens (b ++ s) = skipCommentTokens s := by
  have hstart : ∀ n, skipComments n (b ++ s) = skipComments n s := fun n ↦ by
    cases n <;> simp only [skipComments, readToken_append hb]
  have hle : s.length ≤ (b ++ s).length := (List.suffix_append b s).length_le
  rw [skipCommentTokens, hstart, skipComments_fuel hle (le_refl _), skipCommentTokens]

theorem skipCommentTokens_append {b s : Text} (hb : Blank b) {token : Token} {t : Text}
    (h : readToken s = (token, t)) (hne : token.type ≠ tokenComment) :
    skipCommentTokens (b ++ s) = (token, t) := by
  rw [skipCommentTokens_blank hb, skipCommentTokens_of_ne (by rwa [h]), h]

section

variable {decodeDouble : Text → Option Double} {nodes : ℕ} {R : Text → Json → Prop}

theorem readValue_blank {b : Text} (hb : Blank b) (fuel : ℕ) (s : Text) :
    readValue decodeDouble fuel nodes (b ++ s) = readValue decodeDouble fuel nodes s := by
  cases fuel with
  | zero => rfl
  | succ fuel => rw [readValue, readValue, skipCommentTokens_blank hb]

theorem punctuation_bracket : punctuation 93 = some tokenArrayEnd := rfl

theorem punctuation_comma : punctuation 44 = some tokenArraySeparator := rfl

theorem punctuation_brace : punctuation 125 = some tokenObjectEnd := rfl

theorem punctuation_colon : punctuation 58 = some tokenMemberSeparator := rfl

theorem readElementEnd_bracket {b : Text} (hb : Blank b) (rest : Text) :
    readElementEnd (b ++ 93 :: rest) = some (false, rest) := by
  have htoken := skipCommentTokens_append hb (readToken_of_punctuation punctuation_bracket rest)
    (by decide)
  rw [readElementEnd, htoken]
  rfl

theorem readElementEnd_comma {b : Text} (hb : Blank b) (rest : Text) :
    readElementEnd (b ++ 44 :: rest) = some (true, rest) := by
  have htoken := skipCommentTokens_append hb (readToken_of_punctuation punctuation_comma rest)
    (by decide)
  rw [readElementEnd, htoken]
  rfl

theorem readMemberEnd_brace {b : Text} (hb : Blank b) (rest : Text) :
    readMemberEnd (b ++ 125 :: rest) = some (false, rest) := by
  have htoken := readToken_of_punctuation punctuation_brace rest
  rw [readMemberEnd, readToken_append hb, htoken]
  rfl

theorem readMemberEnd_comma {b : Text} (hb : Blank b) (rest : Text) :
    readMemberEnd (b ++ 44 :: rest) = some (true, rest) := by
  have htoken := readToken_of_punctuation punctuation_comma rest
  rw [readMemberEnd, readToken_append hb, htoken]
  rfl

theorem readMemberName_brace {b : Text} (hb : Blank b) (rest : Text) :
    readMemberName (b ++ 125 :: rest) = .ok (some (none, rest)) := by
  have htoken := skipCommentTokens_append hb (readToken_of_punctuation punctuation_brace rest)
    (by decide)
  rw [readMemberName, htoken]
  rfl

theorem readMemberName_string {b b' n name : Text} (hb : Blank b) (hn : StringText n name)
    (hname : name.length < 2 ^ 30) (hb' : Blank b') (rest : Text) :
    readMemberName (b ++ 34 :: (n ++ 34 :: (b' ++ 58 :: rest))) = .ok (some (some name, rest)) := by
  have htoken := skipCommentTokens_append hb (readToken_string hn (b' ++ 58 :: rest)) (by simp)
  have hcolon := readToken_of_punctuation punctuation_colon rest
  rw [readMemberName, htoken]
  dsimp only
  rw [if_neg (by decide), if_pos rfl, hn.decodeString]
  dsimp only
  rw [if_neg (Nat.not_le.mpr hname), readToken_append hb', hcolon]
  rfl

/-- The elements are appended one after the other. -/
theorem ReadsAll.readArray (h : ReadsAll decodeDouble (nodes + 1) R) {s : Text} {vs : List Json}
    (hs : Elements R s vs) : ∀ fuel elements rest, 2 * s.length + 2 ≤ fuel →
      OurReader.readArray decodeDouble fuel nodes elements (s ++ rest) =
        .ok (some (elements ++ vs, rest)) := by
  have hfront : ∀ {b u t : Text} {v : Json}, Blank b → R u v →
      skipSpaces (b ++ (u ++ t)) = u ++ t ∧ (u ++ t).head? ≠ some 93 := by
    intro b u t v hb hu
    obtain ⟨c, w, rfl, hblank, hbracket, -⟩ := h.starts u v hu
    rw [skipSpaces_append hb]
    exact ⟨skipSpaces_of_not_isBlank hblank _, fun hc ↦ hbracket (Option.some.inj hc)⟩
  induction hs with
  | @last b u b' v hb hu hb' =>
      intro fuel elements rest hfuel
      obtain ⟨fuel, rfl⟩ : ∃ m, fuel = m + 1 := ⟨fuel - 1, by omega⟩
      obtain ⟨hskip, hhead⟩ := hfront (t := b' ++ 93 :: rest) hb hu
      have hlength : 2 * u.length + 1 ≤ fuel := by
        simp only [List.length_append] at hfuel
        omega
      have hread := h.reads u v hu fuel (b' ++ 93 :: rest) hlength
        (delimited_append hb' (delimited_cons (by decide) rest))
      simp only [List.append_assoc, List.cons_append, List.nil_append]
      rw [OurReader.readArray, hskip, if_neg hhead, hread]
      dsimp only [andThen]
      rw [readElementEnd_bracket hb']
  | @cons b u b' w v vs hb hu hb' hvs ih =>
      intro fuel elements rest hfuel
      obtain ⟨fuel, rfl⟩ : ∃ m, fuel = m + 1 := ⟨fuel - 1, by omega⟩
      obtain ⟨hskip, hhead⟩ := hfront (t := b' ++ 44 :: (w ++ rest)) hb hu
      have hlength : 2 * u.length + 1 ≤ fuel ∧ 2 * w.length + 2 ≤ fuel := by
        simp only [List.length_append, List.length_cons] at hfuel
        omega
      have hread := h.reads u v hu fuel (b' ++ 44 :: (w ++ rest)) hlength.1
        (delimited_append hb' (delimited_cons (by decide) _))
      simp only [List.append_assoc, List.cons_append]
      rw [OurReader.readArray, hskip, if_neg hhead, hread]
      dsimp only [andThen]
      rw [readElementEnd_comma hb']
      dsimp only
      rw [ih fuel (elements ++ [v]) rest hlength.2, List.append_assoc, List.singleton_append]

/-- The members are assigned one after the other. -/
theorem ReadsAll.readObject (h : ReadsAll decodeDouble (nodes + 1) R) {s : Text}
    {ms : List (Text × Json)} (hs : Members R s ms) :
    ∀ fuel members rest, 2 * s.length + 2 ≤ fuel →
      OurReader.readObject decodeDouble fuel nodes members (s ++ rest) =
        .ok (some (ms.foldl (fun members m ↦ Json.assign m.1 m.2 members) members, rest)) := by
  induction hs with
  | @last b n b' b'' u b₃ name v hb hn hname hb' hb'' hu hb₃ =>
      intro fuel members rest hfuel
      obtain ⟨fuel, rfl⟩ : ∃ m, fuel = m + 1 := ⟨fuel - 1, by omega⟩
      have hlength : 2 * u.length + 1 ≤ fuel := by
        simp only [List.length_append, List.length_cons] at hfuel
        omega
      have hread := h.reads u v hu fuel (b₃ ++ 125 :: rest) hlength
        (delimited_append hb₃ (delimited_cons (by decide) rest))
      simp only [List.append_assoc, List.cons_append, List.nil_append]
      rw [OurReader.readObject, readMemberName_string hb hn hname hb']
      dsimp only [andThen]
      rw [readValue_blank hb'', hread]
      dsimp only
      rw [readMemberEnd_brace hb₃]
      rfl
  | @cons b n b' b'' u b₃ w name v ms hb hn hname hb' hb'' hu hb₃ hms ih =>
      intro fuel members rest hfuel
      obtain ⟨fuel, rfl⟩ : ∃ m, fuel = m + 1 := ⟨fuel - 1, by omega⟩
      have hlength : 2 * u.length + 1 ≤ fuel ∧ 2 * w.length + 2 ≤ fuel := by
        simp only [List.length_append, List.length_cons] at hfuel
        omega
      have hread := h.reads u v hu fuel (b₃ ++ 44 :: (w ++ rest)) hlength.1
        (delimited_append hb₃ (delimited_cons (by decide) _))
      simp only [List.append_assoc, List.cons_append]
      rw [OurReader.readObject, readMemberName_string hb hn hname hb']
      dsimp only [andThen]
      rw [readValue_blank hb'', hread]
      dsimp only
      rw [readMemberEnd_comma hb₃]
      dsimp only
      rw [ih fuel _ rest hlength.2, List.foldl_cons]

theorem starts_of_value {s : Text} {v : Json} (h : Value decodeDouble R s v) : StartsValue s := by
  cases h with
  | null => exact ⟨110, _, rfl, rfl, by decide, by decide⟩
  | bool b => cases b <;> exact ⟨_, _, rfl, rfl, by decide, by decide⟩
  | number m =>
      obtain ⟨d, ds, hdigits⟩ := List.exists_cons_of_ne_nil m.digits_ne_nil
      have hne := ne_of_isDigit (m.isDigit_of_mem_digits d (by rw [hdigits]; simp))
      rw [NumberText.text]
      cases m.negative with
      | true => exact ⟨45, _, rfl, rfl, by decide, by decide⟩
      | false =>
          rw [hdigits]
          refine ⟨d, _, rfl, ?_, hne 93 rfl, hne 0xEF rfl⟩
          simp only [isBlank, hne 32 rfl, hne 9 rfl, hne 13 rfl, hne 10 rfl, decide_false,
            Bool.or_self]
  | _ => exact ⟨_, _, rfl, rfl, by decide, by decide⟩

theorem reads_of_scalar {fuel : ℕ} {s t : Text} {token : Token} {v : Json}
    (hnodes : nodes ≤ stackLimit) (hfuel : 0 < fuel) (htoken : readToken s = (token, t))
    (hv : decodeScalar decodeDouble token = some v) :
    readValue decodeDouble fuel nodes s = .ok (some (v, t)) := by
  obtain ⟨fuel, rfl⟩ : ∃ m, fuel = m + 1 := ⟨fuel - 1, by omega⟩
  have hcomment : token.type ≠ tokenComment := by
    intro h
    rw [decodeScalar, h] at hv
    cases hv
  have hskip : skipCommentTokens s = (token, t) :=
    skipCommentTokens_append (b := []) (by rintro c ⟨⟩) htoken hcomment
  exact readValue_scalar hnodes hskip hv

/-- One level of nesting: if the values inside are read, so is the one around them. -/
theorem reads_of_value (hnodes : nodes ≤ stackLimit)
    (h : (∃ s v, R s v) → ReadsAll decodeDouble (nodes + 1) R) :
    ReadsAll decodeDouble nodes (Value decodeDouble R) := by
  refine ⟨fun s v ↦ starts_of_value, fun s v hv fuel rest hfuel hrest ↦ ?_⟩
  have hpositive : 0 < fuel := by omega
  cases hv with
  | null =>
      exact reads_of_scalar hnodes hpositive
        (readToken_word
          (show (110, ascii "ull", tokenNull) ∈ words by decide +kernel) rest) rfl
  | bool b =>
      cases b with
      | true =>
          exact reads_of_scalar hnodes hpositive
            (readToken_word
          (show (116, ascii "rue", tokenTrue) ∈ words by decide +kernel) rest) rfl
      | false =>
          exact reads_of_scalar hnodes hpositive
            (readToken_word
          (show (102, ascii "alse", tokenFalse) ∈ words by decide +kernel) rest) rfl
  | number m hv => exact reads_of_scalar hnodes hpositive (readToken_number m hrest) hv
  | @string s t hs =>
      rw [List.cons_append, List.append_assoc]
      refine reads_of_scalar hnodes hpositive (readToken_string hs rest) ?_
      rw [decodeScalar, hs.decodeString]
      rfl
  | @emptyArray b hb =>
      obtain ⟨fuel, rfl⟩ : ∃ m, fuel = m + 2 := ⟨fuel - 2, by
        simp only [List.length_cons, List.length_append] at hfuel
        omega⟩
      have hend : readArray decodeDouble (fuel + 1) nodes [] (b ++ 93 :: rest) =
          .ok (some ([], rest)) := by
        have hskip : skipSpaces (b ++ 93 :: rest) = 93 :: rest := by
          rw [skipSpaces_append hb]
          exact skipSpaces_of_not_isBlank rfl rest
        rw [readArray, hskip, if_pos List.head?_cons,
          readToken_of_punctuation punctuation_bracket]
      rw [List.cons_append, List.append_assoc,
        readValue_array hnodes (skipCommentTokens_of_punctuation rfl _)]
      exact congrArg (andThen · _) hend
  | @array s vs hs =>
      obtain ⟨fuel, rfl⟩ : ∃ m, fuel = m + 1 := ⟨fuel - 1, by omega⟩
      rw [List.length_cons] at hfuel
      have hread := (h hs.exists).readArray hs fuel [] rest (by omega)
      rw [List.cons_append, readValue_array hnodes (skipCommentTokens_of_punctuation rfl _)]
      exact congrArg (andThen · _) hread
  | @emptyObject b hb =>
      obtain ⟨fuel, rfl⟩ : ∃ m, fuel = m + 2 := ⟨fuel - 2, by
        simp only [List.length_cons, List.length_append] at hfuel
        omega⟩
      have hend : readObject decodeDouble (fuel + 1) nodes [] (b ++ 125 :: rest) =
          .ok (some ([], rest)) := by
        rw [readObject, readMemberName_brace hb]
        rfl
      rw [List.cons_append, List.append_assoc,
        readValue_object hnodes (skipCommentTokens_of_punctuation rfl _)]
      exact congrArg (andThen · _) hend
  | @object s ms hs =>
      obtain ⟨fuel, rfl⟩ : ∃ m, fuel = m + 1 := ⟨fuel - 1, by omega⟩
      rw [List.length_cons] at hfuel
      have hread := (h hs.exists).readObject hs fuel [] rest (by omega)
      rw [List.cons_append, readValue_object hnodes (skipCommentTokens_of_punctuation rfl _)]
      exact congrArg (andThen · _) hread

/-- By induction on the depth. -/
theorem readsAll_denotes {depth : ℕ} (hdepth : nodes + depth ≤ stackLimit) :
    ReadsAll decodeDouble nodes (Denotes decodeDouble depth) := by
  induction depth generalizing nodes with
  | zero => exact reads_of_value hdepth fun ⟨_, _, hfalse⟩ ↦ hfalse.elim
  | succ depth ih => exact reads_of_value (by omega) fun _ ↦ ih (by omega)

theorem skipBom_of_starts {b s : Text} (hb : Blank b) (hs : StartsValue s) (rest : Text) :
    skipBom (b ++ (s ++ rest)) = b ++ (s ++ rest) := by
  have hfirst : ∀ c, (b ++ (s ++ rest)).head? = some c → c ≠ 0xEF := by
    intro c hc
    cases b with
    | nil =>
        obtain ⟨d, t, rfl, -, -, hbom⟩ := hs
        obtain rfl := Option.some.inj hc
        exact hbom
    | cons d b =>
        obtain rfl := Option.some.inj hc
        rintro rfl
        exact absurd (hb 0xEF (by simp)) (by decide)
  rw [skipBom, if_neg]
  rintro ⟨t, ht⟩
  exact hfirst 0xEF (by rw [← ht]; rfl) rfl

/-- Every document that is not nested too deeply is read as the value it stands for. -/
theorem parse_of_document {depth : ℕ} {text : Text} {v : Json} (hdepth : depth < stackLimit)
    (h : Document decodeDouble depth text v) : parse decodeDouble text = .ok (some v) := by
  obtain ⟨b, s, b', hb, hs, hb', rfl⟩ := h
  have hread : ReadsAll decodeDouble 1 (Denotes decodeDouble depth) := readsAll_denotes (by omega)
  have hlength : s.length ≤ (b ++ (s ++ b')).length := by
    simp only [List.length_append]
    omega
  rw [parse, skipBom_of_starts hb (hread.starts s v hs), readValue_blank hb,
    hread.reads s v hs _ b' (by omega) (delimited_of_blank hb')]
  rfl

end

end OurReader

end PublisherSubscriber
