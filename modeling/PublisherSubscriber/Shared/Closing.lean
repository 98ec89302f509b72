import PublisherSubscriber.Shared.Parser
import PublisherSubscriber.Shared.Truncation
import PublisherSubscriber.Shared.Written

/-!
# The reader accepts no object that is cut off

What is consumed for a value has its braces closed outside string literals, as
far as there is no comment in it.
-/

namespace PublisherSubscriber

namespace OurReader

open Braces TokenType

/-- What is in front of the rest leaves the scanner as it is, or has a comment in it. -/
def Consumes (s t : Text) : Prop := ∃ cs, s = cs ++ t ∧ Neutral jsonDelimiters cs

/-- The same behind a brace that was opened and is closed again. -/
def ConsumesBrace (s t : Text) : Prop := ∃ cs, s = cs ++ t ∧ Neutral jsonDelimiters (123 :: cs)

theorem Consumes.trans {s t u : Text} (hst : Consumes s t) (htu : Consumes t u) :
    Consumes s u := by
  obtain ⟨cs, rfl, hcs⟩ := hst
  obtain ⟨ds, rfl, hds⟩ := htu
  exact ⟨cs ++ ds, by rw [List.append_assoc], hcs.append hds⟩

theorem Consumes.trans_brace {s t u : Text} (hst : Consumes s t) (htu : ConsumesBrace t u) :
    ConsumesBrace s u := by
  obtain ⟨cs, rfl, hcs⟩ := hst
  obtain ⟨ds, rfl, hds⟩ := htu
  exact ⟨cs ++ ds, by rw [List.append_assoc], hcs.opening_append hds⟩

theorem ConsumesBrace.braces {s t : Text} (h : ConsumesBrace s t) : Consumes (123 :: s) t := by
  obtain ⟨cs, rfl, hcs⟩ := h
  exact ⟨123 :: cs, rfl, hcs⟩

theorem consumesBrace_closing (t : Text) : ConsumesBrace (125 :: t) t :=
  ⟨[125], rfl, (balanced_nil (D := jsonDelimiters)).braces.neutral⟩

theorem consumes_of_forall {cs : Text}
    (h : ∀ c ∈ cs, c ≠ 34 ∧ c ≠ 123 ∧ c ≠ 125 ∧ c ≠ 47) (t : Text) : Consumes (cs ++ t) t :=
  ⟨cs, rfl, (balanced_of_forall (D := jsonDelimiters) h).neutral⟩

theorem consumes_skipSpaces (s : Text) : Consumes s (skipSpaces s) := by
  refine ⟨s.takeWhile isBlank, List.takeWhile_append_dropWhile.symm, Balanced.neutral ?_⟩
  apply balanced_of_forall
  intro c hc
  have hblank := List.mem_takeWhile_imp hc
  refine ⟨?_, ?_, ?_, ?_⟩ <;> rintro rfl <;> exact absurd hblank (by decide)

/-! ## Tokens -/

/-- The rest of a literal, up to its closing quote. -/
theorem scan_readString {s t : Text} (h : readString s = (true, t)) :
    ∃ cs, s = cs ++ t ∧
      ∀ depth, scan jsonDelimiters ⟨depth, .inside⟩ cs = some ⟨depth, .outside⟩ := by
  fun_induction readString s with
  | case1 => cases h
  | case2 c =>
      obtain ⟨hquote, rfl⟩ := Prod.mk.inj h
      obtain rfl := of_decide_eq_true hquote
      exact ⟨[34], rfl, fun depth ↦ rfl⟩
  | case3 d s ih =>
      obtain ⟨cs, rfl, hcs⟩ := ih h
      refine ⟨92 :: d :: cs, rfl, fun depth ↦ ?_⟩
      have hescaped : scan jsonDelimiters ⟨depth, .inside⟩ (92 :: d :: cs) =
          scan jsonDelimiters ⟨depth, .inside⟩ cs := rfl
      rw [hescaped, hcs]
  | case4 d s =>
      cases h
      exact ⟨[34], rfl, fun depth ↦ rfl⟩
  | case5 c d s hescape hquote ih =>
      obtain ⟨cs, hcs, hscan⟩ := ih h
      refine ⟨c :: cs, by rw [hcs, List.cons_append], fun depth ↦ ?_⟩
      have hstep : step jsonDelimiters ⟨depth, .inside⟩ c = some ⟨depth, .inside⟩ := by
        have hne : c ≠ jsonDelimiters.escape ∧ c ≠ jsonDelimiters.quote := ⟨hescape, hquote⟩
        rw [step, if_neg hne.1, if_neg hne.2]
      rw [scan_cons_of_step hstep, hscan]

theorem consumes_dropWhile {p : UInt8 → Bool} (s : Text)
    (hp : ∀ c, p c = true → c ≠ 34 ∧ c ≠ 123 ∧ c ≠ 125 ∧ c ≠ 47) :
    Consumes s (s.dropWhile p) := by
  have hconsumes : Consumes (s.takeWhile p ++ s.dropWhile p) (s.dropWhile p) :=
    consumes_of_forall (fun c hc ↦ hp c (List.mem_takeWhile_imp hc)) (s.dropWhile p)
  rwa [List.takeWhile_append_dropWhile] at hconsumes

theorem plain_of_isDigit {c : UInt8} (hc : isDigit c = true) :
    c ≠ 34 ∧ c ≠ 123 ∧ c ≠ 125 ∧ c ≠ 47 := by
  refine ⟨?_, ?_, ?_, ?_⟩ <;> rintro rfl <;> exact absurd hc (by decide)

theorem consumes_of_head {s : Text} {c : UInt8} (h : s.head? = some c)
    (hc : c ≠ 34 ∧ c ≠ 123 ∧ c ≠ 125 ∧ c ≠ 47) : Consumes s s.tail := by
  obtain ⟨t, rfl⟩ := List.head?_eq_some_iff.mp h
  have hplain : ∀ d ∈ [c], d ≠ 34 ∧ d ≠ 123 ∧ d ≠ 125 ∧ d ≠ 47 := by simpa using hc
  exact consumes_of_forall hplain t

theorem consumes_refl (s : Text) : Consumes s s := ⟨[], rfl, balanced_nil.neutral⟩

theorem consumes_readNumber {checkInf : Bool} {s t : Text}
    (h : readNumber checkInf s = (true, t)) : Consumes s t := by
  have hfraction : ∀ s, Consumes s (readFraction s) := by
    intro s
    unfold readFraction
    split_ifs with hpoint
    · exact (consumes_of_head hpoint (by decide)).trans
        (consumes_dropWhile _ fun _ ↦ plain_of_isDigit)
    · exact consumes_refl s
  have hexponent : ∀ s, Consumes s (readExponent s) := by
    intro s
    have hdigits : ∀ u : Text, Consumes u (u.dropWhile isDigit) := fun u ↦
      consumes_dropWhile u fun _ ↦ plain_of_isDigit
    simp only [readExponent]
    split_ifs with he hsign
    · have hfirst : Consumes s s.tail :=
        he.elim (fun h ↦ consumes_of_head h (by decide)) fun h ↦ consumes_of_head h (by decide)
      have hsecond : Consumes s.tail s.tail.tail :=
        hsign.elim (fun h ↦ consumes_of_head h (by decide)) fun h ↦ consumes_of_head h (by decide)
      exact hfirst.trans (hsecond.trans (hdigits _))
    · have hfirst : Consumes s s.tail :=
        he.elim (fun h ↦ consumes_of_head h (by decide)) fun h ↦ consumes_of_head h (by decide)
      exact hfirst.trans (hdigits _)
    · exact consumes_refl s
  unfold readNumber at h
  split_ifs at h
  · cases h
  · cases h
    exact (consumes_dropWhile _ fun _ ↦ plain_of_isDigit).trans
      ((hfraction _).trans (hexponent _))

/-- The tokens without a brace; an error may be anything. -/
def TokenType.Braceless (type : TokenType) : Prop :=
  type ∉ [tokenEndOfStream, tokenError, tokenObjectBegin, tokenObjectEnd]

instance (type : TokenType) : Decidable type.Braceless := inferInstanceAs (Decidable (_ ∉ _))

theorem Scans.consumes {c : UInt8} {s t : Text} {type : TokenType} (h : Scans c s type t)
    (htype : type.Braceless) : Consumes (c :: s) t := by
  cases h with
  | punctuation hpunctuation =>
      unfold OurReader.punctuation at hpunctuation
      have hplain : ∀ d ∈ [c], d ≠ 34 ∧ d ≠ 123 ∧ d ≠ 125 ∧ d ≠ 47 := by
        split_ifs at hpunctuation <;> obtain rfl := Option.some.inj hpunctuation <;> subst c <;>
          first | exact absurd htype (by decide) | decide +kernel
      exact consumes_of_forall hplain s
  | string hread =>
      obtain ⟨cs, rfl, hcs⟩ := scan_readString hread
      refine ⟨34 :: cs, rfl, fun depth ↦ Or.inl ?_⟩
      exact (scan_cons_of_step (step_quote (D := jsonDelimiters) depth)).trans (hcs depth)
  | comment hread =>
      obtain ⟨cs, hcs⟩ : t <:+ s := by
        have hsuffix := readComment_suffix s
        rwa [hread] at hsuffix
      exact ⟨47 :: cs, by rw [← hcs, List.cons_append], neutral_comment cs⟩
  | number checkInf hc hread =>
      have hfirst : Consumes (c :: s) s := by
        refine consumes_of_head (c := c) rfl ?_
        rcases hc with hdigit | rfl | rfl
        · exact plain_of_isDigit hdigit
        · decide
        · decide
      exact hfirst.trans (consumes_readNumber hread)
  | @word _ pattern _ _ hword =>
      have hplain : ∀ d ∈ c :: pattern, d ≠ 34 ∧ d ≠ 123 ∧ d ≠ 125 ∧ d ≠ 47 := by
        simp only [words, List.mem_cons, List.not_mem_nil, or_false, Prod.mk.injEq] at hword
        rcases hword with ⟨rfl, rfl, -⟩ | ⟨rfl, rfl, -⟩ | ⟨rfl, rfl, -⟩ <;> decide +kernel
      exact consumes_of_forall hplain t
  | error => exact absurd htype (by decide)

theorem consumes_readToken {s : Text} (htype : (readToken s).1.type.Braceless) :
    Consumes s (readToken s).2 := by
  rcases readToken_cases s with ⟨-, hend⟩ | ⟨c, t, hstart, hscans⟩
  · rw [hend] at htype
    exact absurd htype (by decide)
  · have hspaces := consumes_skipSpaces s
    rw [hstart] at hspaces
    exact hspaces.trans (hscans.consumes htype)

theorem consumes_skipCommentTokens {s : Text} (htype : (skipCommentTokens s).1.type.Braceless) :
    Consumes s (skipCommentTokens s).2 := by
  rw [skipCommentTokens] at htype ⊢
  generalize s.length = n at htype ⊢
  induction n generalizing s with
  | zero => exact consumes_readToken htype
  | succ n ih =>
      rw [skipComments] at htype ⊢
      split_ifs at htype ⊢ with hcomment
      · have hfirst := consumes_readToken (s := s) (by rw [hcomment]; decide)
        exact hfirst.trans (ih htype)
      · exact consumes_readToken htype

/-- A brace behind blanks and comments. -/
theorem consumes_brace {s : Text} {b : UInt8}
    (hb : (skipCommentTokens s).1.type.byte = some b) :
    Consumes s (b :: (skipCommentTokens s).2) := by
  have hfirst : ∀ u, (readToken u).1.type.byte = some b → Consumes u (b :: (readToken u).2) := by
    intro u hu
    have hspaces := consumes_skipSpaces u
    rwa [skipSpaces_of_byte hu] at hspaces
  rw [skipCommentTokens] at hb ⊢
  generalize s.length = n at hb ⊢
  induction n generalizing s with
  | zero => exact hfirst s hb
  | succ n ih =>
      rw [skipComments] at hb ⊢
      split_ifs at hb ⊢ with hcomment
      · exact (consumes_readToken (s := s) (by rw [hcomment]; decide)).trans (ih hb)
      · exact hfirst s hb

/-! ## Values -/

theorem consumes_readMemberName {s t key : Text}
    (h : readMemberName s = .ok (some (some key, t))) : Consumes s t := by
  obtain ⟨⟨⟩, -⟩ | ⟨-, -, hstring, -, -, hcolon, rfl⟩ := readMemberName_eq_some h
  have hname := consumes_skipCommentTokens (s := s) (by rw [hstring]; decide)
  exact hname.trans (consumes_readToken (by rw [hcolon]; decide))

theorem consumesBrace_readMemberName {s t : Text}
    (h : readMemberName s = .ok (some (none, t))) : ConsumesBrace s t := by
  obtain ⟨-, hend, rfl⟩ | ⟨-, ⟨⟩, -⟩ := readMemberName_eq_some h
  have hbrace := consumes_brace (s := s) (b := 125) (by rw [hend]; rfl)
  exact hbrace.trans_brace (consumesBrace_closing _)

theorem Scans.of_comment {c : UInt8} {s t : Text} (h : Scans c s tokenComment t) :
    c = 47 ∧ t <:+ s := by
  cases h with
  | punctuation hpunctuation =>
      unfold OurReader.punctuation at hpunctuation
      split_ifs at hpunctuation <;> cases hpunctuation
  | comment hread =>
      have hsuffix := readComment_suffix s
      rw [hread] at hsuffix
      exact ⟨rfl, hsuffix⟩
  | word hword =>
      exact absurd hword (by simp [words])

/-- Behind a comment anything may follow. -/
theorem consumes_comment {s : Text} (hcomment : (readToken s).1.type = tokenComment) {t : Text}
    (ht : t <:+ (readToken s).2) : Consumes s t ∧ ConsumesBrace s t := by
  rcases readToken_cases s with ⟨-, hend⟩ | ⟨c, u, hstart, hscans⟩
  · rw [hend] at hcomment
    cases hcomment
  · rw [hcomment] at hscans
    obtain ⟨rfl, hsuffix⟩ := hscans.of_comment
    obtain ⟨ds, hds⟩ := ht.trans hsuffix
    have hspaces := consumes_skipSpaces s
    rw [hstart, ← hds] at hspaces
    have htail : Consumes (47 :: (ds ++ t)) t := ⟨47 :: ds, rfl, neutral_comment ds⟩
    have hbrace : ConsumesBrace (47 :: (ds ++ t)) t := ⟨47 :: ds, rfl, neutral_opening_comment ds⟩
    exact ⟨hspaces.trans htail, hspaces.trans_brace hbrace⟩

theorem consumes_readMemberEnd {s t : Text} (h : readMemberEnd s = some (true, t)) :
    Consumes s t := by
  rcases readMemberEnd_eq_some h with ⟨-, ⟨⟩, -⟩ | ⟨hcomma, -, rfl⟩ | ⟨hcomment, rfl⟩
  · exact consumes_readToken (by rw [hcomma]; decide)
  · exact (consumes_comment hcomment (skipCommentTokens_suffix _)).1

theorem consumesBrace_readMemberEnd {s t : Text} (h : readMemberEnd s = some (false, t)) :
    ConsumesBrace s t := by
  rcases readMemberEnd_eq_some h with ⟨hend, -, rfl⟩ | ⟨-, ⟨⟩, -⟩ | ⟨hcomment, rfl⟩
  · have hspaces := consumes_skipSpaces s
    rw [skipSpaces_of_byte (b := 125) (by rw [hend]; rfl)] at hspaces
    exact hspaces.trans_brace (consumesBrace_closing _)
  · exact (consumes_comment hcomment (skipCommentTokens_suffix _)).2

theorem consumes_readElementEnd {s t : Text} {goesOn : Bool}
    (h : readElementEnd s = some (goesOn, t)) : Consumes s t := by
  obtain ⟨rfl, hend | hcomma⟩ := readElementEnd_eq_some h
  · exact consumes_skipCommentTokens (by rw [hend]; decide)
  · exact consumes_skipCommentTokens (by rw [hcomma]; decide)

variable {decodeDouble : Text → Option Double}

theorem invariant_consumes : Invariant decodeDouble (fun _ s _ t ↦ Consumes s t)
    (fun _ _ s _ t ↦ ConsumesBrace s t) (fun _ _ s _ t ↦ Consumes s t) where
  scalar := fun _ hscalar ↦ by
    apply consumes_skipCommentTokens
    rw [decodeScalar] at hscalar
    split at hscalar <;> first | (cases hscalar; done) | simp_all [TokenType.Braceless]
  object := fun _ hbegin hmembers ↦
    (consumes_brace (by rw [hbegin]; rfl)).trans hmembers.braces
  array := fun _ hbegin helements ↦
    (consumes_skipCommentTokens (by rw [hbegin]; decide)).trans helements
  objectEnd := consumesBrace_readMemberName
  lastMember := fun hname hvalue hend ↦ (consumes_readMemberName hname).trans_brace
    (hvalue.trans_brace (consumesBrace_readMemberEnd hend))
  member := fun hname hvalue hend hmembers ↦ (consumes_readMemberName hname).trans_brace
    (hvalue.trans_brace ((consumes_readMemberEnd hend).trans_brace hmembers))
  arrayEnd := fun hend ↦ (consumes_skipSpaces _).trans (by
    obtain ⟨u, hu⟩ := List.head?_eq_some_iff.mp hend
    have htype : (readToken (93 :: u)).1.type = tokenArrayEnd := rfl
    rw [hu]
    exact consumes_readToken (by rw [htype]; decide))
  lastElement := fun hvalue hend ↦
    (consumes_skipSpaces _).trans (hvalue.trans (consumes_readElementEnd hend))
  element := fun hvalue hend helements ↦
    (consumes_skipSpaces _).trans (hvalue.trans ((consumes_readElementEnd hend).trans helements))

/-- The reader closes the objects it accepts. -/
theorem readsClosedObjects_parse (decodeDouble : Text → Option Double) :
    ReadsClosedObjects (parse decodeDouble) where
  closes := fun text v hparse ↦ by
    obtain ⟨rest, hread⟩ := parse_eq_some hparse
    have hbom : skipBom (123 :: text) = 123 :: text :=
      if_neg fun h ↦ absurd (List.cons_prefix_cons.mp h).1 (by decide)
    rw [hbom] at hread
    obtain ⟨cs, hcs, hneutral⟩ := (invariant_consumes.read _).1 _ _ _ _ hread
    have hshorter := (invariant_length.read _).1 _ _ _ _ hread
    cases cs with
    | nil =>
        rw [hcs] at hshorter
        exact absurd hshorter (lt_irrefl _)
    | cons c cs =>
        obtain ⟨rfl, hrest⟩ := List.cons.inj hcs
        rw [hrest]
        exact hneutral.closes.append rest
  filled := fun v hparse ↦ by
    cases hparse

end OurReader

namespace Json

open Braces OurReader

/-- The bytes of a number. -/
theorem balanced_numberText (m : NumberText) : Balanced jsonDelimiters m.text := by
  have hdigits : ∀ ds : Text, (∀ c ∈ ds, isDigit c = true) → Balanced jsonDelimiters ds :=
    fun ds hds ↦ balanced_of_forall fun c hc ↦ by
      have hdigit := hds c hc
      refine ⟨?_, ?_, ?_, ?_⟩ <;> rintro rfl <;> exact absurd hdigit (by decide)
  have hsign : Balanced jsonDelimiters (if m.negative then [45] else []) := by
    split_ifs <;> exact balanced_of_forall (by decide +kernel)
  have hfraction : Balanced jsonDelimiters m.fraction := by
    rcases m.fraction_eq with h | ⟨ds, hds, h⟩ <;> rw [h]
    · exact balanced_nil
    · have hpoint : Balanced jsonDelimiters [46] := balanced_of_forall (by decide +kernel)
      exact hpoint.append (hdigits ds hds)
  have hexponent : Balanced jsonDelimiters m.exponent := by
    rcases m.exponent_eq with h | ⟨e, sign, ds, he, hsigned, hds, h⟩ <;> rw [h]
    · exact balanced_nil
    · have hletter : Balanced jsonDelimiters [e] := by
        rcases he with rfl | rfl <;> exact balanced_of_forall (by decide +kernel)
      have hafter : Balanced jsonDelimiters sign := by
        rcases hsigned with rfl | rfl | rfl <;> exact balanced_of_forall (by decide +kernel)
      exact hletter.append (hafter.append (hdigits ds hds))
  exact hsign.append ((hdigits _ m.isDigit_of_mem_digits).append (hfraction.append hexponent))

theorem pieces_balanced : Pieces (Balanced jsonDelimiters) where
  append _ _ := Balanced.append
  braces _ hs := hs.braces
  nil := balanced_nil
  numeral := balanced_numberText
  string := balanced_valueToQuotedStringN
  word := by
    simp only [List.forall_mem_cons, List.not_mem_nil, false_implies, implies_true, and_true]
    refine ⟨?_, ?_, ?_, ?_, ?_, ?_, ?_⟩ <;> exact balanced_of_forall (by decide +kernel)

theorem closed_of_writable {decodeDouble : Text → Option Double} {v : Json}
    (hv : v.Writable decodeDouble) : v.Closed :=
  pieces_balanced.writeValue v hv

end Json

end PublisherSubscriber
