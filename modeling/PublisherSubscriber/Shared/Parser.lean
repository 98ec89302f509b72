import PublisherSubscriber.Shared.Reader
import PublisherSubscriber.Shared.Strings
import PublisherSubscriber.Shared.Tokens

/-!
# The parser of the JSON reader

Each function answers with what it read and the text that is left, with `none`
where it returns false, and with the exceptions it throws.  The functions call
each other once for each value, so the fuel counts calls; twice the length of
the text is enough of it.  The library keeps the comments it passes over with the
values next to them, to be written again; values have none here.
-/

namespace PublisherSubscriber

namespace OurReader

open TokenType

/-- `stackLimit_`. -/
def stackLimit : ℕ := 1000

section

variable {α β : Type}

/-- A caller returns false where the function it called does. -/
def andThen (x : Except CppException (Option α)) (f : α → Except CppException (Option β)) :
    Except CppException (Option β) :=
  match x with
  | .error e => .error e
  | .ok none => .ok none
  | .ok (some a) => f a

theorem andThen_eq_some {x : Except CppException (Option α)}
    {f : α → Except CppException (Option β)} {b : β} (h : andThen x f = .ok (some b)) :
    ∃ a, x = .ok (some a) ∧ f a = .ok (some b) := by
  unfold andThen at h
  split at h
  · cases h
  · cases h
  · exact ⟨_, rfl, h⟩

end

/-- A name and the colon behind it; no name where the object ends. -/
def readMemberName (s : Text) : Except CppException (Option (Option Text × Text)) :=
  let tokenName := skipCommentTokens s
  if tokenName.1.type = tokenObjectEnd then .ok (some (none, tokenName.2))
  else if tokenName.1.type = tokenString then
    match decodeString tokenName.1.text with
    | none => .ok none
    | some name =>
        if 2 ^ 30 ≤ name.length then .error (.jsonRuntimeError "keylength >= 2^30")
        else
          let colon := readToken tokenName.2
          .ok (if colon.1.type = tokenMemberSeparator then some (some name, colon.2) else none)
  else .ok none

/-- What follows a member, and whether there may be another one.  Behind a
comment any token is taken for a comma. -/
def readMemberEnd (s : Text) : Option (Bool × Text) :=
  let comma := readToken s
  if comma.1.type = tokenObjectEnd then some (false, comma.2)
  else if comma.1.type = tokenArraySeparator then some (true, comma.2)
  else if comma.1.type = tokenComment then
    let last := skipCommentTokens comma.2
    some (last.1.type ≠ tokenObjectEnd, last.2)
  else none

def readElementEnd (s : Text) : Option (Bool × Text) :=
  let currentToken := skipCommentTokens s
  if currentToken.1.type = tokenArrayEnd then some (false, currentToken.2)
  else if currentToken.1.type = tokenArraySeparator then some (true, currentToken.2)
  else none

section

variable (decodeDouble : Text → Option Double)

/-- The cases of the switch in `readValue` that read nothing more. -/
def decodeScalar (token : Token) : Option Json :=
  match token.type with
  | tokenNumber => (decodeNumber token.text).or ((decodeDouble token.text).map Json.real)
  | tokenString => (decodeString token.text).map Json.string
  | tokenTrue => some (.bool true)
  | tokenFalse => some (.bool false)
  | tokenNull => some .null
  | _ => none

mutual

/-- `nodes` is the size of the stack of values that are not finished. -/
def readValue : ℕ → ℕ → Text → Except CppException (Option (Json × Text))
  | 0, _, _ => .ok none
  | fuel + 1, nodes, s =>
      if stackLimit < nodes then
        .error (.jsonRuntimeError "Exceeded stackLimit in readValue().")
      else
        let token := skipCommentTokens s
        if token.1.type = tokenObjectBegin then
          andThen (readObject fuel nodes [] token.2) fun r ↦ .ok (some (.object r.1, r.2))
        else if token.1.type = tokenArrayBegin then
          andThen (readArray fuel nodes [] token.2) fun r ↦ .ok (some (.array r.1, r.2))
        else .ok ((decodeScalar decodeDouble token.1).map fun v ↦ (v, token.2))

/-- The loop over the members; a name that comes again replaces its value. -/
def readObject : ℕ → ℕ → List (Text × Json) → Text →
    Except CppException (Option (List (Text × Json) × Text))
  | 0, _, _, _ => .ok none
  | fuel + 1, nodes, members, s =>
      andThen (readMemberName s) fun name ↦
        match name.1 with
        | none => .ok (some (members, name.2))
        | some key =>
            andThen (readValue fuel (nodes + 1) name.2) fun value ↦
              match readMemberEnd value.2 with
              | none => .ok none
              | some (true, s) => readObject fuel nodes (Json.assign key value.1 members) s
              | some (false, s) => .ok (some (Json.assign key value.1 members, s))

/-- The loop over the elements. -/
def readArray : ℕ → ℕ → List Json → Text → Except CppException (Option (List Json × Text))
  | 0, _, _, _ => .ok none
  | fuel + 1, nodes, elements, s =>
      if (skipSpaces s).head? = some 93 then .ok (some (elements, (readToken (skipSpaces s)).2))
      else
        andThen (readValue fuel (nodes + 1) (skipSpaces s)) fun value ↦
          match readElementEnd value.2 with
          | none => .ok none
          | some (true, s) => readArray fuel nodes (elements ++ [value.1]) s
          | some (false, s) => .ok (some (elements ++ [value.1], s))

end

/-- Whatever is behind the value is not looked at. -/
def parse (text : Text) : Except CppException (Option Json) :=
  (readValue decodeDouble (2 * text.length + 2) 1 (skipBom text)).map (Option.map Prod.fst)

end

/-! ## One value -/

section

variable {decodeDouble : Text → Option Double} {fuel nodes : ℕ} {s t text : Text}

theorem readValue_object (hnodes : nodes ≤ stackLimit)
    (htoken : skipCommentTokens s = (⟨tokenObjectBegin, text⟩, t)) :
    readValue decodeDouble (fuel + 1) nodes s =
      andThen (readObject decodeDouble fuel nodes [] t) fun r ↦ .ok (some (.object r.1, r.2)) := by
  rw [readValue, if_neg (Nat.not_lt.mpr hnodes), htoken]
  exact if_pos rfl

theorem readValue_array (hnodes : nodes ≤ stackLimit)
    (htoken : skipCommentTokens s = (⟨tokenArrayBegin, text⟩, t)) :
    readValue decodeDouble (fuel + 1) nodes s =
      andThen (readArray decodeDouble fuel nodes [] t) fun r ↦ .ok (some (.array r.1, r.2)) := by
  rw [readValue, if_neg (Nat.not_lt.mpr hnodes), htoken]
  rfl

theorem readValue_scalar {token : Token} {v : Json} (hnodes : nodes ≤ stackLimit)
    (htoken : skipCommentTokens s = (token, t)) (hv : decodeScalar decodeDouble token = some v) :
    readValue decodeDouble (fuel + 1) nodes s = .ok (some (v, t)) := by
  have hobject : token.type ≠ tokenObjectBegin := by
    intro h
    rw [decodeScalar, h] at hv
    cases hv
  have harray : token.type ≠ tokenArrayBegin := by
    intro h
    rw [decodeScalar, h] at hv
    cases hv
  rw [readValue, if_neg (Nat.not_lt.mpr hnodes), htoken]
  dsimp only
  rw [if_neg hobject, if_neg harray, hv]
  rfl

end

/-! ## What the functions leave -/

theorem skipComments_suffix (n : ℕ) (s : Text) : (skipComments n s).2 <:+ s := by
  induction n generalizing s with
  | zero => exact readToken_suffix s
  | succ n ih =>
      rw [skipComments]
      split_ifs
      · exact (ih _).trans (readToken_suffix s)
      · exact readToken_suffix s

theorem skipCommentTokens_suffix (s : Text) : (skipCommentTokens s).2 <:+ s :=
  skipComments_suffix s.length s

theorem skipComments_lt {n : ℕ} {s : Text}
    (h : (skipComments n s).1.type ≠ tokenEndOfStream) :
    (skipComments n s).2.length < s.length := by
  induction n generalizing s with
  | zero => exact readToken_lt h
  | succ n ih =>
      rw [skipComments] at h ⊢
      split_ifs at h ⊢
      · exact Nat.lt_of_lt_of_le (ih h) (readToken_suffix s).length_le
      · exact readToken_lt h

theorem skipCommentTokens_lt {s : Text} {type : TokenType}
    (h : (skipCommentTokens s).1.type = type) (hne : type ≠ tokenEndOfStream) :
    (skipCommentTokens s).2.length < s.length :=
  skipComments_lt (by rw [← skipCommentTokens, h]; exact hne)

/-! ## What is read between the values -/

section

variable {s t : Text}

theorem readMemberName_eq_some {name : Option Text}
    (h : readMemberName s = .ok (some (name, t))) :
    (name = none ∧ (skipCommentTokens s).1.type = tokenObjectEnd ∧ t = (skipCommentTokens s).2) ∨
      ∃ key, name = some key ∧ (skipCommentTokens s).1.type = tokenString ∧
        decodeString (skipCommentTokens s).1.text = some key ∧ key.length < 2 ^ 30 ∧
        (readToken (skipCommentTokens s).2).1.type = tokenMemberSeparator ∧
        t = (readToken (skipCommentTokens s).2).2 := by
  simp only [readMemberName] at h
  by_cases hend : (skipCommentTokens s).1.type = tokenObjectEnd
  · rw [if_pos hend] at h
    cases h
    exact Or.inl ⟨rfl, hend, rfl⟩
  · rw [if_neg hend] at h
    by_cases hstring : (skipCommentTokens s).1.type = tokenString
    · rw [if_pos hstring] at h
      cases hkey : decodeString (skipCommentTokens s).1.text with
      | none =>
          rw [hkey] at h
          cases h
      | some key =>
          rw [hkey] at h
          dsimp only at h
          split_ifs at h with hlong hcolon
          · cases h
            exact Or.inr ⟨key, rfl, hstring, rfl, by omega, hcolon, rfl⟩
          · cases h
    · rw [if_neg hstring] at h
      cases h

/-- A comma, a brace, or a comment and the token that ends the comments. -/
theorem readMemberEnd_eq_some {goesOn : Bool} (h : readMemberEnd s = some (goesOn, t)) :
    ((readToken s).1.type = tokenObjectEnd ∧ goesOn = false ∧ t = (readToken s).2) ∨
      ((readToken s).1.type = tokenArraySeparator ∧ goesOn = true ∧ t = (readToken s).2) ∨
      ((readToken s).1.type = tokenComment ∧ t = (skipCommentTokens (readToken s).2).2) := by
  simp only [readMemberEnd] at h
  split_ifs at h with hend hcomma hcomment <;> cases h
  · exact Or.inl ⟨hend, rfl, rfl⟩
  · exact Or.inr (Or.inl ⟨hcomma, rfl, rfl⟩)
  · exact Or.inr (Or.inr ⟨hcomment, rfl⟩)

theorem readElementEnd_eq_some {goesOn : Bool} (h : readElementEnd s = some (goesOn, t)) :
    t = (skipCommentTokens s).2 ∧
      ((skipCommentTokens s).1.type = tokenArrayEnd ∨
        (skipCommentTokens s).1.type = tokenArraySeparator) := by
  simp only [readElementEnd] at h
  split_ifs at h with hend hcomma <;> cases h
  · exact ⟨rfl, Or.inl hend⟩
  · exact ⟨rfl, Or.inr hcomma⟩

theorem readMemberName_lt {name : Option Text} (h : readMemberName s = .ok (some (name, t))) :
    t.length < s.length := by
  rcases readMemberName_eq_some h with ⟨-, hend, rfl⟩ | ⟨key, -, hstring, -, -, -, rfl⟩
  · exact skipCommentTokens_lt hend (by decide)
  · exact Nat.lt_of_le_of_lt (readToken_suffix _).length_le
      (skipCommentTokens_lt hstring (by decide))

theorem readMemberEnd_lt {goesOn : Bool} (h : readMemberEnd s = some (goesOn, t)) :
    t.length < s.length := by
  have hfirst : ∀ type, (readToken s).1.type = type → type ≠ tokenEndOfStream →
      (readToken s).2.length < s.length := fun type htype hne ↦ readToken_lt (htype ▸ hne)
  rcases readMemberEnd_eq_some h with ⟨hend, -, rfl⟩ | ⟨hcomma, -, rfl⟩ | ⟨hcomment, rfl⟩
  · exact hfirst _ hend (by decide)
  · exact hfirst _ hcomma (by decide)
  · exact Nat.lt_of_le_of_lt (skipCommentTokens_suffix _).length_le (hfirst _ hcomment (by decide))

theorem readElementEnd_lt {goesOn : Bool} (h : readElementEnd s = some (goesOn, t)) :
    t.length < s.length := by
  obtain ⟨rfl, hend | hcomma⟩ := readElementEnd_eq_some h
  · exact skipCommentTokens_lt hend (by decide)
  · exact skipCommentTokens_lt hcomma (by decide)

theorem decodeScalar_eq_some {decodeDouble : Text → Option Double} {token : Token} {v : Json}
    (h : decodeScalar decodeDouble token = some v) : token.type ≠ tokenEndOfStream := by
  intro hend
  rw [decodeScalar, hend] at h
  cases h

end

/-! ## What is read keeps an invariant -/

/-- Relations between what is read, the text before and the text behind it that
each call keeps if the calls inside keep them. -/
structure Invariant (decodeDouble : Text → Option Double) (V : ℕ → Text → Json → Text → Prop)
    (O : ℕ → List (Text × Json) → Text → List (Text × Json) → Text → Prop)
    (A : ℕ → List Json → Text → List Json → Text → Prop) : Prop where
  scalar : ∀ {nodes s v}, nodes ≤ stackLimit →
    decodeScalar decodeDouble (skipCommentTokens s).1 = some v →
    V nodes s v (skipCommentTokens s).2
  object : ∀ {nodes s members t}, nodes ≤ stackLimit →
    (skipCommentTokens s).1.type = tokenObjectBegin →
    O nodes [] (skipCommentTokens s).2 members t → V nodes s (.object members) t
  array : ∀ {nodes s elements t}, nodes ≤ stackLimit →
    (skipCommentTokens s).1.type = tokenArrayBegin →
    A nodes [] (skipCommentTokens s).2 elements t → V nodes s (.array elements) t
  objectEnd : ∀ {nodes members s t}, readMemberName s = .ok (some (none, t)) →
    O nodes members s members t
  lastMember : ∀ {nodes members s key t v u w}, readMemberName s = .ok (some (some key, t)) →
    V (nodes + 1) t v u → readMemberEnd u = some (false, w) →
    O nodes members s (Json.assign key v members) w
  member : ∀ {nodes members s key t v u w members' x},
    readMemberName s = .ok (some (some key, t)) → V (nodes + 1) t v u →
    readMemberEnd u = some (true, w) → O nodes (Json.assign key v members) w members' x →
    O nodes members s members' x
  arrayEnd : ∀ {nodes elements s}, (skipSpaces s).head? = some 93 →
    A nodes elements s elements (readToken (skipSpaces s)).2
  lastElement : ∀ {nodes elements s v t u}, V (nodes + 1) (skipSpaces s) v t →
    readElementEnd t = some (false, u) → A nodes elements s (elements ++ [v]) u
  element : ∀ {nodes elements s v t u elements' w}, V (nodes + 1) (skipSpaces s) v t →
    readElementEnd t = some (true, u) → A nodes (elements ++ [v]) u elements' w →
    A nodes elements s elements' w

section

variable {decodeDouble : Text → Option Double} {V : ℕ → Text → Json → Text → Prop}
  {O : ℕ → List (Text × Json) → Text → List (Text × Json) → Text → Prop}
  {A : ℕ → List Json → Text → List Json → Text → Prop}

/-- By induction on the fuel, for the three functions at once. -/
theorem Invariant.read (h : Invariant decodeDouble V O A) (fuel : ℕ) :
    (∀ nodes s v t, readValue decodeDouble fuel nodes s = .ok (some (v, t)) → V nodes s v t) ∧
    (∀ nodes members s members' t,
      readObject decodeDouble fuel nodes members s = .ok (some (members', t)) →
        O nodes members s members' t) ∧
    ∀ nodes elements s elements' t,
      readArray decodeDouble fuel nodes elements s = .ok (some (elements', t)) →
        A nodes elements s elements' t := by
  induction fuel with
  | zero => exact ⟨fun _ _ _ _ h ↦ (by cases h), fun _ _ _ _ _ h ↦ (by cases h),
      fun _ _ _ _ _ h ↦ (by cases h)⟩
  | succ fuel ih =>
      obtain ⟨ihValue, ihObject, ihArray⟩ := ih
      refine ⟨fun nodes s v t hread ↦ ?_, fun nodes members s members' t hread ↦ ?_,
        fun nodes elements s elements' t hread ↦ ?_⟩
      · simp only [readValue] at hread
        split_ifs at hread with hlimit hobject harray
        · obtain ⟨⟨members, u⟩, hmembers, hvalue⟩ := andThen_eq_some hread
          cases hvalue
          exact h.object (by omega) hobject (ihObject _ _ _ _ _ hmembers)
        · obtain ⟨⟨elements, u⟩, helements, hvalue⟩ := andThen_eq_some hread
          cases hvalue
          exact h.array (by omega) harray (ihArray _ _ _ _ _ helements)
        · obtain ⟨u, hscalar, hvalue⟩ := Option.map_eq_some_iff.mp (Except.ok.inj hread)
          cases hvalue
          exact h.scalar (by omega) hscalar
      · rw [readObject] at hread
        obtain ⟨⟨name, u⟩, hname, hread⟩ := andThen_eq_some hread
        cases name with
        | none =>
            cases hread
            exact h.objectEnd hname
        | some key =>
            obtain ⟨⟨v, w⟩, hvalue, hread⟩ := andThen_eq_some hread
            have hv := ihValue _ _ _ _ hvalue
            split at hread
            · cases hread
            · exact h.member hname hv ‹_› (ihObject _ _ _ _ _ hread)
            · cases hread
              exact h.lastMember hname hv ‹_›
      · rw [readArray] at hread
        split_ifs at hread with hend
        · cases hread
          exact h.arrayEnd hend
        · obtain ⟨⟨v, w⟩, hvalue, hread⟩ := andThen_eq_some hread
          have hv := ihValue _ _ _ _ hvalue
          split at hread
          · cases hread
          · exact h.element hv ‹_› (ihArray _ _ _ _ _ hread)
          · cases hread
            exact h.lastElement hv ‹_›

theorem parse_eq_some {text : Text} {v : Json} (h : parse decodeDouble text = .ok (some v)) :
    ∃ rest, readValue decodeDouble (2 * text.length + 2) 1 (skipBom text) =
      .ok (some (v, rest)) := by
  obtain ⟨read, hread, hvalue⟩ := of_map_eq_ok h
  obtain ⟨⟨w, rest⟩, rfl, rfl⟩ := Option.map_eq_some_iff.mp hvalue
  exact ⟨rest, hread⟩

theorem Invariant.parse (h : Invariant decodeDouble V O A) {text : Text} {v : Json}
    (hparse : OurReader.parse decodeDouble text = .ok (some v)) :
    ∃ rest, V 1 (skipBom text) v rest := by
  obtain ⟨rest, hread⟩ := parse_eq_some hparse
  exact ⟨rest, (h.read _).1 _ _ _ _ hread⟩

/-- Each value has at least one byte. -/
theorem invariant_length : Invariant decodeDouble (fun _ s _ t ↦ t.length < s.length)
    (fun _ _ s _ t ↦ t.length < s.length) (fun _ _ s _ t ↦ t.length < s.length) where
  scalar := fun _ hscalar ↦ skipCommentTokens_lt rfl (decodeScalar_eq_some hscalar)
  object := fun _ hbegin hmembers ↦ by
    have hlt := skipCommentTokens_lt hbegin (by decide)
    omega
  array := fun _ hbegin helements ↦ by
    have hlt := skipCommentTokens_lt hbegin (by decide)
    omega
  objectEnd := readMemberName_lt
  lastMember := fun hname hvalue hend ↦ by
    have hlt := readMemberName_lt hname
    have hrest := readMemberEnd_lt hend
    omega
  member := fun hname hvalue hend hmembers ↦ by
    have hlt := readMemberName_lt hname
    have hrest := readMemberEnd_lt hend
    omega
  arrayEnd := by
    intro _ _ s hend
    have hspaces : (skipSpaces s).length ≤ s.length := (List.dropWhile_suffix _).length_le
    have hlt : (readToken (skipSpaces s)).2.length < (skipSpaces s).length := by
      obtain ⟨u, hu⟩ := List.head?_eq_some_iff.mp hend
      have htype : (readToken (93 :: u)).1.type = tokenArrayEnd := rfl
      rw [hu]
      apply readToken_lt
      rw [htype]
      decide
    omega
  lastElement := by
    intro _ _ s _ _ _ hvalue hend
    have hspaces : (skipSpaces s).length ≤ s.length := (List.dropWhile_suffix _).length_le
    have hrest := readElementEnd_lt hend
    omega
  element := by
    intro _ _ s _ _ _ _ _ hvalue hend helements
    have hspaces : (skipSpaces s).length ≤ s.length := (List.dropWhile_suffix _).length_le
    have hrest := readElementEnd_lt hend
    omega

end

end OurReader

end PublisherSubscriber
