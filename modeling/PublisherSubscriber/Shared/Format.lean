import PublisherSubscriber.Shared.Decoding
import Mathlib.Data.List.Induction

/-!
# The request format

What the decoder takes, said without the decoder, and what the interface
description of a client request documents.
-/

namespace PublisherSubscriber

open CommunicationParameters

namespace Json

/-- The members an object has; null has none. -/
def namedMembers : Json → Option (List (Text × Json))
  | null => some []
  | object members => some members
  | _ => none

/-- The member of that name as a string, if it converts to one. -/
def textAt (members : List (Text × Json)) (key : Text) : Except CppException Text :=
  ((members.lookup key).getD null).asString

theorem asString_cases (v : Json) :
    (∃ t, v.asString = .ok t) ∨ ∃ what, v.asString = .error (.jsonLogicError what) := by
  cases v with
  | array elements | object members => exact Or.inr ⟨_, rfl⟩
  | _ => exact Or.inl ⟨_, rfl⟩

/-- The conversion of a member fails with an exception of the library. -/
theorem textAt_cases (members : List (Text × Json)) (key : Text) :
    (∃ t, textAt members key = .ok t) ∨
      ∃ what, textAt members key = .error (.jsonLogicError what) :=
  asString_cases _

section

variable {v : Json} {members : List (Text × Json)}

theorem eq_of_namedMembers (h : v.namedMembers = some members) :
    (v = null ∧ members = []) ∨ v = object members := by
  cases v with
  | null => exact Or.inl ⟨rfl, (Option.some.inj h).symm⟩
  | object held => exact Or.inr (congrArg object (Option.some.inj h))
  | _ => cases h

theorem index_of_namedMembers (h : v.namedMembers = some members) (key : Text) :
    v.index key = .ok ((members.lookup key).getD null) := by
  rcases eq_of_namedMembers h with ⟨rfl, rfl⟩ | rfl
  · rfl
  · rfl

theorem isMember_of_namedMembers (h : v.namedMembers = some members) (key : Text) :
    v.isMember key = .ok (members.lookup key).isSome := by
  rcases eq_of_namedMembers h with ⟨rfl, rfl⟩ | rfl
  · rfl
  · rfl

theorem getMemberNames_of_namedMembers (h : v.namedMembers = some members) :
    v.getMemberNames = .ok (members.map Prod.fst) := by
  rcases eq_of_namedMembers h with ⟨rfl, rfl⟩ | rfl
  · rfl
  · rfl

theorem memberText_of_namedMembers (h : v.namedMembers = some members) (key : Text) :
    v.memberText key = textAt members key := by
  rw [memberText, index_of_namedMembers h]
  rfl

end

/-- What is no object cannot be indexed by a name. -/
theorem index_of_namedMembers_eq_none {v : Json} (h : v.namedMembers = none) (key : Text) :
    ∃ what, v.index key = .error (.jsonLogicError what) := by
  cases v with
  | null | object members => cases h
  | _ => exact ⟨_, rfl⟩

theorem memberText_of_namedMembers_eq_none {v : Json} (h : v.namedMembers = none) (key : Text) :
    ∃ what, v.memberText key = .error (.jsonLogicError what) := by
  obtain ⟨what, hindex⟩ := index_of_namedMembers_eq_none h key
  rw [memberText, hindex]
  exact ⟨what, rfl⟩

/-- An object with the two members a request has. -/
def IsRequest (v command : Json) (arguments : List (Text × Json)) : Prop :=
  ∃ members held, v = object members ∧ members.lookup (ascii "command") = some command ∧
    members.lookup (ascii "arguments") = some held ∧ held.namedMembers = some arguments

/-- The value is this number, and was written as an integer. -/
def IsInteger (n : ℤ) : Json → Prop
  | int m => m = n
  | uint m => (m : ℤ) = n
  | _ => False

theorem IsRequest.unique {v command command' : Json} {arguments arguments' : List (Text × Json)}
    (h : v.IsRequest command arguments) (h' : v.IsRequest command' arguments') :
    command = command' ∧ arguments = arguments' := by
  obtain ⟨members, held, rfl, hcommand, hheld, hnamed⟩ := h
  obtain ⟨members', held', heq, hcommand', hheld', hnamed'⟩ := h'
  injection heq with heq
  subst heq
  rw [hcommand, Option.some.injEq] at hcommand'
  rw [hheld, Option.some.injEq] at hheld'
  rw [← hheld', hnamed, Option.some.injEq] at hnamed'
  exact ⟨hcommand', hnamed'⟩

theorem IsInteger.asInt {n : ℤ} {v : Json} (h : v.IsInteger n) (hlower : intMin ≤ n)
    (hupper : n ≤ intMax) : v.asInt = .ok n := by
  cases v with
  | int m =>
      obtain rfl : m = n := h
      simp [Json.asInt, hlower, hupper]
  | uint m =>
      obtain rfl : (m : ℤ) = n := h
      simp [Json.asInt, hupper]
  | _ => exact h.elim

theorem IsInteger.eq_of_asInt {m n : ℤ} {v : Json} (h : v.IsInteger m) (hint : v.asInt = .ok n) :
    m = n := by
  cases v with
  | int k =>
      obtain rfl : k = m := h
      simp only [Json.asInt] at hint
      split_ifs at hint
      exact Except.ok.inj hint
  | uint k =>
      obtain rfl : (k : ℤ) = m := h
      simp only [Json.asInt] at hint
      split_ifs at hint
      exact Except.ok.inj hint
  | _ => exact h.elim

end Json

/-! ## What the loop over the keys stores -/

namespace Command

/-- The last of the keys that stands for the argument; a later value overwrites. -/
def lastKey (keys : List Text) (argumentName : CommunicationParameters) : Option Text :=
  keys.reverse.find? fun key ↦ parameterNamed key = argumentName

/-- Every key's text is stored under the argument the key stands for. -/
def store (texts : Text → Text) (keys : List Text) (c : Command) : Command :=
  keys.foldl (fun c key ↦ c.put (parameterNamed key) (texts key)) c

theorem lastKey_eq_some {keys : List Text} {a : CommunicationParameters} {key : Text}
    (h : lastKey keys a = some key) : key ∈ keys ∧ parameterNamed key = a := by
  refine ⟨List.mem_reverse.mp (List.mem_of_find?_eq_some h), ?_⟩
  simpa using List.find?_some h

theorem exists_lastKey {keys : List Text} {key : Text} (hkey : key ∈ keys) :
    ∃ last, lastKey keys (parameterNamed key) = some last := by
  rw [← Option.isSome_iff_exists, lastKey, List.find?_isSome]
  exact ⟨key, List.mem_reverse.mpr hkey, by simp⟩

section

variable {texts : Text → Text} {keys : List Text} {c : Command}

theorem store_append (key : Text) :
    store texts (keys ++ [key]) c = (store texts keys c).put (parameterNamed key) (texts key) := by
  simp [store]

@[simp] theorem commandIdentifier_store :
    (store texts keys c).commandIdentifier = c.commandIdentifier := by
  induction keys using List.reverseRecOn with
  | nil => rfl
  | append_singleton keys key ih => rw [store_append, commandIdentifier_put, ih]

@[simp] theorem availableCommandArguments_store :
    (store texts keys c).availableCommandArguments = c.availableCommandArguments := by
  induction keys using List.reverseRecOn with
  | nil => rfl
  | append_singleton keys key ih => rw [store_append, availableCommandArguments_put, ih]

theorem WellFormed.store (hc : c.WellFormed) : (store texts keys c).WellFormed := by
  induction keys using List.reverseRecOn with
  | nil => exact hc
  | append_singleton keys key ih =>
      rw [store_append]
      exact ih.put _ _

theorem value_store (hc : c.WellFormed)
    (hkeys : ∀ key ∈ keys, parameterNamed key ∈ c.availableCommandArguments)
    (a : CommunicationParameters) :
    (store texts keys c).value a = ((lastKey keys a).map texts).getD (c.value a) := by
  induction keys using List.reverseRecOn with
  | nil => rfl
  | append_singleton keys key ih =>
      have hkey : parameterNamed key ∈ (store texts keys c).availableCommandArguments := by
        rw [availableCommandArguments_store]
        exact hkeys key (by simp)
      have hrest := ih fun other hother ↦ hkeys other (List.mem_append_left _ hother)
      rw [store_append, lastKey, List.reverse_append]
      by_cases ha : parameterNamed key = a
      · subst ha
        rw [value_put_self hc.store hkey]
        simp
      · rw [value_put_ne hkey (Ne.symm ha), hrest]
        simp [lastKey, ha]

/-- The loop succeeds when every key stands for an argument and has a text. -/
theorem setAll_eq_store {arguments : Json}
    (hkeys : ∀ key ∈ keys, (arguments.index key).bind Json.asString = .ok (texts key) ∧
      parameterNamed key ∈ c.availableCommandArguments) :
    setAll arguments keys c = .ok (store texts keys c) := by
  induction keys generalizing c with
  | nil => rfl
  | cons key keys ih =>
      obtain ⟨htext, hkey⟩ := hkeys key (by simp)
      have hrest := ih (c := c.put (parameterNamed key) (texts key)) fun other hother ↦
        hkeys other (List.mem_cons_of_mem key hother)
      cases hindex : arguments.index key with
      | error e => simp [hindex, Except.bind] at htext
      | ok value =>
          rw [hindex] at htext
          have hstring : value.asString = .ok (texts key) := htext
          simp only [setAll, hindex, Except.bind, hstring, setCommandArgument_of_mem hkey, if_true]
          exact hrest

theorem of_setAll_eq_ok {arguments : Json} {c' : Command}
    (h : setAll arguments keys c = .ok c') :
    ∀ key ∈ keys, (∃ t, (arguments.index key).bind Json.asString = .ok t) ∧
      parameterNamed key ∈ c.availableCommandArguments := by
  induction keys generalizing c with
  | nil => simp
  | cons first keys ih =>
      cases hindex : arguments.index first with
      | error e => simp [setAll, hindex, Except.bind] at h
      | ok value =>
          cases hstring : value.asString with
          | error e => simp [setAll, hindex, Except.bind, hstring] at h
          | ok t =>
              by_cases hfirst : parameterNamed first ∈ c.availableCommandArguments
              · simp only [setAll, hindex, Except.bind, hstring,
                  setCommandArgument_of_mem hfirst, if_true] at h
                intro key hkey
                rcases List.mem_cons.mp hkey with rfl | hkey
                · exact ⟨⟨t, by simp [hindex, Except.bind, hstring]⟩, hfirst⟩
                · exact ih h key hkey
              · simp [setAll, hindex, Except.bind, hstring,
                  setCommandArgument_of_notMem hfirst] at h

end

/-! ## What is accepted -/

/-- The text a key is stored with. -/
def storedText (arguments : List (Text × Json)) (key : Text) : Text :=
  match Json.textAt arguments key with
  | .ok t => t
  | .error _ => []

/-- The members convert to texts for the arguments of the command, and none stays empty. -/
structure Fills (commandIdentifier : CommandIdentifiers) (arguments : List (Text × Json)) :
    Prop where
  names : ∀ key ∈ arguments.map Prod.fst, parameterNamed key ∈ namesOf commandIdentifier
  texts : ∀ key ∈ arguments.map Prod.fst, ∃ t, Json.textAt arguments key = .ok t
  values : ∀ a ∈ namesOf commandIdentifier, ∃ key t,
    lastKey (arguments.map Prod.fst) a = some key ∧ Json.textAt arguments key = .ok t ∧ t ≠ []

/-- What the decoder makes of the arguments it takes. -/
def filled (commandIdentifier : CommandIdentifiers) (arguments : List (Text × Json)) : Command :=
  store (storedText arguments) (arguments.map Prod.fst) (fresh commandIdentifier)

/-- The values the decoder takes. -/
def Accepts (v : Json) : Prop :=
  ∃ command arguments n, v.IsRequest command arguments ∧ command.asInt = .ok n ∧
    Fills (.ofInt n) arguments

theorem wellFormed_fresh (commandIdentifier : CommandIdentifiers) :
    (fresh commandIdentifier).WellFormed where
  nodup := by cases commandIdentifier <;> first | decide | exact List.nodup_nil
  length := List.length_map _

theorem value_fresh {commandIdentifier : CommandIdentifiers} {a : CommunicationParameters}
    (ha : a ∈ namesOf commandIdentifier) : (fresh commandIdentifier).value a = [] :=
  Slots.read_map_const ha

theorem storedText_eq {arguments : List (Text × Json)} {key t : Text}
    (h : Json.textAt arguments key = .ok t) : storedText arguments key = t := by
  rw [storedText, h]

section

variable {commandIdentifier : CommandIdentifiers} {arguments : List (Text × Json)} {held : Json}

theorem wellFormed_filled : (filled commandIdentifier arguments).WellFormed :=
  (wellFormed_fresh commandIdentifier).store

@[simp] theorem commandIdentifier_filled :
    (filled commandIdentifier arguments).commandIdentifier = commandIdentifier :=
  commandIdentifier_store

@[simp] theorem availableCommandArguments_filled :
    (filled commandIdentifier arguments).availableCommandArguments = namesOf commandIdentifier :=
  availableCommandArguments_store

theorem value_filled
    (hnames : ∀ key ∈ arguments.map Prod.fst, parameterNamed key ∈ namesOf commandIdentifier)
    {a : CommunicationParameters} (ha : a ∈ namesOf commandIdentifier) :
    (filled commandIdentifier arguments).value a =
      ((lastKey (arguments.map Prod.fst) a).map (storedText arguments)).getD [] := by
  rw [filled, value_store (wellFormed_fresh commandIdentifier) hnames, value_fresh ha]

theorem isValid_filled
    (hnames : ∀ key ∈ arguments.map Prod.fst, parameterNamed key ∈ namesOf commandIdentifier) :
    (filled commandIdentifier arguments).isValid = true ↔ ∀ a ∈ namesOf commandIdentifier,
      ∃ key, lastKey (arguments.map Prod.fst) a = some key ∧ storedText arguments key ≠ [] := by
  rw [isValid_iff wellFormed_filled, availableCommandArguments_filled]
  refine forall₂_congr fun a ha ↦ ?_
  rw [value_filled hnames ha]
  cases hlast : lastKey (arguments.map Prod.fst) a <;> simp

theorem index_of_named (h : held.namedMembers = some arguments) (key : Text) :
    (held.index key).bind Json.asString = Json.textAt arguments key :=
  Json.memberText_of_namedMembers h key

theorem decodeArguments_of_fills (h : held.namedMembers = some arguments)
    (hfills : Fills commandIdentifier arguments) :
    decodeArguments commandIdentifier held = .ok (filled commandIdentifier arguments) := by
  have hstore : setAll held (arguments.map Prod.fst) (fresh commandIdentifier) =
      .ok (filled commandIdentifier arguments) := by
    apply setAll_eq_store
    intro key hkey
    obtain ⟨t, ht⟩ := hfills.texts key hkey
    rw [index_of_named h, ht, storedText_eq ht]
    exact ⟨rfl, hfills.names key hkey⟩
  have hvalid : (filled commandIdentifier arguments).isValid = true := by
    rw [isValid_filled hfills.names]
    intro a ha
    obtain ⟨key, t, hlast, ht, hne⟩ := hfills.values a ha
    exact ⟨key, hlast, by rwa [storedText_eq ht]⟩
  simp only [decodeArguments, Json.getMemberNames_of_namedMembers h, hstore, Except.bind, hvalid,
    if_true]

theorem fills_of_decodeArguments {c : Command}
    (h : decodeArguments commandIdentifier held = .ok c) :
    ∃ arguments, held.namedMembers = some arguments ∧ Fills commandIdentifier arguments := by
  obtain ⟨arguments, hnamed⟩ : ∃ arguments, held.namedMembers = some arguments := by
    cases held <;>
      first
      | exact ⟨_, rfl⟩
      | simp [decodeArguments, Json.getMemberNames, Except.bind] at h
  refine ⟨arguments, hnamed, ?_⟩
  simp only [decodeArguments, Json.getMemberNames_of_namedMembers hnamed, Except.bind] at h
  cases hset : setAll held (arguments.map Prod.fst) (fresh commandIdentifier) with
  | error e => simp [hset] at h
  | ok command =>
      have hkeys := of_setAll_eq_ok hset
      have hnames : ∀ key ∈ arguments.map Prod.fst,
          parameterNamed key ∈ namesOf commandIdentifier := fun key hkey ↦ (hkeys key hkey).2
      have htexts : ∀ key ∈ arguments.map Prod.fst, ∃ t, Json.textAt arguments key = .ok t := by
        intro key hkey
        obtain ⟨t, ht⟩ := (hkeys key hkey).1
        exact ⟨t, index_of_named hnamed key ▸ ht⟩
      have hstore : setAll held (arguments.map Prod.fst) (fresh commandIdentifier) =
          .ok (filled commandIdentifier arguments) := by
        apply setAll_eq_store
        intro key hkey
        obtain ⟨t, ht⟩ := htexts key hkey
        rw [index_of_named hnamed, ht, storedText_eq ht]
        exact ⟨rfl, hnames key hkey⟩
      rw [hstore] at hset
      obtain rfl := Except.ok.inj hset
      rw [hstore] at h
      by_cases hvalid : (filled commandIdentifier arguments).isValid = true
      · refine ⟨hnames, htexts, fun a ha ↦ ?_⟩
        obtain ⟨key, hlast, hne⟩ := (isValid_filled hnames).mp hvalid a ha
        obtain ⟨t, ht⟩ := htexts key (lastKey_eq_some hlast).1
        exact ⟨key, t, hlast, ht, by rwa [storedText_eq ht] at hne⟩
      · simp [hvalid] at h

end

theorem decode_of_isRequest {v command : Json} {arguments : List (Text × Json)} {n : ℤ}
    (h : v.IsRequest command arguments) (hint : command.asInt = .ok n)
    (hfills : Fills (.ofInt n) arguments) : decode v = .ok (filled (.ofInt n) arguments) := by
  obtain ⟨members, held, rfl, hcommand, hheld, hnamed⟩ := h
  have hrequired : hasRequired (.object members) = .ok true := by
    simp [hasRequired, Json.isMember, Except.bind, hcommand, hheld]
  have harguments := decodeArguments_of_fills hnamed hfills
  simp only [decode, hrequired, Except.bind, if_true, Json.index, hcommand, hheld,
    Option.getD_some, hint, harguments]

theorem accepts_of_decode {v : Json} {c : Command} (h : decode v = .ok c) : Accepts v := by
  cases v with
  | object members =>
      cases hcommand : members.lookup (ascii "command") with
      | none => simp [decode, hasRequired, Json.isMember, Except.bind, hcommand] at h
      | some command =>
          cases hheld : members.lookup (ascii "arguments") with
          | none => simp [decode, hasRequired, Json.isMember, Except.bind, hcommand, hheld] at h
          | some held =>
              have hrequired : hasRequired (.object members) = .ok true := by
                simp [hasRequired, Json.isMember, Except.bind, hcommand, hheld]
              simp only [decode, hrequired, Except.bind, if_true, Json.index, hcommand, hheld,
                Option.getD_some] at h
              cases hint : command.asInt with
              | error e => simp [hint] at h
              | ok n =>
                  simp only [hint] at h
                  obtain ⟨arguments, hnamed, hfills⟩ := fills_of_decodeArguments h
                  exact ⟨command, arguments, n, ⟨members, held, rfl, hcommand, hheld, hnamed⟩,
                    hint, hfills⟩
  | _ => simp [decode, hasRequired, Json.isMember, Except.bind] at h

theorem filled_of_decode {v : Json} {c : Command} (h : decode v = .ok c) :
    ∃ command arguments n, v.IsRequest command arguments ∧ command.asInt = .ok n ∧
      Fills (.ofInt n) arguments ∧ c = filled (.ofInt n) arguments := by
  obtain ⟨command, arguments, n, hrequest, hint, hfills⟩ := accepts_of_decode h
  rw [decode_of_isRequest hrequest hint hfills] at h
  exact ⟨command, arguments, n, hrequest, hint, hfills, (Except.ok.inj h).symm⟩

theorem available_of_decode {v : Json} {c : Command} (h : decode v = .ok c) :
    c.availableCommandArguments = namesOf c.commandIdentifier := by
  obtain ⟨command, arguments, n, -, -, -, rfl⟩ := filled_of_decode h
  rw [availableCommandArguments_filled, commandIdentifier_filled]

/-- What is decoded has a value for each of its arguments. -/
theorem decode_inv {v : Json} {c : Command} (h : decode v = .ok c) :
    c.WellFormed ∧ c.isValid = true := by
  obtain ⟨command, arguments, n, -, -, hfills, rfl⟩ := filled_of_decode h
  refine ⟨wellFormed_filled, (isValid_filled hfills.names).mpr fun a ha ↦ ?_⟩
  obtain ⟨key, t, hlast, ht, hne⟩ := hfills.values a ha
  exact ⟨key, hlast, by rwa [storedText_eq ht]⟩

theorem namesOf_eq_nil {commandIdentifier : CommandIdentifiers}
    (h : ¬ commandIdentifier.IsNamed) : namesOf commandIdentifier = [] := by
  cases commandIdentifier with
  | unnamed n => rfl
  | _ => exact absurd trivial h

/-- A command without a name has no argument to fill. -/
theorem fills_unnamed_iff {commandIdentifier : CommandIdentifiers}
    (h : ¬ commandIdentifier.IsNamed) (arguments : List (Text × Json)) :
    Fills commandIdentifier arguments ↔ arguments = [] := by
  have hnames := namesOf_eq_nil h
  constructor
  · intro hfills
    cases arguments with
    | nil => rfl
    | cons argument arguments =>
        have hmem := hfills.names argument.1 (by simp)
        rw [hnames] at hmem
        exact absurd hmem List.not_mem_nil
  · rintro rfl
    constructor
    · simp
    · simp
    · simp [hnames]

/-- The decoder takes exactly the values that `Accepts` describes. -/
theorem decode_eq_ok_iff (v : Json) : (∃ c, decode v = .ok c) ↔ Accepts v := by
  constructor
  · rintro ⟨c, hc⟩
    exact accepts_of_decode hc
  · rintro ⟨command, arguments, n, hrequest, hint, hfills⟩
    exact ⟨_, decode_of_isRequest hrequest hint hfills⟩

end Command

end PublisherSubscriber
