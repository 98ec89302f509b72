import PublisherSubscriber.Shared.Interface
import PublisherSubscriber.Shared.Response

/-!
# Reading back what was written

A command that can be serialized is a documented request, so it decodes to
itself.  A response decodes to its own arguments under its own command, and an
argument it lacks decodes to the empty string.
-/

namespace PublisherSubscriber

open CommunicationParameters

namespace Json

theorem ofMembers_assign (key : Text) (value : Json) (members : List (Text × Json)) :
    ofMembers (assign key value members) = object (assign key value members) := by
  cases members with
  | nil => rfl
  | cons member members =>
      unfold assign
      split_ifs <;> rfl

theorem namedMembers_ofMembers (members : List (Text × Json)) :
    (ofMembers members).namedMembers = some members := by
  cases members <;> rfl

theorem index_ofMembers (members : List (Text × Json)) (key : Text) :
    (ofMembers members).index key = .ok ((members.lookup key).getD null) :=
  index_of_namedMembers (namedMembers_ofMembers members) key

theorem mem_names_iff (members : List (Text × Json)) (key : Text) :
    key ∈ members.map Prod.fst ↔ (members.lookup key).isSome := by
  rw [List.lookup_isSome_iff, List.mem_map]
  constructor
  · rintro ⟨member, hmember, rfl⟩
    exact ⟨member, hmember, beq_self_eq_true _⟩
  · rintro ⟨member, hmember, hkey⟩
    exact ⟨member, hmember, (beq_iff_eq.mp hkey).symm⟩

end Json

/-! ## Commands -/

namespace Command

theorem isRequest_toJson (c : Command) :
    c.toJson.IsRequest (.int c.commandIdentifier.toInt) c.argumentMembers := by
  refine ⟨_, .ofMembers c.argumentMembers, Json.ofMembers_assign _ _ _, ?_,
    Json.lookup_assign_self _ _ _, Json.namedMembers_ofMembers _⟩
  rw [Json.lookup_assign_ne (by decide), Json.lookup_assign_self]

section

variable {c : Command} (hc : c.WellFormed)

include hc

theorem documented_toJson (hnamed : c.commandIdentifier.IsNamed)
    (havailable : c.availableCommandArguments = documentedNames c.commandIdentifier)
    (hvalid : c.isValid = true) : Documented c.toJson c.commandIdentifier c.argumentMembers where
  named := hnamed
  request := ⟨_, c.isRequest_toJson, rfl⟩
  names key := by
    rw [Json.mem_names_iff, argumentMembers, Json.isSome_lookup_assignArguments hc.nodup hc.length,
      havailable]
    simp
  strings a ha := by
    rw [← havailable] at ha
    exact ⟨c.value a, (isValid_iff hc).mp hvalid a ha,
      Json.lookup_assignArguments hc.nodup hc.length ha []⟩

/-- A command that is valid decodes to itself. -/
theorem decode_toJson (hnamed : c.commandIdentifier.IsNamed)
    (havailable : c.availableCommandArguments = documentedNames c.commandIdentifier)
    (hvalid : c.isValid = true) : decode c.toJson = .ok c := by
  have hdocumented := documented_toJson hc hnamed havailable hvalid
  rw [hdocumented.decode]
  congr 1
  have hnames : (filled c.commandIdentifier c.argumentMembers).availableCommandArguments =
      c.availableCommandArguments := by
    rw [availableCommandArguments_filled, namesOf_eq_documentedNames, havailable]
  apply wellFormed_filled.ext hc commandIdentifier_filled hnames
  intro a ha
  rw [hnames] at ha
  exact hdocumented.value_filled (havailable ▸ ha)
    (Json.lookup_assignArguments hc.nodup hc.length ha [])

end

end Command

/-! ## Responses -/

namespace Response

/-- Every argument has one value. -/
structure WellFormed (r : Response) : Prop where
  nodup : r.availableResponseArguments.Nodup
  length : r.responseArguments.length = r.availableResponseArguments.length

def value (r : Response) (argumentName : CommunicationParameters) : Text :=
  Slots.read r.availableResponseArguments r.responseArguments [] argumentName

theorem getResponseArgument_of_mem {r : Response} {a : CommunicationParameters}
    (ha : a ∈ r.availableResponseArguments) : r.getResponseArgument a = .ok (r.value a) := if_pos ha

theorem nodup_responseDictionary (commandIdentifier : CommandIdentifiers) :
    (responseDictionary commandIdentifier).Nodup := by
  cases commandIdentifier <;> first | exact List.nodup_nil | decide

/-- A response with the arguments of that command, and a status code of the enumeration. -/
structure IsReplyTo (commandIdentifier : CommandIdentifiers) (r : Response) : Prop where
  available : r.availableResponseArguments = responseDictionary commandIdentifier
  length : r.responseArguments.length = r.availableResponseArguments.length
  status : ∃ s, r.statusCode = some s ∧ s.IsNamed

theorem IsReplyTo.wellFormed {commandIdentifier : CommandIdentifiers} {r : Response}
    (h : r.IsReplyTo commandIdentifier) : r.WellFormed :=
  ⟨by rw [h.available]; exact nodup_responseDictionary _, h.length⟩

@[simp] theorem availableResponseArguments_setResponseArgument (r : Response)
    (a : CommunicationParameters) (t : Text) :
    (r.setResponseArgument a t).2.availableResponseArguments = r.availableResponseArguments := by
  unfold setResponseArgument
  split_ifs <;> rfl

@[simp] theorem length_setResponseArgument (r : Response) (a : CommunicationParameters)
    (t : Text) :
    (r.setResponseArgument a t).2.responseArguments.length = r.responseArguments.length := by
  unfold setResponseArgument
  split_ifs
  · exact List.length_set
  · rfl

theorem isReplyTo_new (commandIdentifier : CommandIdentifiers) {s : Statuscode} (hs : s.IsNamed) :
    ((new commandIdentifier).setStatusCode s).IsReplyTo commandIdentifier where
  available := rfl
  length := List.length_map _
  status := ⟨s, rfl, hs⟩

/-- The response a decoder makes of a status code and a text for each argument. -/
def ofTexts (commandIdentifier : CommandIdentifiers) (statusCode : Statuscode)
    (texts : CommunicationParameters → Text) : Response where
  statusCode := some statusCode
  availableResponseArguments := responseDictionary commandIdentifier
  responseArguments := (responseDictionary commandIdentifier).map texts

theorem readArguments_cons (root : Json) (a : CommunicationParameters)
    (rest : List CommunicationParameters) (r : Response) :
    readArguments root (a :: rest) r =
      (root.memberText (communicationParameterToStringDictionary a)).bind fun text ↦
        readArguments root rest (r.setResponseArgument a text).2 := by
  simp only [readArguments, Json.memberText, bind, Except.bind]
  cases root.index (communicationParameterToStringDictionary a) <;> rfl

section

variable {root : Json} {members : List (Text × Json)} {texts : CommunicationParameters → Text}

theorem readArguments_eq_ok (hnamed : root.namedMembers = some members)
    {rest : List CommunicationParameters} {r : Response}
    (hrest : ∀ a ∈ rest, a ∈ r.availableResponseArguments ∧
      Json.textAt members (communicationParameterToStringDictionary a) = .ok (texts a)) :
    readArguments root rest r = .ok { r with
      responseArguments := rest.foldl (fun values a ↦
        Slots.write r.availableResponseArguments values a (texts a)) r.responseArguments } := by
  induction rest generalizing r with
  | nil => rfl
  | cons a rest ih =>
      obtain ⟨ha, htext⟩ := hrest a (by simp)
      have hset := congrArg Prod.snd (setResponseArgument_of_mem ha (texts a))
      rw [readArguments_cons, Json.memberText_of_namedMembers hnamed, htext, Except.bind, hset]
      exact ih fun b hb ↦ hrest b (List.mem_cons_of_mem a hb)

/-- Members that are missing decode like members that are empty. -/
theorem readResponse_eq_ok {commandIdentifier : CommandIdentifiers} {n : ℤ}
    (hnamed : root.namedMembers = some members)
    (hint : ((members.lookup (ascii "statusCode")).getD .null).asInt = .ok n)
    (htexts : ∀ a ∈ responseDictionary commandIdentifier,
      Json.textAt members (communicationParameterToStringDictionary a) = .ok (texts a)) :
    readResponse commandIdentifier root = .ok (ofTexts commandIdentifier (.ofInt n) texts) := by
  let r := (new commandIdentifier).setStatusCode (.ofInt n)
  have hread : readArguments root r.availableResponseArguments r = _ :=
    readArguments_eq_ok hnamed fun a ha ↦ ⟨ha, htexts a ha⟩
  have hlength : r.responseArguments.length = (responseDictionary commandIdentifier).length :=
    List.length_map _
  have hvalues := Slots.foldl_write_names (nodup_responseDictionary commandIdentifier) hlength texts
  simp only [readResponse, Json.index_of_namedMembers hnamed, hint, bind, Except.bind]
  refine hread.trans ?_
  exact congrArg (fun values ↦ Except.ok { r with responseArguments := values }) hvalues

end

/-! ## Which values are responses -/

section

variable {root : Json} {commandIdentifier : CommandIdentifiers} {e : CppException}

theorem memberText_of_readArguments {rest : List CommunicationParameters} {r r' : Response}
    (h : readArguments root rest r = .ok r') {a : CommunicationParameters} (ha : a ∈ rest) :
    ∃ t, root.memberText (communicationParameterToStringDictionary a) = .ok t := by
  induction rest generalizing r with
  | nil => exact absurd ha List.not_mem_nil
  | cons first rest ih =>
      rw [readArguments_cons] at h
      obtain ⟨t, ht, h⟩ := of_bind_eq_ok h
      rcases List.mem_cons.mp ha with rfl | ha
      · exact ⟨t, ht⟩
      · exact ih h ha

/-- Nothing but the library throws in the loop. -/
theorem readArguments_eq_error {members : List (Text × Json)}
    (hnamed : root.namedMembers = some members) {rest : List CommunicationParameters}
    {r : Response} (h : readArguments root rest r = .error e) :
    ∃ what, e = .jsonLogicError what := by
  induction rest generalizing r with
  | nil => cases h
  | cons a rest ih =>
      rw [readArguments_cons, Json.memberText_of_namedMembers hnamed] at h
      obtain ⟨t, ht⟩ | ⟨what, hwhat⟩ :=
        Json.textAt_cases members (communicationParameterToStringDictionary a)
      · rw [ht] at h
        exact ih h
      · rw [hwhat] at h
        exact ⟨what, (Except.error.inj h).symm⟩

theorem readResponse_eq_error (h : readResponse commandIdentifier root = .error e) :
    ∃ what, e = .jsonLogicError what := by
  cases hnamed : root.namedMembers with
  | none =>
      obtain ⟨what, hindex⟩ := Json.index_of_namedMembers_eq_none hnamed (ascii "statusCode")
      rw [readResponse, hindex] at h
      exact ⟨what, (Except.error.inj h).symm⟩
  | some members =>
      rw [readResponse, Json.index_of_namedMembers hnamed] at h
      simp only [bind, Except.bind] at h
      cases hint : ((members.lookup (ascii "statusCode")).getD Json.null).asInt with
      | error thrown =>
          rw [hint] at h
          obtain rfl := Except.error.inj h
          exact Json.asInt_eq_error hint
      | ok n =>
          rw [hint] at h
          exact readArguments_eq_error hnamed h

/-- An object or null, with a status that converts to a number and arguments that
convert to texts. -/
theorem readResponse_eq_ok_iff :
    (∃ r, readResponse commandIdentifier root = .ok r) ↔
      ∃ members n, root.namedMembers = some members ∧
        ((members.lookup (ascii "statusCode")).getD .null).asInt = .ok n ∧
        ∀ a ∈ responseDictionary commandIdentifier,
          ∃ t, Json.textAt members (communicationParameterToStringDictionary a) = .ok t := by
  constructor
  · rintro ⟨r, hr⟩
    obtain ⟨status, hindex, hcode⟩ := of_bind_eq_ok hr
    obtain ⟨n, hint, hread⟩ := of_bind_eq_ok hcode
    cases hnamed : root.namedMembers with
    | none =>
        obtain ⟨what, hwhat⟩ := Json.index_of_namedMembers_eq_none hnamed (ascii "statusCode")
        rw [hwhat] at hindex
        cases hindex
    | some members =>
        rw [Json.index_of_namedMembers hnamed] at hindex
        obtain rfl := Except.ok.inj hindex
        refine ⟨members, n, rfl, hint, fun a ha ↦ ?_⟩
        rw [← Json.memberText_of_namedMembers hnamed]
        exact memberText_of_readArguments hread ha
  · rintro ⟨members, n, hnamed, hint, htexts⟩
    choose! texts htexts using htexts
    exact ⟨_, readResponse_eq_ok hnamed hint htexts⟩

end

section

variable {library : JsonLibrary} {commandIdentifier : CommandIdentifiers}
  {serializedResponse : Text} {root : Json}

/-- The catch clause has nothing to catch. -/
theorem deserialize_of_parse (hparse : library.parse serializedResponse = .ok (some root)) :
    deserialize library commandIdentifier serializedResponse =
      readResponse commandIdentifier root := by
  simp only [deserialize, hparse, bind, Except.bind]
  cases hread : readResponse commandIdentifier root with
  | ok r => rfl
  | error e =>
      obtain ⟨what, rfl⟩ := readResponse_eq_error hread
      rfl

theorem deserialize_eq_ok {members : List (Text × Json)} {n : ℤ}
    {texts : CommunicationParameters → Text}
    (hparse : library.parse serializedResponse = .ok (some root))
    (hnamed : root.namedMembers = some members)
    (hint : ((members.lookup (ascii "statusCode")).getD .null).asInt = .ok n)
    (htexts : ∀ a ∈ responseDictionary commandIdentifier,
      Json.textAt members (communicationParameterToStringDictionary a) = .ok (texts a)) :
    deserialize library commandIdentifier serializedResponse =
      .ok (ofTexts commandIdentifier (.ofInt n) texts) := by
  rw [deserialize_of_parse hparse]
  exact readResponse_eq_ok hnamed hint htexts

theorem getResponseArgument_ofTexts (s : Statuscode) (texts : CommunicationParameters → Text)
    {a : CommunicationParameters} (ha : a ∈ responseDictionary commandIdentifier) :
    (ofTexts commandIdentifier s texts).getResponseArgument a = .ok (texts a) := by
  have hlt := List.idxOf_lt_length_of_mem ha
  rw [getResponseArgument_of_mem ha]
  simp [value, ofTexts, Slots.read, List.getD_eq_getElem?_getD, hlt]

/-- What a reader is shown for an argument; the empty string if there is none. -/
def shown (r : Response) (argumentName : CommunicationParameters) : Text :=
  if argumentName ∈ r.availableResponseArguments then r.value argumentName else []

variable {r : Response} {s : Statuscode} {indeterminate : ℤ}

theorem asInt_members (hs : r.statusCode = some s) (hnamed : s.IsNamed) :
    (((r.members indeterminate).lookup (ascii "statusCode")).getD .null).asInt = .ok s.toInt := by
  obtain ⟨hlower, hupper⟩ := Statuscode.toInt_bounds hnamed
  have hne : ∀ a ∈ r.availableResponseArguments,
      ascii "statusCode" ≠ communicationParameterToStringDictionary a := fun a _ ↦ by
    cases a <;> decide
  rw [members, Json.lookup_assignArguments_of_ne hne, Json.lookup_assign_self, hs]
  simp [Json.asInt, hlower, hupper]

theorem textAt_members (hr : r.WellFormed) (a : CommunicationParameters) :
    Json.textAt (r.members indeterminate) (communicationParameterToStringDictionary a) =
      .ok (r.shown a) := by
  rw [Json.textAt, members, shown]
  by_cases ha : a ∈ r.availableResponseArguments
  · rw [Json.lookup_assignArguments hr.nodup hr.length ha, if_pos ha]
    rfl
  · have hother : ∀ b ∈ r.availableResponseArguments,
        communicationParameterToStringDictionary a ≠
          communicationParameterToStringDictionary b := by
      intro b hb hsame
      rw [communicationParameterToStringDictionary_injective hsame] at ha
      exact ha hb
    have hstatus : communicationParameterToStringDictionary a ≠ ascii "statusCode" := by
      cases a <;> decide
    rw [Json.lookup_assignArguments_of_ne hother, Json.lookup_assign_ne hstatus, if_neg ha]
    rfl

theorem deserialize_serialize (hr : r.WellFormed) (hs : r.statusCode = some s)
    (hnamed : s.IsNamed) (hback : library.ReadsBack (.ofMembers (r.members indeterminate))) :
    deserialize library commandIdentifier (r.serialize library indeterminate) =
      .ok (ofTexts commandIdentifier s r.shown) := by
  have htexts : ∀ a ∈ responseDictionary commandIdentifier,
      Json.textAt (r.members indeterminate) (communicationParameterToStringDictionary a) =
        .ok (r.shown a) := fun a _ ↦ textAt_members hr a
  have hread := deserialize_eq_ok hback (Json.namedMembers_ofMembers _) (asInt_members hs hnamed)
    htexts
  rwa [Statuscode.ofInt_toInt hnamed] at hread

/-- A reply is read back as it was under the command it answers. -/
theorem IsReplyTo.ofTexts_shown (h : r.IsReplyTo commandIdentifier) (hs : r.statusCode = some s) :
    ofTexts commandIdentifier s r.shown = r := by
  have hr := h.wellFormed
  have hshown : r.availableResponseArguments.map r.shown = r.responseArguments := by
    rw [← Slots.map_read hr.nodup hr.length (d := [])]
    apply List.map_congr_left
    intro a ha
    exact if_pos ha
  rw [ofTexts, ← h.available, hshown, ← hs]

end

end Response

end PublisherSubscriber
