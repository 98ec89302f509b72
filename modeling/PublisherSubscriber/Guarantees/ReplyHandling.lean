import PublisherSubscriber.Client.Exchange
import PublisherSubscriber.Shared.RoundTrip

/-!
# Replies that the client gets through

An argument that a reply lacks is decoded to the empty string, and only the
code that shows the reply finds out.  What it throws then is not caught.
-/

namespace PublisherSubscriber

open CommunicationParameters

/-- The conversions of `logResponse` succeed. -/
def WellFormedArgument : CommunicationParameters → Text → Prop
  | messageTimestamp, value => ∃ n, stoll value = .ok n
  | topics, value => ∃ elements, arrayStringToVectorString value = .ok elements
  | subscribers, value => ∃ elements, arrayStringToVectorString value = .ok elements
  | _, _ => True

/-- The processing of the reply ends normally; a success that is accepted has
every expected argument, and one that lacks an argument is rejected. -/
structure SurvivesReply (library : JsonLibrary) (formatTimestamp : ℤ → Option Text)
    (indeterminate : ℤ) (commandIdentifier : CommandIdentifiers)
    (responseJson senderIp senderPort : Text) : Prop where
  ends : ∃ line, Client.receiveResponse library formatTimestamp indeterminate commandIdentifier
    responseJson senderIp senderPort = .ok line
  complete : ∀ response, Response.deserialize library commandIdentifier responseJson =
      .ok response → response.statusCode = some .success →
    ∃ root, library.parse responseJson = .ok (some root) ∧
      ∀ a ∈ responseDictionary commandIdentifier,
        root.isMember (communicationParameterToStringDictionary a) = .ok true ∧
          ∃ value, response.getResponseArgument a = .ok value ∧ WellFormedArgument a value
  rejected : ∀ root status, library.parse responseJson = .ok (some root) →
    root.index (ascii "statusCode") = .ok status → status.asInt = .ok 0 →
    (∃ a ∈ responseDictionary commandIdentifier,
      root.isMember (communicationParameterToStringDictionary a) = .ok false) →
    ∃ what, Response.deserialize library commandIdentifier responseJson =
      .error (.runtimeError what)

/-- What the client can show of an argument: a timestamp in range whose date has
a text, a list with its brackets. -/
def Showable (formatTimestamp : ℤ → Option Text) : CommunicationParameters → Text → Prop
  | messageTimestamp, value => ∃ n, strtol value = some n ∧
      (longLongMin ≤ n ∧ n ≤ longLongMax) ∧ formatTimestamp n ≠ none
  | topics, value => value ≠ []
  | subscribers, value => value ≠ []
  | _, _ => True

/-- An object, or null, whose status converts to a number and whose expected
arguments convert to texts; a success has all of them, and they can be shown. -/
def Json.ReadsAsReply (formatTimestamp : ℤ → Option Text) (commandIdentifier : CommandIdentifiers)
    (root : Json) : Prop :=
  ∃ members n, root.namedMembers = some members ∧
    ((members.lookup (ascii "statusCode")).getD .null).asInt = .ok n ∧
    ∀ a ∈ responseDictionary commandIdentifier, ∃ value,
      textAt members (communicationParameterToStringDictionary a) = .ok value ∧
      (n = 0 → (members.lookup (communicationParameterToStringDictionary a)).isSome ∧
        Showable formatTimestamp a value)

/-- The text is no JSON, or a reply of the right types that is complete. -/
def TakesAsReply (library : JsonLibrary) (formatTimestamp : ℤ → Option Text)
    (commandIdentifier : CommandIdentifiers) (responseJson : Text) : Prop :=
  match library.parse responseJson with
  | .error e => ∃ what, e = .runtimeError what
  | .ok none => True
  | .ok (some root) => root.ReadsAsReply formatTimestamp commandIdentifier

namespace Client

section

variable {formatTimestamp : ℤ → Option Text} {a : CommunicationParameters} {value : Text}

theorem argumentText_of_showable (h : Showable formatTimestamp a value) :
    ∃ text, argumentText formatTimestamp a value = .ok text := by
  cases a with
  | messageTimestamp =>
      obtain ⟨n, hread, hrange, hformat⟩ := h
      obtain ⟨text, htext⟩ := Option.ne_none_iff_exists'.mp hformat
      exact ⟨_, argumentText_of_timestamp (stoll_eq_ok hread hrange) htext⟩
  | topics | subscribers =>
      obtain ⟨c, s, rfl⟩ := List.exists_cons_of_ne_nil h
      exact ⟨_, rfl⟩
  | _ => exact ⟨_, rfl⟩

/-- What cannot be shown fails past the handler. -/
theorem argumentText_of_not_showable (h : ¬ Showable formatTimestamp a value) :
    ∃ f, argumentText formatTimestamp a value = .error f ∧ f.Escapes := by
  cases a with
  | messageTimestamp =>
      cases hread : strtol value with
      | none =>
          refine ⟨_, by rw [argumentText, stoll_eq_invalidArgument hread]; rfl, ?_⟩
          rintro what ⟨⟩
      | some n =>
          by_cases hrange : longLongMin ≤ n ∧ n ≤ longLongMax
          · have hformat : formatTimestamp n = none := by
              by_contra hformat
              exact h ⟨n, hread, hrange, hformat⟩
            refine ⟨.undefined, ?_, by rintro what ⟨⟩⟩
            simp only [argumentText, stoll_eq_ok hread hrange, Except.mapError, Except.bind,
              hformat]
          · refine ⟨_, by rw [argumentText, stoll_eq_outOfRange hread hrange]; rfl, ?_⟩
            rintro what ⟨⟩
  | topics | subscribers =>
      obtain rfl := not_not.mp h
      refine ⟨_, rfl, ?_⟩
      rintro what ⟨⟩
  | _ => exact (h trivial).elim

theorem wellFormedArgument_of_showable (h : Showable formatTimestamp a value) :
    WellFormedArgument a value := by
  cases a with
  | messageTimestamp =>
      obtain ⟨n, hread, hrange, -⟩ := h
      exact ⟨n, stoll_eq_ok hread hrange⟩
  | topics | subscribers =>
      obtain ⟨c, s, rfl⟩ := List.exists_cons_of_ne_nil h
      exact ⟨_, rfl⟩
  | _ => trivial

variable {response : Response} {texts : CommunicationParameters → Text}
  {parameters : List CommunicationParameters}

theorem logArguments_of_showable
    (hvalues : ∀ a ∈ parameters, response.getResponseArgument a = .ok (texts a))
    (h : ∀ a ∈ parameters, Showable formatTimestamp a (texts a)) (logString : Text) :
    ∃ text, logArguments formatTimestamp response parameters logString = .ok text := by
  induction parameters generalizing logString with
  | nil => exact ⟨logString, rfl⟩
  | cons a parameters ih =>
      obtain ⟨hvalue, hvalues⟩ := List.forall_mem_cons.mp hvalues
      obtain ⟨ha, h⟩ := List.forall_mem_cons.mp h
      obtain ⟨text, htext⟩ := argumentText_of_showable ha
      rw [logArguments_cons hvalue htext]
      exact ih hvalues h _

theorem logArguments_of_not_showable
    (hvalues : ∀ a ∈ parameters, response.getResponseArgument a = .ok (texts a))
    (h : ¬ ∀ a ∈ parameters, Showable formatTimestamp a (texts a)) (logString : Text) :
    ∃ f, logArguments formatTimestamp response parameters logString = .error f ∧ f.Escapes := by
  induction parameters generalizing logString with
  | nil => exact (h (by simp)).elim
  | cons a parameters ih =>
      obtain ⟨hvalue, hvalues⟩ := List.forall_mem_cons.mp hvalues
      by_cases ha : Showable formatTimestamp a (texts a)
      · obtain ⟨text, htext⟩ := argumentText_of_showable ha
        rw [logArguments_cons hvalue htext]
        exact ih hvalues (fun hrest ↦ h (List.forall_mem_cons.mpr ⟨ha, hrest⟩)) _
      · obtain ⟨f, hf, hescapes⟩ := argumentText_of_not_showable ha
        refine ⟨f, ?_, hescapes⟩
        simp only [logArguments, hvalue, Except.mapError, Except.bind, hf]

end

section

variable {library : JsonLibrary} {formatTimestamp : ℤ → Option Text} {indeterminate : ℤ}
  {commandIdentifier : CommandIdentifiers} {responseJson senderIp senderPort : Text}

theorem receiveResponse_of_error {e : CppException}
    (h : Response.deserialize library commandIdentifier responseJson = .error e) :
    (∃ line, receiveResponse library formatTimestamp indeterminate commandIdentifier responseJson
      senderIp senderPort = .ok line) ↔ ∃ what, e = .runtimeError what := by
  rw [receiveResponse, h, catchRuntimeError_eq_ok_iff]
  simp [Except.mapError, Except.bind, Failure.Escapes]

theorem receiveResponse_of_ok (formatTimestamp : ℤ → Option Text) (indeterminate : ℤ)
    (senderIp senderPort : Text) {response : Response}
    (h : Response.deserialize library commandIdentifier responseJson = .ok response) :
    (∃ line, receiveResponse library formatTimestamp indeterminate commandIdentifier responseJson
      senderIp senderPort = .ok line) ↔
      ∀ f, logResponse formatTimestamp indeterminate response senderIp senderPort = .error f →
        ¬ f.Escapes := by
  rw [receiveResponse, h, catchRuntimeError_eq_ok_iff]
  rfl

/-- A response is shown if it is no success, or if all its arguments are. -/
theorem logResponse_ofTexts (n : ℤ) (texts : CommunicationParameters → Text) :
    (∀ f, logResponse formatTimestamp indeterminate
        (Response.ofTexts commandIdentifier (.ofInt n) texts) senderIp senderPort = .error f →
        ¬ f.Escapes) ↔
      (n = 0 → ∀ a ∈ responseDictionary commandIdentifier,
        Showable formatTimestamp a (texts a)) := by
  by_cases hn : n = 0
  · have hsuccess : (Response.ofTexts commandIdentifier (.ofInt n) texts).statusCode =
        some .success := congrArg some ((Statuscode.ofInt_eq_success_iff n).mpr hn)
    have hvalues : ∀ a ∈ responseDictionary commandIdentifier,
        (Response.ofTexts commandIdentifier (.ofInt n) texts).getResponseArgument a =
          .ok (texts a) := fun a ha ↦ Response.getResponseArgument_ofTexts _ texts ha
    rw [logResponse_of_success hsuccess]
    constructor
    · intro hends _
      by_contra hshowable
      obtain ⟨f, hf, hescapes⟩ := logArguments_of_not_showable hvalues hshowable
        (header indeterminate (Response.ofTexts commandIdentifier (.ofInt n) texts) senderIp
          senderPort)
      exact hends f (congrArg _ hf) hescapes
    · intro hshowable f hf
      obtain ⟨text, htext⟩ := logArguments_of_showable hvalues (hshowable hn)
        (header indeterminate (Response.ofTexts commandIdentifier (.ofInt n) texts) senderIp
          senderPort)
      have hshown := congrArg (Except.map fun text ↦ (LogLevel.info, text)) htext
      cases hf.symm.trans hshown
  · have hstatus : (Response.ofTexts commandIdentifier (.ofInt n) texts).getStatusCode
        indeterminate ≠ .success := fun h ↦ hn ((Statuscode.ofInt_eq_success_iff n).mp h)
    rw [logResponse, if_pos hstatus]
    exact iff_of_true (by rintro f ⟨⟩) fun h ↦ absurd h hn

end

end Client

section

variable {library : JsonLibrary} {formatTimestamp : ℤ → Option Text} {indeterminate : ℤ}
  {commandIdentifier : CommandIdentifiers} {responseJson senderIp senderPort : Text}

theorem survivesReply_of_error {e : CppException}
    (h : Response.deserialize library commandIdentifier responseJson = .error e)
    (hroot : ∀ root, library.parse responseJson ≠ .ok (some root)) :
    SurvivesReply library formatTimestamp indeterminate commandIdentifier responseJson senderIp
      senderPort ↔ ∃ what, e = .runtimeError what := by
  refine ⟨fun hsurvives ↦ (Client.receiveResponse_of_error h).mp hsurvives.ends, fun he ↦ ?_⟩
  refine ⟨(Client.receiveResponse_of_error h).mpr he, fun response hresponse ↦ ?_, ?_⟩
  · rw [h] at hresponse
    cases hresponse
  · exact fun root _ hparse ↦ (hroot root hparse).elim

theorem not_survivesReply_of_readResponse_eq_error {root : Json} {e : CppException}
    (hparse : library.parse responseJson = .ok (some root))
    (h : Response.readResponse commandIdentifier root = .error e) :
    ¬ SurvivesReply library formatTimestamp indeterminate commandIdentifier responseJson senderIp
      senderPort := by
  intro hsurvives
  obtain ⟨what, rfl⟩ := Response.readResponse_eq_error h
  have hthrown : Response.deserialize library commandIdentifier responseJson =
      .error (.jsonLogicError what) := by
    rw [Response.deserialize_of_parse hparse]
    exact h
  obtain ⟨what', hwhat⟩ := (Client.receiveResponse_of_error hthrown).mp hsurvives.ends
  cases hwhat

theorem Json.ReadsAsReply.readResponse {root : Json}
    (h : root.ReadsAsReply formatTimestamp commandIdentifier) :
    ∃ response, Response.readResponse commandIdentifier root = .ok response := by
  obtain ⟨members, n, hnamed, hint, harguments⟩ := h
  refine Response.readResponse_eq_ok_iff.mpr ⟨members, n, hnamed, hint, fun a ha ↦ ?_⟩
  obtain ⟨value, hvalue, -⟩ := harguments a ha
  exact ⟨value, hvalue⟩

section

variable {root : Json} {members : List (Text × Json)} {n : ℤ}
  {texts : CommunicationParameters → Text}

/-- With the right types only a success is looked at further. -/
theorem Json.readsAsReply_iff (hnamed : root.namedMembers = some members)
    (hint : ((members.lookup (ascii "statusCode")).getD .null).asInt = .ok n)
    (htexts : ∀ a ∈ responseDictionary commandIdentifier,
      Json.textAt members (communicationParameterToStringDictionary a) = .ok (texts a)) :
    root.ReadsAsReply formatTimestamp commandIdentifier ↔
      (n = 0 → ∀ a ∈ responseDictionary commandIdentifier,
        (members.lookup (communicationParameterToStringDictionary a)).isSome ∧
          Showable formatTimestamp a (texts a)) := by
  constructor
  · rintro ⟨members', n', hnamed', hint', harguments⟩ hn a ha
    obtain rfl := Option.some.inj (hnamed.symm.trans hnamed')
    obtain rfl := Except.ok.inj (hint.symm.trans hint')
    obtain ⟨value, hvalue, hshown⟩ := harguments a ha
    obtain rfl := Except.ok.inj ((htexts a ha).symm.trans hvalue)
    exact hshown hn
  · exact fun hshown ↦ ⟨members, n, hnamed, hint, fun a ha ↦
      ⟨texts a, htexts a ha, fun hn ↦ hshown hn a ha⟩⟩

theorem survivesReply_of_texts (hparse : library.parse responseJson = .ok (some root))
    (hnamed : root.namedMembers = some members)
    (hint : ((members.lookup (ascii "statusCode")).getD .null).asInt = .ok n)
    (htexts : ∀ a ∈ responseDictionary commandIdentifier,
      Json.textAt members (communicationParameterToStringDictionary a) = .ok (texts a)) :
    SurvivesReply library formatTimestamp indeterminate commandIdentifier responseJson senderIp
        senderPort ↔
      (n = 0 → ∀ a ∈ responseDictionary commandIdentifier,
        (members.lookup (communicationParameterToStringDictionary a)).isSome ∧
          Showable formatTimestamp a (texts a)) := by
  have hread := Response.deserialize_eq_ok hparse hnamed hint htexts
  have hends := (Client.receiveResponse_of_ok formatTimestamp indeterminate senderIp senderPort
    hread).trans (Client.logResponse_ofTexts n texts)
  have hsuccess := Statuscode.ofInt_eq_success_iff n
  constructor
  · intro hsurvives hn a ha
    obtain ⟨root', hparse', hmembers⟩ := hsurvives.complete _ hread
      (congrArg some (hsuccess.mpr hn))
    obtain rfl := Option.some.inj (Except.ok.inj (hparse.symm.trans hparse'))
    have hmember := (hmembers a ha).1
    rw [Json.isMember_of_namedMembers hnamed] at hmember
    exact ⟨Except.ok.inj hmember, hends.mp hsurvives.ends hn a ha⟩
  · intro hshown
    refine ⟨hends.mpr fun hn a ha ↦ (hshown hn a ha).2, fun response hresponse hstatus ↦ ?_,
      fun root' status hparse' hindex hzero hlacks ↦ ?_⟩
    · obtain rfl := Except.ok.inj (hread.symm.trans hresponse)
      have hn := hsuccess.mp (Option.some.inj hstatus)
      refine ⟨root, hparse, fun a ha ↦ ⟨?_, texts a, ?_, ?_⟩⟩
      · rw [Json.isMember_of_namedMembers hnamed, (hshown hn a ha).1]
      · exact Response.getResponseArgument_ofTexts _ texts ha
      · exact Client.wellFormedArgument_of_showable (hshown hn a ha).2
    · obtain rfl := Option.some.inj (Except.ok.inj (hparse.symm.trans hparse'))
      rw [Json.index_of_namedMembers hnamed] at hindex
      obtain rfl := Except.ok.inj hindex
      obtain rfl := Except.ok.inj (hint.symm.trans hzero)
      obtain ⟨a, ha, habsent⟩ := hlacks
      rw [Json.isMember_of_namedMembers hnamed, (hshown rfl a ha).1] at habsent
      cases habsent

end

end

/-- A reply is survived exactly when it is no JSON, or has the right types and,
as a success, every expected argument in a form that can be shown. -/
theorem survivesReply_iff (library : JsonLibrary) (formatTimestamp : ℤ → Option Text)
    (indeterminate : ℤ) (commandIdentifier : CommandIdentifiers)
    (responseJson senderIp senderPort : Text) :
    SurvivesReply library formatTimestamp indeterminate commandIdentifier responseJson senderIp
        senderPort ↔
      TakesAsReply library formatTimestamp commandIdentifier responseJson := by
  unfold TakesAsReply
  cases hparse : library.parse responseJson with
  | error e =>
      apply survivesReply_of_error
      · simp only [Response.deserialize, hparse, bind, Except.bind]
      · simp [hparse]
  | ok parsed =>
      cases parsed with
      | none =>
          refine (survivesReply_of_error (e := .runtimeError "Failed to parse JSON") ?_ ?_).trans
            (iff_of_true ⟨_, rfl⟩ trivial)
          · simp only [Response.deserialize, hparse, bind, Except.bind]
          · simp [hparse]
      | some root =>
          cases hread : Response.readResponse commandIdentifier root with
          | error e =>
              apply iff_of_false (not_survivesReply_of_readResponse_eq_error hparse hread)
              intro hreads
              obtain ⟨response, hresponse⟩ := hreads.readResponse
              cases hread.symm.trans hresponse
          | ok response =>
              obtain ⟨members, n, hnamed, hint, htexts⟩ :=
                Response.readResponse_eq_ok_iff.mp ⟨response, hread⟩
              choose! texts htexts using htexts
              exact (survivesReply_of_texts hparse hnamed hint htexts).trans
                (Json.readsAsReply_iff hnamed hint htexts).symm

/-- `stoll` of the empty string throws `invalid_argument`, when the reply to
`getTopicStatus` is a success without arguments. -/
theorem reply_without_timestamp_ends_client :
    let v := Json.object [(ascii "statusCode", .int 0)]
    let formatTimestamp : ℤ → Option Text := fun _ ↦ some (ascii "14.11.2023 22:13::20")
    Client.receiveResponse (.ofValues [v]) formatTimestamp 0 .getTopicStatus v.compact
        (ascii "127.0.0.1") (ascii "8080") = .error (.exception (.invalidArgument "stoll")) ∧
      ¬ SurvivesReply (.ofValues [v]) formatTimestamp 0 .getTopicStatus v.compact
        (ascii "127.0.0.1") (ascii "8080") := by
  intro v formatTimestamp
  have hthrown : Client.receiveResponse (.ofValues [v]) formatTimestamp 0 .getTopicStatus
      v.compact (ascii "127.0.0.1") (ascii "8080") =
        .error (.exception (.invalidArgument "stoll")) := by
    decide +kernel
  refine ⟨hthrown, fun h ↦ ?_⟩
  obtain ⟨line, hline⟩ := h.ends
  cases hthrown.symm.trans hline

end PublisherSubscriber
