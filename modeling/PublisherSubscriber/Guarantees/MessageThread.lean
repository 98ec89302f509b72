import PublisherSubscriber.Client.Exchange
import PublisherSubscriber.Shared.Format

/-!
# What ends the message thread

Between the datagram and the handler of the thread stand two catch clauses,
one for `invalid_argument` and one for `runtime_error`.  A timestamp that is
out of range and a value of the wrong type are neither.
-/

namespace PublisherSubscriber

/-- It returns, or a `runtime_error` is thrown. -/
def ReturnsOrRuntimeError {α : Type} (result : Except CppException α) : Prop :=
  (∃ a, result = .ok a) ∨ ∃ what, result = .error (.runtimeError what)

/-- The decoder returns or throws a `runtime_error`; no exception leaves the
loop, which logs a `runtime_error` and goes on. -/
structure SurvivesDatagram (library : JsonLibrary) (formatTimestamp : ℤ → Option Text)
    (clientMessage : Text) : Prop where
  outcome : ReturnsOrRuntimeError (Message.deserialize library clientMessage)
  contained : ∀ thrown,
    Client.receiveMessage library formatTimestamp clientMessage ≠ .error (.exception thrown)
  logged : ∀ what, Message.deserialize library clientMessage = .error (.runtimeError what) →
    Client.receiveMessage library formatTimestamp clientMessage = .ok (.error, ascii what)

/-- An object, or null, with a topic and a timestamp that convert to a text.  If a
number is read from the timestamp, it fits, and the message converts as well. -/
def Json.ReadsAsMessage (root : Json) : Prop :=
  ∃ members topic timestamp, root.namedMembers = some members ∧
    textAt members (ascii "topic") = .ok topic ∧
    textAt members (ascii "messageTimestamp") = .ok timestamp ∧
    ∀ n, strtol timestamp = some n →
      (longLongMin ≤ n ∧ n ≤ longLongMax) ∧
        ∃ message, textAt members (ascii "message") = .ok message

/-- The text is no JSON, or a value of the right types. -/
def TakesAsMessage (library : JsonLibrary) (clientMessage : Text) : Prop :=
  match library.parse clientMessage with
  | .error e => ∃ what, e = .runtimeError what
  | .ok none => True
  | .ok (some root) => root.ReadsAsMessage

/-- If a timestamp is read, it has a date, which fits the array. -/
def HasDate (library : JsonLibrary) (formatTimestamp : ℤ → Option Text) (clientMessage : Text) :
    Prop :=
  ∀ root members timestamp n, library.parse clientMessage = .ok (some root) →
    root.namedMembers = some members →
    Json.textAt members (ascii "messageTimestamp") = .ok timestamp → strtol timestamp = some n →
    formatTimestamp n ≠ none

namespace Message

/-- What the catch clause of the decoder lets through returns or is a `runtime_error`. -/
def Handled {α : Type} (result : Except CppException α) : Prop :=
  ReturnsOrRuntimeError (result.mapError caught)

theorem handled_ok {α : Type} (a : α) : Handled (.ok a) := Or.inl ⟨a, rfl⟩

theorem not_handled_logicError {α : Type} (what : String) :
    ¬ Handled (.error (.jsonLogicError what) : Except CppException α) := by
  rintro (⟨a, ha⟩ | ⟨what', hwhat⟩)
  · cases ha
  · cases hwhat

section

variable {α : Type} {members : List (Text × Json)} {key timestamp : Text}

theorem handled_textAt_bind {f : Text → Except CppException α} :
    Handled (Json.textAt members key >>= f) ↔
      ∃ t, Json.textAt members key = .ok t ∧ Handled (f t) := by
  obtain ⟨t, ht⟩ | ⟨what, hwhat⟩ := Json.textAt_cases members key
  · rw [ht]
    exact ⟨fun h ↦ ⟨t, rfl, h⟩, by rintro ⟨_, ⟨⟩, h⟩; exact h⟩
  · rw [hwhat]
    exact iff_of_false (not_handled_logicError what) (by rintro ⟨_, ⟨⟩, -⟩)

/-- A text that is no number is rejected, one that is out of range is not caught. -/
theorem handled_stoll_bind {f : ℤ → Except CppException α} :
    Handled (stoll timestamp >>= f) ↔ ∀ n, strtol timestamp = some n →
      (longLongMin ≤ n ∧ n ≤ longLongMax) ∧ Handled (f n) := by
  cases hread : strtol timestamp with
  | none =>
      rw [stoll_eq_invalidArgument hread]
      exact iff_of_true (Or.inr ⟨_, rfl⟩) (by rintro n ⟨⟩)
  | some n =>
      by_cases hrange : longLongMin ≤ n ∧ n ≤ longLongMax
      · rw [stoll_eq_ok hread hrange]
        exact ⟨by rintro h _ ⟨⟩; exact ⟨hrange, h⟩, fun h ↦ (h n rfl).2⟩
      · rw [stoll_eq_outOfRange hread hrange]
        apply iff_of_false
        · rintro (⟨a, ha⟩ | ⟨what, hwhat⟩)
          · cases ha
          · cases hwhat
        · exact fun h ↦ hrange (h n rfl).1

end

theorem handled_readMessage_iff (root : Json) :
    Handled (readMessage root) ↔ root.ReadsAsMessage := by
  rw [readMessage_eq]
  cases hnamed : root.namedMembers with
  | none =>
      obtain ⟨what, htopic⟩ := Json.memberText_of_namedMembers_eq_none hnamed (ascii "topic")
      rw [htopic]
      apply iff_of_false (not_handled_logicError what)
      rintro ⟨members, topic, timestamp, hmembers, -⟩
      rw [hnamed] at hmembers
      cases hmembers
  | some members =>
      simp only [Json.memberText_of_namedMembers hnamed, handled_textAt_bind, handled_stoll_bind,
        Json.ReadsAsMessage, hnamed, Option.some.injEq, exists_and_left, exists_eq_left']
      simp only [pure, Except.pure, handled_ok, and_true]

theorem readMessage_eq_ok_iff {root : Json} {m : Message} :
    readMessage root = .ok m ↔ ∃ members timestamp, root.namedMembers = some members ∧
      Json.textAt members (ascii "topic") = .ok m.topic ∧
      Json.textAt members (ascii "messageTimestamp") = .ok timestamp ∧
      stoll timestamp = .ok m.messageTimestamp ∧
      Json.textAt members (ascii "message") = .ok m.message := by
  rw [readMessage_eq]
  constructor
  · intro h
    obtain ⟨topic, htopic, h⟩ := of_bind_eq_ok h
    obtain ⟨timestamp, htimestamp, h⟩ := of_bind_eq_ok h
    obtain ⟨messageTimestamp, hstoll, h⟩ := of_bind_eq_ok h
    obtain ⟨message, hmessage, h⟩ := of_bind_eq_ok h
    obtain rfl := Except.ok.inj h
    cases hnamed : root.namedMembers with
    | none =>
        obtain ⟨what, hwhat⟩ := Json.memberText_of_namedMembers_eq_none hnamed (ascii "topic")
        rw [hwhat] at htopic
        cases htopic
    | some members =>
        rw [Json.memberText_of_namedMembers hnamed] at htopic htimestamp hmessage
        exact ⟨members, timestamp, rfl, htopic, htimestamp, hstoll, hmessage⟩
  · rintro ⟨members, timestamp, hnamed, htopic, htimestamp, hstoll, hmessage⟩
    simp only [Json.memberText_of_namedMembers hnamed, htopic, htimestamp, hstoll, hmessage, bind,
      Except.bind]
    rfl

theorem deserialize_eq_ok_iff {library : JsonLibrary} {clientMessage : Text} {m : Message} :
    deserialize library clientMessage = .ok m ↔
      ∃ root, library.parse clientMessage = .ok (some root) ∧ readMessage root = .ok m := by
  constructor
  · intro h
    obtain ⟨parsed, hparse, hparsed⟩ := of_bind_eq_ok h
    cases parsed with
    | none => cases hparsed
    | some root =>
        refine ⟨root, hparse, ?_⟩
        rw [deserialize_of_parse hparse] at h
        cases hread : readMessage root with
        | ok n =>
            rw [hread] at h
            exact h
        | error e =>
            rw [hread] at h
            cases h
  · rintro ⟨root, hparse, hread⟩
    rw [deserialize_of_parse hparse, hread]
    rfl

theorem returnsOrRuntimeError_deserialize_iff (library : JsonLibrary) (clientMessage : Text) :
    ReturnsOrRuntimeError (deserialize library clientMessage) ↔
      TakesAsMessage library clientMessage := by
  unfold TakesAsMessage
  cases hparse : library.parse clientMessage with
  | error e =>
      have hthrown : deserialize library clientMessage = .error e := by
        simp only [deserialize, hparse, bind, Except.bind]
      rw [hthrown]
      constructor
      · rintro (⟨m, hm⟩ | ⟨what, hwhat⟩)
        · cases hm
        · exact ⟨what, Except.error.inj hwhat⟩
      · rintro ⟨what, rfl⟩
        exact Or.inr ⟨what, rfl⟩
  | ok parsed =>
      cases parsed with
      | none =>
          have hrejected : deserialize library clientMessage =
              .error (.runtimeError "Failed to parse message JSON") := by
            simp only [deserialize, hparse, bind, Except.bind]
          exact iff_of_true (Or.inr ⟨_, hrejected⟩) trivial
      | some root =>
          rw [deserialize_of_parse hparse]
          exact handled_readMessage_iff root

end Message

namespace Client

variable {library : JsonLibrary} {formatTimestamp : ℤ → Option Text} {clientMessage : Text}

theorem receiveMessage_of_runtimeError {what : String}
    (h : Message.deserialize library clientMessage = .error (.runtimeError what)) :
    receiveMessage library formatTimestamp clientMessage = .ok (.error, ascii what) := by
  rw [receiveMessage, h]
  rfl

theorem receiveMessage_of_ok {m : Message}
    (h : Message.deserialize library clientMessage = .ok m) :
    receiveMessage library formatTimestamp clientMessage = printMessage formatTimestamp m := by
  have hbody : ((Message.deserialize library clientMessage).mapError Failure.exception).bind
      (printMessage formatTimestamp) = printMessage formatTimestamp m := by
    rw [h]
    rfl
  rw [receiveMessage, hbody, printMessage]
  cases formatTimestamp m.messageTimestamp <;> rfl

theorem receiveMessage_of_escapes {e : CppException}
    (h : Message.deserialize library clientMessage = .error e)
    (he : (Failure.exception e).Escapes) :
    receiveMessage library formatTimestamp clientMessage = .error (.exception e) := by
  rw [receiveMessage, h]
  exact catchRuntimeError_of_escapes he

/-- The thread handles the datagram if the decoder is handled and the date can be shown. -/
theorem receiveMessage_eq_ok_iff :
    (∃ line, receiveMessage library formatTimestamp clientMessage = .ok line) ↔
      ReturnsOrRuntimeError (Message.deserialize library clientMessage) ∧
        ∀ m, Message.deserialize library clientMessage = .ok m →
          formatTimestamp m.messageTimestamp ≠ none := by
  cases h : Message.deserialize library clientMessage with
  | ok m =>
      rw [receiveMessage_of_ok h, printMessage]
      cases hformat : formatTimestamp m.messageTimestamp with
      | none =>
          apply iff_of_false (by rintro ⟨_, ⟨⟩⟩)
          exact fun hall ↦ hall.2 m rfl hformat
      | some text =>
          refine iff_of_true ⟨_, rfl⟩ ⟨Or.inl ⟨m, rfl⟩, ?_⟩
          rintro _ ⟨⟩
          rw [hformat]
          exact Option.some_ne_none text
  | error e =>
      by_cases he : (Failure.exception e).Escapes
      · rw [receiveMessage_of_escapes h he]
        apply iff_of_false (by rintro ⟨_, ⟨⟩⟩)
        rintro ⟨⟨_, ⟨⟩⟩ | ⟨what, hwhat⟩, -⟩
        exact he what (congrArg Failure.exception (Except.error.inj hwhat))
      · obtain ⟨what, hwhat⟩ := not_forall.mp he
        obtain rfl := Failure.exception.inj (not_not.mp hwhat)
        rw [receiveMessage_of_runtimeError h]
        exact iff_of_true ⟨_, rfl⟩ ⟨Or.inr ⟨what, rfl⟩, by rintro _ ⟨⟩⟩

/-- The loop gets past every datagram exactly when each of them is handled. -/
theorem handleMessages_eq_ok_iff (received : List (Option Text)) :
    (∃ lines, handleMessages library formatTimestamp received = .ok lines) ↔
      ∀ text, some text ∈ received →
        ∃ line, receiveMessage library formatTimestamp text = .ok line := by
  induction received with
  | nil => simp [handleMessages]
  | cons first received ih =>
      cases first with
      | none => simpa [handleMessages] using ih
      | some text =>
          simp only [handleMessages, List.mem_cons, Option.some.injEq, forall_eq_or_imp]
          cases hline : receiveMessage library formatTimestamp text with
          | error f => simp [Except.bind]
          | ok line =>
              rw [← ih]
              cases handleMessages library formatTimestamp received <;>
                simp [Except.bind, Except.map]

end Client

section

variable {library : JsonLibrary} {formatTimestamp : ℤ → Option Text} {clientMessage : Text}

theorem survivesDatagram_of_returnsOrRuntimeError
    (h : ReturnsOrRuntimeError (Message.deserialize library clientMessage)) :
    SurvivesDatagram library formatTimestamp clientMessage := by
  refine ⟨h, fun thrown hthrown ↦ ?_, fun what ↦ Client.receiveMessage_of_runtimeError⟩
  rcases h with ⟨m, hm⟩ | ⟨what, hwhat⟩
  · rw [Client.receiveMessage_of_ok hm, Client.printMessage] at hthrown
    cases hformat : formatTimestamp m.messageTimestamp <;> simp [hformat] at hthrown
  · rw [Client.receiveMessage_of_runtimeError hwhat] at hthrown
    cases hthrown

/-- For a datagram that is taken the dates that are shown are those of its timestamp. -/
theorem hasDate_iff (htakes : TakesAsMessage library clientMessage) :
    HasDate library formatTimestamp clientMessage ↔
      ∀ m, Message.deserialize library clientMessage = .ok m →
        formatTimestamp m.messageTimestamp ≠ none := by
  constructor
  · intro hdate m hm
    obtain ⟨root, hparse, hread⟩ := Message.deserialize_eq_ok_iff.mp hm
    obtain ⟨members, timestamp, hnamed, -, htimestamp, hstoll, -⟩ :=
      Message.readMessage_eq_ok_iff.mp hread
    exact hdate root members timestamp _ hparse hnamed htimestamp (strtol_of_stoll hstoll)
  · intro hdate root members timestamp n hparse hnamed htimestamp hn
    simp only [TakesAsMessage, hparse] at htakes
    obtain ⟨members', topic, timestamp', hnamed', htopic, htimestamp', hreads⟩ := htakes
    obtain rfl := Option.some.inj (hnamed.symm.trans hnamed')
    obtain rfl := Except.ok.inj (htimestamp.symm.trans htimestamp')
    obtain ⟨hrange, message, hmessage⟩ := hreads n hn
    refine hdate ⟨topic, n, message⟩ (Message.deserialize_eq_ok_iff.mpr ⟨root, hparse, ?_⟩)
    exact Message.readMessage_eq_ok_iff.mpr
      ⟨members, timestamp, hnamed, htopic, htimestamp, stoll_eq_ok hn hrange, hmessage⟩

end

/-- No exception ends the thread exactly when the datagram is no JSON or a value
of the right types with a timestamp in range.  The loop goes on for certain if the
timestamp has a date that fits as well. -/
theorem survivesDatagram_iff (library : JsonLibrary) (formatTimestamp : ℤ → Option Text)
    (clientMessage : Text) :
    (SurvivesDatagram library formatTimestamp clientMessage ↔
      TakesAsMessage library clientMessage) ∧
    ((∃ line, Client.receiveMessage library formatTimestamp clientMessage = .ok line) ↔
      TakesAsMessage library clientMessage ∧
        HasDate library formatTimestamp clientMessage) := by
  have houtcome := Message.returnsOrRuntimeError_deserialize_iff library clientMessage
  constructor
  · refine ⟨fun h ↦ houtcome.mp h.outcome, fun h ↦ ?_⟩
    exact survivesDatagram_of_returnsOrRuntimeError (houtcome.mpr h)
  · rw [Client.receiveMessage_eq_ok_iff, houtcome]
    exact and_congr_right fun htakes ↦ (hasDate_iff htakes).symm

/-- The timestamp `2^63` is out of range for `stoll`. -/
theorem message_thread_ends_out_of_range :
    let v := Json.object [(ascii "message", .string (ascii "m")),
      (ascii "messageTimestamp", .uint 9223372036854775808), (ascii "topic", .string (ascii "t"))]
    let formatTimestamp : ℤ → Option Text := fun _ ↦ some (ascii "14.11.2023 22:13::20")
    Client.receiveMessage (.ofValues [v]) formatTimestamp v.compact =
        .error (.exception (.outOfRange "stoll")) ∧
      ¬ SurvivesDatagram (.ofValues [v]) formatTimestamp v.compact := by
  intro v formatTimestamp
  have hthrown : Client.receiveMessage (.ofValues [v]) formatTimestamp v.compact =
      .error (.exception (.outOfRange "stoll")) := by
    decide +kernel
  exact ⟨hthrown, fun h ↦ h.contained _ hthrown⟩

end PublisherSubscriber
