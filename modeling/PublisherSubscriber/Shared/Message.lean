import PublisherSubscriber.Shared.Json

/-!
# Messages

What the server sends to a subscriber in one datagram.
-/

namespace PublisherSubscriber

structure Message where
  topic : Text
  messageTimestamp : ℤ
  message : Text
  deriving DecidableEq, Repr

namespace Message

/-- The value that is written; the timestamp is cast to `uint64_t`. -/
def toJson (m : Message) : Json :=
  .ofMembers (Json.assign (ascii "message") (.string m.message)
    (Json.assign (ascii "messageTimestamp") (.uint (UInt64.ofInt m.messageTimestamp).toNat)
      (Json.assign (ascii "topic") (.string m.topic) [])))

def serialize (library : JsonLibrary) (m : Message) : Text := library.writeString m.toJson

/-- The members are read in this order, so the first that fails decides. -/
def readMessage (root : Json) : Except CppException Message := do
  let topic ← (← root.index (ascii "topic")).asString
  let messageTimestamp ← stoll (← (← root.index (ascii "messageTimestamp")).asString)
  let message ← (← root.index (ascii "message")).asString
  return ⟨topic, messageTimestamp, message⟩

/-- Of what the try block throws only an `invalid_argument` is caught. -/
def deserialize (library : JsonLibrary) (serializedMessage : Text) :
    Except CppException Message := do
  match ← library.parse serializedMessage with
  | none => .error (.runtimeError "Failed to parse message JSON")
  | some root =>
      match readMessage root with
      | .error (.invalidArgument _) =>
          .error (.runtimeError "Invalid or missing arguments in message JSON")
      | result => result

/-- The members are only used as texts. -/
theorem readMessage_eq (root : Json) :
    readMessage root = (do
      let topic ← root.memberText (ascii "topic")
      let messageTimestamp ← stoll (← root.memberText (ascii "messageTimestamp"))
      let message ← root.memberText (ascii "message")
      return ⟨topic, messageTimestamp, message⟩) := by
  simp only [readMessage, Json.memberText, bind_assoc]

/-- What the catch clause makes of an exception. -/
def caught : CppException → CppException
  | .invalidArgument _ => .runtimeError "Invalid or missing arguments in message JSON"
  | e => e

theorem deserialize_of_parse {library : JsonLibrary} {serializedMessage : Text} {root : Json}
    (hparse : library.parse serializedMessage = .ok (some root)) :
    deserialize library serializedMessage = (readMessage root).mapError caught := by
  simp only [deserialize, hparse, bind, Except.bind]
  cases readMessage root with
  | ok m => rfl
  | error e => cases e <;> rfl

end Message

end PublisherSubscriber
