import PublisherSubscriber.Client.Display
import PublisherSubscriber.Client.Operations
import PublisherSubscriber.Shared.Message

/-!
# What a client does with what it receives

`sendMessage` runs on the thread of the caller and handles one response, and
`handleMessages` runs on the thread of the message socket.  Both catch a
`runtime_error` and nothing else.
-/

namespace PublisherSubscriber

/-- What the system calls of one `sendMessage` come to. -/
inductive Exchange
  | noSocket
  | noConnection
  | notSent
  | noResponse
  | response (responseJson senderIp senderPort : Text)
  deriving DecidableEq, Repr

/-- The failures that no handler of the client stops. -/
def Failure.Escapes (f : Failure) : Prop := ∀ what, f ≠ .exception (.runtimeError what)

namespace Client

abbrev Logged := LogLevel × Text

/-- `catch (const runtime_error &e)`. -/
def catchRuntimeError (logged : String → Logged) : Except Failure Logged → Except Failure Logged
  | .error (.exception (.runtimeError what)) => .ok (logged what)
  | result => result

section

variable (library : JsonLibrary) (formatTimestamp : ℤ → Option Text) (indeterminate : ℤ)

/-- The try block of `sendMessage`. -/
def receiveResponse (commandIdentifier : CommandIdentifiers)
    (responseJson senderIp senderPort : Text) : Except Failure Logged :=
  catchRuntimeError
    (fun what ↦ (.error, ascii "Response cannot be parsed: " ++ ascii what))
    (((Response.deserialize library commandIdentifier responseJson).mapError .exception).bind
      fun response ↦ logResponse formatTimestamp indeterminate response senderIp senderPort)

/-- The line that is logged at the end; the command is serialized before the client connects. -/
def sendMessage (command : Command) : Exchange → Except Failure Logged
  | .noSocket => .error (.exception (.runtimeError "Server socket creation failed"))
  | .noConnection =>
      ((command.serialize library).mapError .exception).map fun _ ↦
        (.error, ascii "Error connecting to server")
  | .notSent =>
      ((command.serialize library).mapError .exception).map fun _ ↦
        (.error, ascii "Error sending data to server")
  | .noResponse =>
      ((command.serialize library).mapError .exception).map fun _ ↦
        (.error, ascii "No response from the server within 30 seconds.")
  | .response responseJson senderIp senderPort =>
      ((command.serialize library).mapError .exception).bind fun _ ↦
        receiveResponse library formatTimestamp indeterminate command.commandIdentifier
          responseJson senderIp senderPort

def printMessage (message : Message) : Except Failure Logged :=
  match formatTimestamp message.messageTimestamp with
  | none => .error .undefined
  | some formattedTimestamp =>
      .ok (.info, ascii "Topic: " ++ message.topic ++ ascii " | Message-Timestamp: " ++
        formattedTimestamp ++ ascii " | Message: " ++ message.message)

/-- The try block of `handleMessages`. -/
def receiveMessage (clientMessage : Text) : Except Failure Logged :=
  catchRuntimeError (fun what ↦ (.error, ascii what))
    (((Message.deserialize library clientMessage).mapError .exception).bind
      (printMessage formatTimestamp))

/-- The loop, with what each `recvfrom` gets; nothing if the timeout passes. -/
def handleMessages : List (Option Text) → Except Failure (List Logged)
  | [] => .ok []
  | none :: received => handleMessages received
  | some clientMessage :: received =>
      (receiveMessage library formatTimestamp clientMessage).bind fun line ↦
        (handleMessages received).map fun lines ↦ line :: lines

end

/-! ## What the handler stops -/

section

variable {logged : String → Logged} {result : Except Failure Logged}

theorem catchRuntimeError_of_escapes {f : Failure} (hf : f.Escapes) :
    catchRuntimeError logged (.error f) = .error f := by
  rcases f with ⟨what | _ | _ | _ | _⟩ | _
  · exact (hf what rfl).elim
  all_goals rfl

/-- The handler ends normally unless a failure escapes it. -/
theorem catchRuntimeError_eq_ok_iff :
    (∃ line, catchRuntimeError logged result = .ok line) ↔
      ∀ f, result = .error f → ¬ f.Escapes := by
  cases result with
  | ok line => exact iff_of_true ⟨line, rfl⟩ (by rintro f ⟨⟩)
  | error e =>
      constructor
      · rintro ⟨line, hline⟩ f ⟨⟩ he
        rw [catchRuntimeError_of_escapes he] at hline
        cases hline
      · intro h
        obtain ⟨what, hwhat⟩ := not_forall.mp (h e rfl)
        rw [not_not.mp hwhat]
        exact ⟨logged what, rfl⟩

end

end Client

end PublisherSubscriber
