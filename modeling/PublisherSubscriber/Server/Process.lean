import PublisherSubscriber.Server.Handlers
import PublisherSubscriber.Shared.Command

/-!
# From a received text to a reply

A connection is one step: what `recv` delivered is decoded, dispatched to at
most one handler, and answered; the accepted descriptor is closed on every
path.  Whatever the decoder throws is caught and answered as an internal error.
-/

namespace PublisherSubscriber

open PointerHeap

structure Process where
  world : World
  dictionaries : Dictionaries
  deriving DecidableEq, Repr

abbrev ProcessM := StateT Process (Except Fault)

namespace Server

/-- The cases of the switch.  The case of publish falls through to the default
case, which leaves the response as it is. -/
def dispatch (clientIpAddress : Text) (command : Command) :
    Except CppException (Option Request) := do
  match command.commandIdentifier with
  | .subscribe =>
      let clientPort ← stoi (← command.getCommandArgument .clientPort)
      return some (.subscribe clientIpAddress clientPort (← command.getCommandArgument .topicName))
  | .unsubscribe =>
      let clientPort ← stoi (← command.getCommandArgument .clientPort)
      return some (.unsubscribe clientIpAddress clientPort
        (← command.getCommandArgument .topicName))
  | .listTopics => return some .listTopics
  | .getTopicStatus => return some (.getTopicStatus (← command.getCommandArgument .topicName))
  | .publish =>
      return some (.publish (← command.getCommandArgument .topicName)
        (← command.getCommandArgument .message))
  | .unnamed _ => return none

/-- The response built in the catch block. -/
def rejection : Response := Response.default.setStatusCode .internalError

/-- The try block and its catch. -/
def answer (env : Environment) (library : JsonLibrary) (clientIpAddress receivedData : Text) :
    ProcessM Response := fun process ↦
  let decoded := (Command.deserialize library receivedData).run.run process.dictionaries
  match decoded.1.bind (dispatch clientIpAddress) with
  | .error _ => .ok (rejection, { process with dictionaries := decoded.2 })
  | .ok none => .ok (Response.default, { process with dictionaries := decoded.2 })
  | .ok (some request) =>
      ((handle env request).run process.world).map fun answered ↦
        (answered.1, { world := answered.2, dictionaries := decoded.2 })

def close (descriptor : ℕ) : ProcessM Unit :=
  modify fun process ↦ { process with
    world := { process.world with os := process.world.os.close descriptor } }

/-- One call of `recv` on a stream that arrives in these segments: what the buffer
holds of the first, and nothing of the others. -/
def recv : List Text → Option Text
  | [] => none
  | segment :: _ => some (segment.take bufferSize)

/-- `received` is what `recv` delivered, if anything, and `bytesSent` what `send`
returns for a text.  The result is the response and the text it was sent as. -/
def handleApproachingClient (env : Environment) (library : JsonLibrary) (indeterminate : ℤ)
    (clientSocket : ℕ) (clientIpAddress : Text) (received : Option Text) (bytesSent : Text → ℤ) :
    ProcessM (Option (Response × Text)) := do
  match received with
  | none =>
      close clientSocket
      return none
  | some receivedData =>
      let response ← answer env library clientIpAddress receivedData
      let serializedResponse := response.serialize library indeterminate
      if bytesSent serializedResponse ≠ serializedResponse.length then
        close clientSocket
        return some (response, serializedResponse)
      else
        close clientSocket
        return some (response, serializedResponse)

/-- One turn of the loop of `startServer`: no thread is started without a descriptor. -/
def acceptClient (env : Environment) (library : JsonLibrary) (indeterminate : ℤ)
    (clientIpAddress : Text) (received : Option Text) (bytesSent : Text → ℤ) :
    ProcessM (Option (Response × Text)) := do
  let process ← get
  let accepted := process.world.os.acquire env
  set { process with world := { process.world with os := accepted.2 } }
  match accepted.1 with
  | none => return none
  | some clientSocket =>
      handleApproachingClient env library indeterminate clientSocket clientIpAddress received
        bytesSent

end Server

/-- A client that connects, or a tick of the heartbeat. -/
inductive Occurrence
  | connection (clientIpAddress : Text) (received : Option Text) (bytesSent : Text → ℤ)
  | tick

namespace Process

def initial (topicTimeout : ℤ) : Process := ⟨Server.initial topicTimeout, .initial⟩

def occur (env : Environment) (library : JsonLibrary) (indeterminate : ℤ) :
    Occurrence → ProcessM (Option (Response × Text))
  | .connection clientIpAddress received bytesSent =>
      Server.acceptClient env library indeterminate clientIpAddress received bytesSent
  | .tick => fun process ↦
      ((Server.checkTopicTimeouts env).run process.world).map fun ticked ↦
        (none, { process with world := ticked.2 })

/-- The server as its clients see it. -/
def system (env : Environment) (library : JsonLibrary) (indeterminate : ℤ) (topicTimeout : ℤ) :
    Transition.System Process Occurrence (Option (Response × Text)) Fault where
  start := initial topicTimeout
  step process o := (occur env library indeterminate o).run process

end Process

end PublisherSubscriber
