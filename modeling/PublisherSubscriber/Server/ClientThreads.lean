import PublisherSubscriber.Broker.Service
import Mathlib.Logic.Function.Basic

/-!
# The threads of the connections

Only the handlers hold the mutex.  Between `recv`, the handler and `send` of one
connection those of any other may come, and ticks.  A text is decoded in one
step, although the tables of the decoder are outside the mutex: what two threads
make of a table that they change at the same time is not described.
-/

namespace PublisherSubscriber

open PointerHeap

/-- How far `handleApproachingClient` has come, with its local variables. -/
inductive Stage
  /-- The thread was started. -/
  | accepted
  /-- The received data has been decoded; `outcome` is the call of a handler that
  the switch is about to make, or what was thrown. -/
  | decoded (clientIpAddress receivedData : Text)
      (outcome : Except CppException (Option Request))
  /-- The handler has returned, or none is called. -/
  | answered (response : Response)

structure ClientThreads where
  process : Process
  /-- The stage of the thread of a descriptor, from its start to its end. -/
  stage : ℕ → Option Stage := fun _ ↦ none

inductive ThreadStep
  /-- `startServer` returns from `accept`. -/
  | accept
  /-- A thread returns from `recv` and decodes what it got. -/
  | receive (clientSocket : ℕ) (clientIpAddress : Text) (received : Option Text)
  /-- A thread takes the mutex, runs its handler and lets go of the mutex. -/
  | handle (clientSocket : ℕ)
  /-- A thread sends its response, closes the descriptor and ends. -/
  | send (clientSocket : ℕ) (bytesSent : Text → ℤ)
  /-- One pass of the heartbeat. -/
  | tick

namespace Server

/-- What follows in the try block and its catch when the request is known. -/
def respond (env : Environment) : Except CppException (Option Request) → ServerM Response
  | .error _ => return rejection
  | .ok none => return Response.default
  | .ok (some request) => handle env request

end Server

namespace ClientThreads

def withStage (threads : ClientThreads) (clientSocket : ℕ) (stage : Option Stage) :
    ClientThreads :=
  { threads with stage := Function.update threads.stage clientSocket stage }

section

variable (threads : ClientThreads) {clientSocket d : ℕ} {stage : Option Stage}

@[simp] theorem process_withStage :
    (threads.withStage clientSocket stage).process = threads.process := rfl

@[simp] theorem stage_withStage_self :
    (threads.withStage clientSocket stage).stage clientSocket = stage :=
  Function.update_self _ _ _

theorem stage_withStage_ne (h : d ≠ clientSocket) :
    (threads.withStage clientSocket stage).stage d = threads.stage d :=
  Function.update_of_ne h _ _

end

section

variable (env : Environment) (library : JsonLibrary) (indeterminate topicTimeout : ℤ)

def initial : ClientThreads :=
  let process := Process.initial topicTimeout
  { process := { process with
      world := { process.world with os := (process.world.os.acquire env).2 } } }

/-- The output is what was sent, and on which descriptor.  A step that the thread of
a descriptor is not about to take is none. -/
def step (threads : ClientThreads) :
    ThreadStep → Except Fault (Option (ℕ × Response × Text) × ClientThreads)
  | .accept =>
      let accepted := threads.process.world.os.acquire env
      let threads := { threads with process := { threads.process with
        world := { threads.process.world with os := accepted.2 } } }
      match accepted.1 with
      | none => .ok (none, threads)
      | some clientSocket => .ok (none, threads.withStage clientSocket (some .accepted))
  | .receive clientSocket clientIpAddress received =>
      match threads.stage clientSocket, received with
      | some .accepted, none =>
          ((Server.close clientSocket).run threads.process).map fun closed ↦
            (none, { threads with process := closed.2 }.withStage clientSocket none)
      | some .accepted, some receivedData =>
          let decoded :=
            (Command.deserialize library receivedData).run.run threads.process.dictionaries
          let threads := { threads with process := { threads.process with
            dictionaries := decoded.2 } }
          .ok (none, threads.withStage clientSocket (some (.decoded clientIpAddress receivedData
            (decoded.1.bind (Server.dispatch clientIpAddress)))))
      | _, _ => .ok (none, threads)
  | .handle clientSocket =>
      match threads.stage clientSocket with
      | some (.decoded _ _ outcome) =>
          ((Server.respond env outcome).run threads.process.world).map fun responded ↦
            (none, { threads with process := { threads.process with
              world := responded.2 } }.withStage clientSocket (some (.answered responded.1)))
      | _ => .ok (none, threads)
  | .send clientSocket bytesSent =>
      match threads.stage clientSocket with
      | some (.answered response) =>
          let serializedResponse := response.serialize library indeterminate
          if bytesSent serializedResponse ≠ serializedResponse.length then
            ((Server.close clientSocket).run threads.process).map fun closed ↦
              (some (clientSocket, response, serializedResponse),
                { threads with process := closed.2 }.withStage clientSocket none)
          else
            ((Server.close clientSocket).run threads.process).map fun closed ↦
              (some (clientSocket, response, serializedResponse),
                { threads with process := closed.2 }.withStage clientSocket none)
      | _ => .ok (none, threads)
  | .tick =>
      ((Process.occur env library indeterminate .tick).run threads.process).map fun ticked ↦
        (none, { threads with process := ticked.2 })

def system : Transition.System ClientThreads ThreadStep (Option (ℕ × Response × Text)) Fault where
  start := initial env topicTimeout
  step threads s := threads.step env library indeterminate s

end

end ClientThreads

end PublisherSubscriber
