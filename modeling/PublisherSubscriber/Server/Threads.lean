import PublisherSubscriber.Server.Process

/-!
# Connections that overlap

`startServer` accepts a connection and goes on to the next; a thread of its own
handles it and closes its descriptor.  Any number of ticks and of other
connections may come between the two.
-/

namespace PublisherSubscriber

open PointerHeap

/-- The descriptors in `clientSockets` are those of the threads that have not ended. -/
structure Threads where
  process : Process
  clientSockets : List ℕ := []
  deriving DecidableEq, Repr

inductive Turn
  /-- `startServer` returns from `accept`. -/
  | accept
  /-- The thread of a descriptor handles its connection. -/
  | handle (clientSocket : ℕ) (clientIpAddress : Text) (received : Option Text)
      (bytesSent : Text → ℤ)
  | tick

namespace Threads

section

variable (env : Environment) (library : JsonLibrary) (indeterminate topicTimeout : ℤ)

/-- The loop of `startServer` begins with the listening socket, which is the first
descriptor asked for. -/
def initial : Threads :=
  let process := Process.initial topicTimeout
  { process := { process with
      world := { process.world with os := (process.world.os.acquire env).2 } } }

/-- No thread is started without a descriptor, and none but its own handles it. -/
def turn (threads : Threads) : Turn → Except Fault (Option (Response × Text) × Threads)
  | .accept =>
      let accepted := threads.process.world.os.acquire env
      .ok (none, {
        process := { threads.process with
          world := { threads.process.world with os := accepted.2 } }
        clientSockets := accepted.1.toList ++ threads.clientSockets })
  | .handle clientSocket clientIpAddress received bytesSent =>
      if clientSocket ∈ threads.clientSockets then
        ((Server.handleApproachingClient env library indeterminate clientSocket clientIpAddress
          received bytesSent).run threads.process).map fun handled ↦
            (handled.1, ⟨handled.2, threads.clientSockets.erase clientSocket⟩)
      else .ok (none, threads)
  | .tick =>
      ((Process.occur env library indeterminate .tick).run threads.process).map fun ticked ↦
        (ticked.1, { threads with process := ticked.2 })

def system : Transition.System Threads Turn (Option (Response × Text)) Fault where
  start := initial env topicTimeout
  step threads t := threads.turn env library indeterminate t

end

end Threads

end PublisherSubscriber
