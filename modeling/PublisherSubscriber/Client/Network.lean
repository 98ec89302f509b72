import PublisherSubscriber.Client.Requests
import Mathlib.Logic.Function.Basic

/-!
# Clients around one server

A client keeps a list of the topics it subscribed to, which it updates without
looking at the reply, and its destructor unsubscribes from what is on the list.
The calls of different clients interleave at the server, one request at a time.
-/

namespace PublisherSubscriber

open PointerHeap

/-- `leaving` is set when the destructor is entered. -/
structure ClientState where
  subscribedTopics : List Text := []
  leaving : Bool := false
  dictionaries : Dictionaries := .initial

/-- The address of a client and the port its message socket is bound to. -/
structure Hosts (ι : Type) where
  address : ι → Text
  port : ι → UInt16
  injective : ∀ i j, address i = address j → port i = port j → i = j

structure Network (ι : Type) where
  server : Process
  clients : ι → ClientState

inductive Move (ι : Type)
  /-- A method is called. -/
  | call (i : ι) (op : ClientOperation)
  /-- The destructor is entered. -/
  | terminate (i : ι)
  /-- One pass of the loop in the destructor, with this topic in front. -/
  | unsubscribeFront (i : ι) (topicName : Text)
  /-- Another connection to the server, or a tick. -/
  | other (o : Occurrence)

namespace ClientState

/-- What a method does when `sendMessage` has returned. -/
def after (client : ClientState) : ClientOperation → ClientState
  | .subscribeTopic topicName =>
      { client with subscribedTopics := client.subscribedTopics ++ [topicName] }
  | .unsubscribe topicName =>
      { client with subscribedTopics := client.subscribedTopics.filter (· ≠ topicName) }
  | .publishTopic _ _ => client
  | .listTopics => client
  | .getTopicStatus _ => client

@[simp] theorem dictionaries_after (client : ClientState) (op : ClientOperation) :
    (client.after op).dictionaries = client.dictionaries := by
  cases op <;> rfl

end ClientState

/-- What `sendMessage` does with a reply, apart from showing it: a `runtime_error`
is caught, and no reply at all is logged. -/
def Client.receive (library : JsonLibrary) (commandIdentifier : CommandIdentifiers) :
    Option (Response × Text) → Except CppException Unit
  | none => .ok ()
  | some (_, responseJson) =>
      match Response.deserialize library commandIdentifier responseJson with
      | .ok _ => .ok ()
      | .error (.runtimeError _) => .ok ()
      | .error e => .error e

namespace Network

section

variable {ι : Type} [DecidableEq ι] (env : Environment) (library : JsonLibrary)
  (indeterminate topicTimeout : ℤ) (H : Hosts ι)

def withClient (n : Network ι) (i : ι) (client : ClientState) : Network ι :=
  { n with clients := Function.update n.clients i client }

/-- The method that a move runs; none after the destructor's loop, and no call
of a client that is being destroyed. -/
def operation (n : Network ι) : Move ι → Option (ι × ClientOperation)
  | .call i op => if (n.clients i).leaving then none else some (i, op)
  | .unsubscribeFront i topicName =>
      if (n.clients i).leaving ∧ (n.clients i).subscribedTopics.head? = some topicName then
        some (i, .unsubscribe topicName)
      else none
  | .terminate _ => none
  | .other _ => none

/-- The loop of the destructor is done. -/
def Left (n : Network ι) (i : ι) : Prop :=
  (n.clients i).leaving = true ∧ (n.clients i).subscribedTopics = []

instance (n : Network ι) (i : ι) : Decidable (n.Left i) := inferInstanceAs (Decidable (_ ∧ _))

/-- One method of a client; what `serialize` or the reply throws leaves it early. -/
def perform (n : Network ι) (i : ι) (op : ClientOperation) :
    Except Fault (Except CppException Unit × Network ι) :=
  let built := (Client.command (H.port i).toNat op).run (n.clients i).dictionaries
  let client := { n.clients i with dictionaries := built.2 }
  match built.1.serialize library with
  | .error e => .ok (.error e, n.withClient i client)
  | .ok message =>
      ((Process.system env library indeterminate topicTimeout).step n.server
          (.connection (H.address i) (some message) fun text ↦ text.length)).map fun served ↦
        match Client.receive library built.1.commandIdentifier served.1 with
        | .error e => (.error e, { n.withClient i client with server := served.2 })
        | .ok () => (.ok (), { n.withClient i (client.after op) with server := served.2 })

def move (n : Network ι) (m : Move ι) : Except Fault (Except CppException Unit × Network ι) :=
  match n.operation m with
  | some (i, op) => n.perform env library indeterminate topicTimeout H i op
  | none =>
      match m with
      | .terminate i => .ok (.ok (), n.withClient i { n.clients i with leaving := true })
      | .other o =>
          ((Process.system env library indeterminate topicTimeout).step n.server o).map fun served ↦
            (.ok (), { n with server := served.2 })
      | .call _ _ => .ok (.ok (), n)
      | .unsubscribeFront _ _ => .ok (.ok (), n)

def system : Transition.System (Network ι) (Move ι) (Except CppException Unit) Fault where
  start := ⟨Process.initial topicTimeout, fun _ ↦ {}⟩
  step n m := n.move env library indeterminate topicTimeout H m

end

end Network

end PublisherSubscriber
