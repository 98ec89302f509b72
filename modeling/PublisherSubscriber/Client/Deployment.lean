import PublisherSubscriber.Client.Exchange
import PublisherSubscriber.Client.Network
import PublisherSubscriber.Shared.Vendored

/-!
# The programs as they are deployed

Requests and replies are texts that pass through buffers of a fixed size, and
what the heartbeat sends travels by UDP: each datagram may arrive at any time,
any number of times and in any order, or never.  A client has two threads, and
a failure that leaves one of them ends both.  A connection that the server has no
descriptor for waits until there is one, which may be too late for its client.
-/

namespace PublisherSubscriber

open PointerHeap

structure Datagram where
  address : Text
  port : UInt16
  payload : Text
  deriving DecidableEq, Repr

/-- What `SendMessage` hands to `sendto`; the argument of `htons` is converted to 16 bits. -/
def SendMessageCall.datagram (library : JsonLibrary) (call : SendMessageCall) : Option Datagram :=
  call.socket.map fun _ ↦ {
    address := call.address
    port := UInt16.ofInt call.port
    payload := (⟨call.topicName, call.timestamp, call.message⟩ : Message).serialize library }

def Event.datagrams (library : JsonLibrary) : Event → List Datagram
  | .checked _ _ calls _ => calls.filterMap (·.datagram library)
  | .created _ _ => []
  | .published _ _ _ _ => []

/-- Everything that was handed to `sendto` so far. -/
def World.datagrams (library : JsonLibrary) (w : World) : List Datagram :=
  w.history.flatMap (·.datagrams library)

theorem World.exists_call {library : JsonLibrary} {w : World} {d : Datagram}
    (h : d ∈ w.datagrams library) : ∃ topic now calls reset call,
      .checked topic now calls reset ∈ w.history ∧ call ∈ calls ∧
        call.datagram library = some d := by
  obtain ⟨event, hevent, hd⟩ := List.mem_flatMap.mp h
  cases event with
  | created => exact absurd hd List.not_mem_nil
  | published => exact absurd hd List.not_mem_nil
  | checked topic now calls reset =>
      obtain ⟨call, hcall, hsent⟩ := List.mem_filterMap.mp hd
      exact ⟨topic, now, calls, reset, call, hevent, hcall, hsent⟩

/-- How a client came to an end before its destructor did. -/
inductive Ending
  /-- A text was read past the end of the buffer it was received in. -/
  | overrun
  | failure (f : Failure)
  deriving DecidableEq, Repr

/-- No handler stops what `sendMessage` throws when it gets no socket. -/
def Ending.socketFailed : Ending :=
  .failure (.exception (.runtimeError "Server socket creation failed"))

/-- `shown` is what the thread of `main` logged of the replies, and `received` what
the message thread logged of the datagrams, until the destructor has `joined` it. -/
structure ClientProcess where
  state : ClientState := {}
  shown : List Client.Logged := []
  received : List Client.Logged := []
  joined : Bool := false
  ending : Option Ending := none

/-- The system calls of `sendMessage` without which no request leaves.  Each may fail at
any time: the descriptors of a client, which it never closes, are not counted. -/
inductive SendingCall
  | socket
  | connect
  | send
  deriving DecidableEq, Repr

/-- What a failure of the call is for `sendMessage`. -/
def SendingCall.failed : SendingCall → Exchange
  | socket => .noSocket
  | connect => .noConnection
  | send => .notSent

namespace Client

/-- The address that the message socket is bound to. -/
def messageAddress : Text := ascii "127.0.0.1"

/-- The text in a zeroed buffer after `recv` or `recvfrom`; none if there is no zero in it. -/
def bufferText (arrived : Text) : Option Text :=
  let buffer := arrived.take bufferSize
  if buffer.length < bufferSize ∨ 0 ∈ buffer then some (buffer.takeWhile (· ≠ 0)) else none

/-- A text without zeros is received whole if it leaves room for one. -/
theorem bufferText_eq {s : Text} (hzero : 0 ∉ s) :
    bufferText s = if s.length < bufferSize then some s else none := by
  have htaken : 0 ∉ s.take bufferSize := fun h ↦ hzero (List.mem_of_mem_take h)
  simp only [bufferText, htaken, or_false]
  by_cases hlength : s.length < bufferSize
  · have hwhile : s.takeWhile (· ≠ 0) = s := by
      rw [List.takeWhile_eq_self_iff]
      intro c hc
      simpa using ne_of_mem_of_not_mem hc hzero
    rw [List.take_of_length_le hlength.le, if_pos hlength, if_pos hlength, hwhile]
  · rw [if_neg hlength, if_neg]
    rw [List.length_take]
    omega

end Client

/-- The `backlog` holds the connections that were refused a descriptor, and what was
sent on them. -/
structure Deployment (ι : Type) where
  server : Process
  clients : ι → ClientProcess
  backlog : List (ι × Text) := []

/-- The client whose thread of `main` makes a move. -/
def Move.client {ι : Type} : Move ι → Option ι
  | .call i _ => some i
  | .terminate i => some i
  | .unsubscribeFront i _ => some i
  | .other _ => none

inductive Happening (ι : Type)
  | move (m : Move ι)
  /-- A move of a client whose request does not leave, because this call fails.  Its
  connection, if there is one, is for the server one that brings nothing. -/
  | unsent (m : Move ι) (call : SendingCall)
  /-- The server gets to a connection of the backlog, whose client has given up. -/
  | late (i : ι) (message : Text)
  /-- A datagram arrives at the message socket of a client. -/
  | arrival (i : ι) (d : Datagram)
  /-- The destructor of a client joins the message thread. -/
  | join (i : ι)

/-- What the programs are run with. -/
structure Setting (ι : Type) where
  env : Environment
  library : JsonLibrary
  formatTimestamp : ℤ → Option Text
  indeterminate : ℤ
  topicTimeout : ℤ
  serverIp : Text
  serverPort : Text
  hosts : Hosts ι

/-- Two clients on the machine of the server, and a clock that stands still. -/
def Setting.twoClients : Setting Bool where
  env := ⟨fun _ ↦ 1700000000, fun _ ↦ true⟩
  library := .vendored fun _ ↦ none
  formatTimestamp := fun _ ↦ some (ascii "14.11.2023 22:13::20")
  indeterminate := 7
  topicTimeout := 30
  serverIp := ascii "127.0.0.1"
  serverPort := ascii "8080"
  hosts := ⟨fun _ ↦ ascii "127.0.0.1", fun i ↦ if i then 7002 else 7001, by decide⟩

namespace ClientProcess

section

variable {ι : Type} (S : Setting ι)

/-- The end of a method, after `sendMessage` has dealt with the reply. -/
def afterSending (client : ClientProcess) (op : ClientOperation) :
    Except Failure Client.Logged → ClientProcess
  | .error f => { client with ending := some (.failure f) }
  | .ok line => { client with state := client.state.after op, shown := client.shown ++ [line] }

/-- What a method makes of what `recv` got of the reply; `none` if nothing came in time. -/
def finish (client : ClientProcess) (op : ClientOperation) (command : Command) :
    Option Text → ClientProcess
  | none => client.afterSending op
      (Client.sendMessage S.library S.formatTimestamp S.indeterminate command .noResponse)
  | some arrived =>
      match Client.bufferText arrived with
      | none => { client with ending := some .overrun }
      | some responseJson => client.afterSending op
          (Client.sendMessage S.library S.formatTimestamp S.indeterminate command
            (.response responseJson S.serverIp S.serverPort))

/-- One turn of the loop of `handleMessages`. -/
def receive (client : ClientProcess) (payload : Text) : ClientProcess :=
  match Client.bufferText payload with
  | none => { client with ending := some .overrun }
  | some clientMessage =>
      match Client.receiveMessage S.library S.formatTimestamp clientMessage with
      | .error f => { client with ending := some (.failure f) }
      | .ok line => { client with received := client.received ++ [line] }

end

end ClientProcess

namespace Deployment

section

variable {ι : Type} [DecidableEq ι]

def withClient (n : Deployment ι) (i : ι) (client : ClientProcess) : Deployment ι :=
  { n with clients := Function.update n.clients i client }

@[simp] theorem clients_withClient_self (n : Deployment ι) (i : ι) (client : ClientProcess) :
    (n.withClient i client).clients i = client := Function.update_self _ _ _

theorem clients_withClient_ne (n : Deployment ι) {i j : ι} (hji : j ≠ i)
    (client : ClientProcess) : (n.withClient i client).clients j = n.clients j :=
  Function.update_of_ne hji _ _

/-- The server and the clients' threads of `main`. -/
def network (n : Deployment ι) : Network ι := ⟨n.server, fun i ↦ (n.clients i).state⟩

def Ended (n : Deployment ι) (i : ι) : Prop := (n.clients i).ending ≠ none

instance (n : Deployment ι) (i : ι) : Decidable (n.Ended i) :=
  inferInstanceAs (Decidable ((n.clients i).ending ≠ none))

variable (S : Setting ι)

/-- The server gets what its buffer holds of the request. -/
def serve (n : Deployment ι) (i : ι) (message : Text) :
    Except Fault (Option Text × Process) :=
  ((Process.system S.env S.library S.indeterminate S.topicTimeout).step n.server
    (.connection (S.hosts.address i) (Server.recv [message]) fun text ↦ text.length)).map
      fun served ↦ (served.1.map Prod.snd, served.2)

/-- A connection without a descriptor stays in the backlog, with what is sent on it. -/
def backlogAfter (n : Deployment ι) (i : ι) (message : Text) : Option Text → List (ι × Text)
  | none => (i, message) :: n.backlog
  | some _ => n.backlog

omit [DecidableEq ι] in
theorem mem_backlogAfter (n : Deployment ι) (i : ι) (message : Text) (reply : Option Text)
    (j : ι) (m : Text) (h : (j, m) ∈ n.backlogAfter i message reply) :
    (j, m) ∈ n.backlog ∨ j = i ∧ m = message := by
  cases reply with
  | none =>
      rcases List.mem_cons.mp h with hsame | h
      · exact Or.inr (Prod.mk.inj hsame)
      · exact Or.inl h
  | some _ => exact Or.inl h

/-- One method of a client. -/
def request (n : Deployment ι) (i : ι) (op : ClientOperation) : Except Fault (Deployment ι) :=
  let built := (Client.command (S.hosts.port i).toNat op).run (n.clients i).state.dictionaries
  let client := { n.clients i with
    state := { (n.clients i).state with dictionaries := built.2 } }
  match built.1.serialize S.library with
  | .error e => .ok (n.withClient i { client with ending := some (.failure (.exception e)) })
  | .ok message => (n.serve S i message).map fun served ↦
      { n.withClient i (client.finish S op built.1 served.1) with
        server := served.2
        backlog := n.backlogAfter i message served.1 }

/-- One method of a client whose request does not leave. -/
def requestUnsent (n : Deployment ι) (i : ι) (op : ClientOperation) (call : SendingCall) :
    Deployment ι :=
  let built := (Client.command (S.hosts.port i).toNat op).run (n.clients i).state.dictionaries
  let client := { n.clients i with
    state := { (n.clients i).state with dictionaries := built.2 } }
  n.withClient i (client.afterSending op (Client.sendMessage S.library S.formatTimestamp
    S.indeterminate built.1 call.failed))

/-- A connection of the backlog is served, if it gets a descriptor now; nobody reads
the reply. -/
def serveLate (n : Deployment ι) (i : ι) (message : Text) : Except Fault (Deployment ι) :=
  (n.serve S i message).map fun served ↦
    { n with
      server := served.2
      backlog := if served.1 = none then n.backlog else n.backlog.erase (i, message) }

/-- The datagram gets to the message thread of the client.  The message socket is
bound to loopback, so the client must be one that the server knows by that address. -/
def Reaches (n : Deployment ι) (i : ι) (d : Datagram) : Prop :=
  (¬ n.Ended i ∧ (n.clients i).joined = false ∧ S.hosts.address i = Client.messageAddress) ∧
    d ∈ n.server.world.datagrams S.library ∧ d.address = S.hosts.address i ∧
    d.port = S.hosts.port i

instance (n : Deployment ι) (i : ι) (d : Datagram) : Decidable (n.Reaches S i d) :=
  inferInstanceAs (Decidable ((_ ∧ _ ∧ _) ∧ _ ∧ _ ∧ _))

/-- A client that came to its end does nothing any more. -/
def happen (n : Deployment ι) : Happening ι → Except Fault (Deployment ι)
  | .move m =>
      if ∃ i ∈ m.client, n.Ended i then .ok n
      else match n.network.operation m with
      | some (i, op) => n.request S i op
      | none =>
          match m with
          | .terminate i =>
              let client := n.clients i
              .ok (n.withClient i { client with state := { client.state with leaving := true } })
          | .other o =>
              ((Process.system S.env S.library S.indeterminate S.topicTimeout).step n.server o).map
                fun served ↦ { n with server := served.2 }
          | .call _ _ => .ok n
          | .unsubscribeFront _ _ => .ok n
  | .unsent m call =>
      if ∃ i ∈ m.client, n.Ended i then .ok n
      else match n.network.operation m with
      | some (i, op) => .ok (n.requestUnsent S i op call)
      | none => .ok n
  | .late i message => if (i, message) ∈ n.backlog then n.serveLate S i message else .ok n
  | .arrival i d =>
      if n.Reaches S i d then .ok (n.withClient i ((n.clients i).receive S d.payload)) else .ok n
  | .join i =>
      if ¬ n.Ended i ∧ n.network.Left i then
        .ok (n.withClient i { n.clients i with joined := true })
      else .ok n

variable {S}

omit [DecidableEq ι] in
/-- The methods of a move are those of its client. -/
theorem client_of_operation {n : Deployment ι} {m : Move ι} {i : ι} {op : ClientOperation}
    (h : n.network.operation m = some (i, op)) : m.client = some i := by
  cases m with
  | call j op' =>
      rw [Network.operation] at h
      split_ifs at h
      exact congrArg (Option.map Prod.fst) h
  | unsubscribeFront j t =>
      rw [Network.operation] at h
      split_ifs at h
      exact congrArg (Option.map Prod.fst) h
  | terminate j => cases h
  | other o => cases h

/-- A move of a client that ended changes nothing; the others are as in the network. -/
theorem happen_move_cases {n n' : Deployment ι} {m : Move ι} (h : n.happen S (.move m) = .ok n') :
    (∃ i op, ¬ n.Ended i ∧ n.network.operation m = some (i, op) ∧
      n.request S i op = .ok n') ∨
      (∃ i, ¬ n.Ended i ∧ n' = n.withClient i { n.clients i with
        state := { (n.clients i).state with leaving := true } }) ∨
      (∃ o reply p, m = .other o ∧ (Process.system S.env S.library S.indeterminate
        S.topicTimeout).step n.server o = .ok (reply, p) ∧ n' = { n with server := p }) ∨
      n' = n := by
  unfold happen at h
  dsimp only at h
  split_ifs at h with hended
  · exact Or.inr (Or.inr (Or.inr (Except.ok.inj h).symm))
  · have hrunning : ∀ i, m.client = some i → ¬ n.Ended i := fun i hi hi' ↦ hended ⟨i, hi, hi'⟩
    cases hoperation : n.network.operation m with
    | some performed =>
        rw [hoperation] at h
        exact Or.inl ⟨performed.1, performed.2, hrunning _ (client_of_operation hoperation), rfl, h⟩
    | none =>
        rw [hoperation] at h
        cases m with
        | terminate i => exact Or.inr (Or.inl ⟨i, hrunning i rfl, (Except.ok.inj h).symm⟩)
        | other o =>
            obtain ⟨⟨reply, p⟩, hstep, hserved⟩ := of_map_eq_ok h
            exact Or.inr (Or.inr (Or.inl ⟨o, reply, p, rfl, hstep, hserved.symm⟩))
        | call i op => exact Or.inr (Or.inr (Or.inr (Except.ok.inj h).symm))
        | unsubscribeFront i t => exact Or.inr (Or.inr (Or.inr (Except.ok.inj h).symm))

/-- A request that does not leave is a matter of the client alone. -/
theorem happen_unsent_cases {n n' : Deployment ι} {m : Move ι} {call : SendingCall}
    (h : n.happen S (.unsent m call) = .ok n') :
    (∃ i op, ¬ n.Ended i ∧ n.network.operation m = some (i, op) ∧
      n' = n.requestUnsent S i op call) ∨
      n' = n := by
  unfold happen at h
  dsimp only at h
  split_ifs at h with hended
  · exact Or.inr (Except.ok.inj h).symm
  · cases hoperation : n.network.operation m with
    | some performed =>
        rw [hoperation] at h
        exact Or.inl ⟨performed.1, performed.2,
          fun hi ↦ hended ⟨_, client_of_operation hoperation, hi⟩, rfl, (Except.ok.inj h).symm⟩
    | none =>
        rw [hoperation] at h
        exact Or.inr (Except.ok.inj h).symm

theorem happen_late_cases {n n' : Deployment ι} {i : ι} {message : Text}
    (h : n.happen S (.late i message) = .ok n') :
    ((i, message) ∈ n.backlog ∧ n.serveLate S i message = .ok n') ∨ n' = n := by
  unfold happen at h
  dsimp only at h
  split_ifs at h with hmem
  · exact Or.inl ⟨hmem, h⟩
  · exact Or.inr (Except.ok.inj h).symm

/-- A datagram that gets to no message thread is lost. -/
theorem happen_arrival_cases {n n' : Deployment ι} {i : ι} {d : Datagram}
    (h : n.happen S (.arrival i d) = .ok n') :
    (n.Reaches S i d ∧ n' = n.withClient i ((n.clients i).receive S d.payload)) ∨ n' = n := by
  unfold happen at h
  dsimp only at h
  split_ifs at h with hreaches
  · exact Or.inl ⟨hreaches, (Except.ok.inj h).symm⟩
  · exact Or.inr (Except.ok.inj h).symm

theorem happen_arrival {n : Deployment ι} {i : ι} {d : Datagram} (h : n.Reaches S i d) :
    n.happen S (.arrival i d) = .ok (n.withClient i ((n.clients i).receive S d.payload)) :=
  if_pos h

theorem happen_join_cases {n n' : Deployment ι} {i : ι} (h : n.happen S (.join i) = .ok n') :
    ((¬ n.Ended i ∧ n.network.Left i) ∧
      n' = n.withClient i { n.clients i with joined := true }) ∨ n' = n := by
  unfold happen at h
  dsimp only at h
  split_ifs at h with hleft
  · exact Or.inl ⟨hleft, (Except.ok.inj h).symm⟩
  · exact Or.inr (Except.ok.inj h).symm

variable (S)

def system : Transition.System (Deployment ι) (Happening ι) Unit Fault where
  start := { server := Process.initial S.topicTimeout, clients := fun _ ↦ {} }
  step n h := (n.happen S h).map fun n' ↦ ((), n')

variable {S}

theorem happen_of_step {n n' : Deployment ι} {h : Happening ι} {o : Unit}
    (hstep : (system S).step n h = .ok (o, n')) : n.happen S h = .ok n' := by
  obtain ⟨n', hn', hsame⟩ := of_map_eq_ok hstep
  obtain rfl := congrArg Prod.snd hsame
  exact hn'

end

end Deployment

end PublisherSubscriber
