import PublisherSubscriber.Library.Heap
import PublisherSubscriber.Shared.Text

/-!
# The state of the server process

The two vectors of the class `Server` hold pointers into two heaps.  The clock
and the descriptors belong to the operating system: call number `n` of
`time(nullptr)` answers `env.time n`, and call number `n` of `socket` or
`accept` succeeds when `env.grants n`.  The history is written by the handlers
and the heartbeat, newest entry first, and read by none of them.
-/

namespace PublisherSubscriber

open PointerHeap

structure Environment where
  time : ℕ → ℤ
  grants : ℕ → Bool

/-- The clock may stand still but does not go back. -/
def Environment.NonDecreasing (env : Environment) : Prop :=
  ∀ ⦃m n : ℕ⦄, m ≤ n → env.time m ≤ env.time n

/-- One second from reading to reading, and a descriptor whenever one is asked for. -/
def Environment.steady : Environment := ⟨fun n ↦ n, fun _ ↦ true⟩

/-- `descriptors` are open now; `closed` lists the calls of `close`, newest first. -/
structure Os where
  readings : ℕ := 0
  requested : ℕ := 0
  descriptors : List ℕ := []
  closed : List ℕ := []
  deriving DecidableEq, Repr

namespace Os

def readTime (os : Os) : Os := { os with readings := os.readings + 1 }

/-- A fresh descriptor, or `none` for a negative result. -/
def acquire (env : Environment) (os : Os) : Option ℕ × Os :=
  if env.grants os.requested then
    (some os.requested, { os with
      requested := os.requested + 1, descriptors := os.requested :: os.descriptors })
  else (none, { os with requested := os.requested + 1 })

def close (descriptor : ℕ) (os : Os) : Os :=
  { os with
    descriptors := os.descriptors.erase descriptor
    closed := descriptor :: os.closed }

@[simp] theorem readings_readTime (os : Os) : os.readTime.readings = os.readings + 1 := rfl

@[simp] theorem readings_acquire (env : Environment) (os : Os) :
    (os.acquire env).2.readings = os.readings := by
  unfold Os.acquire
  split <;> rfl

end Os

structure ClientConnection where
  address : Text
  port : ℤ
  deriving DecidableEq, Repr, Inhabited

structure Topic where
  message : Text
  topicName : Text
  messageTimestamp : ℤ
  subscriberList : List Pointer
  timeoutTimestamp : ℤ
  deriving DecidableEq, Repr, Inhabited

/-- One call of `ClientConnection::SendMessage`.  The datagram leaves when the
call was given a `socket`. -/
structure SendMessageCall where
  address : Text
  port : ℤ
  topicName : Text
  message : Text
  timestamp : ℤ
  socket : Option ℕ
  deriving DecidableEq, Repr

inductive Event
  /-- `handleSubscribeRequest` made a new topic. -/
  | created (topic : Pointer) (topicName : Text)
  /-- `handlePublishRequest` answered success; `timestamp` is the clock value it stored. -/
  | published (topic : Pointer) (topicName message : Text) (timestamp : ℤ)
  /-- A tick compared the timeout with `now`; `reset` is the reading of the reset, if any. -/
  | checked (topic : Pointer) (now : ℤ) (calls : List SendMessageCall) (reset : Option ℤ)
  deriving DecidableEq, Repr

structure World where
  topicTimeout : ℤ
  topics : List Pointer := []
  clientConnections : List Pointer := []
  topicHeap : Heap Topic := {}
  connectionHeap : Heap ClientConnection := {}
  os : Os := {}
  history : List Event := []
  deriving DecidableEq, Repr

/-- Code that runs under the mutex: it changes the state, or ends in undefined behaviour. -/
abbrev ServerM := StateT World (Except Fault)

def time (env : Environment) : ServerM ℤ := fun w ↦
  .ok (env.time w.os.readings, { w with os := w.os.readTime })

def socket (env : Environment) : ServerM (Option ℕ) := fun w ↦
  .ok ((w.os.acquire env).1, { w with os := (w.os.acquire env).2 })

def record (e : Event) : ServerM Unit := fun w ↦
  .ok ((), { w with history := e :: w.history })

def loadTopic (topic : Pointer) : ServerM Topic := fun w ↦
  (w.topicHeap.load topic).map fun t ↦ (t, w)

def modifyTopic (topic : Pointer) (f : Topic → Topic) : ServerM Unit := fun w ↦
  (w.topicHeap.modify topic f).map fun h ↦ ((), { w with topicHeap := h })

def newTopic (t : Topic) : ServerM Pointer := fun w ↦
  .ok ((w.topicHeap.new t).1, { w with topicHeap := (w.topicHeap.new t).2 })

def deleteTopic (topic : Pointer) : ServerM Unit := fun w ↦
  (w.topicHeap.delete topic).map fun h ↦ ((), { w with topicHeap := h })

def loadConnection (connection : Pointer) : ServerM ClientConnection := fun w ↦
  (w.connectionHeap.load connection).map fun c ↦ (c, w)

def newConnection (c : ClientConnection) : ServerM Pointer := fun w ↦
  .ok ((w.connectionHeap.new c).1, { w with connectionHeap := (w.connectionHeap.new c).2 })

def deleteConnection (connection : Pointer) : ServerM Unit := fun w ↦
  (w.connectionHeap.delete connection).map fun h ↦ ((), { w with connectionHeap := h })

/-! ## Running the primitives -/

/-- The state after overwriting the topic object of `p`. -/
def World.writeTopic (w : World) (p : Pointer) (t : Topic) : World :=
  { w with topicHeap := w.topicHeap.update p t }

section Run

variable {α β : Type} {env : Environment} {w : World} {p : Pointer}

@[simp] theorem ok_bind (a : α) (f : α → Except Fault β) : (Except.ok a >>= f) = f a := rfl

@[simp] theorem error_bind (e : Fault) (f : α → Except Fault β) :
    (Except.error e >>= f) = .error e := rfl

@[simp] theorem pure_eq_ok (a : α) : (pure a : Except Fault α) = .ok a := rfl

theorem run_return (a : α) : (pure a : ServerM α).run w = .ok (a, w) := rfl

theorem run_getWorld : (get : ServerM World).run w = .ok (w, w) := rfl

@[simp] theorem run_time : (time env).run w =
    .ok (env.time w.os.readings, { w with os := w.os.readTime }) := rfl

@[simp] theorem run_socket : (socket env).run w =
    .ok ((w.os.acquire env).1, { w with os := (w.os.acquire env).2 }) := rfl

@[simp] theorem run_record (e : Event) : (record e).run w =
    .ok ((), { w with history := e :: w.history }) := rfl

@[simp] theorem run_newTopic (t : Topic) : (newTopic t).run w =
    .ok ((w.topicHeap.new t).1, { w with topicHeap := (w.topicHeap.new t).2 }) := rfl

@[simp] theorem run_newConnection (c : ClientConnection) : (newConnection c).run w =
    .ok ((w.connectionHeap.new c).1, { w with connectionHeap := (w.connectionHeap.new c).2 }) := rfl

theorem run_loadTopic (hp : w.topicHeap.Live p) :
    (loadTopic p).run w = .ok (w.topicHeap.deref p, w) := by
  simp [loadTopic, StateT.run, hp.load_eq, Except.map]

theorem run_modifyTopic (hp : w.topicHeap.Live p) (f : Topic → Topic) :
    (modifyTopic p f).run w = .ok ((), w.writeTopic p (f (w.topicHeap.deref p))) := by
  simp [modifyTopic, World.writeTopic, StateT.run, Heap.modify_of_load hp.load_eq, Except.map]

theorem run_deleteTopic (hp : w.topicHeap.Live p) :
    (deleteTopic p).run w = .ok ((), { w with topicHeap := w.topicHeap.release p }) := by
  simp [deleteTopic, StateT.run, Heap.delete_of_live hp, Except.map]

theorem run_loadConnection (hp : w.connectionHeap.Live p) :
    (loadConnection p).run w = .ok (w.connectionHeap.deref p, w) := by
  simp [loadConnection, StateT.run, hp.load_eq, Except.map]

theorem run_loadConnection_null : (loadConnection none).run w = .error .nullDereference := rfl

theorem run_deleteConnection (hp : w.connectionHeap.Live p) :
    (deleteConnection p).run w =
      .ok ((), { w with connectionHeap := w.connectionHeap.release p }) := by
  simp [deleteConnection, StateT.run, Heap.delete_of_live hp, Except.map]

@[simp] theorem run_deleteConnection_null : (deleteConnection none).run w = .ok ((), w) := rfl

end Run

end PublisherSubscriber
