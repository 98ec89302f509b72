import PublisherSubscriber.Server.Handlers

/-!
# The broker without pointers

The same requests on values: a topic carries the endpoints of its subscribers
instead of pointers to them.  Only topics keep an identity, because the history
refers to topic objects.  The one failure left is the null dereference of an
unsubscribe from an unknown client.
-/

namespace PublisherSubscriber

open PointerHeap

structure Endpoint where
  ipAddress : Text
  port : ℤ
  deriving DecidableEq, Repr

structure TopicView where
  object : Pointer
  topicName : Text
  message : Text
  messageTimestamp : ℤ
  timeoutTimestamp : ℤ
  subscribers : List Endpoint
  deriving DecidableEq, Repr

structure Broker where
  topicTimeout : ℤ
  topics : List TopicView := []
  connections : List Endpoint := []
  /-- The number of topic objects made so far; the next one gets this identity. -/
  allocated : ℕ := 0
  os : Os := {}
  history : List Event := []
  deriving DecidableEq, Repr

namespace TopicView

def addSubscriber (e : Endpoint) (v : TopicView) : TopicView :=
  { v with subscribers := v.subscribers ++ [e] }

def dropSubscriber (v : TopicView) : TopicView := { v with subscribers := v.subscribers.tail }

def store (message : Text) (messageTimestamp timeoutTimestamp : ℤ) (v : TopicView) : TopicView :=
  { v with
    message := message
    messageTimestamp := messageTimestamp
    timeoutTimestamp := timeoutTimestamp }

def postpone (timeoutTimestamp : ℤ) (v : TopicView) : TopicView :=
  { v with timeoutTimestamp := timeoutTimestamp }

end TopicView

namespace Endpoint

/-- `address:port`, as topic statuses show an endpoint. -/
def toText (e : Endpoint) : Text := e.ipAddress ++ ascii ":" ++ to_string e.port

end Endpoint

namespace Broker

def find (b : Broker) (topicName : Text) : Option TopicView :=
  b.topics.find? fun v ↦ v.topicName = topicName

def alter (b : Broker) (object : Pointer) (f : TopicView → TopicView) : Broker :=
  { b with topics := b.topics.map fun v ↦ if v.object = object then f v else v }

def newTopic (env : Environment) (b : Broker) (topicName : Text) : TopicView where
  object := some b.allocated
  topicName := topicName
  message := []
  messageTimestamp := env.time b.os.readings
  timeoutTimestamp := env.time (b.os.readings + 1)
  subscribers := []

def addTopic (env : Environment) (b : Broker) (topicName : Text) : Broker :=
  { b with
    topics := b.topics ++ [b.newTopic env topicName]
    allocated := b.allocated + 1
    os := b.os.readTime.readTime
    history := .created (some b.allocated) topicName :: b.history }

def findOrAddTopic (env : Environment) (b : Broker) (topicName : Text) : TopicView × Broker :=
  match b.find topicName with
  | some v => (v, b)
  | none => (b.newTopic env topicName, b.addTopic env topicName)

def connect (b : Broker) (e : Endpoint) : Broker :=
  if e ∈ b.connections then b else { b with connections := b.connections ++ [e] }

def subscribe (env : Environment) (b : Broker) (e : Endpoint) (topicName : Text) :
    Response × Broker :=
  let found := b.findOrAddTopic env topicName
  let connected := found.2.connect e
  if e ∈ found.1.subscribers then
    ((Response.new .subscribe).setStatusCode .failed, connected)
  else
    ((Response.new .subscribe).setStatusCode .success,
      connected.alter found.1.object (.addSubscriber e))

/-- The topic loses its first subscriber and goes when that was the last one. -/
def dropFirst (b : Broker) (v : TopicView) : Broker :=
  if v.subscribers.tail = [] then
    { b with topics := b.topics.filter fun u ↦ u.object ≠ v.object }
  else b.alter v.object .dropSubscriber

def Subscribed (b : Broker) (e : Endpoint) : Prop := ∃ v ∈ b.topics, e ∈ v.subscribers

instance (b : Broker) (e : Endpoint) : Decidable (b.Subscribed e) :=
  inferInstanceAs (Decidable (∃ v ∈ b.topics, e ∈ v.subscribers))

/-- A known client goes when it is subscribed nowhere.  For an unknown client
the null pointer is dereferenced as soon as there is a topic to ask. -/
def releaseConnection (b : Broker) (e : Endpoint) : Except Fault Broker :=
  if e ∈ b.connections then
    .ok (if b.Subscribed e then b else { b with connections := b.connections.filter (· ≠ e) })
  else if b.topics = [] then .ok b
  else .error .nullDereference

def unsubscribe (b : Broker) (e : Endpoint) (topicName : Text) :
    Except Fault (Response × Broker) :=
  match b.find topicName with
  | none => .ok ((Response.new .unsubscribe).setStatusCode .invalidParameter, b)
  | some v =>
      ((b.dropFirst v).releaseConnection e).map fun c ↦
        ((Response.new .unsubscribe).setStatusCode .success, c)

def listTopics (b : Broker) : Response :=
  ((Response.new .listTopics).setResponseArgumentList .topics
    (b.topics.map TopicView.topicName)).2.setStatusCode .success

def topicStatus (v : TopicView) : Response :=
  (Server.setTopicStatus v.messageTimestamp (v.subscribers.map Endpoint.toText)
    (Response.new .getTopicStatus)).2.setStatusCode .success

def getTopicStatus (b : Broker) (topicName : Text) : Response :=
  match b.find topicName with
  | none => (Response.new .getTopicStatus).setStatusCode .invalidParameter
  | some v => topicStatus v

/-- The message with the first of two clock readings, the timeout with the second. -/
def storeMessage (env : Environment) (b : Broker) (v : TopicView) (message : Text) : Broker :=
  { b.alter v.object (.store message (env.time b.os.readings) (env.time (b.os.readings + 1))) with
    os := b.os.readTime.readTime
    history := .published v.object v.topicName message (env.time b.os.readings) :: b.history }

def publish (env : Environment) (b : Broker) (topicName message : Text) : Response × Broker :=
  match b.find topicName with
  | none => ((Response.new .publish).setStatusCode .invalidParameter, b)
  | some v => ((Response.new .publish).setStatusCode .success, b.storeMessage env v message)

/-- The calls of `SendMessage` for a list of endpoints. -/
def sendTo (env : Environment) (v : TopicView) : List Endpoint → Os → List SendMessageCall × Os
  | [], os => ([], os)
  | e :: rest, os =>
      let later := sendTo env v rest (os.acquire env).2
      (⟨e.ipAddress, e.port, v.topicName, v.message, v.messageTimestamp, (os.acquire env).1⟩ ::
        later.1, later.2)

def publishMessage (env : Environment) (v : TopicView) (os : Os) : List SendMessageCall × Os :=
  if v.message = [] then ([], os) else sendTo env v v.subscribers os

def checkView (env : Environment) (b : Broker) (v : TopicView) : Broker :=
  let now := env.time b.os.readings
  let os := b.os.readTime
  if v.timeoutTimestamp ≤ now then
    let sent := publishMessage env v os
    let reset := env.time sent.2.readings
    { b.alter v.object (.postpone (reset + b.topicTimeout)) with
      os := sent.2.readTime
      history := .checked v.object now sent.1 (some reset) :: b.history }
  else { b with os := os, history := .checked v.object now [] none :: b.history }

def checkTopic (env : Environment) (b : Broker) (object : Pointer) : Broker :=
  match b.topics.find? fun v ↦ v.object = object with
  | none => b
  | some v => b.checkView env v

def tick (env : Environment) (b : Broker) : Broker :=
  (b.topics.map TopicView.object).foldl (checkTopic env) b

def handle (env : Environment) (b : Broker) : Request → Except Fault (Response × Broker)
  | .subscribe ipAddress port topicName => .ok (b.subscribe env ⟨ipAddress, port⟩ topicName)
  | .unsubscribe ipAddress port topicName => b.unsubscribe ⟨ipAddress, port⟩ topicName
  | .publish topicName message => .ok (b.publish env topicName message)
  | .listTopics => .ok (b.listTopics, b)
  | .getTopicStatus topicName => .ok (b.getTopicStatus topicName, b)

def act (env : Environment) (b : Broker) : Action → Except Fault (Option Response × Broker)
  | .request r => (b.handle env r).map fun answered ↦ (some answered.1, answered.2)
  | .tick => .ok (none, b.tick env)

def system (env : Environment) (topicTimeout : ℤ) :
    Transition.System Broker Action (Option Response) Fault where
  start := { topicTimeout := topicTimeout }
  step b a := b.act env a

/-! ## What a request can do -/

variable (env : Environment) (b : Broker)

theorem findOrAddTopic_cases (topicName : Text) :
    (b.find topicName = none ∧ b.findOrAddTopic env topicName =
      (b.newTopic env topicName, b.addTopic env topicName)) ∨
    ∃ v, b.find topicName = some v ∧ b.findOrAddTopic env topicName = (v, b) := by
  cases hfind : b.find topicName with
  | none => exact Or.inl ⟨rfl, by rw [findOrAddTopic, hfind]⟩
  | some v => exact Or.inr ⟨v, rfl, by rw [findOrAddTopic, hfind]⟩

theorem connect_cases (e : Endpoint) :
    (e ∈ b.connections ∧ b.connect e = b) ∨
    (e ∉ b.connections ∧ b.connect e = { b with connections := b.connections ++ [e] }) := by
  by_cases he : e ∈ b.connections
  · exact Or.inl ⟨he, if_pos he⟩
  · exact Or.inr ⟨he, if_neg he⟩

theorem subscribe_cases (e : Endpoint) (topicName : Text) :
    (e ∈ (b.findOrAddTopic env topicName).1.subscribers ∧ b.subscribe env e topicName =
      ((Response.new .subscribe).setStatusCode .failed,
        (b.findOrAddTopic env topicName).2.connect e)) ∨
    (e ∉ (b.findOrAddTopic env topicName).1.subscribers ∧ b.subscribe env e topicName =
      ((Response.new .subscribe).setStatusCode .success,
        ((b.findOrAddTopic env topicName).2.connect e).alter
          (b.findOrAddTopic env topicName).1.object (.addSubscriber e))) := by
  by_cases he : e ∈ (b.findOrAddTopic env topicName).1.subscribers
  · exact Or.inl ⟨he, if_pos he⟩
  · exact Or.inr ⟨he, if_neg he⟩

theorem dropFirst_cases (v : TopicView) :
    (v.subscribers.tail = [] ∧
      b.dropFirst v = { b with topics := b.topics.filter fun u ↦ u.object ≠ v.object }) ∨
    (v.subscribers.tail ≠ [] ∧ b.dropFirst v = b.alter v.object .dropSubscriber) := by
  by_cases htail : v.subscribers.tail = []
  · exact Or.inl ⟨htail, if_pos htail⟩
  · exact Or.inr ⟨htail, if_neg htail⟩

theorem publish_cases (topicName message : Text) :
    (b.find topicName = none ∧ b.publish env topicName message =
      ((Response.new .publish).setStatusCode .invalidParameter, b)) ∨
    ∃ v, b.find topicName = some v ∧ b.publish env topicName message =
      ((Response.new .publish).setStatusCode .success, b.storeMessage env v message) := by
  cases hfind : b.find topicName with
  | none => exact Or.inl ⟨rfl, by rw [publish, hfind]⟩
  | some v => exact Or.inr ⟨v, rfl, by rw [publish, hfind]⟩

variable {b} {c : Broker} {e : Endpoint}

/-- A connection goes only when it is known and subscribed nowhere. -/
theorem releaseConnection_cases (h : b.releaseConnection e = .ok c) :
    (c = b ∧ (e ∈ b.connections → b.Subscribed e)) ∨
    (¬ b.Subscribed e ∧ c = { b with connections := b.connections.filter (· ≠ e) }) := by
  by_cases hknown : e ∈ b.connections
  · rw [releaseConnection, if_pos hknown, Except.ok.injEq] at h
    by_cases hsub : b.Subscribed e
    · rw [if_pos hsub] at h
      exact Or.inl ⟨h.symm, fun _ ↦ hsub⟩
    · rw [if_neg hsub] at h
      exact Or.inr ⟨hsub, h.symm⟩
  · rw [releaseConnection, if_neg hknown] at h
    by_cases hnil : b.topics = []
    · rw [if_pos hnil, Except.ok.injEq] at h
      exact Or.inl ⟨h.symm, fun he ↦ (hknown he).elim⟩
    · rw [if_neg hnil] at h
      cases h

theorem unsubscribe_cases {topicName : Text} {r : Response}
    (h : b.unsubscribe e topicName = .ok (r, c)) :
    (b.find topicName = none ∧ c = b ∧
      r = (Response.new .unsubscribe).setStatusCode .invalidParameter) ∨
    ∃ v, b.find topicName = some v ∧ (b.dropFirst v).releaseConnection e = .ok c ∧
      r = (Response.new .unsubscribe).setStatusCode .success := by
  cases hfind : b.find topicName with
  | none =>
      rw [unsubscribe, hfind] at h
      obtain ⟨rfl, rfl⟩ := Prod.mk.inj (Except.ok.inj h)
      exact Or.inl ⟨rfl, rfl, rfl⟩
  | some v =>
      rw [unsubscribe, hfind] at h
      obtain ⟨d, hrelease, hanswer⟩ := of_map_eq_ok h
      obtain ⟨rfl, rfl⟩ := Prod.mk.inj hanswer
      exact Or.inr ⟨v, rfl, hrelease, rfl⟩

/-! ## What a tick can do -/

theorem publishMessage_cases (v : TopicView) (os : Os) :
    (v.message = [] ∧ publishMessage env v os = ([], os)) ∨
    (v.message ≠ [] ∧ publishMessage env v os = sendTo env v v.subscribers os) := by
  by_cases hmessage : v.message = []
  · exact Or.inl ⟨hmessage, if_pos hmessage⟩
  · exact Or.inr ⟨hmessage, if_neg hmessage⟩

/-- A topic that is due is sent and postponed; one that is not is left alone. -/
theorem checkView_cases (b : Broker) (v : TopicView) :
    (v.timeoutTimestamp ≤ env.time b.os.readings ∧ ∃ os history,
      os = (publishMessage env v b.os.readTime).2.readTime ∧ b.checkView env v =
        { b.alter v.object (.postpone (env.time
            (publishMessage env v b.os.readTime).2.readings + b.topicTimeout)) with
          os := os, history := history }) ∨
    (env.time b.os.readings < v.timeoutTimestamp ∧ ∃ history,
      b.checkView env v = { b with os := b.os.readTime, history := history }) := by
  by_cases hdue : v.timeoutTimestamp ≤ env.time b.os.readings
  · exact Or.inl ⟨hdue, _, _, rfl, if_pos hdue⟩
  · exact Or.inr ⟨by omega, _, if_neg hdue⟩

theorem checkTopic_cases (b : Broker) (object : Pointer) :
    b.checkTopic env object = b ∨
    ∃ v ∈ b.topics, v.object = object ∧ b.checkTopic env object = b.checkView env v := by
  cases hfind : b.topics.find? fun v ↦ v.object = object with
  | none => exact Or.inl (by rw [checkTopic, hfind])
  | some v =>
      have hobject : v.object = object := by simpa using List.find?_some hfind
      exact Or.inr ⟨v, List.mem_of_find?_eq_some hfind, hobject, by rw [checkTopic, hfind]⟩

/-- What every check keeps, a tick keeps. -/
theorem tick_induction {P : Broker → Prop} (hcheck : ∀ c object, P c → P (c.checkTopic env object))
    (hb : P b) : P (b.tick env) := by
  have hchecks : ∀ (objects : List Pointer) (c : Broker), P c →
      P (objects.foldl (checkTopic env) c) := by
    intro objects
    induction objects with
    | nil => exact fun c hc ↦ hc
    | cons object objects ih => exact fun c hc ↦ ih _ (hcheck c object hc)
  exact hchecks _ b hb

end Broker

end PublisherSubscriber
