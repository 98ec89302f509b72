import PublisherSubscriber.Library.Observation
import PublisherSubscriber.Server.Handlers

/-!
# The handlers do not look at the open descriptors

A handler asks for descriptors and is given them or not, and it does not matter
to it which ones are open.
-/

namespace PublisherSubscriber

open PointerHeap Observation

/-- The state but for the descriptors that are open and those that were closed. -/
def World.observed (w : World) : World :=
  { w with os := { w.os with descriptors := [], closed := [] } }

namespace World

variable {w w' : World}

/-- The state is looked at through its parts. -/
theorem observed_eq_iff : w.observed = w'.observed ↔
    w.topicTimeout = w'.topicTimeout ∧ w.topics = w'.topics ∧
      w.clientConnections = w'.clientConnections ∧ w.topicHeap = w'.topicHeap ∧
      w.connectionHeap = w'.connectionHeap ∧ w.os.readings = w'.os.readings ∧
      w.os.requested = w'.os.requested ∧ w.history = w'.history := by
  cases w
  cases w'
  simp [observed, and_assoc]

theorem topics_of_observed (h : w.observed = w'.observed) : w.topics = w'.topics :=
  (observed_eq_iff.mp h).2.1

theorem clientConnections_of_observed (h : w.observed = w'.observed) :
    w.clientConnections = w'.clientConnections := (observed_eq_iff.mp h).2.2.1

theorem topicTimeout_of_observed (h : w.observed = w'.observed) :
    w.topicTimeout = w'.topicTimeout := (observed_eq_iff.mp h).1

theorem requested_of_observed (h : w.observed = w'.observed) : w.os.requested = w'.os.requested :=
  (observed_eq_iff.mp h).2.2.2.2.2.2.1

/-- The descriptor asked for is the same, and so is the next one. -/
theorem acquire_of_observed (env : Environment) (h : w.observed = w'.observed) :
    (w.os.acquire env).1 = (w'.os.acquire env).1 ∧
      ({ w with os := (w.os.acquire env).2 } : World).observed =
        ({ w' with os := (w'.os.acquire env).2 } : World).observed := by
  have hrequested := requested_of_observed h
  simp only [observed_eq_iff] at h ⊢
  simp only [Os.acquire, hrequested]
  split_ifs <;> simp [h]

end World

section

variable {env : Environment}

/-! ## Primitives -/

theorem respects_time : Respects World.observed (time env) :=
  .part (fun w : World ↦ w.os.readings) Except.ok env.time
    (fun _ (w : World) ↦ { w with os := w.os.readTime })
    (by simp_all [World.observed_eq_iff]) (by simp_all [World.observed_eq_iff, Os.readTime])

theorem respects_socket : Respects World.observed (socket env) := by
  intro w w' h
  obtain ⟨hgiven, hnext⟩ := World.acquire_of_observed env h
  show Except.ok ((w.os.acquire env).1, _) = Except.ok ((w'.os.acquire env).1, _)
  rw [hgiven]
  exact congrArg (fun v ↦ Except.ok ((w'.os.acquire env).1, v)) hnext

theorem respects_record (e : Event) : Respects World.observed (record e) :=
  .modify (g := fun w : World ↦ { w with history := e :: w.history })
    (by simp_all [World.observed_eq_iff])

theorem respects_loadTopic (topic : Pointer) : Respects World.observed (loadTopic topic) :=
  .part World.topicHeap (·.load topic) id (fun _ w ↦ w)
    (by simp_all [World.observed_eq_iff]) fun _ _ _ h ↦ h

theorem respects_modifyTopic (topic : Pointer) (f : Topic → Topic) :
    Respects World.observed (modifyTopic topic f) :=
  .part World.topicHeap (·.modify topic f) (fun _ ↦ ()) (fun heap w ↦ { w with topicHeap := heap })
    (by simp_all [World.observed_eq_iff]) (by simp_all [World.observed_eq_iff])

theorem respects_newTopic (t : Topic) : Respects World.observed (newTopic t) :=
  .part World.topicHeap (fun heap ↦ .ok (heap.new t)) Prod.fst
    (fun r w ↦ { w with topicHeap := r.2 })
    (by simp_all [World.observed_eq_iff]) (by simp_all [World.observed_eq_iff])

theorem respects_deleteTopic (topic : Pointer) : Respects World.observed (deleteTopic topic) :=
  .part World.topicHeap (·.delete topic) (fun _ ↦ ()) (fun heap w ↦ { w with topicHeap := heap })
    (by simp_all [World.observed_eq_iff]) (by simp_all [World.observed_eq_iff])

theorem respects_loadConnection (connection : Pointer) :
    Respects World.observed (loadConnection connection) :=
  .part World.connectionHeap (·.load connection) id (fun _ w ↦ w)
    (by simp_all [World.observed_eq_iff]) fun _ _ _ h ↦ h

theorem respects_newConnection (c : ClientConnection) :
    Respects World.observed (newConnection c) :=
  .part World.connectionHeap (fun heap ↦ .ok (heap.new c)) Prod.fst
    (fun r w ↦ { w with connectionHeap := r.2 })
    (by simp_all [World.observed_eq_iff]) (by simp_all [World.observed_eq_iff])

theorem respects_deleteConnection (connection : Pointer) :
    Respects World.observed (deleteConnection connection) :=
  .part World.connectionHeap (·.delete connection) (fun _ ↦ ())
    (fun heap w ↦ { w with connectionHeap := heap })
    (by simp_all [World.observed_eq_iff]) (by simp_all [World.observed_eq_iff])

/-! ## Methods -/

namespace ClientConnection

theorem respects_getAddress (this : Pointer) : Respects World.observed (getAddress this) :=
  (respects_loadConnection this).bind fun c ↦ .pure c.address

theorem respects_getPort (this : Pointer) : Respects World.observed (getPort this) :=
  (respects_loadConnection this).bind fun c ↦ .pure c.port

theorem respects_sendMessage (this : Pointer) (topicName message : Text) (timestamp : ℤ) :
    Respects World.observed (sendMessage env this topicName message timestamp) :=
  (respects_loadConnection this).bind fun _ ↦ respects_socket.bind fun _ ↦ .pure _

end ClientConnection

namespace Topic

theorem respects_construct (name : Text) : Respects World.observed (construct env name) :=
  respects_time.bind fun _ ↦ respects_time.bind fun _ ↦ .pure _

/-- The five methods that return a field. -/
theorem respects_field {α : Type} (this : Pointer) (field : Topic → α) :
    Respects World.observed (do return field (← loadTopic this) : ServerM α) :=
  (respects_loadTopic this).bind fun t ↦ .pure (field t)

theorem respects_hasClientLoop (address : Text) (port : ℤ) (connections : List Pointer) :
    Respects World.observed (hasClientLoop address port connections) := by
  induction connections with
  | nil => exact .pure false
  | cons clientConnection rest ih =>
      refine (ClientConnection.respects_getAddress clientConnection).bind fun _ ↦
        (ClientConnection.respects_getPort clientConnection).bind fun _ ↦ ?_
      split_ifs
      · exact .pure true
      · exact ih

theorem respects_hasClient (this : Pointer) (address : Text) (port : ℤ) :
    Respects World.observed (hasClient this address port) :=
  (respects_loadTopic this).bind fun t ↦ respects_hasClientLoop address port t.subscriberList

theorem respects_publishMessage (this : Pointer) :
    Respects World.observed (publishMessage env this) := by
  refine (respects_loadTopic this).bind fun t ↦ ?_
  split_ifs
  · exact .pure []
  · exact .mapM (fun _ ↦ ClientConnection.respects_sendMessage _ _ _ _) t.subscriberList

theorem respects_setMessage (this : Pointer) (message : Text) :
    Respects World.observed (setMessage env this message) :=
  (respects_modifyTopic this _).bind fun _ ↦ respects_time.bind fun _ ↦
    (respects_modifyTopic this _).bind fun _ ↦ respects_time.bind fun _ ↦
      (respects_modifyTopic this _).bind fun _ ↦ .pure true

theorem respects_subscribe (this clientConnection : Pointer) :
    Respects World.observed (subscribe this clientConnection) := by
  refine (ClientConnection.respects_getAddress clientConnection).bind fun address ↦
    (ClientConnection.respects_getPort clientConnection).bind fun port ↦
      (respects_hasClient this address port).bind fun known ↦ ?_
  split_ifs
  · exact .pure false
  · exact (respects_modifyTopic this _).bind fun _ ↦ .pure true

theorem respects_unsubscribeLoop (this : Pointer) (connections : List Pointer) :
    Respects World.observed (unsubscribeLoop this connections) := by
  induction connections with
  | nil => exact .pure false
  | cons clientConnection rest ih =>
      refine (ClientConnection.respects_getAddress clientConnection).bind fun _ ↦
        (ClientConnection.respects_getPort clientConnection).bind fun _ ↦ ?_
      split_ifs
      · exact (respects_modifyTopic this _).bind fun _ ↦ .pure true
      · exact ih

theorem respects_unsubscribe (this clientConnection : Pointer) :
    Respects World.observed (unsubscribe this clientConnection) :=
  (respects_loadTopic this).bind fun t ↦ respects_unsubscribeLoop this t.subscriberList

end Topic

/-! ## Handlers -/

namespace Server

theorem respects_findTopic (topicName : Text) (topics : List Pointer) :
    Respects World.observed (findTopic topicName topics) := by
  induction topics with
  | nil => exact .pure none
  | cons topic rest ih =>
      refine (Topic.respects_field topic Topic.topicName).bind fun _ ↦ ?_
      split_ifs
      · exact .pure topic
      · exact ih

theorem respects_findClientConnection (ipAddress : Text) (port : ℤ) (connections : List Pointer) :
    Respects World.observed (findClientConnection ipAddress port connections) := by
  induction connections with
  | nil => exact .pure none
  | cons clientConnection rest ih =>
      refine (ClientConnection.respects_getAddress clientConnection).bind fun _ ↦
        (ClientConnection.respects_getPort clientConnection).bind fun _ ↦ ?_
      split_ifs
      · exact .pure clientConnection
      · exact ih

theorem respects_addTopic (topicName : Text) :
    Respects World.observed (addTopic env topicName) := by
  refine (Topic.respects_construct topicName).bind fun t ↦ (respects_newTopic t).bind fun topicPtr ↦
    Respects.bind (.modify ?_) fun _ ↦ (respects_record _).bind fun _ ↦ .pure topicPtr
  simp_all [World.observed_eq_iff]

theorem respects_addClientConnection (ipAddress : Text) (port : ℤ) :
    Respects World.observed (addClientConnection ipAddress port) := by
  refine (respects_newConnection _).bind fun clientConnectionPtr ↦
    Respects.bind (.modify ?_) fun _ ↦ .pure clientConnectionPtr
  simp_all [World.observed_eq_iff]

theorem respects_findOrAddTopic (topicName : Text) :
    Respects World.observed (findOrAddTopic env topicName) := by
  refine .get_bind (fun w ↦ (respects_findTopic topicName w.topics).bind fun topicPtr ↦ ?_)
    fun w w' h ↦ by simp only [World.topics_of_observed h]
  split_ifs
  · exact respects_addTopic topicName
  · exact .pure topicPtr

theorem respects_findOrAddClientConnection (ipAddress : Text) (port : ℤ) :
    Respects World.observed (findOrAddClientConnection ipAddress port) := by
  refine .get_bind (fun w ↦ (respects_findClientConnection ipAddress port w.clientConnections).bind
    fun clientConnectionPtr ↦ ?_) fun w w' h ↦ by simp only [World.clientConnections_of_observed h]
  split_ifs
  · exact respects_addClientConnection ipAddress port
  · exact .pure clientConnectionPtr

theorem respects_handleSubscribeRequest (ipAddress : Text) (port : ℤ) (topicName : Text) :
    Respects World.observed (handleSubscribeRequest env ipAddress port topicName) := by
  refine (respects_findOrAddTopic topicName).bind fun topicPtr ↦
    (respects_findOrAddClientConnection ipAddress port).bind fun clientConnectionPtr ↦
      (Topic.respects_subscribe topicPtr clientConnectionPtr).bind fun subscribed ↦ ?_
  split_ifs <;> exact .pure _

theorem respects_deleteEmptyTopic (topicPtr : Pointer) :
    Respects World.observed (deleteEmptyTopic topicPtr) := by
  refine (Topic.respects_field topicPtr Topic.subscriberList).bind fun subscribers ↦ ?_
  split_ifs
  · refine Respects.bind (.modify ?_) fun _ ↦ respects_deleteTopic topicPtr
    simp_all [World.observed_eq_iff]
  · exact .pure ()

theorem respects_isSubscribedToOtherTopic (clientConnectionPtr : Pointer) (topics : List Pointer) :
    Respects World.observed (isSubscribedToOtherTopic clientConnectionPtr topics) := by
  induction topics with
  | nil => exact .pure false
  | cons topic rest ih =>
      refine (ClientConnection.respects_getAddress clientConnectionPtr).bind fun address ↦
        (ClientConnection.respects_getPort clientConnectionPtr).bind fun port ↦
          (Topic.respects_hasClient topic address port).bind fun subscribed ↦ ?_
      split_ifs
      · exact .pure true
      · exact ih

theorem respects_deleteUnusedConnection (clientConnectionPtr : Pointer) :
    Respects World.observed (deleteUnusedConnection clientConnectionPtr) := by
  refine .get_bind (fun w ↦ (respects_isSubscribedToOtherTopic clientConnectionPtr w.topics).bind
    fun subscribed ↦ ?_) fun w w' h ↦ by simp only [World.topics_of_observed h]
  split_ifs
  · exact .pure ()
  · refine Respects.bind (.modify ?_) fun _ ↦ respects_deleteConnection clientConnectionPtr
    simp_all [World.observed_eq_iff]

theorem respects_handleUnsubscribeRequest (ipAddress : Text) (port : ℤ) (topicName : Text) :
    Respects World.observed (handleUnsubscribeRequest ipAddress port topicName) := by
  refine .get_bind (fun w ↦ (respects_findClientConnection ipAddress port w.clientConnections).bind
    fun clientConnectionPtr ↦ ?_) fun w w' h ↦ by simp only [World.clientConnections_of_observed h]
  refine .get_bind (fun w ↦ (respects_findTopic topicName w.topics).bind fun topicPtr ↦ ?_)
    fun w w' h ↦ by simp only [World.topics_of_observed h]
  split_ifs
  · exact .pure _
  · refine (Topic.respects_unsubscribe topicPtr clientConnectionPtr).bind fun unsubscribed ↦ ?_
    split_ifs
    · exact (respects_deleteEmptyTopic topicPtr).bind fun _ ↦
        (respects_deleteUnusedConnection clientConnectionPtr).bind fun _ ↦ .pure _
    · exact .pure _

theorem respects_handleListTopics : Respects World.observed handleListTopics :=
  .get_bind
    (fun w ↦ (Respects.mapM (fun topic ↦ Topic.respects_field topic Topic.topicName)
      w.topics).bind fun _ ↦ .pure _)
    fun w w' h ↦ by simp only [World.topics_of_observed h]

theorem respects_subscriberString (connection : Pointer) :
    Respects World.observed (subscriberString connection) :=
  (ClientConnection.respects_getAddress connection).bind fun _ ↦
    (ClientConnection.respects_getPort connection).bind fun _ ↦ .pure _

theorem respects_handleGetTopicStatus (topicName : Text) :
    Respects World.observed (handleGetTopicStatus topicName) := by
  refine .get_bind (fun w ↦ (respects_findTopic topicName w.topics).bind fun topicPtr ↦ ?_)
    fun w w' h ↦ by simp only [World.topics_of_observed h]
  split_ifs
  · exact .pure _
  · exact (Topic.respects_field topicPtr Topic.messageTimestamp).bind fun _ ↦
      (Topic.respects_field topicPtr Topic.subscriberList).bind fun connections ↦
        (Respects.mapM respects_subscriberString connections).bind fun _ ↦ .pure _

theorem respects_handlePublishRequest (topicName message : Text) :
    Respects World.observed (handlePublishRequest env topicName message) := by
  refine .get_bind (fun w ↦ (respects_findTopic topicName w.topics).bind fun topicPtr ↦ ?_)
    fun w w' h ↦ by simp only [World.topics_of_observed h]
  split_ifs
  · exact .pure _
  · refine (Topic.respects_setMessage topicPtr message).bind fun stored ↦ ?_
    split_ifs
    · exact (Topic.respects_field topicPtr Topic.messageTimestamp).bind fun _ ↦
        (respects_record _).bind fun _ ↦ .pure _
    · exact .pure _

theorem respects_handle (q : Request) : Respects World.observed (handle env q) := by
  cases q with
  | subscribe ipAddress port topicName =>
      exact respects_handleSubscribeRequest ipAddress port topicName
  | unsubscribe ipAddress port topicName =>
      exact respects_handleUnsubscribeRequest ipAddress port topicName
  | publish topicName message => exact respects_handlePublishRequest topicName message
  | listTopics => exact respects_handleListTopics
  | getTopicStatus topicName => exact respects_handleGetTopicStatus topicName

/-! ## The heartbeat -/

theorem respects_checkTopic (topic : Pointer) :
    Respects World.observed (checkTopic env topic) := by
  refine (Topic.respects_field topic Topic.timeoutTimestamp).bind fun timeoutTimestamp ↦
    respects_time.bind fun now ↦ ?_
  split_ifs
  · refine (Topic.respects_publishMessage topic).bind fun calls ↦ respects_time.bind fun reset ↦
      .get_bind (fun w ↦ (respects_modifyTopic topic _).bind fun _ ↦ respects_record _)
        fun w w' h ↦ ?_
    simp only [World.topicTimeout_of_observed h]
  · exact respects_record _

theorem respects_checkTopicTimeouts :
    Respects World.observed (checkTopicTimeouts env) :=
  .get_bind (fun w ↦ .forM respects_checkTopic w.topics)
    fun w w' h ↦ by simp only [World.topics_of_observed h]

end Server

end

end PublisherSubscriber
