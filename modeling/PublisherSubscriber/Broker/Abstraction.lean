import PublisherSubscriber.Broker.Invariant

/-!
# Reading the heaps

`World.view` dereferences every pointer of the server.  Under `World.Pointers`
no method faults, and what the methods compute is stated on the view.
-/

namespace PublisherSubscriber

open PointerHeap

namespace World

def endpointOf (w : World) (c : Pointer) : Endpoint :=
  ⟨(w.connectionHeap.deref c).address, (w.connectionHeap.deref c).port⟩

def viewTopic (w : World) (p : Pointer) : TopicView where
  object := p
  topicName := (w.topicHeap.deref p).topicName
  message := (w.topicHeap.deref p).message
  messageTimestamp := (w.topicHeap.deref p).messageTimestamp
  timeoutTimestamp := (w.topicHeap.deref p).timeoutTimestamp
  subscribers := (w.topicHeap.deref p).subscriberList.map w.endpointOf

def view (w : World) : Broker where
  topicTimeout := w.topicTimeout
  topics := w.topics.map w.viewTopic
  connections := w.clientConnections.map w.endpointOf
  allocated := w.topicHeap.cells.length
  os := w.os
  history := w.history

/-- The vectors hold the pointers to the objects that are not deleted, and no others,
and every subscriber is one of the registered connections. -/
structure Pointers (w : World) : Prop where
  topics_live : ∀ p ∈ w.topics, w.topicHeap.Live p
  topics_registered : ∀ p, w.topicHeap.Live p → p ∈ w.topics
  connections_live : ∀ c ∈ w.clientConnections, w.connectionHeap.Live c
  connections_registered : ∀ c, w.connectionHeap.Live c → c ∈ w.clientConnections
  subscribers_registered :
    ∀ p ∈ w.topics, ∀ c ∈ (w.topicHeap.deref p).subscriberList, c ∈ w.clientConnections

theorem Pointers.subscribers_live {w : World} (h : w.Pointers) {p : Pointer} (hp : p ∈ w.topics) :
    ∀ c ∈ (w.topicHeap.deref p).subscriberList, w.connectionHeap.Live c :=
  fun c hc ↦ h.connections_live c (h.subscribers_registered p hp c hc)

@[simp] theorem object_viewTopic (w : World) (p : Pointer) : (w.viewTopic p).object = p := rfl

theorem map_object_viewTopic (w : World) (ps : List Pointer) :
    (ps.map w.viewTopic).map TopicView.object = ps := by
  simp [Function.comp_def]

/-- Distinct registered connections are distinct endpoints. -/
theorem endpointOf_injOn {w : World} (h : w.view.Wf) {c d : Pointer}
    (hc : c ∈ w.clientConnections) (hd : d ∈ w.clientConnections)
    (hcd : w.endpointOf c = w.endpointOf d) : c = d :=
  List.inj_on_of_nodup_map h.connections_nodup hc hd hcd

end World

/-! ## What the methods return -/

section Methods

variable {w : World} {p c : Pointer}

theorem ClientConnection.run_getAddress (hc : w.connectionHeap.Live c) :
    (getAddress c).run w = .ok ((w.endpointOf c).ipAddress, w) := by
  simp [getAddress, run_loadConnection hc, World.endpointOf]

theorem ClientConnection.run_getPort (hc : w.connectionHeap.Live c) :
    (getPort c).run w = .ok ((w.endpointOf c).port, w) := by
  simp [getPort, run_loadConnection hc, World.endpointOf]

theorem ClientConnection.run_getAddress_null :
    (getAddress none).run w = .error .nullDereference := by
  simp [getAddress, run_loadConnection_null]

theorem Topic.run_getTopicName (hp : w.topicHeap.Live p) :
    (getTopicName p).run w = .ok ((w.viewTopic p).topicName, w) := by
  simp [getTopicName, run_loadTopic hp, World.viewTopic]

theorem Topic.run_getTimeoutTimestamp (hp : w.topicHeap.Live p) :
    (getTimeoutTimestamp p).run w = .ok ((w.viewTopic p).timeoutTimestamp, w) := by
  simp [getTimeoutTimestamp, run_loadTopic hp, World.viewTopic]

theorem Topic.run_getMessageTimestamp (hp : w.topicHeap.Live p) :
    (getMessageTimestamp p).run w = .ok ((w.viewTopic p).messageTimestamp, w) := by
  simp [getMessageTimestamp, run_loadTopic hp, World.viewTopic]

theorem Topic.run_getClientConnections (hp : w.topicHeap.Live p) :
    (getClientConnections p).run w = .ok ((w.topicHeap.deref p).subscriberList, w) := by
  simp [getClientConnections, run_loadTopic hp]

theorem endpoint_eq_iff (e : Endpoint) (address : Text) (port : ℤ) :
    e.ipAddress = address ∧ e.port = port ↔ e = ⟨address, port⟩ := by
  cases e
  simp

theorem Topic.run_hasClientLoop (address : Text) (port : ℤ) {cs : List Pointer}
    (hcs : ∀ c ∈ cs, w.connectionHeap.Live c) :
    (hasClientLoop address port cs).run w =
      .ok (decide (⟨address, port⟩ ∈ cs.map w.endpointOf), w) := by
  induction cs with
  | nil => rfl
  | cons c cs ih =>
      have hc := hcs c (by simp)
      have hrest := ih fun d hd ↦ hcs d (List.mem_cons_of_mem c hd)
      simp only [hasClientLoop, StateT.run_bind, ok_bind, ClientConnection.run_getAddress hc,
        ClientConnection.run_getPort hc, endpoint_eq_iff]
      by_cases hce : w.endpointOf c = ⟨address, port⟩
      · simp [hce]
      · have hne : ⟨address, port⟩ ≠ w.endpointOf c := fun h ↦ hce h.symm
        simp [hce, hrest, hne]

theorem Topic.run_hasClient (hp : w.topicHeap.Live p)
    (hcs : ∀ c ∈ (w.topicHeap.deref p).subscriberList, w.connectionHeap.Live c)
    (address : Text) (port : ℤ) :
    (hasClient p address port).run w =
      .ok (decide (⟨address, port⟩ ∈ (w.viewTopic p).subscribers), w) := by
  simp only [hasClient, StateT.run_bind, ok_bind, run_loadTopic hp]
  exact Topic.run_hasClientLoop address port hcs

/-- `Topic::subscribe` appends the connection unless its endpoint is there. -/
theorem Topic.run_subscribe (hp : w.topicHeap.Live p)
    (hcs : ∀ d ∈ (w.topicHeap.deref p).subscriberList, w.connectionHeap.Live d)
    (hc : w.connectionHeap.Live c) :
    (subscribe p c).run w =
      if w.endpointOf c ∈ (w.viewTopic p).subscribers then .ok (false, w)
      else .ok (true, w.writeTopic p { w.topicHeap.deref p with
        subscriberList := (w.topicHeap.deref p).subscriberList ++ [c] }) := by
  simp only [subscribe, StateT.run_bind, ok_bind, ClientConnection.run_getAddress hc,
    ClientConnection.run_getPort hc, Topic.run_hasClient hp hcs]
  by_cases hmem : w.endpointOf c ∈ (w.viewTopic p).subscribers
  · simp [hmem]
  · simp [hmem, run_modifyTopic hp]

/-- Whoever asks, `Topic::unsubscribe` removes the first subscriber. -/
theorem Topic.run_unsubscribe (hp : w.topicHeap.Live p) {first : Pointer} {rest : List Pointer}
    (hsub : (w.topicHeap.deref p).subscriberList = first :: rest)
    (hfirst : w.connectionHeap.Live first) (asking : Pointer) :
    (unsubscribe p asking).run w = .ok (true, w.writeTopic p { w.topicHeap.deref p with
      subscriberList := (first :: rest).filter (· ≠ first) }) := by
  simp only [unsubscribe, StateT.run_bind, ok_bind, run_loadTopic hp, hsub, unsubscribeLoop,
    ClientConnection.run_getAddress hfirst, ClientConnection.run_getPort hfirst,
    and_self, if_true]
  simp [run_modifyTopic hp, hsub]

theorem Server.run_findTopic (topicName : Text) {ps : List Pointer}
    (hps : ∀ p ∈ ps, w.topicHeap.Live p) :
    (findTopic topicName ps).run w =
      .ok (((ps.map w.viewTopic).find? fun v ↦ v.topicName = topicName).elim none
        TopicView.object, w) := by
  induction ps with
  | nil => rfl
  | cons p ps ih =>
      have hp := hps p (by simp)
      have hrest := ih fun q hq ↦ hps q (List.mem_cons_of_mem p hq)
      simp only [findTopic, StateT.run_bind, ok_bind, Topic.run_getTopicName hp]
      by_cases hname : (w.viewTopic p).topicName = topicName
      · simp [hname]
      · simp [hname, hrest]

theorem Server.run_findClientConnection (ipAddress : Text) (port : ℤ) {cs : List Pointer}
    (hcs : ∀ c ∈ cs, w.connectionHeap.Live c) :
    ∃ found, (findClientConnection ipAddress port cs).run w = .ok (found, w) ∧
      ((found ∈ cs ∧ w.endpointOf found = ⟨ipAddress, port⟩) ∨
        (found = none ∧ ⟨ipAddress, port⟩ ∉ cs.map w.endpointOf)) := by
  induction cs with
  | nil => exact ⟨none, rfl, Or.inr ⟨rfl, by simp⟩⟩
  | cons c cs ih =>
      have hc := hcs c (by simp)
      obtain ⟨found, hrun, hfound⟩ := ih fun d hd ↦ hcs d (List.mem_cons_of_mem c hd)
      simp only [findClientConnection, StateT.run_bind, ok_bind, ClientConnection.run_getAddress hc,
        ClientConnection.run_getPort hc, endpoint_eq_iff]
      by_cases hce : w.endpointOf c = ⟨ipAddress, port⟩
      · exact ⟨c, by simp [hce], Or.inl ⟨by simp, hce⟩⟩
      · refine ⟨found, by simp [hce, hrun], ?_⟩
        rcases hfound with ⟨hmem, hendpoint⟩ | ⟨hnone, hnotMem⟩
        · exact Or.inl ⟨List.mem_cons_of_mem c hmem, hendpoint⟩
        · refine Or.inr ⟨hnone, ?_⟩
          rw [List.map_cons, List.mem_cons, not_or]
          exact ⟨fun h ↦ hce h.symm, hnotMem⟩

/-- The topics are asked in order; a null client pointer is dereferenced for the
first of them. -/
theorem Server.run_isSubscribedToOtherTopic (hc : w.connectionHeap.Live c) {ps : List Pointer}
    (hps : ∀ p ∈ ps, w.topicHeap.Live p ∧
      ∀ d ∈ (w.topicHeap.deref p).subscriberList, w.connectionHeap.Live d) :
    (isSubscribedToOtherTopic c ps).run w =
      .ok (decide (∃ v ∈ ps.map w.viewTopic, w.endpointOf c ∈ v.subscribers), w) := by
  induction ps with
  | nil => rfl
  | cons p ps ih =>
      obtain ⟨hp, hcs⟩ := hps p (by simp)
      have hrest := ih fun q hq ↦ hps q (List.mem_cons_of_mem p hq)
      simp only [isSubscribedToOtherTopic, StateT.run_bind, ok_bind,
        ClientConnection.run_getAddress hc, ClientConnection.run_getPort hc,
        Topic.run_hasClient hp hcs]
      by_cases hmem : w.endpointOf c ∈ (w.viewTopic p).subscribers
      · simp [hmem]
      · simp [hmem, hrest]

theorem Server.run_isSubscribedToOtherTopic_null (q : Pointer) (ps : List Pointer) :
    (isSubscribedToOtherTopic none (q :: ps)).run w = .error .nullDereference := by
  simp only [isSubscribedToOtherTopic, StateT.run_bind, error_bind,
    ClientConnection.run_getAddress_null]

end Methods

end PublisherSubscriber
