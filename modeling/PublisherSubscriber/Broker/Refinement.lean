import PublisherSubscriber.Broker.Changes
import PublisherSubscriber.Broker.Simulation

/-!
# The server refines the broker

The remaining handlers and the heartbeat, and the abstraction from the server
to the broker that all of them make up.
-/

namespace PublisherSubscriber

open PointerHeap

namespace Server

/-! ## Listing and status -/

section Queries

variable {w : World}

theorem run_mapM_getTopicName {ps : List Pointer} (hps : ∀ p ∈ ps, w.topicHeap.Live p) :
    (ps.mapM Topic.getTopicName).run w =
      .ok ((ps.map w.viewTopic).map TopicView.topicName, w) := by
  induction ps with
  | nil => rfl
  | cons p ps ih =>
      have hrest := ih fun q hq ↦ hps q (List.mem_cons_of_mem p hq)
      simp [List.mapM_cons, StateT.run_bind, Topic.run_getTopicName (hps p (by simp)), hrest]

theorem run_mapM_subscriberString {cs : List Pointer}
    (hcs : ∀ c ∈ cs, w.connectionHeap.Live c) :
    (cs.mapM subscriberString).run w = .ok ((cs.map w.endpointOf).map Endpoint.toText, w) := by
  induction cs with
  | nil => rfl
  | cons c cs ih =>
      have hc := hcs c (by simp)
      have hrest := ih fun d hd ↦ hcs d (List.mem_cons_of_mem c hd)
      simp [List.mapM_cons, StateT.run_bind, subscriberString,
        ClientConnection.run_getAddress hc, ClientConnection.run_getPort hc, hrest,
        Endpoint.toText]

/-- A topic status always has room for its two arguments. -/
theorem setTopicStatus_fst (messageTimestamp : ℤ) (subscribers : List Text) :
    (setTopicStatus messageTimestamp subscribers (Response.new .getTopicStatus)).1 = true := by
  simp [setTopicStatus, Response.setResponseArgumentUInt, Response.setResponseArgumentList,
    Response.setResponseArgument, Response.new, responseDictionary]

theorem run_handleListTopics (hw : w.Pointers) :
    handleListTopics.run w = .ok (w.view.listTopics, w) := by
  simp [handleListTopics, StateT.run_bind, run_mapM_getTopicName hw.topics_live,
    Broker.listTopics, Response.setResponseArgumentList, Response.setResponseArgument,
    Response.new, responseDictionary, World.view]

theorem run_handleGetTopicStatus (hw : w.Pointers) (topicName : Text) :
    (handleGetTopicStatus topicName).run w = .ok (w.view.getTopicStatus topicName, w) := by
  cases hfind : w.view.find topicName with
  | none =>
      simp [handleGetTopicStatus, StateT.run_bind, findTopic_of_none hw hfind,
        Broker.getTopicStatus, hfind]
  | some v =>
      obtain ⟨p, hp, rfl, hne, hrun⟩ := findTopic_of_some hw hfind
      have hlive := hw.topics_live p hp
      have hsub : ((w.topicHeap.deref p).subscriberList.mapM subscriberString).run w =
          .ok ((w.viewTopic p).subscribers.map Endpoint.toText, w) :=
        run_mapM_subscriberString (hw.subscribers_live hp)
      have hset := setTopicStatus_fst (w.viewTopic p).messageTimestamp
        ((w.viewTopic p).subscribers.map Endpoint.toText)
      simp only [handleGetTopicStatus, StateT.run_bind, run_getWorld, ok_bind, hrun, if_neg hne,
        Topic.run_getMessageTimestamp hlive, Topic.run_getClientConnections hlive, hsub,
        hset, if_true, run_return, Broker.getTopicStatus, hfind, Broker.topicStatus]

end Queries

/-! ## Publishing -/

theorem run_setMessage (env : Environment) {w : World} {p : Pointer} (hp : w.topicHeap.Live p)
    (message : Text) :
    (Topic.setMessage env p message).run w = .ok (true, { w.writeTopic p {
      w.topicHeap.deref p with
        message := message
        messageTimestamp := env.time w.os.readings
        timeoutTimestamp := env.time (w.os.readings + 1) } with
      os := w.os.readTime.readTime }) := by
  have hself : ∀ t, (w.topicHeap.update p t).deref p = t := fun t ↦
    (Heap.deref_update hp t).trans (if_pos rfl)
  have hlive : ∀ t, (w.topicHeap.update p t).Live p := fun t ↦ hp.update t
  simp [Topic.setMessage, StateT.run_bind, run_modifyTopic, hp, World.writeTopic, hlive, hself]

theorem run_handlePublishRequest_of_none (env : Environment) {w : World} (hw : w.Pointers)
    {topicName : Text} (hfind : w.view.find topicName = none) (message : Text) :
    (handlePublishRequest env topicName message).run w =
      .ok ((Response.new .publish).setStatusCode .invalidParameter, w) := by
  simp [handlePublishRequest, StateT.run_bind, findTopic_of_none hw hfind]

theorem follows_handlePublishRequest (env : Environment) {w : World} (hw : w.Pointers)
    (topicName message : Text) :
    World.Follows ((handlePublishRequest env topicName message).run w)
      (.ok (w.view.publish env topicName message)) := by
  cases hfind : w.view.find topicName with
  | none =>
      simp only [Broker.publish, hfind]
      exact ⟨w, run_handlePublishRequest_of_none env hw hfind message, rfl, hw⟩
  | some v =>
      have hname := (Broker.find_eq_some hfind).2
      obtain ⟨p, hp, rfl, hne, hrun⟩ := findTopic_of_some hw hfind
      have hlive := hw.topics_live p hp
      let t : Topic := { w.topicHeap.deref p with
        message := message
        messageTimestamp := env.time w.os.readings
        timeoutTimestamp := env.time (w.os.readings + 1) }
      have hset := run_setMessage env hlive message
      have hlive' : { w.writeTopic p t with os := w.os.readTime.readTime }.topicHeap.Live p :=
        hlive.update t
      have hderef : (w.topicHeap.update p t).deref p = t :=
        (Heap.deref_update hlive t).trans (if_pos rfl)
      have hstored := Topic.run_getMessageTimestamp hlive'
      simp only [World.viewTopic, World.writeTopic, hderef] at hstored
      have hview := World.view_writeTopic hw (p := p) (t := t)
        (f := .store message (env.time w.os.readings) (env.time (w.os.readings + 1)))
        (by simp [TopicView.store, World.viewTopic, t])
      have hw' := hw.writeTopic hp (t := t) (hw.subscribers_registered p hp)
      simp only [Broker.publish, hfind, Broker.storeMessage]
      refine ⟨{ w.writeTopic p t with
        os := w.os.readTime.readTime
        history := .published p topicName message (env.time w.os.readings) :: w.history },
        ?_, ?_, hw'.congr rfl rfl rfl rfl⟩
      · simp only [handlePublishRequest, StateT.run_bind, run_getWorld, ok_bind, hrun, if_neg hne,
          hset, if_true]
        simp only [World.writeTopic, t, hstored, ok_bind, run_record, run_return]
      · rw [World.object_viewTopic, hname]
        exact congrArg (fun b : Broker ↦ { b with
          os := w.os.readTime.readTime
          history := .published p topicName message (env.time w.os.readings) :: w.history }) hview

/-! ## The heartbeat -/

section Heartbeat

variable (env : Environment) {w : World}

theorem run_sendMessage {c : Pointer} (hc : w.connectionHeap.Live c) (topicName message : Text)
    (timestamp : ℤ) :
    (ClientConnection.sendMessage env c topicName message timestamp).run w =
      .ok (⟨(w.endpointOf c).ipAddress, (w.endpointOf c).port, topicName, message, timestamp,
        (w.os.acquire env).1⟩, { w with os := (w.os.acquire env).2 }) := by
  simp only [ClientConnection.sendMessage, StateT.run_bind, run_loadConnection hc, ok_bind,
    run_socket, run_return, World.endpointOf]

theorem run_mapM_sendMessage (v : TopicView) {cs : List Pointer}
    (hcs : ∀ c ∈ cs, w.connectionHeap.Live c) :
    (cs.mapM fun c ↦ ClientConnection.sendMessage env c v.topicName v.message
        v.messageTimestamp).run w =
      .ok ((Broker.sendTo env v (cs.map w.endpointOf) w.os).1, { w with
        os := (Broker.sendTo env v (cs.map w.endpointOf) w.os).2 }) := by
  induction cs generalizing w with
  | nil => rfl
  | cons c cs ih =>
      have hc := hcs c (by simp)
      have hrest := ih (w := { w with os := (w.os.acquire env).2 }) fun d hd ↦
        hcs d (List.mem_cons_of_mem c hd)
      simp only [List.mapM_cons, StateT.run_bind, run_sendMessage env hc, ok_bind, hrest,
        run_return]
      rfl

theorem run_publishMessage {p : Pointer} (hp : w.topicHeap.Live p)
    (hcs : ∀ c ∈ (w.topicHeap.deref p).subscriberList, w.connectionHeap.Live c) :
    (Topic.publishMessage env p).run w =
      .ok ((Broker.publishMessage env (w.viewTopic p) w.os).1, { w with
        os := (Broker.publishMessage env (w.viewTopic p) w.os).2 }) := by
  have hsend := run_mapM_sendMessage env (w.viewTopic p) hcs
  simp only [Topic.publishMessage, StateT.run_bind, ok_bind, run_loadTopic hp]
  by_cases hmessage : (w.topicHeap.deref p).message = []
  · simp [hmessage, Broker.publishMessage, World.viewTopic]
  · have hview : (w.viewTopic p).message ≠ [] := hmessage
    rw [if_neg hmessage, Broker.publishMessage, if_neg hview]
    exact hsend

theorem run_checkTopic (hw : w.Pointers) {p : Pointer} (hp : p ∈ w.topics) :
    ∃ w', (checkTopic env p).run w = .ok ((), w') ∧ w'.topics = w.topics ∧
      w'.view = w.view.checkView env (w.viewTopic p) ∧ w'.Pointers := by
  have hlive := hw.topics_live p hp
  have hget := Topic.run_getTimeoutTimestamp hlive
  by_cases hexpired : (w.viewTopic p).timeoutTimestamp ≤ env.time w.os.readings
  · let w₁ : World := { w with os := w.os.readTime }
    let sent := Broker.publishMessage env (w.viewTopic p) w.os.readTime
    have hpublish : (Topic.publishMessage env p).run w₁ =
        .ok (sent.1, { w₁ with os := sent.2 }) :=
      run_publishMessage env (w := w₁) hlive (hw.subscribers_live hp)
    let t : Topic := { w.topicHeap.deref p with
      timeoutTimestamp := env.time sent.2.readings + w.topicTimeout }
    have hview := World.view_writeTopic hw (p := p) (t := t)
      (f := .postpone (env.time sent.2.readings + w.topicTimeout))
      (by simp [TopicView.postpone, World.viewTopic, t])
    have hw' := hw.writeTopic hp (t := t) (hw.subscribers_registered p hp)
    refine ⟨{ w.writeTopic p t with
      os := sent.2.readTime
      history := .checked p (env.time w.os.readings) sent.1
        (some (env.time sent.2.readings)) :: w.history }, ?_, rfl, ?_, hw'.congr rfl rfl rfl rfl⟩
    · have hpostpone := run_modifyTopic (w := { w with os := sent.2.readTime }) hlive fun t ↦
        { t with timeoutTimestamp := env.time sent.2.readings + w.topicTimeout }
      simp only [checkTopic, StateT.run_bind, hget, ok_bind, run_time, if_pos hexpired,
        run_getWorld, Topic.setTimeoutTimestamp]
      simp only [w₁] at hpublish
      simp only [hpublish, ok_bind, hpostpone, run_record]
      rfl
    · rw [Broker.checkView]
      have hdue : (w.viewTopic p).timeoutTimestamp ≤ env.time w.view.os.readings := hexpired
      rw [if_pos hdue]
      exact congrArg (fun b : Broker ↦ { b with
        os := sent.2.readTime
        history := .checked p (env.time w.os.readings) sent.1
          (some (env.time sent.2.readings)) :: w.history }) hview
  · refine ⟨{ w with
      os := w.os.readTime
      history := .checked p (env.time w.os.readings) [] none :: w.history }, ?_, rfl, ?_,
      hw.congr rfl rfl rfl rfl⟩
    · simp only [checkTopic, StateT.run_bind, hget, ok_bind, run_time, if_neg hexpired, run_record]
    · have hdue : ¬ (w.viewTopic p).timeoutTimestamp ≤ env.time w.view.os.readings := hexpired
      rw [Broker.checkView, if_neg hdue]
      rfl

theorem run_forM_checkTopic (hw : w.Sound) {ps : List Pointer} (hps : ∀ p ∈ ps, p ∈ w.topics) :
    ∃ w', (ps.forM (checkTopic env)).run w = .ok ((), w') ∧
      w'.view = ps.foldl (Broker.checkTopic env) w.view ∧ w'.Pointers := by
  induction ps generalizing w with
  | nil => exact ⟨w, rfl, rfl, hw.toPointers⟩
  | cons p ps ih =>
      have hp := hps p (by simp)
      obtain ⟨w₁, hrun₁, htopics, hview₁, hw₁⟩ := run_checkTopic env hw.toPointers hp
      have hfind : w.view.topics.find? (fun v ↦ v.object = p) = some (w.viewTopic p) :=
        hw.inv.find_object (v := w.viewTopic p) (List.mem_map_of_mem hp)
      have hcheck : w₁.view = w.view.checkTopic env p := by
        simp only [Broker.checkTopic, hfind, hview₁]
      obtain ⟨w₂, hrun₂, hview₂, hw₂⟩ := ih (w := w₁)
        ⟨hw₁, hcheck ▸ hw.inv.checkTopic env p⟩ fun q hq ↦ by
          rw [htopics]
          exact hps q (List.mem_cons_of_mem p hq)
      refine ⟨w₂, ?_, by rw [hview₂, hcheck]; rfl, hw₂⟩
      simp only [List.forM_eq_forM, List.forM_cons, StateT.run_bind, hrun₁, ok_bind]
      exact hrun₂

theorem run_checkTopicTimeouts (hw : w.Sound) :
    ∃ w', (checkTopicTimeouts env).run w = .ok ((), w') ∧ w'.view = w.view.tick env ∧
      w'.Pointers := by
  obtain ⟨w', hrun, hview, hw'⟩ := run_forM_checkTopic env hw fun p hp ↦ hp
  have hobjects : w.view.topics.map TopicView.object = w.topics := w.map_object_viewTopic w.topics
  refine ⟨w', ?_, ?_, hw'⟩
  · simp only [checkTopicTimeouts, StateT.run_bind, run_getWorld, ok_bind, hrun]
  · rw [hview, Broker.tick, hobjects]

end Heartbeat

/-! ## The abstraction -/

variable (env : Environment)

theorem follows_handle {w : World} (hw : w.Sound) (q : Request) :
    World.Follows ((handle env q).run w) (w.view.handle env q) := by
  cases q with
  | subscribe ipAddress port topicName =>
      exact follows_handleSubscribeRequest hw.toPointers env ipAddress port topicName
  | unsubscribe ipAddress port topicName =>
      exact follows_handleUnsubscribeRequest hw.toPointers hw.inv ipAddress port topicName
  | publish topicName message =>
      exact follows_handlePublishRequest env hw.toPointers topicName message
  | listTopics => exact ⟨w, run_handleListTopics hw.toPointers, rfl, hw.toPointers⟩
  | getTopicStatus topicName =>
      exact ⟨w, run_handleGetTopicStatus hw.toPointers topicName, rfl, hw.toPointers⟩

/-- A handler that completes answers as the broker does. -/
theorem view_handle {w w' : World} (hw : w.Sound) {q : Request} {r : Response}
    (h : (handle env q).run w = .ok (r, w')) :
    w.view.handle env q = .ok (r, w'.view) ∧ w'.Sound := by
  have hfollows := follows_handle env hw q
  cases hbroker : w.view.handle env q with
  | error f =>
      rw [hbroker] at hfollows
      have herror : (handle env q).run w = .error f := hfollows
      simp [herror] at h
  | ok answered =>
      rw [hbroker] at hfollows
      obtain ⟨w₁, hrun, hview, hw₁⟩ := hfollows
      rw [h] at hrun
      obtain ⟨rfl, rfl⟩ : r = answered.1 ∧ w' = w₁ := by simpa using hrun
      exact ⟨by rw [hview], hw₁, hview ▸ hw.inv.handle hbroker⟩

theorem follows_act {w : World} (hw : w.Sound) (a : Action) :
    World.Follows ((act env a).run w) (w.view.act env a) := by
  cases a with
  | tick =>
      obtain ⟨w', hrun, hview, hw'⟩ := run_checkTopicTimeouts env hw
      refine ⟨w', ?_, hview, hw'⟩
      simp only [act, StateT.run_bind, hrun, ok_bind, run_return]
  | request q =>
      have hhandle := follows_handle env hw q
      cases hbroker : w.view.handle env q with
      | error f =>
          rw [hbroker] at hhandle
          have herror : (handle env q).run w = .error f := hhandle
          simp only [Broker.act, hbroker]
          show _ = _
          simp only [act, StateT.run_bind, herror, error_bind]
      | ok answered =>
          rw [hbroker] at hhandle
          obtain ⟨w', hrun, hview, hw'⟩ := hhandle
          simp only [Broker.act, hbroker]
          refine ⟨w', ?_, hview, hw'⟩
          simp only [act, StateT.run_bind, hrun, ok_bind, run_return]

theorem sound_initial (topicTimeout : ℤ) : (initial topicTimeout).Sound where
  topics_live := by simp [initial]
  topics_registered p hp := (Heap.not_live_empty p hp).elim
  connections_live := by simp [initial]
  connections_registered c hc := (Heap.not_live_empty c hc).elim
  subscribers_registered := by simp [initial]
  inv := Broker.inv_start .steady topicTimeout

/-- The server, seen through its pointers, is the broker. -/
def abstraction (topicTimeout : ℤ) :
    Transition.System.Abstraction (system env topicTimeout) (Broker.system env topicTimeout) where
  view := World.view
  Sound := World.Sound
  sound_start := sound_initial topicTimeout
  view_start := rfl
  step_ok w a r b hw hstep := by
    have hfollows := follows_act env hw a
    have hact : w.view.act env a = .ok (r, b) := hstep
    rw [hact] at hfollows
    obtain ⟨w', hrun, hview, hw'⟩ := hfollows
    exact ⟨w', hrun, hview, hw', hview ▸ hw.inv.act hact⟩
  step_error w a f hw hstep := by
    have hfollows := follows_act env hw a
    have hact : w.view.act env a = .error f := hstep
    rw [hact] at hfollows
    exact hfollows

theorem view_tick {env : Environment} {topicTimeout : ℤ} {w w' : World} {r : Option Response}
    (hw : w.Sound) (hstep : (system env topicTimeout).step w .tick = .ok (r, w')) :
    w'.view = w.view.tick env := by
  have hact := Except.ok.inj ((abstraction env topicTimeout).view_step hw hstep).1
  exact (Prod.mk.inj hact).2.symm

end Server

/-- A tick checks every topic once, in order, and records what it did. -/
theorem World.Sound.history_tick {env : Environment} {w w' : World} (hw : w.Sound)
    (hview : w'.view = w.view.tick env) :
    ∃ news : List Event, w'.history = news.reverse ++ w.history ∧ w.topics.Nodup ∧
      List.Forall₂ (fun p e ↦ p ∈ w.topics ∧
        ∃ os : Os, e = Broker.checkEvent env (w.viewTopic p) os) w.topics news := by
  obtain ⟨news, hhistory, hnews⟩ := hw.inv.history_tick env
  rw [← hview] at hhistory
  have htopics : List.Forall₂ (fun v e ↦ ∃ os : Os, w.view.os.readings ≤ os.readings ∧
      e = Broker.checkEvent env v os) (w.topics.map w.viewTopic) news := hnews
  rw [List.forall₂_map_left_iff] at htopics
  refine ⟨news, hhistory, ?_, ?_⟩
  · exact List.Nodup.of_map w.viewTopic (List.Nodup.of_map TopicView.object hw.inv.objects_nodup)
  · apply ((List.forall₂_and_left _ _).mpr ⟨fun p hp ↦ hp, htopics⟩).imp
    rintro p e ⟨hp, os, -, he⟩
    exact ⟨hp, os, he⟩

end PublisherSubscriber
