import PublisherSubscriber.Broker.Pointers

/-!
# The server computes the broker

Every handler and the heartbeat, run on a state whose pointers are sound,
answer as the broker does on the view of that state and end in a state whose
view is the broker's.
-/

namespace PublisherSubscriber

open PointerHeap

namespace World

/-- What the server guarantees between two steps. -/
structure Sound (w : World) : Prop extends w.Pointers where
  inv : w.view.Inv

/-- The run `x` answers as the broker's `y`, and ends in a state with its view. -/
def Follows {α : Type} (x : Except Fault (α × World)) (y : Except Fault (α × Broker)) : Prop :=
  match y with
  | .ok (a, b) => ∃ w', x = .ok (a, w') ∧ w'.view = b ∧ w'.Pointers
  | .error f => x = .error f

/-- The requesting client as `findClientConnection` finds it. -/
def Found (w : World) (c : Pointer) (e : Endpoint) : Prop :=
  (c ∈ w.clientConnections ∧ w.endpointOf c = e) ∨ (c = none ∧ e ∉ w.view.connections)

end World

namespace Server

section

variable {w : World} (hw : w.Pointers)

include hw

theorem findTopic_of_none {topicName : Text} (hfind : w.view.find topicName = none) :
    (findTopic topicName w.topics).run w = .ok (none, w) := by
  have hnone : (w.topics.map w.viewTopic).find? (fun v ↦ v.topicName = topicName) = none := hfind
  rw [run_findTopic topicName hw.topics_live, hnone]
  rfl

theorem findTopic_of_some {topicName : Text} {v : TopicView}
    (hfind : w.view.find topicName = some v) :
    ∃ p ∈ w.topics, w.viewTopic p = v ∧ p ≠ none ∧
      (findTopic topicName w.topics).run w = .ok (p, w) := by
  have hsome : (w.topics.map w.viewTopic).find? (fun v ↦ v.topicName = topicName) = some v :=
    hfind
  obtain ⟨p, hp, rfl⟩ := List.mem_map.mp (Broker.find_eq_some hfind).1
  refine ⟨p, hp, rfl, (hw.topics_live p hp).ne_none, ?_⟩
  rw [run_findTopic topicName hw.topics_live, hsome]
  rfl

end

/-! ## Subscribing -/

section

variable {w : World} (hw : w.Pointers) (env : Environment)

include hw

theorem run_addTopic (topicName : Text) :
    ∃ p w', (addTopic env topicName).run w = .ok (p, w') ∧ p ∈ w'.topics ∧
      w'.viewTopic p = w.view.newTopic env topicName ∧
      w'.view = w.view.addTopic env topicName ∧ w'.Pointers := by
  let t : Topic := {
    message := []
    topicName := topicName
    messageTimestamp := env.time w.os.readings
    subscriberList := []
    timeoutTimestamp := env.time (w.os.readings + 1) }
  let w' : World := { w.withTopic t with
    os := w.os.readTime.readTime
    history := .created (w.topicHeap.new t).1 topicName :: w.history }
  have hview : w'.viewTopic (w.topicHeap.new t).1 = w.view.newTopic env topicName :=
    World.viewTopic_withTopic w t
  refine ⟨(w.topicHeap.new t).1, w', ?_, ?_, hview, ?_, ?_⟩
  · simp [addTopic, Topic.construct, pushTopic, StateT.run_bind, w', World.withTopic, t]
  · simp [w', World.withTopic]
  · show { (w.withTopic t).view with os := w'.os, history := w'.history } = _
    rw [World.view_withTopic hw t, World.viewTopic_withTopic]
    rfl
  · exact (hw.withTopic (t := t) rfl).congr rfl rfl rfl rfl

theorem run_findOrAddTopic_of_some {topicName : Text} {v : TopicView}
    (hfind : w.view.find topicName = some v) :
    ∃ p ∈ w.topics, w.viewTopic p = v ∧ (findOrAddTopic env topicName).run w = .ok (p, w) := by
  obtain ⟨p, hp, hview, hne, hrun⟩ := findTopic_of_some hw hfind
  refine ⟨p, hp, hview, ?_⟩
  simp [findOrAddTopic, StateT.run_bind, hrun, hne]

theorem run_findOrAddTopic (topicName : Text) :
    ∃ p w', (findOrAddTopic env topicName).run w = .ok (p, w') ∧ p ∈ w'.topics ∧
      w'.viewTopic p = (w.view.findOrAddTopic env topicName).1 ∧
      w'.view = (w.view.findOrAddTopic env topicName).2 ∧ w'.Pointers := by
  cases hfind : w.view.find topicName with
  | none =>
      have hrun := findTopic_of_none hw hfind
      obtain ⟨p, w', hadd, hp, hview, hbroker, hpointers⟩ := run_addTopic hw env topicName
      refine ⟨p, w', ?_, hp, ?_, ?_, hpointers⟩
      · simp [findOrAddTopic, StateT.run_bind, hrun, hadd]
      · simpa [Broker.findOrAddTopic, hfind] using hview
      · simpa [Broker.findOrAddTopic, hfind] using hbroker
  | some v =>
      obtain ⟨p, hp, rfl, hrun⟩ := run_findOrAddTopic_of_some hw env hfind
      refine ⟨p, w, hrun, hp, ?_, ?_, hw⟩
      · simp [Broker.findOrAddTopic, hfind]
      · simp [Broker.findOrAddTopic, hfind]

theorem run_addClientConnection (ipAddress : Text) (port : ℤ)
    (hnew : (⟨ipAddress, port⟩ : Endpoint) ∉ w.view.connections) :
    ∃ c w', (addClientConnection ipAddress port).run w = .ok (c, w') ∧
      c ∈ w'.clientConnections ∧ w'.endpointOf c = ⟨ipAddress, port⟩ ∧ w'.topics = w.topics ∧
      (∀ p ∈ w.topics, w'.viewTopic p = w.viewTopic p) ∧
      w'.view = w.view.connect ⟨ipAddress, port⟩ ∧ w'.Pointers := by
  let k : ClientConnection := ⟨ipAddress, port⟩
  refine ⟨(w.connectionHeap.new k).1, w.withConnection k, ?_, ?_,
    World.endpointOf_withConnection_new w k, rfl,
    fun p hp ↦ World.viewTopic_withConnection hw k hp, ?_, hw.withConnection k⟩
  · simp [addClientConnection, pushClientConnection, StateT.run_bind, World.withConnection, k]
  · simp [World.withConnection]
  · rw [Broker.connect, if_neg hnew]
    exact World.view_withConnection hw k

theorem run_findOrAddClientConnection_of_mem {e : Endpoint} (he : e ∈ w.view.connections) :
    ∃ c ∈ w.clientConnections, w.endpointOf c = e ∧
      (findOrAddClientConnection e.ipAddress e.port).run w = .ok (c, w) := by
  obtain ⟨found, hrun, hfound⟩ :=
    run_findClientConnection (w := w) e.ipAddress e.port hw.connections_live
  obtain ⟨hmem, hendpoint⟩ := hfound.resolve_right fun h ↦ h.2 he
  have hne : found ≠ none := (hw.connections_live found hmem).ne_none
  refine ⟨found, hmem, hendpoint, ?_⟩
  simp [findOrAddClientConnection, StateT.run_bind, hrun, hne]

theorem run_findOrAddClientConnection (e : Endpoint) :
    ∃ c w', (findOrAddClientConnection e.ipAddress e.port).run w = .ok (c, w') ∧
      c ∈ w'.clientConnections ∧ w'.endpointOf c = e ∧ w'.topics = w.topics ∧
      (∀ p ∈ w.topics, w'.viewTopic p = w.viewTopic p) ∧
      w'.view = w.view.connect e ∧ w'.Pointers := by
  by_cases he : e ∈ w.view.connections
  · obtain ⟨c, hmem, hendpoint, hrun⟩ := run_findOrAddClientConnection_of_mem hw he
    refine ⟨c, w, hrun, hmem, hendpoint, rfl, fun _ _ ↦ rfl, ?_, hw⟩
    rw [Broker.connect, if_pos he]
  · obtain ⟨found, hrun, hfound⟩ :=
      run_findClientConnection (w := w) e.ipAddress e.port hw.connections_live
    obtain ⟨rfl, -⟩ := hfound.resolve_left fun h ↦ he (List.mem_map.mpr ⟨found, h⟩)
    obtain ⟨c, w', hadd, hrest⟩ := run_addClientConnection hw e.ipAddress e.port he
    refine ⟨c, w', ?_, hrest⟩
    simp [findOrAddClientConnection, StateT.run_bind, hrun, hadd]

/-- An endpoint that is subscribed is found out before anything changes. -/
theorem run_handleSubscribeRequest_again {e : Endpoint} {topicName : Text} {v : TopicView}
    (hfind : w.view.find topicName = some v) (he : e ∈ v.subscribers)
    (hknown : e ∈ w.view.connections) :
    (handleSubscribeRequest env e.ipAddress e.port topicName).run w =
      .ok ((Response.new .subscribe).setStatusCode .failed, w) := by
  obtain ⟨p, hp, rfl, hrun₁⟩ := run_findOrAddTopic_of_some hw env hfind
  obtain ⟨c, hc, rfl, hrun₂⟩ := run_findOrAddClientConnection_of_mem hw hknown
  have hsubscribe := Topic.run_subscribe (hw.topics_live p hp) (hw.subscribers_live hp)
    (hw.connections_live c hc)
  rw [if_pos he] at hsubscribe
  simp [handleSubscribeRequest, StateT.run_bind, hrun₁, hrun₂, hsubscribe]

theorem follows_handleSubscribeRequest (ipAddress : Text) (port : ℤ) (topicName : Text) :
    World.Follows ((handleSubscribeRequest env ipAddress port topicName).run w)
      (.ok (w.view.subscribe env ⟨ipAddress, port⟩ topicName)) := by
  obtain ⟨p, w₁, hrun₁, hp₁, hview₁, hbroker₁, hw₁⟩ := run_findOrAddTopic hw env topicName
  obtain ⟨c, w₂, hrun₂, hc, hendpoint, htopics, hsame, hbroker₂, hw₂⟩ :=
    run_findOrAddClientConnection hw₁ ⟨ipAddress, port⟩
  have hp₂ : p ∈ w₂.topics := htopics ▸ hp₁
  have hview₂ : w₂.viewTopic p = (w.view.findOrAddTopic env topicName).1 :=
    (hsame p hp₁).trans hview₁
  have hsubscribe := Topic.run_subscribe (hw₂.topics_live p hp₂) (hw₂.subscribers_live hp₂)
    (hw₂.connections_live c hc)
  rw [hendpoint, hview₂] at hsubscribe
  by_cases hmem :
      (⟨ipAddress, port⟩ : Endpoint) ∈ (w.view.findOrAddTopic env topicName).1.subscribers
  · rw [if_pos hmem] at hsubscribe
    rw [Broker.subscribe, if_pos hmem]
    refine ⟨w₂, ?_, by rw [hbroker₂, hbroker₁], hw₂⟩
    simp [handleSubscribeRequest, StateT.run_bind, hrun₁, hrun₂, hsubscribe]
  · rw [if_neg hmem] at hsubscribe
    have hobject : (w.view.findOrAddTopic env topicName).1.object = p := hview₂ ▸ rfl
    rw [Broker.subscribe, if_neg hmem, hobject, ← hbroker₁, ← hbroker₂]
    refine ⟨w₂.writeTopic p { w₂.topicHeap.deref p with
      subscriberList := (w₂.topicHeap.deref p).subscriberList ++ [c] }, ?_, ?_, ?_⟩
    · simp [handleSubscribeRequest, StateT.run_bind, hrun₁, hrun₂, hsubscribe]
    · exact World.view_writeTopic hw₂ (by
        simp [TopicView.addSubscriber, World.viewTopic, hendpoint])
    · refine hw₂.writeTopic hp₂ fun d hd ↦ ?_
      rcases List.mem_append.mp hd with hd | hd
      · exact hw₂.subscribers_registered p hp₂ d hd
      · exact List.mem_singleton.mp hd ▸ hc

end

/-! ## Unsubscribing -/

section

variable {w : World} (hw : w.Pointers)

include hw

theorem run_deleteEmptyTopic {p : Pointer} (hp : p ∈ w.topics) :
    ∃ w', (deleteEmptyTopic p).run w = .ok ((), w') ∧ w'.Pointers ∧
      w'.clientConnections = w.clientConnections ∧ w'.endpointOf = w.endpointOf ∧
      w'.view = if (w.viewTopic p).subscribers = [] then
          { w.view with topics := w.view.topics.filter fun u ↦ u.object ≠ p }
        else w.view := by
  have hget := Topic.run_getClientConnections (hw.topics_live p hp)
  by_cases hsub : (w.topicHeap.deref p).subscriberList = []
  · have hempty : (w.viewTopic p).subscribers = [] := by simp [World.viewTopic, hsub]
    have hlive : ({ w with topics := w.topics.filter (· ≠ p) } : World).topicHeap.Live p :=
      hw.topics_live p hp
    refine ⟨w.withoutTopic p, ?_, hw.withoutTopic hp, rfl, rfl, ?_⟩
    · simp only [deleteEmptyTopic, StateT.run_bind, hget, ok_bind, hsub, List.length_nil, if_true]
      simpa [eraseTopic, World.withoutTopic] using run_deleteTopic hlive
    · rw [if_pos hempty]
      exact World.view_withoutTopic w p
  · have hne : (w.viewTopic p).subscribers ≠ [] := by simp [World.viewTopic, hsub]
    refine ⟨w, ?_, hw, rfl, rfl, by rw [if_neg hne]⟩
    simp [deleteEmptyTopic, StateT.run_bind, hget, hsub]

/-- A null client is dereferenced when a topic is left to ask; deleting it does nothing. -/
theorem run_deleteUnusedConnection_null :
    (deleteUnusedConnection none).run w =
      if w.topics = [] then .ok ((), w) else .error .nullDereference := by
  cases htopics : w.topics with
  | nil =>
      have herase : w.clientConnections.filter (· ≠ none) = w.clientConnections :=
        List.filter_eq_self.mpr fun d hd ↦ by simpa using (hw.connections_live d hd).ne_none
      have hrun : (eraseClientConnection none).run w = .ok ((), w) := by
        show Except.ok ((), { w with clientConnections := _ }) = _
        rw [herase]
      simp [deleteUnusedConnection, StateT.run_bind, htopics, isSubscribedToOtherTopic, hrun]
  | cons q ps =>
      have hnull := run_isSubscribedToOtherTopic_null (w := w) q ps
      simp only [deleteUnusedConnection, StateT.run_bind, run_getWorld, ok_bind, htopics, hnull,
        error_bind, reduceCtorEq, if_false]

theorem run_deleteUnusedConnection {c : Pointer} (hc : c ∈ w.clientConnections) :
    (deleteUnusedConnection c).run w =
      .ok ((), if w.view.Subscribed (w.endpointOf c) then w else w.withoutConnection c) := by
  have hlive := hw.connections_live c hc
  have hask := run_isSubscribedToOtherTopic hlive fun p hp ↦
    ⟨hw.topics_live p hp, hw.subscribers_live hp⟩
  by_cases hsub : w.view.Subscribed (w.endpointOf c)
  · have htrue : ∃ v ∈ w.topics.map w.viewTopic, w.endpointOf c ∈ v.subscribers := hsub
    rw [if_pos hsub]
    simp only [deleteUnusedConnection, StateT.run_bind, run_getWorld, ok_bind, hask, htrue,
      decide_true, if_true, run_return]
  · have hfalse : ¬ ∃ v ∈ w.topics.map w.viewTopic, w.endpointOf c ∈ v.subscribers := hsub
    have hdelete := run_deleteConnection
      (w := { w with clientConnections := w.clientConnections.filter (· ≠ c) }) hlive
    rw [if_neg hsub]
    simp only [deleteUnusedConnection, StateT.run_bind, run_getWorld, ok_bind, hask, hfalse,
      decide_false]
    simpa [eraseClientConnection, World.withoutConnection] using hdelete

theorem follows_deleteUnusedConnection (hinv : w.view.Inv) {c : Pointer} {e : Endpoint}
    (hfound : w.Found c e) :
    World.Follows ((deleteUnusedConnection c).run w)
      ((w.view.releaseConnection e).map fun b ↦ ((), b)) := by
  rcases hfound with ⟨hc, rfl⟩ | ⟨rfl, hunknown⟩
  · have hknown : w.endpointOf c ∈ w.view.connections := List.mem_map_of_mem hc
    rw [run_deleteUnusedConnection hw hc, Broker.releaseConnection, if_pos hknown]
    by_cases hsub : w.view.Subscribed (w.endpointOf c)
    · rw [if_pos hsub, if_pos hsub]
      exact ⟨w, rfl, rfl, hw⟩
    · have hunused : ∀ p ∈ w.topics, ∀ d ∈ (w.topicHeap.deref p).subscriberList, d ≠ c := by
        rintro p hp d hd rfl
        exact hsub ⟨w.viewTopic p, List.mem_map_of_mem hp, List.mem_map_of_mem hd⟩
      rw [if_neg hsub, if_neg hsub]
      exact ⟨w.withoutConnection c, rfl, World.view_withoutConnection hinv hc hunused,
        hw.withoutConnection hc hunused⟩
  · have hnil : w.view.topics = [] ↔ w.topics = [] := List.map_eq_nil_iff
    rw [run_deleteUnusedConnection_null hw, Broker.releaseConnection, if_neg hunknown]
    by_cases htopics : w.topics = []
    · rw [if_pos htopics, if_pos (hnil.mpr htopics)]
      exact ⟨w, rfl, rfl, hw⟩
    · rw [if_neg htopics, if_neg (mt hnil.mp htopics)]
      rfl

/-- The emptied topic object and the shortened list are one change of the view. -/
theorem run_dropFirst (hinv : w.view.Inv) {p : Pointer} (hp : p ∈ w.topics) (asking : Pointer) :
    ∃ w₁ w₂, (Topic.unsubscribe p asking).run w = .ok (true, w₁) ∧
      (deleteEmptyTopic p).run w₁ = .ok ((), w₂) ∧ w₂.Pointers ∧
      w₂.clientConnections = w.clientConnections ∧ w₂.endpointOf = w.endpointOf ∧
      w₂.view = w.view.dropFirst (w.viewTopic p) := by
  have hview : w.viewTopic p ∈ w.view.topics := List.mem_map_of_mem hp
  cases hsub : (w.topicHeap.deref p).subscriberList with
  | nil => exact (hinv.subscribers_ne_nil _ hview (by simp [World.viewTopic, hsub])).elim
  | cons first rest =>
      have hmem : ∀ c ∈ first :: rest, c ∈ w.clientConnections := fun c hc ↦
        hw.subscribers_registered p hp c (hsub ▸ hc)
      have hendpoints : (w.viewTopic p).subscribers = (first :: rest).map w.endpointOf := by
        simp [World.viewTopic, hsub]
      have hnodup : (first :: rest).Nodup :=
        List.Nodup.of_map w.endpointOf (hendpoints ▸ hinv.subscribers_nodup _ hview)
      have hfilter : (first :: rest).filter (· ≠ first) = rest := by
        rw [List.filter_cons_of_neg (by simp)]
        refine List.filter_eq_self.mpr fun d hd ↦ ?_
        have hne : d ≠ first := fun h ↦ (List.nodup_cons.mp hnodup).1 (h ▸ hd)
        simpa using hne
      have hunsubscribe := Topic.run_unsubscribe (hw.topics_live p hp) hsub
        (hw.connections_live first (hmem first (by simp))) asking
      rw [hfilter] at hunsubscribe
      let w₁ := w.writeTopic p { w.topicHeap.deref p with subscriberList := rest }
      have hw₁ : w₁.Pointers :=
        hw.writeTopic hp fun c hc ↦ hmem c (List.mem_cons_of_mem first hc)
      have hview₁ : w₁.view = w.view.alter p .dropSubscriber :=
        World.view_writeTopic hw (by simp [TopicView.dropSubscriber, World.viewTopic, hsub])
      have hsub₁ : (w₁.viewTopic p).subscribers = (w.viewTopic p).subscribers.tail := by
        have hderef : w₁.topicHeap.deref p = { w.topicHeap.deref p with subscriberList := rest } :=
          (Heap.deref_update (hw.topics_live p hp) _).trans (if_pos rfl)
        rw [hendpoints, World.viewTopic, hderef]
        rfl
      obtain ⟨w₂, hdelete, hw₂, hconnections, hendpointOf, hview₂⟩ :=
        run_deleteEmptyTopic hw₁ (p := p) hp
      refine ⟨w₁, w₂, hunsubscribe, hdelete, hw₂, hconnections, hendpointOf, ?_⟩
      rw [hview₂, hsub₁, Broker.dropFirst, World.object_viewTopic, hview₁]
      split_ifs with htail
      · rw [Broker.filter_topics_alter (f := .dropSubscriber) _ _ fun _ ↦ rfl]
        rfl
      · rfl

theorem run_handleUnsubscribeRequest_of_none (ipAddress : Text) (port : ℤ) {topicName : Text}
    (hfind : w.view.find topicName = none) :
    (handleUnsubscribeRequest ipAddress port topicName).run w =
      .ok ((Response.new .unsubscribe).setStatusCode .invalidParameter, w) := by
  obtain ⟨c, hrun, -⟩ := run_findClientConnection (w := w) ipAddress port hw.connections_live
  simp [handleUnsubscribeRequest, StateT.run_bind, hrun, findTopic_of_none hw hfind]

theorem follows_handleUnsubscribeRequest (hinv : w.view.Inv) (ipAddress : Text) (port : ℤ)
    (topicName : Text) :
    World.Follows ((handleUnsubscribeRequest ipAddress port topicName).run w)
      (w.view.unsubscribe ⟨ipAddress, port⟩ topicName) := by
  cases hfind : w.view.find topicName with
  | none =>
      simp only [Broker.unsubscribe, hfind]
      exact ⟨w, run_handleUnsubscribeRequest_of_none hw ipAddress port hfind, rfl, hw⟩
  | some v =>
      obtain ⟨c, hrun, hfound⟩ :=
        run_findClientConnection (w := w) ipAddress port hw.connections_live
      obtain ⟨p, hp, rfl, hne, hfindTopic⟩ := findTopic_of_some hw hfind
      obtain ⟨w₁, w₂, hunsubscribe, hdelete, hw₂, hconnections, hendpointOf, hview₂⟩ :=
        run_dropFirst hw hinv hp c
      have hfound₂ : w₂.Found c ⟨ipAddress, port⟩ := by
        have hknown : w₂.view.connections = w.view.connections := by
          simp [World.view, hconnections, hendpointOf]
        rw [World.Found, hconnections, hendpointOf, hknown]
        exact hfound
      have hinv₂ : w₂.view.Inv := hview₂ ▸ hinv.dropFirst (Broker.find_eq_some hfind).1
      have hrelease := follows_deleteUnusedConnection hw₂ hinv₂ hfound₂
      simp only [Broker.unsubscribe, hfind, ← hview₂]
      cases hbroker : w₂.view.releaseConnection ⟨ipAddress, port⟩ with
      | error f =>
          rw [hbroker] at hrelease
          have herror : (deleteUnusedConnection c).run w₂ = .error f := hrelease
          show _ = _
          simp [handleUnsubscribeRequest, StateT.run_bind, hrun, hfindTopic, hne, hunsubscribe,
            hdelete, herror]
      | ok b =>
          rw [hbroker] at hrelease
          obtain ⟨w₃, hok, hview₃, hw₃⟩ := hrelease
          refine ⟨w₃, ?_, hview₃, hw₃⟩
          simp [handleUnsubscribeRequest, StateT.run_bind, hrun, hfindTopic, hne, hunsubscribe,
            hdelete, hok]

end

end Server

end PublisherSubscriber
