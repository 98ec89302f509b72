import PublisherSubscriber.Broker.Abstraction

/-!
# The changes made to the heaps

A handler overwrites, registers or deletes one object at a time.  Each of the
changes keeps the pointers sound, and is a change of one entry of the view.
-/

namespace PublisherSubscriber

open PointerHeap

namespace World

theorem viewTopic_congr {w w' : World} {p : Pointer}
    (hderef : w'.topicHeap.deref p = w.topicHeap.deref p)
    (hendpoints : ∀ c ∈ (w.topicHeap.deref p).subscriberList, w'.endpointOf c = w.endpointOf c) :
    w'.viewTopic p = w.viewTopic p := by
  simp only [viewTopic, hderef]
  congr 1
  exact List.map_congr_left hendpoints

/-- Writing through one topic pointer is altering one topic of the view. -/
theorem view_writeTopic {w : World} (hw : w.Pointers) {p : Pointer} {t : Topic}
    {f : TopicView → TopicView}
    (hf : f (w.viewTopic p) =
      { object := p, topicName := t.topicName, message := t.message,
        messageTimestamp := t.messageTimestamp, timeoutTimestamp := t.timeoutTimestamp,
        subscribers := t.subscriberList.map w.endpointOf }) :
    (w.writeTopic p t).view = w.view.alter p f := by
  have htopics : w.topics.map (w.writeTopic p t).viewTopic =
      (w.topics.map w.viewTopic).map fun v ↦ if v.object = p then f v else v := by
    rw [List.map_map]
    refine List.map_congr_left fun q hq ↦ ?_
    have hderef : (w.writeTopic p t).topicHeap.deref q =
        if q = p then t else w.topicHeap.deref q := Heap.deref_update (hw.topics_live q hq) t
    by_cases hqp : q = p
    · subst hqp
      rw [if_pos rfl] at hderef
      rw [Function.comp_apply, object_viewTopic, if_pos rfl, hf]
      simp only [viewTopic, hderef]
      rfl
    · rw [if_neg hqp] at hderef
      rw [Function.comp_apply, object_viewTopic, if_neg hqp]
      exact viewTopic_congr hderef fun _ _ ↦ rfl
  simp only [view, Broker.alter]
  congr 1
  simp [writeTopic]

theorem Pointers.writeTopic {w : World} (hw : w.Pointers) {p : Pointer} (hp : p ∈ w.topics)
    {t : Topic} (ht : ∀ c ∈ t.subscriberList, c ∈ w.clientConnections) :
    (w.writeTopic p t).Pointers where
  topics_live q hq := (hw.topics_live q hq).update t
  topics_registered q hq := hw.topics_registered q ((hw.topics_live p hp).of_update hq)
  connections_live := hw.connections_live
  connections_registered := hw.connections_registered
  subscribers_registered q hq c hc := by
    simp only [World.writeTopic, Heap.deref_update (hw.topics_live q hq)] at hc
    split_ifs at hc
    · exact ht c hc
    · exact hw.subscribers_registered q hq c hc

/-- The pointers depend on the vectors and the heaps only. -/
theorem Pointers.congr {w w' : World} (hw : w.Pointers) (ht : w'.topics = w.topics)
    (hc : w'.clientConnections = w.clientConnections) (hth : w'.topicHeap = w.topicHeap)
    (hch : w'.connectionHeap = w.connectionHeap) : w'.Pointers := by
  constructor <;> simp only [ht, hc, hth, hch]
  exacts [hw.topics_live, hw.topics_registered, hw.connections_live, hw.connections_registered,
    hw.subscribers_registered]

/-! ## Registering an object -/

/-- The state after registering a new topic object. -/
def withTopic (w : World) (t : Topic) : World :=
  { w with
    topics := w.topics ++ [(w.topicHeap.new t).1]
    topicHeap := (w.topicHeap.new t).2 }

/-- The state after registering a new connection object. -/
def withConnection (w : World) (k : ClientConnection) : World :=
  { w with
    clientConnections := w.clientConnections ++ [(w.connectionHeap.new k).1]
    connectionHeap := (w.connectionHeap.new k).2 }

theorem Pointers.withTopic {w : World} (hw : w.Pointers) {t : Topic} (ht : t.subscriberList = []) :
    (w.withTopic t).Pointers := by
  have hold : ∀ q ∈ w.topics, (w.withTopic t).topicHeap.deref q = w.topicHeap.deref q := fun q hq ↦
    Heap.deref_new_of_live (hw.topics_live q hq) t
  have hnew : (w.withTopic t).topicHeap.deref (w.topicHeap.new t).1 = t := Heap.deref_new_self _ t
  constructor
  · intro q hq
    rcases List.mem_append.mp hq with hq | hq
    · exact (hw.topics_live q hq).new t
    · rw [List.mem_singleton.mp hq]
      exact Heap.live_new_self _ t
  · intro q hq
    rcases Heap.Live.of_new hq with hq | rfl
    · exact List.mem_append_left _ (hw.topics_registered q hq)
    · simp [World.withTopic]
  · exact hw.connections_live
  · exact hw.connections_registered
  · intro q hq c hc
    rcases List.mem_append.mp hq with hq | hq
    · rw [hold q hq] at hc
      exact hw.subscribers_registered q hq c hc
    · rw [List.mem_singleton.mp hq, hnew, ht] at hc
      exact absurd hc List.not_mem_nil

theorem viewTopic_withTopic (w : World) (t : Topic) :
    (w.withTopic t).viewTopic (w.topicHeap.new t).1 =
      { object := (w.topicHeap.new t).1, topicName := t.topicName, message := t.message,
        messageTimestamp := t.messageTimestamp, timeoutTimestamp := t.timeoutTimestamp,
        subscribers := t.subscriberList.map w.endpointOf } := by
  have hnew : (w.withTopic t).topicHeap.deref (w.topicHeap.new t).1 = t := Heap.deref_new_self _ t
  simp only [viewTopic, hnew]
  rfl

theorem view_withTopic {w : World} (hw : w.Pointers) (t : Topic) :
    (w.withTopic t).view = { w.view with
      topics := w.view.topics ++ [(w.withTopic t).viewTopic (w.topicHeap.new t).1]
      allocated := w.view.allocated + 1 } := by
  have htopics : w.topics.map (w.withTopic t).viewTopic = w.topics.map w.viewTopic := by
    apply List.map_congr_left
    intro q hq
    exact viewTopic_congr (Heap.deref_new_of_live (hw.topics_live q hq) t) fun _ _ ↦ rfl
  simp only [view] at htopics ⊢
  rw [← htopics]
  simp [World.withTopic, Heap.new, endpointOf]

theorem Pointers.withConnection {w : World} (hw : w.Pointers) (k : ClientConnection) :
    (w.withConnection k).Pointers := by
  constructor
  · exact hw.topics_live
  · exact hw.topics_registered
  · intro d hd
    rcases List.mem_append.mp hd with hd | hd
    · exact (hw.connections_live d hd).new k
    · rw [List.mem_singleton.mp hd]
      exact Heap.live_new_self _ k
  · intro d hd
    rcases Heap.Live.of_new hd with hd | rfl
    · exact List.mem_append_left _ (hw.connections_registered d hd)
    · simp [World.withConnection]
  · exact fun p hp d hd ↦ List.mem_append_left _ (hw.subscribers_registered p hp d hd)

theorem endpointOf_withConnection {w : World} (hw : w.Pointers) (k : ClientConnection)
    {d : Pointer} (hd : d ∈ w.clientConnections) :
    (w.withConnection k).endpointOf d = w.endpointOf d := by
  simp [endpointOf, World.withConnection, Heap.deref_new_of_live (hw.connections_live d hd) k]

theorem endpointOf_withConnection_new (w : World) (k : ClientConnection) :
    (w.withConnection k).endpointOf (w.connectionHeap.new k).1 = ⟨k.address, k.port⟩ := by
  simp [endpointOf, World.withConnection]

theorem viewTopic_withConnection {w : World} (hw : w.Pointers) (k : ClientConnection)
    {p : Pointer} (hp : p ∈ w.topics) : (w.withConnection k).viewTopic p = w.viewTopic p :=
  viewTopic_congr rfl fun d hd ↦
    endpointOf_withConnection hw k (hw.subscribers_registered p hp d hd)

theorem view_withConnection {w : World} (hw : w.Pointers) (k : ClientConnection) :
    (w.withConnection k).view =
      { w.view with connections := w.view.connections ++ [⟨k.address, k.port⟩] } := by
  have htopics : w.topics.map (w.withConnection k).viewTopic = w.topics.map w.viewTopic :=
    List.map_congr_left fun p hp ↦ viewTopic_withConnection hw k hp
  have hkept : w.clientConnections.map (w.withConnection k).endpointOf =
      w.clientConnections.map w.endpointOf :=
    List.map_congr_left fun d hd ↦ endpointOf_withConnection hw k hd
  have hconnections : (w.clientConnections ++ [(w.connectionHeap.new k).1]).map
      (w.withConnection k).endpointOf =
        w.clientConnections.map w.endpointOf ++ [⟨k.address, k.port⟩] := by
    rw [List.map_append, List.map_singleton, hkept, endpointOf_withConnection_new]
  simp only [view] at htopics hconnections ⊢
  rw [← htopics, ← hconnections]
  rfl

/-! ## Deleting an object -/

/-- The state after deleting the topic object of `p`. -/
def withoutTopic (w : World) (p : Pointer) : World :=
  { w with topics := w.topics.filter (· ≠ p), topicHeap := w.topicHeap.release p }

/-- The state after deleting the connection object of `c`. -/
def withoutConnection (w : World) (c : Pointer) : World :=
  { w with
    clientConnections := w.clientConnections.filter (· ≠ c)
    connectionHeap := w.connectionHeap.release c }

theorem mem_topics_withoutTopic {w : World} {p q : Pointer} :
    q ∈ (w.withoutTopic p).topics ↔ q ∈ w.topics ∧ q ≠ p := by
  simp [withoutTopic]

theorem mem_clientConnections_withoutConnection {w : World} {c d : Pointer} :
    d ∈ (w.withoutConnection c).clientConnections ↔ d ∈ w.clientConnections ∧ d ≠ c := by
  simp [withoutConnection]

theorem Pointers.withoutTopic {w : World} (hw : w.Pointers) {p : Pointer} (hp : p ∈ w.topics) :
    (w.withoutTopic p).Pointers := by
  constructor
  · intro q hq
    obtain ⟨hq, hqp⟩ := mem_topics_withoutTopic.mp hq
    exact (hw.topics_live q hq).release hqp
  · intro q hq
    obtain ⟨hq, hqp⟩ := (hw.topics_live p hp).of_release hq
    exact mem_topics_withoutTopic.mpr ⟨hw.topics_registered q hq, hqp⟩
  · exact hw.connections_live
  · exact hw.connections_registered
  · intro q hq c hc
    obtain ⟨hq, hqp⟩ := mem_topics_withoutTopic.mp hq
    have hsame : (w.withoutTopic p).topicHeap.deref q = w.topicHeap.deref q :=
      Heap.deref_release_ne _ hqp
    rw [hsame] at hc
    exact hw.subscribers_registered q hq c hc

theorem view_withoutTopic (w : World) (p : Pointer) :
    (w.withoutTopic p).view =
      { w.view with topics := w.view.topics.filter fun u ↦ u.object ≠ p } := by
  have hview : ∀ q ∈ w.topics.filter (· ≠ p),
      (w.withoutTopic p).viewTopic q = w.viewTopic q := by
    intro q hq
    have hqp : q ≠ p := (mem_topics_withoutTopic.mp hq).2
    exact viewTopic_congr (Heap.deref_release_ne _ hqp) fun _ _ ↦ rfl
  have htopics : (w.topics.filter (· ≠ p)).map (w.withoutTopic p).viewTopic =
      (w.topics.map w.viewTopic).filter fun u ↦ u.object ≠ p := by
    rw [List.map_congr_left hview, List.filter_map]
    rfl
  simp only [view] at htopics ⊢
  rw [← htopics]
  simp [World.withoutTopic, endpointOf]

/-- A connection that no topic refers to can be deleted. -/
theorem Pointers.withoutConnection {w : World} (hw : w.Pointers) {c : Pointer}
    (hc : c ∈ w.clientConnections)
    (hunused : ∀ p ∈ w.topics, ∀ d ∈ (w.topicHeap.deref p).subscriberList, d ≠ c) :
    (w.withoutConnection c).Pointers := by
  constructor
  · exact hw.topics_live
  · exact hw.topics_registered
  · intro d hd
    obtain ⟨hd, hdc⟩ := mem_clientConnections_withoutConnection.mp hd
    exact (hw.connections_live d hd).release hdc
  · intro d hd
    obtain ⟨hd, hdc⟩ := (hw.connections_live c hc).of_release hd
    exact mem_clientConnections_withoutConnection.mpr ⟨hw.connections_registered d hd, hdc⟩
  · intro p hp d hd
    apply mem_clientConnections_withoutConnection.mpr
    exact ⟨hw.subscribers_registered p hp d hd, hunused p hp d hd⟩

theorem view_withoutConnection {w : World} (hinv : w.view.Inv) {c : Pointer}
    (hc : c ∈ w.clientConnections)
    (hunused : ∀ p ∈ w.topics, ∀ d ∈ (w.topicHeap.deref p).subscriberList, d ≠ c) :
    (w.withoutConnection c).view =
      { w.view with connections := w.view.connections.filter (· ≠ w.endpointOf c) } := by
  have hother : ∀ d ≠ c, (w.withoutConnection c).endpointOf d = w.endpointOf d := by
    intro d hd
    simp [endpointOf, World.withoutConnection, Heap.deref_release_ne _ hd]
  have htopics : w.topics.map (w.withoutConnection c).viewTopic = w.topics.map w.viewTopic := by
    apply List.map_congr_left
    intro p hp
    exact viewTopic_congr rfl fun d hd ↦ hother d (hunused p hp d hd)
  have hkept : ∀ d ∈ w.clientConnections.filter (· ≠ c),
      (w.withoutConnection c).endpointOf d = w.endpointOf d := fun d hd ↦
    hother d (mem_clientConnections_withoutConnection.mp hd).2
  -- The endpoint goes with the connection, since no other connection has it.
  have hfilter : w.clientConnections.filter (· ≠ c) =
      w.clientConnections.filter fun d ↦ w.endpointOf d ≠ w.endpointOf c := by
    apply List.filter_congr
    intro d hd
    have hiff : d = c ↔ w.endpointOf d = w.endpointOf c :=
      ⟨fun h ↦ h ▸ rfl, endpointOf_injOn hinv.toWf hd hc⟩
    simp [hiff]
  have hconnections : (w.clientConnections.filter (· ≠ c)).map (w.withoutConnection c).endpointOf =
      (w.clientConnections.map w.endpointOf).filter (· ≠ w.endpointOf c) := by
    rw [List.map_congr_left hkept, hfilter, List.filter_map]
    rfl
  simp only [view] at htopics hconnections ⊢
  rw [← htopics, ← hconnections]
  rfl

end World

end PublisherSubscriber
