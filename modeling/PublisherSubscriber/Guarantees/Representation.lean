import PublisherSubscriber.Broker.Refinement

/-!
# The representation invariant of the server

Between two steps the two vectors and the subscriber lists agree with each
other, and none of their pointers is null or freed.
-/

namespace PublisherSubscriber

open PointerHeap

structure World.Representation (w : World) : Prop where
  topics_live : ∀ p ∈ w.topics, w.topicHeap.Live p
  names_distinct : w.topics.Pairwise fun p q ↦
    (w.topicHeap.deref p).topicName ≠ (w.topicHeap.deref q).topicName
  connections_live : ∀ c ∈ w.clientConnections, w.connectionHeap.Live c
  endpoints_distinct : w.clientConnections.Pairwise fun c d ↦ w.endpointOf c ≠ w.endpointOf d
  subscribers_nonempty : ∀ p ∈ w.topics, (w.topicHeap.deref p).subscriberList ≠ []
  subscribers_distinct : ∀ p ∈ w.topics, (w.topicHeap.deref p).subscriberList.Pairwise fun c d ↦
    w.endpointOf c ≠ w.endpointOf d
  subscribers_registered : ∀ p ∈ w.topics, ∀ c ∈ (w.topicHeap.deref p).subscriberList,
    c ∈ w.clientConnections ∧ w.connectionHeap.Live c

theorem pairwise_of_nodup_map {α β : Type} {f : α → β} {l : List α} (h : (l.map f).Nodup) :
    l.Pairwise fun a b ↦ f a ≠ f b :=
  List.pairwise_map.mp h

theorem World.Sound.representation {w : World} (h : w.Sound) : w.Representation where
  topics_live := h.topics_live
  names_distinct := by
    have hnames : (w.topics.map fun p ↦ (w.topicHeap.deref p).topicName).Nodup := by
      simpa [World.view, World.viewTopic, Function.comp_def] using h.inv.names_nodup
    exact pairwise_of_nodup_map hnames
  connections_live := h.connections_live
  endpoints_distinct := pairwise_of_nodup_map h.inv.connections_nodup
  subscribers_nonempty p hp hnil :=
    h.inv.subscribers_ne_nil (w.viewTopic p) (List.mem_map_of_mem hp) (by
      simp [World.viewTopic, hnil])
  subscribers_distinct p hp :=
    pairwise_of_nodup_map (h.inv.subscribers_nodup (w.viewTopic p) (List.mem_map_of_mem hp))
  subscribers_registered p hp c hc :=
    ⟨h.subscribers_registered p hp c hc, h.subscribers_live hp c hc⟩

theorem representation_invariant (env : Environment) (topicTimeout : ℤ) {w : World}
    (h : (Server.system env topicTimeout).Reachable w) : w.Representation :=
  ((Server.abstraction env topicTimeout).sound h).representation

/-- Two clients share a topic, and one of them leaves another topic that goes with it. -/
theorem representation_invariant_shared_topic :
    let w := (Server.system .steady 10).final [
      .request (.subscribe (ascii "10.0.0.1") 7001 (ascii "news")),
      .request (.subscribe (ascii "10.0.0.2") 7001 (ascii "news")),
      .request (.subscribe (ascii "10.0.0.2") 7001 (ascii "weather")),
      .request (.publish (ascii "news") (ascii "hello")),
      .tick,
      .request (.unsubscribe (ascii "10.0.0.1") 7001 (ascii "news"))]
    w.topics.length = 2 ∧ w.clientConnections.length = 1 ∧ w.Representation :=
  ⟨by decide +kernel, by decide +kernel,
    representation_invariant .steady 10 (Transition.System.reachable_final _ _)⟩

end PublisherSubscriber
