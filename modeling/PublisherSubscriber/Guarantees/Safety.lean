import PublisherSubscriber.Broker.Membership
import PublisherSubscriber.Broker.Refinement

/-!
# When the server dereferences null

`handleUnsubscribeRequest` looks the client up, and uses the result without a
test once it asks the remaining topics whether the client is still subscribed.
-/

namespace PublisherSubscriber

open PointerHeap

namespace Broker

theorem Inv.topics_eq_singleton {b : Broker} (h : b.Inv) {v : TopicView} (hv : v ∈ b.topics) :
    (∀ u ∈ b.topics, u.object = v.object) ↔ b.topics.length ≤ 1 := by
  constructor
  · intro hall
    have hreplicate := List.eq_replicate_of_mem fun u hu ↦ h.eq_of_object hu hv (hall u hu)
    have hnodup : b.topics.Nodup := List.Nodup.of_map _ h.objects_nodup
    rw [hreplicate] at hnodup
    exact List.nodup_replicate.mp hnodup
  · intro hlength u hu
    obtain ⟨w, hw⟩ := List.length_eq_one_iff.mp
      (Nat.le_antisymm hlength (List.length_pos_of_mem hv))
    rw [hw, List.mem_singleton] at hu hv
    rw [hu, hv]

theorem Inv.topics_dropFirst_eq_nil {b : Broker} (h : b.Inv) {v : TopicView} (hv : v ∈ b.topics) :
    (b.dropFirst v).topics = [] ↔ v.subscribers.length ≤ 1 ∧ b.topics.length ≤ 1 := by
  have htail : v.subscribers.tail = [] ↔ v.subscribers.length ≤ 1 := by
    rw [← List.length_eq_zero_iff, List.length_tail]
    omega
  have hne : b.topics ≠ [] := List.ne_nil_of_mem hv
  rw [← htail, ← h.topics_eq_singleton hv]
  by_cases hlast : v.subscribers.tail = []
  · simp [Broker.dropFirst, hlast]
  · simp [Broker.dropFirst, hlast, Broker.alter, hne]

/-- The unsubscribe of an unknown client, unless no topic is left to ask. -/
theorem Inv.unsubscribe_error_iff {b : Broker} (h : b.Inv) (e : Endpoint) (topicName : Text)
    (fault : Fault) :
    b.unsubscribe e topicName = .error fault ↔
      fault = .nullDereference ∧ e ∉ b.connections ∧ ∃ v ∈ b.topics, v.topicName = topicName ∧
        (2 ≤ v.subscribers.length ∨ 2 ≤ b.topics.length) := by
  cases hfind : b.find topicName with
  | none =>
      have hnone := find_eq_none_iff.mp hfind
      simp only [Broker.unsubscribe, hfind, reduceCtorEq, false_iff]
      rintro ⟨-, -, v, hv, hname, -⟩
      exact hnone v hv hname
  | some v =>
      obtain ⟨hv, hname⟩ := find_eq_some hfind
      have hnil := h.topics_dropFirst_eq_nil hv
      have hexists : (∃ u ∈ b.topics, u.topicName = topicName ∧
          (2 ≤ u.subscribers.length ∨ 2 ≤ b.topics.length)) ↔
            ¬ (b.dropFirst v).topics = [] := by
        rw [hnil]
        constructor
        · rintro ⟨u, hu, huname, hlength⟩
          rw [h.eq_of_topicName hu hv (huname.trans hname.symm)] at hlength
          omega
        · intro hlength
          exact ⟨v, hv, hname, by omega⟩
      rw [hexists]
      simp only [Broker.unsubscribe, hfind, Broker.releaseConnection, connections_dropFirst]
      by_cases hknown : e ∈ b.connections
      · simp [hknown, Except.map]
      · by_cases hlast : (b.dropFirst v).topics = []
        · simp [hknown, hlast, Except.map]
        · simp [hknown, hlast, Except.map, eq_comm]

end Broker

/-- An unsubscribe of a client that is not among the connections, from a topic
that has another subscriber or is not the only topic. -/
def World.AsksNull (w : World) : Action → Prop
  | .request (.unsubscribe ipAddress port topicName) =>
      (∀ c ∈ w.clientConnections, w.endpointOf c ≠ ⟨ipAddress, port⟩) ∧
        ∃ p ∈ w.topics, (w.topicHeap.deref p).topicName = topicName ∧
          (2 ≤ (w.topicHeap.deref p).subscriberList.length ∨ 2 ≤ w.topics.length)
  | _ => False

instance (w : World) : DecidablePred w.AsksNull
  | .request (.unsubscribe _ _ _) => inferInstanceAs (Decidable (_ ∧ _))
  | .request (.subscribe _ _ _) | .request (.publish _ _) | .request .listTopics
  | .request (.getTopicStatus _) | .tick => isFalse id

namespace Server

theorem step_error_iff {env : Environment} {topicTimeout : ℤ} {w : World} (hw : w.Sound)
    (a : Action) (fault : Fault) :
    (system env topicTimeout).step w a = .error fault ↔
      fault = .nullDereference ∧ w.AsksNull a := by
  have hbroker : (system env topicTimeout).step w a = .error fault ↔
      w.view.act env a = .error fault := by
    have hfollows := follows_act env hw a
    cases hact : w.view.act env a with
    | error f =>
        rw [hact] at hfollows
        have hrun : (system env topicTimeout).step w a = .error f := hfollows
        simp [hrun]
    | ok r =>
        rw [hact] at hfollows
        obtain ⟨w', hrun, -, -⟩ := hfollows
        have hrun' : (system env topicTimeout).step w a = .ok (r.1, w') := hrun
        simp [hrun']
  rw [hbroker]
  cases a with
  | tick => simp [Broker.act, World.AsksNull]
  | request q =>
      cases q with
      | unsubscribe ipAddress port topicName =>
          have hunsubscribe := hw.inv.unsubscribe_error_iff ⟨ipAddress, port⟩ topicName fault
          have hmap : w.view.act env (.request (.unsubscribe ipAddress port topicName)) =
              .error fault ↔ w.view.unsubscribe ⟨ipAddress, port⟩ topicName = .error fault := by
            simp only [Broker.act, Broker.handle]
            cases w.view.unsubscribe ⟨ipAddress, port⟩ topicName <;> simp [Except.map]
          rw [hmap, hunsubscribe]
          simp [World.AsksNull, World.view, World.viewTopic]
      | subscribe => simp [Broker.act, Broker.handle, Except.map, World.AsksNull]
      | publish => simp [Broker.act, Broker.handle, Except.map, World.AsksNull]
      | listTopics => simp [Broker.act, Broker.handle, Except.map, World.AsksNull]
      | getTopicStatus => simp [Broker.act, Broker.handle, Except.map, World.AsksNull]

theorem step_ok_of_not_asksNull {env : Environment} {topicTimeout : ℤ} {w : World}
    (hw : w.Sound) {a : Action} (ha : ¬ w.AsksNull a) :
    ∃ r w', (system env topicTimeout).step w a = .ok (r, w') ∧ w'.Sound := by
  cases hstep : (system env topicTimeout).step w a with
  | error fault => exact (ha ((step_error_iff hw a fault).mp hstep).2).elim
  | ok r => exact ⟨r.1, r.2, rfl, ((abstraction env topicTimeout).view_step hw hstep).2⟩

end Server

/-- In a reachable state a step dereferences no bad pointer exactly when it does
not ask null, and a run of such steps completes. -/
theorem no_bad_dereference_iff (env : Environment) (topicTimeout : ℤ) {w : World}
    (h : (Server.system env topicTimeout).Reachable w) :
    (∀ a, (∀ fault, (Server.system env topicTimeout).step w a ≠ .error fault) ↔
      ¬ w.AsksNull a) ∧
    ∀ actions, (Server.system env topicTimeout).Meets (fun w a ↦ ¬ w.AsksNull a) w actions →
      ∃ outputs w', (Server.system env topicTimeout).run w actions = .ok (outputs, w') := by
  have hw : w.Sound := (Server.abstraction env topicTimeout).sound h
  refine ⟨fun a ↦ ⟨fun hsafe hnull ↦ ?_, fun hnull fault hfault ↦ ?_⟩, fun actions hmeets ↦ ?_⟩
  · exact hsafe .nullDereference ((Server.step_error_iff hw a _).mpr ⟨rfl, hnull⟩)
  · exact hnull ((Server.step_error_iff hw a fault).mp hfault).2
  · obtain ⟨outputs, w', hrun, -⟩ := Transition.System.run_ok_of_meets
      (fun _ _ hs ha ↦ Server.step_ok_of_not_asksNull hs ha) hw hmeets
    exact ⟨outputs, w', hrun⟩

/-- A client that is known may leave a topic it never joined. -/
theorem no_bad_dereference_known_client :
    let w := (Server.system .steady 10).final [
      .request (.subscribe (ascii "10.0.0.1") 7001 (ascii "news")),
      .request (.subscribe (ascii "10.0.0.2") 7001 (ascii "weather"))]
    ∀ fault, (Server.system .steady 10).step w
      (.request (.unsubscribe (ascii "10.0.0.2") 7001 (ascii "news"))) ≠ .error fault :=
  ((no_bad_dereference_iff .steady 10 (Transition.System.reachable_final _ _)).1 _).mpr
    (by decide +kernel)

/-- An unknown client leaves a topic that has two subscribers. -/
theorem unknown_client_dereferences_null :
    let w := (Server.system .steady 10).final [
      .request (.subscribe (ascii "10.0.0.1") 7001 (ascii "news")),
      .request (.subscribe (ascii "10.0.0.2") 7001 (ascii "news"))]
    (Server.system .steady 10).Reachable w ∧
      (Server.handle .steady (.unsubscribe (ascii "10.0.0.3") 7001 (ascii "news"))).run w =
        .error .nullDereference :=
  ⟨Transition.System.reachable_final _ _, by decide +kernel⟩

end PublisherSubscriber
