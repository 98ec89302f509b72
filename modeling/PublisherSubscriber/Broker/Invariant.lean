import PublisherSubscriber.Broker.Broker
import Mathlib.Data.List.Nodup

/-!
# Invariants of the broker

`Wf` is what every single change of the broker keeps.  That no topic is without
subscribers holds between requests only: a new topic starts without any.
-/

namespace PublisherSubscriber

open PointerHeap

namespace Broker

structure Wf (b : Broker) : Prop where
  names_nodup : (b.topics.map TopicView.topicName).Nodup
  objects_nodup : (b.topics.map TopicView.object).Nodup
  objects_allocated : ∀ v ∈ b.topics, ∃ n < b.allocated, v.object = some n
  connections_nodup : b.connections.Nodup
  subscribers_nodup : ∀ v ∈ b.topics, v.subscribers.Nodup
  subscribers_connected : ∀ v ∈ b.topics, ∀ e ∈ v.subscribers, e ∈ b.connections

structure Inv (b : Broker) : Prop extends b.Wf where
  subscribers_ne_nil : ∀ v ∈ b.topics, v.subscribers ≠ []

/-- `Wf` looks at three components only. -/
theorem Wf.congr {b c : Broker} (h : b.Wf) (ht : c.topics = b.topics)
    (hc : c.connections = b.connections) (ha : c.allocated = b.allocated) : c.Wf := by
  constructor <;> simp only [ht, hc, ha]
  exacts [h.names_nodup, h.objects_nodup, h.objects_allocated, h.connections_nodup,
    h.subscribers_nodup, h.subscribers_connected]

/-! ## Looking topics up -/

theorem find_eq_some {b : Broker} {topicName : Text} {v : TopicView}
    (h : b.find topicName = some v) : v ∈ b.topics ∧ v.topicName = topicName := by
  refine ⟨List.mem_of_find?_eq_some h, ?_⟩
  simpa using List.find?_some h

theorem find_eq_none_iff {b : Broker} {topicName : Text} :
    b.find topicName = none ↔ ∀ v ∈ b.topics, v.topicName ≠ topicName := by
  simp [find]

theorem Wf.eq_of_topicName {b : Broker} (h : b.Wf) {u v : TopicView} (hu : u ∈ b.topics)
    (hv : v ∈ b.topics) (huv : u.topicName = v.topicName) : u = v :=
  List.inj_on_of_nodup_map h.names_nodup hu hv huv

theorem Wf.eq_of_object {b : Broker} (h : b.Wf) {u v : TopicView} (hu : u ∈ b.topics)
    (hv : v ∈ b.topics) (huv : u.object = v.object) : u = v :=
  List.inj_on_of_nodup_map h.objects_nodup hu hv huv

theorem Wf.find_object {b : Broker} (h : b.Wf) {v : TopicView} (hv : v ∈ b.topics) :
    b.topics.find? (fun u ↦ u.object = v.object) = some v := by
  cases hfind : b.topics.find? (fun u ↦ u.object = v.object) with
  | none => simp only [List.find?_eq_none] at hfind; simpa using hfind v hv
  | some u =>
      have hu : u.object = v.object := by simpa using List.find?_some hfind
      rw [h.eq_of_object (List.mem_of_find?_eq_some hfind) hv hu]

theorem Wf.object_ne_allocated {b : Broker} (h : b.Wf) {v : TopicView} (hv : v ∈ b.topics) :
    v.object ≠ some b.allocated := by
  obtain ⟨n, hn, hobject⟩ := h.objects_allocated v hv
  rw [hobject]
  rintro ⟨⟩
  exact Nat.lt_irrefl _ hn

theorem Wf.find_topicName {b : Broker} (h : b.Wf) {v : TopicView} (hv : v ∈ b.topics) :
    b.find v.topicName = some v := by
  cases hfind : b.find v.topicName with
  | none => exact absurd rfl (find_eq_none_iff.mp hfind v hv)
  | some u =>
      obtain ⟨hu, hname⟩ := find_eq_some hfind
      rw [h.eq_of_topicName hu hv hname]

/-! ## The single changes -/

theorem nodup_append_singleton {α : Type} {l : List α} {a : α} (h : l.Nodup) (ha : a ∉ l) :
    (l ++ [a]).Nodup := by
  rw [← List.concat_eq_append]
  exact h.concat ha

theorem mem_alter {b : Broker} {object : Pointer} {f : TopicView → TopicView} {v : TopicView} :
    v ∈ (b.alter object f).topics ↔
      ∃ u ∈ b.topics, (if u.object = object then f u else u) = v := by
  simp [alter]

theorem topicNames_alter (b : Broker) (object : Pointer) {f : TopicView → TopicView}
    (hf : ∀ u, (f u).topicName = u.topicName) :
    (b.alter object f).topics.map TopicView.topicName = b.topics.map TopicView.topicName := by
  simp only [alter, List.map_map]
  refine List.map_congr_left fun u _ ↦ ?_
  by_cases hu : u.object = object <;> simp [hu, hf]

theorem objects_alter (b : Broker) (object : Pointer) {f : TopicView → TopicView}
    (hf : ∀ u, (f u).object = u.object) :
    (b.alter object f).topics.map TopicView.object = b.topics.map TopicView.object := by
  simp only [alter, List.map_map]
  refine List.map_congr_left fun u _ ↦ ?_
  by_cases hu : u.object = object <;> simp [hu, hf]

/-- A topic that is dropped need not be altered first. -/
theorem filter_topics_alter (b : Broker) (object : Pointer) {f : TopicView → TopicView}
    (hf : ∀ u, (f u).object = u.object) :
    ((b.alter object f).topics.filter fun u ↦ u.object ≠ object) =
      b.topics.filter fun u ↦ u.object ≠ object := by
  simp only [alter]
  induction b.topics with
  | nil => rfl
  | cons u us ih =>
      by_cases hu : u.object = object
      · simp only [List.map_cons, if_pos hu]
        rw [List.filter_cons_of_neg (by simp [hf, hu]), List.filter_cons_of_neg (by simp [hu]), ih]
      · simp only [List.map_cons, if_neg hu]
        rw [List.filter_cons_of_pos (by simp [hu]), List.filter_cons_of_pos (by simp [hu]), ih]

theorem Wf.alter {b : Broker} (h : b.Wf) {object : Pointer} {f : TopicView → TopicView}
    (hname : ∀ u, (f u).topicName = u.topicName) (hobject : ∀ u, (f u).object = u.object)
    (hnodup : ∀ u ∈ b.topics, u.object = object → (f u).subscribers.Nodup)
    (hconnected : ∀ u ∈ b.topics, u.object = object → ∀ e ∈ (f u).subscribers, e ∈ b.connections) :
    (b.alter object f).Wf where
  names_nodup := by rw [topicNames_alter b object hname]; exact h.names_nodup
  objects_nodup := by rw [objects_alter b object hobject]; exact h.objects_nodup
  objects_allocated := by
    intro v hv
    obtain ⟨u, hu, rfl⟩ := mem_alter.mp hv
    obtain ⟨n, hn, hun⟩ := h.objects_allocated u hu
    refine ⟨n, hn, ?_⟩
    split_ifs
    · rw [hobject, hun]
    · exact hun
  connections_nodup := h.connections_nodup
  subscribers_nodup := by
    intro v hv
    obtain ⟨u, hu, rfl⟩ := mem_alter.mp hv
    split_ifs with huo
    · exact hnodup u hu huo
    · exact h.subscribers_nodup u hu
  subscribers_connected := by
    intro v hv
    obtain ⟨u, hu, rfl⟩ := mem_alter.mp hv
    split_ifs with huo
    · exact hconnected u hu huo
    · exact h.subscribers_connected u hu

/-- A change that leaves the subscribers alone. -/
theorem Inv.alter_of_subscribers {b : Broker} (h : b.Inv) (object : Pointer)
    {f : TopicView → TopicView} (hname : ∀ u, (f u).topicName = u.topicName)
    (hobject : ∀ u, (f u).object = u.object) (hsub : ∀ u, (f u).subscribers = u.subscribers) :
    (b.alter object f).Inv where
  toWf := h.toWf.alter hname hobject
    (fun u hu _ ↦ by rw [hsub]; exact h.subscribers_nodup u hu)
    (fun u hu _ ↦ by rw [hsub]; exact h.subscribers_connected u hu)
  subscribers_ne_nil := by
    intro v hv
    obtain ⟨u, hu, rfl⟩ := mem_alter.mp hv
    split_ifs
    · rw [hsub]; exact h.subscribers_ne_nil u hu
    · exact h.subscribers_ne_nil u hu

theorem Inv.congr {b c : Broker} (h : b.Inv) (ht : c.topics = b.topics)
    (hc : c.connections = b.connections) (ha : c.allocated = b.allocated) : c.Inv where
  toWf := h.toWf.congr ht hc ha
  subscribers_ne_nil := by rw [ht]; exact h.subscribers_ne_nil

theorem Wf.addTopic {b : Broker} (h : b.Wf) (env : Environment) {topicName : Text}
    (hfind : b.find topicName = none) : (b.addTopic env topicName).Wf where
  names_nodup := by
    have hnew : topicName ∉ b.topics.map TopicView.topicName := by
      rintro hmem
      obtain ⟨v, hv, hname⟩ := List.mem_map.mp hmem
      exact find_eq_none_iff.mp hfind v hv hname
    simpa [Broker.addTopic, newTopic] using nodup_append_singleton h.names_nodup hnew
  objects_nodup := by
    have hnew : some b.allocated ∉ b.topics.map TopicView.object := by
      rintro hmem
      obtain ⟨v, hv, hobject⟩ := List.mem_map.mp hmem
      exact h.object_ne_allocated hv hobject
    simpa [Broker.addTopic, newTopic] using nodup_append_singleton h.objects_nodup hnew
  objects_allocated := by
    intro v hv
    rcases List.mem_append.mp hv with hv | hv
    · obtain ⟨n, hn, hobject⟩ := h.objects_allocated v hv
      exact ⟨n, Nat.lt_succ_of_lt hn, hobject⟩
    · rw [List.mem_singleton.mp hv]
      exact ⟨b.allocated, Nat.lt_succ_self _, rfl⟩
  connections_nodup := h.connections_nodup
  subscribers_nodup := by
    intro v hv
    rcases List.mem_append.mp hv with hv | hv
    · exact h.subscribers_nodup v hv
    · rw [List.mem_singleton.mp hv]
      exact List.nodup_nil
  subscribers_connected := by
    intro v hv
    rcases List.mem_append.mp hv with hv | hv
    · exact h.subscribers_connected v hv
    · rw [List.mem_singleton.mp hv]
      intro e he
      exact absurd he List.not_mem_nil

theorem Wf.connect {b : Broker} (h : b.Wf) (e : Endpoint) : (b.connect e).Wf := by
  rcases b.connect_cases e with ⟨-, hconnect⟩ | ⟨he, hconnect⟩ <;> rw [hconnect]
  · exact h
  · exact {
      names_nodup := h.names_nodup
      objects_nodup := h.objects_nodup
      objects_allocated := h.objects_allocated
      connections_nodup := nodup_append_singleton h.connections_nodup he
      subscribers_nodup := h.subscribers_nodup
      subscribers_connected := fun v hv e' he' ↦
        List.mem_append_left _ (h.subscribers_connected v hv e' he') }

theorem mem_connections_connect (b : Broker) (e : Endpoint) : e ∈ (b.connect e).connections := by
  rcases b.connect_cases e with ⟨he, hconnect⟩ | ⟨-, hconnect⟩ <;> rw [hconnect]
  · exact he
  · simp

@[simp] theorem topics_connect (b : Broker) (e : Endpoint) : (b.connect e).topics = b.topics := by
  rcases b.connect_cases e with ⟨-, hconnect⟩ | ⟨-, hconnect⟩ <;> rw [hconnect]

/-- The topic a subscribe works on, and what it leaves of the others. -/
theorem Wf.findOrAddTopic {b : Broker} (h : b.Wf) (env : Environment) (topicName : Text) :
    (b.findOrAddTopic env topicName).2.Wf ∧
      (b.findOrAddTopic env topicName).1 ∈ (b.findOrAddTopic env topicName).2.topics ∧
      (b.findOrAddTopic env topicName).1.topicName = topicName := by
  rcases b.findOrAddTopic_cases env topicName with ⟨hfind, hadd⟩ | ⟨v, hfind, hadd⟩ <;> rw [hadd]
  · exact ⟨h.addTopic env hfind, by simp [Broker.addTopic], rfl⟩
  · exact ⟨h, (find_eq_some hfind).1, (find_eq_some hfind).2⟩

theorem mem_topics_findOrAddTopic {b : Broker} {env : Environment} {topicName : Text}
    {v : TopicView} (hv : v ∈ (b.findOrAddTopic env topicName).2.topics) :
    v ∈ b.topics ∨ v = (b.findOrAddTopic env topicName).1 := by
  rcases b.findOrAddTopic_cases env topicName with ⟨-, hadd⟩ | ⟨u, -, hadd⟩ <;> rw [hadd] at hv ⊢
  · simpa [addTopic] using hv
  · exact Or.inl hv

/-- Every topic has a first subscriber. -/
theorem Inv.exists_head {b : Broker} (h : b.Inv) {v : TopicView} (hv : v ∈ b.topics) :
    ∃ first, v.subscribers.head? = some first := by
  cases hsub : v.subscribers with
  | nil => exact (h.subscribers_ne_nil v hv hsub).elim
  | cons first rest => exact ⟨first, rfl⟩

theorem Inv.subscribe {b : Broker} (h : b.Inv) (env : Environment) (e : Endpoint)
    (topicName : Text) : (b.subscribe env e topicName).2.Inv := by
  obtain ⟨hwf, hmem, -⟩ := h.toWf.findOrAddTopic env topicName
  have hconnected := hwf.connect e
  rcases b.subscribe_cases env e topicName with ⟨he, hsubscribe⟩ | ⟨he, hsubscribe⟩ <;>
    rw [hsubscribe]
  · -- A topic that has a subscriber was found, so none was added.
    refine ⟨hconnected, fun v hv ↦ ?_⟩
    rw [topics_connect] at hv
    rcases mem_topics_findOrAddTopic hv with hv | rfl
    · exact h.subscribers_ne_nil v hv
    · exact List.ne_nil_of_mem he
  · have hunique : ∀ u ∈ (b.findOrAddTopic env topicName).2.topics,
        u.object = (b.findOrAddTopic env topicName).1.object →
          u = (b.findOrAddTopic env topicName).1 := fun u hu huo ↦ hwf.eq_of_object hu hmem huo
    refine ⟨hconnected.alter (fun _ ↦ rfl) (fun _ ↦ rfl) ?_ ?_, ?_⟩
    · intro u hu huo
      rw [topics_connect] at hu
      rw [hunique u hu huo]
      exact nodup_append_singleton (hwf.subscribers_nodup _ hmem) he
    · intro u hu huo e' he'
      rcases List.mem_append.mp he' with he' | he'
      · exact hconnected.subscribers_connected u hu e' he'
      · rw [List.mem_singleton.mp he']
        exact mem_connections_connect _ e
    · intro v hv
      obtain ⟨u, hu, rfl⟩ := mem_alter.mp hv
      rw [topics_connect] at hu
      split_ifs with huo
      · simp [TopicView.addSubscriber]
      · rcases mem_topics_findOrAddTopic hu with hu | rfl
        · exact h.subscribers_ne_nil u hu
        · exact (huo rfl).elim

theorem Inv.dropFirst {b : Broker} (h : b.Inv) {v : TopicView} (hv : v ∈ b.topics) :
    (b.dropFirst v).Inv := by
  have hsub : (b.topics.filter fun u ↦ u.object ≠ v.object) ⊆ b.topics :=
    fun u hu ↦ List.mem_of_mem_filter hu
  rcases b.dropFirst_cases v with ⟨-, hdrop⟩ | ⟨htail, hdrop⟩ <;> rw [hdrop]
  · exact {
      names_nodup := h.names_nodup.sublist (List.filter_sublist.map _)
      objects_nodup := h.objects_nodup.sublist (List.filter_sublist.map _)
      objects_allocated := fun u hu ↦ h.objects_allocated u (hsub hu)
      connections_nodup := h.connections_nodup
      subscribers_nodup := fun u hu ↦ h.subscribers_nodup u (hsub hu)
      subscribers_connected := fun u hu ↦ h.subscribers_connected u (hsub hu)
      subscribers_ne_nil := fun u hu ↦ h.subscribers_ne_nil u (hsub hu) }
  · refine ⟨h.toWf.alter (fun _ ↦ rfl) (fun _ ↦ rfl) ?_ ?_, ?_⟩
    · exact fun u hu _ ↦ (h.subscribers_nodup u hu).sublist (List.tail_sublist _)
    · exact fun u hu _ e he ↦ h.subscribers_connected u hu e (List.mem_of_mem_tail he)
    · intro u hu
      obtain ⟨w, hw, rfl⟩ := mem_alter.mp hu
      split_ifs with hwo
      · rw [h.eq_of_object hw hv hwo]
        exact htail
      · exact h.subscribers_ne_nil w hw

theorem Inv.releaseConnection {b c : Broker} (h : b.Inv) {e : Endpoint}
    (hrelease : b.releaseConnection e = .ok c) : c.Inv := by
  rcases releaseConnection_cases hrelease with ⟨rfl, -⟩ | ⟨hsub, rfl⟩
  · exact h
  · exact {
      names_nodup := h.names_nodup
      objects_nodup := h.objects_nodup
      objects_allocated := h.objects_allocated
      connections_nodup := h.connections_nodup.filter _
      subscribers_nodup := h.subscribers_nodup
      subscribers_connected := by
        intro v hv e' he'
        have hne : e' ≠ e := fun hee ↦ hsub ⟨v, hv, hee ▸ he'⟩
        simpa [hne] using h.subscribers_connected v hv e' he'
      subscribers_ne_nil := h.subscribers_ne_nil }

theorem Inv.unsubscribe {b c : Broker} (h : b.Inv) {e : Endpoint} {topicName : Text}
    {r : Response} (hstep : b.unsubscribe e topicName = .ok (r, c)) : c.Inv := by
  rcases unsubscribe_cases hstep with ⟨-, rfl, -⟩ | ⟨v, hfind, hrelease, -⟩
  · exact h
  · exact (h.dropFirst (find_eq_some hfind).1).releaseConnection hrelease

theorem Inv.publish {b : Broker} (h : b.Inv) (env : Environment) (topicName message : Text) :
    (b.publish env topicName message).2.Inv := by
  rcases b.publish_cases env topicName message with ⟨-, hpublish⟩ | ⟨v, -, hpublish⟩ <;>
    rw [hpublish]
  · exact h
  · exact (h.alter_of_subscribers v.object (f := .store message _ _)
      (fun _ ↦ rfl) (fun _ ↦ rfl) fun _ ↦ rfl).congr rfl rfl rfl

theorem Inv.checkView {b : Broker} (h : b.Inv) (env : Environment) (v : TopicView) :
    (b.checkView env v).Inv := by
  rcases checkView_cases env b v with ⟨-, _, _, -, hcheck⟩ | ⟨-, _, hcheck⟩ <;> rw [hcheck]
  · exact (h.alter_of_subscribers v.object (f := .postpone _)
      (fun _ ↦ rfl) (fun _ ↦ rfl) fun _ ↦ rfl).congr rfl rfl rfl
  · exact h.congr rfl rfl rfl

theorem Inv.checkTopic {b : Broker} (h : b.Inv) (env : Environment) (object : Pointer) :
    (b.checkTopic env object).Inv := by
  rcases checkTopic_cases env b object with hcheck | ⟨v, -, -, hcheck⟩ <;> rw [hcheck]
  · exact h
  · exact h.checkView env v

theorem Inv.tick {b : Broker} (h : b.Inv) (env : Environment) : (b.tick env).Inv := by
  apply tick_induction env _ h
  intro c object hc
  exact hc.checkTopic env object

theorem Inv.handle {b c : Broker} (h : b.Inv) {env : Environment} {q : Request} {r : Response}
    (hstep : b.handle env q = .ok (r, c)) : c.Inv := by
  cases q with
  | subscribe ipAddress port topicName =>
      have hc : b.subscribe env ⟨ipAddress, port⟩ topicName = (r, c) := Except.ok.inj hstep
      simpa [hc] using h.subscribe env ⟨ipAddress, port⟩ topicName
  | unsubscribe ipAddress port topicName => exact h.unsubscribe hstep
  | publish topicName message =>
      have hc : b.publish env topicName message = (r, c) := Except.ok.inj hstep
      simpa [hc] using h.publish env topicName message
  | listTopics =>
      cases hstep
      exact h
  | getTopicStatus topicName =>
      cases hstep
      exact h

/-- What an action did: a handled request, or a tick. -/
theorem act_eq_ok {b c : Broker} {env : Environment} {a : Action} {r : Option Response}
    (hstep : b.act env a = .ok (r, c)) :
    (∃ q s, a = .request q ∧ r = some s ∧ b.handle env q = .ok (s, c)) ∨
      (a = .tick ∧ r = none ∧ c = b.tick env) := by
  cases a with
  | tick =>
      cases hstep
      exact Or.inr ⟨rfl, rfl, rfl⟩
  | request q =>
      obtain ⟨answered, hhandle, hanswered⟩ := of_map_eq_ok hstep
      obtain ⟨rfl, rfl⟩ := Prod.mk.inj hanswered
      exact Or.inl ⟨q, answered.1, rfl, rfl, hhandle⟩

theorem Inv.act {b c : Broker} (h : b.Inv) {env : Environment} {a : Action}
    {r : Option Response} (hstep : b.act env a = .ok (r, c)) : c.Inv := by
  rcases act_eq_ok hstep with ⟨q, s, -, -, hhandle⟩ | ⟨-, -, rfl⟩
  · exact h.handle hhandle
  · exact h.tick env

theorem inv_start (env : Environment) (topicTimeout : ℤ) : (system env topicTimeout).start.Inv := by
  constructor
  · constructor <;> simp [system]
  · simp [system]

end Broker

end PublisherSubscriber
