import PublisherSubscriber.Broker.Abstraction

/-!
# Who is subscribed to what

`Has b e t` says that endpoint `e` is a subscriber of the topic named `t`.  For
every operation of the broker this module says how it changes that relation.
-/

namespace PublisherSubscriber

open PointerHeap

namespace Broker

def Has (b : Broker) (e : Endpoint) (topicName : Text) : Prop :=
  ∃ v ∈ b.topics, v.topicName = topicName ∧ e ∈ v.subscribers

theorem Has.congr {b c : Broker} (h : c.topics = b.topics) (e : Endpoint) (t : Text) :
    c.Has e t ↔ b.Has e t := by
  simp only [Has, h]

theorem Inv.exists_has_iff {b : Broker} (h : b.Inv) (topicName : Text) :
    (∃ e, b.Has e topicName) ↔ ∃ v ∈ b.topics, v.topicName = topicName := by
  constructor
  · rintro ⟨e, v, hv, hname, -⟩
    exact ⟨v, hv, hname⟩
  · rintro ⟨v, hv, hname⟩
    obtain ⟨e, he⟩ := List.exists_mem_of_ne_nil _ (h.subscribers_ne_nil v hv)
    exact ⟨e, v, hv, hname, he⟩

theorem Inv.exists_has_iff_find {b : Broker} (h : b.Inv) (topicName : Text) :
    (∃ e, b.Has e topicName) ↔ b.find topicName ≠ none := by
  rw [h.exists_has_iff, Ne, find_eq_none_iff]
  push Not
  rfl

theorem Wf.has_iff_of_mem {b : Broker} (h : b.Wf) {v : TopicView} (hv : v ∈ b.topics)
    (e : Endpoint) : b.Has e v.topicName ↔ e ∈ v.subscribers := by
  constructor
  · rintro ⟨u, hu, hname, he⟩
    rwa [h.eq_of_topicName hu hv hname] at he
  · intro he
    exact ⟨v, hv, rfl, he⟩

/-- A change of one topic that keeps its name. -/
theorem Wf.has_alter {b : Broker} (h : b.Wf) {v : TopicView} (hv : v ∈ b.topics)
    {f : TopicView → TopicView} (hname : ∀ u, (f u).topicName = u.topicName) (e : Endpoint)
    (t : Text) :
    (b.alter v.object f).Has e t ↔
      if t = v.topicName then e ∈ (f v).subscribers else b.Has e t := by
  constructor
  · rintro ⟨w, hw, rfl, he⟩
    obtain ⟨u, hu, rfl⟩ := mem_alter.mp hw
    by_cases huv : u.object = v.object
    · obtain rfl := h.eq_of_object hu hv huv
      simpa [hname] using he
    · have hne : u.topicName ≠ v.topicName := fun hn ↦ huv (by rw [h.eq_of_topicName hu hv hn])
      simp only [if_neg huv] at he ⊢
      rw [if_neg hne]
      exact ⟨u, hu, rfl, he⟩
  · intro hif
    split_ifs at hif with ht
    · exact ⟨f v, mem_alter.mpr ⟨v, hv, if_pos rfl⟩, by rw [hname, ht], hif⟩
    · obtain ⟨u, hu, rfl, he⟩ := hif
      have huv : u.object ≠ v.object := fun hn ↦ ht (by rw [h.eq_of_object hu hv hn])
      exact ⟨u, mem_alter.mpr ⟨u, hu, if_neg huv⟩, rfl, he⟩

/-- A change that leaves names and subscribers alone. -/
theorem has_alter_of_subscribers (b : Broker) (object : Pointer) {f : TopicView → TopicView}
    (hname : ∀ u, (f u).topicName = u.topicName)
    (hsub : ∀ u, (f u).subscribers = u.subscribers) (e : Endpoint) (t : Text) :
    (b.alter object f).Has e t ↔ b.Has e t := by
  constructor
  · rintro ⟨w, hw, rfl, he⟩
    obtain ⟨u, hu, rfl⟩ := mem_alter.mp hw
    refine ⟨u, hu, ?_⟩
    split_ifs at he ⊢
    · exact ⟨(hname u).symm, hsub u ▸ he⟩
    · exact ⟨rfl, he⟩
  · rintro ⟨u, hu, rfl, he⟩
    refine ⟨_, mem_alter.mpr ⟨u, hu, rfl⟩, ?_⟩
    split_ifs
    · exact ⟨hname u, hsub u ▸ he⟩
    · exact ⟨rfl, he⟩

theorem has_findOrAddTopic (b : Broker) (env : Environment) (topicName : Text) (e : Endpoint)
    (t : Text) : (b.findOrAddTopic env topicName).2.Has e t ↔ b.Has e t := by
  rcases b.findOrAddTopic_cases env topicName with ⟨-, hadd⟩ | ⟨v, -, hadd⟩ <;> rw [hadd]
  simp [Has, addTopic, newTopic, or_and_right, exists_or]

theorem Inv.has_subscribe {b : Broker} (h : b.Inv) (env : Environment) (e : Endpoint)
    (topicName : Text) (e' : Endpoint) (t : Text) :
    (b.subscribe env e topicName).2.Has e' t ↔ b.Has e' t ∨ (e' = e ∧ t = topicName) := by
  obtain ⟨hwf, hmem, hname⟩ := h.toWf.findOrAddTopic env topicName
  have hold := has_findOrAddTopic b env topicName
  have hnamed := hwf.has_iff_of_mem hmem
  rw [hname] at hnamed
  rcases b.subscribe_cases env e topicName with ⟨he, hsubscribe⟩ | ⟨he, hsubscribe⟩ <;>
    rw [hsubscribe]
  · rw [Has.congr (topics_connect _ e), hold]
    refine ⟨Or.inl, ?_⟩
    rintro (hhas | ⟨rfl, rfl⟩)
    · exact hhas
    · exact (hold e' t).mp ((hnamed e').mpr he)
  · have hmem' : (b.findOrAddTopic env topicName).1 ∈
        ((b.findOrAddTopic env topicName).2.connect e).topics := by simpa using hmem
    rw [(hwf.connect e).has_alter (f := .addSubscriber e) hmem' fun _ ↦ rfl, hname,
      Has.congr (topics_connect _ e), hold]
    split_ifs with ht
    · subst ht
      simp only [TopicView.addSubscriber, List.mem_append, List.mem_singleton, ← hnamed, hold,
        and_true]
    · simp [ht]

/-- A subscribe succeeds unless the endpoint is subscribed already. -/
theorem Inv.statusCode_subscribe {b : Broker} (h : b.Inv) (env : Environment) (e : Endpoint)
    (topicName : Text) [Decidable (b.Has e topicName)] :
    (b.subscribe env e topicName).1.statusCode =
      some (if b.Has e topicName then .failed else .success) := by
  obtain ⟨hwf, hmem, hname⟩ := h.toWf.findOrAddTopic env topicName
  have hiff : e ∈ (b.findOrAddTopic env topicName).1.subscribers ↔ b.Has e topicName := by
    rw [← hwf.has_iff_of_mem hmem, hname, has_findOrAddTopic]
  rcases b.subscribe_cases env e topicName with ⟨he, hsubscribe⟩ | ⟨he, hsubscribe⟩ <;>
    rw [hsubscribe]
  · simp [if_pos (hiff.mp he)]
  · simp [if_neg fun hhas ↦ he (hiff.mpr hhas)]

@[simp] theorem connections_dropFirst (b : Broker) (v : TopicView) :
    (b.dropFirst v).connections = b.connections := by
  rcases b.dropFirst_cases v with ⟨-, hdrop⟩ | ⟨-, hdrop⟩ <;> rw [hdrop]
  rfl

/-- What is left when the first subscriber is gone. -/
theorem Inv.has_dropFirst {b : Broker} (h : b.Inv) {v : TopicView} (hv : v ∈ b.topics)
    {first : Endpoint} (hfirst : v.subscribers.head? = some first) (e : Endpoint) (t : Text) :
    (b.dropFirst v).Has e t ↔ b.Has e t ∧ ¬ (e = first ∧ t = v.topicName) := by
  obtain ⟨rest, hrest⟩ : ∃ rest, v.subscribers = first :: rest := by
    cases hsub : v.subscribers with
    | nil => simp [hsub] at hfirst
    | cons f rest => exact ⟨rest, by simpa [hsub] using hfirst⟩
  have hnodup : first ∉ rest := (List.nodup_cons.mp (hrest ▸ h.subscribers_nodup v hv)).1
  have hnamed := h.toWf.has_iff_of_mem hv
  have htail : e ∈ rest ↔ e ∈ v.subscribers ∧ e ≠ first := by
    rw [hrest, List.mem_cons]
    constructor
    · intro he
      exact ⟨Or.inr he, fun hee ↦ hnodup (hee ▸ he)⟩
    · rintro ⟨rfl | he, hne⟩
      · exact (hne rfl).elim
      · exact he
  rcases b.dropFirst_cases v with ⟨hlast, hdrop⟩ | ⟨-, hdrop⟩ <;> rw [hdrop]
  · have hnil : rest = [] := by simpa [hrest] using hlast
    constructor
    · rintro ⟨u, hu, rfl, he⟩
      obtain ⟨hu, huv⟩ : u ∈ b.topics ∧ u.object ≠ v.object := by simpa using hu
      exact ⟨⟨u, hu, rfl, he⟩, fun hn ↦ huv (by rw [h.eq_of_topicName hu hv hn.2])⟩
    · rintro ⟨⟨u, hu, rfl, he⟩, hn⟩
      refine ⟨u, by
        simp only [List.mem_filter, hu, true_and, decide_eq_true_eq]
        rintro huv
        obtain rfl := h.eq_of_object hu hv huv
        exact absurd (htail.mpr ⟨he, fun hee ↦ hn ⟨hee, rfl⟩⟩) (by simp [hnil]), rfl, he⟩
  · rw [h.toWf.has_alter (f := .dropSubscriber) hv fun _ ↦ rfl]
    split_ifs with ht
    · subst ht
      have hdrop : (v.dropSubscriber).subscribers = rest := by
        simp [TopicView.dropSubscriber, hrest]
      rw [hdrop, htail, hnamed]
      simp
    · simp [ht]

theorem topics_releaseConnection {b c : Broker} {e : Endpoint}
    (h : b.releaseConnection e = .ok c) : c.topics = b.topics := by
  rcases releaseConnection_cases h with ⟨rfl, -⟩ | ⟨-, rfl⟩
  · rfl
  · rfl

/-- An unsubscribe takes the place of the first subscriber, whoever asks. -/
theorem Inv.has_unsubscribe {b c : Broker} (h : b.Inv) {e : Endpoint} {topicName : Text}
    {r : Response} (hstep : b.unsubscribe e topicName = .ok (r, c)) :
    (b.find topicName = none ∧ c = b ∧
      r = (Response.new .unsubscribe).setStatusCode .invalidParameter) ∨
    ∃ v ∈ b.topics, v.topicName = topicName ∧ ∃ first, v.subscribers.head? = some first ∧
      r = (Response.new .unsubscribe).setStatusCode .success ∧
      ∀ e' t, c.Has e' t ↔ b.Has e' t ∧ ¬ (e' = first ∧ t = topicName) := by
  rcases unsubscribe_cases hstep with ⟨hfind, rfl, rfl⟩ | ⟨v, hfind, hrelease, rfl⟩
  · exact Or.inl ⟨hfind, rfl, rfl⟩
  · obtain ⟨hv, rfl⟩ := find_eq_some hfind
    obtain ⟨first, hfirst⟩ := h.exists_head hv
    refine Or.inr ⟨v, hv, rfl, first, hfirst, rfl, fun e' t ↦ ?_⟩
    exact (Has.congr (topics_releaseConnection hrelease) e' t).trans
      (h.has_dropFirst hv hfirst e' t)

theorem has_publish (b : Broker) (env : Environment) (topicName message : Text) (e : Endpoint)
    (t : Text) : (b.publish env topicName message).2.Has e t ↔ b.Has e t := by
  rcases b.publish_cases env topicName message with ⟨-, hpublish⟩ | ⟨v, -, hpublish⟩ <;>
    rw [hpublish]
  exact has_alter_of_subscribers b v.object (f := .store message _ _) (fun _ ↦ rfl)
    (fun _ ↦ rfl) e t

theorem has_checkView (b : Broker) (env : Environment) (v : TopicView) (e : Endpoint) (t : Text) :
    (b.checkView env v).Has e t ↔ b.Has e t := by
  rcases checkView_cases env b v with ⟨-, _, _, -, hcheck⟩ | ⟨-, _, hcheck⟩ <;> rw [hcheck]
  · exact has_alter_of_subscribers b v.object (f := .postpone _) (fun _ ↦ rfl) (fun _ ↦ rfl) e t
  · rfl

theorem has_checkTopic (b : Broker) (env : Environment) (object : Pointer) (e : Endpoint)
    (t : Text) : (b.checkTopic env object).Has e t ↔ b.Has e t := by
  rcases checkTopic_cases env b object with hcheck | ⟨v, -, -, hcheck⟩ <;> rw [hcheck]
  exact has_checkView b env v e t

theorem has_tick (b : Broker) (env : Environment) (e : Endpoint) (t : Text) :
    (b.tick env).Has e t ↔ b.Has e t := by
  apply tick_induction env (P := fun c ↦ c.Has e t ↔ b.Has e t) _ Iff.rfl
  intro c object hc
  rw [has_checkTopic, hc]

end Broker

/-- The subscriber list of a topic of that name holds a connection of that endpoint. -/
def World.HasSubscriber (w : World) (e : Endpoint) (topicName : Text) : Prop :=
  ∃ p ∈ w.topics, (w.topicHeap.deref p).topicName = topicName ∧
    ∃ c ∈ (w.topicHeap.deref p).subscriberList, w.endpointOf c = e

instance (w : World) (e : Endpoint) (topicName : Text) :
    Decidable (w.HasSubscriber e topicName) :=
  inferInstanceAs (Decidable (∃ p ∈ w.topics, (w.topicHeap.deref p).topicName = topicName ∧
    ∃ c ∈ (w.topicHeap.deref p).subscriberList, w.endpointOf c = e))

theorem World.has_view {w : World} {e : Endpoint} {topicName : Text} :
    w.view.Has e topicName ↔ w.HasSubscriber e topicName := by
  simp [Broker.Has, HasSubscriber, view, viewTopic]

end PublisherSubscriber
