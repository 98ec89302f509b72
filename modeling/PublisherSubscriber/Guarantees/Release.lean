import PublisherSubscriber.Broker.Membership
import PublisherSubscriber.Broker.Refinement

/-!
# When connection records are released

An unsubscribe asks only whether the client it came from is still subscribed,
whichever subscriber it removed.
-/

namespace PublisherSubscriber

open PointerHeap

namespace Broker

theorem subscribed_iff (b : Broker) (e : Endpoint) : b.Subscribed e ↔ ∃ t, b.Has e t := by
  simp only [Subscribed, Has]
  constructor
  · rintro ⟨v, hv, he⟩
    exact ⟨_, v, hv, rfl, he⟩
  · rintro ⟨_, v, hv, -, he⟩
    exact ⟨v, hv, he⟩

def Released (b : Broker) : Prop := ∀ e ∈ b.connections, b.Subscribed e

theorem Released.congr {b c : Broker} (h : b.Released) (hc : c.connections = b.connections)
    (hhas : ∀ e t, c.Has e t ↔ b.Has e t) : c.Released := by
  intro e he
  rw [subscribed_iff]
  simp only [hhas]
  rw [← subscribed_iff]
  exact h e (hc ▸ he)

/-- Whoever loses its place in the named topic is the client that asks, or is
subscribed to another topic. -/
def LeaverCovered (b : Broker) : Action → Prop
  | .request (.unsubscribe ipAddress port topicName) =>
      ∀ v ∈ b.topics, v.topicName = topicName → ∀ first, v.subscribers.head? = some first →
        first = ⟨ipAddress, port⟩ ∨ ∃ t, t ≠ topicName ∧ b.Has first t
  | _ => True

theorem mem_connections_subscribe {b : Broker} {env : Environment} {e e' : Endpoint}
    {topicName : Text} (h : e' ∈ (b.subscribe env e topicName).2.connections) :
    e' ∈ b.connections ∨ e' = e := by
  have hadd : (b.findOrAddTopic env topicName).2.connections = b.connections := by
    rcases b.findOrAddTopic_cases env topicName with ⟨-, hadd⟩ | ⟨v, -, hadd⟩ <;> rw [hadd]
    rfl
  have hconnect : ∀ c : Broker, e' ∈ (c.connect e).connections → e' ∈ c.connections ∨ e' = e := by
    intro c hc
    rcases c.connect_cases e with ⟨-, hconnect⟩ | ⟨-, hconnect⟩ <;> rw [hconnect] at hc
    · exact Or.inl hc
    · simpa using hc
  rw [← hadd]
  apply hconnect
  rcases b.subscribe_cases env e topicName with ⟨-, hsubscribe⟩ | ⟨-, hsubscribe⟩ <;>
    rw [hsubscribe] at h <;> exact h

theorem Inv.released_subscribe {b : Broker} (h : b.Inv) (hb : b.Released) (env : Environment)
    (e : Endpoint) (topicName : Text) : (b.subscribe env e topicName).2.Released := by
  intro e' he'
  rw [subscribed_iff]
  simp only [h.has_subscribe]
  rcases mem_connections_subscribe he' with he' | rfl
  · obtain ⟨t, ht⟩ := (subscribed_iff b e').mp (hb e' he')
    exact ⟨t, Or.inl ht⟩
  · exact ⟨topicName, Or.inr ⟨rfl, rfl⟩⟩

theorem connections_publish (b : Broker) (env : Environment) (topicName message : Text) :
    (b.publish env topicName message).2.connections = b.connections := by
  rcases b.publish_cases env topicName message with ⟨-, hpublish⟩ | ⟨v, -, hpublish⟩ <;>
    rw [hpublish]
  rfl

theorem connections_checkTopic (b : Broker) (env : Environment) (object : Pointer) :
    (b.checkTopic env object).connections = b.connections := by
  rcases checkTopic_cases env b object with hcheck | ⟨v, -, -, hcheck⟩ <;> rw [hcheck]
  rcases checkView_cases env b v with ⟨-, _, _, -, hview⟩ | ⟨-, _, hview⟩ <;> rw [hview]
  rfl

theorem connections_tick (b : Broker) (env : Environment) :
    (b.tick env).connections = b.connections := by
  apply tick_induction env (P := fun c ↦ c.connections = b.connections) _ rfl
  intro c object hc
  rw [connections_checkTopic, hc]

/-- Only the client that asks can go. -/
theorem released_releaseConnection_iff {b c : Broker} {e : Endpoint}
    (h : b.releaseConnection e = .ok c) :
    c.Released ↔ ∀ e' ∈ b.connections, e' ≠ e → b.Subscribed e' := by
  rcases releaseConnection_cases h with ⟨rfl, hsub⟩ | ⟨-, rfl⟩
  · constructor
    · exact fun hall e' he' _ ↦ hall e' he'
    · intro hall e' he'
      by_cases hee : e' = e
      · rw [hee] at he' ⊢
        exact hsub he'
      · exact hall e' he' hee
  · constructor
    · intro hall e' he' hee
      exact hall e' (by simpa [hee] using he')
    · intro hall e' he'
      obtain ⟨he', hee⟩ : e' ∈ b.connections ∧ e' ≠ e := by simpa using he'
      exact hall e' he' hee

theorem Inv.released_unsubscribe_iff {b c : Broker} (h : b.Inv) (hb : b.Released)
    {ipAddress : Text} {port : ℤ} {t : Text} {r : Response}
    (hstep : b.unsubscribe ⟨ipAddress, port⟩ t = .ok (r, c)) :
    c.Released ↔ b.LeaverCovered (.request (.unsubscribe ipAddress port t)) := by
  rcases unsubscribe_cases hstep with ⟨hfind, rfl, -⟩ | ⟨v, hfind, hrelease, -⟩
  · exact ⟨fun _ v hv hname ↦ (find_eq_none_iff.mp hfind v hv hname).elim, fun _ ↦ hb⟩
  · obtain ⟨hv, rfl⟩ := find_eq_some hfind
    obtain ⟨first, hfirst⟩ := h.exists_head hv
    have hconnected := h.subscribers_connected v hv first (List.mem_of_mem_head? hfirst)
    rw [released_releaseConnection_iff hrelease, connections_dropFirst]
    simp only [subscribed_iff, h.has_dropFirst hv hfirst]
    constructor
    · intro hall u hu hname f hf
      obtain rfl := h.eq_of_topicName hu hv hname
      obtain rfl := Option.some.inj (hfirst.symm.trans hf)
      by_cases hfe : first = ⟨ipAddress, port⟩
      · exact Or.inl hfe
      · obtain ⟨t, hhas, hne⟩ := hall first hconnected hfe
        exact Or.inr ⟨t, fun ht ↦ hne ⟨rfl, ht⟩, hhas⟩
    · intro hcovered e' he' hee
      by_cases hfe : e' = first
      · subst hfe
        rcases hcovered v hv rfl e' hfirst with rfl | ⟨t, ht, hhas⟩
        · exact (hee rfl).elim
        · exact ⟨t, hhas, fun hn ↦ ht hn.2⟩
      · obtain ⟨t, hhas⟩ := (subscribed_iff b e').mp (hb e' he')
        exact ⟨t, hhas, fun hn ↦ hfe hn.1⟩

theorem Inv.released_act_iff {b c : Broker} (h : b.Inv) (hb : b.Released) {env : Environment}
    {a : Action} {r : Option Response} (hact : b.act env a = .ok (r, c)) :
    c.Released ↔ b.LeaverCovered a := by
  rcases act_eq_ok hact with ⟨q, s, rfl, rfl, hhandle⟩ | ⟨rfl, rfl, rfl⟩
  · cases q with
    | unsubscribe ipAddress port t => exact h.released_unsubscribe_iff hb hhandle
    | subscribe ipAddress port t =>
        have hc : b.subscribe env ⟨ipAddress, port⟩ t = (s, c) := Except.ok.inj hhandle
        exact iff_of_true (by simpa [hc] using h.released_subscribe hb env ⟨ipAddress, port⟩ t)
          trivial
    | publish t message =>
        have hc : b.publish env t message = (s, c) := Except.ok.inj hhandle
        refine iff_of_true ?_ trivial
        exact hb.congr (by simpa [hc] using connections_publish b env t message) fun e t' ↦ by
          simpa [hc] using has_publish b env t message e t'
    | listTopics =>
        cases hhandle
        exact iff_of_true hb trivial
    | getTopicStatus t =>
        cases hhandle
        exact iff_of_true hb trivial
  · exact iff_of_true (hb.congr (connections_tick b env) (has_tick b env)) trivial

end Broker

namespace World

/-- Every connection record is a subscriber of some topic, and every connection
object without a record is deleted. -/
structure Released (w : World) : Prop where
  used : ∀ c ∈ w.clientConnections, ∃ p ∈ w.topics, c ∈ (w.topicHeap.deref p).subscriberList
  deleted : ∀ c, w.connectionHeap.Live c → c ∈ w.clientConnections

/-- The action is no unsubscribe, or names no topic, or the first subscriber of
that topic is the client it comes from or is subscribed to another topic. -/
def LeaverCovered (w : World) : Action → Prop
  | .request (.unsubscribe ipAddress port topicName) =>
      ∀ p ∈ w.topics, (w.topicHeap.deref p).topicName = topicName →
        ∀ c, (w.topicHeap.deref p).subscriberList.head? = some c →
          w.endpointOf c = ⟨ipAddress, port⟩ ∨
            ∃ q ∈ w.topics, (w.topicHeap.deref q).topicName ≠ topicName ∧
              c ∈ (w.topicHeap.deref q).subscriberList
  | _ => True

instance (w : World) : DecidablePred w.LeaverCovered
  | .request (.unsubscribe ipAddress port topicName) => inferInstanceAs (Decidable
      (∀ p ∈ w.topics, (w.topicHeap.deref p).topicName = topicName →
        ∀ c ∈ (w.topicHeap.deref p).subscriberList.head?,
          w.endpointOf c = ⟨ipAddress, port⟩ ∨
            ∃ q ∈ w.topics, (w.topicHeap.deref q).topicName ≠ topicName ∧
              c ∈ (w.topicHeap.deref q).subscriberList))
  | .request (.subscribe _ _ _) | .request (.publish _ _) | .request .listTopics
  | .request (.getTopicStatus _) | .tick => isTrue trivial

/-- Registered connections are subscribers by value exactly when they are by identity. -/
theorem Sound.mem_subscriberList_iff {w : World} (hw : w.Sound) {p c : Pointer} (hp : p ∈ w.topics)
    (hc : c ∈ w.clientConnections) :
    w.endpointOf c ∈ (w.viewTopic p).subscribers ↔ c ∈ (w.topicHeap.deref p).subscriberList := by
  constructor
  · intro hmem
    obtain ⟨d, hd, hendpoint⟩ := List.mem_map.mp hmem
    rwa [← endpointOf_injOn hw.inv.toWf (hw.subscribers_registered p hp d hd) hc hendpoint]
  · exact fun hmem ↦ List.mem_map_of_mem hmem

theorem Sound.released_iff {w : World} (hw : w.Sound) : w.view.Released ↔ w.Released := by
  have hused : ∀ c ∈ w.clientConnections, w.view.Subscribed (w.endpointOf c) ↔
      ∃ p ∈ w.topics, c ∈ (w.topicHeap.deref p).subscriberList := by
    intro c hc
    simp only [Broker.Subscribed, view, List.mem_map, exists_exists_and_eq_and]
    exact exists_congr fun p ↦ and_congr_right fun hp ↦ hw.mem_subscriberList_iff hp hc
  constructor
  · intro h
    exact ⟨fun c hc ↦ (hused c hc).mp (h _ (List.mem_map_of_mem hc)), hw.connections_registered⟩
  · rintro ⟨h, -⟩ e he
    obtain ⟨c, hc, rfl⟩ := List.mem_map.mp he
    exact (hused c hc).mpr (h c hc)

theorem Sound.leaverCovered_iff {w : World} (hw : w.Sound) (a : Action) :
    w.view.LeaverCovered a ↔ w.LeaverCovered a := by
  cases a with
  | tick => rfl
  | request q =>
      cases q with
      | unsubscribe ipAddress port topicName =>
          have htopics : w.view.topics = w.topics.map w.viewTopic := rfl
          simp only [Broker.LeaverCovered, LeaverCovered, htopics, List.forall_mem_map]
          refine forall₂_congr fun p hp ↦ imp_congr_right fun _ ↦ ?_
          have hhead : (w.viewTopic p).subscribers.head? =
              (w.topicHeap.deref p).subscriberList.head?.map w.endpointOf := by
            simp [viewTopic]
          rw [hhead]
          cases hfirst : (w.topicHeap.deref p).subscriberList.head? with
          | none => simp
          | some c =>
              have hc : c ∈ w.clientConnections :=
                hw.subscribers_registered p hp c (List.mem_of_mem_head? hfirst)
              have hother : (∃ t, t ≠ topicName ∧ w.view.Has (w.endpointOf c) t) ↔
                  ∃ q ∈ w.topics, (w.topicHeap.deref q).topicName ≠ topicName ∧
                    c ∈ (w.topicHeap.deref q).subscriberList := by
                constructor
                · rintro ⟨t, ht, v, hv, rfl, hmem⟩
                  obtain ⟨q, hq, rfl⟩ := List.mem_map.mp hv
                  exact ⟨q, hq, ht, (hw.mem_subscriberList_iff hq hc).mp hmem⟩
                · rintro ⟨q, hq, hname, hmem⟩
                  exact ⟨_, hname, w.viewTopic q, List.mem_map_of_mem hq, rfl,
                    (hw.mem_subscriberList_iff hq hc).mpr hmem⟩
              simpa using or_congr_right hother
      | subscribe => rfl
      | publish => rfl
      | listTopics => rfl
      | getTopicStatus => rfl

end World

/-- A completed step from a released state. -/
theorem Server.released_step_iff {env : Environment} {topicTimeout : ℤ} {w w' : World}
    (hw : w.Sound) (hreleased : w.Released) {a : Action} {r : Option Response}
    (hstep : (system env topicTimeout).step w a = .ok (r, w')) :
    w'.Released ↔ w.LeaverCovered a := by
  obtain ⟨hact, hw'⟩ := (abstraction env topicTimeout).view_step hw hstep
  rw [← hw.leaverCovered_iff, ← World.Sound.released_iff hw']
  exact hw.inv.released_act_iff (hw.released_iff.mpr hreleased) hact

/-- In a run of covered steps all records are released; the first step that is
not covered leaves one behind. -/
theorem released_while_covered (env : Environment) (topicTimeout : ℤ) {w : World}
    (h : (Server.system env topicTimeout).ReachableWhile World.LeaverCovered w) :
    w.Released ∧ ∀ a r w', (Server.system env topicTimeout).step w a = .ok (r, w') →
      (w'.Released ↔ w.LeaverCovered a) := by
  have hw := (Server.abstraction env topicTimeout).sound h
  have hreleased : w.Sound ∧ w.Released := by
    refine h.invariant (I := fun w ↦ w.Sound ∧ w.Released)
      ⟨Server.sound_initial topicTimeout, ?_⟩ ?_
    · exact ⟨by simp [Server.system, Server.initial],
        (Server.sound_initial topicTimeout).connections_registered⟩
    · rintro s t a r ⟨hs, hreleased⟩ ha hstep
      exact ⟨((Server.abstraction env topicTimeout).view_step hs hstep).2,
        (Server.released_step_iff hs hreleased hstep).mpr ha⟩
  exact ⟨hreleased.2, fun a r w' hstep ↦ Server.released_step_iff hw hreleased.2 hstep⟩

/-- The first subscriber is pushed out of one topic and stays in another. -/
theorem released_while_covered_other_topic :
    let w := (Server.system .steady 10).final [
      .request (.subscribe (ascii "10.0.0.1") 7001 (ascii "news")),
      .request (.subscribe (ascii "10.0.0.2") 7001 (ascii "news")),
      .request (.subscribe (ascii "10.0.0.1") 7001 (ascii "weather")),
      .request (.unsubscribe (ascii "10.0.0.2") 7001 (ascii "news"))]
    w.topics.length = 2 ∧ w.Released :=
  ⟨by decide +kernel, (released_while_covered .steady 10
    (Transition.System.reachableWhile_final _ (by decide +kernel))).1⟩

/-- The second subscriber leaves; the first one's record stays without a topic. -/
theorem record_left_behind :
    let w := (Server.system .steady 10).final [
      .request (.subscribe (ascii "10.0.0.1") 7001 (ascii "news")),
      .request (.subscribe (ascii "10.0.0.2") 7001 (ascii "news")),
      .request (.unsubscribe (ascii "10.0.0.2") 7001 (ascii "news"))]
    (Server.system .steady 10).Reachable w ∧ w.clientConnections.length = 2 ∧ ¬ w.Released := by
  refine ⟨Transition.System.reachable_final _ _, by decide +kernel, fun h ↦ ?_⟩
  exact absurd h.used (by decide +kernel)

end PublisherSubscriber
