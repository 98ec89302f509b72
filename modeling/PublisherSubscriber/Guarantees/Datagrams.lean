import PublisherSubscriber.Broker.Changes
import PublisherSubscriber.Broker.Refinement

/-!
# What the datagrams carry

The message stored in a topic is the one of the latest publish since the topic
was created, and a tick sends it to the subscribers of that moment.
-/

namespace PublisherSubscriber

open PointerHeap History

namespace Broker

/-- The history since the topic was created, as far as its message goes. -/
def LinkedTopic (h : List Event) (v : TopicView) : Prop :=
  ∃ newer older, h = newer ++ .created v.object v.topicName :: older ∧
    ((v.message = [] ∧ ∀ e ∈ newer, ¬ e.IsPublishTo v.topicName) ∨
      Latest (Event.IsPublishTo v.topicName) newer
        (.published v.object v.topicName v.message v.messageTimestamp))

def Linked (b : Broker) : Prop := ∀ v ∈ b.topics, LinkedTopic b.history v

theorem LinkedTopic.cons {h : List Event} {v u : TopicView} {e : Event} (hv : LinkedTopic h v)
    (he : ¬ e.IsPublishTo v.topicName)
    (hu : u.object = v.object ∧ u.topicName = v.topicName ∧ u.message = v.message ∧
      u.messageTimestamp = v.messageTimestamp) : LinkedTopic (e :: h) u := by
  obtain ⟨newer, older, rfl, hlink⟩ := hv
  obtain ⟨hobject, hname, hmessage, htimestamp⟩ := hu
  refine ⟨e :: newer, older, by rw [hobject, hname]; rfl, ?_⟩
  rw [hobject, hname, hmessage, htimestamp]
  rcases hlink with ⟨hnil, hnone⟩ | hlatest
  · exact Or.inl ⟨hnil, List.forall_mem_cons.mpr ⟨he, hnone⟩⟩
  · exact Or.inr (hlatest.cons_of_not he)

theorem Linked.change {env : Environment} {b c : Broker} (hb : b.Wf) (hchange : Change env b c)
    (h : b.Linked) : c.Linked := by
  cases hchange with
  | silent _ htopics _ _ _ hhistory =>
      intro v hv
      obtain ⟨u, hu, hvu⟩ := htopics v hv
      rw [hhistory, hvu]
      exact h u hu
  | create topicName hfind =>
      intro v hv
      rcases List.mem_append.mp hv with hv | hv
      · exact (h v hv).cons (fun he ↦ he) ⟨rfl, rfl, rfl, rfl⟩
      · rw [List.mem_singleton.mp hv]
        exact ⟨[], b.history, rfl, Or.inl ⟨rfl, by simp⟩⟩
  | store v hv message =>
      intro w hw
      obtain ⟨u, hu, rfl⟩ := mem_alter.mp hw
      by_cases huv : u.object = v.object
      · obtain rfl := hb.eq_of_object hu hv huv
        rw [if_pos rfl]
        obtain ⟨newer, older, hhistory, -⟩ := h u hu
        have hname : (Event.published u.object u.topicName message
            (env.time b.os.readings)).IsPublishTo u.topicName := rfl
        exact ⟨_ :: newer, older, by simp [storeMessage, hhistory, TopicView.store],
          Or.inr (.cons_self hname newer)⟩
      · rw [if_neg huv]
        refine (h u hu).cons (fun hname ↦ huv ?_) ⟨rfl, rfl, rfl, rfl⟩
        rw [hb.eq_of_topicName hu hv hname.symm]
  | check v hv hne =>
      intro w hw
      rw [history_checkView]
      have hevent : ∀ name, ¬ (checkEvent env v b.os).IsPublishTo name := fun name ↦ by
        rcases checkEvent_cases env v b.os with ⟨-, hevent⟩ | ⟨-, hevent⟩ <;> rw [hevent] <;>
          exact fun he ↦ he
      rcases checkView_cases env b v with ⟨-, _, _, -, hcheck⟩ | ⟨-, _, hcheck⟩ <;>
        rw [hcheck] at hw
      · obtain ⟨u, hu, rfl⟩ := mem_alter.mp hw
        refine (h u hu).cons (hevent _) ?_
        split_ifs <;> exact ⟨rfl, rfl, rfl, rfl⟩
      · exact (h w hw).cons (hevent _) ⟨rfl, rfl, rfl, rfl⟩

theorem linked_of_reachable {env : Environment} {topicTimeout : ℤ} {b : Broker}
    (h : (system env topicTimeout).Reachable b) : b.Inv ∧ b.Linked :=
  reachable_invariant (I := Linked) (by simp [Linked, system])
    (fun _ _ hb hchange hlinked ↦ hlinked.change hb hchange) h

end Broker

/-- The calls recorded of a topic object, if there are any, are one for each of
its subscribers, and carry the latest publish to its name since it was created. -/
def World.Sends (w : World) (p : Pointer) (calls : List SendMessageCall) : Prop :=
  calls = [] ∨
    calls.map (fun call ↦ (⟨call.address, call.port⟩ : Endpoint)) =
        (w.topicHeap.deref p).subscriberList.map w.endpointOf ∧
      (calls.map fun call ↦ (call.address, call.port)).Nodup ∧
      ∃ newer older message timestamp, message ≠ [] ∧
        w.history = newer ++ .created p (w.topicHeap.deref p).topicName :: older ∧
        Latest (Event.IsPublishTo (w.topicHeap.deref p).topicName) newer
          (.published p (w.topicHeap.deref p).topicName message timestamp) ∧
        ∀ call ∈ calls, call.topicName = (w.topicHeap.deref p).topicName ∧
          call.message = message ∧ call.timestamp = timestamp

theorem World.sends_of_checkEvent {w : World} (hw : w.Sound) (hlinked : w.view.Linked)
    {env : Environment} {p : Pointer} (hp : p ∈ w.topics) (os : Os) :
    ∃ now calls reset, Broker.checkEvent env (w.viewTopic p) os = .checked p now calls reset ∧
      w.Sends p calls := by
  have hview : w.viewTopic p ∈ w.view.topics := List.mem_map_of_mem hp
  obtain ⟨now, calls, reset, hevent, hcalls⟩ := Broker.exists_checkEvent env (w.viewTopic p) os
  refine ⟨now, calls, reset, hevent, ?_⟩
  by_cases hnil : calls = []
  · exact Or.inl hnil
  · obtain ⟨hmessage, hendpoints, hcontent⟩ := hcalls hnil
    have hnodup : (calls.map fun call ↦ (⟨call.address, call.port⟩ : Endpoint)).Nodup := by
      rw [hendpoints]
      exact hw.inv.subscribers_nodup _ hview
    obtain ⟨newer, older, hhistory, hlink⟩ := hlinked _ hview
    refine Or.inr ⟨hendpoints, ?_, newer, older, (w.viewTopic p).message,
      (w.viewTopic p).messageTimestamp, hmessage, hhistory, ?_, hcontent⟩
    · have hpairs : (calls.map fun call ↦ (call.address, call.port)) =
          (calls.map fun call ↦ (⟨call.address, call.port⟩ : Endpoint)).map
            fun e ↦ (e.ipAddress, e.port) := by simp
      rw [hpairs]
      refine hnodup.map fun d e hde ↦ ?_
      cases d
      cases e
      simpa using hde
    · exact hlink.resolve_left fun hnone ↦ hmessage hnone.1

/-- From `w` to `w'` every topic was checked once, in order, and its calls were as `Sends` says. -/
def World.TickSends (w w' : World) : Prop :=
  ∃ news : List Event, w'.history = news.reverse ++ w.history ∧ w.topics.Nodup ∧
    List.Forall₂ (fun p e ↦ ∃ now calls reset, e = .checked p now calls reset ∧ w.Sends p calls)
      w.topics news

/-- No tick of any run sends anything but a topic's own latest message to the
topic's own subscribers. -/
theorem tick_sends_latest (env : Environment) (topicTimeout : ℤ) {w w' : World}
    {r : Option Response} (h : (Server.system env topicTimeout).Reachable w)
    (hstep : (Server.system env topicTimeout).step w .tick = .ok (r, w')) : w.TickSends w' := by
  have hw : w.Sound := (Server.abstraction env topicTimeout).sound h
  have hlinked : w.view.Linked :=
    (Broker.linked_of_reachable ((Server.abstraction env topicTimeout).reachable h)).2
  obtain ⟨news, hhistory, hnodup, hnews⟩ := hw.history_tick (Server.view_tick hw hstep)
  refine ⟨news, hhistory, hnodup, ?_⟩
  apply hnews.imp
  rintro p e ⟨hp, os, rfl⟩
  exact World.sends_of_checkEvent hw hlinked hp os

/-- The topic was deleted with its message and made anew. -/
theorem tick_sends_latest_recreated :
    let S := Server.system .steady 10
    let actions : List Action := [
      .request (.subscribe (ascii "10.0.0.1") 7001 (ascii "news")),
      .request (.publish (ascii "news") (ascii "old")),
      .request (.unsubscribe (ascii "10.0.0.1") 7001 (ascii "news")),
      .request (.subscribe (ascii "10.0.0.2") 7001 (ascii "news")),
      .request (.publish (ascii "news") (ascii "new"))]
    (S.final actions).TickSends (S.final (actions ++ [.tick])) :=
  tick_sends_latest .steady 10 (r := none) (Transition.System.reachable_final _ _)
    (by decide +kernel)

end PublisherSubscriber
