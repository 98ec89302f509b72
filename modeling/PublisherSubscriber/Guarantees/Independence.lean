import PublisherSubscriber.Broker.Refinement
import PublisherSubscriber.Broker.TopicContents

/-!
# Topics do not interfere

Whatever is asked about other topics, whenever the heartbeat ticks and whatever
the clock says, a topic holds and answers what it would if it were the only one.
-/

namespace PublisherSubscriber

open PointerHeap

namespace World

/-- What the first topic of this name holds. -/
def contents (w : World) (topicName : Text) : Option TopicContents :=
  (w.topics.find? fun p ↦ (w.topicHeap.deref p).topicName = topicName).map fun p ↦
    ⟨(w.topicHeap.deref p).message, (w.topicHeap.deref p).subscriberList.map w.endpointOf⟩

theorem contents_view (w : World) (topicName : Text) :
    w.view.contents topicName = w.contents topicName := by
  rw [Broker.contents, Broker.find, view, List.find?_map, Option.map_map]
  rfl

end World

/-- What a topic holds after a run and what the requests that name it were answered
is what its own automaton makes of these requests. -/
theorem topics_are_independent (env : Environment) (topicTimeout : ℤ) {actions : List Action}
    {outputs : List (Option Response)} {w : World}
    (hrun : (Server.system env topicTimeout).run (Server.system env topicTimeout).start actions =
      .ok (outputs, w)) (topicName : Text) :
    w.contents topicName = Broker.topic.run none (actions.filter (Broker.names topicName)) ∧
      Transition.System.observed (Broker.names topicName) (Option.map Broker.seen) actions outputs =
        Broker.topic.replies none (actions.filter (Broker.names topicName)) := by
  have hstep : ∀ w a r w', w.Sound → (Server.system env topicTimeout).step w a = .ok (r, w') →
      w'.Sound ∧ if Broker.names topicName a then
        w'.contents topicName = Broker.topic.next (w.contents topicName) a ∧
          r.map Broker.seen = Broker.topic.reply (w.contents topicName) a
      else w'.contents topicName = w.contents topicName := by
    intro w a r w' hw hstep
    obtain ⟨hact, hw'⟩ := (Server.abstraction env topicTimeout).view_step hw hstep
    have hcomponent := hw.inv.act_component hact topicName
    rw [World.contents_view] at hcomponent
    exact ⟨hw', by rwa [← World.contents_view w']⟩
  exact Transition.System.run_component hstep (Server.sound_initial topicTimeout) hrun

/-- Between the requests for one topic come a request for another one and a tick. -/
theorem topics_are_independent_two :
    let actions : List Action := [.request (.subscribe (ascii "10.0.0.1") 7001 (ascii "news")),
      .request (.subscribe (ascii "10.0.0.2") 7001 (ascii "weather")), .tick,
      .request (.publish (ascii "news") (ascii "Hello")),
      .request (.unsubscribe (ascii "10.0.0.2") 7001 (ascii "weather")),
      .request (.subscribe (ascii "10.0.0.1") 7001 (ascii "news"))]
    ∃ outputs w, (Server.system .steady 30).run (Server.system .steady 30).start actions =
        .ok (outputs, w) ∧
      w.contents (ascii "news") = some ⟨ascii "Hello", [⟨ascii "10.0.0.1", 7001⟩]⟩ ∧
      Transition.System.observed (Broker.names (ascii "news")) (Option.map Broker.seen) actions
          outputs =
        [some (some .success, []), some (some .success, []), some (some .failed, [])] := by
  intro actions
  have hrun : ((Server.system .steady 30).run (Server.system .steady 30).start actions).map
      (fun r ↦ r.1.length) = .ok 6 := by
    decide +kernel
  obtain ⟨⟨outputs, w⟩, hrun, -⟩ := of_map_eq_ok hrun
  obtain ⟨hcontents, hreplies⟩ := topics_are_independent .steady 30 hrun (ascii "news")
  exact ⟨outputs, w, hrun, hcontents, hreplies⟩

end PublisherSubscriber
