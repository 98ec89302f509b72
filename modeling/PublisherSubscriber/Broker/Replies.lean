import PublisherSubscriber.Broker.Service
import PublisherSubscriber.Shared.RoundTrip

/-!
# What the handlers answer

Every handler answers with the arguments of its command and a status code of
the enumeration, so a client that gets the whole text reads the reply it was.
-/

namespace PublisherSubscriber

open PointerHeap

namespace Request

def commandIdentifier : Request → CommandIdentifiers
  | subscribe _ _ _ => .subscribe
  | unsubscribe _ _ _ => .unsubscribe
  | publish _ _ => .publish
  | listTopics => .listTopics
  | getTopicStatus _ => .getTopicStatus

end Request

namespace Broker

theorem isReplyTo_listTopics (b : Broker) : b.listTopics.IsReplyTo .listTopics where
  available := Response.availableResponseArguments_setResponseArgument _ _ _
  length := by
    simp [listTopics, Response.setResponseArgumentList, Response.new]
  status := ⟨.success, rfl, trivial⟩

theorem isReplyTo_topicStatus (v : TopicView) : (topicStatus v).IsReplyTo .getTopicStatus := by
  constructor
  · simp [topicStatus, Server.setTopicStatus, Response.setResponseArgumentUInt,
      Response.setResponseArgumentList, Response.setResponseArgument, Response.new,
      responseDictionary]
  · simp [topicStatus, Server.setTopicStatus, Response.setResponseArgumentUInt,
      Response.setResponseArgumentList, Response.setResponseArgument, Response.new,
      responseDictionary]
  · exact ⟨.success, rfl, trivial⟩

theorem getResponseArgument_listTopics (b : Broker) :
    b.listTopics.getResponseArgument .topics =
      .ok (Response.arrayString (b.topics.map TopicView.topicName)) := by
  simp [listTopics, Response.setResponseArgumentList, Response.setResponseArgument,
    Response.getResponseArgument, Response.new, responseDictionary]

theorem getResponseArgument_messageTimestamp (v : TopicView) :
    (topicStatus v).getResponseArgument .messageTimestamp =
      .ok (to_string (Server.toUInt64 v.messageTimestamp)) := by
  simp [topicStatus, Server.setTopicStatus, Response.setResponseArgumentUInt,
    Response.setResponseArgumentList, Response.setResponseArgument,
    Response.getResponseArgument, Response.new, responseDictionary]

theorem getResponseArgument_topicStatus (v : TopicView) :
    (topicStatus v).getResponseArgument .subscribers =
      .ok (Response.arrayString (v.subscribers.map Endpoint.toText)) := by
  simp [topicStatus, Server.setTopicStatus, Response.setResponseArgumentUInt,
    Response.setResponseArgumentList, Response.setResponseArgument,
    Response.getResponseArgument, Response.new, responseDictionary]

/-- Whatever a handler answers has the arguments of its command. -/
theorem isReplyTo_handle {b b' : Broker} {env : Environment} {q : Request} {r : Response}
    (h : b.handle env q = .ok (r, b')) : r.IsReplyTo q.commandIdentifier := by
  cases q with
  | subscribe ipAddress port topicName =>
      have hr : b.subscribe env ⟨ipAddress, port⟩ topicName = (r, b') := Except.ok.inj h
      rcases b.subscribe_cases env ⟨ipAddress, port⟩ topicName with
        ⟨-, hsubscribe⟩ | ⟨-, hsubscribe⟩
      · obtain ⟨rfl, -⟩ := Prod.mk.inj (hsubscribe.symm.trans hr)
        exact Response.isReplyTo_new _ trivial
      · obtain ⟨rfl, -⟩ := Prod.mk.inj (hsubscribe.symm.trans hr)
        exact Response.isReplyTo_new _ trivial
  | unsubscribe ipAddress port topicName =>
      have hr : b.unsubscribe ⟨ipAddress, port⟩ topicName = .ok (r, b') := h
      rcases unsubscribe_cases hr with ⟨-, -, rfl⟩ | ⟨v, -, -, rfl⟩
      · exact Response.isReplyTo_new _ trivial
      · exact Response.isReplyTo_new _ trivial
  | publish topicName message =>
      have hr : b.publish env topicName message = (r, b') := Except.ok.inj h
      rcases b.publish_cases env topicName message with ⟨-, hpublish⟩ | ⟨v, -, hpublish⟩
      · obtain ⟨rfl, -⟩ := Prod.mk.inj (hpublish.symm.trans hr)
        exact Response.isReplyTo_new _ trivial
      · obtain ⟨rfl, -⟩ := Prod.mk.inj (hpublish.symm.trans hr)
        exact Response.isReplyTo_new _ trivial
  | listTopics =>
      obtain ⟨rfl, -⟩ := Prod.mk.inj (Except.ok.inj h)
      exact isReplyTo_listTopics b
  | getTopicStatus topicName =>
      obtain ⟨rfl, -⟩ := Prod.mk.inj (Except.ok.inj h)
      unfold Broker.getTopicStatus
      cases b.find topicName with
      | none => exact Response.isReplyTo_new _ trivial
      | some v => exact isReplyTo_topicStatus v

end Broker

/-! ## What is shown of a state -/

namespace World

def topicNames (w : World) : List Text := w.topics.map fun p ↦ (w.topicHeap.deref p).topicName

/-- The subscribers of a topic object as a status shows them. -/
def subscriberStrings (w : World) (topic : Pointer) : List Text :=
  (w.topicHeap.deref topic).subscriberList.map fun c ↦ (w.endpointOf c).toText

theorem map_topicName_view (w : World) :
    w.view.topics.map TopicView.topicName = w.topicNames := by
  simp [topicNames, view, viewTopic]

theorem map_toText_subscribers (w : World) (topic : Pointer) :
    (w.viewTopic topic).subscribers.map Endpoint.toText = w.subscriberStrings topic :=
  List.map_map

end World

theorem run_listTopics (env : Environment) {w : World} (hw : w.Sound) :
    (Server.handle env .listTopics).run w = .ok (w.view.listTopics, w) :=
  Server.run_handleListTopics hw.toPointers

/-- The status of a topic that exists. -/
theorem run_getTopicStatus (env : Environment) {w : World} (hw : w.Sound) {topic : Pointer}
    (htopic : topic ∈ w.topics) :
    (Server.handle env (.getTopicStatus (w.topicHeap.deref topic).topicName)).run w =
      .ok (Broker.topicStatus (w.viewTopic topic), w) := by
  have hanswer := Server.run_handleGetTopicStatus hw.toPointers
    (w.topicHeap.deref topic).topicName
  have hfind := hw.inv.toWf.find_topicName (List.mem_map_of_mem (f := w.viewTopic) htopic)
  have hname : (w.viewTopic topic).topicName = (w.topicHeap.deref topic).topicName := rfl
  rwa [Broker.getTopicStatus, ← hname, hfind] at hanswer

/-- The reply is read as the handler of `q` built it, status and arguments. -/
theorem reply_read_back {env : Environment} {library : JsonLibrary} {indeterminate : ℤ}
    {w w' : World} {q : Request} {r : Response} (hw : w.Sound)
    (h : (Server.handle env q).run w = .ok (r, w'))
    (hback : library.ReadsBack (.ofMembers (r.members indeterminate))) :
    Response.deserialize library q.commandIdentifier (r.serialize library indeterminate) =
      .ok r := by
  have hreply := Broker.isReplyTo_handle (Server.view_handle env hw h).1
  obtain ⟨s, hs, hnamed⟩ := hreply.status
  rw [Response.deserialize_serialize hreply.wellFormed hs hnamed hback, hreply.ofTexts_shown hs]

end PublisherSubscriber
