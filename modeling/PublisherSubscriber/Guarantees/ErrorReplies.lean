import PublisherSubscriber.Broker.Service

/-!
# Error replies leave the broker untouched

A handler that fails finds out before its first change, and so does the
decoder.
-/

namespace PublisherSubscriber

namespace Server

section

variable {env : Environment} {w w' : World} {r : Response}

theorem subscribe_changes_nothing (hw : w.Sound) {ipAddress topicName : Text} {port : ℤ}
    (h : (handle env (.subscribe ipAddress port topicName)).run w = .ok (r, w'))
    (hr : r.statusCode ≠ some .success) : w' = w := by
  have hbroker : w.view.subscribe env ⟨ipAddress, port⟩ topicName = (r, w'.view) :=
    Except.ok.inj (view_handle env hw h).1
  rcases w.view.subscribe_cases env ⟨ipAddress, port⟩ topicName with
    ⟨he, -⟩ | ⟨-, hsubscribe⟩
  · rcases w.view.findOrAddTopic_cases env topicName with ⟨-, hadd⟩ | ⟨v, hfind, hadd⟩
    · -- A topic that was just made has no subscriber.
      rw [hadd] at he
      exact absurd he List.not_mem_nil
    · rw [hadd] at he
      have hknown := hw.inv.subscribers_connected v (Broker.find_eq_some hfind).1 _ he
      have hrun := run_handleSubscribeRequest_again hw.toPointers env hfind he hknown
      exact (Prod.mk.inj (Except.ok.inj (h.symm.trans hrun))).2
  · obtain ⟨rfl, -⟩ := Prod.mk.inj (hsubscribe.symm.trans hbroker)
    exact absurd rfl hr

theorem unsubscribe_changes_nothing (hw : w.Sound) {ipAddress topicName : Text} {port : ℤ}
    (h : (handle env (.unsubscribe ipAddress port topicName)).run w = .ok (r, w'))
    (hr : r.statusCode ≠ some .success) : w' = w := by
  have hbroker : w.view.unsubscribe ⟨ipAddress, port⟩ topicName = .ok (r, w'.view) :=
    (view_handle env hw h).1
  rcases Broker.unsubscribe_cases hbroker with ⟨hfind, -, -⟩ | ⟨v, -, -, rfl⟩
  · have hrun := run_handleUnsubscribeRequest_of_none hw.toPointers ipAddress port hfind
    exact (Prod.mk.inj (Except.ok.inj (h.symm.trans hrun))).2
  · exact absurd rfl hr

theorem publish_changes_nothing (hw : w.Sound) {topicName message : Text}
    (h : (handle env (.publish topicName message)).run w = .ok (r, w'))
    (hr : r.statusCode ≠ some .success) : w' = w := by
  have hbroker : w.view.publish env topicName message = (r, w'.view) :=
    Except.ok.inj (view_handle env hw h).1
  rcases w.view.publish_cases env topicName message with ⟨hfind, -⟩ | ⟨v, -, hpublish⟩
  · have hrun := run_handlePublishRequest_of_none env hw.toPointers hfind message
    exact (Prod.mk.inj (Except.ok.inj (h.symm.trans hrun))).2
  · obtain ⟨rfl, -⟩ := Prod.mk.inj (hpublish.symm.trans hbroker)
    exact absurd rfl hr

theorem handle_changes_nothing (hw : w.Sound) {q : Request}
    (h : (handle env q).run w = .ok (r, w')) (hr : r.statusCode ≠ some .success) : w' = w := by
  cases q with
  | subscribe ipAddress port topicName => exact subscribe_changes_nothing hw h hr
  | unsubscribe ipAddress port topicName => exact unsubscribe_changes_nothing hw h hr
  | publish topicName message => exact publish_changes_nothing hw h hr
  | listTopics =>
      have hsame := h.symm.trans (run_handleListTopics hw.toPointers)
      exact (Prod.mk.inj (Except.ok.inj hsame)).2
  | getTopicStatus topicName =>
      have hsame := h.symm.trans (run_handleGetTopicStatus hw.toPointers topicName)
      exact (Prod.mk.inj (Except.ok.inj hsame)).2

theorem answer_changes_nothing {library : JsonLibrary} {clientIpAddress receivedData : Text}
    {p p' : Process} (hp : p.Sound)
    (h : (answer env library clientIpAddress receivedData).run p = .ok (r, p'))
    (hr : r.statusCode ≠ some .success) : p'.world = p.world := by
  rcases (answer_inv hp h).2 with hsame | ⟨q, -, hq⟩
  · exact hsame
  · exact handle_changes_nothing hp.world hq hr

end

end Server

/-- Whatever text a reachable server answers with another status than success,
the vectors, every object behind them and the history are as they were. -/
theorem error_reply_changes_nothing (env : Environment) (library : JsonLibrary)
    (indeterminate topicTimeout : ℤ) {p p' : Process}
    (hp : (Process.system env library indeterminate topicTimeout).Reachable p)
    {clientIpAddress receivedData text : Text} {bytesSent : Text → ℤ} {r : Response}
    (hstep : (Process.system env library indeterminate topicTimeout).step p
      (.connection clientIpAddress (some receivedData) bytesSent) = .ok (some (r, text), p'))
    (hr : r.statusCode ≠ some .success) :
    p'.world = { p.world with os := p'.world.os } := by
  rcases Server.acceptClient_inv hstep with
    ⟨os, hnone, -⟩ | ⟨os, os', data, s, answered, -, hanswer, hreply, rfl⟩
  · cases hnone
  · obtain ⟨rfl, -⟩ := Prod.mk.inj (Option.some.inj hreply)
    have hsame := Server.answer_changes_nothing
      ((Process.sound_of_reachable hp).withOs os) hanswer hr
    simp only [Process.withOs] at hsame ⊢
    rw [hsame]

/-- The second of two equal subscriptions is answered with failed. -/
theorem error_reply_changes_nothing_subscribed :
    let v := Json.object [
      (ascii "arguments", .object [
        (ascii "clientPort", .string (ascii "7001")),
        (ascii "topicName", .string (ascii "news"))]),
      (ascii "command", .int 0)]
    let system := Process.system .steady (.ofValues [v]) 7 10
    let connection := Occurrence.connection (ascii "10.0.0.1") (some v.compact) fun text ↦
      text.length
    let p := system.final [connection]
    let p' := system.final [connection, connection]
    p.world.topics.length = 1 ∧ p.world.clientConnections.length = 1 ∧
      p'.world = { p.world with os := p'.world.os } := by
  intro v system connection p p'
  have hp : system.Reachable p := Transition.System.reachable_final system [connection]
  have hstep : system.step p (.connection (ascii "10.0.0.1") (some v.compact) fun text ↦
      text.length) = .ok (some
      ((Response.new .subscribe).setStatusCode .failed,
        Json.compact (.object [(ascii "statusCode", .int 1)])), p') := by
    decide +kernel
  refine ⟨by decide +kernel, by decide +kernel, ?_⟩
  exact error_reply_changes_nothing .steady (.ofValues [v]) 7 10 hp hstep (by decide)

end PublisherSubscriber
