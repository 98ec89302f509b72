import PublisherSubscriber.Broker.Changes
import PublisherSubscriber.Broker.Membership
import PublisherSubscriber.Broker.Service

/-!
# Where messages and subscribers come from

`P` says which messages were published to which name and when, and `Q` who
subscribed to what.  If the requests comply with them, so does every topic, and
so does every call of `SendMessage` that was ever made.
-/

namespace PublisherSubscriber

open PointerHeap

section

variable (env : Environment) (P : Text → Text → ℤ → Prop) (Q : Endpoint → Text → Prop)

/-- The timestamp is a reading of the clock, the message, if there is one, was
published, and the subscribers subscribed. -/
structure TopicView.Traced (v : TopicView) : Prop where
  stamped : ∃ n, v.messageTimestamp = env.time n
  published : v.message ≠ [] → P v.topicName v.message v.messageTimestamp
  subscribed : ∀ e ∈ v.subscribers, Q e v.topicName

/-- The call carries what was published, to one who subscribed. -/
structure SendMessageCall.Traced (call : SendMessageCall) : Prop where
  published : P call.topicName call.message call.timestamp
  subscribed : Q ⟨call.address, call.port⟩ call.topicName

structure Broker.Traced (b : Broker) : Prop where
  topics : ∀ v ∈ b.topics, v.Traced env P Q
  calls : ∀ event ∈ b.history, ∀ call ∈ event.calls, call.Traced P Q

/-- What a request adds is in `P` or in `Q`, whatever the clock says. -/
def Request.Complies : Request → Prop
  | .subscribe ipAddress port topicName => Q ⟨ipAddress, port⟩ topicName
  | .publish topicName message => ∀ n, P topicName message (env.time n)
  | .unsubscribe _ _ _ => True
  | .listTopics => True
  | .getTopicStatus _ => True

end

namespace Broker

variable {P P' : Text → Text → ℤ → Prop} {Q Q' : Endpoint → Text → Prop} {b c : Broker}
  {env : Environment}

theorem Traced.mono (h : b.Traced env P Q) (hP : ∀ t m n, P t m n → P' t m n)
    (hQ : ∀ e t, Q e t → Q' e t) : b.Traced env P' Q' where
  topics v hv := ⟨(h.topics v hv).stamped, fun hne ↦ hP _ _ _ ((h.topics v hv).published hne),
    fun e he ↦ hQ _ _ ((h.topics v hv).subscribed e he)⟩
  calls event hevent call hcall :=
    ⟨hP _ _ _ (h.calls event hevent call hcall).published,
      hQ _ _ (h.calls event hevent call hcall).subscribed⟩

/-- Topics may go, and the history may stay as it is. -/
theorem Traced.of_subset (h : b.Traced env P Q) (ht : c.topics ⊆ b.topics)
    (hh : c.history = b.history) : c.Traced env P Q :=
  ⟨fun v hv ↦ h.topics v (ht hv), by rw [hh]; exact h.calls⟩

theorem Traced.alter (h : b.Traced env P Q) {object : Pointer} {f : TopicView → TopicView}
    (hf : ∀ v ∈ b.topics, v.object = object → v.Traced env P Q → (f v).Traced env P Q) :
    (b.alter object f).Traced env P Q := by
  refine ⟨fun v hv ↦ ?_, h.calls⟩
  obtain ⟨u, hu, rfl⟩ := mem_alter.mp hv
  split_ifs with hobject
  · exact hf u hu hobject (h.topics u hu)
  · exact h.topics u hu

theorem Traced.findOrAddTopic (h : b.Traced env P Q) (topicName : Text) :
    (b.findOrAddTopic env topicName).2.Traced env P Q := by
  rcases b.findOrAddTopic_cases env topicName with ⟨-, hadd⟩ | ⟨v, -, hadd⟩ <;> rw [hadd]
  · constructor
    · intro v hv
      rcases List.mem_append.mp hv with hv | hv
      · exact h.topics v hv
      · rw [List.mem_singleton.mp hv]
        exact ⟨⟨_, rfl⟩, fun hne ↦ absurd rfl hne, fun e he ↦ absurd he List.not_mem_nil⟩
    · exact List.forall_mem_cons.mpr ⟨fun call hcall ↦ absurd hcall List.not_mem_nil, h.calls⟩
  · exact h

theorem history_connect (b : Broker) (e : Endpoint) : (b.connect e).history = b.history := by
  rcases b.connect_cases e with ⟨-, hconnect⟩ | ⟨-, hconnect⟩ <;> rw [hconnect]

theorem Traced.subscribe (h : b.Traced env P Q) (hwf : b.Wf) {e : Endpoint}
    {topicName : Text} (hQ : Q e topicName) : (b.subscribe env e topicName).2.Traced env P Q := by
  obtain ⟨hadded, hmem, hname⟩ := hwf.findOrAddTopic env topicName
  have hconnected : ((b.findOrAddTopic env topicName).2.connect e).Traced env P Q :=
    (h.findOrAddTopic topicName).of_subset (by rw [topics_connect]; exact List.Subset.refl _)
      (history_connect _ e)
  rcases b.subscribe_cases env e topicName with ⟨-, hsubscribe⟩ | ⟨-, hsubscribe⟩ <;>
    rw [hsubscribe]
  · exact hconnected
  · refine hconnected.alter fun v hv hobject htraced ↦
      ⟨htraced.stamped, htraced.published, fun e' he' ↦ ?_⟩
    rw [topics_connect] at hv
    obtain rfl := hadded.eq_of_object hv hmem hobject
    rcases List.mem_append.mp (show e' ∈ _ ++ [e] from he') with he' | he'
    · exact htraced.subscribed e' he'
    · rw [List.mem_singleton.mp he']
      show Q e (b.findOrAddTopic env topicName).1.topicName
      rwa [hname]

theorem Traced.unsubscribe (h : b.Traced env P Q) {e : Endpoint} {topicName : Text} {r : Response}
    (hstep : b.unsubscribe e topicName = .ok (r, c)) : c.Traced env P Q := by
  rcases unsubscribe_cases hstep with ⟨-, rfl, -⟩ | ⟨v, -, hrelease, -⟩
  · exact h
  · have hdropped : (b.dropFirst v).Traced env P Q := by
      rcases b.dropFirst_cases v with ⟨-, hdrop⟩ | ⟨-, hdrop⟩ <;> rw [hdrop]
      · exact h.of_subset (fun u hu ↦ List.mem_of_mem_filter hu) rfl
      · exact h.alter fun u _ _ hu ↦
          ⟨hu.stamped, hu.published, fun e he ↦ hu.subscribed e (List.mem_of_mem_tail he)⟩
    rcases releaseConnection_cases hrelease with ⟨rfl, -⟩ | ⟨-, rfl⟩
    · exact hdropped
    · exact hdropped.of_subset (List.Subset.refl _) rfl

theorem Traced.publish (h : b.Traced env P Q) (hwf : b.Wf) {topicName message : Text}
    (hP : ∀ n, P topicName message (env.time n)) :
    (b.publish env topicName message).2.Traced env P Q := by
  rcases b.publish_cases env topicName message with ⟨-, hpublish⟩ | ⟨v, hfind, hpublish⟩ <;>
    rw [hpublish]
  · exact h
  · obtain ⟨hv, rfl⟩ := find_eq_some hfind
    have hstored : (b.alter v.object (.store message (env.time b.os.readings)
        (env.time (b.os.readings + 1)))).Traced env P Q := by
      refine h.alter fun u hu hobject htraced ↦ ⟨⟨_, rfl⟩, fun _ ↦ ?_, htraced.subscribed⟩
      obtain rfl := hwf.eq_of_object hu hv hobject
      exact hP _
    exact ⟨hstored.topics,
      List.forall_mem_cons.mpr ⟨fun call hcall ↦ absurd hcall List.not_mem_nil, h.calls⟩⟩

/-- A handler keeps to what the request adds. -/
theorem Traced.handle (h : b.Traced env P Q) (hwf : b.Wf) {q : Request} (hq : q.Complies env P Q)
    {r : Response} (hstep : b.handle env q = .ok (r, c)) : c.Traced env P Q := by
  cases q with
  | subscribe ipAddress port topicName =>
      have hc : b.subscribe env ⟨ipAddress, port⟩ topicName = (r, c) := Except.ok.inj hstep
      simpa [hc] using h.subscribe hwf hq
  | unsubscribe ipAddress port topicName => exact h.unsubscribe hstep
  | publish topicName message =>
      have hc : b.publish env topicName message = (r, c) := Except.ok.inj hstep
      simpa [hc] using h.publish hwf hq
  | listTopics =>
      cases hstep
      exact h
  | getTopicStatus topicName =>
      cases hstep
      exact h

/-- What is recorded of a topic is sent to its subscribers and carries its message. -/
theorem traced_checkEvent {v : TopicView} (hv : v.Traced env P Q) (os : Os) :
    ∀ call ∈ (checkEvent env v os).calls, call.Traced P Q := by
  obtain ⟨now, calls, reset, hevent, hcalls⟩ := exists_checkEvent env v os
  rw [hevent]
  intro call hcall
  obtain ⟨hmessage, hendpoints, hcontent⟩ := hcalls (List.ne_nil_of_mem hcall)
  obtain ⟨htopicName, hcarried, htimestamp⟩ := hcontent call hcall
  have hsubscriber : (⟨call.address, call.port⟩ : Endpoint) ∈ v.subscribers := by
    rw [← hendpoints]
    exact List.mem_map_of_mem (f := fun call ↦ (⟨call.address, call.port⟩ : Endpoint)) hcall
  constructor
  · rw [htopicName, hcarried, htimestamp]
    exact hv.published hmessage
  · rw [htopicName]
    exact hv.subscribed _ hsubscriber

theorem Traced.checkView (h : b.Traced env P Q) {v : TopicView} (hv : v ∈ b.topics) :
    (b.checkView env v).Traced env P Q := by
  constructor
  · rcases checkView_cases env b v with ⟨-, _, _, -, hcheck⟩ | ⟨-, _, hcheck⟩ <;> rw [hcheck]
    · exact (h.alter (f := .postpone _) fun u _ _ hu ↦
        ⟨hu.stamped, hu.published, hu.subscribed⟩).topics
    · exact h.topics
  · rw [history_checkView]
    exact List.forall_mem_cons.mpr ⟨traced_checkEvent (h.topics v hv) b.os, h.calls⟩

theorem Traced.tick (h : b.Traced env P Q) : (b.tick env).Traced env P Q := by
  apply tick_induction env _ h
  intro c object hc
  rcases checkTopic_cases env c object with hcheck | ⟨v, hv, -, hcheck⟩ <;> rw [hcheck]
  · exact hc
  · exact hc.checkView hv

end Broker

/-! ## The process -/

/-- A connection brings no request that does not comply. -/
def Occurrence.Complies (env : Environment) (P : Text → Text → ℤ → Prop)
    (Q : Endpoint → Text → Prop) (library : JsonLibrary) : Occurrence → Prop
  | .connection clientIpAddress (some receivedData) _ => ∀ q,
      Server.requestOf library clientIpAddress receivedData = .ok (some q) → q.Complies env P Q
  | .connection _ none _ => True
  | .tick => True

namespace Process

variable {env : Environment} {library : JsonLibrary} {indeterminate topicTimeout : ℤ}
  {P : Text → Text → ℤ → Prop} {Q : Endpoint → Text → Prop} {p p' : Process}

theorem traced_step (hp : p.Sound) (h : p.world.view.Traced env P Q) {o : Occurrence}
    (ho : o.Complies env P Q library) {reply : Option (Response × Text)}
    (hstep : (system env library indeterminate topicTimeout).step p o = .ok (reply, p')) :
    p'.world.view.Traced env P Q := by
  cases o with
  | tick =>
      obtain ⟨w', -, rfl, -, hview, -⟩ := tick_inv hp hstep
      exact hview ▸ h.tick
  | connection clientIpAddress received bytesSent =>
      rcases Server.acceptClient_inv hstep with
        ⟨os, -, rfl⟩ | ⟨os, os', receivedData, r, answered, rfl, hanswer, -, rfl⟩
      · exact h.of_subset (List.Subset.refl _) rfl
      · have hstart : (p.withOs os).world.view.Traced env P Q :=
          h.of_subset (List.Subset.refl _) rfl
        rcases (Server.answer_inv (hp.withOs os) hanswer).2 with hsame | ⟨q, hq, hhandle⟩
        · have hworld : answered.world.view.Traced env P Q := hsame ▸ hstart
          exact hworld.of_subset (List.Subset.refl _) rfl
        · have hbroker := (Server.view_handle env (hp.withOs os).world hhandle).1
          exact (hstart.handle (hp.withOs os).world.inv.toWf (ho q hq) hbroker).of_subset
            (List.Subset.refl _) rfl

end Process

end PublisherSubscriber
