import PublisherSubscriber.Broker.Membership
import PublisherSubscriber.Broker.Service
import PublisherSubscriber.Shared.Format

/-!
# Where the contents of the topics come from

A name and the endpoints of a topic came with subscriptions, and its timestamp
is a reading of the clock.  What was true of the subscriptions that were
accepted is true of everything the server holds.
-/

namespace PublisherSubscriber

open PointerHeap

/-- A name with `N`, a timestamp with `T` and subscribers with `E`. -/
structure TopicView.Vetted (N : Text → Prop) (T : ℤ → Prop) (E : Endpoint → Prop)
    (v : TopicView) : Prop where
  topicName : N v.topicName
  messageTimestamp : T v.messageTimestamp
  subscribers : ∀ e ∈ v.subscribers, E e

/-- A subscription brings a name with `N` and an endpoint with `E`. -/
def Request.Vetted (N : Text → Prop) (E : Endpoint → Prop) : Request → Prop
  | subscribe ipAddress port topicName => N topicName ∧ E ⟨ipAddress, port⟩
  | _ => True

namespace Broker

def Vetted (N : Text → Prop) (T : ℤ → Prop) (E : Endpoint → Prop) (b : Broker) : Prop :=
  ∀ v ∈ b.topics, v.Vetted N T E

section

variable {N : Text → Prop} {T : ℤ → Prop} {E : Endpoint → Prop} {b c : Broker}
  {env : Environment}

theorem Vetted.congr (h : b.Vetted N T E) (ht : c.topics = b.topics) : c.Vetted N T E := by
  intro v hv
  rw [ht] at hv
  exact h v hv

theorem Vetted.alter (h : b.Vetted N T E) {object : Pointer} {f : TopicView → TopicView}
    (hf : ∀ v, v.Vetted N T E → (f v).Vetted N T E) : (b.alter object f).Vetted N T E := by
  intro v hv
  obtain ⟨u, hu, rfl⟩ := mem_alter.mp hv
  split_ifs
  · exact hf u (h u hu)
  · exact h u hu

theorem Vetted.subscribe (h : b.Vetted N T E) (hT : ∀ n, T (env.time n)) {e : Endpoint}
    {topicName : Text} (hN : N topicName) (hE : E e) :
    (b.subscribe env e topicName).2.Vetted N T E := by
  have hadd : (b.findOrAddTopic env topicName).2.Vetted N T E := by
    rcases b.findOrAddTopic_cases env topicName with ⟨-, hadd⟩ | ⟨v, -, hadd⟩ <;> rw [hadd]
    · intro v hv
      rcases List.mem_append.mp hv with hv | hv
      · exact h v hv
      · rw [List.mem_singleton.mp hv]
        exact ⟨hN, hT _, fun e he ↦ absurd he List.not_mem_nil⟩
    · exact h
  have hconnected := hadd.congr (topics_connect _ e)
  rcases b.subscribe_cases env e topicName with ⟨-, hsubscribe⟩ | ⟨-, hsubscribe⟩ <;>
    rw [hsubscribe]
  · exact hconnected
  · apply hconnected.alter
    intro v hv
    refine ⟨hv.topicName, hv.messageTimestamp, fun e' he' ↦ ?_⟩
    rcases List.mem_append.mp he' with he' | he'
    · exact hv.subscribers e' he'
    · rwa [List.mem_singleton.mp he']

theorem Vetted.dropFirst (h : b.Vetted N T E) (v : TopicView) : (b.dropFirst v).Vetted N T E := by
  rcases b.dropFirst_cases v with ⟨-, hdrop⟩ | ⟨-, hdrop⟩ <;> rw [hdrop]
  · exact fun u hu ↦ h u (List.mem_of_mem_filter hu)
  · apply h.alter
    intro u hu
    exact ⟨hu.topicName, hu.messageTimestamp, fun e he ↦
      hu.subscribers e (List.mem_of_mem_tail he)⟩

theorem Vetted.publish (h : b.Vetted N T E) (hT : ∀ n, T (env.time n))
    (topicName message : Text) : (b.publish env topicName message).2.Vetted N T E := by
  rcases b.publish_cases env topicName message with ⟨-, hpublish⟩ | ⟨v, -, hpublish⟩ <;>
    rw [hpublish]
  · exact h
  · exact (h.alter (f := .store message _ _) fun u hu ↦
      ⟨hu.topicName, hT _, hu.subscribers⟩).congr rfl

theorem Vetted.handle (h : b.Vetted N T E) (hT : ∀ n, T (env.time n)) {q : Request}
    (hq : q.Vetted N E) {r : Response} (hstep : b.handle env q = .ok (r, c)) :
    c.Vetted N T E := by
  cases q with
  | subscribe ipAddress port topicName =>
      have hc : b.subscribe env ⟨ipAddress, port⟩ topicName = (r, c) := Except.ok.inj hstep
      simpa [hc] using h.subscribe hT hq.1 hq.2
  | unsubscribe ipAddress port topicName =>
      rcases unsubscribe_cases hstep with ⟨-, rfl, -⟩ | ⟨v, -, hrelease, -⟩
      · exact h
      · exact (h.dropFirst v).congr (topics_releaseConnection hrelease)
  | publish topicName message =>
      have hc : b.publish env topicName message = (r, c) := Except.ok.inj hstep
      simpa [hc] using h.publish hT topicName message
  | listTopics =>
      cases hstep
      exact h
  | getTopicStatus topicName =>
      cases hstep
      exact h

theorem Vetted.tick (h : b.Vetted N T E) (env : Environment) : (b.tick env).Vetted N T E := by
  apply tick_induction env _ h
  intro c object hc
  rcases checkTopic_cases env c object with hcheck | ⟨v, -, -, hcheck⟩ <;> rw [hcheck]
  · exact hc
  · rcases checkView_cases env c v with ⟨-, _, _, -, hview⟩ | ⟨-, _, hview⟩ <;> rw [hview]
    · exact (hc.alter (f := .postpone _) fun u hu ↦
        ⟨hu.topicName, hu.messageTimestamp, hu.subscribers⟩).congr rfl
    · exact hc

end

end Broker

/-! ## What a subscription brings -/

namespace Server

variable {library : JsonLibrary} {clientIpAddress receivedData : Text}

theorem dispatch_subscribe_inv {c : Command} {ipAddress topicName : Text} {port : ℤ}
    (h : dispatch clientIpAddress c = .ok (some (.subscribe ipAddress port topicName))) :
    c.commandIdentifier = .subscribe ∧ ipAddress = clientIpAddress ∧
      c.getCommandArgument .topicName = .ok topicName ∧
      ∃ clientPort, c.getCommandArgument .clientPort = .ok clientPort ∧
        stoi clientPort = .ok port := by
  obtain ⟨commandIdentifier, names, values⟩ := c
  cases commandIdentifier with
  | subscribe =>
      obtain ⟨clientPort, hclientPort, h⟩ := of_bind_eq_ok h
      obtain ⟨n, hn, h⟩ := of_bind_eq_ok h
      obtain ⟨t, ht, h⟩ := of_bind_eq_ok h
      cases h
      exact ⟨rfl, rfl, ht, clientPort, hclientPort, hn⟩
  | unsubscribe =>
      obtain ⟨clientPort, -, h⟩ := of_bind_eq_ok h
      obtain ⟨n, -, h⟩ := of_bind_eq_ok h
      obtain ⟨t, -, h⟩ := of_bind_eq_ok h
      cases h
  | publish =>
      obtain ⟨t, -, h⟩ := of_bind_eq_ok h
      obtain ⟨m, -, h⟩ := of_bind_eq_ok h
      cases h
  | getTopicStatus =>
      obtain ⟨t, -, h⟩ := of_bind_eq_ok h
      cases h
  | listTopics => cases h
  | unnamed n => cases h

/-- A subscription that is accepted names a topic and comes from the address of
the connection. -/
theorem vetted_of_requestOf {q : Request}
    (h : requestOf library clientIpAddress receivedData = .ok (some q)) :
    q.Vetted (· ≠ []) fun e ↦ e.ipAddress = clientIpAddress := by
  obtain ⟨c, hc, hdispatch⟩ := of_bind_eq_ok h
  obtain ⟨v, -, hv⟩ := Command.decodeText_inv hc
  obtain ⟨hwf, hvalid⟩ := Command.decode_inv hv
  cases q with
  | subscribe ipAddress port topicName =>
      obtain ⟨-, rfl, htopic, -⟩ := dispatch_subscribe_inv hdispatch
      obtain ⟨hmem, rfl⟩ := Command.getCommandArgument_inv htopic
      exact ⟨(Command.isValid_iff hwf).mp hvalid _ hmem, rfl⟩
  | unsubscribe => trivial
  | publish => trivial
  | listTopics => trivial
  | getTopicStatus => trivial

end Server

/-! ## Runs of the process -/

namespace Process

variable {env : Environment} {library : JsonLibrary} {indeterminate topicTimeout : ℤ}

/-- A connection that brings a request brings one that is vetted. -/
def Vets (library : JsonLibrary) (N : Text → Prop) (E : Endpoint → Prop) : Occurrence → Prop
  | .connection clientIpAddress (some receivedData) _ => ∀ q,
      Server.requestOf library clientIpAddress receivedData = .ok (some q) → q.Vetted N E
  | _ => True

/-- Only subscriptions are vetted. -/
theorem vets_of_subscribe {N : Text → Prop} {E : Endpoint → Prop} {o : Occurrence}
    (h : ∀ clientIpAddress receivedData bytesSent ipAddress port topicName,
      o = .connection clientIpAddress (some receivedData) bytesSent →
      Server.requestOf library clientIpAddress receivedData =
        .ok (some (.subscribe ipAddress port topicName)) →
      N topicName ∧ E ⟨ipAddress, port⟩) : Vets library N E o := by
  cases o with
  | tick => trivial
  | connection clientIpAddress received bytesSent =>
      cases received with
      | none => trivial
      | some receivedData =>
          intro q hq
          cases q with
          | subscribe ipAddress port topicName => exact h _ _ _ _ _ _ rfl hq
          | _ => trivial

/-- An accepted subscription names a topic; its endpoint has the address of the connection. -/
theorem vets_of_address {E : Endpoint → Prop} {o : Occurrence}
    (h : ∀ clientIpAddress received bytesSent,
      o = .connection clientIpAddress received bytesSent → ∀ port, E ⟨clientIpAddress, port⟩) :
    Vets library (· ≠ []) E o := by
  apply vets_of_subscribe
  intro clientIpAddress receivedData bytesSent ipAddress port topicName ho hq
  obtain ⟨hname, rfl⟩ := Server.vetted_of_requestOf hq
  exact ⟨hname, h _ _ _ ho port⟩

/-- In a run of vetted requests everything that is held is vetted. -/
theorem vetted_of_reachableWhile {N : Text → Prop} {T : ℤ → Prop} {E : Endpoint → Prop}
    {guard : Process → Occurrence → Prop} (hT : ∀ n, T (env.time n))
    (hguard : ∀ p o, guard p o → Vets library N E o) {p : Process}
    (hp : (system env library indeterminate topicTimeout).ReachableWhile guard p) :
    p.world.view.Vetted N T E := by
  have hboth : p.Sound ∧ p.world.view.Vetted N T E := by
    refine hp.invariant (I := fun p ↦ p.Sound ∧ p.world.view.Vetted N T E)
      ⟨sound_initial topicTimeout, fun v hv ↦ absurd hv List.not_mem_nil⟩ ?_
    rintro p p' o reply ⟨hsound, hvetted⟩ ho hstep
    refine ⟨hsound.step hstep, ?_⟩
    cases o with
    | tick =>
        obtain ⟨w', -, rfl, -, hview, -⟩ := tick_inv hsound hstep
        exact hview ▸ hvetted.tick env
    | connection clientIpAddress received bytesSent =>
        rcases Server.acceptClient_inv hstep with
          ⟨os, -, rfl⟩ | ⟨os, os', receivedData, r, answered, rfl, hanswer, -, rfl⟩
        · exact hvetted
        · rcases (Server.answer_inv (hsound.withOs os) hanswer).2 with hsame | ⟨q, hq, hhandle⟩
          · have hview : answered.world.view.topics = p.world.view.topics := by
              rw [hsame]
              rfl
            exact hvetted.congr hview
          · have hstart : (p.withOs os).world.view.Vetted N T E := hvetted
            have hbroker := (Server.view_handle env (hsound.withOs os).world hhandle).1
            exact (hstart.handle hT (hguard p _ ho q hq) hbroker).congr rfl
  exact hboth.2

end Process

end PublisherSubscriber
