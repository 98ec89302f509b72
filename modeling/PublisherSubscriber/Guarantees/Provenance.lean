import PublisherSubscriber.Broker.Contents
import PublisherSubscriber.Broker.Provenance
import PublisherSubscriber.Client.Calls
import PublisherSubscriber.Guarantees.Linearization
import PublisherSubscriber.Shared.Vendored

/-!
# Nothing is sent that was not asked for

A datagram carries a message of a publish request, with a reading of the clock,
to the sender of a subscribe request.  Both requests were received before, by
whichever threads.
-/

namespace PublisherSubscriber

open PointerHeap

namespace ClientThreads

section

variable (env : Environment) (library : JsonLibrary)

/-- One of these steps received a text that asks for this. -/
def Received (past : List ThreadStep) (ipAddress : Text) (q : Request) : Prop :=
  ∃ clientSocket receivedData, .receive clientSocket ipAddress (some receivedData) ∈ past ∧
    Server.requestOf library ipAddress receivedData = .ok (some q)

def ToldToPublish (past : List ThreadStep) (topicName message : Text) (timestamp : ℤ) : Prop :=
  (∃ ipAddress, Received library past ipAddress (.publish topicName message)) ∧
    ∃ n, timestamp = env.time n

def ToldToSubscribe (past : List ThreadStep) (e : Endpoint) (topicName : Text) : Prop :=
  Received library past e.ipAddress (.subscribe e.ipAddress e.port topicName)

/-- The threads after the steps of `past`, the newest of which is its first. -/
structure Heard (past : List ThreadStep) (s : ClientThreads) : Prop where
  sound : s.process.Sound
  traced : s.process.world.view.Traced env (ToldToPublish env library past)
    (ToldToSubscribe library past)
  decoded : ∀ d ipAddress receivedData outcome,
    s.stage d = some (.decoded ipAddress receivedData outcome) →
      outcome = Server.requestOf library ipAddress receivedData ∧
        .receive d ipAddress (some receivedData) ∈ past

variable {env library} {past past' : List ThreadStep} {s s' : ClientThreads}

theorem Received.mono (hsub : past ⊆ past') {ipAddress : Text} {q : Request}
    (h : Received library past ipAddress q) : Received library past' ipAddress q := by
  obtain ⟨clientSocket, receivedData, hmem, hrequest⟩ := h
  exact ⟨clientSocket, receivedData, hsub hmem, hrequest⟩

theorem Heard.mono (hsub : past ⊆ past') (h : Heard env library past s) :
    Heard env library past' s where
  sound := h.sound
  traced := h.traced.mono
    (fun _ _ _ ⟨⟨ipAddress, hreceived⟩, htime⟩ ↦ ⟨⟨ipAddress, hreceived.mono hsub⟩, htime⟩)
    fun _ _ hreceived ↦ hreceived.mono hsub
  decoded d ipAddress receivedData outcome hstage :=
    (h.decoded d ipAddress receivedData outcome hstage).imp_right fun hmem ↦ hsub hmem

/-- The request of a subscriber names the sender. -/
theorem complies_of_received {ipAddress receivedData : Text} {q : Request} {clientSocket : ℕ}
    (hmem : .receive clientSocket ipAddress (some receivedData) ∈ past)
    (hq : Server.requestOf library ipAddress receivedData = .ok (some q)) :
    q.Complies env (ToldToPublish env library past) (ToldToSubscribe library past) := by
  cases q with
  | subscribe ipAddress' port topicName =>
      obtain ⟨c, -, hdispatch⟩ := of_bind_eq_ok hq
      obtain ⟨-, rfl, -⟩ := Server.dispatch_subscribe_inv hdispatch
      exact ⟨clientSocket, receivedData, hmem, hq⟩
  | publish topicName message =>
      exact fun n ↦ ⟨⟨ipAddress, clientSocket, receivedData, hmem, hq⟩, n, rfl⟩
  | unsubscribe ipAddress' port topicName => trivial
  | listTopics => trivial
  | getTopicStatus topicName => trivial

theorem heard_initial (topicTimeout : ℤ) : Heard env library [] (initial env topicTimeout) where
  sound := (Process.sound_initial topicTimeout).withOs _
  traced := ⟨fun v hv ↦ absurd hv List.not_mem_nil, fun e he ↦ absurd he List.not_mem_nil⟩
  decoded := by rintro d ipAddress receivedData outcome ⟨⟩

/-- A step after which no thread has come further than before. -/
theorem Heard.ofProcess (h : Heard env library past s) {p : Process} (hp : p.Sound)
    (htraced : p.world.view.Traced env (ToldToPublish env library past)
      (ToldToSubscribe library past)) :
    Heard env library past { s with process := p } :=
  ⟨hp, htraced, h.decoded⟩

theorem Heard.ofOs (h : Heard env library past s) (os : Os) :
    Heard env library past { s with process := s.process.withOs os } :=
  h.ofProcess (h.sound.withOs os) (h.traced.of_subset (List.Subset.refl _) rfl)

theorem Heard.withStage (h : Heard env library past s) (clientSocket : ℕ) (stage : Option Stage)
    (hdecoded : ∀ ipAddress receivedData outcome,
      stage = some (.decoded ipAddress receivedData outcome) →
        outcome = Server.requestOf library ipAddress receivedData ∧
          .receive clientSocket ipAddress (some receivedData) ∈ past) :
    Heard env library past (s.withStage clientSocket stage) where
  sound := h.sound
  traced := h.traced
  decoded d ipAddress receivedData outcome hstage := by
    by_cases hd : d = clientSocket
    · rw [hd, stage_withStage_self] at hstage
      exact hd ▸ hdecoded ipAddress receivedData outcome hstage
    · rw [stage_withStage_ne s hd] at hstage
      exact h.decoded d ipAddress receivedData outcome hstage

/-- The handler that runs was asked for by what this thread received. -/
theorem Heard.respond (h : Heard env library past s) {clientSocket : ℕ}
    {ipAddress receivedData : Text} {outcome : Except CppException (Option Request)}
    (hstage : s.stage clientSocket = some (.decoded ipAddress receivedData outcome))
    {r : Response} {w' : World}
    (hrun : (Server.respond env outcome).run s.process.world = .ok (r, w')) :
    Heard env library past { s with process := { s.process with world := w' } } := by
  obtain ⟨houtcome, hmem⟩ := h.decoded clientSocket ipAddress receivedData outcome hstage
  have hw' := (Server.respond_inv h.sound.world hrun).1
  refine h.ofProcess ⟨hw', h.sound.dictionaries⟩ ?_
  rcases outcome with e | ⟨_ | q⟩
  · cases hrun
    exact h.traced
  · cases hrun
    exact h.traced
  · have hhandle := (Server.view_handle env h.sound.world hrun).1
    exact h.traced.handle h.sound.world.inv.toWf (complies_of_received hmem houtcome.symm) hhandle

theorem Heard.step {indeterminate : ℤ} (h : Heard env library past s) {i : ThreadStep}
    {o : Option (ℕ × Response × Text)}
    (hstep : s.step env library indeterminate i = .ok (o, s')) :
    Heard env library (i :: past) s' := by
  have hheard := h.mono (List.subset_cons_self i past)
  cases i with
  | accept =>
      have haccepted := hheard.ofOs (s.process.world.os.acquire env).2
      simp only [ClientThreads.step] at hstep
      split at hstep
      · cases hstep
        exact haccepted
      · cases hstep
        exact haccepted.withStage _ _ (by rintro _ _ _ ⟨⟩)
  | receive clientSocket ipAddress received =>
      simp only [ClientThreads.step] at hstep
      split at hstep
      · cases hstep
        exact (hheard.ofOs (s.process.world.os.close clientSocket)).withStage _ _
          (by rintro _ _ _ ⟨⟩)
      case h_2 receivedData _ =>
        obtain ⟨d', hdecoded, hd'⟩ := Command.yields_deserialize h.sound.dictionaries library
          receivedData
        simp only [hdecoded] at hstep
        cases hstep
        have hprocess := hheard.ofProcess (p := { s.process with dictionaries := d' })
          ⟨h.sound.world, hd'⟩ hheard.traced
        refine hprocess.withStage _ _ ?_
        rintro _ _ _ ⟨⟩
        exact ⟨rfl, List.mem_cons_self⟩
      · cases hstep
        exact hheard
  | handle clientSocket =>
      simp only [ClientThreads.step] at hstep
      split at hstep
      case h_1 ipAddress receivedData outcome hstage =>
        obtain ⟨⟨r, w'⟩, hrun, hnext⟩ := of_map_eq_ok hstep
        cases hnext
        exact (hheard.respond hstage hrun).withStage _ _ (by rintro _ _ _ ⟨⟩)
      · cases hstep
        exact hheard
  | send clientSocket bytesSent =>
      simp only [ClientThreads.step, ite_self] at hstep
      split at hstep
      · cases hstep
        exact (hheard.ofOs (s.process.world.os.close clientSocket)).withStage _ _
          (by rintro _ _ _ ⟨⟩)
      · cases hstep
        exact hheard
  | tick =>
      obtain ⟨⟨reply, p⟩, htick, hnext⟩ := of_map_eq_ok hstep
      cases hnext
      have hoccur : (Process.system env library indeterminate 0).step s.process .tick =
          .ok (reply, p) := htick
      obtain ⟨w', -, rfl, -, hview, -⟩ := Process.tick_inv h.sound hoccur
      have hp := h.sound.step hoccur
      exact hheard.ofProcess hp (hview ▸ hheard.traced.tick)

end

/-- However the threads are interleaved, what is sent to a client carries a message
of a publish request for that topic and a reading of the clock, and the client
asked to subscribe to the topic; both were received before. -/
theorem only_received_messages_sent (env : Environment) (library : JsonLibrary)
    (indeterminate topicTimeout : ℤ) {steps : List ThreadStep}
    {sent : List (Option (ℕ × Response × Text))} {s : ClientThreads}
    (hrun : (system env library indeterminate topicTimeout).run
      (system env library indeterminate topicTimeout).start steps = .ok (sent, s))
    {event : Event} (hevent : event ∈ s.process.world.history) {call : SendMessageCall}
    (hcall : call ∈ event.calls) :
    (∃ ipAddress, Received library steps ipAddress (.publish call.topicName call.message)) ∧
      (∃ n, call.timestamp = env.time n) ∧
      Received library steps call.address (.subscribe call.address call.port call.topicName) := by
  have hheard := Transition.System.run_invariant (P := fun _ ↦ True)
    (I := Heard env library) (fun _ _ _ _ _ hs _ hstep ↦ hs.step hstep)
    (heard_initial topicTimeout) (fun _ _ ↦ trivial) hrun
  have hsteps : steps.reverse ++ [] ⊆ steps := by simp
  have htraced := (hheard.mono hsteps).traced.calls event hevent call hcall
  exact ⟨htraced.published.1, htraced.published.2, htraced.subscribed⟩

/-- Both texts are decoded before a handler gets the mutex. -/
def overlapping : List ThreadStep :=
  let subscription := ClientOperation.subscribeTopic (ascii "news")
  let publication := ClientOperation.publishTopic (ascii "news") (ascii "Hello")
  [.accept, .accept,
    .receive 2 (ascii "10.0.0.2") (some (publication.requestText 7002)),
    .receive 1 (ascii "10.0.0.1") (some (subscription.requestText 7001)),
    .handle 1, .handle 2, .tick,
    .send 2 fun text ↦ text.length, .send 1 fun text ↦ text.length]

/-- A message is sent to the first thread's client before its reply is. -/
theorem only_received_messages_sent_overlapping :
    let library := JsonLibrary.vendored fun _ ↦ none
    let threads := system .steady library 0 30
    ∃ sent s, threads.run threads.start overlapping = .ok (sent, s) ∧
      (s.process.world.history.flatMap Event.calls).length = 1 ∧
      ∀ event ∈ s.process.world.history, ∀ call ∈ event.calls,
        Received library overlapping call.address
          (.subscribe call.address call.port call.topicName) := by
  intro library threads
  have hrun : (threads.run threads.start overlapping).map
      (fun r ↦ (r.2.process.world.history.flatMap Event.calls).length) = .ok 1 := by
    decide +kernel
  obtain ⟨⟨sent, s⟩, hrun, hlength⟩ := of_map_eq_ok hrun
  exact ⟨sent, s, hrun, hlength, fun event hevent call hcall ↦
    (only_received_messages_sent .steady library 0 30 hrun hevent hcall).2.2⟩

end ClientThreads

end PublisherSubscriber
