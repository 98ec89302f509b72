import PublisherSubscriber.Broker.Refinement
import PublisherSubscriber.Server.Process
import PublisherSubscriber.Shared.Decoding

/-!
# The process around the server

A connection runs at most one handler, between changes to the descriptors and
to the tables of the decoder only.
-/

namespace PublisherSubscriber

/-- Opening and closing descriptors changes nothing that soundness is about. -/
theorem World.Sound.withOs {w : World} (h : w.Sound) (os : Os) : { w with os := os }.Sound where
  toPointers := h.toPointers.congr rfl rfl rfl rfl
  inv := h.inv.congr rfl rfl rfl

structure Process.Sound (p : Process) : Prop where
  world : p.world.Sound
  dictionaries : p.dictionaries.Sound

def Process.withOs (p : Process) (os : Os) : Process :=
  { p with world := { p.world with os := os } }

theorem Process.Sound.withOs {p : Process} (h : p.Sound) (os : Os) : (p.withOs os).Sound :=
  ⟨h.world.withOs os, h.dictionaries⟩

namespace Server

/-- The request a received text asks for; `none` for a number of no command. -/
def requestOf (library : JsonLibrary) (clientIpAddress receivedData : Text) :
    Except CppException (Option Request) :=
  (Command.decodeText library receivedData).bind (dispatch clientIpAddress)

section

variable (env : Environment) (library : JsonLibrary) (clientIpAddress receivedData : Text)
  {process : Process}

/-- The answer in terms of what the decoder did. -/
theorem run_answer_of_decoded {decoded : Except CppException Command × Dictionaries}
    (h : (Command.deserialize library receivedData).run.run process.dictionaries = decoded) :
    (answer env library clientIpAddress receivedData).run process =
      match decoded.1.bind (dispatch clientIpAddress) with
      | .error _ => .ok (rejection, { process with dictionaries := decoded.2 })
      | .ok none => .ok (Response.default, { process with dictionaries := decoded.2 })
      | .ok (some request) => ((handle env request).run process.world).map fun answered ↦
          (answered.1, { world := answered.2, dictionaries := decoded.2 }) := by
  subst h
  rfl

/-- What is answered depends on the tables no more than what is decoded does. -/
theorem run_answer (hd : process.dictionaries.Sound) :
    ∃ d', (Command.deserialize library receivedData).run.run process.dictionaries =
        (Command.decodeText library receivedData, d') ∧ d'.Sound ∧
      (answer env library clientIpAddress receivedData).run process =
        match requestOf library clientIpAddress receivedData with
        | .error _ => .ok (rejection, { process with dictionaries := d' })
        | .ok none => .ok (Response.default, { process with dictionaries := d' })
        | .ok (some request) => ((handle env request).run process.world).map fun answered ↦
            (answered.1, { world := answered.2, dictionaries := d' }) := by
  obtain ⟨d', hrun, hd'⟩ := Command.yields_deserialize hd library receivedData
  exact ⟨d', hrun, hd', run_answer_of_decoded env library clientIpAddress receivedData hrun⟩

variable {env library clientIpAddress receivedData}

/-- Either no handler ran, or one did and its response is the reply. -/
theorem answer_inv {process' : Process} {r : Response} (hp : process.Sound)
    (h : (answer env library clientIpAddress receivedData).run process = .ok (r, process')) :
    process'.Sound ∧ (process'.world = process.world ∨
      ∃ request, requestOf library clientIpAddress receivedData = .ok (some request) ∧
        (handle env request).run process.world = .ok (r, process'.world)) := by
  obtain ⟨d', -, hd', hrun⟩ := run_answer env library clientIpAddress receivedData hp.dictionaries
  rw [hrun] at h
  cases hrequest : requestOf library clientIpAddress receivedData with
  | error e =>
      simp only [hrequest, Except.ok.injEq, Prod.mk.injEq] at h
      obtain ⟨-, rfl⟩ := h
      exact ⟨⟨hp.world, hd'⟩, Or.inl rfl⟩
  | ok request =>
      cases request with
      | none =>
          simp only [hrequest, Except.ok.injEq, Prod.mk.injEq] at h
          obtain ⟨-, rfl⟩ := h
          exact ⟨⟨hp.world, hd'⟩, Or.inl rfl⟩
      | some request =>
          simp only [hrequest] at h
          obtain ⟨answered, hhandle, hanswered⟩ := of_map_eq_ok h
          obtain ⟨rfl, rfl⟩ := Prod.mk.inj hanswered
          have hworld := (view_handle env hp.world hhandle).2
          exact ⟨⟨hworld, hd'⟩, Or.inr ⟨request, rfl, hhandle⟩⟩

theorem answer_of_rejected {process' : Process} {r : Response} {e : CppException}
    (hp : process.Sound)
    (hrequest : requestOf library clientIpAddress receivedData = .error e)
    (h : (answer env library clientIpAddress receivedData).run process = .ok (r, process')) :
    r = rejection ∧ process'.world = process.world := by
  obtain ⟨d', -, -, hrun⟩ := run_answer env library clientIpAddress receivedData hp.dictionaries
  rw [hrequest, h] at hrun
  obtain ⟨rfl, rfl⟩ := Prod.mk.inj (Except.ok.inj hrun)
  exact ⟨rfl, rfl⟩

theorem answer_of_request {process' : Process} {r : Response} {q : Request} (hp : process.Sound)
    (hrequest : requestOf library clientIpAddress receivedData = .ok (some q))
    (h : (answer env library clientIpAddress receivedData).run process = .ok (r, process')) :
    (handle env q).run process.world = .ok (r, process'.world) := by
  obtain ⟨d', -, -, hrun⟩ := run_answer env library clientIpAddress receivedData hp.dictionaries
  rw [hrequest, h] at hrun
  have hmap : .ok (r, process') = ((handle env q).run process.world).map fun answered ↦
      (answered.1, (⟨answered.2, d'⟩ : Process)) := hrun
  obtain ⟨answered, hhandle, hanswered⟩ := of_map_eq_ok hmap.symm
  obtain ⟨rfl, rfl⟩ := Prod.mk.inj hanswered
  exact hhandle

/-- Whatever `send` returns, the descriptor is closed. -/
theorem run_handleApproachingClient (indeterminate : ℤ) (clientSocket : ℕ)
    (bytesSent : Text → ℤ) :
    (handleApproachingClient env library indeterminate clientSocket clientIpAddress
        (some receivedData) bytesSent).run process =
      ((answer env library clientIpAddress receivedData).run process).map fun answered ↦
        (some (answered.1, answered.1.serialize library indeterminate),
          answered.2.withOs (answered.2.world.os.close clientSocket)) := by
  simp only [handleApproachingClient, StateT.run_bind, ite_self]
  cases (answer env library clientIpAddress receivedData).run process <;> rfl

/-- A connection delivers a text, which is answered, or nothing; and its descriptor is closed. -/
theorem handleApproachingClient_cases {indeterminate : ℤ} {clientSocket : ℕ}
    {received : Option Text} {bytesSent : Text → ℤ} {process' : Process}
    {reply : Option (Response × Text)}
    (h : (handleApproachingClient env library indeterminate clientSocket clientIpAddress received
      bytesSent).run process = .ok (reply, process')) :
    (received = none ∧ reply = none ∧
      process' = process.withOs (process.world.os.close clientSocket)) ∨
    ∃ receivedData r answered, received = some receivedData ∧
      (answer env library clientIpAddress receivedData).run process = .ok (r, answered) ∧
      reply = some (r, r.serialize library indeterminate) ∧
      process' = answered.withOs (answered.world.os.close clientSocket) := by
  cases received with
  | none =>
      simp only [handleApproachingClient, StateT.run_bind] at h
      obtain ⟨rfl, rfl⟩ := Prod.mk.inj (Except.ok.inj h)
      exact Or.inl ⟨rfl, rfl, rfl⟩
  | some receivedData =>
      rw [run_handleApproachingClient] at h
      obtain ⟨answered, hanswer, hclosed⟩ := of_map_eq_ok h
      obtain ⟨rfl, rfl⟩ := Prod.mk.inj hclosed
      exact Or.inr ⟨receivedData, answered.1, answered.2, rfl, hanswer, rfl, rfl⟩

theorem run_acceptClient_of_none {indeterminate : ℤ} {received : Option Text}
    {bytesSent : Text → ℤ} (haccept : (process.world.os.acquire env).1 = none) :
    (acceptClient env library indeterminate clientIpAddress received bytesSent).run process =
      .ok (none, process.withOs (process.world.os.acquire env).2) := by
  simp [acceptClient, StateT.run_bind, haccept, Process.withOs]

theorem run_acceptClient_of_some {indeterminate : ℤ} {received : Option Text}
    {bytesSent : Text → ℤ} {clientSocket : ℕ}
    (haccept : (process.world.os.acquire env).1 = some clientSocket) :
    (acceptClient env library indeterminate clientIpAddress received bytesSent).run process =
      (handleApproachingClient env library indeterminate clientSocket clientIpAddress received
        bytesSent).run (process.withOs (process.world.os.acquire env).2) := by
  simp [acceptClient, StateT.run_bind, haccept, Process.withOs]

/-- A connection gets a descriptor and is handled, or is dropped. -/
theorem acceptClient_cases {indeterminate : ℤ} {received : Option Text} {bytesSent : Text → ℤ}
    {process' : Process} {reply : Option (Response × Text)}
    (h : (acceptClient env library indeterminate clientIpAddress received bytesSent).run process =
      .ok (reply, process')) :
    ((process.world.os.acquire env).1 = none ∧ reply = none ∧
      process' = process.withOs (process.world.os.acquire env).2) ∨
    ∃ clientSocket, (process.world.os.acquire env).1 = some clientSocket ∧
      ((received = none ∧ reply = none ∧
        process' = process.withOs ((process.world.os.acquire env).2.close clientSocket)) ∨
      ∃ receivedData r answered, received = some receivedData ∧
        (answer env library clientIpAddress receivedData).run
          (process.withOs (process.world.os.acquire env).2) = .ok (r, answered) ∧
        reply = some (r, r.serialize library indeterminate) ∧
        process' = answered.withOs (answered.world.os.close clientSocket)) := by
  cases haccept : (process.world.os.acquire env).1 with
  | none =>
      rw [run_acceptClient_of_none haccept, Except.ok.injEq, Prod.mk.injEq] at h
      exact Or.inl ⟨rfl, h.1.symm, h.2.symm⟩
  | some clientSocket =>
      rw [run_acceptClient_of_some haccept] at h
      exact Or.inr ⟨clientSocket, rfl, handleApproachingClient_cases h⟩

/-- A connection that is accepted and asks for `q` is answered by the handler of `q`. -/
theorem acceptClient_handled {indeterminate : ℤ} {bytesSent : Text → ℤ} {q : Request}
    {process' : Process} {reply : Option (Response × Text)} (hp : process.Sound)
    (hrequest : requestOf library clientIpAddress receivedData = .ok (some q))
    (haccept : (process.world.os.acquire env).1 ≠ none)
    (h : (acceptClient env library indeterminate clientIpAddress (some receivedData)
      bytesSent).run process = .ok (reply, process')) :
    ∃ r w os, (handle env q).run { process.world with os := (process.world.os.acquire env).2 } =
        .ok (r, w) ∧ reply = some (r, r.serialize library indeterminate) ∧
      process'.world = { w with os := os } ∧ process'.Sound := by
  rcases acceptClient_cases h with ⟨hnone, -⟩ | ⟨clientSocket, -, hhandled⟩
  · exact absurd hnone haccept
  · rcases hhandled with ⟨hnone, -⟩ | ⟨data, r, answered, hdata, hanswer, hreply, rfl⟩
    · cases hnone
    · obtain rfl := Option.some.inj hdata
      have hsound := (answer_inv (hp.withOs _) hanswer).1
      have hhandle := answer_of_request (hp.withOs _) hrequest hanswer
      exact ⟨_, _, _, hhandle, hreply, rfl, hsound.withOs _⟩

/-- A connection is answered between two changes to the descriptors. -/
theorem acceptClient_inv {indeterminate : ℤ} {received : Option Text} {bytesSent : Text → ℤ}
    {process' : Process} {reply : Option (Response × Text)}
    (h : (acceptClient env library indeterminate clientIpAddress received bytesSent).run process =
      .ok (reply, process')) :
    (∃ os, reply = none ∧ process' = process.withOs os) ∨
    ∃ os os' receivedData r answered, received = some receivedData ∧
      (answer env library clientIpAddress receivedData).run (process.withOs os) =
        .ok (r, answered) ∧
      reply = some (r, r.serialize library indeterminate) ∧ process' = answered.withOs os' := by
  rcases acceptClient_cases h with ⟨-, hreply, rfl⟩ | ⟨clientSocket, -, hhandled⟩
  · exact Or.inl ⟨_, hreply, rfl⟩
  · rcases hhandled with ⟨-, hreply, rfl⟩ | ⟨receivedData, r, answered, hdata, hanswer, hreply, rfl⟩
    · exact Or.inl ⟨_, hreply, rfl⟩
    · exact Or.inr ⟨_, _, receivedData, r, answered, hdata, hanswer, hreply, rfl⟩

end

end Server

namespace Process

variable {env : Environment} {library : JsonLibrary} {indeterminate topicTimeout : ℤ}
  {p p' : Process}

theorem sound_initial (topicTimeout : ℤ) : (initial topicTimeout).Sound :=
  ⟨Server.sound_initial topicTimeout, Dictionaries.sound_initial⟩

/-- A tick is the tick of the broker, and answers nobody. -/
theorem tick_inv {reply : Option (Response × Text)} (hp : p.Sound)
    (h : (system env library indeterminate topicTimeout).step p .tick = .ok (reply, p')) :
    ∃ w', reply = none ∧ p' = { p with world := w' } ∧
      (Server.checkTopicTimeouts env).run p.world = .ok ((), w') ∧
      w'.view = p.world.view.tick env ∧ w'.Pointers := by
  obtain ⟨w', hrun, hview, hw'⟩ := Server.run_checkTopicTimeouts env hp.world
  have hstep : (system env library indeterminate topicTimeout).step p .tick =
      .ok (none, { p with world := w' }) := by
    show ((Server.checkTopicTimeouts env).run p.world).map _ = _
    rw [hrun]
    rfl
  rw [hstep, Except.ok.injEq, Prod.mk.injEq] at h
  exact ⟨w', h.1.symm, h.2.symm, hrun, hview, hw'⟩

theorem Sound.step {o : Occurrence} {reply : Option (Response × Text)} (hp : p.Sound)
    (h : (system env library indeterminate topicTimeout).step p o = .ok (reply, p')) :
    p'.Sound := by
  cases o with
  | connection clientIpAddress received bytesSent =>
      rcases Server.acceptClient_inv h with
        ⟨os, -, rfl⟩ | ⟨os, os', receivedData, r, answered, -, hanswer, -, rfl⟩
      · exact hp.withOs os
      · exact (Server.answer_inv (hp.withOs os) hanswer).1.withOs os'
  | tick =>
      obtain ⟨w', -, rfl, -, hview, hw'⟩ := tick_inv hp h
      exact ⟨⟨hw', hview ▸ hp.world.inv.tick env⟩, hp.dictionaries⟩

theorem sound_of_reachable {guard : Process → Occurrence → Prop}
    (h : (system env library indeterminate topicTimeout).ReachableWhile guard p) : p.Sound :=
  h.invariant (sound_initial topicTimeout) fun _ _ _ _ hs _ hstep ↦ hs.step hstep

end Process

end PublisherSubscriber
