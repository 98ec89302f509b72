import PublisherSubscriber.Guarantees.Descriptors
import PublisherSubscriber.Server.ClientThreads
import PublisherSubscriber.Server.Observed

/-!
# The threads take turns

A connection may be decoded long before its handler gets the mutex, and answered
long after.  All of it might as well happen while its handler holds the mutex.
-/

namespace PublisherSubscriber

open PointerHeap Observation

theorem Os.acquire_eq_some {env : Environment} {os : Os} {d : ℕ}
    (h : (os.acquire env).1 = some d) : d = os.requested := by
  unfold Os.acquire at h
  split_ifs at h
  exact (Option.some.inj h).symm

namespace Server

variable {env : Environment}

theorem respects_respond (outcome : Except CppException (Option Request)) :
    Respects World.observed (respond env outcome) := by
  rcases outcome with e | ⟨_ | q⟩
  · exact .pure rejection
  · exact .pure Response.default
  · exact respects_handle q

theorem respond_inv {outcome : Except CppException (Option Request)} {w w' : World} {r : Response}
    (hw : w.Sound) (h : (respond env outcome).run w = .ok (r, w')) :
    w'.Sound ∧ Os.Acquired env 0 w.os w'.os := by
  rcases outcome with e | ⟨_ | q⟩
  · cases h
    exact ⟨hw, .refl env _⟩
  · cases h
    exact ⟨hw, .refl env _⟩
  · obtain ⟨hview, hsound⟩ := view_handle env hw h
    exact ⟨hsound, Broker.acquired_handle hview⟩

/-- The part of the answer that is given under the mutex. -/
theorem run_answer_respond (env : Environment) (library : JsonLibrary) {process : Process}
    (hd : process.dictionaries.Sound) (clientIpAddress receivedData : Text) :
    ∃ d', d'.Sound ∧ (answer env library clientIpAddress receivedData).run process =
      ((respond env (requestOf library clientIpAddress receivedData)).run process.world).map
        fun answered ↦ (answered.1, ⟨answered.2, d'⟩) := by
  obtain ⟨d', -, hd', hrun⟩ := run_answer env library clientIpAddress receivedData hd
  refine ⟨d', hd', hrun.trans ?_⟩
  rcases requestOf library clientIpAddress receivedData with e | ⟨_ | q⟩ <;> rfl

end Server

/-- Neither the decoder nor the handler has to come any more. -/
def Stage.Waits : Stage → Prop
  | accepted => True
  | decoded _ _ _ => True
  | answered _ => False

namespace ClientThreads

section

variable (env : Environment) (library : JsonLibrary) (indeterminate topicTimeout : ℤ)

/-- The turn that is taken in a step: that of a connection when its handler runs, or
when nothing was received. -/
def turn (threads : ClientThreads) : ThreadStep → Option Turn
  | .accept => some .accept
  | .receive clientSocket clientIpAddress received =>
      match threads.stage clientSocket, received with
      | some .accepted, none =>
          some (.handle clientSocket clientIpAddress none fun text ↦ text.length)
      | _, _ => none
  | .handle clientSocket =>
      match threads.stage clientSocket with
      | some (.decoded clientIpAddress receivedData _) =>
          some (.handle clientSocket clientIpAddress (some receivedData) fun text ↦ text.length)
      | _ => none
  | .send _ _ => none
  | .tick => some .tick

/-- The response was given in a turn of the descriptor. -/
def GivenIn (turns : List (Turn × Option (Response × Text))) (clientSocket : ℕ) (r : Response)
    (text : Text) : Prop :=
  ∃ clientIpAddress receivedData bytesSent,
    (.handle clientSocket clientIpAddress (some receivedData) bytesSent, some (r, text)) ∈ turns

theorem GivenIn.mono {turns turns' : List (Turn × Option (Response × Text))}
    {clientSocket : ℕ} {r : Response} {text : Text} (h : GivenIn turns clientSocket r text)
    (hturns : turns ⊆ turns') : GivenIn turns' clientSocket r text := by
  obtain ⟨clientIpAddress, receivedData, bytesSent, hmem⟩ := h
  exact ⟨clientIpAddress, receivedData, bytesSent, hturns hmem⟩

/-- The threads so far, and the turns they took. -/
structure Follows (sent : List (Option (ℕ × Response × Text)))
    (turns : List (Turn × Option (Response × Text))) (s : ClientThreads) (t : Threads) : Prop where
  observed : s.process.world.observed = t.process.world.observed
  decoder : s.process.dictionaries.Sound
  sound : t.process.Sound
  nodup : t.clientSockets.Nodup
  waiting : ∀ d, d ∈ t.clientSockets ↔ ∃ stage, s.stage d = some stage ∧ stage.Waits
  started : ∀ d, s.stage d ≠ none → d < t.process.world.os.requested
  outcome : ∀ d clientIpAddress receivedData outcome,
    s.stage d = some (.decoded clientIpAddress receivedData outcome) →
      outcome = Server.requestOf library clientIpAddress receivedData
  answered : ∀ d r, s.stage d = some (.answered r) →
    GivenIn turns d r (r.serialize library indeterminate)
  given : ∀ d r text, some (d, r, text) ∈ sent → GivenIn turns d r text
  once : (sent.filterMap (·.map Prod.fst)).Nodup
  ended : ∀ d r text, some (d, r, text) ∈ sent →
    s.stage d = none ∧ d < t.process.world.os.requested

end

section

variable {env : Environment} {library : JsonLibrary} {indeterminate topicTimeout : ℤ}
  {sent : List (Option (ℕ × Response × Text))} {turns : List (Turn × Option (Response × Text))}
  {s s' : ClientThreads} {t : Threads}

theorem follows_initial : Follows library indeterminate [] [] (initial env topicTimeout)
    (Threads.initial env topicTimeout) where
  observed := rfl
  decoder := Dictionaries.sound_initial
  sound := (Process.sound_initial topicTimeout).withOs _
  nodup := List.nodup_nil
  waiting d := ⟨fun hd ↦ absurd hd List.not_mem_nil, by rintro ⟨stage, ⟨⟩, -⟩⟩
  started d hd := absurd rfl hd
  outcome := by rintro d clientIpAddress receivedData outcome ⟨⟩
  answered := by rintro d r ⟨⟩
  given d r text hmem := absurd hmem List.not_mem_nil
  once := List.nodup_nil
  ended d r text hmem := absurd hmem List.not_mem_nil

/-- A step in which no stage changes. -/
theorem Follows.ofProcess (h : Follows library indeterminate sent turns s t) {P Q : Process}
    {turns' : List (Turn × Option (Response × Text))}
    (hobserved : P.world.observed = Q.world.observed) (hdecoder : P.dictionaries.Sound)
    (hsound : Q.Sound) (hrequested : t.process.world.os.requested ≤ Q.world.os.requested)
    (hturns : turns ⊆ turns') :
    Follows library indeterminate (none :: sent) turns' { s with process := P }
      { t with process := Q } where
  observed := hobserved
  decoder := hdecoder
  sound := hsound
  nodup := h.nodup
  waiting := h.waiting
  started d hd := (h.started d hd).trans_le hrequested
  outcome := h.outcome
  answered d r hd := (h.answered d r hd).mono hturns
  given d r text hmem := (h.given d r text (by simpa using hmem)).mono hturns
  once := by simpa using h.once
  ended d r text hmem :=
    (h.ended d r text (by simpa using hmem)).imp_right fun hd ↦ hd.trans_le hrequested

/-- A thread that has not ended has sent nothing. -/
theorem Follows.unsent (h : Follows library indeterminate sent turns s t) {clientSocket : ℕ}
    {stage : Stage} (hstage : s.stage clientSocket = some stage) (r : Response) (text : Text) :
    some (clientSocket, r, text) ∉ sent := fun hmem ↦ by
  have hended := (h.ended clientSocket r text hmem).1
  rw [hstage] at hended
  cases hended

/-- A step in which the stage of one thread changes. -/
theorem Follows.withStage (h : Follows library indeterminate sent turns s t) (clientSocket : ℕ)
    (stage : Option Stage) {clientSockets : List ℕ} (hnodup : clientSockets.Nodup)
    (hothers : ∀ d ≠ clientSocket, d ∈ clientSockets ↔ d ∈ t.clientSockets)
    (hwaits : clientSocket ∈ clientSockets ↔ ∃ x, stage = some x ∧ x.Waits)
    (hstarted : stage ≠ none → clientSocket < t.process.world.os.requested)
    (houtcome : ∀ clientIpAddress receivedData outcome,
      stage = some (.decoded clientIpAddress receivedData outcome) →
        outcome = Server.requestOf library clientIpAddress receivedData)
    (hanswered : ∀ r, stage = some (.answered r) →
      GivenIn turns clientSocket r (r.serialize library indeterminate))
    (hunsent : ∀ r text, some (clientSocket, r, text) ∉ sent) :
    Follows library indeterminate sent turns (s.withStage clientSocket stage)
      { t with clientSockets := clientSockets } where
  observed := h.observed
  decoder := h.decoder
  sound := h.sound
  nodup := hnodup
  waiting d := by
    by_cases hd : d = clientSocket
    · rw [hd, stage_withStage_self]
      exact hwaits
    · rw [stage_withStage_ne s hd]
      exact (hothers d hd).trans (h.waiting d)
  started d := by
    by_cases hd : d = clientSocket
    · rw [hd, stage_withStage_self]
      exact hstarted
    · rw [stage_withStage_ne s hd]
      exact h.started d
  outcome d := by
    by_cases hd : d = clientSocket
    · rw [hd, stage_withStage_self]
      exact houtcome
    · rw [stage_withStage_ne s hd]
      exact h.outcome d
  answered d := by
    by_cases hd : d = clientSocket
    · rw [hd, stage_withStage_self]
      exact hanswered
    · rw [stage_withStage_ne s hd]
      exact h.answered d
  given := h.given
  once := h.once
  ended d r text hmem := by
    have hd : d ≠ clientSocket := fun hsame ↦ hunsent r text (hsame ▸ hmem)
    rw [stage_withStage_ne s hd]
    exact h.ended d r text hmem

theorem Follows.waiting_of_stage (h : Follows library indeterminate sent turns s t)
    {clientSocket : ℕ} {stage : Stage} (hstage : s.stage clientSocket = some stage) :
    clientSocket ∈ t.clientSockets ↔ stage.Waits := by
  rw [h.waiting, hstage]
  simp

theorem Follows.accept (h : Follows library indeterminate sent turns s t)
    {o : Option (ℕ × Response × Text)}
    (hstep : s.step env library indeterminate .accept = .ok (o, s')) :
    ∃ p t', t.turn env library indeterminate .accept = .ok (p, t') ∧
      Follows library indeterminate (o :: sent) ((.accept, p) :: turns) s' t' := by
  obtain ⟨hgiven, hnext⟩ := World.acquire_of_observed env h.observed
  have hrequested := (Os.acquired_acquire env t.process.world.os).requested
  have hprocess := h.ofProcess (P := s.process.withOs (s.process.world.os.acquire env).2)
    (Q := t.process.withOs (t.process.world.os.acquire env).2)
    hnext h.decoder (h.sound.withOs _) (hrequested.ge.trans' (Nat.le_succ _))
    (List.subset_cons_self (.accept, none) turns)
  refine ⟨none, _, rfl, ?_⟩
  simp only [step] at hstep
  cases haccept : (s.process.world.os.acquire env).1 with
  | none =>
      simp only [haccept] at hstep
      obtain ⟨rfl, rfl⟩ := Prod.mk.inj (Except.ok.inj hstep)
      rw [← hgiven, haccept]
      exact hprocess
  | some clientSocket =>
      simp only [haccept] at hstep
      obtain ⟨rfl, rfl⟩ := Prod.mk.inj (Except.ok.inj hstep)
      rw [← hgiven, haccept]
      have hsocket : clientSocket = t.process.world.os.requested :=
        Os.acquire_eq_some (hgiven.symm.trans haccept)
      have hnew : clientSocket ∉ t.clientSockets := fun hmem ↦ by
        obtain ⟨stage, hstage, -⟩ := (h.waiting clientSocket).mp hmem
        have hstarted := h.started clientSocket (by simp [hstage])
        omega
      refine hprocess.withStage clientSocket _ (List.nodup_cons.mpr ⟨hnew, h.nodup⟩)
        (fun d hd ↦ ?_) ?_ (fun _ ↦ ?_) (by rintro _ _ _ ⟨⟩) (by rintro _ ⟨⟩) fun r text hmem ↦ ?_
      · simp [hd]
      · simp [Stage.Waits]
      · exact hsocket.trans_lt (hrequested.ge.trans_lt' (Nat.lt_succ_self _))
      · have hended := (h.ended clientSocket r text (by simpa using hmem)).2
        omega

/-- Nothing was received. -/
theorem Follows.drop (h : Follows library indeterminate sent turns s t) {clientSocket : ℕ}
    (hstage : s.stage clientSocket = some .accepted) (clientIpAddress : Text)
    (bytesSent : Text → ℤ) :
    ∃ t', t.turn env library indeterminate (.handle clientSocket clientIpAddress none bytesSent) =
        .ok (none, t') ∧
      Follows library indeterminate (none :: sent)
        ((.handle clientSocket clientIpAddress none bytesSent, none) :: turns)
        ({ s with process := s.process.withOs (s.process.world.os.close clientSocket) }.withStage
          clientSocket none) t' := by
  have hwaits : clientSocket ∈ t.clientSockets := (h.waiting_of_stage hstage).mpr trivial
  have hprocess := h.ofProcess
    (P := s.process.withOs (s.process.world.os.close clientSocket))
    (Q := t.process.withOs (t.process.world.os.close clientSocket))
    h.observed h.decoder (h.sound.withOs _) le_rfl
    (List.subset_cons_self (.handle clientSocket clientIpAddress none bytesSent, none) turns)
  refine ⟨_, by rw [Threads.turn, if_pos hwaits]; rfl, ?_⟩
  refine hprocess.withStage clientSocket _ (h.nodup.erase clientSocket)
    (fun d hd ↦ List.mem_erase_of_ne hd) ?_ (absurd rfl) (by rintro _ _ _ ⟨⟩) (by rintro _ ⟨⟩)
    (hprocess.unsent hstage)
  simp [h.nodup.mem_erase_iff]

/-- A text is decoded; this is not seen. -/
theorem Follows.decode (h : Follows library indeterminate sent turns s t) {clientSocket : ℕ}
    (hstage : s.stage clientSocket = some .accepted) (clientIpAddress receivedData : Text) :
    ∃ s', s.step env library indeterminate
        (.receive clientSocket clientIpAddress (some receivedData)) = .ok (none, s') ∧
      Follows library indeterminate (none :: sent) turns s' t := by
  have hwaits := (h.waiting_of_stage hstage).mpr trivial
  obtain ⟨d', hdecoded, hd'⟩ := Command.yields_deserialize h.decoder library receivedData
  have hprocess := h.ofProcess (P := { s.process with dictionaries := d' }) h.observed hd' h.sound
    le_rfl (List.Subset.refl turns)
  refine ⟨_, by simp only [step, hstage, hdecoded]; rfl, ?_⟩
  refine hprocess.withStage clientSocket _ h.nodup (fun d _ ↦ Iff.rfl) ?_ (fun _ ↦ ?_) ?_
    (by rintro _ ⟨⟩) (hprocess.unsent hstage)
  · exact iff_of_true hwaits ⟨_, rfl, trivial⟩
  · exact h.started clientSocket (by simp [hstage])
  · rintro _ _ _ ⟨⟩
    rfl

/-- The response was given before, so this is not seen either. -/
theorem Follows.send (h : Follows library indeterminate sent turns s t) {clientSocket : ℕ}
    {r : Response} (hstage : s.stage clientSocket = some (.answered r)) (bytesSent : Text → ℤ) :
    ∃ o s', s.step env library indeterminate (.send clientSocket bytesSent) = .ok (o, s') ∧
      Follows library indeterminate (o :: sent) turns s' t := by
  have hwaits : clientSocket ∉ t.clientSockets := (h.waiting_of_stage hstage).not.mpr id
  have hprocess := h.ofProcess
    (P := s.process.withOs (s.process.world.os.close clientSocket)) (Q := t.process)
    h.observed h.decoder h.sound le_rfl (List.Subset.refl turns)
  have hended := hprocess.withStage clientSocket none h.nodup
    (fun d _ ↦ Iff.rfl) (by simp [hwaits]) (absurd rfl) (by rintro _ _ _ ⟨⟩) (by rintro _ ⟨⟩)
    (hprocess.unsent hstage)
  refine ⟨_, _, by simp only [step, hstage, ite_self]; rfl,
    { hended with given := ?given, once := ?once, ended := ?ended }⟩
  case given =>
    intro d r' text hmem
    rcases List.mem_cons.mp hmem with hsame | hmem
    · obtain ⟨rfl, rfl, rfl⟩ := by simpa using hsame
      exact h.answered d r' hstage
    · exact h.given d r' text hmem
  case once =>
    refine List.nodup_cons.mpr ⟨fun hmem ↦ ?_, h.once⟩
    obtain ⟨reply, hreply, hsame⟩ := List.mem_filterMap.mp hmem
    obtain ⟨⟨d, r', text⟩, rfl, rfl⟩ := Option.map_eq_some_iff.mp hsame
    exact h.unsent hstage r' text hreply
  case ended =>
    intro d r' text hmem
    rcases List.mem_cons.mp hmem with hsame | hmem
    · obtain ⟨rfl, rfl, rfl⟩ := by simpa using hsame
      exact ⟨stage_withStage_self _, h.started d (by simp [hstage])⟩
    · exact hended.ended d r' text (List.mem_cons_of_mem _ hmem)

/-- What the turn of a descriptor comes to once its text has been decoded. -/
theorem Follows.turn_handle (h : Follows library indeterminate sent turns s t)
    (env : Environment) {clientSocket : ℕ} {clientIpAddress receivedData : Text}
    {outcome : Except CppException (Option Request)}
    (hstage : s.stage clientSocket = some (.decoded clientIpAddress receivedData outcome))
    (bytesSent : Text → ℤ) :
    ∃ d', d'.Sound ∧ t.turn env library indeterminate
        (.handle clientSocket clientIpAddress (some receivedData) bytesSent) =
      ((Server.respond env outcome).run t.process.world).map fun answered ↦
        (some (answered.1, answered.1.serialize library indeterminate),
          ⟨(⟨answered.2, d'⟩ : Process).withOs (answered.2.os.close clientSocket),
            t.clientSockets.erase clientSocket⟩) := by
  have hwaits : clientSocket ∈ t.clientSockets := (h.waiting_of_stage hstage).mpr trivial
  obtain ⟨d', hd', hanswer⟩ := Server.run_answer_respond env library h.sound.dictionaries
    clientIpAddress receivedData
  refine ⟨d', hd', ?_⟩
  rw [Threads.turn, if_pos hwaits, Server.run_handleApproachingClient, hanswer,
    h.outcome clientSocket clientIpAddress receivedData outcome hstage]
  cases (Server.respond env (Server.requestOf library clientIpAddress receivedData)).run
    t.process.world <;> rfl

theorem Follows.handle (h : Follows library indeterminate sent turns s t) {clientSocket : ℕ}
    {clientIpAddress receivedData : Text} {outcome : Except CppException (Option Request)}
    (hstage : s.stage clientSocket = some (.decoded clientIpAddress receivedData outcome))
    (bytesSent : Text → ℤ) {o : Option (ℕ × Response × Text)}
    (hstep : s.step env library indeterminate (.handle clientSocket) = .ok (o, s')) :
    ∃ p t', t.turn env library indeterminate
        (.handle clientSocket clientIpAddress (some receivedData) bytesSent) = .ok (p, t') ∧
      Follows library indeterminate (o :: sent)
        ((.handle clientSocket clientIpAddress (some receivedData) bytesSent, p) :: turns)
        s' t' := by
  simp only [step, hstage] at hstep
  obtain ⟨⟨r, w⟩, hrespond, hstep⟩ := of_map_eq_ok hstep
  obtain ⟨rfl, rfl⟩ := Prod.mk.inj hstep
  obtain ⟨w', hother, hobserved⟩ := (Server.respects_respond outcome).ok h.observed hrespond
  obtain ⟨d', hd', hturn⟩ := h.turn_handle env hstage bytesSent
  rw [hother] at hturn
  obtain ⟨hsound, hacquired⟩ := Server.respond_inv h.sound.world hother
  have hprocess := h.ofProcess (P := { s.process with world := w })
    (Q := (⟨w', d'⟩ : Process).withOs (w'.os.close clientSocket))
    hobserved h.decoder (Process.Sound.withOs ⟨hsound, hd'⟩ _) hacquired.requested.ge
    (List.subset_cons_self (.handle clientSocket clientIpAddress (some receivedData) bytesSent,
      some (r, r.serialize library indeterminate)) turns)
  refine ⟨_, _, hturn, hprocess.withStage clientSocket _ (h.nodup.erase clientSocket)
    (fun d hd ↦ List.mem_erase_of_ne hd) ?_ (fun _ ↦ ?_) (by rintro _ _ _ ⟨⟩) ?_
    (hprocess.unsent hstage)⟩
  · simp [h.nodup.mem_erase_iff, Stage.Waits]
  · exact (h.started clientSocket (by simp [hstage])).trans_le hacquired.requested.ge
  · rintro r' ⟨⟩
    exact ⟨clientIpAddress, receivedData, bytesSent, List.mem_cons_self⟩

theorem Follows.tick (h : Follows library indeterminate sent turns s t)
    {o : Option (ℕ × Response × Text)}
    (hstep : s.step env library indeterminate .tick = .ok (o, s')) :
    ∃ p t', t.turn env library indeterminate .tick = .ok (p, t') ∧
      Follows library indeterminate (o :: sent) ((.tick, p) :: turns) s' t' := by
  obtain ⟨⟨reply, ticked⟩, hticked, hstep⟩ := of_map_eq_ok hstep
  obtain ⟨rfl, rfl⟩ := Prod.mk.inj hstep
  obtain ⟨⟨u, w⟩, hcheck, hprocess⟩ := of_map_eq_ok hticked
  obtain ⟨rfl, rfl⟩ := Prod.mk.inj hprocess
  obtain ⟨w', hother, hobserved⟩ :=
    Server.respects_checkTopicTimeouts.ok h.observed hcheck
  have hturn : t.turn env library indeterminate .tick =
      .ok (none, { t with process := { t.process with world := w' } }) := by
    have hoccur : (Process.occur env library indeterminate .tick).run t.process =
        ((Server.checkTopicTimeouts env).run t.process.world).map fun ticked ↦
          (none, { t.process with world := ticked.2 }) := rfl
    rw [Threads.turn, hoccur, hother]
    rfl
  obtain ⟨hsound, -, hacquired⟩ := Threads.acquired_tick h.sound hturn
  refine ⟨none, _, hturn, h.ofProcess hobserved h.decoder hsound ?_ (List.subset_cons_self _ _)⟩
  rw [hacquired.requested]
  exact Nat.le_add_right _ _

/-- A step that its thread is not about to take, or that is not seen. -/
theorem Follows.unseen (h : Follows library indeterminate sent turns s t) {step : ThreadStep}
    (hturn : s.turn step = none) :
    ∃ o s', s.step env library indeterminate step = .ok (o, s') ∧
      Follows library indeterminate (o :: sent) turns s' t := by
  have hnothing : Follows library indeterminate (none :: sent) turns s t :=
    h.ofProcess h.observed h.decoder h.sound le_rfl (List.Subset.refl turns)
  cases step with
  | accept => cases hturn
  | tick => cases hturn
  | receive clientSocket clientIpAddress received =>
      rcases hstage : s.stage clientSocket with _ | ⟨_ | _ | _⟩
      · exact ⟨none, s, by simp only [ClientThreads.step, hstage], hnothing⟩
      · cases received with
        | none => simp [turn, hstage] at hturn
        | some receivedData =>
            exact ⟨none, h.decode hstage clientIpAddress receivedData⟩
      · exact ⟨none, s, by simp only [ClientThreads.step, hstage], hnothing⟩
      · exact ⟨none, s, by simp only [ClientThreads.step, hstage], hnothing⟩
  | handle clientSocket =>
      rcases hstage : s.stage clientSocket with _ | ⟨_ | _ | _⟩
      · exact ⟨none, s, by simp only [ClientThreads.step, hstage], hnothing⟩
      · exact ⟨none, s, by simp only [ClientThreads.step, hstage], hnothing⟩
      · simp [turn, hstage] at hturn
      · exact ⟨none, s, by simp only [ClientThreads.step, hstage], hnothing⟩
  | send clientSocket bytesSent =>
      rcases hstage : s.stage clientSocket with _ | ⟨_ | _ | _⟩
      · exact ⟨none, s, by simp only [ClientThreads.step, hstage], hnothing⟩
      · exact ⟨none, s, by simp only [ClientThreads.step, hstage], hnothing⟩
      · exact ⟨none, s, by simp only [ClientThreads.step, hstage], hnothing⟩
      · exact h.send hstage bytesSent

/-- Where a turn is taken, it is one of these. -/
theorem turn_eq_some {step : ThreadStep} {k : Turn} (h : s.turn step = some k) :
    (step = .accept ∧ k = .accept) ∨ (step = .tick ∧ k = .tick) ∨
      (∃ clientSocket clientIpAddress, s.stage clientSocket = some .accepted ∧
        step = .receive clientSocket clientIpAddress none ∧
        k = .handle clientSocket clientIpAddress none fun text ↦ text.length) ∨
      ∃ clientSocket clientIpAddress receivedData outcome,
        s.stage clientSocket = some (.decoded clientIpAddress receivedData outcome) ∧
        step = .handle clientSocket ∧
        k = .handle clientSocket clientIpAddress (some receivedData) fun text ↦ text.length := by
  cases step with
  | accept => exact Or.inl ⟨rfl, (Option.some.inj h).symm⟩
  | tick => exact Or.inr (Or.inl ⟨rfl, (Option.some.inj h).symm⟩)
  | send clientSocket bytesSent => cases h
  | receive clientSocket clientIpAddress received =>
      rcases hstage : s.stage clientSocket with _ | ⟨_ | _ | _⟩ <;> simp only [turn, hstage] at h
      · cases h
      · cases received with
        | none => exact Or.inr (Or.inr (Or.inl
            ⟨clientSocket, clientIpAddress, hstage, rfl, (Option.some.inj h).symm⟩))
        | some receivedData => cases h
      · cases h
      · cases h
  | handle clientSocket =>
      rcases hstage : s.stage clientSocket with
        _ | ⟨_ | ⟨clientIpAddress, receivedData, outcome⟩ | _⟩ <;> simp only [turn, hstage] at h
      · cases h
      · cases h
      · exact Or.inr (Or.inr (Or.inr
          ⟨clientSocket, clientIpAddress, receivedData, outcome, hstage, rfl,
            (Option.some.inj h).symm⟩))
      · cases h

theorem Follows.seen (h : Follows library indeterminate sent turns s t) {step : ThreadStep}
    {k : Turn} (hturn : s.turn step = some k) {o : Option (ℕ × Response × Text)}
    (hstep : s.step env library indeterminate step = .ok (o, s')) :
    ∃ p t', t.turn env library indeterminate k = .ok (p, t') ∧
      Follows library indeterminate (o :: sent) ((k, p) :: turns) s' t' := by
  rcases turn_eq_some hturn with ⟨rfl, rfl⟩ | ⟨rfl, rfl⟩ |
    ⟨clientSocket, clientIpAddress, hstage, rfl, rfl⟩ |
    ⟨clientSocket, clientIpAddress, receivedData, outcome, hstage, rfl, rfl⟩
  · exact h.accept hstep
  · exact h.tick hstep
  · simp only [step, hstage] at hstep
    obtain ⟨rfl, rfl⟩ := Prod.mk.inj (Except.ok.inj hstep)
    exact ⟨none, h.drop hstage clientIpAddress _⟩
  · exact h.handle hstage _ hstep

/-- What fails, fails in the turn as well. -/
theorem Follows.fails (h : Follows library indeterminate sent turns s t) {step : ThreadStep}
    {k : Turn} (hturn : s.turn step = some k) {e : Fault}
    (hstep : s.step env library indeterminate step = .error e) :
    t.turn env library indeterminate k = .error e := by
  rcases turn_eq_some hturn with ⟨rfl, rfl⟩ | ⟨rfl, rfl⟩ |
    ⟨clientSocket, clientIpAddress, hstage, rfl, rfl⟩ |
    ⟨clientSocket, clientIpAddress, receivedData, outcome, hstage, rfl, rfl⟩
  · simp only [ClientThreads.step] at hstep
    cases haccept : (s.process.world.os.acquire env).1 <;> simp [haccept] at hstep
  · have hcheck : (Server.checkTopicTimeouts env).run s.process.world = .error e :=
      of_map_eq_error (of_map_eq_error hstep)
    have hother := Server.respects_checkTopicTimeouts.error h.observed hcheck
    have hoccur : (Process.occur env library indeterminate .tick).run t.process =
        ((Server.checkTopicTimeouts env).run t.process.world).map fun ticked ↦
          (none, { t.process with world := ticked.2 }) := rfl
    rw [Threads.turn, hoccur, hother]
    rfl
  · simp only [ClientThreads.step, hstage] at hstep
    cases hstep
  · simp only [ClientThreads.step, hstage] at hstep
    have hrespond := of_map_eq_error hstep
    have hother := (Server.respects_respond outcome).error h.observed hrespond
    obtain ⟨d', -, hhandled⟩ := h.turn_handle env hstage fun text ↦ text.length
    rw [hhandled, hother]
    rfl

end

section

variable (env : Environment) (library : JsonLibrary) (indeterminate topicTimeout : ℤ)

def linearization : Transition.System.Linearization
    (system env library indeterminate topicTimeout)
    (Threads.system env library indeterminate topicTimeout) where
  input := turn
  Related := Follows library indeterminate
  related_start := follows_initial
  step_none _ _ _ _ _ h hturn := h.unseen hturn
  step_ok _ _ _ _ _ _ _ _ h hturn hstep := h.seen hturn hstep
  step_error _ _ _ _ _ _ _ h hturn hstep := h.fails hturn hstep

/-- The turns that are taken in a run, in the order of their steps. -/
def turns (steps : List ThreadStep) : List Turn :=
  (linearization env library indeterminate topicTimeout).inputs (initial env topicTimeout) steps

end

end ClientThreads

/-- However the threads interleave, the state is that of connections which are
handled one after the other, each while it held the mutex.  A connection is sent
at most one response, which is the one given there.  If a thread fails, so does
its turn. -/
theorem threads_take_turns (env : Environment) (library : JsonLibrary)
    (indeterminate topicTimeout : ℤ) (steps : List ThreadStep) :
    let threads := ClientThreads.system env library indeterminate topicTimeout
    let server := Threads.system env library indeterminate topicTimeout
    let turns := ClientThreads.turns env library indeterminate topicTimeout steps
    (∀ sent s, threads.run threads.start steps = .ok (sent, s) →
      ∃ replies t, server.run server.start turns = .ok (replies, t) ∧
        s.process.world.observed = t.process.world.observed ∧
        (sent.filterMap (·.map Prod.fst)).Nodup ∧
        ∀ clientSocket r text, some (clientSocket, r, text) ∈ sent →
          ClientThreads.GivenIn (turns.zip replies) clientSocket r text) ∧
    ∀ e, threads.run threads.start steps = .error e →
      server.run server.start turns = .error e := by
  intro threads server turns
  let L := ClientThreads.linearization env library indeterminate topicTimeout
  constructor
  · intro sent s hrun
    obtain ⟨replies, t, hturns, hfollows⟩ := L.run_ok L.related_start hrun
    have honce := hfollows.once
    rw [List.append_nil, List.filterMap_reverse, List.nodup_reverse] at honce
    refine ⟨replies, t, hturns, hfollows.observed, honce, fun clientSocket r text hmem ↦ ?_⟩
    have hgiven := hfollows.given clientSocket r text (by simpa using hmem)
    rw [List.append_nil] at hgiven
    exact hgiven.mono (List.reverse_subset.mpr (List.Subset.refl _))
  · intro e hrun
    exact L.run_error L.related_start hrun

end PublisherSubscriber
