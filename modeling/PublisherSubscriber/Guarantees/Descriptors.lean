import PublisherSubscriber.Broker.Service
import PublisherSubscriber.Broker.Sockets
import PublisherSubscriber.Client.Requests
import PublisherSubscriber.Server.Threads

/-!
# Descriptors that are closed

The descriptor of a connection is closed on every path.  The one that
`SendMessage` gets for a datagram is not.
-/

namespace PublisherSubscriber

namespace World

/-- The listening socket and the connections in progress are open and nothing
else; every other descriptor that was obtained was closed once. -/
structure OnlyOpen (env : Environment) (clientSockets : List ℕ) (w : World) : Prop where
  descriptors : w.os.descriptors = clientSockets ++ [0]
  nodup : w.os.closed.Nodup
  closed : ∀ d, d ∈ w.os.closed ↔
    d ∉ clientSockets ∧ d ≠ 0 ∧ d < w.os.requested ∧ env.grants d = true

/-- With no connection in progress. -/
abbrev OnlyListening (env : Environment) (w : World) : Prop := w.OnlyOpen env []

/-- The calls of `SendMessage` in the next tick: one for each subscriber of a
topic that is due and has a message. -/
def callsDue (env : Environment) (w : World) : ℕ :=
  env.callsFrom w.os.readings (w.topics.map fun p ↦ ((w.topicHeap.deref p).timeoutTimestamp,
    if (w.topicHeap.deref p).message = [] then 0
    else (w.topicHeap.deref p).subscriberList.length))

theorem map_calls_view (env : Environment) (w : World) :
    env.callsFrom w.view.os.readings (w.view.topics.map TopicView.calls) = w.callsDue env := by
  simp only [callsDue, view, List.map_map]
  apply congrArg (env.callsFrom w.os.readings)
  apply List.map_congr_left
  intro p hp
  simp [viewTopic, TopicView.calls]

end World

/-- A tick sends no datagram: none of its calls would be given a socket. -/
def Threads.SendsNothing (env : Environment) (threads : Threads) : Turn → Prop
  | .tick => ∀ k < threads.process.world.callsDue env,
      env.grants (threads.process.world.os.requested + k) = false
  | .accept | .handle _ _ _ _ => True

instance (env : Environment) (threads : Threads) : DecidablePred (threads.SendsNothing env)
  | .tick => inferInstanceAs (Decidable (∀ k < threads.process.world.callsDue env,
      env.grants (threads.process.world.os.requested + k) = false))
  | .accept | .handle _ _ _ _ => isTrue trivial

namespace World

/-- `OnlyOpen` with what a turn needs of the connections in progress. -/
structure Balanced (env : Environment) (clientSockets : List ℕ) (w : World) : Prop
    extends w.OnlyOpen env clientSockets where
  positive : 0 < w.os.requested
  clientSockets_nodup : clientSockets.Nodup
  obtained : ∀ d ∈ clientSockets, d ≠ 0 ∧ d < w.os.requested ∧ env.grants d = true

variable {env : Environment} {clientSockets : List ℕ} {w w' : World}

theorem Balanced.acquired_none {count : ℕ} (h : w.Balanced env clientSockets)
    (hacquired : Os.Acquired env count w.os w'.os)
    (hnone : Os.granted env w.os.requested count = []) : w'.Balanced env clientSockets where
  descriptors := by rw [hacquired.descriptors, hnone, List.nil_append, h.descriptors]
  nodup := hacquired.closed ▸ h.nodup
  closed d := by
    have hnot : ¬ (w.os.requested ≤ d ∧ d < w.os.requested + count ∧ env.grants d = true) := by
      rw [← Os.mem_granted, hnone]
      exact List.not_mem_nil
    rw [hacquired.closed, hacquired.requested, h.closed]
    constructor
    · rintro ⟨hclient, hlistening, hlt, hgrants⟩
      exact ⟨hclient, hlistening, by omega, hgrants⟩
    · rintro ⟨hclient, hlistening, hlt, hgrants⟩
      refine ⟨hclient, hlistening, ?_, hgrants⟩
      by_contra hge
      exact hnot ⟨by omega, hlt, hgrants⟩
  positive := by
    have hpositive := h.positive
    rw [hacquired.requested]
    omega
  clientSockets_nodup := h.clientSockets_nodup
  obtained d hd := by
    obtain ⟨hlistening, hlt, hgrants⟩ := h.obtained d hd
    rw [hacquired.requested]
    exact ⟨hlistening, by omega, hgrants⟩

theorem Balanced.accept (h : w.Balanced env clientSockets)
    (hacquired : Os.Acquired env 1 w.os w'.os) (hgrants : env.grants w.os.requested = true) :
    w'.Balanced env (w.os.requested :: clientSockets) := by
  have hpositive := h.positive
  have hnew : w.os.requested ∉ clientSockets := by
    intro hmem
    exact absurd (h.obtained _ hmem).2.1 (lt_irrefl _)
  refine ⟨⟨?descriptors, ?nodup, ?closed⟩, ?positive, ?sockets, ?obtained⟩
  case descriptors =>
    rw [hacquired.descriptors, Os.granted_one, if_pos hgrants, h.descriptors]
    rfl
  case nodup => exact hacquired.closed ▸ h.nodup
  case closed =>
    intro d
    rw [hacquired.closed, hacquired.requested, h.closed, List.mem_cons]
    constructor
    · rintro ⟨hclient, hlistening, hlt, hd⟩
      refine ⟨?_, hlistening, by omega, hd⟩
      rintro (rfl | hmem)
      · exact lt_irrefl _ hlt
      · exact hclient hmem
    · rintro ⟨hclient, hlistening, hlt, hd⟩
      obtain ⟨hne, hclient⟩ := not_or.mp hclient
      exact ⟨hclient, hlistening, by omega, hd⟩
  case positive =>
    rw [hacquired.requested]
    omega
  case sockets => exact List.nodup_cons.mpr ⟨hnew, h.clientSockets_nodup⟩
  case obtained =>
    intro d hd
    rw [hacquired.requested]
    rcases List.mem_cons.mp hd with rfl | hd
    · exact ⟨by omega, by omega, hgrants⟩
    · obtain ⟨hlistening, hlt, hgranted⟩ := h.obtained d hd
      exact ⟨hlistening, by omega, hgranted⟩

/-- The descriptor was open until now, so this is the only time it is closed. -/
theorem Balanced.close {clientSocket : ℕ} (h : w.Balanced env clientSockets)
    (hsocket : clientSocket ∈ clientSockets) (hos : w'.os = w.os.close clientSocket) :
    w'.Balanced env (clientSockets.erase clientSocket) := by
  have hnodup := h.clientSockets_nodup
  refine ⟨⟨?descriptors, ?nodup, ?closed⟩, ?positive, ?sockets, ?obtained⟩
  case descriptors =>
    rw [hos]
    show w.os.descriptors.erase clientSocket = _
    rw [h.descriptors, List.erase_append_left _ hsocket]
  case nodup =>
    rw [hos]
    apply List.nodup_cons.mpr
    refine ⟨?_, h.nodup⟩
    intro hclosed
    exact ((h.closed _).mp hclosed).1 hsocket
  case closed =>
    intro d
    rw [hos, hnodup.mem_erase_iff]
    show d ∈ clientSocket :: w.os.closed ↔ _
    rw [List.mem_cons, h.closed]
    constructor
    · rintro (rfl | ⟨hclient, hobtained⟩)
      · exact ⟨fun hmem ↦ hmem.1 rfl, h.obtained d hsocket⟩
      · exact ⟨fun hmem ↦ hclient hmem.2, hobtained⟩
    · rintro ⟨hclient, hobtained⟩
      by_cases hd : d = clientSocket
      · exact Or.inl hd
      · exact Or.inr ⟨fun hmem ↦ hclient ⟨hd, hmem⟩, hobtained⟩
  case positive =>
    rw [hos]
    exact h.positive
  case sockets => exact hnodup.erase _
  case obtained =>
    intro d hd
    rw [hos]
    exact h.obtained d (List.mem_of_mem_erase hd)

end World

namespace Threads

variable {env : Environment} {library : JsonLibrary} {indeterminate topicTimeout : ℤ}
  {p p' : Threads} {reply : Option (Response × Text)}

/-- A connection that is accepted is a turn of `startServer` and one of its thread. -/
theorem run_connection {threads : Threads} {clientSocket : ℕ} {clientIpAddress : Text}
    {received : Option Text} {bytesSent : Text → ℤ}
    (haccept : (threads.process.world.os.acquire env).1 = some clientSocket) :
    (system env library indeterminate topicTimeout).run threads
        [.accept, .handle clientSocket clientIpAddress received bytesSent] =
      ((Process.system env library indeterminate topicTimeout).step threads.process
        (.connection clientIpAddress received bytesSent)).map fun served ↦
          ([none, served.1], { threads with process := served.2 }) := by
  have hconnection : (Process.system env library indeterminate topicTimeout).step threads.process
      (.connection clientIpAddress received bytesSent) =
        (Server.handleApproachingClient env library indeterminate clientSocket clientIpAddress
          received bytesSent).run
            (threads.process.withOs (threads.process.world.os.acquire env).2) :=
    Server.run_acceptClient_of_some haccept
  rw [hconnection]
  have haccepted : threads.turn env library indeterminate .accept =
      .ok (none, ⟨threads.process.withOs (threads.process.world.os.acquire env).2,
        clientSocket :: threads.clientSockets⟩) := by
    simp only [turn, haccept]
    rfl
  have hserved : turn env library indeterminate
      ⟨threads.process.withOs (threads.process.world.os.acquire env).2,
        clientSocket :: threads.clientSockets⟩
      (.handle clientSocket clientIpAddress received bytesSent) =
        ((Server.handleApproachingClient env library indeterminate clientSocket clientIpAddress
          received bytesSent).run
            (threads.process.withOs (threads.process.world.os.acquire env).2)).map fun handled ↦
              (handled.1, ⟨handled.2, threads.clientSockets⟩) := by
    simp [turn]
  simp only [Transition.System.run, system, haccepted, hserved]
  cases (Server.handleApproachingClient env library indeterminate clientSocket clientIpAddress
      received bytesSent).run
        (threads.process.withOs (threads.process.world.os.acquire env).2) <;> rfl

theorem balanced_initial (hlisten : env.grants 0 = true) :
    (initial env topicTimeout).process.world.Balanced env [] := by
  have hacquire : (({} : Os).acquire env).2 = { requested := 1, descriptors := [0] } := by
    rw [Os.acquire, if_pos hlisten]
  have hos : (initial env topicTimeout).process.world.os =
      { requested := 1, descriptors := [0] } := hacquire
  refine ⟨⟨?descriptors, ?nodup, ?closed⟩, ?positive, ?sockets, ?obtained⟩
  case descriptors => rw [hos]; rfl
  case nodup => rw [hos]; exact List.nodup_nil
  case closed =>
    intro d
    rw [hos]
    constructor
    · intro hd
      exact absurd hd List.not_mem_nil
    · rintro ⟨-, hlistening, hlt, -⟩
      exact absurd (Nat.lt_one_iff.mp hlt) hlistening
  case positive => rw [hos]; exact Nat.one_pos
  case sockets => exact List.nodup_nil
  case obtained => exact fun d hd ↦ absurd hd List.not_mem_nil

/-- The invariant of a run that sends nothing. -/
structure Inv (env : Environment) (p : Threads) : Prop where
  sound : p.process.Sound
  balanced : p.process.world.Balanced env p.clientSockets

theorem Inv.accept (h : p.Inv env)
    (hstep : p.turn env library indeterminate .accept = .ok (reply, p')) : p'.Inv env := by
  obtain ⟨-, rfl⟩ := Prod.mk.inj (Except.ok.inj hstep)
  have hacquired := Os.acquired_acquire env p.process.world.os
  refine ⟨h.sound.withOs _, ?_⟩
  by_cases hgrants : env.grants p.process.world.os.requested
  · have hsocket : (p.process.world.os.acquire env).1 = some p.process.world.os.requested := by
      rw [Os.acquire, if_pos hgrants]
    show World.Balanced env ((p.process.world.os.acquire env).1.toList ++ p.clientSockets) _
    rw [hsocket]
    exact h.balanced.accept hacquired hgrants
  · have hsocket : (p.process.world.os.acquire env).1 = none := by
      rw [Os.acquire, if_neg hgrants]
    show World.Balanced env ((p.process.world.os.acquire env).1.toList ++ p.clientSockets) _
    rw [hsocket]
    apply h.balanced.acquired_none hacquired
    rw [Os.granted_one, if_neg hgrants]

/-- An answer reads the clock only. -/
theorem acquired_answer {process process' : Process} {clientIpAddress receivedData : Text}
    {r : Response} (hp : process.Sound)
    (h : (Server.answer env library clientIpAddress receivedData).run process =
      .ok (r, process')) : Os.Acquired env 0 process.world.os process'.world.os := by
  rcases (Server.answer_inv hp h).2 with hworld | ⟨q, -, hhandle⟩
  · rw [hworld]
    exact .refl env _
  · exact Broker.acquired_handle (Server.view_handle env hp.world hhandle).1

theorem Inv.handle (h : p.Inv env) {clientSocket : ℕ} {clientIpAddress : Text}
    {received : Option Text} {bytesSent : Text → ℤ}
    (hstep : p.turn env library indeterminate
      (.handle clientSocket clientIpAddress received bytesSent) = .ok (reply, p')) :
    p'.Inv env := by
  simp only [turn] at hstep
  split_ifs at hstep with hsocket
  · obtain ⟨handled, hhandled, hreply⟩ := of_map_eq_ok hstep
    obtain ⟨-, rfl⟩ := Prod.mk.inj hreply
    rcases Server.handleApproachingClient_cases hhandled with
      ⟨-, -, hclosed⟩ | ⟨receivedData, r, answered, -, hanswer, -, hclosed⟩
    · refine ⟨hclosed ▸ h.sound.withOs _, ?_⟩
      apply h.balanced.close hsocket
      rw [hclosed]
      rfl
    · have hanswered : answered.world.Balanced env p.clientSockets :=
        h.balanced.acquired_none (acquired_answer h.sound hanswer) (Os.granted_zero env _)
      refine ⟨hclosed ▸ (Server.answer_inv h.sound hanswer).1.withOs _, ?_⟩
      apply hanswered.close hsocket
      rw [hclosed]
      rfl
  · obtain ⟨-, rfl⟩ := Prod.mk.inj (Except.ok.inj hstep)
    exact h

theorem acquired_tick (hp : p.process.Sound)
    (hstep : p.turn env library indeterminate .tick = .ok (reply, p')) :
    p'.process.Sound ∧ p'.clientSockets = p.clientSockets ∧
      Os.Acquired env (p.process.world.callsDue env) p.process.world.os p'.process.world.os := by
  obtain ⟨ticked, hticked, hreply⟩ := of_map_eq_ok hstep
  obtain ⟨-, rfl⟩ := Prod.mk.inj hreply
  have hprocess : (Process.system env library indeterminate 0).step p.process .tick =
      .ok (ticked.1, ticked.2) := hticked
  obtain ⟨w', -, hworld, -, hview, -⟩ := Process.tick_inv hp hprocess
  have hacquired := hp.world.inv.acquired_tick env
  rw [World.map_calls_view, ← hview] at hacquired
  refine ⟨hp.step hprocess, rfl, ?_⟩
  rw [hworld]
  exact hacquired

theorem granted_eq_nil_iff (env : Environment) (first count : ℕ) :
    Os.granted env first count = [] ↔ ∀ k < count, env.grants (first + k) = false := by
  rw [List.eq_nil_iff_forall_not_mem]
  simp only [Os.mem_granted, not_and, Bool.not_eq_true]
  constructor
  · intro hnone k hk
    exact hnone (first + k) (by omega) (by omega)
  · intro hnone d hlower hupper
    obtain ⟨k, rfl⟩ := Nat.exists_eq_add_of_le hlower
    exact hnone k (by omega)

/-- A turn keeps the invariant, except for a tick that sends something. -/
theorem Inv.turn_iff (h : p.Inv env) {t : Turn}
    (hstep : p.turn env library indeterminate t = .ok (reply, p')) :
    (p.SendsNothing env t → p'.Inv env) ∧
      (p'.process.world.OnlyOpen env p'.clientSockets → p.SendsNothing env t) := by
  cases t with
  | accept => exact ⟨fun _ ↦ h.accept hstep, fun _ ↦ trivial⟩
  | handle clientSocket clientIpAddress received bytesSent =>
      exact ⟨fun _ ↦ h.handle hstep, fun _ ↦ trivial⟩
  | tick =>
      obtain ⟨hsound, hsockets, hacquired⟩ := acquired_tick h.sound hstep
      constructor
      · intro hnothing
        refine ⟨hsound, ?_⟩
        rw [hsockets]
        exact h.balanced.acquired_none hacquired ((granted_eq_nil_iff env _ _).mpr hnothing)
      · intro honly
        apply (granted_eq_nil_iff env _ _).mp
        have hdescriptors := honly.descriptors
        rw [hacquired.descriptors, h.balanced.descriptors, hsockets] at hdescriptors
        simpa using hdescriptors

end Threads

/-- While no tick sends a datagram, the listening socket and the connections in
progress are the only open descriptors and every other one was closed once; the
first datagram leaves its socket open. -/
theorem only_listening_while_nothing_is_sent {env : Environment} (hlisten : env.grants 0 = true)
    (library : JsonLibrary) (indeterminate topicTimeout : ℤ) {p : Threads}
    (hp : (Threads.system env library indeterminate topicTimeout).ReachableWhile
      (fun p t ↦ p.SendsNothing env t) p) :
    p.process.world.OnlyOpen env p.clientSockets ∧
      (p.clientSockets = [] → p.process.world.OnlyListening env) ∧
      ∀ t reply p', (Threads.system env library indeterminate topicTimeout).step p t =
        .ok (reply, p') →
          (p'.process.world.OnlyOpen env p'.clientSockets ↔ p.SendsNothing env t) := by
  have hinv : p.Inv env := by
    refine hp.invariant (I := Threads.Inv env)
      ⟨(Process.sound_initial topicTimeout).withOs _, Threads.balanced_initial hlisten⟩ ?_
    intro p p' t reply h hnothing hstep
    exact (h.turn_iff hstep).1 hnothing
  refine ⟨hinv.balanced.toOnlyOpen, ?_, ?_⟩
  · intro hquiet
    have honly := hinv.balanced.toOnlyOpen
    rwa [hquiet] at honly
  · intro t reply p' hstep
    obtain ⟨hkept, hexact⟩ := hinv.turn_iff hstep
    exact ⟨hexact, fun hnothing ↦ (hkept hnothing).balanced.toOnlyOpen⟩

/-- Two connections overlap, one of them cannot be read, and the tick finds no message. -/
theorem only_listening_without_message :
    let request := ((ClientOperation.subscribeTopic (ascii "news")).sent 7001).toJson
    let system := Threads.system .steady (.ofValues [request]) 7 10
    let p := system.final [.accept, .accept,
      .handle 1 (ascii "10.0.0.1") (some request.compact) fun text ↦ text.length, .tick,
      .handle 2 (ascii "10.0.0.2") none fun text ↦ text.length]
    p.process.world.os.requested = 3 ∧ p.process.world.OnlyListening .steady := by
  intro request system p
  have hp : system.ReachableWhile (fun p t ↦ p.SendsNothing .steady t) p := by
    apply Transition.System.reachableWhile_final
    decide +kernel
  obtain ⟨-, hquiet, -⟩ := only_listening_while_nothing_is_sent rfl _ _ _ hp
  exact ⟨by decide +kernel, hquiet (by decide +kernel)⟩

/-- One datagram was sent, and its socket is open when all threads have ended. -/
theorem datagram_socket_stays_open :
    let subscribe := ((ClientOperation.subscribeTopic (ascii "news")).sent 7001).toJson
    let publish := ((ClientOperation.publishTopic (ascii "news") (ascii "hello")).sent 7001).toJson
    let system := Threads.system .steady (.ofValues [subscribe, publish]) 7 1
    let p := system.final [
      .accept, .handle 1 (ascii "10.0.0.1") (some subscribe.compact) fun text ↦ text.length,
      .accept, .handle 2 (ascii "10.0.0.1") (some publish.compact) fun text ↦ text.length, .tick]
    system.Reachable p ∧ p.clientSockets = [] ∧ p.process.world.os.descriptors = [3, 0] ∧
      p.process.world.os.closed = [2, 1] ∧ ¬ p.process.world.OnlyListening .steady := by
  intro subscribe publish system p
  have hdescriptors : p.process.world.os.descriptors = [3, 0] := by decide +kernel
  refine ⟨Transition.System.reachable_final system _, by decide +kernel, hdescriptors,
    by decide +kernel, ?_⟩
  intro honly
  have honlyDescriptors := honly.descriptors
  rw [hdescriptors] at honlyDescriptors
  cases honlyDescriptors

end PublisherSubscriber
