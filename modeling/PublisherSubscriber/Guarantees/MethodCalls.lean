import PublisherSubscriber.Guarantees.Safety
import PublisherSubscriber.Guarantees.Transmission

/-!
# What a method call comes to

A request can be kept from leaving, wait for a descriptor, be cut off or be
handled, and its reply can be shown or be too long.  Nothing else happens when a
client calls a method, except that the server may not survive an unsubscribe.
-/

namespace PublisherSubscriber

open PointerHeap OurReader

/-! ## The server -/

namespace Process

variable {env : Environment} {library : JsonLibrary} {p : Process} {ipAddress text : Text}
  (indeterminate topicTimeout : ℤ) (bytesSent : Text → ℤ)

theorem step_dropped {received : Option Text} (haccept : (p.world.os.acquire env).1 = none) :
    (system env library indeterminate topicTimeout).step p
        (.connection ipAddress received bytesSent) =
      .ok (none, p.withOs (p.world.os.acquire env).2) :=
  Server.run_acceptClient_of_none haccept

section

variable {clientSocket : ℕ} (hp : p.Sound)
  (haccept : (p.world.os.acquire env).1 = some clientSocket)

include hp haccept

/-- The descriptors apart, a text that asks for nothing changes the tables only. -/
theorem step_rejected {e : CppException}
    (hrequest : Server.requestOf library ipAddress text = .error e) :
    ∃ d, (system env library indeterminate topicTimeout).step p
        (.connection ipAddress (some text) bytesSent) =
      .ok (some (Server.rejection, Server.rejection.serialize library indeterminate),
        ⟨{ p.world with os := (p.world.os.acquire env).2.close clientSocket }, d⟩) := by
  have hstart := hp.withOs (p.world.os.acquire env).2
  obtain ⟨d, -, -, hanswer⟩ := Server.run_answer env library ipAddress text hstart.dictionaries
  rw [hrequest] at hanswer
  refine ⟨d, (Server.run_acceptClient_of_some haccept).trans ?_⟩
  rw [Server.run_handleApproachingClient, hanswer]
  rfl

/-- A request is handled while the descriptor of its connection is open. -/
theorem step_request {q : Request}
    (hrequest : Server.requestOf library ipAddress text = .ok (some q)) :
    ∃ d, (system env library indeterminate topicTimeout).step p
        (.connection ipAddress (some text) bytesSent) =
      ((Server.handle env q).run { p.world with os := (p.world.os.acquire env).2 }).map
        fun handled ↦ (some (handled.1, handled.1.serialize library indeterminate),
          ⟨{ handled.2 with os := handled.2.os.close clientSocket }, d⟩) := by
  have hstart := hp.withOs (p.world.os.acquire env).2
  obtain ⟨d, -, -, hanswer⟩ := Server.run_answer env library ipAddress text hstart.dictionaries
  rw [hrequest] at hanswer
  refine ⟨d, (Server.run_acceptClient_of_some haccept).trans ?_⟩
  rw [Server.run_handleApproachingClient, hanswer]
  show (((Server.handle env q).run (p.withOs (p.world.os.acquire env).2).world).map _).map _ =
    ((Server.handle env q).run (p.withOs (p.world.os.acquire env).2).world).map _
  cases (Server.handle env q).run (p.withOs (p.world.os.acquire env).2).world <;> rfl

end

end Process

theorem World.asksNull_withOs (w : World) (os : Os) (a : Action) :
    ({ w with os := os } : World).AsksNull a ↔ w.AsksNull a := by
  cases a with
  | tick => exact Iff.rfl
  | request q => cases q <;> exact Iff.rfl

theorem Server.handle_error_iff (env : Environment) {w : World} (hw : w.Sound) (q : Request)
    (f : Fault) :
    (handle env q).run w = .error f ↔ f = .nullDereference ∧ w.AsksNull (.request q) := by
  have hstep : (system env 0).step w (.request q) = .error f ↔
      f = .nullDereference ∧ w.AsksNull (.request q) := step_error_iff hw (.request q) f
  rw [← hstep]
  show _ ↔ (((handle env q).run w).map _) = .error f
  cases (handle env q).run w <;> simp [Except.map]

/-! ## The client -/

namespace Deployment

section

variable {ι : Type} (S : Setting ι)

def requestText (i : ι) (op : ClientOperation) : Text :=
  op.requestText (S.hosts.port i).toNat

/-- What the server is asked for if all of the request arrives. -/
def delivered (i : ι) (op : ClientOperation) : Request :=
  op.reread.request (S.hosts.address i) (S.hosts.port i).toNat

/-- The step of the server that takes the request, as much of it as the buffer holds. -/
def serverStep (n : Deployment ι) (i : ι) (op : ClientOperation) :
    Except Fault (Option (Response × Text) × Process) :=
  (Process.system S.env S.library S.indeterminate S.topicTimeout).step n.server
    (.connection (S.hosts.address i) (some ((requestText S i op).take bufferSize))
      fun text ↦ text.length)

/-- The client at the end of a method, with the reply that came, if one did. -/
def finished (n : Deployment ι) (i : ι) (op : ClientOperation) (d : Dictionaries)
    (reply : Option Text) : ClientProcess :=
  ({ n.clients i with state := { (n.clients i).state with dictionaries := d } } :
    ClientProcess).finish S op (op.sent (S.hosts.port i).toNat) reply

/-- What a method call of a client makes of the server, the client and the backlog, if
its request leaves. -/
inductive Outcome (n : Deployment ι) (i : ι) (op : ClientOperation) (d : Dictionaries) :
    Process → ClientProcess → List (ι × Text) → Prop
  /-- The server has no descriptor for the connection. -/
  | waiting (haccept : (n.server.world.os.acquire S.env).1 = none) :
      Outcome n i op d (n.server.withOs (n.server.world.os.acquire S.env).2)
        ((n.clients i).logged op d
          (.error, ascii "No response from the server within 30 seconds."))
        ((i, requestText S i op) :: n.backlog)
  /-- Something of the request is cut off. -/
  | cut {clientSocket : ℕ} {d' : Dictionaries}
      (haccept : (n.server.world.os.acquire S.env).1 = some clientSocket)
      (hlength : bufferSize < (requestText S i op).length) :
      Outcome n i op d
        ⟨{ n.server.world with os := (n.server.world.os.acquire S.env).2.close clientSocket }, d'⟩
        ((n.clients i).logged op d
          (.error, Client.header S.indeterminate Server.rejection S.serverIp S.serverPort))
        n.backlog
  /-- The handler of the request runs, and its reply is shown. -/
  | answered {clientSocket : ℕ} {d' : Dictionaries} {r : Response} {w : World}
      {line : Client.Logged} (haccept : (n.server.world.os.acquire S.env).1 = some clientSocket)
      (hlength : (requestText S i op).length ≤ bufferSize)
      (hhandle : (Server.handle S.env (delivered S i op)).run
        { n.server.world with os := (n.server.world.os.acquire S.env).2 } = .ok (r, w))
      (hfits : (r.serialize S.library S.indeterminate).length < bufferSize)
      (hline : Client.logResponse S.formatTimestamp S.indeterminate r.reread S.serverIp
        S.serverPort = .ok line) :
      Outcome n i op d ⟨{ w with os := w.os.close clientSocket }, d'⟩
        ((n.clients i).logged op d line) n.backlog
  /-- The handler of the request runs, and its reply is too long for the client. -/
  | overrun {clientSocket : ℕ} {d' : Dictionaries} {r : Response} {w : World}
      (haccept : (n.server.world.os.acquire S.env).1 = some clientSocket)
      (hlength : (requestText S i op).length ≤ bufferSize)
      (hhandle : (Server.handle S.env (delivered S i op)).run
        { n.server.world with os := (n.server.world.os.acquire S.env).2 } = .ok (r, w))
      (hfits : bufferSize ≤ (r.serialize S.library S.indeterminate).length) :
      Outcome n i op d ⟨{ w with os := w.os.close clientSocket }, d'⟩
        { n.clients i with
          state := { (n.clients i).state with dictionaries := d }
          ending := some .overrun } n.backlog

variable {S} {decodeDouble : Text → Option Double}

theorem length_rejection (hlibrary : S.library = .vendored decodeDouble) :
    (Server.rejection.serialize S.library S.indeterminate).length < bufferSize := by
  have hmembers : Server.rejection.members S.indeterminate =
      [(ascii "statusCode", .int Statuscode.internalError.toInt)] := rfl
  rw [Response.serialize, hmembers, hlibrary]
  show (Json.writeValue (.ofMembers
    [(ascii "statusCode", .int Statuscode.internalError.toInt)])).length < bufferSize
  decide +kernel

/-- The part of the buffer of the server that a request takes. -/
theorem requestOf_take (hlibrary : S.library = .vendored decodeDouble) (i : ι)
    {op : ClientOperation} (hfilled : ∀ t ∈ op.texts, t ≠ []) :
    ((requestText S i op).length ≤ bufferSize ∧
      Server.requestOf S.library (S.hosts.address i) ((requestText S i op).take bufferSize) =
        .ok (some (delivered S i op))) ∨
    (bufferSize < (requestText S i op).length ∧ ∃ e,
      Server.requestOf S.library (S.hosts.address i) ((requestText S i op).take bufferSize) =
        .error e) := by
  have hreceived := ClientOperation.requestOf_received decodeDouble hfilled
    (Int.natCast_nonneg (S.hosts.port i).toNat) (S.hosts.port_le i) (S.hosts.address i)
  rwa [← hlibrary] at hreceived

variable {n : Deployment ι} {past : List (Happening ι)}

/-- The client's side of a step in which the server replies. -/
theorem Inv.finish_replied (hlibrary : S.library = .vendored decodeDouble)
    (henv : S.env.Dated S.formatTimestamp) (hn : Inv S past n) {i : ι} {op : ClientOperation}
    (hfilled : ∀ t ∈ op.texts, t ≠ []) {r : Response} {p : Process}
    (hstep : serverStep S n i op = .ok (some (r, r.serialize S.library S.indeterminate), p))
    (client : ClientProcess) :
    ∃ s line, r.statusCode = some s ∧
      Client.logResponse S.formatTimestamp S.indeterminate
        (Response.ofTexts (op.sent (S.hosts.port i).toNat).commandIdentifier s r.reread.shown)
          S.serverIp S.serverPort = .ok line ∧
      client.finish S op (op.sent (S.hosts.port i).toNat)
          (some (r.serialize S.library S.indeterminate)) =
        if (r.serialize S.library S.indeterminate).length < bufferSize then
          { client with state := client.state.after op, shown := client.shown ++ [line] }
        else { client with ending := some .overrun } := by
  rcases hn.replied hlibrary henv hfilled hstep with hnone | ⟨r', hsame, hreply, hshowable⟩
  · cases hnone
  · obtain rfl : r = r' := congrArg Prod.fst (Option.some.inj hsame)
    exact client.finish_reply hlibrary hfilled hreply hshowable

theorem Inv.outcome_of_rejected (hlibrary : S.library = .vendored decodeDouble)
    (henv : S.env.Dated S.formatTimestamp) (hn : Inv S past n) {i : ι} {op : ClientOperation}
    (hfilled : ∀ t ∈ op.texts, t ≠ []) {d d' : Dictionaries} {clientSocket : ℕ}
    (haccept : (n.server.world.os.acquire S.env).1 = some clientSocket)
    (hlength : bufferSize < (requestText S i op).length)
    (hstep : serverStep S n i op =
      .ok (some (Server.rejection, Server.rejection.serialize S.library S.indeterminate),
        ⟨{ n.server.world with os := (n.server.world.os.acquire S.env).2.close clientSocket },
          d'⟩)) :
    Outcome S n i op d
      ⟨{ n.server.world with os := (n.server.world.os.acquire S.env).2.close clientSocket }, d'⟩
      (finished S n i op d (some (Server.rejection.serialize S.library S.indeterminate)))
      n.backlog := by
  obtain ⟨s, line, hs, hline, hfinish⟩ := hn.finish_replied hlibrary henv hfilled hstep
    { n.clients i with state := { (n.clients i).state with dictionaries := d } }
  obtain rfl : s = .internalError := (Option.some.inj hs).symm
  obtain rfl : line = (.error, Client.header S.indeterminate Server.rejection S.serverIp
    S.serverPort) := (Except.ok.inj hline).symm
  rw [finished, hfinish, if_pos (length_rejection hlibrary)]
  exact .cut haccept hlength

theorem Inv.outcome_of_handled (hlibrary : S.library = .vendored decodeDouble)
    (henv : S.env.Dated S.formatTimestamp) (hn : Inv S past n) {i : ι} {op : ClientOperation}
    (hfilled : ∀ t ∈ op.texts, t ≠ []) {d d' : Dictionaries} {clientSocket : ℕ} {r : Response}
    {w : World} (haccept : (n.server.world.os.acquire S.env).1 = some clientSocket)
    (hlength : (requestText S i op).length ≤ bufferSize)
    (hhandle : (Server.handle S.env (delivered S i op)).run
      { n.server.world with os := (n.server.world.os.acquire S.env).2 } = .ok (r, w))
    (hstep : serverStep S n i op =
      .ok (some (r, r.serialize S.library S.indeterminate),
        ⟨{ w with os := w.os.close clientSocket }, d'⟩)) :
    Outcome S n i op d ⟨{ w with os := w.os.close clientSocket }, d'⟩
      (finished S n i op d (some (r.serialize S.library S.indeterminate))) n.backlog := by
  obtain ⟨s, line, hs, hline, hfinish⟩ := hn.finish_replied hlibrary henv hfilled hstep
    { n.clients i with state := { (n.clients i).state with dictionaries := d } }
  have hreply := Broker.isReplyTo_handle
    (Server.view_handle S.env (hn.server.world.withOs _) hhandle).1
  have hcommand : (delivered S i op).commandIdentifier =
      (op.sent (S.hosts.port i).toNat).commandIdentifier := by
    cases op <;> rfl
  rw [← hcommand, hreply.reread.ofTexts_shown hs] at hline
  rw [finished, hfinish]
  by_cases hfits : (r.serialize S.library S.indeterminate).length < bufferSize
  · rw [if_pos hfits]
    exact .answered haccept hlength hhandle hfits hline
  · rw [if_neg hfits]
    exact .overrun haccept hlength hhandle (Nat.le_of_not_lt hfits)

/-- Either the server is brought down, or what it sends back ends the method. -/
theorem Inv.served_cases (hlibrary : S.library = .vendored decodeDouble)
    (henv : S.env.Dated S.formatTimestamp) (hn : Inv S past n) (i : ι) {op : ClientOperation}
    (hfilled : ∀ t ∈ op.texts, t ≠ []) (d : Dictionaries) :
    let crash := (n.server.world.os.acquire S.env).1 ≠ none ∧
      (requestText S i op).length ≤ bufferSize ∧
        n.server.world.AsksNull (.request (delivered S i op))
    (serverStep S n i op = .error .nullDereference ∧ crash) ∨
      (¬ crash ∧ ∃ served, serverStep S n i op = .ok served ∧
        Outcome S n i op d served.2 (finished S n i op d (served.1.map Prod.snd))
          (n.backlogAfter i (requestText S i op) (served.1.map Prod.snd))) := by
  intro crash
  cases haccept : (n.server.world.os.acquire S.env).1 with
  | none =>
      refine .inr ⟨fun h ↦ h.1 haccept, _, Process.step_dropped _ _ _ haccept, ?_⟩
      rw [Option.map_none, finished, ClientProcess.finish_none hlibrary _ hfilled]
      exact .waiting haccept
  | some clientSocket =>
      rcases requestOf_take hlibrary i hfilled with ⟨hlength, hread⟩ | ⟨hlength, e, hread⟩
      · obtain ⟨d', hstep⟩ := Process.step_request S.indeterminate S.topicTimeout
          (fun text ↦ text.length) hn.server haccept hread
        have hfault := Server.handle_error_iff S.env
          (hn.server.world.withOs (n.server.world.os.acquire S.env).2) (delivered S i op)
        -- the new descriptor is in no list of the server, so it does not matter for null
        cases hhandle : (Server.handle S.env (delivered S i op)).run
            { n.server.world with os := (n.server.world.os.acquire S.env).2 } with
        | error f =>
            obtain ⟨rfl, hnull⟩ := (hfault f).mp hhandle
            rw [World.asksNull_withOs] at hnull
            rw [hhandle] at hstep
            refine .inl ⟨hstep, ?_, hlength, hnull⟩
            rw [haccept]
            exact Option.some_ne_none _
        | ok handled =>
            rw [hhandle] at hstep
            refine .inr ⟨fun h ↦ ?_, _, hstep,
              hn.outcome_of_handled hlibrary henv hfilled haccept hlength hhandle hstep⟩
            have herror := (hfault .nullDereference).mpr
              ⟨rfl, (World.asksNull_withOs _ _ _).mpr h.2.2⟩
            cases hhandle.symm.trans herror
      · obtain ⟨d', hstep⟩ := Process.step_rejected S.indeterminate S.topicTimeout
          (fun text ↦ text.length) hn.server haccept hread
        exact .inr ⟨fun h ↦ absurd h.2.1 (Nat.not_le_of_lt hlength), _, hstep,
          hn.outcome_of_rejected hlibrary henv hfilled haccept hlength hstep⟩

variable [DecidableEq ι]

/-- A method is one step of the server, whose reply the client finishes with. -/
theorem Inv.request_eq (hlibrary : S.library = .vendored decodeDouble) (hn : Inv S past n)
    (i : ι) {op : ClientOperation} (hfilled : ∀ t ∈ op.texts, t ≠ []) :
    ∃ d, n.request S i op =
      (serverStep S n i op).map fun served ↦
        { n.withClient i (finished S n i op d (served.1.map Prod.snd)) with
          server := served.2
          backlog := n.backlogAfter i (requestText S i op) (served.1.map Prod.snd) } := by
  obtain ⟨d, hbuilt, -⟩ := op.builds_command (hn.clients i).dictionaries (S.hosts.port i).toNat
  have hserialize : (op.sent (S.hosts.port i).toNat).serialize S.library =
      .ok (requestText S i op) := by
    rw [hlibrary]
    exact ClientOperation.serialize_sent hfilled
  refine ⟨d, ?_⟩
  simp only [Deployment.request, hbuilt, hserialize, serve]
  show (Except.map _ (serverStep S n i op)).map _ = _
  cases serverStep S n i op <;> rfl

end

end Deployment

section

variable {ι : Type} [DecidableEq ι] {S : Setting ι} {decodeDouble : Text → Option Double}

/-- A request that leaves either brings the server down, by an unsubscribe that gets
through and asks null, or it waits, is cut off, is answered, or is answered at too
great a length; the other clients do not notice.  If it does not leave, that is a
matter of the client alone. -/
theorem call_outcome (hlibrary : S.library = .vendored decodeDouble)
    (henv : S.env.Dated S.formatTimestamp) {n : Deployment ι}
    (hn : (Deployment.system S).ReachableWhile (fun _ ↦ Deployment.Ordinary) n) {i : ι}
    {op : ClientOperation} (hfilled : ∀ t ∈ op.texts, t ≠ []) (hrunning : ¬ n.Ended i)
    (hleaving : (n.clients i).state.leaving = false) :
    (∀ f, n.happen S (.move (.call i op)) = .error f ↔ f = .nullDereference ∧
      (n.server.world.os.acquire S.env).1 ≠ none ∧
      (Deployment.requestText S i op).length ≤ bufferSize ∧
      n.server.world.AsksNull (.request (Deployment.delivered S i op))) ∧
    (∀ n', n.happen S (.move (.call i op)) = .ok n' → (∀ j, j ≠ i → n'.clients j = n.clients j) ∧
      ∃ d, Deployment.Outcome S n i op d n'.server (n'.clients i) n'.backlog) ∧
    ∀ call, ∃ d, n.happen S (.unsent (.call i op) call) =
      .ok (n.withClient i ((n.clients i).unsent op d call)) := by
  obtain ⟨past, hinv⟩ := Deployment.exists_inv hlibrary henv hn
  have hunsent : ∀ call, ∃ d, n.happen S (.unsent (.call i op) call) =
      .ok (n.withClient i ((n.clients i).unsent op d call)) := fun call ↦ by
    obtain ⟨d, -, hclient⟩ := hinv.requestUnsent_eq hlibrary i hfilled call
    exact ⟨d, by rw [Deployment.happen_unsent hrunning hleaving, hclient]⟩
  obtain ⟨d, hrequest⟩ := hinv.request_eq hlibrary i hfilled
  rw [Deployment.happen_call hrunning hleaving, hrequest]
  rcases hinv.served_cases hlibrary henv i hfilled d with
    ⟨hstep, hcrash⟩ | ⟨hcrash, served, hstep, houtcome⟩
  · rw [hstep]
    refine ⟨fun f ↦ ⟨fun h ↦ ⟨(Except.error.inj h).symm, hcrash⟩, fun h ↦ ?_⟩, fun n' hn' ↦ ?_,
      hunsent⟩
    · rw [h.1]
      rfl
    · cases hn'
  · rw [hstep]
    refine ⟨fun f ↦ ⟨fun h ↦ ?_, fun h ↦ absurd h.2 hcrash⟩, fun n' hn' ↦ ?_, hunsent⟩
    · cases h
    · obtain rfl := Except.ok.inj hn'
      refine ⟨fun j hj ↦ Deployment.clients_withClient_ne n hj _, d, ?_⟩
      rwa [← Deployment.clients_withClient_self n i (Deployment.finished S n i op d _)] at houtcome

/-- After two subscriptions, the status of a topic is shown to a client that the
server does not know, and its unsubscribe brings the server down. -/
theorem call_outcome_unknown_client :
    let S := Setting.twoClients
    let n := (Deployment.system S).final [.move (.call true (.subscribeTopic (ascii "news"))),
      .move (.call true (.subscribeTopic (ascii "weather")))]
    let status := ClientOperation.getTopicStatus (ascii "news")
    n.happen S (.move (.call false (.unsubscribe (ascii "news")))) = .error .nullDereference ∧
      ∃ n', n.happen S (.move (.call false status)) = .ok n' ∧ n'.clients true = n.clients true ∧
        ∃ d, Deployment.Outcome S n false status d n'.server (n'.clients false) n'.backlog := by
  intro S n status
  have hordinary : ∀ h ∈ [Happening.move (.call true (.subscribeTopic (ascii "news"))),
      .move (.call true (.subscribeTopic (ascii "weather")))], Deployment.Ordinary h := by
    simp only [List.forall_mem_cons]
    exact ⟨⟨by decide +kernel, by rintro _ _ ⟨⟩⟩, ⟨by decide +kernel, by rintro _ _ ⟨⟩⟩,
      List.forall_mem_nil _⟩
  have hn : (Deployment.system S).ReachableWhile (fun _ ↦ Deployment.Ordinary) n :=
    Transition.System.reachableWhile_final _
      (Transition.System.meets_of_forall _ (fun h hh _ ↦ hordinary h hh) _)
  have hcalls : ¬ n.Ended false ∧ (n.clients false).state.leaving = false := by decide +kernel
  have hran : (n.happen S (.move (.call false status))).map (fun _ ↦ ()) = .ok () := by
    decide +kernel
  obtain ⟨n', hn', -⟩ := of_map_eq_ok hran
  have hcrash : (n.server.world.os.acquire S.env).1 ≠ none ∧
      (Deployment.requestText S false (.unsubscribe (ascii "news"))).length ≤ bufferSize ∧
      n.server.world.AsksNull
        (.request (Deployment.delivered S false (.unsubscribe (ascii "news")))) := by
    decide +kernel
  refine ⟨((call_outcome rfl Setting.dated_twoClients hn (by decide +kernel) hcalls.1 hcalls.2).1
    .nullDereference).mpr ⟨rfl, hcrash⟩, n', hn', ?_⟩
  obtain ⟨hothers, houtcome⟩ := (call_outcome rfl Setting.dated_twoClients hn (by decide +kernel)
    hcalls.1 hcalls.2).2.1 n' hn'
  exact ⟨hothers true (by decide), houtcome⟩

end

end PublisherSubscriber
