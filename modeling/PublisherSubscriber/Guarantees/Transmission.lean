import PublisherSubscriber.Guarantees.Delivery
import PublisherSubscriber.Guarantees.NetworkRuns

/-!
# From `publishTopic` to the line that is logged

The first tick after a publish sends the message to everyone who is subscribed,
since the publish sets the timeout to the present.  What is sent then can be
shown whenever it arrives.
-/

namespace PublisherSubscriber

open PointerHeap OurReader

/-! ## The server -/

namespace Broker

/-- Only an unsubscribe from the topic takes a subscriber from it. -/
theorem Inv.keeps_has {env : Environment} {b c : Broker} (hb : b.Inv) {q : Request} {r : Response}
    {e : Endpoint} {topicName : Text}
    (hq : ∀ ipAddress port, q ≠ .unsubscribe ipAddress port topicName)
    (hstep : b.handle env q = .ok (r, c)) (hhas : b.Has e topicName) : c.Has e topicName := by
  cases q with
  | subscribe ipAddress port name =>
      have hc : b.subscribe env ⟨ipAddress, port⟩ name = (r, c) := Except.ok.inj hstep
      have hsubscribed := hb.has_subscribe env ⟨ipAddress, port⟩ name e topicName
      rw [hc] at hsubscribed
      exact hsubscribed.mpr (Or.inl hhas)
  | unsubscribe ipAddress port name =>
      rcases hb.has_unsubscribe hstep with ⟨-, rfl, -⟩ | ⟨v, -, rfl, first, -, -, hleft⟩
      · exact hhas
      · refine (hleft e topicName).mpr ⟨hhas, ?_⟩
        rintro ⟨-, rfl⟩
        exact hq ipAddress port rfl
  | publish name message =>
      have hc : b.publish env name message = (r, c) := Except.ok.inj hstep
      have hpublished := has_publish b env name message e topicName
      rw [hc] at hpublished
      exact hpublished.mpr hhas
  | listTopics =>
      cases hstep
      exact hhas
  | getTopicStatus name =>
      cases hstep
      exact hhas

end Broker

theorem Event.exists_datagram (library : JsonLibrary) {events : List Event} {event : Event}
    (hevent : event ∈ events) {call : SendMessageCall} (hcall : call ∈ event.calls)
    (hsocket : call.socket ≠ none) :
    ∃ d ∈ events.flatMap (·.datagrams library), call.datagram library = some d := by
  obtain ⟨descriptor, hdescriptor⟩ := Option.ne_none_iff_exists'.mp hsocket
  cases event with
  | created => exact absurd hcall List.not_mem_nil
  | published => exact absurd hcall List.not_mem_nil
  | checked topic now calls reset =>
      have hsent : call.datagram library = some ⟨call.address, UInt16.ofInt call.port,
          (⟨call.topicName, call.timestamp, call.message⟩ : Message).serialize library⟩ := by
        rw [SendMessageCall.datagram, hdescriptor]
        rfl
      have hfiltered := List.mem_filterMap.mpr ⟨call, hcall, hsent⟩
      exact ⟨_, List.mem_flatMap.mpr ⟨_, hevent, hfiltered⟩, hsent⟩

namespace Process

/-- The message is held for a subscriber, until a time that the clock has shown. -/
structure Awaits (env : Environment) (p : Process) (e : Endpoint) (topicName message : Text) :
    Prop where
  has : p.world.HasSubscriber e topicName
  holds : ∃ k ≤ p.world.os.readings, p.world.view.Holds topicName message (env.time k)

variable {env : Environment} {library : JsonLibrary} {indeterminate topicTimeout : ℤ}
  {p p' : Process} {reply : Option (Response × Text)} {e : Endpoint} {topicName message : Text}

/-- A tick hands the message that a topic holds to `sendto`. -/
theorem Awaits.sentBetween_tick (h : p.Awaits env e topicName message)
    (hclock : env.NonDecreasing) (haccept : ∀ os : Os, (os.acquire env).1 ≠ none) (hp : p.Sound)
    (hmessage : message ≠ [])
    (hstep : (system env library indeterminate topicTimeout).step p .tick = .ok (reply, p')) :
    p.world.SentBetween p'.world e topicName message := by
  obtain ⟨w', -, rfl, hrun, -, -⟩ := tick_inv hp hstep
  have htick : (Server.system env topicTimeout).step p.world .tick = .ok (none, w') := by
    show ((Server.checkTopicTimeouts env).run p.world).map _ = _
    rw [hrun]
    rfl
  obtain ⟨k, hk, hholds⟩ := h.holds
  obtain ⟨news, hhistory, x, hx, call, hcall, hcarries, hrefused⟩ :=
    hp.world.calledBetween_tick htick h.has hholds hmessage fun n hn ↦ hclock (hk.trans hn)
  exact ⟨news, hhistory, x, hx, call, hcall, hcarries,
    fun hsocket ↦ Os.not_refusedBetween haccept (hrefused hsocket)⟩

/-- A publish that arrives is stored, and its timeout is the second reading of the clock. -/
theorem awaits_publish (hp : p.Sound) {ipAddress text : Text} {bytesSent : Text → ℤ}
    (haccept : (p.world.os.acquire env).1 ≠ none)
    (hrequest : Server.requestOf library ipAddress text =
      .ok (some (.publish topicName message)))
    (hhas : p.world.HasSubscriber e topicName)
    (hstep : (system env library indeterminate topicTimeout).step p
      (.connection ipAddress (some text) bytesSent) = .ok (reply, p')) :
    p'.Awaits env e topicName message := by
  rcases Server.acceptClient_cases hstep with ⟨hnone, -⟩ | ⟨clientSocket, -, hhandled⟩
  · exact absurd hnone haccept
  rcases hhandled with ⟨hnone, -⟩ | ⟨receivedData, r, answered, hdata, hanswer, -, rfl⟩
  · cases hnone
  obtain rfl := Option.some.inj hdata
  have hstart := hp.withOs (p.world.os.acquire env).2
  have hhandle := Server.answer_of_request hstart hrequest hanswer
  have hbroker := (Server.view_handle env hstart.world hhandle).1
  have hpublish : (p.withOs (p.world.os.acquire env).2).world.view.publish env topicName message =
      (r, answered.world.view) := Except.ok.inj hbroker
  have hsuccess : r.statusCode = some .success := by
    rcases Broker.publish_cases env (p.withOs (p.world.os.acquire env).2).world.view topicName
      message with ⟨hfind, -⟩ | ⟨v, -, hstored⟩
    · obtain ⟨v, hv, hname, -⟩ := World.has_view.mpr hhas
      exact absurd hname (Broker.find_eq_none_iff.mp hfind v hv)
    · obtain ⟨rfl, -⟩ := Prod.mk.inj (hpublish.symm.trans hstored)
      rfl
  obtain ⟨hholds, hreadings⟩ := Broker.holds_publish hpublish hsuccess
  have hkept : answered.world.view.Has e topicName :=
    hstart.world.inv.keeps_has (by rintro _ _ ⟨⟩) hbroker (World.has_view.mpr hhas)
  exact ⟨World.has_view.mp hkept, _, (Nat.le_succ _).trans hreadings.ge, hholds⟩

/-- Other requests leave the message and the subscriber alone. -/
theorem Awaits.connection (h : p.Awaits env e topicName message) (hp : p.Sound)
    {ipAddress : Text} {received : Option Text} {bytesSent : Text → ℤ}
    (hother : ∀ text ∈ received, ∀ q,
      Server.requestOf library ipAddress text = .ok (some q) →
        (∀ m, q ≠ .publish topicName m) ∧ ∀ address port, q ≠ .unsubscribe address port topicName)
    (hstep : (system env library indeterminate topicTimeout).step p
      (.connection ipAddress received bytesSent) = .ok (reply, p')) :
    p'.Awaits env e topicName message := by
  obtain ⟨k, hk, hholds⟩ := h.holds
  have hacquired := Os.readings_acquire env p.world.os
  have hsame : (p.withOs (p.world.os.acquire env).2).Awaits env e topicName message :=
    ⟨h.has, k, hk.trans hacquired.ge, hholds⟩
  rcases Server.acceptClient_cases hstep with ⟨-, -, rfl⟩ | ⟨clientSocket, -, hhandled⟩
  · exact hsame
  rcases hhandled with ⟨-, -, rfl⟩ | ⟨receivedData, r, answered, hdata, hanswer, -, rfl⟩
  · exact ⟨h.has, k, hk.trans hacquired.ge, hholds⟩
  have hstart := hp.withOs (p.world.os.acquire env).2
  rcases (Server.answer_inv hstart hanswer).2 with hworld | ⟨q, hq, hhandle⟩
  · obtain ⟨hhas, hmessage⟩ := hsame
    rw [← hworld] at hhas hmessage
    exact ⟨hhas, hmessage⟩
  · obtain ⟨hpublish, hunsubscribe⟩ := hother receivedData hdata q hq
    have hbroker := (Server.view_handle env hstart.world hhandle).1
    have hhas := hstart.world.inv.keeps_has hunsubscribe hbroker (World.has_view.mpr hsame.has)
    have hkeeps := hstart.world.inv.toWf.keeps_handle hpublish hbroker
    have hact : (p.withOs (p.world.os.acquire env).2).world.view.act env (.request q) =
        .ok (some r, answered.world.view) := by
      rw [Broker.act, hbroker]
      rfl
    have hreadings := (hstart.world.inv.changes_act hact).readings_le
    exact ⟨World.has_view.mp hhas, k, (hk.trans hacquired.ge).trans hreadings,
      hkeeps.holds hstart.world.inv.toWf hhas hholds⟩

end Process

/-! ## The deployment -/

theorem Hosts.ofInt_port {ι : Type} (H : Hosts ι) (i : ι) :
    UInt16.ofInt ((H.port i).toNat : ℤ) = H.port i := by
  have := (H.port i).toNat_lt
  have hback := toNat_ofInt_of_port (Int.natCast_nonneg (H.port i).toNat) (by omega)
  rw [← UInt16.toNat_inj]
  omega

/-- Neither a tick, nor a publish on this topic, nor an unsubscribe from it, nor a
connection that waited. -/
def Happening.Spares {ι : Type} (topicName : Text) : Happening ι → Prop
  | .move (.call _ (.publishTopic t _)) => reread t ≠ topicName
  | .move (.call _ (.unsubscribe t)) => reread t ≠ topicName
  | .move (.unsubscribeFront _ t) => reread t ≠ topicName
  | .move (.other .tick) => False
  | .late _ _ => False
  | _ => True

namespace Deployment

section

variable {ι : Type} {S : Setting ι} {decodeDouble : Text → Option Double}
  {past : List (Happening ι)} {n n' : Deployment ι}

/-- What is asked for by the part of a request that the server gets. -/
theorem request_of_requestOf (hlibrary : S.library = .vendored decodeDouble) {i : ι}
    {op : ClientOperation} (hfilled : ∀ t ∈ op.texts, t ≠ []) {q : Request}
    (h : Server.requestOf S.library (S.hosts.address i)
      ((op.requestText (S.hosts.port i).toNat).take bufferSize) = .ok (some q)) :
    q = op.reread.request (S.hosts.address i) (S.hosts.port i).toNat := by
  have hreceived := ClientOperation.requestOf_received decodeDouble hfilled
    (Int.natCast_nonneg (S.hosts.port i).toNat) (S.hosts.port_le i) (S.hosts.address i)
  rw [← hlibrary] at hreceived
  rcases hreceived with ⟨-, hread⟩ | ⟨-, e, he⟩
  · exact Option.some.inj (Except.ok.inj (h.symm.trans hread))
  · cases he.symm.trans h

/-- A method that the topic is spared by asks for neither. -/
theorem spares_method {m : Move ι} {i : ι} {op : ClientOperation}
    (hmethod : m.method = some (i, op)) {topicName : Text}
    (hspares : (Happening.move m).Spares topicName) (address : Text) (port : ℤ) :
    (∀ message, op.reread.request address port ≠ .publish topicName message) ∧
      ∀ address' port', op.reread.request address port ≠ .unsubscribe address' port' topicName := by
  constructor
  · intro message hq
    cases op with
    | publishTopic t s =>
        cases m with
        | call j op' =>
            obtain ⟨-, rfl⟩ := Prod.mk.inj (Option.some.inj hmethod)
            exact hspares (Request.publish.inj hq).1
        | unsubscribeFront j t' => cases hmethod
        | terminate j => cases hmethod
        | other o => cases hmethod
    | subscribeTopic t => cases hq
    | unsubscribe t => cases hq
    | listTopics => cases hq
    | getTopicStatus t => cases hq
  · intro address' port' hq
    cases op with
    | unsubscribe t =>
        have hsame := (Request.unsubscribe.inj hq).2.2
        cases m with
        | call j op' =>
            obtain ⟨-, rfl⟩ := Prod.mk.inj (Option.some.inj hmethod)
            exact hspares hsame
        | unsubscribeFront j t' =>
            obtain ⟨-, hop⟩ := Prod.mk.inj (Option.some.inj hmethod)
            obtain rfl := ClientOperation.unsubscribe.inj hop
            exact hspares hsame
        | terminate j => cases hmethod
        | other o => cases hmethod
    | publishTopic t s => cases hq
    | subscribeTopic t => cases hq
    | listTopics => cases hq
    | getTopicStatus t => cases hq

variable [DecidableEq ι]

/-- The step that the server takes when a method runs. -/
theorem Inv.request_server (hlibrary : S.library = .vendored decodeDouble) (hn : Inv S past n)
    {i : ι} {op : ClientOperation} (hfilled : ∀ t ∈ op.texts, t ≠ [])
    (h : n.request S i op = .ok n') :
    ∃ reply, (Process.system S.env S.library S.indeterminate S.topicTimeout).step n.server
      (.connection (S.hosts.address i)
        (some ((op.requestText (S.hosts.port i).toNat).take bufferSize)) fun text ↦ text.length) =
          .ok (reply, n'.server) := by
  obtain ⟨d, hbuilt, -⟩ := op.builds_command (hn.clients i).dictionaries (S.hosts.port i).toNat
  have hserialize : (op.sent (S.hosts.port i).toNat).serialize S.library =
      .ok (op.requestText (S.hosts.port i).toNat) := by
    rw [hlibrary]
    exact ClientOperation.serialize_sent hfilled
  simp only [Deployment.request, hbuilt, hserialize] at h
  obtain ⟨served, hserve, rfl⟩ := of_map_eq_ok h
  obtain ⟨⟨reply, p⟩, hstep, rfl⟩ := of_map_eq_ok hserve
  exact ⟨reply, hstep⟩

/-- What awaits a tick awaits it after whatever spares the topic. -/
theorem Inv.awaits (hlibrary : S.library = .vendored decodeDouble) (hn : Inv S past n)
    {h : Happening ι} (hh : Ordinary h) {e : Endpoint} {topicName message : Text}
    (hspares : h.Spares topicName) (hawaits : n.server.Awaits S.env e topicName message)
    (hstep : n.happen S h = .ok n') : n'.server.Awaits S.env e topicName message := by
  cases h with
  | arrival i d =>
      rcases happen_arrival_cases hstep with ⟨-, rfl⟩ | rfl
      · exact hawaits
      · exact hawaits
  | join i =>
      rcases happen_join_cases hstep with ⟨-, rfl⟩ | rfl
      · exact hawaits
      · exact hawaits
  | late i message => exact hspares.elim
  | unsent m call =>
      rcases happen_unsent_cases hstep with ⟨i, op, -, -, rfl⟩ | rfl
      · exact hawaits
      · exact hawaits
  | move m =>
      rcases happen_move_cases hstep with
        ⟨i, op, -, hoperation, hrequest⟩ | ⟨i, -, rfl⟩ | ⟨o, reply, p, rfl, hserved, rfl⟩ | rfl
      · have hfilled := (hn.asked_of_operation hh hoperation).2.filled
        obtain ⟨reply, hserved⟩ := hn.request_server hlibrary hfilled hrequest
        refine hawaits.connection hn.server (fun text htext q hq ↦ ?_) hserved
        obtain rfl := Option.some.inj htext
        rw [request_of_requestOf hlibrary hfilled hq]
        exact spares_method (Network.method_of_operation hoperation) hspares _ _
      · exact hawaits
      · cases o with
        | tick => exact hspares.elim
        | connection ipAddress received bytesSent =>
            obtain rfl : received = none := hh
            exact hawaits.connection hn.server (by rintro text ⟨⟩) hserved
      · exact hawaits

section

variable {i : ι} (hrunning : ¬ n.Ended i)
  (hleaving : (n.clients i).state.leaving = false)

include hrunning hleaving

omit [DecidableEq ι] in
theorem operation_call (op : ClientOperation) :
    (¬ ∃ j ∈ (Move.call i op).client, n.Ended j) ∧
      n.network.operation (.call i op) = some (i, op) := by
  constructor
  · rintro ⟨j, hj, hended⟩
    obtain rfl := Option.some.inj hj
    exact hrunning hended
  · have hcalls : (n.network.clients i).leaving = false := hleaving
    simp [Network.operation, hcalls]

theorem happen_call {op : ClientOperation} :
    n.happen S (.move (.call i op)) = n.request S i op := by
  obtain ⟨hnone, hoperation⟩ := operation_call hrunning hleaving op
  unfold Deployment.happen
  dsimp only
  rw [if_neg hnone, hoperation]

theorem happen_unsent {op : ClientOperation} (call : SendingCall) :
    n.happen S (.unsent (.call i op) call) = .ok (n.requestUnsent S i op call) := by
  obtain ⟨hnone, hoperation⟩ := operation_call hrunning hleaving op
  unfold Deployment.happen
  dsimp only
  rw [if_neg hnone, hoperation]

end

/-- The request of a publish with room for a zero behind it gets through. -/
theorem Inv.awaits_publish (hlibrary : S.library = .vendored decodeDouble) (hn : Inv S past n)
    {j : ι} {t m : Text} (hfilled : t ≠ [] ∧ m ≠ []) (hroom : width t + width m + 55 < bufferSize)
    (hrunning : ¬ n.Ended j) (hleaving : (n.clients j).state.leaving = false)
    (haccept : (n.server.world.os.acquire S.env).1 ≠ none) {e : Endpoint}
    (hhas : n.server.world.HasSubscriber e (reread t))
    (hstep : n.happen S (.move (.call j (.publishTopic t m))) = .ok n') :
    n'.server.Awaits S.env e (reread t) (reread m) := by
  have htexts : ∀ s ∈ (ClientOperation.publishTopic t m).texts, s ≠ [] := by
    simp [ClientOperation.texts, hfilled]
  rw [happen_call hrunning hleaving] at hstep
  obtain ⟨reply, hserved⟩ := hn.request_server hlibrary htexts hstep
  have hreceived := ClientOperation.requestOf_received decodeDouble htexts
    (Int.natCast_nonneg (S.hosts.port j).toNat) (S.hosts.port_le j) (S.hosts.address j)
  rw [← hlibrary] at hreceived
  rcases hreceived with ⟨-, hread⟩ | ⟨hlong, -⟩
  · exact Process.awaits_publish hn.server haccept hread hhas hserved
  · have hlength := ClientOperation.length_publishTopic t m (S.hosts.port j).toNat
    rw [ClientOperation.requestText] at hlong
    omega

theorem exists_inv (hlibrary : S.library = .vendored decodeDouble)
    (henv : S.env.Dated S.formatTimestamp)
    (hn : (system S).ReachableWhile (fun _ ↦ Ordinary) n) : ∃ past, Inv S past n := by
  refine hn.invariant (I := fun n ↦ ∃ past, Inv S past n) ⟨[], inv_start⟩ ?_
  rintro s t h o ⟨past, hs⟩ hh hstep
  exact ⟨_, hs.happen hlibrary henv hh (happen_of_step hstep)⟩

theorem step_of_tick (hstep : n.happen S (.move (.other .tick)) = .ok n') :
    ∃ reply, (Process.system S.env S.library S.indeterminate S.topicTimeout).step n.server .tick =
      .ok (reply, n'.server) := by
  have hnone : ¬ ∃ i ∈ (Move.other .tick : Move ι).client, n.Ended i := by
    rintro ⟨i, hi, -⟩
    cases hi
  have hoperation : n.network.operation (.other .tick) = none := rfl
  unfold Deployment.happen at hstep
  dsimp only at hstep
  rw [if_neg hnone, hoperation] at hstep
  obtain ⟨⟨reply, p⟩, hserved, rfl⟩ := of_map_eq_ok hstep
  exact ⟨reply, hserved⟩

/-- Between the publish and the tick, a run keeps what awaits the tick. -/
theorem Inv.run_awaits (hlibrary : S.library = .vendored decodeDouble)
    (henv : S.env.Dated S.formatTimestamp) (hn : Inv S past n) {between : List (Happening ι)}
    {e : Endpoint} {topicName message : Text}
    (hbetween : ∀ h ∈ between, Ordinary h ∧ h.Spares topicName)
    (hawaits : n.server.Awaits S.env e topicName message) {os : List Unit}
    (hrun : (system S).run n between = .ok (os, n')) :
    (∃ past, Inv S past n') ∧ n'.server.Awaits S.env e topicName message := by
  have hmeets : (system S).Meets (fun _ h ↦ Ordinary h ∧ h.Spares topicName) n between :=
    (system S).meets_of_forall (fun h hh _ ↦ hbetween h hh) n
  refine hmeets.invariant (I := fun n ↦ (∃ past, Inv S past n) ∧
    n.server.Awaits S.env e topicName message) ?step hrun ⟨⟨past, hn⟩, hawaits⟩
  rintro s s' h o ⟨⟨past, hs⟩, hawaits⟩ ⟨hh, hspares⟩ hstep
  have hhappen := happen_of_step hstep
  exact ⟨⟨_, hs.happen hlibrary henv hh hhappen⟩, hs.awaits hlibrary hh hspares hawaits hhappen⟩

/-- The history only grows. -/
theorem Inv.run_history (hlibrary : S.library = .vendored decodeDouble)
    (henv : S.env.Dated S.formatTimestamp) (hn : Inv S past n) {happenings : List (Happening ι)}
    (hordinary : ∀ h ∈ happenings, Ordinary h) {os : List Unit}
    (hrun : (system S).run n happenings = .ok (os, n')) :
    (∃ past, Inv S past n') ∧
      ∃ events, n'.server.world.history = events ++ n.server.world.history := by
  have hmeets : (system S).Meets (fun _ ↦ Ordinary) n happenings :=
    (system S).meets_of_forall (fun h hh _ ↦ hordinary h hh) n
  refine hmeets.invariant (I := fun m ↦ (∃ past, Inv S past m) ∧
    ∃ events, m.server.world.history = events ++ n.server.world.history) ?step hrun
      ⟨⟨past, hn⟩, [], rfl⟩
  rintro s s' h o ⟨⟨past, hs⟩, events, hhistory⟩ hh hstep
  have hhappen := happen_of_step hstep
  obtain ⟨newer, hnewer, -⟩ := events_happen hs.server hhappen
  exact ⟨⟨_, hs.happen hlibrary henv hh hhappen⟩, newer ++ events, by
    rw [hnewer, hhistory, List.append_assoc]⟩

/-- The publish, what may happen before the tick, and the tick. -/
theorem Inv.sent_by_tick (hlibrary : S.library = .vendored decodeDouble)
    (henv : S.env.Dated S.formatTimestamp) (hclock : S.env.NonDecreasing)
    (haccept : ∀ os : Os, (os.acquire S.env).1 ≠ none) (hn : Inv S past n) {j : ι} {t m : Text}
    (hfilled : t ≠ [] ∧ m ≠ []) (hroom : width t + width m + 55 < bufferSize)
    (hrunning : ¬ n.Ended j) (hleaving : (n.clients j).state.leaving = false) {e : Endpoint}
    (hhas : n.server.world.HasSubscriber e (reread t)) {between : List (Happening ι)}
    (hbetween : ∀ h ∈ between, Ordinary h ∧ h.Spares (reread t)) {os : List Unit}
    (hrun : (system S).run n (.move (.call j (.publishTopic t m)) :: between ++
      [.move (.other .tick)]) = .ok (os, n')) :
    (∃ past, Inv S past n') ∧
      n.server.world.SentBetween n'.server.world e (reread t) (reread m) := by
  have hordinary : Ordinary (.move (.call j (.publishTopic t m))) := by
    refine ⟨by simp [ClientOperation.texts, hfilled], fun t' m' hop ↦ ?_⟩
    obtain ⟨rfl, rfl⟩ := ClientOperation.publishTopic.inj hop
    exact hroom.ne
  obtain ⟨_, held, _, hbefore, hafter⟩ := Transition.System.run_append_inv _ hrun
  obtain ⟨_, published, _, hpublish, hkept, -⟩ := Transition.System.run_cons_inv _ hbefore
  obtain ⟨_, ticked, _, htick, hlast, -⟩ := Transition.System.run_cons_inv _ hafter
  obtain rfl : ticked = n' := congrArg Prod.snd (Except.ok.inj hlast)
  have hpublish := happen_of_step hpublish
  have htick := happen_of_step htick
  have hstored := hn.awaits_publish hlibrary hfilled hroom hrunning hleaving (haccept _) hhas
    hpublish
  have hpublished := hn.happen hlibrary henv hordinary hpublish
  have hawaits := (hpublished.run_awaits hlibrary henv hbetween hstored hkept).2
  obtain ⟨⟨past', hheld⟩, older, holder⟩ := hn.run_history hlibrary henv
    (List.forall_mem_cons.mpr ⟨hordinary, fun h hh ↦ (hbetween h hh).1⟩) hbefore
  obtain ⟨reply, hserved⟩ := step_of_tick htick
  have hmessage : reread m ≠ [] := by
    rw [Ne, reread_eq_nil_iff]
    exact hfilled.2
  have hsent := hawaits.sentBetween_tick hclock haccept hheld.server hmessage hserved
  exact ⟨⟨_, hheld.happen hlibrary henv (h := .move (.other .tick)) trivial htick⟩,
    hsent.mono holder (List.nil_append _).symm⟩

theorem Inv.shown_of_call (hlibrary : S.library = .vendored decodeDouble)
    (henv : S.env.Dated S.formatTimestamp) (hn : Inv S past n) {event : Event}
    (hevent : event ∈ n.server.world.history) {call : SendMessageCall}
    (hcall : call ∈ event.calls) {i : ι} {t m : Text}
    (hcarries : call.Carries (S.hosts.endpoint i) (reread t) (reread m)) {d : Datagram}
    (hsent : call.datagram S.library = some d) :
    d.address = S.hosts.address i ∧ d.port = S.hosts.port i ∧
      ∃ date k, S.formatTimestamp (S.env.time k) = some date ∧
        (n.Reaches S i d → n.happen S (.arrival i d) = .ok (n.withClient i
          { n.clients i with received := (n.clients i).received ++
            [Client.messageLine (reread t) date (reread m)] })) := by
  obtain ⟨date, hdate, hreceive⟩ := hn.receive_call hlibrary henv hevent hcall
  obtain ⟨_, _, _, k, -, -, -, hk, -⟩ := (hn.traced.calls _ hevent call hcall).published
  obtain ⟨descriptor, -, rfl⟩ := Option.map_eq_some_iff.mp hsent
  have hport : UInt16.ofInt call.port = S.hosts.port i := by
    rw [hcarries.port]
    exact S.hosts.ofInt_port i
  refine ⟨hcarries.address, hport, date, k, hk ▸ hdate, fun hreaches ↦ ?_⟩
  rw [happen_arrival hreaches, hreceive, hcarries.topicName, hcarries.message, reread_reread,
    reread_reread]

end

end Deployment

section

variable {ι : Type} [DecidableEq ι] {S : Setting ι} {decodeDouble : Text → Option Double}

/-- Once there is a subscriber and the request for a publish leaves room in the
buffers, the message is sent by the next tick, whatever happens before it, other
than a publish on the topic or an unsubscribe from it.  From then on it can arrive
at any time at a subscriber on the machine of the server, and is shown. -/
theorem published_message_is_shown (hlibrary : S.library = .vendored decodeDouble)
    (henv : S.env.Dated S.formatTimestamp) (hclock : S.env.NonDecreasing)
    (haccept : ∀ os : Os, (os.acquire S.env).1 ≠ none) {n : Deployment ι}
    (hn : (Deployment.system S).ReachableWhile (fun _ ↦ Deployment.Ordinary) n) {i j : ι}
    (haddress : S.hosts.address i = Client.messageAddress)
    {topicName message : Text} (hfilled : topicName ≠ [] ∧ message ≠ [])
    (hroom : width topicName + width message + 55 < bufferSize)
    (hsubscribed : n.server.world.HasSubscriber (S.hosts.endpoint i) (reread topicName))
    (hrunning : ¬ n.Ended j) (hleaving : (n.clients j).state.leaving = false)
    {between later : List (Happening ι)}
    (hbetween : ∀ h ∈ between, Deployment.Ordinary h ∧ h.Spares (reread topicName))
    (hlater : ∀ h ∈ later, Deployment.Ordinary h) {os : List Unit} {n' : Deployment ι}
    (hrun : (Deployment.system S).run n (.move (.call j (.publishTopic topicName message)) ::
      between ++ .move (.other .tick) :: later) = .ok (os, n')) :
    ∃ sent, n'.server.world.datagrams S.library = sent ++ n.server.world.datagrams S.library ∧
      ∃ d ∈ sent, d.address = S.hosts.address i ∧ d.port = S.hosts.port i ∧
        ∃ date k, S.formatTimestamp (S.env.time k) = some date ∧
          (¬ n'.Ended i → (n'.clients i).joined = false →
            n'.happen S (.arrival i d) = .ok (n'.withClient i
              { n'.clients i with received := (n'.clients i).received ++
                [Client.messageLine (reread topicName) date (reread message)] })) := by
  obtain ⟨past, hinv⟩ := Deployment.exists_inv hlibrary henv hn
  rw [List.append_cons] at hrun
  obtain ⟨_, ticked, _, hfirst, hlast⟩ := Transition.System.run_append_inv _ hrun
  obtain ⟨⟨past', hticked⟩, events, hevents, event, hevent, call, hcall, hcarries, hsocket⟩ :=
    hinv.sent_by_tick hlibrary henv hclock haccept hfilled hroom hrunning hleaving hsubscribed
      hbetween hfirst
  obtain ⟨⟨past', hend⟩, newer, hnewer⟩ := hticked.run_history hlibrary henv hlater hlast
  have hhistory : n'.server.world.history = (newer ++ events) ++ n.server.world.history := by
    rw [hnewer, hevents, List.append_assoc]
  have hdatagrams : n'.server.world.datagrams S.library =
      (newer ++ events).flatMap (·.datagrams S.library) ++
        n.server.world.datagrams S.library := by
    rw [World.datagrams, hhistory, List.flatMap_append]
    rfl
  have hnew : event ∈ newer ++ events := List.mem_append_right _ hevent
  have hknown : event ∈ n'.server.world.history := hhistory ▸ List.mem_append_left _ hnew
  obtain ⟨d, hd, hsent⟩ := Event.exists_datagram S.library hnew hcall hsocket
  have hd' : d ∈ n'.server.world.datagrams S.library := hdatagrams ▸ List.mem_append_left _ hd
  obtain ⟨hto, hport, date, k, hdate, hshown⟩ :=
    hend.shown_of_call hlibrary henv hknown hcall hcarries hsent
  exact ⟨_, hdatagrams, d, hd, hto, hport, date, k, hdate, fun hrunning hjoined ↦
    hshown ⟨⟨hrunning, hjoined, haddress⟩, hd', hto, hport⟩⟩

/-- Somebody else asks for the list of the topics before the tick. -/
theorem published_message_is_shown_after_list :
    let S := Setting.twoClients
    let programs := Deployment.system S
    let n := programs.final [.move (.call true (.subscribeTopic (ascii "news")))]
    ∃ os n', programs.run n [.move (.call false (.publishTopic (ascii "news") (ascii "Hello"))),
        .move (.call true .listTopics), .move (.other .tick)] = .ok (os, n') ∧
      ∃ sent, n'.server.world.datagrams S.library = sent ++ n.server.world.datagrams S.library ∧
        ∃ d ∈ sent, d.address = S.hosts.address true ∧ d.port = S.hosts.port true ∧
          ∃ date k, S.formatTimestamp (S.env.time k) = some date ∧
            (¬ n'.Ended true → (n'.clients true).joined = false →
              n'.happen S (.arrival true d) = .ok (n'.withClient true
                { n'.clients true with received := (n'.clients true).received ++
                  [Client.messageLine (reread (ascii "news")) date
                    (reread (ascii "Hello"))] })) := by
  intro S programs n
  have hordinary : ∀ h ∈ [Happening.move (.call true (.subscribeTopic (ascii "news")))],
      Deployment.Ordinary h := by
    rw [List.forall_mem_singleton]
    exact ⟨by decide +kernel, by rintro _ _ ⟨⟩⟩
  have hn : programs.ReachableWhile (fun _ ↦ Deployment.Ordinary) n :=
    programs.reachableWhile_final (programs.meets_of_forall (fun h hh _ ↦ hordinary h hh) _)
  have hbetween : ∀ h ∈ [Happening.move (.call true ClientOperation.listTopics)],
      Deployment.Ordinary h ∧ h.Spares (reread (ascii "news")) := by
    rw [List.forall_mem_singleton]
    exact ⟨⟨by rintro _ ⟨⟩, by rintro _ _ ⟨⟩⟩, trivial⟩
  have hran : (programs.run n [.move (.call false (.publishTopic (ascii "news") (ascii "Hello"))),
      .move (.call true .listTopics), .move (.other .tick)]).map (fun _ ↦ ()) = .ok () := by
    decide +kernel
  obtain ⟨⟨os, n'⟩, hrun, -⟩ := of_map_eq_ok hran
  have haccept : ∀ os : Os, (os.acquire S.env).1 ≠ none := fun os ↦ by
    simp [Os.acquire, S, Setting.twoClients]
  have hsubscribed : n.server.world.HasSubscriber (S.hosts.endpoint true)
      (reread (ascii "news")) := by
    decide +kernel
  have hcalls : ¬ n.Ended false ∧ (n.clients false).state.leaving = false := by decide +kernel
  have hroom : width (ascii "news") + width (ascii "Hello") + 55 < bufferSize := by decide +kernel
  exact ⟨os, n', hrun, published_message_is_shown rfl Setting.dated_twoClients (fun _ _ _ ↦ le_rfl)
    haccept hn rfl (by decide +kernel) hroom hsubscribed hcalls.1 hcalls.2 hbetween
    (List.forall_mem_nil _) hrun⟩

end

end PublisherSubscriber
