import PublisherSubscriber.Guarantees.Deployment
import PublisherSubscriber.Guarantees.Segments

/-!
# The programs as a network

As long as every client is running and no system call of a client fails, the
server and the lists of the clients change as the network has it.  Its conditions
on the library are facts about the vendored one, so what holds of the lists there
holds of the programs.
-/

namespace PublisherSubscriber

open PointerHeap OurReader

/-! ## What is sent in one step -/

namespace Broker

variable {env : Environment} {b c : Broker}

/-- A handler sends nothing. -/
theorem events_handle {q : Request} {r : Response} (h : b.handle env q = .ok (r, c)) :
    ∃ events, c.history = events ++ b.history ∧ ∀ event ∈ events, event.calls = [] := by
  have hnone : ∃ events, b.history = events ++ b.history ∧ ∀ event ∈ events, event.calls = [] :=
    ⟨[], rfl, fun event hevent ↦ absurd hevent List.not_mem_nil⟩
  cases q with
  | subscribe ipAddress port topicName =>
      have hc : b.subscribe env ⟨ipAddress, port⟩ topicName = (r, c) := Except.ok.inj h
      have hhistory : c.history = (b.findOrAddTopic env topicName).2.history := by
        rcases b.subscribe_cases env ⟨ipAddress, port⟩ topicName with
          ⟨-, hsubscribe⟩ | ⟨-, hsubscribe⟩ <;> rw [hc] at hsubscribe <;>
          rw [(Prod.mk.inj hsubscribe).2]
        · exact history_connect _ _
        · exact history_connect _ _
      rw [hhistory]
      rcases b.findOrAddTopic_cases env topicName with ⟨-, hadd⟩ | ⟨v, -, hadd⟩ <;> rw [hadd]
      · exact ⟨[.created (some b.allocated) topicName], rfl, by simp [Event.calls]⟩
      · exact hnone
  | unsubscribe ipAddress port topicName =>
      rcases unsubscribe_cases h with ⟨-, rfl, -⟩ | ⟨v, -, hrelease, -⟩
      · exact hnone
      · have hhistory : c.history = b.history := by
          have hdropped : (b.dropFirst v).history = b.history := by
            rcases b.dropFirst_cases v with ⟨-, hdrop⟩ | ⟨-, hdrop⟩ <;> rw [hdrop]
            rfl
          rcases releaseConnection_cases hrelease with ⟨rfl, -⟩ | ⟨-, rfl⟩ <;> exact hdropped
        rwa [hhistory]
  | publish topicName message =>
      have hc : b.publish env topicName message = (r, c) := Except.ok.inj h
      rcases b.publish_cases env topicName message with ⟨-, hpublish⟩ | ⟨v, -, hpublish⟩ <;>
        rw [hc] at hpublish <;> obtain ⟨-, rfl⟩ := Prod.mk.inj hpublish
      · exact hnone
      · exact ⟨[_], rfl, by simp [Event.calls]⟩
  | listTopics =>
      cases h
      exact hnone
  | getTopicStatus topicName =>
      cases h
      exact hnone

/-- A tick sends only to the subscribers of a topic. -/
theorem Inv.events_tick (h : b.Inv) (env : Environment) :
    ∃ events, (b.tick env).history = events ++ b.history ∧ ∀ event ∈ events,
      ∀ call ∈ event.calls, b.Has ⟨call.address, call.port⟩ call.topicName := by
  obtain ⟨news, hhistory, hnews⟩ := h.history_tick env
  refine ⟨news.reverse, hhistory, fun event hevent call hcall ↦ ?_⟩
  obtain ⟨v, hv, os, -, rfl⟩ :=
    exists_mem_of_forall₂ hnews.flip (List.mem_reverse.mp hevent)
  obtain ⟨now, calls, reset, hcheck, hcalls⟩ := exists_checkEvent env v os
  rw [hcheck] at hcall
  obtain ⟨-, hendpoints, hcontent⟩ := hcalls (List.ne_nil_of_mem hcall)
  refine ⟨v, hv, (hcontent call hcall).1.symm, ?_⟩
  rw [← hendpoints]
  exact List.mem_map_of_mem (f := fun call ↦ (⟨call.address, call.port⟩ : Endpoint)) hcall

end Broker

theorem Process.events_step {env : Environment} {library : JsonLibrary}
    {indeterminate topicTimeout : ℤ} {p p' : Process} (hp : p.Sound) {o : Occurrence}
    {reply : Option (Response × Text)}
    (h : (system env library indeterminate topicTimeout).step p o = .ok (reply, p')) :
    ∃ events, p'.world.history = events ++ p.world.history ∧ ∀ event ∈ events,
      ∀ call ∈ event.calls, p.world.HasSubscriber ⟨call.address, call.port⟩ call.topicName := by
  have hnone : ∃ events, p.world.history = events ++ p.world.history ∧ ∀ event ∈ events,
      ∀ call ∈ event.calls, p.world.HasSubscriber ⟨call.address, call.port⟩ call.topicName :=
    ⟨[], rfl, fun event hevent ↦ absurd hevent List.not_mem_nil⟩
  cases o with
  | tick =>
      obtain ⟨w', -, rfl, -, hview, -⟩ := tick_inv hp h
      obtain ⟨events, hhistory, hevents⟩ := hp.world.inv.events_tick env
      rw [← hview] at hhistory
      exact ⟨events, hhistory, fun event hevent call hcall ↦
        World.has_view.mp (hevents event hevent call hcall)⟩
  | connection clientIpAddress received bytesSent =>
      rcases Server.acceptClient_inv h with
        ⟨os, -, rfl⟩ | ⟨os, os', receivedData, r, answered, rfl, hanswer, -, rfl⟩
      · exact hnone
      · rcases (Server.answer_inv (hp.withOs os) hanswer).2 with hworld | ⟨q, -, hhandle⟩
        · show ∃ events, answered.world.history = _ ∧ _
          rw [hworld]
          exact hnone
        · have hbroker := (Server.view_handle env (hp.withOs os).world hhandle).1
          obtain ⟨events, hhistory, hevents⟩ := Broker.events_handle hbroker
          refine ⟨events, hhistory, fun event hevent call hcall ↦ ?_⟩
          rw [hevents event hevent] at hcall
          exact absurd hcall List.not_mem_nil

/-! ## What the vendored library reads back -/

section

variable {decodeDouble : Text → Option Double}

theorem JsonLibrary.readsStatus_vendored : (vendored decodeDouble).ReadsStatus := by
  intro s hs
  obtain ⟨hlower, hupper⟩ := Statuscode.toInt_bounds hs
  have hreadable : (Json.ofMembers [(ascii "statusCode", .int s.toInt)]).Readable decodeDouble 0 :=
    (Json.readableMembers_nil.assign Response.plainName_statusCode
      (Json.readable_int (by decide) hlower hupper)).readable (by decide)
  have hread := parse_vendored hreadable
  have hnamed : Json.Named [(ascii "statusCode", .int s.toInt)] :=
    Json.named_nil.assign Response.plainName_statusCode _
  rwa [Json.reread_ofMembers hnamed, Json.rereadValues, List.map_singleton, Json.reread] at hread

/-- The request of a method with valid texts is read as it was written. -/
theorem ClientOperation.readsBack_sent {op : ClientOperation}
    (hvalid : ∀ t ∈ op.texts, ValidText t) (port : ℤ) :
    (JsonLibrary.vendored decodeDouble).ReadsBack (op.sent port).toJson := by
  have hnamed : (op.sent port).commandIdentifier.IsNamed := op.isNamed_sent
  obtain ⟨hlower, hupper⟩ := CommandIdentifiers.toInt_bounds hnamed
  have hread := JsonLibrary.parse_vendored (Command.readable_toJson decodeDouble hlower hupper)
  rwa [Command.toJson_reread, sent_reread, op.reread_eq_self hvalid] at hread

end

/-! ## The deployment in step with the network -/

section

variable {ι : Type}

def Happening.toMove : Happening ι → Option (Move ι)
  | .move m => some m
  | .unsent _ _ => none
  | .late _ _ => none
  | .arrival _ _ => none
  | .join _ => none

/-- Every request leaves, and the server does not come back to a connection that it
refused. -/
def Happening.Prompt : Happening ι → Prop
  | .move _ => True
  | .unsent _ _ => False
  | .late _ _ => False
  | .arrival _ _ => True
  | .join _ => True

/-- The server and its clients with their lists, without message threads, buffers and
failures. -/
def Setting.network [DecidableEq ι] (S : Setting ι) :
    Transition.System (Network ι) (Move ι) (Except CppException Unit) Fault :=
  Network.system S.env S.library S.indeterminate S.topicTimeout S.hosts

/-- The message thread leaves the list alone. -/
theorem ClientProcess.state_receive (S : Setting ι) (client : ClientProcess) (payload : Text) :
    (client.receive S payload).state = client.state := by
  unfold receive
  split
  · rfl
  · split <;> rfl

namespace Deployment

/-- The request of a method has room in the buffer of the server. -/
def Fits (S : Setting ι) (h : Happening ι) : Prop :=
  ∀ m ∈ h.toMove, ∀ performed ∈ m.method,
    (performed.2.requestText (S.hosts.port performed.1).toNat).length ≤ bufferSize

instance (S : Setting ι) : DecidablePred (Fits S) := fun h ↦
  inferInstanceAs (Decidable (∀ m ∈ h.toMove, ∀ performed ∈ m.method,
    (performed.2.requestText (S.hosts.port performed.1).toNat).length ≤ bufferSize))

variable [DecidableEq ι] {S : Setting ι} {n n' : Deployment ι}

@[simp] theorem network_withClient (n : Deployment ι) (i : ι) (client : ClientProcess) :
    (n.withClient i client).network = n.network.withClient i client.state := by
  have hclients : ∀ j, ((n.withClient i client).clients j).state =
      (n.network.withClient i client.state).clients j := by
    intro j
    by_cases hji : j = i
    · subst hji
      rw [clients_withClient_self, Network.clients_withClient_self]
    · rw [clients_withClient_ne n hji, Network.clients_withClient_ne _ hji]
      rfl
  exact congrArg (Network.mk n.server) (funext hclients)

theorem requestUnsent_clients_ne (n : Deployment ι) {i : ι} (op : ClientOperation)
    (call : SendingCall) {j : ι} (hji : j ≠ i) :
    (n.requestUnsent S i op call).clients j = n.clients j :=
  clients_withClient_ne n hji _

theorem serveLate_clients {i : ι} {message : Text} (h : n.serveLate S i message = .ok n') :
    n'.clients = n.clients := by
  obtain ⟨served, -, rfl⟩ := of_map_eq_ok h
  rfl

theorem request_clients_ne {i : ι} {op : ClientOperation} (h : n.request S i op = .ok n') {j : ι}
    (hji : j ≠ i) : n'.clients j = n.clients j := by
  unfold request at h
  dsimp only at h
  split at h
  · obtain rfl := Except.ok.inj h
    exact clients_withClient_ne n hji _
  · obtain ⟨served, -, rfl⟩ := of_map_eq_ok h
    exact clients_withClient_ne n hji _

/-- Nothing happens any more to a client that has ended. -/
theorem clients_of_ended {j : ι} (hended : n.Ended j) {h : Happening ι}
    (hstep : n.happen S h = .ok n') : n'.clients j = n.clients j := by
  have hother : ∀ i, ¬ n.Ended i → j ≠ i := by
    rintro i hrunning rfl
    exact hrunning hended
  cases h with
  | arrival i d =>
      rcases happen_arrival_cases hstep with ⟨hreaches, rfl⟩ | rfl
      · exact clients_withClient_ne n (hother i hreaches.1.1) _
      · rfl
  | join i =>
      rcases happen_join_cases hstep with ⟨hleft, rfl⟩ | rfl
      · exact clients_withClient_ne n (hother i hleft.1) _
      · rfl
  | late i message =>
      rcases happen_late_cases hstep with ⟨-, hserved⟩ | rfl
      · rw [serveLate_clients hserved]
      · rfl
  | unsent m call =>
      rcases happen_unsent_cases hstep with ⟨i, op, hrunning, -, rfl⟩ | rfl
      · exact requestUnsent_clients_ne n op call (hother i hrunning)
      · rfl
  | move m =>
      rcases happen_move_cases hstep with
        ⟨i, op, hrunning, -, hrequest⟩ | ⟨i, hrunning, rfl⟩ | ⟨o, reply, p, -, -, rfl⟩ | rfl
      · exact request_clients_ne hrequest (hother i hrunning)
      · exact clients_withClient_ne n (hother i hrunning) _
      · rfl
      · rfl

theorem running_of_happen {h : Happening ι} (hstep : n.happen S h = .ok n')
    (hrunning : ∀ i, ¬ n'.Ended i) (i : ι) : ¬ n.Ended i := by
  intro hended
  apply hrunning i
  rwa [Ended, clients_of_ended hended hstep]

variable {decodeDouble : Text → Option Double} {past : List (Happening ι)}

/-- A client that is still running afterwards has had a reply it could show, or none. -/
theorem Inv.perform (hlibrary : S.library = .vendored decodeDouble)
    (henv : S.env.Dated S.formatTimestamp) (hn : Inv S past n) {i : ι} {op : ClientOperation}
    (hfilled : ∀ t ∈ op.texts, t ≠ [])
    (hfits : (op.requestText (S.hosts.port i).toNat).length ≤ bufferSize)
    (h : n.request S i op = .ok n') (hrunning : ¬ n'.Ended i) :
    n.network.perform S.env S.library S.indeterminate S.topicTimeout S.hosts i op =
      .ok (.ok (), n'.network) := by
  obtain ⟨d, hbuilt, -⟩ := op.builds_command (hn.clients i).dictionaries (S.hosts.port i).toNat
  have hserialize : (op.sent (S.hosts.port i).toNat).serialize S.library =
      .ok (op.requestText (S.hosts.port i).toNat) := by
    rw [hlibrary]
    exact ClientOperation.serialize_sent hfilled
  simp only [Deployment.request, hbuilt, hserialize] at h
  obtain ⟨served, hserve, rfl⟩ := of_map_eq_ok h
  obtain ⟨⟨reply, p⟩, hstep, rfl⟩ := of_map_eq_ok hserve
  have hreplied := hn.replied hlibrary henv hfilled hstep
  rw [Server.recv_singleton hfits] at hstep
  have hreceive : Client.receive S.library (op.sent (S.hosts.port i).toNat).commandIdentifier
      reply = .ok () := by
    rcases hreplied with rfl | ⟨r, rfl, hreply, -⟩
    · rfl
    · obtain ⟨s, hread, -⟩ := Server.deserialize_reply decodeDouble S.indeterminate hreply
      rw [← hlibrary] at hread
      rw [Client.receive, hread]
  have hperform : n.network.perform S.env S.library S.indeterminate S.topicTimeout S.hosts i op =
      .ok (.ok (), { n.network.withClient i
        (({ (n.clients i).state with dictionaries := d } : ClientState).after op) with
          server := p }) := by
    simp only [Network.perform, network, hbuilt, hserialize, hstep, Except.map, hreceive]
  rw [hperform]
  rcases ClientProcess.finish_cases hlibrary
    { n.clients i with state := { (n.clients i).state with dictionaries := d } } hfilled
      hreplied with hfinish | ⟨line, hfinish⟩
  · exfalso
    apply hrunning
    rw [hfinish]
    show (({ n.withClient i _ with server := p } : Deployment ι).clients i).ending ≠ none
    rw [show ({ n.withClient i _ with server := p } : Deployment ι).clients i = _ from
      clients_withClient_self n i _]
    simp
  · rw [hfinish]
    have hclients := congrArg Network.clients (network_withClient n i
      { n.clients i with
        state := ({ (n.clients i).state with dictionaries := d } : ClientState).after op
        shown := (n.clients i).shown ++ [line] })
    exact congrArg (fun clients ↦ Except.ok (Except.ok (), (⟨p, clients⟩ : Network ι)))
      hclients.symm

/-- A happening after which every client is running is a move of the network, or no
change to it. -/
theorem Inv.leads (hlibrary : S.library = .vendored decodeDouble)
    (henv : S.env.Dated S.formatTimestamp) (hn : Inv S past n) {h : Happening ι}
    (hh : Ordinary h) (hfits : Fits S h) (hprompt : h.Prompt) (hstep : n.happen S h = .ok n')
    (hrunning : ∀ i, ¬ n'.Ended i) :
    (∀ i, ¬ n.Ended i) ∧ S.network.Leads n.network h.toMove n'.network := by
  have hbefore := running_of_happen hstep hrunning
  refine ⟨hbefore, ?_⟩
  cases h with
  | arrival i d =>
      rcases happen_arrival_cases hstep with ⟨-, rfl⟩ | rfl
      · show (n.withClient i _).network = n.network
        rw [network_withClient, ClientProcess.state_receive]
        exact congrArg (Network.mk n.server) (Function.update_eq_self i _)
      · rfl
  | join i =>
      rcases happen_join_cases hstep with ⟨-, rfl⟩ | rfl
      · show (n.withClient i _).network = n.network
        rw [network_withClient]
        exact congrArg (Network.mk n.server) (Function.update_eq_self i _)
      · rfl
  | late i message => exact hprompt.elim
  | unsent m call => exact hprompt.elim
  | move m =>
      have hnone : ¬ ∃ i ∈ m.client, n.Ended i := by
        rintro ⟨i, -, hended⟩
        exact hbefore i hended
      unfold Deployment.happen at hstep
      dsimp only at hstep
      rw [if_neg hnone] at hstep
      show ∃ o, n.network.move S.env S.library S.indeterminate S.topicTimeout S.hosts m =
        .ok (o, n'.network)
      unfold Network.move
      cases hoperation : n.network.operation m with
      | some performed =>
          obtain ⟨i, op⟩ := performed
          rw [hoperation] at hstep
          have hfilled := (hn.asked_of_operation hh hoperation).2.filled
          have hroom := hfits m rfl _ (Network.method_of_operation hoperation)
          exact ⟨_, hn.perform hlibrary henv hfilled hroom hstep (hrunning i)⟩
      | none =>
          rw [hoperation] at hstep
          cases m with
          | terminate i =>
              obtain rfl := Except.ok.inj hstep
              refine ⟨.ok (), ?_⟩
              rw [network_withClient]
              rfl
          | other o =>
              obtain ⟨served, hserved, rfl⟩ := of_map_eq_ok hstep
              exact ⟨.ok (), by simp only [hserved, network, Except.map]⟩
          | call i op =>
              obtain rfl := Except.ok.inj hstep
              exact ⟨_, rfl⟩
          | unsubscribeFront i t =>
              obtain rfl := Except.ok.inj hstep
              exact ⟨_, rfl⟩

/-- What the server sends, it sends to its subscribers. -/
theorem events_happen (hn : n.server.Sound) {h : Happening ι} (hstep : n.happen S h = .ok n') :
    ∃ events, n'.server.world.history = events ++ n.server.world.history ∧ ∀ event ∈ events,
      ∀ call ∈ event.calls,
        n.server.world.HasSubscriber ⟨call.address, call.port⟩ call.topicName := by
  have hsame : n'.server = n.server → ∃ events,
      n'.server.world.history = events ++ n.server.world.history ∧ ∀ event ∈ events,
        ∀ call ∈ event.calls,
          n.server.world.HasSubscriber ⟨call.address, call.port⟩ call.topicName := by
    intro hserver
    rw [hserver]
    exact ⟨[], rfl, fun event hevent ↦ absurd hevent List.not_mem_nil⟩
  cases h with
  | arrival i d =>
      rcases happen_arrival_cases hstep with ⟨-, rfl⟩ | rfl
      · exact hsame rfl
      · exact hsame rfl
  | join i =>
      rcases happen_join_cases hstep with ⟨-, rfl⟩ | rfl
      · exact hsame rfl
      · exact hsame rfl
  | unsent m call =>
      rcases happen_unsent_cases hstep with ⟨i, op, -, -, rfl⟩ | rfl
      · exact hsame rfl
      · exact hsame rfl
  | late i message =>
      rcases happen_late_cases hstep with ⟨-, hlate⟩ | rfl
      · obtain ⟨served, hserve, rfl⟩ := of_map_eq_ok hlate
        obtain ⟨⟨reply, p⟩, hserved, rfl⟩ := of_map_eq_ok hserve
        exact Process.events_step hn hserved
      · exact hsame rfl
  | move m =>
      rcases happen_move_cases hstep with
        ⟨i, op, -, -, hrequest⟩ | ⟨i, -, rfl⟩ | ⟨o, reply, p, -, hserved, rfl⟩ | rfl
      · unfold request at hrequest
        dsimp only at hrequest
        split at hrequest
        · obtain rfl := Except.ok.inj hrequest
          exact hsame rfl
        · obtain ⟨served, hserve, rfl⟩ := of_map_eq_ok hrequest
          obtain ⟨⟨reply, p⟩, hserved, rfl⟩ := of_map_eq_ok hserve
          exact Process.events_step hn hserved
      · exact hsame rfl
      · exact Process.events_step hn hserved
      · exact hsame rfl

end Deployment

/-! ## Clients that left -/

/-- A client that left is never on its own list again. -/
theorem Network.Sound.left {n n' : Network ι} [DecidableEq ι] {env : Environment}
    {library : JsonLibrary} {indeterminate topicTimeout : ℤ} {H : Hosts ι}
    (hstatus : library.ReadsStatus) (hn : n.Sound) {m : Move ι}
    (hdelivers : n.Delivers env library H m) {o : Except CppException Unit}
    (h : n.move env library indeterminate topicTimeout H m = .ok (o, n')) {i : ι}
    (hleft : n.Left i) : n'.Left i := by
  rcases Network.move_cases h with ⟨j, op, hoperation, hperform⟩ | ⟨-, hrest⟩
  · have hij : i ≠ j := by
      rintro rfl
      cases m with
      | call k op' =>
          rw [operation] at hoperation
          split_ifs at hoperation with hleaving
          obtain ⟨rfl, -⟩ := Prod.mk.inj (Option.some.inj hoperation)
          exact hleaving hleft.1
      | unsubscribeFront k t =>
          rw [operation] at hoperation
          split_ifs at hoperation with hfront
          obtain ⟨rfl, -⟩ := Prod.mk.inj (Option.some.inj hoperation)
          rw [hleft.2] at hfront
          cases hfront.2
      | terminate k => cases hoperation
      | other occurrence => cases hoperation
    have hothers := (perform_inv hstatus hn (hdelivers.accepted _ hoperation)
      (hdelivers.read _ hoperation) hperform).2.1
    rwa [Left, hothers i hij]
  · rcases hrest with ⟨j, rfl⟩ | ⟨occurrence, reply, p, -, -, rfl⟩ | rfl
    · by_cases hij : i = j
      · subst hij
        rw [Left, clients_withClient_self]
        exact ⟨rfl, hleft.2⟩
      · rwa [Left, clients_withClient_ne n hij]
    · exact hleft
    · exact hleft

end

namespace Deployment

section

variable {ι : Type}

/-- The methods are called with valid texts and get through to the server, and no
unsubscribe takes the place of another client. -/
structure Undisturbed (S : Setting ι) (n : Deployment ι) (h : Happening ι) : Prop where
  ordinary : Ordinary h
  fits : Fits S h
  prompt : h.Prompt
  valid : ∀ m ∈ h.toMove, ∀ performed ∈ m.method, ∀ t ∈ performed.2.texts, ValidText t
  accepted : ∀ m ∈ h.toMove, ∀ performed ∈ n.network.operation m,
    (n.server.world.os.acquire S.env).1 ≠ none
  firstLeaves : ∀ m ∈ h.toMove, n.network.FirstLeaves S.hosts m

/-- If every client is running, the lists of the clients and of the server agree. -/
structure Settled (S : Setting ι) (n : Deployment ι) : Prop where
  inv : ∃ past, Inv S past n
  agrees : (∀ i, ¬ n.Ended i) → n.network.Agrees S.hosts

variable {S : Setting ι} {n n' : Deployment ι} {decodeDouble : Text → Option Double}

theorem Undisturbed.delivers (hlibrary : S.library = .vendored decodeDouble) {m : Move ι}
    (h : Undisturbed S n (.move m)) : n.network.Delivers S.env S.library S.hosts m where
  accepted := h.accepted m rfl
  read performed hperformed := by
    rw [hlibrary]
    exact ClientOperation.readsBack_sent
      (h.valid m rfl performed (Network.method_of_operation hperformed)) _
  others o hm := by
    subst hm
    have hordinary := h.ordinary
    cases o with
    | tick => trivial
    | connection ipAddress received bytesSent =>
        obtain rfl : received = none := hordinary
        trivial

variable [DecidableEq ι]

section

variable (hlibrary : S.library = .vendored decodeDouble)
  (henv : S.env.Dated S.formatTimestamp) (hn : Settled S n) {h : Happening ι}
  (hh : Undisturbed S n h) (hstep : n.happen S h = .ok n')

include hlibrary henv hn hh hstep

theorem Settled.happen : Settled S n' := by
  obtain ⟨past, hinv⟩ := hn.inv
  refine ⟨⟨_, hinv.happen hlibrary henv hh.ordinary hstep⟩, fun hrunning ↦ ?_⟩
  obtain ⟨hbefore, hleads⟩ :=
    hinv.leads hlibrary henv hh.ordinary hh.fits hh.prompt hstep hrunning
  cases h with
  | arrival i d =>
      rw [show n'.network = n.network from hleads]
      exact hn.agrees hbefore
  | join i =>
      rw [show n'.network = n.network from hleads]
      exact hn.agrees hbefore
  | late i message => exact hh.prompt.elim
  | unsent m call => exact hh.prompt.elim
  | move m =>
      obtain ⟨o, hmove⟩ := hleads
      exact (hn.agrees hbefore).move (hlibrary ▸ JsonLibrary.readsStatus_vendored)
        (hh.delivers hlibrary) (hh.firstLeaves m rfl) hmove

/-- What is sent in a step does not go to a client that left. -/
theorem Settled.left (hrunning : ∀ i, ¬ n'.Ended i) {i : ι} (hleft : n.network.Left i) :
    n'.network.Left i ∧ ∃ events, n'.server.world.history = events ++ n.server.world.history ∧
      ∀ event ∈ events, ∀ call ∈ event.calls,
        (⟨call.address, call.port⟩ : Endpoint) ≠ S.hosts.endpoint i := by
  obtain ⟨past, hinv⟩ := hn.inv
  obtain ⟨hbefore, hleads⟩ :=
    hinv.leads hlibrary henv hh.ordinary hh.fits hh.prompt hstep hrunning
  have hagrees := hn.agrees hbefore
  constructor
  · cases h with
    | arrival j d =>
        rwa [show n'.network = n.network from hleads]
    | join j =>
        rwa [show n'.network = n.network from hleads]
    | late j message => exact hh.prompt.elim
    | unsent m call => exact hh.prompt.elim
    | move m =>
        obtain ⟨o, hmove⟩ := hleads
        exact hagrees.toSound.left (hlibrary ▸ JsonLibrary.readsStatus_vendored)
          (hh.delivers hlibrary) hmove hleft
  · obtain ⟨events, hhistory, hevents⟩ := events_happen hinv.server hstep
    refine ⟨events, hhistory, fun event hevent call hcall hsame ↦ ?_⟩
    have hlisted := (hagrees.inStep i call.topicName).mpr
      (hsame ▸ hevents event hevent call hcall)
    rw [hleft.2] at hlisted
    exact List.not_mem_nil hlisted

end

end

end Deployment

section

variable {ι : Type} [DecidableEq ι] {S : Setting ι} {decodeDouble : Text → Option Double}

/-- A run of the programs in which every request leaves and fits, and after which every
client is running, is a run of the network, without the arrivals of datagrams. -/
theorem programs_run_as_network (hlibrary : S.library = .vendored decodeDouble)
    (henv : S.env.Dated S.formatTimestamp) {happenings : List (Happening ι)}
    (hordinary : ∀ h ∈ happenings, Deployment.Ordinary h ∧ Deployment.Fits S h ∧ h.Prompt)
    {os : List Unit} {n : Deployment ι}
    (hrun : (Deployment.system S).run (Deployment.system S).start happenings = .ok (os, n))
    (hrunning : ∀ i, ¬ n.Ended i) :
    ∃ answers, S.network.run S.network.start (happenings.filterMap Happening.toMove) =
      .ok (answers, n.network) := by
  have hstep : ∀ past n h (o : Unit) n', Deployment.Inv S past n →
      Deployment.Ordinary h ∧ Deployment.Fits S h ∧ h.Prompt →
        (Deployment.system S).step n h = .ok (o, n') →
        Deployment.Inv S (h :: past) n' ∧ ((∀ i, ¬ n'.Ended i) → (∀ i, ¬ n.Ended i) ∧
          S.network.Leads n.network h.toMove n'.network) := by
    intro past n h o n' hn hh hstep
    have hhappen := Deployment.happen_of_step hstep
    exact ⟨hn.happen hlibrary henv hh.1 hhappen,
      hn.leads hlibrary henv hh.1 hh.2.1 hh.2.2 hhappen⟩
  exact (Transition.System.run_image hstep Deployment.inv_start hordinary hrun hrunning).2

/-- Two clients subscribe to a topic and publish on it. -/
theorem programs_run_as_network_oneTopic :
    let S := Setting.twoClients
    ∃ os n answers, (Deployment.system S).run (Deployment.system S).start Happening.oneTopic =
        .ok (os, n) ∧
      S.network.run S.network.start (Happening.oneTopic.filterMap Happening.toMove) =
        .ok (answers, n.network) := by
  intro S
  have hrun : ((Deployment.system S).run (Deployment.system S).start Happening.oneTopic).map
      (fun r ↦ decide (∀ i, ¬ r.2.Ended i)) = .ok true := by
    decide +kernel
  obtain ⟨⟨os, n⟩, hrun, hrunning⟩ := of_map_eq_ok hrun
  have hfits : ∀ h ∈ Happening.oneTopic, Deployment.Fits S h := by decide +kernel
  have hprompt : ∀ h ∈ Happening.oneTopic, h.Prompt := by
    simp [Happening.oneTopic, Happening.Prompt]
  obtain ⟨answers, hanswers⟩ := programs_run_as_network rfl Setting.dated_twoClients
    (fun h hh ↦ ⟨Happening.ordinary_oneTopic h hh, hfits h hh, hprompt h hh⟩) hrun
      (by simpa using hrunning)
  exact ⟨os, n, answers, hrun, hanswers⟩

end

end PublisherSubscriber
