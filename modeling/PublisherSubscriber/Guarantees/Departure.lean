import PublisherSubscriber.Broker.Replies
import PublisherSubscriber.Client.Network
import PublisherSubscriber.Guarantees.Subscriptions

/-!
# Clients that leave

The lists of the clients and the lists of the server tell the same as long as
no unsubscribe takes the place of another client.
-/

namespace PublisherSubscriber

open PointerHeap

/-! ## What a request changes -/

namespace Request

/-- Whether `e` is subscribed to `t` after the request, if `had` tells it before. -/
def After (q : Request) (e : Endpoint) (t : Text) (had : Prop) : Prop :=
  match q with
  | .subscribe ipAddress port topicName => had ∨ e = ⟨ipAddress, port⟩ ∧ t = topicName
  | .unsubscribe ipAddress port topicName => had ∧ ¬ (e = ⟨ipAddress, port⟩ ∧ t = topicName)
  | .publish _ _ => had
  | .listTopics => had
  | .getTopicStatus _ => had

def IsSubscription : Request → Prop
  | .subscribe _ _ _ => True
  | .unsubscribe _ _ _ => True
  | .publish _ _ => False
  | .listTopics => False
  | .getTopicStatus _ => False

theorem after_of_not_isSubscription {q : Request} (h : ¬ q.IsSubscription) (e : Endpoint)
    (t : Text) (had : Prop) : q.After e t had ↔ had := by
  cases q with
  | subscribe => exact absurd trivial h
  | unsubscribe => exact absurd trivial h
  | publish => rfl
  | listTopics => rfl
  | getTopicStatus => rfl

end Request

namespace Broker

theorem Inv.has_handle {b c : Broker} (h : b.Inv) {env : Environment} {q : Request} {r : Response}
    (hhandle : b.handle env q = .ok (r, c)) (hfirst : b.FirstLeaves (.request q)) (e : Endpoint)
    (t : Text) : c.Has e t ↔ q.After e t (b.Has e t) := by
  cases q with
  | subscribe ipAddress port topicName =>
      have hc : b.subscribe env ⟨ipAddress, port⟩ topicName = (r, c) := Except.ok.inj hhandle
      have hhas := h.has_subscribe env ⟨ipAddress, port⟩ topicName e t
      rwa [hc] at hhas
  | unsubscribe ipAddress port topicName =>
      rcases h.has_unsubscribe hhandle with ⟨hfind, rfl, -⟩ | ⟨v, hv, hname, first, hhead, -, hleft⟩
      · refine (and_iff_left_of_imp ?_).symm
        rintro ⟨v, hv, rfl, -⟩ ⟨-, hname⟩
        exact find_eq_none_iff.mp hfind v hv hname
      · obtain rfl := Option.some.inj (hhead.symm.trans (hfirst v hv hname))
        exact hleft e t
  | publish topicName message =>
      have hc : b.publish env topicName message = (r, c) := Except.ok.inj hhandle
      have hhas := has_publish b env topicName message e t
      rwa [hc] at hhas
  | listTopics =>
      cases hhandle
      rfl
  | getTopicStatus topicName =>
      cases hhandle
      rfl

end Broker

namespace Server

variable {env : Environment} {w w' : World} {q : Request} {r : Response}

theorem hasSubscriber_handle (hw : w.Sound) (h : (handle env q).run w = .ok (r, w'))
    (hfirst : w.FirstLeaves (.request q)) (e : Endpoint) (t : Text) :
    w'.HasSubscriber e t ↔ q.After e t (w.HasSubscriber e t) := by
  have hhas := hw.inv.has_handle (view_handle env hw h).1
    ((World.firstLeaves_view _).mpr hfirst) e t
  simpa only [World.has_view] using hhas

/-- The first subscriber of the topic is gone, whoever asked. -/
theorem hasSubscriber_unsubscribe (hw : w.Sound) {ipAddress : Text} {port : ℤ} {topicName : Text}
    (h : (handle env (.unsubscribe ipAddress port topicName)).run w = .ok (r, w'))
    (hfirst : ¬ w.FirstLeaves (.request (.unsubscribe ipAddress port topicName))) :
    ∃ e, e ≠ ⟨ipAddress, port⟩ ∧ w.HasSubscriber e topicName ∧ ¬ w'.HasSubscriber e topicName := by
  have hbroker := (view_handle env hw h).1
  rw [← World.firstLeaves_view] at hfirst
  rcases hw.inv.has_unsubscribe hbroker with ⟨hfind, -⟩ | ⟨v, hv, hname, first, hhead, -, hleft⟩
  · exact absurd (fun v hv hname ↦ (Broker.find_eq_none_iff.mp hfind v hv hname).elim) hfirst
  · refine ⟨first, ?_, World.has_view.mp ⟨v, hv, hname, List.mem_of_mem_head? hhead⟩, ?_⟩
    · rintro rfl
      refine hfirst fun u hu huname ↦ ?_
      rwa [hw.inv.eq_of_topicName hu hv (huname.trans hname.symm)]
    · intro hhas
      exact ((hleft _ _).mp (World.has_view.mpr hhas)).2 ⟨rfl, rfl⟩

end Server

/-- No connection but those of the clients asks for a subscription or its end. -/
def Occurrence.AsksNoSubscription (library : JsonLibrary) : Occurrence → Prop
  | .connection clientIpAddress (some receivedData) _ => ∀ q,
      Server.requestOf library clientIpAddress receivedData = .ok (some q) → ¬ q.IsSubscription
  | .connection _ none _ => True
  | .tick => True

theorem Process.hasSubscriber_other {env : Environment} {library : JsonLibrary}
    {indeterminate topicTimeout : ℤ} {p p' : Process} (hp : p.Sound) {o : Occurrence}
    (ho : o.AsksNoSubscription library) {reply : Option (Response × Text)}
    (h : (system env library indeterminate topicTimeout).step p o = .ok (reply, p'))
    (e : Endpoint) (t : Text) : p'.world.HasSubscriber e t ↔ p.world.HasSubscriber e t := by
  cases o with
  | tick =>
      obtain ⟨w', -, rfl, -, hview, -⟩ := tick_inv hp h
      rw [← World.has_view, ← World.has_view, hview, Broker.has_tick]
  | connection clientIpAddress received bytesSent =>
      rcases Server.acceptClient_inv h with
        ⟨os, -, rfl⟩ | ⟨os, os', receivedData, r, answered, rfl, hanswer, -, rfl⟩
      · rfl
      · rcases (Server.answer_inv (hp.withOs os) hanswer).2 with hworld | ⟨q, hrequest, hhandle⟩
        · show answered.world.HasSubscriber e t ↔ _
          rw [hworld]
          rfl
        · have hother := ho q hrequest
          have hfirst : (p.withOs os).world.FirstLeaves (.request q) := by
            cases q <;> first | trivial | exact absurd trivial hother
          have hhas := Server.hasSubscriber_handle (hp.withOs os).world hhandle hfirst e t
          rw [Request.after_of_not_isSubscription hother] at hhas
          exact hhas

/-! ## One method of a client -/

/-- The reader takes a text that consists of a status code for what it is. -/
def JsonLibrary.ReadsStatus (library : JsonLibrary) : Prop :=
  ∀ s : Statuscode, s.IsNamed → library.ReadsBack (.ofMembers [(ascii "statusCode", .int s.toInt)])

/-- A reply to a subscribe or an unsubscribe never makes `sendMessage` throw. -/
theorem Client.receive_subscription {env : Environment} {library : JsonLibrary}
    {indeterminate : ℤ} (hstatus : library.ReadsStatus) {w w' : World} (hw : w.Sound)
    {q : Request} {r : Response} (h : (Server.handle env q).run w = .ok (r, w'))
    (hq : q.IsSubscription) :
    Client.receive library q.commandIdentifier (some (r, r.serialize library indeterminate)) =
      .ok () := by
  have hreply := Broker.isReplyTo_handle (Server.view_handle env hw h).1
  obtain ⟨s, hs, hnamed⟩ := hreply.status
  have hnone : responseDictionary q.commandIdentifier = [] := by
    cases q <;> first | rfl | exact hq.elim
  have hmembers : r.members indeterminate = [(ascii "statusCode", .int s.toInt)] := by
    rw [Response.members, hreply.available, hnone, hs]
    rfl
  have hback : library.ReadsBack (.ofMembers (r.members indeterminate)) := by
    rw [hmembers]
    exact hstatus s hnamed
  rw [Client.receive, reply_read_back hw h hback]

theorem ClientOperation.commandIdentifier_sent (op : ClientOperation) (ipAddress : Text)
    (port : ℤ) :
    (op.sent port).commandIdentifier = (op.request ipAddress port).commandIdentifier := by
  cases op <;> rfl

theorem ClientState.subscribedTopics_after {client : ClientState} {op : ClientOperation}
    {ipAddress : Text} {port : ℤ} (h : ¬ (op.request ipAddress port).IsSubscription) :
    (client.after op).subscribedTopics = client.subscribedTopics := by
  cases op with
  | subscribeTopic topicName => exact absurd trivial h
  | unsubscribe topicName => exact absurd trivial h
  | publishTopic topicName message => rfl
  | listTopics => rfl
  | getTopicStatus topicName => rfl

theorem ClientOperation.requestOf_sent {library : JsonLibrary} (op : ClientOperation)
    {port : ℤ} (hlower : 0 ≤ port) (hupper : port ≤ 65535)
    (hread : library.ReadsBack (op.sent port).toJson) (hfilled : ∀ t ∈ op.texts, t ≠ [])
    (ipAddress : Text) :
    Server.requestOf library ipAddress (library.writeString (op.sent port).toJson) =
      .ok (some (op.request ipAddress port)) := by
  have hdecode : Command.decode (op.sent port).toJson = .ok (op.sent port) :=
    Command.decode_toJson op.wellFormed_sent op.isNamed_sent op.available_sent
      (op.isValid_sent hfilled)
  rw [Server.requestOf, Command.decodeText, hread]
  show (Command.decode (op.sent port).toJson).bind _ = _
  rw [hdecode]
  exact op.dispatch_sent ipAddress hlower hupper

namespace Hosts

variable {ι : Type} (H : Hosts ι)

def endpoint (i : ι) : Endpoint := ⟨H.address i, (H.port i).toNat⟩

theorem endpoint_injective : Function.Injective H.endpoint := by
  intro i j hsame
  obtain ⟨haddress, hport⟩ := Endpoint.mk.inj hsame
  exact H.injective i j haddress (UInt16.toNat_inj.mp (by exact_mod_cast hport))

/-- The list of a client changes as the server's lists do for its endpoint. -/
theorem mem_after (i : ι) (client : ClientState) (op : ClientOperation) (t : Text) :
    t ∈ (client.after op).subscribedTopics ↔
      (op.request (H.address i) (H.port i).toNat).After (H.endpoint i) t
        (t ∈ client.subscribedTopics) := by
  cases op <;> simp [ClientState.after, ClientOperation.request, Request.After, Hosts.endpoint]

/-- Requests of one client change nothing for another endpoint. -/
theorem after_other {i : ι} {e : Endpoint} (he : e ≠ H.endpoint i)
    (op : ClientOperation) (t : Text) (had : Prop) :
    (op.request (H.address i) (H.port i).toNat).After e t had ↔ had := by
  have hne : e ≠ ⟨H.address i, (H.port i).toNat⟩ := he
  cases op <;> simp [ClientOperation.request, Request.After, hne]

end Hosts

namespace Network

variable {ι : Type} [DecidableEq ι] {env : Environment} {library : JsonLibrary}
  {indeterminate topicTimeout : ℤ} {H : Hosts ι} {n n' : Network ι}

@[simp] theorem clients_withClient_self (n : Network ι) (i : ι) (client : ClientState) :
    (n.withClient i client).clients i = client := Function.update_self _ _ _

theorem clients_withClient_ne (n : Network ι) {i j : ι} (hji : j ≠ i) (client : ClientState) :
    (n.withClient i client).clients j = n.clients j := Function.update_of_ne hji _ _

/-- Every process has sound tables. -/
structure Sound (n : Network ι) : Prop where
  server : n.server.Sound
  clients : ∀ i, (n.clients i).dictionaries.Sound

theorem Sound.withClient (hn : n.Sound) (i : ι) {client : ClientState}
    (hclient : client.dictionaries.Sound) : (n.withClient i client).Sound where
  server := hn.server
  clients j := by
    by_cases hji : j = i
    · subst hji
      rwa [clients_withClient_self]
    · rw [clients_withClient_ne n hji]
      exact hn.clients j

/-- What a method leaves in its client, however `sendMessage` returns. -/
theorem perform_ok_inv {i : ι} {op : ClientOperation} {d : Dictionaries} {message : Text}
    {o : Except CppException Unit}
    (hbuilt : (Client.command (H.port i).toNat op).run (n.clients i).dictionaries =
      (op.sent (H.port i).toNat, d))
    (hserialize : (op.sent (H.port i).toNat).serialize library = .ok message)
    (h : n.perform env library indeterminate topicTimeout H i op = .ok (o, n')) :
    ∃ served client, (Process.system env library indeterminate topicTimeout).step n.server
        (.connection (H.address i) (some message) fun text ↦ text.length) = .ok served ∧
      n' = { n.withClient i client with server := served.2 } ∧ client.dictionaries = d ∧
      (client.subscribedTopics = ((n.clients i).after op).subscribedTopics ∨
        Client.receive library (op.sent (H.port i).toNat).commandIdentifier served.1 ≠ .ok () ∧
        client.subscribedTopics = (n.clients i).subscribedTopics) := by
  unfold perform at h
  simp only [hbuilt, hserialize] at h
  obtain ⟨served, hstep, hserved⟩ := of_map_eq_ok h
  refine ⟨served, ?_⟩
  cases hreceive : Client.receive library (op.sent (H.port i).toNat).commandIdentifier
      served.1 with
  | error e =>
      rw [hreceive] at hserved
      obtain ⟨-, rfl⟩ := Prod.mk.inj hserved
      exact ⟨_, hstep, rfl, rfl, Or.inr ⟨by simp, rfl⟩⟩
  | ok =>
      rw [hreceive] at hserved
      obtain ⟨-, rfl⟩ := Prod.mk.inj hserved
      refine ⟨_, hstep, rfl, ClientState.dictionaries_after _ op, Or.inl ?_⟩
      cases op <;> rfl

/-- A method fails before anything is sent, or its request is handled and then
the list of the client follows; the lists of the others stay. -/
theorem perform_inv (hstatus : library.ReadsStatus) (hn : n.Sound) {i : ι} {op : ClientOperation}
    (haccept : (n.server.world.os.acquire env).1 ≠ none)
    (hread : library.ReadsBack (op.sent (H.port i).toNat).toJson) {o : Except CppException Unit}
    (h : n.perform env library indeterminate topicTimeout H i op = .ok (o, n')) :
    n'.Sound ∧ (∀ j ≠ i, n'.clients j = n.clients j) ∧
    ((¬ (∀ t ∈ op.texts, t ≠ []) ∧ n'.server = n.server ∧
      (n'.clients i).subscribedTopics = (n.clients i).subscribedTopics) ∨
    (∀ t ∈ op.texts, t ≠ []) ∧
      (∃ r w os, (Server.handle env (op.request (H.address i) (H.port i).toNat)).run
          { n.server.world with os := (n.server.world.os.acquire env).2 } = .ok (r, w) ∧
        n'.server.world = { w with os := os }) ∧
      (n'.clients i).subscribedTopics = ((n.clients i).after op).subscribedTopics) := by
  obtain ⟨d', hbuilt, hd'⟩ := op.builds_command (hn.clients i) (H.port i).toNat
  by_cases hfilled : ∀ t ∈ op.texts, t ≠ []
  · have hupper : ((H.port i).toNat : ℤ) ≤ 65535 := by
      have := (H.port i).toNat_lt
      omega
    have hrequest := op.requestOf_sent (Int.natCast_nonneg _) hupper hread hfilled (H.address i)
    obtain ⟨served, client, hstep, rfl, hdictionaries, hlist⟩ :=
      perform_ok_inv hbuilt (if_pos (op.isValid_sent hfilled)) h
    obtain ⟨r, w, os, hhandle, hreply, hworld, hserved⟩ :=
      Server.acceptClient_handled hn.server hrequest haccept hstep
    have hclients := hn.withClient i (hdictionaries ▸ hd')
    refine ⟨⟨hserved, hclients.clients⟩, fun j hji ↦ clients_withClient_ne n hji _,
      Or.inr ⟨hfilled, ⟨r, w, os, hhandle, hworld⟩, ?_⟩⟩
    have hafter : client.subscribedTopics = ((n.clients i).after op).subscribedTopics := by
      rcases hlist with hlist | ⟨hthrown, hlist⟩
      · exact hlist
      · have hother : ¬ (op.request (H.address i) (H.port i).toNat).IsSubscription := by
          intro hsubscription
          have hreceive := @Client.receive_subscription _ _ indeterminate hstatus _ _
            (hn.server.world.withOs _) _ _ hhandle hsubscription
          rw [← hreply, ← op.commandIdentifier_sent] at hreceive
          exact hthrown hreceive
        rw [hlist, ClientState.subscribedTopics_after hother]
    rw [← hafter]
    exact congrArg ClientState.subscribedTopics (clients_withClient_self n i client)
  · have hserialize : (op.sent (H.port i).toNat).serialize library =
        .error (.runtimeError "Not all arguments are set") :=
      if_neg fun hvalid ↦ hfilled (op.isValid_sent_iff.mp hvalid)
    unfold perform at h
    simp only [hbuilt, hserialize] at h
    obtain ⟨-, rfl⟩ := Prod.mk.inj (Except.ok.inj h)
    refine ⟨hn.withClient i hd', fun j hji ↦ clients_withClient_ne n hji _,
      Or.inl ⟨hfilled, rfl, ?_⟩⟩
    rw [clients_withClient_self]

/-- A move runs a method, or enters a destructor, or is none of a client, or does nothing. -/
theorem move_cases {m : Move ι} {o : Except CppException Unit}
    (h : n.move env library indeterminate topicTimeout H m = .ok (o, n')) :
    (∃ i op, n.operation m = some (i, op) ∧
      n.perform env library indeterminate topicTimeout H i op = .ok (o, n')) ∨
    n.operation m = none ∧
      ((∃ i, n' = n.withClient i { n.clients i with leaving := true }) ∨
      (∃ occurrence reply p, m = .other occurrence ∧
        (Process.system env library indeterminate topicTimeout).step n.server occurrence =
          .ok (reply, p) ∧ n' = { n with server := p }) ∨
      n' = n) := by
  unfold move at h
  cases hoperation : n.operation m with
  | some performed =>
      rw [hoperation] at h
      exact Or.inl ⟨performed.1, performed.2, rfl, h⟩
  | none =>
      rw [hoperation] at h
      refine Or.inr ⟨rfl, ?_⟩
      cases m with
      | terminate i => exact Or.inl ⟨i, (Prod.mk.inj (Except.ok.inj h)).2.symm⟩
      | other occurrence =>
          obtain ⟨served, hstep, hserved⟩ := of_map_eq_ok h
          exact Or.inr (Or.inl ⟨occurrence, served.1, served.2, rfl, hstep,
            (Prod.mk.inj hserved).2.symm⟩)
      | call i op => exact Or.inr (Or.inr (Prod.mk.inj (Except.ok.inj h)).2.symm)
      | unsubscribeFront i topicName =>
          exact Or.inr (Or.inr (Prod.mk.inj (Except.ok.inj h)).2.symm)

/-! ## The lists of the clients and of the server -/

/-- The list of every client names the topics that the server has it in. -/
def InStep (H : Hosts ι) (n : Network ι) : Prop :=
  ∀ i t, t ∈ (n.clients i).subscribedTopics ↔ n.server.world.HasSubscriber (H.endpoint i) t

/-- The request of a method is accepted and read as it was sent, and only
methods ask for subscriptions. -/
structure Delivers (env : Environment) (library : JsonLibrary) (H : Hosts ι) (n : Network ι)
    (m : Move ι) : Prop where
  accepted : ∀ performed ∈ n.operation m, (n.server.world.os.acquire env).1 ≠ none
  read : ∀ performed ∈ n.operation m,
    library.ReadsBack (performed.2.sent (H.port performed.1).toNat).toJson
  others : ∀ occurrence, m = .other occurrence → occurrence.AsksNoSubscription library

/-- If a method sends an unsubscribe, no topic has that name or the client is
the first subscriber of the topic. -/
def FirstLeaves (H : Hosts ι) (n : Network ι) (m : Move ι) : Prop :=
  ∀ performed ∈ n.operation m, (∀ t ∈ performed.2.texts, t ≠ []) →
    n.server.world.FirstLeaves
      (.request (performed.2.request (H.address performed.1) (H.port performed.1).toNat))

instance (H : Hosts ι) (n : Network ι) (m : Move ι) : Decidable (n.FirstLeaves H m) :=
  inferInstanceAs (Decidable (∀ performed ∈ n.operation m, (∀ t ∈ performed.2.texts, t ≠ []) → _))

/-- Besides, every subscriber is one of the clients. -/
structure Agrees (H : Hosts ι) (n : Network ι) : Prop extends n.Sound where
  inStep : n.InStep H
  known : ∀ e t, n.server.world.HasSubscriber e t → ∃ i, H.endpoint i = e

section

variable (hstatus : library.ReadsStatus) (hn : n.Agrees H) {i : ι} {op : ClientOperation}
  (haccept : (n.server.world.os.acquire env).1 ≠ none)
  (hread : library.ReadsBack (op.sent (H.port i).toNat).toJson) {o : Except CppException Unit}
  (h : n.perform env library indeterminate topicTimeout H i op = .ok (o, n'))

include hstatus hn haccept hread h

theorem Agrees.perform (hfirst : (∀ t ∈ op.texts, t ≠ []) → n.server.world.FirstLeaves
    (.request (op.request (H.address i) (H.port i).toNat))) : n'.Agrees H := by
  obtain ⟨hsound, hothers, hsent⟩ := perform_inv hstatus hn.toSound haccept hread h
  rcases hsent with ⟨-, hserver, hlist⟩ | ⟨hfilled, ⟨r, w, os, hhandle, hworld⟩, hlist⟩
  · refine ⟨hsound, fun j t ↦ ?_, fun e t ↦ ?_⟩
    · rw [hserver, ← hn.inStep]
      by_cases hji : j = i
      · rw [hji, hlist]
      · rw [hothers j hji]
    · rw [hserver]
      exact hn.known e t
  · have hhas : ∀ e t, n'.server.world.HasSubscriber e t ↔
        (op.request (H.address i) (H.port i).toNat).After e t
          (n.server.world.HasSubscriber e t) := by
      intro e t
      rw [hworld]
      exact Server.hasSubscriber_handle (hn.server.world.withOs _) hhandle (hfirst hfilled) e t
    refine ⟨hsound, fun j t ↦ ?_, fun e t hsubscribed ↦ ?_⟩
    · rw [hhas]
      by_cases hji : j = i
      · subst hji
        rw [hlist, H.mem_after, hn.inStep]
      · rw [hothers j hji, hn.inStep, H.after_other fun hsame ↦ hji (H.endpoint_injective hsame)]
    · by_cases he : e = H.endpoint i
      · exact ⟨i, he.symm⟩
      · exact hn.known e t ((H.after_other he op t _).mp ((hhas e t).mp hsubscribed))

/-- Another client that loses its place still has the topic on its list. -/
theorem Agrees.firstLeaves_of_perform (hstep : n'.InStep H) (hfilled : ∀ t ∈ op.texts, t ≠ []) :
    n.server.world.FirstLeaves (.request (op.request (H.address i) (H.port i).toNat)) := by
  by_contra hfirst
  cases op with
  | unsubscribe topicName =>
      obtain ⟨-, hothers, hsent⟩ := perform_inv hstatus hn.toSound haccept hread h
      rcases hsent with ⟨hempty, -⟩ | ⟨-, ⟨r, w, os, hhandle, hworld⟩, -⟩
      · exact hempty hfilled
      · obtain ⟨e, he, hbefore, hafter⟩ :=
          Server.hasSubscriber_unsubscribe (hn.server.world.withOs _) hhandle hfirst
        obtain ⟨j, rfl⟩ := hn.known e topicName hbefore
        have hji : j ≠ i := fun hji ↦ he (hji ▸ rfl)
        have hlisted := (hn.inStep j topicName).mpr hbefore
        rw [← hothers j hji, hstep, hworld] at hlisted
        exact hafter hlisted
  | subscribeTopic => exact hfirst trivial
  | publishTopic => exact hfirst trivial
  | listTopics => exact hfirst trivial
  | getTopicStatus => exact hfirst trivial

end

theorem agrees_start : (system env library indeterminate topicTimeout H).start.Agrees H where
  server := Process.sound_initial topicTimeout
  clients _ := Dictionaries.sound_initial
  inStep i t := by
    simp [system, Process.initial, Server.initial, World.HasSubscriber]
  known e t := by
    simp [system, Process.initial, Server.initial, World.HasSubscriber]

theorem Agrees.move (hstatus : library.ReadsStatus) (hn : n.Agrees H) {m : Move ι}
    (hdelivers : n.Delivers env library H m) (hfirst : n.FirstLeaves H m)
    {o : Except CppException Unit}
    (h : n.move env library indeterminate topicTimeout H m = .ok (o, n')) : n'.Agrees H := by
  rcases move_cases h with ⟨i, op, hoperation, hperform⟩ | ⟨-, hrest⟩
  · exact hn.perform hstatus (hdelivers.accepted _ hoperation) (hdelivers.read _ hoperation)
      hperform (hfirst _ hoperation)
  · rcases hrest with ⟨i, rfl⟩ | ⟨occurrence, reply, p, hm, hstep, rfl⟩ | rfl
    · refine ⟨hn.toSound.withClient i (hn.clients i), fun j t ↦ ?_, hn.known⟩
      by_cases hji : j = i
      · subst hji
        rw [clients_withClient_self]
        exact hn.inStep j t
      · rw [clients_withClient_ne n hji]
        exact hn.inStep j t
    · have hhas := Process.hasSubscriber_other hn.server (hdelivers.others _ hm) hstep
      exact ⟨⟨hn.server.step hstep, hn.clients⟩, fun j t ↦ (hn.inStep j t).trans (hhas _ t).symm,
        fun e t hsubscribed ↦ hn.known e t ((hhas e t).mp hsubscribed)⟩
    · exact hn

theorem Agrees.firstLeaves_of_move (hstatus : library.ReadsStatus) (hn : n.Agrees H) {m : Move ι}
    (hdelivers : n.Delivers env library H m) {o : Except CppException Unit}
    (h : n.move env library indeterminate topicTimeout H m = .ok (o, n')) (hstep : n'.InStep H) :
    n.FirstLeaves H m := by
  intro performed hperformed hfilled
  rcases move_cases h with ⟨i, op, hoperation, hperform⟩ | ⟨hnone, -⟩
  · obtain rfl : performed = (i, op) := Option.some.inj (hperformed.symm.trans hoperation)
    exact hn.firstLeaves_of_perform hstatus (hdelivers.accepted _ hoperation)
      (hdelivers.read _ hoperation) hperform hstep hfilled
  · cases hperformed.symm.trans hnone

end Network

/-- In a run in which no unsubscribe takes another client's place the lists agree
with the server, and whoever has left is subscribed to nothing; the first
unsubscribe that takes another client's place ends the agreement. -/
theorem clients_in_step {ι : Type} [DecidableEq ι] (env : Environment) (library : JsonLibrary)
    (indeterminate topicTimeout : ℤ) (H : Hosts ι) (hstatus : library.ReadsStatus)
    {n : Network ι} (hn : (Network.system env library indeterminate topicTimeout H).ReachableWhile
      (fun n m ↦ n.Delivers env library H m ∧ n.FirstLeaves H m) n) :
    n.InStep H ∧
    (∀ i, n.Left i → ∀ t, ¬ n.server.world.HasSubscriber (H.endpoint i) t) ∧
    ∀ m o n', n.Delivers env library H m →
      (Network.system env library indeterminate topicTimeout H).step n m = .ok (o, n') →
        (n'.InStep H ↔ n.FirstLeaves H m) := by
  have hagrees : n.Agrees H :=
    hn.invariant Network.agrees_start fun _ _ _ _ hs hguard hstep ↦
      hs.move hstatus hguard.1 hguard.2 hstep
  refine ⟨hagrees.inStep, fun i hleft t ↦ ?_, fun m o n' hdelivers hstep ↦ ⟨fun hinStep ↦ ?_,
    fun hfirst ↦ (hagrees.move hstatus hdelivers hfirst hstep).inStep⟩⟩
  · rw [← hagrees.inStep, hleft.2]
    exact List.not_mem_nil
  · exact hagrees.firstLeaves_of_move hstatus hdelivers hstep hinStep

/-- The method of a move, whether or not the client can run it. -/
def Move.method {ι : Type} : Move ι → Option (ι × ClientOperation)
  | .call i op => some (i, op)
  | .unsubscribeFront i topicName => some (i, .unsubscribe topicName)
  | .terminate _ => none
  | .other _ => none

theorem Network.method_of_operation {ι : Type} {n : Network ι} {m : Move ι}
    {performed : ι × ClientOperation} (h : n.operation m = some performed) :
    m.method = some performed := by
  cases m with
  | call i op =>
      rw [operation, Option.ite_none_left_eq_some] at h
      exact h.2
  | unsubscribeFront i topicName =>
      rw [operation, Option.ite_none_right_eq_some] at h
      exact h.2
  | terminate i => cases h
  | other occurrence => cases h

/-- With descriptors at hand, methods whose requests are read back are delivered. -/
theorem Network.meets_delivers {ι : Type} [DecidableEq ι] {library : JsonLibrary}
    {indeterminate topicTimeout : ℤ} {H : Hosts ι} {moves : List (Move ι)}
    (hread : ∀ m ∈ moves, ∀ performed ∈ m.method,
      library.ReadsBack (performed.2.sent (H.port performed.1).toNat).toJson)
    (hother : ∀ m ∈ moves, ∀ occurrence, m ≠ .other occurrence) (n : Network ι) :
    (Network.system .steady library indeterminate topicTimeout H).Meets
      (fun n m ↦ n.Delivers .steady library H m) n moves := by
  apply Transition.System.meets_of_forall
  intro m hm n
  constructor
  · intro performed _
    simp [Os.acquire, Environment.steady]
  · intro performed hperformed
    exact hread m hm performed (method_of_operation hperformed)
  · intro occurrence hoccurrence
    exact absurd hoccurrence (hother m hm occurrence)

/-- One client leaves while the other one stays subscribed to another topic. -/
theorem clients_in_step_one_leaves :
    let H : Hosts Bool := ⟨fun i ↦ ascii (if i then "10.0.0.2" else "10.0.0.1"), fun _ ↦ 7001,
      by decide⟩
    let statuses := [0, 1, 2, 3].map fun code ↦ Json.ofMembers [(ascii "statusCode", .int code)]
    let values := statuses ++ [
      ((ClientOperation.subscribeTopic (ascii "news")).sent 7001).toJson,
      ((ClientOperation.subscribeTopic (ascii "weather")).sent 7001).toJson,
      ((ClientOperation.unsubscribe (ascii "weather")).sent 7001).toJson]
    let library := JsonLibrary.ofValues values
    let n := (Network.system .steady library 7 10 H).final [
      .call false (.subscribeTopic (ascii "news")), .call true (.subscribeTopic (ascii "weather")),
      .terminate true, .unsubscribeFront true (ascii "weather")]
    (n.clients false).subscribedTopics = [ascii "news"] ∧ n.InStep H ∧ n.Left true ∧
      ∀ t, ¬ n.server.world.HasSubscriber (H.endpoint true) t := by
  intro H statuses values library n
  have hback : ∀ v ∈ values, library.ReadsBack v :=
    fun v hv ↦ JsonLibrary.readsBack_ofValues_of_nodup (by decide +kernel) hv
  have hstatus : library.ReadsStatus := by
    intro s hs
    apply hback
    cases s <;> first | exact hs.elim | simp [values, statuses, Statuscode.toInt]
  have hn : (Network.system .steady library 7 10 H).ReachableWhile
      (fun n m ↦ n.Delivers .steady library H m ∧ n.FirstLeaves H m) n := by
    apply Transition.System.reachableWhile_final
    apply Transition.System.Meets.and
    · apply Network.meets_delivers
      · intro m hm performed hperformed
        apply hback
        revert m performed
        simp [Move.method, H, values]
      · simp
    · decide +kernel
  have hleft : n.Left true := by decide +kernel
  obtain ⟨hinStep, hgone, -⟩ := clients_in_step .steady library 7 10 H hstatus hn
  exact ⟨by decide +kernel, hinStep, hleft, hgone true hleft⟩

/-- The second client leaves; the server forgets the first one in its place. -/
theorem other_client_is_removed :
    let H : Hosts Bool := ⟨fun i ↦ ascii (if i then "10.0.0.2" else "10.0.0.1"), fun _ ↦ 7001,
      by decide⟩
    let statuses := [0, 1, 2, 3].map fun code ↦ Json.ofMembers [(ascii "statusCode", .int code)]
    let values := statuses ++ [
      ((ClientOperation.subscribeTopic (ascii "news")).sent 7001).toJson,
      ((ClientOperation.unsubscribe (ascii "news")).sent 7001).toJson]
    let library := JsonLibrary.ofValues values
    let system := Network.system .steady library 7 10 H
    let n := system.final [
      .call false (.subscribeTopic (ascii "news")), .call true (.subscribeTopic (ascii "news")),
      .terminate true, .unsubscribeFront true (ascii "news")]
    system.ReachableWhile (fun n m ↦ n.Delivers .steady library H m) n ∧ n.Left true ∧
      n.server.world.HasSubscriber (H.endpoint true) (ascii "news") ∧
      (n.clients false).subscribedTopics = [ascii "news"] ∧
      ¬ n.server.world.HasSubscriber (H.endpoint false) (ascii "news") ∧ ¬ n.InStep H := by
  intro H statuses values library system n
  have hlisted : (n.clients false).subscribedTopics = [ascii "news"] := by decide +kernel
  have hremoved : ¬ n.server.world.HasSubscriber (H.endpoint false) (ascii "news") := by
    decide +kernel
  refine ⟨?_, by decide +kernel, by decide +kernel, hlisted, hremoved,
    fun hinStep ↦ hremoved ((hinStep false _).mp ?_)⟩
  · apply Transition.System.reachableWhile_final
    apply Network.meets_delivers
    · intro m hm performed hperformed
      apply JsonLibrary.readsBack_ofValues_of_nodup (by decide +kernel)
      revert m performed
      simp [Move.method, H, values]
    · simp
  · rw [hlisted]
    exact List.mem_singleton_self _

end PublisherSubscriber
