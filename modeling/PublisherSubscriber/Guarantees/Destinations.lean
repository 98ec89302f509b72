import PublisherSubscriber.Broker.Changes
import PublisherSubscriber.Broker.Contents
import PublisherSubscriber.Client.Requests

/-!
# Where datagrams go

Subscribers are told apart by the `int` that `stoi` made of a text, and
`SendMessage` keeps 16 bits of it.  The two agree on the ports there are.
-/

namespace PublisherSubscriber

open PointerHeap

/-- The decimal form of a number in 0..65535. -/
def IsPortText (clientPort : Text) : Prop := ∃ n : ℕ, n ≤ 65535 ∧ clientPort = decimalDigits n

theorem IsPortText.stoi_eq {clientPort : Text} (h : IsPortText clientPort) :
    ∃ port : ℤ, stoi clientPort = .ok port ∧ 0 ≤ port ∧ port ≤ 65535 ∧
      clientPort = to_string port := by
  obtain ⟨n, hn, rfl⟩ := h
  have htext : to_string n = decimalDigits n := by
    rw [to_string, if_neg (by omega), Int.natAbs_natCast]
  refine ⟨n, ?_, by omega, by omega, htext.symm⟩
  rw [← htext]
  apply stoi_to_string <;> simp only [intMin, intMax] <;> omega

instance : DecidablePred IsPortText := fun clientPort ↦
  match hstoi : stoi clientPort with
  | .error e => isFalse fun h ↦ by
      obtain ⟨port, hport, -⟩ := h.stoi_eq
      simp [hstoi] at hport
  | .ok port => decidable_of_iff (0 ≤ port ∧ port ≤ 65535 ∧ clientPort = to_string port) (by
      constructor
      · rintro ⟨hlower, hupper, htext⟩
        refine ⟨port.natAbs, by omega, ?_⟩
        rw [htext, to_string, if_neg (by omega)]
      · intro h
        obtain ⟨n, hn, hrange⟩ := h.stoi_eq
        obtain rfl : port = n := Except.ok.inj (hstoi.symm.trans hn)
        exact hrange)

/-- Where a datagram goes; the argument of `htons` is converted to 16 bits. -/
def destination (address : Text) (port : ℤ) : Text × UInt16 := (address, UInt16.ofInt port)

theorem toNat_ofInt_of_port {port : ℤ} (hlower : 0 ≤ port) (hupper : port ≤ 65535) :
    ((UInt16.ofInt port).toNat : ℤ) = port := by
  rw [UInt16.ofInt, UInt16.toNat_ofNat']
  omega

/-- No port in range is truncated. -/
theorem destination_inj {d e : Endpoint} (hd : 0 ≤ d.port ∧ d.port ≤ 65535)
    (he : 0 ≤ e.port ∧ e.port ≤ 65535)
    (h : destination d.ipAddress d.port = destination e.ipAddress e.port) : d = e := by
  obtain ⟨haddress, hport⟩ := Prod.mk.inj h
  have hsame : d.port = e.port := by
    rw [← toNat_ofInt_of_port hd.1 hd.2, hport, toNat_ofInt_of_port he.1 he.2]
  cases d
  cases e
  exact Endpoint.mk.injEq .. ▸ ⟨haddress, hsame⟩

namespace World

/-- The destinations of the subscribers of a topic. -/
def destinations (w : World) (p : Pointer) : List (Text × UInt16) :=
  (w.topicHeap.deref p).subscriberList.map fun c ↦
    destination (w.connectionHeap.deref c).address (w.connectionHeap.deref c).port

def DistinctDestinations (w : World) : Prop := ∀ p ∈ w.topics, (w.destinations p).Nodup

instance : DecidablePred DistinctDestinations := fun w ↦
  inferInstanceAs (Decidable (∀ p ∈ w.topics, (w.destinations p).Nodup))

/-- From `w` to `w'` every topic was checked once, in order, and no two of its
calls have the same destination. -/
def TickDistinct (w w' : World) : Prop :=
  ∃ news : List Event, w'.history = news.reverse ++ w.history ∧ w.topics.Nodup ∧
    List.Forall₂ (fun p e ↦ e.topic = p ∧
      (e.calls.map fun call ↦ destination call.address call.port).Nodup) w.topics news

end World

namespace Broker

/-- Every subscriber has a port that there is. -/
def PortsInRange (b : Broker) : Prop :=
  ∀ v ∈ b.topics, ∀ e ∈ v.subscribers, 0 ≤ e.port ∧ e.port ≤ 65535

theorem PortsInRange.nodup {b : Broker} (h : b.PortsInRange) (hb : b.Inv) {v : TopicView}
    (hv : v ∈ b.topics) : (v.subscribers.map fun e ↦ destination e.ipAddress e.port).Nodup := by
  apply List.Nodup.map_on _ (hb.subscribers_nodup v hv)
  intro d hd e he hde
  exact destination_inj (h v hv d hd) (h v hv e he) hde

theorem PortsInRange.nodup_calls {b : Broker} (h : b.PortsInRange) (hb : b.Inv) {v : TopicView}
    (hv : v ∈ b.topics) (env : Environment) (os : Os) :
    ((checkEvent env v os).calls.map fun call ↦ destination call.address call.port).Nodup := by
  obtain ⟨now, calls, reset, hevent, hcalls⟩ := exists_checkEvent env v os
  rw [hevent]
  show (calls.map fun call ↦ destination call.address call.port).Nodup
  by_cases hnil : calls = []
  · rw [hnil]
    exact List.nodup_nil
  · obtain ⟨-, hendpoints, -⟩ := hcalls hnil
    have hdestinations := h.nodup hb hv
    rw [← hendpoints, List.map_map] at hdestinations
    exact hdestinations

end Broker

/-! ## What a subscribe is accepted with -/

/-- The `clientPort` of the subscribe that a connection brings. -/
def Occurrence.subscribePort (library : JsonLibrary) : Occurrence → Option Text
  | .connection _ (some receivedData) _ =>
      (Command.decodeText library receivedData).toOption.bind fun command ↦
        if command.commandIdentifier = .subscribe then
          (command.getCommandArgument .clientPort).toOption
        else none
  | _ => none

/-- A `clientPort` that `stoi` accepts is the decimal form of a port. -/
def Occurrence.PortInRange (library : JsonLibrary) (o : Occurrence) : Prop :=
  ∀ clientPort ∈ o.subscribePort library, (∃ port, stoi clientPort = .ok port) →
    IsPortText clientPort

instance (library : JsonLibrary) : DecidablePred (Occurrence.PortInRange library) := fun o ↦
  decidable_of_iff (∀ clientPort ∈ o.subscribePort library,
    (stoi clientPort).toOption ≠ none → IsPortText clientPort) (by
      refine forall₂_congr fun clientPort _ ↦ imp_congr_left ?_
      cases stoi clientPort <;> simp [Except.toOption])

/-- A subscribe with any other `clientPort` is answered by the catch block, and
nothing but the descriptors changes. -/
def Occurrence.RefusesOtherPorts (library : JsonLibrary) (o : Occurrence) (w : World)
    (r : Response) (w' : World) : Prop :=
  ∀ clientPort ∈ o.subscribePort library, ¬ IsPortText clientPort →
    r = Server.rejection ∧ ∃ os, w' = { w with os := os }

namespace Server

variable {env : Environment} {library : JsonLibrary} {clientIpAddress receivedData : Text}
  {bytesSent : Text → ℤ}

/-- The request is made of the port exactly when `stoi` makes a port of the text. -/
theorem requestOf_of_subscribePort {clientPort : Text}
    (h : clientPort ∈ (Occurrence.connection clientIpAddress (some receivedData)
      bytesSent).subscribePort library) :
    ∃ topicName, requestOf library clientIpAddress receivedData =
      (stoi clientPort).map fun port ↦ some (.subscribe clientIpAddress port topicName) := by
  cases hdecode : Command.decodeText library receivedData with
  | error e => simp [Occurrence.subscribePort, hdecode, Except.toOption] at h
  | ok c =>
      obtain ⟨v, -, hv⟩ := Command.decodeText_inv hdecode
      have havailable := Command.available_of_decode hv
      have hport : c.commandIdentifier = .subscribe ∧
          c.getCommandArgument .clientPort = .ok clientPort := by
        simp only [Occurrence.subscribePort, hdecode, Except.toOption, Option.bind_some] at h
        split_ifs at h with hsubscribe
        · refine ⟨hsubscribe, ?_⟩
          cases hclientPort : c.getCommandArgument .clientPort with
          | error e => simp [hclientPort] at h
          | ok t => simpa [hclientPort] using h
        · cases h
      obtain ⟨hsubscribe, hclientPort⟩ := hport
      have htopic : c.getCommandArgument .topicName = .ok (c.value .topicName) := by
        apply Command.getCommandArgument_of_mem
        rw [havailable, hsubscribe]
        decide
      refine ⟨c.value .topicName, ?_⟩
      have hdispatch : requestOf library clientIpAddress receivedData =
          dispatch clientIpAddress c := by
        rw [requestOf, hdecode]
        rfl
      rw [hdispatch]
      obtain ⟨commandIdentifier, names, values⟩ := c
      obtain rfl : commandIdentifier = .subscribe := hsubscribe
      simp only [dispatch, hclientPort, htopic, bind, Except.bind]
      cases stoi clientPort <;> rfl

theorem subscribePort_of_requestOf {ipAddress topicName : Text} {port : ℤ}
    (h : requestOf library clientIpAddress receivedData =
      .ok (some (.subscribe ipAddress port topicName))) :
    ∃ clientPort ∈ (Occurrence.connection clientIpAddress (some receivedData)
      bytesSent).subscribePort library, stoi clientPort = .ok port := by
  obtain ⟨c, hdecode, hdispatch⟩ := of_bind_eq_ok h
  obtain ⟨hsubscribe, -, -, clientPort, hclientPort, hport⟩ := dispatch_subscribe_inv hdispatch
  refine ⟨clientPort, ?_, hport⟩
  simp [Occurrence.subscribePort, hdecode, Except.toOption, hsubscribe, hclientPort]

/-- The handler of a subscribe never answers as the catch block does. -/
theorem subscribe_ne_rejection {w w' : World} (hw : w.Sound) {ipAddress topicName : Text}
    {port : ℤ} {r : Response}
    (h : (handle env (.subscribe ipAddress port topicName)).run w = .ok (r, w')) :
    r ≠ rejection := by
  have hbroker := (view_handle env hw h).1
  have hsubscribe : w.view.subscribe env ⟨ipAddress, port⟩ topicName = (r, w'.view) :=
    Except.ok.inj hbroker
  rcases w.view.subscribe_cases env ⟨ipAddress, port⟩ topicName with ⟨-, hcase⟩ | ⟨-, hcase⟩
  · obtain ⟨rfl, -⟩ := Prod.mk.inj (hcase.symm.trans hsubscribe)
    decide
  · obtain ⟨rfl, -⟩ := Prod.mk.inj (hcase.symm.trans hsubscribe)
    decide

end Server

namespace Process

variable {env : Environment} {library : JsonLibrary} {indeterminate topicTimeout : ℤ}
  {p p' : Process} {o : Occurrence}

theorem vets_of_portInRange (ho : o.PortInRange library) :
    Vets library (fun _ ↦ True) (fun e ↦ 0 ≤ e.port ∧ e.port ≤ 65535) o := by
  apply vets_of_subscribe
  rintro clientIpAddress receivedData bytesSent ipAddress port topicName rfl hq
  obtain ⟨clientPort, hmem, hport⟩ := Server.subscribePort_of_requestOf hq
  obtain ⟨n, hn, hlower, hupper, -⟩ := (ho clientPort hmem ⟨port, hport⟩).stoi_eq
  obtain rfl : port = n := Except.ok.inj (hport.symm.trans hn)
  exact ⟨trivial, hlower, hupper⟩

theorem refusesOtherPorts_iff (hp : p.Sound) {r : Response} {text : Text}
    (h : (system env library indeterminate topicTimeout).step p o = .ok (some (r, text), p')) :
    o.RefusesOtherPorts library p.world r p'.world ↔ o.PortInRange library := by
  cases o with
  | tick =>
      obtain ⟨w', hreply, -⟩ := tick_inv hp h
      cases hreply
  | connection clientIpAddress received bytesSent =>
      rcases Server.acceptClient_inv h with
        ⟨os, hreply, -⟩ | ⟨os, os', receivedData, answer, answered, rfl, hanswer, hreply, rfl⟩
      · cases hreply
      · obtain ⟨rfl, -⟩ := Prod.mk.inj (Option.some.inj hreply)
        constructor
        · rintro hrefuses clientPort hmem ⟨port, hport⟩
          by_contra hother
          obtain ⟨topicName, hrequest⟩ := Server.requestOf_of_subscribePort hmem
          rw [hport] at hrequest
          have hhandle := Server.answer_of_request (hp.withOs os) hrequest hanswer
          exact Server.subscribe_ne_rejection (hp.withOs os).world hhandle
            (hrefuses clientPort hmem hother).1
        · intro hrange clientPort hmem hother
          obtain ⟨topicName, hrequest⟩ := Server.requestOf_of_subscribePort hmem
          cases hport : stoi clientPort with
          | ok port => exact absurd (hrange clientPort hmem ⟨port, hport⟩) hother
          | error e =>
              rw [hport] at hrequest
              obtain ⟨hrejection, hworld⟩ :=
                Server.answer_of_rejected (hp.withOs os) hrequest hanswer
              refine ⟨hrejection, os', ?_⟩
              show { answered.world with os := os' } = { p.world with os := os' }
              rw [hworld]
              rfl

end Process

/-- While every port that is accepted is in range, no two subscribers of a topic
share a destination and no tick sends twice to one.  A further request refuses
all other ports exactly when it keeps to this. -/
theorem destinations_distinct_while_ports_in_range (env : Environment) (library : JsonLibrary)
    (indeterminate topicTimeout : ℤ) {p : Process}
    (hp : (Process.system env library indeterminate topicTimeout).ReachableWhile
      (fun _ o ↦ o.PortInRange library) p) :
    p.world.DistinctDestinations ∧
      (∀ reply p', (Process.system env library indeterminate topicTimeout).step p .tick =
        .ok (reply, p') → p.world.TickDistinct p'.world) ∧
      ∀ o r text p', (Process.system env library indeterminate topicTimeout).step p o =
        .ok (some (r, text), p') →
          (o.RefusesOtherPorts library p.world r p'.world ↔ o.PortInRange library) := by
  have hsound : p.Sound := Process.sound_of_reachable hp
  have hinv := hsound.world.inv
  have hvetted := Process.vetted_of_reachableWhile (T := fun _ ↦ True) (fun _ ↦ trivial)
    (fun _ _ ho ↦ Process.vets_of_portInRange ho) hp
  have hrange : p.world.view.PortsInRange := fun v hv ↦ (hvetted v hv).subscribers
  refine ⟨?_, ?_, fun o r text p' h ↦ Process.refusesOtherPorts_iff hsound h⟩
  · intro q hq
    have hnodup := hrange.nodup hinv (List.mem_map_of_mem hq)
    rw [World.viewTopic, List.map_map] at hnodup
    exact hnodup
  · intro reply p' hstep
    obtain ⟨w', -, rfl, -, hview, -⟩ := Process.tick_inv hsound hstep
    obtain ⟨news, hhistory, hnodup, hnews⟩ := hsound.world.history_tick hview
    refine ⟨news, hhistory, hnodup, ?_⟩
    apply hnews.imp
    rintro q e ⟨hq, os, rfl⟩
    exact ⟨Broker.topic_checkEvent env _ os,
      hrange.nodup_calls hinv (List.mem_map_of_mem hq) env os⟩

/-- The least and the greatest port are accepted, and a word is refused. -/
theorem destinations_distinct_at_the_bounds :
    let request clientPort := (⟨.subscribe, [.topicName, .clientPort],
      [ascii "news", clientPort]⟩ : Command).toJson
    let clientPorts := [ascii "0", ascii "65535", ascii "http"]
    let library := JsonLibrary.ofValues (clientPorts.map request)
    let system := Process.system .steady library 7 10
    let p := system.final (clientPorts.map fun clientPort ↦
      .connection (ascii "10.0.0.1") (some (request clientPort).compact) fun text ↦ text.length)
    p.world.topics.map p.world.destinations =
        [[(ascii "10.0.0.1", 0), (ascii "10.0.0.1", 65535)]] ∧ p.world.DistinctDestinations := by
  intro request clientPorts library system p
  have hp : system.ReachableWhile (fun _ o ↦ o.PortInRange library) p := by
    apply Transition.System.reachableWhile_final
    decide +kernel
  exact ⟨by decide +kernel, (destinations_distinct_while_ports_in_range .steady library 7 10 hp).1⟩

/-- 72537 is 7001 and 65536: both are accepted, and a tick sends to one destination twice. -/
theorem ports_coincide_modulo :
    let request clientPort := (⟨.subscribe, [.topicName, .clientPort],
      [ascii "news", clientPort]⟩ : Command).toJson
    let publish := ((ClientOperation.publishTopic (ascii "news") (ascii "hello")).sent 7001).toJson
    let library := JsonLibrary.ofValues [request (ascii "7001"), request (ascii "72537"), publish]
    let system := Process.system .steady library 7 1
    let connect (v : Json) : Occurrence :=
      .connection (ascii "10.0.0.1") (some v.compact) fun text ↦ text.length
    let occurrences := [connect (request (ascii "7001")), connect (request (ascii "72537")),
      connect publish]
    let p := system.final occurrences
    let endpoint := (ascii "10.0.0.1", (7001 : UInt16))
    system.Reachable p ∧ ¬ IsPortText (ascii "72537") ∧
      (∃ p', ∃ text, system.step (system.final [connect (request (ascii "7001"))])
        (connect (request (ascii "72537"))) =
          .ok (some ((Response.new .subscribe).setStatusCode .success, text), p')) ∧
      p.world.topics.map p.world.destinations = [[endpoint, endpoint]] ∧
      ¬ p.world.DistinctDestinations ∧
      (system.final (occurrences ++ [.tick])).world.history.head?.map (fun e ↦ e.calls.map
        fun call ↦ destination call.address call.port) =
          some [endpoint, endpoint] := by
  intro request publish library system connect occurrences p endpoint
  have haccepted : ∃ p', ∃ text, system.step (system.final [connect (request (ascii "7001"))])
      (connect (request (ascii "72537"))) =
        .ok (some ((Response.new .subscribe).setStatusCode .success, text), p') :=
    ⟨system.final [connect (request (ascii "7001")), connect (request (ascii "72537"))],
      ascii "\x7b\"statusCode\":0\x7d", by decide +kernel⟩
  exact ⟨Transition.System.reachable_final system _, by decide +kernel, haccepted,
    by decide +kernel, by decide +kernel, by decide +kernel⟩

end PublisherSubscriber
