import PublisherSubscriber.Broker.Changes
import PublisherSubscriber.Broker.Membership
import PublisherSubscriber.Broker.Refinement
import PublisherSubscriber.Broker.Sockets

/-!
# What becomes of an acknowledged publish

The handler stores the message in the only slot the topic has, and the next
tick sends what the slot holds then.  A datagram leaves if the system gives
`SendMessage` a socket for it.
-/

namespace PublisherSubscriber

open PointerHeap

/-- A call of `SendMessage` for the endpoint, with that topic and message. -/
structure SendMessageCall.Carries (call : SendMessageCall) (e : Endpoint)
    (topicName message : Text) : Prop where
  address : call.address = e.ipAddress
  port : call.port = e.port
  topicName : call.topicName = topicName
  message : call.message = message

namespace Broker

variable {env : Environment} {b c : Broker}

/-- The topic of that name holds the message, and its timeout is `timeoutTimestamp`. -/
def Holds (b : Broker) (topicName message : Text) (timeoutTimestamp : ℤ) : Prop :=
  ∃ v ∈ b.topics, v.topicName = topicName ∧ v.message = message ∧
    v.timeoutTimestamp = timeoutTimestamp

theorem holds_publish {topicName message : Text} {r : Response}
    (h : b.publish env topicName message = (r, c)) (hr : r.statusCode = some .success) :
    c.Holds topicName message (env.time (b.os.readings + 1)) ∧
      c.os.readings = b.os.readings + 2 := by
  rcases b.publish_cases env topicName message with ⟨-, hpublish⟩ | ⟨v, hfind, hpublish⟩
  · obtain ⟨rfl, -⟩ := Prod.mk.inj (hpublish.symm.trans h)
    simp at hr
  · obtain ⟨hv, hname⟩ := find_eq_some hfind
    obtain ⟨-, rfl⟩ := Prod.mk.inj (hpublish.symm.trans h)
    exact ⟨⟨_, mem_alter.mpr ⟨v, hv, if_pos rfl⟩, hname, rfl, rfl⟩, rfl⟩

/-- A topic of that name in `c` was there in `b`, with the same message and
timeout, unless `b` had none. -/
def Keeps (topicName : Text) (b c : Broker) : Prop :=
  ∀ v ∈ c.topics, v.topicName = topicName →
    (∃ u ∈ b.topics, v = { u with subscribers := v.subscribers }) ∨
      ∀ u ∈ b.topics, u.topicName ≠ topicName

theorem Keeps.holds {topicName message : Text} {timeoutTimestamp : ℤ} {e : Endpoint} (hb : b.Wf)
    (h : Keeps topicName b c) (hhas : c.Has e topicName)
    (hholds : b.Holds topicName message timeoutTimestamp) :
    c.Holds topicName message timeoutTimestamp := by
  obtain ⟨v, hv, hname, -⟩ := hhas
  obtain ⟨w, hw, hwname, hmessage, htimeout⟩ := hholds
  rcases h v hv hname with ⟨u, hu, hvu⟩ | hnone
  · have huname : u.topicName = topicName := by
      rw [hvu] at hname
      exact hname
    obtain rfl := hb.eq_of_topicName hu hw (huname.trans hwname.symm)
    exact ⟨v, hv, hname, by rw [hvu]; exact hmessage, by rw [hvu]; exact htimeout⟩
  · exact (hnone w hw hwname).elim

theorem Keeps.of_topics (topicName : Text) (h : c.topics ⊆ b.topics) : Keeps topicName b c :=
  fun v hv _ ↦ Or.inl ⟨v, h hv, rfl⟩

theorem keeps_alter_subscribers (topicName : Text) (object : Pointer)
    {f : TopicView → TopicView} (hf : ∀ u, f u = { u with subscribers := (f u).subscribers }) :
    Keeps topicName b (b.alter object f) := by
  intro v hv _
  obtain ⟨u, hu, rfl⟩ := mem_alter.mp hv
  refine Or.inl ⟨u, hu, ?_⟩
  split_ifs
  · exact hf u
  · rfl

theorem keeps_subscribe (env : Environment) (b : Broker) (topicName : Text) (e : Endpoint)
    (name : Text) : Keeps topicName b (b.subscribe env e name).2 := by
  have hadd : Keeps topicName b (b.findOrAddTopic env name).2 := by
    rcases b.findOrAddTopic_cases env name with ⟨hfind, hadd⟩ | ⟨v, -, hadd⟩ <;> rw [hadd]
    · intro v hv hname
      rcases List.mem_append.mp hv with hv | hv
      · exact Or.inl ⟨v, hv, rfl⟩
      · rw [List.mem_singleton.mp hv] at hname
        obtain rfl : name = topicName := hname
        exact Or.inr (find_eq_none_iff.mp hfind)
    · exact .of_topics topicName (List.Subset.refl _)
  intro v hv hname
  obtain ⟨u, hu, hvu⟩ : ∃ u ∈ (b.findOrAddTopic env name).2.topics,
      v = { u with subscribers := v.subscribers } := by
    rcases b.subscribe_cases env e name with ⟨-, hsubscribe⟩ | ⟨-, hsubscribe⟩ <;>
      rw [hsubscribe] at hv
    · rw [topics_connect] at hv
      exact ⟨v, hv, rfl⟩
    · obtain ⟨u, hu, rfl⟩ := mem_alter.mp hv
      rw [topics_connect] at hu
      exact ⟨u, hu, by split_ifs <;> rfl⟩
  have huname : u.topicName = topicName := by
    rw [hvu] at hname
    exact hname
  refine (hadd u hu huname).imp_left ?_
  rintro ⟨w, hw, huw⟩
  exact ⟨w, hw, by rw [hvu, huw]⟩

theorem keeps_dropFirst (topicName : Text) (v : TopicView) :
    Keeps topicName b (b.dropFirst v) := by
  rcases b.dropFirst_cases v with ⟨-, hdrop⟩ | ⟨-, hdrop⟩ <;> rw [hdrop]
  · exact .of_topics topicName fun u hu ↦ List.mem_of_mem_filter hu
  · exact keeps_alter_subscribers topicName v.object fun _ ↦ rfl

theorem keeps_unsubscribe (topicName : Text) {e : Endpoint} {name : Text} {r : Response}
    (hstep : b.unsubscribe e name = .ok (r, c)) : Keeps topicName b c := by
  rcases unsubscribe_cases hstep with ⟨-, rfl, -⟩ | ⟨v, -, hrelease, -⟩
  · exact .of_topics topicName (List.Subset.refl _)
  · intro u hu
    rw [topics_releaseConnection hrelease] at hu
    exact keeps_dropFirst topicName v u hu

theorem Wf.keeps_publish (hb : b.Wf) (env : Environment) {topicName name : Text}
    (hne : name ≠ topicName) (message : Text) :
    Keeps topicName b (b.publish env name message).2 := by
  rcases b.publish_cases env name message with ⟨-, hpublish⟩ | ⟨v, hfind, hpublish⟩ <;>
    rw [hpublish]
  · exact .of_topics topicName (List.Subset.refl _)
  · obtain ⟨hv, rfl⟩ := find_eq_some hfind
    intro w hw hname
    obtain ⟨u, hu, rfl⟩ := mem_alter.mp hw
    by_cases huv : u.object = v.object
    · rw [if_pos huv, hb.eq_of_object hu hv huv] at hname
      exact (hne hname).elim
    · rw [if_neg huv]
      exact Or.inl ⟨u, hu, rfl⟩

/-- Only a publish to that name changes the message or the timeout. -/
theorem Wf.keeps_handle (hb : b.Wf) {topicName : Text} {q : Request} {r : Response}
    (hq : ∀ message, q ≠ .publish topicName message) (hstep : b.handle env q = .ok (r, c)) :
    Keeps topicName b c := by
  cases q with
  | subscribe ipAddress port name =>
      have hc : b.subscribe env ⟨ipAddress, port⟩ name = (r, c) := Except.ok.inj hstep
      simpa [hc] using keeps_subscribe env b topicName ⟨ipAddress, port⟩ name
  | unsubscribe ipAddress port name => exact keeps_unsubscribe topicName hstep
  | publish name message =>
      have hc : b.publish env name message = (r, c) := Except.ok.inj hstep
      have hne : name ≠ topicName := fun h ↦ hq message (by rw [h])
      simpa [hc] using hb.keeps_publish env hne message
  | listTopics =>
      cases hstep
      exact .of_topics topicName (List.Subset.refl _)
  | getTopicStatus name =>
      cases hstep
      exact .of_topics topicName (List.Subset.refl _)

theorem exists_call_sendTo (env : Environment) (v : TopicView) {e : Endpoint}
    {es : List Endpoint} (he : e ∈ es) (os : Os) :
    ∃ call ∈ (sendTo env v es os).1, call.Carries e v.topicName v.message := by
  induction es generalizing os with
  | nil => exact absurd he List.not_mem_nil
  | cons d es ih =>
      rcases List.mem_cons.mp he with rfl | he
      · exact ⟨_, List.mem_cons_self, ⟨rfl, rfl, rfl, rfl⟩⟩
      · obtain ⟨call, hcall, hcontent⟩ := ih he (os.acquire env).2
        exact ⟨call, List.mem_cons_of_mem _ hcall, hcontent⟩

end Broker

/-- Between the two states `SendMessage` was called so, and what is given of the call holds. -/
def World.CalledBetween (w w' : World) (e : Endpoint) (topicName message : Text)
    (given : SendMessageCall → Prop) : Prop :=
  ∃ news : List Event, w'.history = news ++ w.history ∧
    ∃ x ∈ news, ∃ call ∈ x.calls, call.Carries e topicName message ∧ given call

/-- Between the two states a datagram with that topic and message left for the endpoint. -/
def World.SentBetween (w w' : World) (e : Endpoint) (topicName message : Text) : Prop :=
  w.CalledBetween w' e topicName message fun call ↦ call.socket ≠ none

theorem World.CalledBetween.mono {first w w' last : World} {older newer : List Event}
    {e : Endpoint} {topicName message : Text} {given : SendMessageCall → Prop}
    (hfirst : w.history = older ++ first.history) (hlast : last.history = newer ++ w'.history)
    (h : w.CalledBetween w' e topicName message given) :
    first.CalledBetween last e topicName message given := by
  obtain ⟨news, hhistory, x, hx, hcalled⟩ := h
  refine ⟨newer ++ (news ++ older), ?_, x, ?_, hcalled⟩
  · rw [hlast, hhistory, hfirst, List.append_assoc, List.append_assoc]
  · exact List.mem_append_right _ (List.mem_append_left _ hx)

theorem World.CalledBetween.recorded {w w' : World} {e : Endpoint} {topicName message : Text}
    {given : SendMessageCall → Prop} (h : w.CalledBetween w' e topicName message given) :
    ∃ x ∈ w'.history, ∃ call ∈ x.calls, call.message = message ∧ given call := by
  obtain ⟨news, hhistory, x, hx, call, hcall, hcarries, hgiven⟩ := h
  exact ⟨x, by rw [hhistory]; exact List.mem_append_left _ hx, call, hcall, hcarries.message,
    hgiven⟩

/-- A tick calls `SendMessage` with the message a topic holds for everyone who is
subscribed, once the timeout is over; a call without a socket was refused one. -/
theorem World.Sound.calledBetween_tick {env : Environment} {topicTimeout : ℤ} {w w' : World}
    {r : Option Response} (hw : w.Sound)
    (hstep : (Server.system env topicTimeout).step w .tick = .ok (r, w')) {e : Endpoint}
    {topicName message : Text} {timeoutTimestamp : ℤ} (hhas : w.HasSubscriber e topicName)
    (hholds : w.view.Holds topicName message timeoutTimestamp) (hmessage : message ≠ [])
    (hclock : ∀ n, w.os.readings ≤ n → timeoutTimestamp ≤ env.time n) :
    w.CalledBetween w' e topicName message fun call ↦
      call.socket = none → w.os.RefusedBetween env w'.os := by
  have hview := Server.view_tick hw hstep
  obtain ⟨news, hhistory, hnews⟩ := hw.inv.history_tick env
  obtain ⟨v, hv, rfl, rfl, rfl⟩ := hholds
  have he : e ∈ v.subscribers := (hw.inv.toWf.has_iff_of_mem hv e).mp (World.has_view.mpr hhas)
  obtain ⟨x, hx, os, hos, rfl⟩ : ∃ x ∈ news, ∃ os : Os, w.view.os.readings ≤ os.readings ∧
      x = Broker.checkEvent env v os := Broker.exists_mem_of_forall₂ hnews hv
  have hdue : v.timeoutTimestamp ≤ env.time os.readings := hclock _ hos
  obtain ⟨call, hcall, hcontent⟩ := Broker.exists_call_sendTo env v he os.readTime
  have hevent := List.mem_reverse.mpr hx
  have hcalls : call ∈ (Broker.checkEvent env v os).calls := by
    rw [Broker.checkEvent, if_pos hdue, Event.calls, Broker.publishMessage, if_neg hmessage]
    exact hcall
  have hrefused := hw.inv.refused_of_tick hhistory hevent hcalls
  rw [← hview] at hhistory hrefused
  exact ⟨news.reverse, hhistory, _, hevent, call, hcalls, hcontent, hrefused⟩

namespace Server

/-- A publish is answered with success in the state `published` is entered by; then
come the requests, and the endpoint is subscribed all along; the tick is next. -/
structure Acknowledged (env : Environment) (topicTimeout : ℤ) (e : Endpoint)
    (topicName message : Text) (requests : List Request) (before published atTick after : World) :
    Prop where
  reachable : (system env topicTimeout).Reachable before
  nonempty : message ≠ []
  success : ∃ r, r.statusCode = some .success ∧ (system env topicTimeout).step before
    (.request (.publish topicName message)) = .ok (some r, published)
  subscribed : (system env topicTimeout).Throughout (fun w ↦ w.HasSubscriber e topicName)
    published (requests.map .request)
  run : ∃ outputs, (system env topicTimeout).run published (requests.map .request) =
    .ok (outputs, atTick)
  tick : ∃ r, (system env topicTimeout).step atTick .tick = .ok (r, after)

theorem Acknowledged.holds {env : Environment} {topicTimeout : ℤ} {e : Endpoint}
    {topicName message : Text} {requests : List Request} {before published atTick after : World}
    (h : Acknowledged env topicTimeout e topicName message requests before published atTick after)
    (honly : ∀ m, .publish topicName m ∉ requests) :
    atTick.Sound ∧ atTick.HasSubscriber e topicName ∧
      atTick.view.Holds topicName message (env.time (before.os.readings + 1)) ∧
      before.os.readings + 1 ≤ atTick.os.readings := by
  have hbefore := (abstraction env topicTimeout).sound h.reachable
  obtain ⟨r, hr, hpublish⟩ := h.success
  obtain ⟨hact, hpublished⟩ := (abstraction env topicTimeout).view_step hbefore hpublish
  have hstored : before.view.publish env topicName message = (r, published.view) := by
    have hok := Prod.mk.inj (Except.ok.inj hact)
    exact Prod.ext (Option.some.inj hok.1) hok.2
  obtain ⟨hholds, hreadings⟩ := Broker.holds_publish hstored hr
  have hlater : before.os.readings + 2 ≤ published.os.readings := hreadings.ge
  obtain ⟨outputs, hrun⟩ := h.run
  have hend := h.subscribed.keeps hrun (Q := fun w ↦ w.Sound ∧
      w.view.Holds topicName message (env.time (before.os.readings + 1)) ∧
      before.os.readings + 2 ≤ w.os.readings) ?_ ⟨hpublished, hholds, hlater⟩
  · exact ⟨hend.2.1, hend.1, hend.2.2.1, by omega⟩
  · rintro w a o w' ha - hhas hstep ⟨hw, hw_holds, hle⟩
    obtain ⟨q, hq, rfl⟩ := List.mem_map.mp ha
    obtain ⟨hview, hw'⟩ := (abstraction env topicTimeout).view_step hw hstep
    have hqact : w.view.act env (.request q) = .ok (o, w'.view) := hview
    have hle' := (hw.inv.changes_act hqact).readings_le
    refine ⟨hw', ?_, hle.trans hle'⟩
    rcases Broker.act_eq_ok hqact with ⟨q', s, heq, -, hhandle⟩ | ⟨heq, -, -⟩
    · obtain rfl := Action.request.inj heq
      have hkeeps := hw.inv.toWf.keeps_handle (fun m hm ↦ honly m (hm ▸ hq)) hhandle
      exact hkeeps.holds hw.inv.toWf (World.has_view.mpr hhas) hw_holds
    · cases heq

end Server

/-- While the topic takes no further publish and the clock does not fall behind the
publish, the tick calls `SendMessage` with the acknowledged message for everyone who
stayed, and the datagram leaves if the tick is refused no socket. -/
theorem acknowledged_publish_sent (env : Environment) (topicTimeout : ℤ) {e : Endpoint}
    {topicName message : Text} {requests : List Request} {before published atTick after : World}
    (h : Server.Acknowledged env topicTimeout e topicName message requests before published atTick
      after)
    (honly : ∀ m, .publish topicName m ∉ requests)
    (hclock : ∀ n, before.os.readings + 1 ≤ n →
      env.time (before.os.readings + 1) ≤ env.time n) :
    (atTick.CalledBetween after e topicName message fun _ ↦ True) ∧
      (¬ atTick.os.RefusedBetween env after.os →
        atTick.SentBetween after e topicName message) := by
  obtain ⟨hsound, hhas, hholds, hle⟩ := h.holds honly
  obtain ⟨r, htick⟩ := h.tick
  obtain ⟨news, hhistory, x, hx, call, hcall, hcarries, hrefused⟩ :=
    hsound.calledBetween_tick htick hhas hholds h.nonempty fun n hn ↦ hclock n (hle.trans hn)
  constructor
  · exact ⟨news, hhistory, x, hx, call, hcall, hcarries, trivial⟩
  · exact fun hgranted ↦
      ⟨news, hhistory, x, hx, call, hcall, hcarries, fun hsocket ↦ hgranted (hrefused hsocket)⟩

/-- One request of another client between the publish and the tick. -/
theorem acknowledged_publish_sent_once :
    let S := Server.system .steady 10
    let actions : List Action := [
      .request (.subscribe (ascii "10.0.0.1") 7001 (ascii "news")),
      .request (.publish (ascii "news") (ascii "first")),
      .request (.subscribe (ascii "10.0.0.2") 7001 (ascii "news"))]
    (S.final actions).SentBetween (S.final (actions ++ [.tick])) ⟨ascii "10.0.0.1", 7001⟩
      (ascii "news") (ascii "first") := by
  intro S actions
  have h : Server.Acknowledged .steady 10 ⟨ascii "10.0.0.1", 7001⟩ (ascii "news") (ascii "first")
      [.subscribe (ascii "10.0.0.2") 7001 (ascii "news")] (S.final (actions.take 1))
      (S.final (actions.take 2)) (S.final actions) (S.final (actions ++ [.tick])) := {
    reachable := Transition.System.reachable_final _ _
    nonempty := by decide
    success := ⟨(Response.new .publish).setStatusCode .success, rfl, by decide +kernel⟩
    subscribed := by decide +kernel
    run := ⟨[some ((Response.new .subscribe).setStatusCode .success)], by decide +kernel⟩
    tick := ⟨none, by decide +kernel⟩ }
  have hsent := acknowledged_publish_sent .steady 10 h (by simp) fun n hn ↦ Int.ofNat_le.mpr hn
  refine hsent.2 ?_
  rintro ⟨n, -, -, ⟨⟩⟩

/-- An acknowledged publish is lost when another one overwrites it before the tick,
when the clock is set back, and when the tick is refused a socket. -/
theorem acknowledged_publish_lost :
    (∃ requests before published atTick after,
      Server.Acknowledged .steady 10 ⟨ascii "10.0.0.1", 7001⟩ (ascii "news") (ascii "first")
        requests before published atTick after ∧
      ¬ before.SentBetween after ⟨ascii "10.0.0.1", 7001⟩ (ascii "news") (ascii "first")) ∧
    (∃ env before published after,
      Server.Acknowledged env 10 ⟨ascii "10.0.0.1", 7001⟩ (ascii "news") (ascii "first") [] before
        published published after ∧
      ¬ before.SentBetween after ⟨ascii "10.0.0.1", 7001⟩ (ascii "news") (ascii "first")) ∧
    ∃ env before published after,
      Server.Acknowledged env 10 ⟨ascii "10.0.0.1", 7001⟩ (ascii "news") (ascii "first") [] before
        published published after ∧
      ¬ before.SentBetween after ⟨ascii "10.0.0.1", 7001⟩ (ascii "news") (ascii "first") := by
  let subscribe : Action := .request (.subscribe (ascii "10.0.0.1") 7001 (ascii "news"))
  let first : Action := .request (.publish (ascii "news") (ascii "first"))
  let second : Action := .request (.publish (ascii "news") (ascii "second"))
  let success : Response := (Response.new .publish).setStatusCode .success
  refine ⟨?_, ?_, ?_⟩
  · let S := Server.system .steady 10
    refine ⟨[.publish (ascii "news") (ascii "second")], S.final [subscribe],
      S.final [subscribe, first], S.final [subscribe, first, second],
      S.final [subscribe, first, second, .tick], {
        reachable := Transition.System.reachable_final _ _
        nonempty := by decide
        success := ⟨success, rfl, by decide +kernel⟩
        subscribed := by decide +kernel
        run := ⟨[some success], by decide +kernel⟩
        tick := ⟨none, by decide +kernel⟩ }, fun hsent ↦ ?_⟩
    exact absurd hsent.recorded (by decide +kernel)
  · -- The tick reads 0, the publish before it read 100.
    let env : Environment := ⟨fun n ↦ if n < 4 then 100 else 0, fun _ ↦ true⟩
    let S := Server.system env 10
    refine ⟨env, S.final [subscribe], S.final [subscribe, first],
      S.final [subscribe, first, .tick], {
        reachable := Transition.System.reachable_final _ _
        nonempty := by decide
        success := ⟨success, rfl, by decide +kernel⟩
        subscribed := by decide +kernel
        run := ⟨[], rfl⟩
        tick := ⟨none, by decide +kernel⟩ }, fun hsent ↦ ?_⟩
    exact absurd hsent.recorded (by decide +kernel)
  · let env : Environment := ⟨fun n ↦ n, fun _ ↦ false⟩
    let S := Server.system env 10
    exact ⟨env, S.final [subscribe], S.final [subscribe, first],
      S.final [subscribe, first, .tick], {
        reachable := Transition.System.reachable_final _ _
        nonempty := by decide
        success := ⟨success, rfl, by decide +kernel⟩
        subscribed := by decide +kernel
        run := ⟨[], rfl⟩
        tick := ⟨none, by decide +kernel⟩ }, fun hsent ↦ absurd hsent.recorded (by decide +kernel)⟩

end PublisherSubscriber
