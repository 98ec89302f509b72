import PublisherSubscriber.Broker.Invariant
import PublisherSubscriber.Library.History
import Mathlib.Data.List.Forall2
import Mathlib.Logic.Relation

/-!
# What the history can tell of a step

Every action is a sequence of four kinds of changes.  An invariant that links
the topics to the history is kept by every run once each kind keeps it.
-/

namespace PublisherSubscriber

open PointerHeap

namespace Event

def topic : Event → Pointer
  | .created topic _ => topic
  | .published topic _ _ _ => topic
  | .checked topic _ _ _ => topic

def calls : Event → List SendMessageCall
  | .checked _ _ calls _ => calls
  | _ => []

def IsPublishOf (topic : Pointer) : Event → Prop
  | .published object _ _ _ => object = topic
  | _ => False

/-- A publish under that name, whatever topic object took it. -/
def IsPublishTo (topicName : Text) : Event → Prop
  | .published _ name _ _ => name = topicName
  | _ => False

def IsCheckOf (topic : Pointer) : Event → Prop
  | .checked object _ _ _ => object = topic
  | _ => False

def IsSendOf (topic : Pointer) : Event → Prop
  | .checked object _ calls _ => object = topic ∧ calls ≠ []
  | _ => False

theorem IsPublishOf.topic_eq {p : Pointer} {e : Event} (h : e.IsPublishOf p) : e.topic = p := by
  cases e <;> simp_all [IsPublishOf, topic]

theorem IsCheckOf.topic_eq {p : Pointer} {e : Event} (h : e.IsCheckOf p) : e.topic = p := by
  cases e <;> simp_all [IsCheckOf, topic]

theorem IsSendOf.isCheckOf {p : Pointer} {e : Event} (h : e.IsSendOf p) : e.IsCheckOf p := by
  cases e <;> simp_all [IsSendOf, IsCheckOf]

theorem IsPublishOf.not_isCheckOf {p q : Pointer} {e : Event} (h : e.IsPublishOf p) :
    ¬ e.IsCheckOf q := by
  cases e <;> simp_all [IsPublishOf, IsCheckOf]

end Event

namespace Broker

/-- What a tick records of a topic when its turn comes. -/
def checkEvent (env : Environment) (v : TopicView) (os : Os) : Event :=
  if v.timeoutTimestamp ≤ env.time os.readings then
    .checked v.object (env.time os.readings) (publishMessage env v os.readTime).1
      (some (env.time (publishMessage env v os.readTime).2.readings))
  else .checked v.object (env.time os.readings) [] none

theorem history_checkView (b : Broker) (env : Environment) (v : TopicView) :
    (b.checkView env v).history = checkEvent env v b.os :: b.history := by
  unfold checkView checkEvent
  dsimp only
  split_ifs <;> rfl

theorem checkEvent_cases (env : Environment) (v : TopicView) (os : Os) :
    (v.timeoutTimestamp ≤ env.time os.readings ∧
      checkEvent env v os = .checked v.object (env.time os.readings)
        (publishMessage env v os.readTime).1
        (some (env.time (publishMessage env v os.readTime).2.readings))) ∨
    (env.time os.readings < v.timeoutTimestamp ∧
      checkEvent env v os = .checked v.object (env.time os.readings) [] none) := by
  by_cases hdue : v.timeoutTimestamp ≤ env.time os.readings
  · exact Or.inl ⟨hdue, if_pos hdue⟩
  · exact Or.inr ⟨by omega, if_neg hdue⟩

@[simp] theorem topic_checkEvent (env : Environment) (v : TopicView) (os : Os) :
    (checkEvent env v os).topic = v.object := by
  rcases checkEvent_cases env v os with ⟨-, hevent⟩ | ⟨-, hevent⟩ <;> rw [hevent] <;> rfl

/-- What a check records is its first reading of the clock. -/
theorem now_of_checkEvent {env : Environment} {v : TopicView} {os : Os} {p : Pointer} {now : ℤ}
    {calls : List SendMessageCall} {reset : Option ℤ}
    (h : checkEvent env v os = .checked p now calls reset) : now = env.time os.readings := by
  rcases checkEvent_cases env v os with ⟨-, hevent⟩ | ⟨-, hevent⟩
  · exact (Event.checked.inj (h.symm.trans hevent)).2.1
  · exact (Event.checked.inj (h.symm.trans hevent)).2.1

inductive Change (env : Environment) (b : Broker) : Broker → Prop
  /-- Subscribers and connections may change, and topics may go. -/
  | silent (c : Broker)
      (htopics : ∀ v ∈ c.topics, ∃ u ∈ b.topics, v = { u with subscribers := v.subscribers })
      (htimeout : c.topicTimeout = b.topicTimeout) (hallocated : c.allocated = b.allocated)
      (hos : c.os = b.os) (hhistory : c.history = b.history) : Change env b c
  | create (topicName : Text) (hfind : b.find topicName = none) :
      Change env b (b.addTopic env topicName)
  | store (v : TopicView) (hv : v ∈ b.topics) (message : Text) :
      Change env b (b.storeMessage env v message)
  | check (v : TopicView) (hv : v ∈ b.topics) (hne : v.subscribers ≠ []) :
      Change env b (b.checkView env v)

/-- Changes one after the other, each from a well-formed broker. -/
def Changes (env : Environment) : Broker → Broker → Prop :=
  Relation.ReflTransGen fun b c ↦ b.Wf ∧ Change env b c

namespace Changes

variable {env : Environment} {b c d : Broker}

theorem single (hb : b.Wf) (h : Change env b c) : Changes env b c :=
  Relation.ReflTransGen.single ⟨hb, h⟩

theorem trans (hbc : Changes env b c) (hcd : Changes env c d) : Changes env b d :=
  Relation.ReflTransGen.trans hbc hcd

theorem invariant {I : Broker → Prop} (h : Changes env b c)
    (hchange : ∀ b c, b.Wf → Change env b c → I b → I c) (hb : I b) : I c := by
  induction h with
  | refl => exact hb
  | tail _ hstep ih => exact hchange _ _ hstep.1 hstep.2 ih

end Changes

/-! ## Every action is made of changes -/

variable {env : Environment} {b c : Broker}

theorem Change.refl (b : Broker) : Change env b b :=
  .silent b (fun v hv ↦ ⟨v, hv, rfl⟩) rfl rfl rfl rfl

theorem change_alter_subscribers (b : Broker) (object : Pointer) {f : TopicView → TopicView}
    (hf : ∀ u, f u = { u with subscribers := (f u).subscribers }) :
    Change env b (b.alter object f) := by
  refine .silent _ (fun v hv ↦ ?_) rfl rfl rfl rfl
  obtain ⟨u, hu, rfl⟩ := mem_alter.mp hv
  refine ⟨u, hu, ?_⟩
  split_ifs
  · exact hf u
  · rfl

theorem change_connect (env : Environment) (b : Broker) (e : Endpoint) :
    Change env b (b.connect e) := by
  rcases b.connect_cases e with ⟨-, hconnect⟩ | ⟨-, hconnect⟩ <;> rw [hconnect]
  · exact .refl b
  · exact .silent _ (fun v hv ↦ ⟨v, hv, rfl⟩) rfl rfl rfl rfl

theorem change_dropFirst (b : Broker) (v : TopicView) : Change env b (b.dropFirst v) := by
  rcases b.dropFirst_cases v with ⟨-, hdrop⟩ | ⟨-, hdrop⟩ <;> rw [hdrop]
  · exact .silent _ (fun u hu ↦ ⟨u, List.mem_of_mem_filter hu, rfl⟩) rfl rfl rfl rfl
  · exact change_alter_subscribers b v.object fun _ ↦ rfl

theorem change_releaseConnection {e : Endpoint} (h : b.releaseConnection e = .ok c) :
    Change env b c := by
  rcases releaseConnection_cases h with ⟨rfl, -⟩ | ⟨-, rfl⟩
  · exact .refl c
  · exact .silent _ (fun v hv ↦ ⟨v, hv, rfl⟩) rfl rfl rfl rfl

theorem Wf.changes_findOrAddTopic (h : b.Wf) (topicName : Text) :
    Changes env b (b.findOrAddTopic env topicName).2 := by
  apply Changes.single h
  rcases b.findOrAddTopic_cases env topicName with ⟨hfind, hadd⟩ | ⟨v, -, hadd⟩ <;> rw [hadd]
  · exact .create topicName hfind
  · exact .refl b

theorem Inv.changes_subscribe (h : b.Inv) (env : Environment) (e : Endpoint) (topicName : Text) :
    Changes env b (b.subscribe env e topicName).2 := by
  obtain ⟨hwf, -⟩ := h.toWf.findOrAddTopic env topicName
  have hconnected := (h.toWf.changes_findOrAddTopic topicName).trans
    (.single hwf (change_connect env _ e))
  rcases b.subscribe_cases env e topicName with ⟨-, hsubscribe⟩ | ⟨-, hsubscribe⟩ <;>
    rw [hsubscribe]
  · exact hconnected
  · exact hconnected.trans (.single (hwf.connect e) (change_alter_subscribers _ _ fun _ ↦ rfl))

theorem Inv.changes_unsubscribe (h : b.Inv) {e : Endpoint} {topicName : Text} {r : Response}
    (hstep : b.unsubscribe e topicName = .ok (r, c)) : Changes env b c := by
  rcases unsubscribe_cases hstep with ⟨-, rfl, -⟩ | ⟨v, hfind, hrelease, -⟩
  · exact .single h.toWf (.refl c)
  · have hdropped := h.dropFirst (find_eq_some hfind).1
    exact (Changes.single h.toWf (change_dropFirst b v)).trans
      (.single hdropped.toWf (change_releaseConnection hrelease))

theorem Inv.changes_publish (h : b.Inv) (env : Environment) (topicName message : Text) :
    Changes env b (b.publish env topicName message).2 := by
  apply Changes.single h.toWf
  rcases b.publish_cases env topicName message with ⟨-, hpublish⟩ | ⟨v, hfind, hpublish⟩ <;>
    rw [hpublish]
  · exact .refl b
  · exact .store v (find_eq_some hfind).1 message

theorem Inv.changes_checkTopic (h : b.Inv) (object : Pointer) :
    Changes env b (b.checkTopic env object) := by
  apply Changes.single h.toWf
  rcases checkTopic_cases env b object with hcheck | ⟨v, hv, -, hcheck⟩ <;> rw [hcheck]
  · exact .refl b
  · exact .check v hv (h.subscribers_ne_nil v hv)

theorem Inv.changes_tick (h : b.Inv) : Changes env b (b.tick env) := by
  have htick : (b.tick env).Inv ∧ Changes env b (b.tick env) := by
    apply tick_induction env (P := fun c ↦ c.Inv ∧ Changes env b c) _ ⟨h, .single h.toWf (.refl b)⟩
    rintro c object ⟨hc, hchanges⟩
    exact ⟨hc.checkTopic env object, hchanges.trans (hc.changes_checkTopic object)⟩
  exact htick.2

theorem Inv.changes_act (h : b.Inv) {a : Action} {r : Option Response}
    (hact : b.act env a = .ok (r, c)) : Changes env b c := by
  rcases act_eq_ok hact with ⟨q, s, -, -, hhandle⟩ | ⟨-, -, rfl⟩
  · cases q with
    | subscribe ipAddress port topicName =>
        have hc : b.subscribe env ⟨ipAddress, port⟩ topicName = (s, c) := Except.ok.inj hhandle
        simpa [hc] using h.changes_subscribe env ⟨ipAddress, port⟩ topicName
    | unsubscribe ipAddress port topicName => exact h.changes_unsubscribe hhandle
    | publish topicName message =>
        have hc : b.publish env topicName message = (s, c) := Except.ok.inj hhandle
        simpa [hc] using h.changes_publish env topicName message
    | listTopics =>
        cases hhandle
        exact .single h.toWf (.refl b)
    | getTopicStatus topicName =>
        cases hhandle
        exact .single h.toWf (.refl b)
  · exact h.changes_tick

/-- An invariant of the changes holds in every reachable state. -/
theorem reachable_invariant {topicTimeout : ℤ} {I : Broker → Prop}
    (hstart : I (system env topicTimeout).start)
    (hchange : ∀ b c, b.Wf → Change env b c → I b → I c)
    (h : (system env topicTimeout).Reachable b) : b.Inv ∧ I b :=
  h.invariant (I := fun b ↦ b.Inv ∧ I b) ⟨inv_start env topicTimeout, hstart⟩
    fun _ _ _ _ hb _ hact ↦ ⟨hb.1.act hact, (hb.1.changes_act hact).invariant hchange hb.2⟩

/-! ## What a tick records -/

/-- Sending does not read the clock. -/
@[simp] theorem readings_sendTo (env : Environment) (v : TopicView) (es : List Endpoint) (os : Os) :
    (sendTo env v es os).2.readings = os.readings := by
  induction es generalizing os with
  | nil => rfl
  | cons e es ih => simp [sendTo, ih]

@[simp] theorem readings_publishMessage (env : Environment) (v : TopicView) (os : Os) :
    (publishMessage env v os).2.readings = os.readings := by
  rcases publishMessage_cases env v os with ⟨-, hpublish⟩ | ⟨-, hpublish⟩ <;> rw [hpublish]
  exact readings_sendTo env v _ os

/-- A check reads the clock at least once. -/
theorem readings_lt_checkView (b : Broker) (env : Environment) (v : TopicView) :
    b.os.readings < (b.checkView env v).os.readings := by
  rcases checkView_cases env b v with ⟨-, _, _, rfl, hcheck⟩ | ⟨-, _, hcheck⟩ <;> rw [hcheck]
  · simp only [Os.readings_readTime, readings_publishMessage]
    omega
  · simp

theorem readings_le_checkView (b : Broker) (env : Environment) (v : TopicView) :
    b.os.readings ≤ (b.checkView env v).os.readings :=
  (readings_lt_checkView b env v).le

theorem Change.readings_le (h : Change env b c) : b.os.readings ≤ c.os.readings := by
  cases h with
  | silent _ _ _ _ hos => rw [hos]
  | create topicName =>
      show b.os.readings ≤ b.os.readings + 1 + 1
      omega
  | store v hv message =>
      show b.os.readings ≤ b.os.readings + 1 + 1
      omega
  | check v => exact readings_le_checkView b env v

theorem Changes.readings_le (h : Changes env b c) : b.os.readings ≤ c.os.readings :=
  h.invariant (I := fun c ↦ b.os.readings ≤ c.os.readings)
    (fun _ _ _ hchange hle ↦ hle.trans hchange.readings_le) le_rfl

theorem frame_checkView (b : Broker) (env : Environment) (v : TopicView) :
    (b.checkView env v).topicTimeout = b.topicTimeout ∧
      (b.checkView env v).allocated = b.allocated := by
  rcases checkView_cases env b v with ⟨-, _, _, -, hcheck⟩ | ⟨-, _, hcheck⟩ <;> rw [hcheck]
  · exact ⟨rfl, rfl⟩
  · exact ⟨rfl, rfl⟩

theorem mem_topics_checkView {b : Broker} {u v : TopicView} (hu : u ∈ b.topics)
    (huv : u.object ≠ v.object) : u ∈ (b.checkView env v).topics := by
  rcases checkView_cases env b v with ⟨-, _, _, -, hcheck⟩ | ⟨-, _, hcheck⟩ <;> rw [hcheck]
  · exact mem_alter.mpr ⟨u, hu, if_neg huv⟩
  · exact hu

/-- The check of one topic leaves the topics that are still to be checked alone. -/
theorem Inv.foldl_checkTopic (h : b.Inv) {vs : List TopicView} (hvs : ∀ v ∈ vs, v ∈ b.topics)
    (hnodup : (vs.map TopicView.object).Nodup) :
    (vs.map TopicView.object).foldl (Broker.checkTopic env) b =
      vs.foldl (Broker.checkView env) b := by
  induction vs generalizing b with
  | nil => rfl
  | cons v vs ih =>
      obtain ⟨hv, hvs⟩ := List.forall_mem_cons.mp hvs
      obtain ⟨hnew, hnodup⟩ := List.nodup_cons.mp hnodup
      have hcheck : b.checkTopic env v.object = b.checkView env v := by
        simp only [Broker.checkTopic, h.find_object hv]
      have hlater : ∀ u ∈ vs, u ∈ (b.checkView env v).topics := fun u hu ↦
        mem_topics_checkView (hvs u hu) fun huv ↦ hnew (huv ▸ List.mem_map_of_mem hu)
      rw [List.map_cons, List.foldl_cons, List.foldl_cons, hcheck]
      exact ih (h.checkView env v) hlater hnodup

/-- A tick checks every topic once, in order, as it was when the tick began. -/
theorem Inv.tick_eq (h : b.Inv) (env : Environment) :
    b.tick env = b.topics.foldl (Broker.checkView env) b :=
  h.foldl_checkTopic (fun _ hv ↦ hv) h.objects_nodup

theorem history_foldl_checkView (b : Broker) (env : Environment) (vs : List TopicView) :
    ∃ news, (vs.foldl (Broker.checkView env) b).history = news.reverse ++ b.history ∧
      List.Forall₂ (fun v e ↦ ∃ os : Os, b.os.readings ≤ os.readings ∧ e = checkEvent env v os)
        vs news := by
  induction vs generalizing b with
  | nil => exact ⟨[], rfl, .nil⟩
  | cons v vs ih =>
      obtain ⟨news, hhistory, hnews⟩ := ih (b.checkView env v)
      refine ⟨checkEvent env v b.os :: news, ?_, .cons ⟨b.os, Nat.le_refl _, rfl⟩ ?_⟩
      · rw [List.foldl_cons, hhistory, history_checkView]
        simp
      · refine hnews.imp ?_
        rintro u e ⟨os, hos, he⟩
        exact ⟨os, Nat.le_trans (readings_le_checkView b env v) hos, he⟩

theorem exists_mem_of_forall₂ {α β : Type} {R : α → β → Prop} {l : List α} {m : List β} {a : α}
    (h : List.Forall₂ R l m) (ha : a ∈ l) : ∃ b ∈ m, R a b := by
  induction h with
  | nil => exact absurd ha List.not_mem_nil
  | cons hR _ ih =>
      rcases List.mem_cons.mp ha with rfl | ha
      · exact ⟨_, List.mem_cons_self, hR⟩
      · obtain ⟨b, hb, hab⟩ := ih ha
        exact ⟨b, List.mem_cons_of_mem _ hb, hab⟩

theorem Inv.history_tick (h : b.Inv) (env : Environment) :
    ∃ news, (b.tick env).history = news.reverse ++ b.history ∧
      List.Forall₂ (fun v e ↦ ∃ os : Os, b.os.readings ≤ os.readings ∧ e = checkEvent env v os)
        b.topics news := by
  rw [h.tick_eq]
  exact history_foldl_checkView b env b.topics

/-! ## The calls of one tick -/

theorem endpoints_sendTo (env : Environment) (v : TopicView) (es : List Endpoint) (os : Os) :
    (sendTo env v es os).1.map (fun call ↦ (⟨call.address, call.port⟩ : Endpoint)) = es := by
  induction es generalizing os with
  | nil => rfl
  | cons e es ih => simp [sendTo, ih]

theorem content_sendTo {env : Environment} {v : TopicView} {es : List Endpoint} {os : Os}
    {call : SendMessageCall} (h : call ∈ (sendTo env v es os).1) :
    call.topicName = v.topicName ∧ call.message = v.message ∧
      call.timestamp = v.messageTimestamp := by
  induction es generalizing os with
  | nil => exact absurd h List.not_mem_nil
  | cons e es ih =>
      rcases List.mem_cons.mp h with rfl | h
      · exact ⟨rfl, rfl, rfl⟩
      · exact ih h

theorem publishMessage_of_ne_nil {env : Environment} {v : TopicView} {os : Os}
    (h : (publishMessage env v os).1 ≠ []) :
    v.message ≠ [] ∧ publishMessage env v os = sendTo env v v.subscribers os := by
  rcases publishMessage_cases env v os with ⟨-, hpublish⟩ | hpublish
  · rw [hpublish] at h
    exact (h rfl).elim
  · exact hpublish

/-- What `checkEvent` says of the calls it records. -/
theorem exists_checkEvent (env : Environment) (v : TopicView) (os : Os) :
    ∃ now calls reset, checkEvent env v os = .checked v.object now calls reset ∧
      (calls ≠ [] → v.message ≠ [] ∧
        calls.map (fun call ↦ (⟨call.address, call.port⟩ : Endpoint)) = v.subscribers ∧
        ∀ call ∈ calls, call.topicName = v.topicName ∧ call.message = v.message ∧
          call.timestamp = v.messageTimestamp) := by
  rcases checkEvent_cases env v os with ⟨-, hevent⟩ | ⟨-, hevent⟩ <;> rw [hevent]
  · refine ⟨_, _, _, rfl, fun hne ↦ ?_⟩
    obtain ⟨hmessage, hsend⟩ := publishMessage_of_ne_nil hne
    rw [hsend]
    exact ⟨hmessage, endpoints_sendTo env v _ _, fun call hcall ↦ content_sendTo hcall⟩
  · exact ⟨_, _, _, rfl, fun hne ↦ (hne rfl).elim⟩

end Broker

end PublisherSubscriber
