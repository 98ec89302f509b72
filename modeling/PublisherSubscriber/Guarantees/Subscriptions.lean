import PublisherSubscriber.Broker.Membership
import PublisherSubscriber.Broker.Replies
import Mathlib.Data.Finset.Basic

/-!
# The broker as a relation between endpoints and topic names

The documented contract of the five requests, on a finite set of pairs, and
the runs in which the server keeps it.
-/

namespace PublisherSubscriber

open PointerHeap

abbrev Subscriptions := Finset (Endpoint × Text)

namespace Subscriptions

def Occurs (R : Subscriptions) (topicName : Text) : Prop := ∃ e, (e, topicName) ∈ R

/-- The answers and moves of the specification; timestamps are left open. -/
inductive Answers (R : Subscriptions) : Request → Response → Subscriptions → Prop
  | subscribed {ipAddress : Text} {port : ℤ} {t : Text} {r : Response}
      (hnew : (⟨ipAddress, port⟩, t) ∉ R) (hr : r.statusCode = some .success) :
      Answers R (.subscribe ipAddress port t) r (insert (⟨ipAddress, port⟩, t) R)
  | alreadySubscribed {ipAddress : Text} {port : ℤ} {t : Text} {r : Response}
      (hold : (⟨ipAddress, port⟩, t) ∈ R) (hr : r.statusCode = some .failed) :
      Answers R (.subscribe ipAddress port t) r R
  | unsubscribed {ipAddress : Text} {port : ℤ} {t : Text} {r : Response}
      (hold : (⟨ipAddress, port⟩, t) ∈ R) (hr : r.statusCode = some .success) :
      Answers R (.unsubscribe ipAddress port t) r (R.erase (⟨ipAddress, port⟩, t))
  | notSubscribed {ipAddress : Text} {port : ℤ} {t : Text} {r : Response}
      (hnew : (⟨ipAddress, port⟩, t) ∉ R) (hoccurs : R.Occurs t)
      (hr : r.statusCode = some .failed) : Answers R (.unsubscribe ipAddress port t) r R
  | nothingToLeave {ipAddress : Text} {port : ℤ} {t : Text} {r : Response}
      (hoccurs : ¬ R.Occurs t) (hr : r.statusCode = some .invalidParameter) :
      Answers R (.unsubscribe ipAddress port t) r R
  | published {t message : Text} {r : Response} (hoccurs : R.Occurs t)
      (hr : r.statusCode = some .success) : Answers R (.publish t message) r R
  | nothingToPublish {t message : Text} {r : Response} (hoccurs : ¬ R.Occurs t)
      (hr : r.statusCode = some .invalidParameter) : Answers R (.publish t message) r R
  | listed {r : Response} (names : List Text) (hnodup : names.Nodup)
      (hnames : ∀ t, t ∈ names ↔ R.Occurs t) (hr : r.statusCode = some .success)
      (hargument : r.getResponseArgument .topics = .ok (Response.arrayString names)) :
      Answers R .listTopics r R
  | shown {t : Text} {r : Response} (endpoints : List Endpoint) (hoccurs : R.Occurs t)
      (hnodup : endpoints.Nodup) (hendpoints : ∀ e, e ∈ endpoints ↔ (e, t) ∈ R)
      (hr : r.statusCode = some .success)
      (hargument : r.getResponseArgument .subscribers =
        .ok (Response.arrayString (endpoints.map Endpoint.toText))) :
      Answers R (.getTopicStatus t) r R
  | nothingToShow {t : Text} {r : Response} (hoccurs : ¬ R.Occurs t)
      (hr : r.statusCode = some .invalidParameter) : Answers R (.getTopicStatus t) r R

/-- A tick of the heartbeat changes no subscription. -/
def Step (R : Subscriptions) : Action → Option Response → Subscriptions → Prop
  | .request q, some r, R' => R.Answers q r R'
  | .tick, none, R' => R' = R
  | _, _, _ => False

end Subscriptions

/-! ## The broker's steps -/

namespace Broker

def Related (b : Broker) (R : Subscriptions) : Prop := ∀ e t, (e, t) ∈ R ↔ b.Has e t

theorem Inv.occurs_iff {b : Broker} (h : b.Inv) {R : Subscriptions} (hR : b.Related R) (t : Text) :
    R.Occurs t ↔ b.find t ≠ none := by
  rw [← h.exists_has_iff_find]
  exact exists_congr fun e ↦ hR e t

/-- If a topic of that name exists, the endpoint is its first subscriber. -/
def FirstLeaves (b : Broker) : Action → Prop
  | .request (.unsubscribe ipAddress port topicName) =>
      ∀ v ∈ b.topics, v.topicName = topicName → v.subscribers.head? = some ⟨ipAddress, port⟩
  | _ => True

theorem Inv.subscribe_conforms {b : Broker} (h : b.Inv) {R : Subscriptions} (hR : b.Related R)
    (env : Environment) (ipAddress : Text) (port : ℤ) (t : Text) :
    ∃ R', R.Answers (.subscribe ipAddress port t) (b.subscribe env ⟨ipAddress, port⟩ t).1 R' ∧
      (b.subscribe env ⟨ipAddress, port⟩ t).2.Related R' := by
  classical
  have hstatus := h.statusCode_subscribe env ⟨ipAddress, port⟩ t
  have hhas := h.has_subscribe env ⟨ipAddress, port⟩ t
  by_cases hold : b.Has ⟨ipAddress, port⟩ t
  · rw [if_pos hold] at hstatus
    refine ⟨R, .alreadySubscribed ((hR _ _).mpr hold) hstatus, fun e' t' ↦ ?_⟩
    rw [hhas, hR, or_iff_left_of_imp]
    rintro ⟨rfl, rfl⟩
    exact hold
  · rw [if_neg hold] at hstatus
    refine ⟨_, .subscribed (fun hmem ↦ hold ((hR _ _).mp hmem)) hstatus, fun e' t' ↦ ?_⟩
    rw [hhas, Finset.mem_insert, hR, Prod.mk.injEq, or_comm]

theorem Inv.unsubscribe_conforms {b c : Broker} (h : b.Inv) {R : Subscriptions}
    (hR : b.Related R) {ipAddress : Text} {port : ℤ} {t : Text} {r : Response}
    (hstep : b.unsubscribe ⟨ipAddress, port⟩ t = .ok (r, c)) :
    (∃ R', R.Answers (.unsubscribe ipAddress port t) r R' ∧ c.Related R') ↔
      b.FirstLeaves (.request (.unsubscribe ipAddress port t)) := by
  rcases h.has_unsubscribe hstep with ⟨hfind, rfl, rfl⟩ | ⟨v, hv, rfl, first, hfirst, rfl, hleft⟩
  · have hoccurs : ¬ R.Occurs t := fun hoccurs ↦ (h.occurs_iff hR t).mp hoccurs hfind
    refine ⟨fun _ v hv hname ↦ (find_eq_none_iff.mp hfind v hv hname).elim, fun _ ↦ ?_⟩
    exact ⟨R, .nothingToLeave hoccurs rfl, hR⟩
  · have hfirstHas : b.Has first v.topicName := ⟨v, hv, rfl, List.mem_of_mem_head? hfirst⟩
    have hguard : b.FirstLeaves (.request (.unsubscribe ipAddress port v.topicName)) ↔
        first = ⟨ipAddress, port⟩ := by
      constructor
      · intro hall
        exact Option.some.inj (hfirst.symm.trans (hall v hv rfl))
      · rintro rfl u hu hname
        rwa [h.eq_of_topicName hu hv hname]
    rw [hguard]
    constructor
    · rintro ⟨R', hanswers, hR'⟩
      by_contra hne
      cases hanswers with
      | unsubscribed =>
          -- The specification keeps the first subscriber, the server does not.
          have hkept : (first, v.topicName) ∈ R.erase (⟨ipAddress, port⟩, v.topicName) :=
            Finset.mem_erase.mpr ⟨fun heq ↦ hne (Prod.mk.inj heq).1, (hR _ _).mpr hfirstHas⟩
          exact ((hleft _ _).mp ((hR' _ _).mp hkept)).2 ⟨rfl, rfl⟩
      | notSubscribed _ _ hfailed => simp at hfailed
      | nothingToLeave _ hinvalid => simp at hinvalid
    · rintro rfl
      refine ⟨_, .unsubscribed ((hR _ _).mpr hfirstHas) rfl, fun e t ↦ ?_⟩
      rw [Finset.mem_erase, hR, hleft, Ne, Prod.mk.injEq, and_comm]

theorem Inv.publish_conforms {b : Broker} (h : b.Inv) {R : Subscriptions} (hR : b.Related R)
    (env : Environment) (t message : Text) :
    R.Answers (.publish t message) (b.publish env t message).1 R ∧
      (b.publish env t message).2.Related R := by
  refine ⟨?_, fun e t' ↦ (hR e t').trans (has_publish b env t message e t').symm⟩
  have hoccurs := h.occurs_iff hR t
  rcases b.publish_cases env t message with ⟨hfind, hpublish⟩ | ⟨v, hfind, hpublish⟩ <;>
    rw [hpublish]
  · exact .nothingToPublish (fun ho ↦ hoccurs.mp ho hfind) rfl
  · exact .published (hoccurs.mpr (by simp [hfind])) rfl

theorem Inv.listTopics_conforms {b : Broker} (h : b.Inv) {R : Subscriptions} (hR : b.Related R) :
    R.Answers .listTopics b.listTopics R := by
  refine .listed _ h.names_nodup (fun t ↦ ?_) rfl (getResponseArgument_listTopics b)
  rw [List.mem_map, h.occurs_iff hR, ← h.exists_has_iff_find, h.exists_has_iff]

theorem Inv.getTopicStatus_conforms {b : Broker} (h : b.Inv) {R : Subscriptions}
    (hR : b.Related R) (t : Text) : R.Answers (.getTopicStatus t) (b.getTopicStatus t) R := by
  have hoccurs := h.occurs_iff hR t
  unfold Broker.getTopicStatus
  cases hfind : b.find t with
  | none => exact .nothingToShow (fun ho ↦ hoccurs.mp ho hfind) rfl
  | some v =>
      obtain ⟨hv, rfl⟩ := find_eq_some hfind
      refine .shown v.subscribers (hoccurs.mpr (by simp [hfind])) (h.subscribers_nodup v hv)
        (fun e ↦ ?_) rfl (getResponseArgument_topicStatus v)
      rw [hR, h.toWf.has_iff_of_mem hv]

/-- An unsubscribe that takes the first subscriber's place is never orphaned. -/
theorem Inv.act_ok_of_firstLeaves {b : Broker} (h : b.Inv) (env : Environment) {a : Action}
    (ha : b.FirstLeaves a) : ∃ r c, b.act env a = .ok (r, c) := by
  cases a with
  | tick => exact ⟨_, _, rfl⟩
  | request q =>
      cases q with
      | unsubscribe ipAddress port t =>
          have hok : ∃ r c, b.unsubscribe ⟨ipAddress, port⟩ t = .ok (r, c) := by
            unfold Broker.unsubscribe
            cases hfind : b.find t with
            | none => exact ⟨_, _, rfl⟩
            | some v =>
                obtain ⟨hv, hname⟩ := find_eq_some hfind
                have hmem := List.mem_of_mem_head? (ha v hv hname)
                have hknown := h.subscribers_connected v hv _ hmem
                simp [Broker.releaseConnection, hknown, Except.map]
          obtain ⟨r, c, hrc⟩ := hok
          exact ⟨some r, c, by simp [Broker.act, Broker.handle, hrc, Except.map]⟩
      | subscribe => exact ⟨_, _, rfl⟩
      | publish => exact ⟨_, _, rfl⟩
      | listTopics => exact ⟨_, _, rfl⟩
      | getTopicStatus => exact ⟨_, _, rfl⟩

theorem Inv.step_conforms_iff {b : Broker} (h : b.Inv) {R : Subscriptions} (hR : b.Related R)
    (env : Environment) (a : Action) :
    (∃ r c R', b.act env a = .ok (r, c) ∧ R.Step a r R' ∧ c.Related R') ↔ b.FirstLeaves a := by
  constructor
  · rintro ⟨r, c, R', hact, hspec, hR'⟩
    rcases act_eq_ok hact with ⟨q, s, rfl, rfl, hhandle⟩ | ⟨rfl, -, -⟩
    · cases q with
      | unsubscribe ipAddress port t =>
          exact (h.unsubscribe_conforms hR hhandle).mp ⟨R', hspec, hR'⟩
      | subscribe => trivial
      | publish => trivial
      | listTopics => trivial
      | getTopicStatus => trivial
    · trivial
  · intro ha
    obtain ⟨r, c, hact⟩ := h.act_ok_of_firstLeaves env ha
    refine ⟨r, c, ?_⟩
    rcases act_eq_ok hact with ⟨q, s, rfl, rfl, hhandle⟩ | ⟨rfl, rfl, rfl⟩
    · cases q with
      | subscribe ipAddress port t =>
          obtain ⟨R', hanswers, hR'⟩ := h.subscribe_conforms hR env ipAddress port t
          have hsubscribed : b.subscribe env ⟨ipAddress, port⟩ t = (s, c) := Except.ok.inj hhandle
          rw [hsubscribed] at hanswers hR'
          exact ⟨R', hact, hanswers, hR'⟩
      | unsubscribe ipAddress port t =>
          obtain ⟨R', hanswers, hR'⟩ := (h.unsubscribe_conforms hR hhandle).mpr ha
          exact ⟨R', hact, hanswers, hR'⟩
      | publish t message =>
          obtain ⟨hanswers, hR'⟩ := h.publish_conforms hR env t message
          have hpublished : b.publish env t message = (s, c) := Except.ok.inj hhandle
          rw [hpublished] at hanswers hR'
          exact ⟨R, hact, hanswers, hR'⟩
      | listTopics =>
          cases hhandle
          exact ⟨R, hact, h.listTopics_conforms hR, hR⟩
      | getTopicStatus t =>
          cases hhandle
          exact ⟨R, hact, h.getTopicStatus_conforms hR t, hR⟩
    · exact ⟨R, hact, rfl, fun e t ↦ (hR e t).trans (has_tick b env e t).symm⟩

end Broker

/-! ## The server's runs -/

namespace World

def Related (w : World) (R : Subscriptions) : Prop := ∀ e t, (e, t) ∈ R ↔ w.HasSubscriber e t

/-- The action is no unsubscribe, or names no topic, or comes from the client
that stands first in the topic's subscriber list. -/
def FirstLeaves (w : World) : Action → Prop
  | .request (.unsubscribe ipAddress port topicName) =>
      ∀ p ∈ w.topics, (w.topicHeap.deref p).topicName = topicName →
        (w.topicHeap.deref p).subscriberList.head?.map w.endpointOf = some ⟨ipAddress, port⟩
  | _ => True

instance (w : World) : DecidablePred w.FirstLeaves
  | .request (.unsubscribe ipAddress port topicName) => inferInstanceAs (Decidable
      (∀ p ∈ w.topics, (w.topicHeap.deref p).topicName = topicName →
        (w.topicHeap.deref p).subscriberList.head?.map w.endpointOf = some ⟨ipAddress, port⟩))
  | .request (.subscribe _ _ _) | .request (.publish _ _) | .request .listTopics
  | .request (.getTopicStatus _) | .tick => isTrue trivial

theorem related_view {w : World} {R : Subscriptions} : w.view.Related R ↔ w.Related R := by
  simp only [Broker.Related, Related, has_view]

theorem firstLeaves_view {w : World} (a : Action) : w.view.FirstLeaves a ↔ w.FirstLeaves a := by
  cases a with
  | tick => rfl
  | request q => cases q <;> simp [Broker.FirstLeaves, FirstLeaves, view, viewTopic]

end World

theorem Server.step_conforms_iff {env : Environment} {topicTimeout : ℤ} {w : World}
    (hw : w.Sound) {R : Subscriptions} (hR : w.Related R) (a : Action) :
    (∃ r w' R', (system env topicTimeout).step w a = .ok (r, w') ∧ R.Step a r R' ∧
      w'.Related R') ↔ w.FirstLeaves a := by
  rw [← World.firstLeaves_view, ← hw.inv.step_conforms_iff (World.related_view.mpr hR) env a]
  constructor
  · rintro ⟨r, w', R', hstep, hspec, hR'⟩
    obtain ⟨hact, -⟩ := (abstraction env topicTimeout).view_step hw hstep
    exact ⟨r, w'.view, R', hact, hspec, World.related_view.mpr hR'⟩
  · rintro ⟨r, c, R', hact, hspec, hR'⟩
    obtain ⟨w', hstep, rfl, -⟩ := (abstraction env topicTimeout).step_ok w a r c hw hact
    exact ⟨r, w', R', hstep, hspec, World.related_view.mp hR'⟩

theorem Server.conforms_iff {env : Environment} {topicTimeout : ℤ} {w : World} (hw : w.Sound)
    {R : Subscriptions} (hR : w.Related R) (actions : List Action) :
    (system env topicTimeout).Conforms Subscriptions.Step World.Related w R actions ↔
      (system env topicTimeout).Meets World.FirstLeaves w actions :=
  Transition.System.conforms_iff_meets (R := World.Related)
    (fun _ _ _ _ hs hstep ↦ ((abstraction env topicTimeout).view_step hs hstep).2)
    (fun _ _ a hs hRs ↦ step_conforms_iff hs hRs a) hw hR actions

theorem World.related_initial (topicTimeout : ℤ) : (Server.initial topicTimeout).Related ∅ := by
  simp [Related, HasSubscriber, Server.initial]

/-- A run from the empty server keeps to the specification exactly when every
unsubscribe in it comes from the first subscriber of the topic it names. -/
theorem refines_subscriptions_iff (env : Environment) (topicTimeout : ℤ)
    (actions : List Action) :
    (Server.system env topicTimeout).Conforms Subscriptions.Step World.Related
      (Server.initial topicTimeout) ∅ actions ↔
    (Server.system env topicTimeout).Meets World.FirstLeaves (Server.initial topicTimeout)
      actions :=
  Server.conforms_iff (Server.sound_initial topicTimeout)
    (World.related_initial topicTimeout) actions

/-- The second subscriber leaves, and the first one is removed. -/
theorem other_subscriber_removed :
    ¬ (Server.system .steady 10).Conforms Subscriptions.Step World.Related (Server.initial 10) ∅ [
      .request (.subscribe (ascii "10.0.0.1") 7001 (ascii "news")),
      .request (.subscribe (ascii "10.0.0.2") 7001 (ascii "news")),
      .request (.unsubscribe (ascii "10.0.0.2") 7001 (ascii "news"))] := by
  rw [Server.conforms_iff (Server.sound_initial 10) (World.related_initial 10)]
  decide +kernel

end PublisherSubscriber
