import PublisherSubscriber.Broker.Changes
import PublisherSubscriber.Broker.Refinement

/-!
# When the heartbeat sends

The stored timeout means three different things: nothing before the first
publish, "now" after a publish, and the end of the pause after a send.
-/

namespace PublisherSubscriber

open PointerHeap History

namespace Broker

/-! ## Asking the history -/

/-- The topic was published to, and no tick has checked it since the latest publish. -/
def UncheckedSincePublish (h : List Event) (p : Pointer) : Prop :=
  ∃ e, Latest (fun e ↦ e.IsPublishOf p ∨ e.IsCheckOf p) h e ∧ e.IsPublishOf p

/-- The latest tick that sent for the topic read `s` when it reset the timeout. -/
def LastReset (h : List Event) (p : Pointer) (s : ℤ) : Prop :=
  ∃ now calls, Latest (Event.IsSendOf p) h (.checked p now calls (some s))

section

variable {h : List Event} {p : Pointer} {x : Event} {s : ℤ}

theorem UncheckedSincePublish.published (hu : UncheckedSincePublish h p) :
    ∃ e ∈ h, e.IsPublishOf p := by
  obtain ⟨e, he, hpublish⟩ := hu
  exact ⟨e, he.mem, hpublish⟩

theorem uncheckedSincePublish_cons_of_not (hx : ¬ (x.IsPublishOf p ∨ x.IsCheckOf p)) :
    UncheckedSincePublish (x :: h) p ↔ UncheckedSincePublish h p := by
  simp [UncheckedSincePublish, latest_cons_iff, hx]

theorem uncheckedSincePublish_cons_publish (hx : x.IsPublishOf p) :
    UncheckedSincePublish (x :: h) p :=
  ⟨x, .cons_self (P := fun e ↦ e.IsPublishOf p ∨ e.IsCheckOf p) (Or.inl hx) h, hx⟩

theorem not_uncheckedSincePublish_cons_check (hx : x.IsCheckOf p) :
    ¬ UncheckedSincePublish (x :: h) p := by
  rintro ⟨e, he, hpublish⟩
  rcases latest_cons_iff.mp he with ⟨-, rfl⟩ | ⟨hn, -⟩
  · exact hpublish.not_isCheckOf hx
  · exact hn (Or.inr hx)

theorem lastReset_cons_of_not (hx : ¬ x.IsSendOf p) :
    LastReset (x :: h) p s ↔ LastReset h p s := by
  simp [LastReset, latest_cons_iff, hx]

theorem lastReset_cons_send {now : ℤ} {calls : List SendMessageCall} (hcalls : calls ≠ []) :
    LastReset (.checked p now calls (some s) :: h) p s :=
  ⟨now, calls, .cons_self ⟨rfl, hcalls⟩ h⟩

theorem LastReset.unique {t : ℤ} (hs : LastReset h p s) (ht : LastReset h p t) : s = t := by
  obtain ⟨_, _, hs⟩ := hs
  obtain ⟨_, _, ht⟩ := ht
  simpa using (Event.checked.inj (hs.unique ht)).2.2.2

end

/-- There was a publish, and it is news or the pause after the latest send is over. -/
def SendDue (topicTimeout : ℤ) (older : List Event) (p : Pointer) (now : ℤ) : Prop :=
  (∃ e ∈ older, e.IsPublishOf p) ∧
    (UncheckedSincePublish older p ∨ ∃ s, LastReset older p s ∧ s + topicTimeout ≤ now)

/-- A check sends exactly when a send is due. -/
def OnSchedule (topicTimeout : ℤ) (older : List Event) : Event → Prop
  | .checked p now calls _ => calls ≠ [] ↔ SendDue topicTimeout older p now
  | _ => True

/-- A reset is read after its own check and all earlier ones. -/
def InOrder (older : List Event) : Event → Prop
  | .checked _ now _ (some s) => now ≤ s ∧
      ∀ p now' calls reset, .checked p now' calls reset ∈ older → now' ≤ s
  | _ => True

/-! ## The phases of a topic -/

inductive Phase (env : Environment) (topicTimeout : ℤ) (readings : ℕ) (h : List Event)
    (v : TopicView) : Prop
  | idle (hmessage : v.message = []) (hpublish : ∀ e ∈ h, ¬ e.IsPublishOf v.object)
  | due (hmessage : v.message ≠ []) (hunchecked : UncheckedSincePublish h v.object)
      (htimeout : ∀ n, readings ≤ n → v.timeoutTimestamp ≤ env.time n)
  | sent (s : ℤ) (hmessage : v.message ≠ []) (hpublish : ∃ e ∈ h, e.IsPublishOf v.object)
      (hchecked : ¬ UncheckedSincePublish h v.object) (hreset : LastReset h v.object s)
      (htimeout : v.timeoutTimestamp = s + topicTimeout)

section

variable {env : Environment} {topicTimeout : ℤ} {h : List Event} {v : TopicView}

theorem Phase.congr {readings : ℕ} {u : TopicView} (hv : Phase env topicTimeout readings h v)
    (hobject : u.object = v.object) (hmessage : u.message = v.message)
    (htimeout : u.timeoutTimestamp = v.timeoutTimestamp) : Phase env topicTimeout readings h u := by
  cases hv with
  | idle h₁ h₂ => exact .idle (by rwa [hmessage]) (by rwa [hobject])
  | due h₁ h₂ h₃ => exact .due (by rwa [hmessage]) (by rwa [hobject]) (by rwa [htimeout])
  | sent s h₁ h₂ h₃ h₄ h₅ =>
      exact .sent s (by rwa [hmessage]) (by rwa [hobject]) (by rwa [hobject]) (by rwa [hobject])
        (by rwa [htimeout])

/-- An entry about another topic changes no phase. -/
theorem Phase.later {readings readings' : ℕ} {x : Event} (hv : Phase env topicTimeout readings h v)
    (hx : ¬ (x.IsPublishOf v.object ∨ x.IsCheckOf v.object)) (hle : readings ≤ readings') :
    Phase env topicTimeout readings' (x :: h) v := by
  have hsend : ¬ x.IsSendOf v.object := fun hs ↦ hx (Or.inr hs.isCheckOf)
  cases hv with
  | idle hmessage hpublish =>
      exact .idle hmessage (List.forall_mem_cons.mpr ⟨fun hp ↦ hx (Or.inl hp), hpublish⟩)
  | due hmessage hunchecked htimeout =>
      exact .due hmessage ((uncheckedSincePublish_cons_of_not hx).mpr hunchecked)
        fun n hn ↦ htimeout n (hle.trans hn)
  | sent s hmessage hpublish hchecked hreset htimeout =>
      obtain ⟨e, he, hpe⟩ := hpublish
      exact .sent s hmessage ⟨e, List.mem_cons_of_mem x he, hpe⟩
        (fun hu ↦ hchecked ((uncheckedSincePublish_cons_of_not hx).mp hu))
        ((lastReset_cons_of_not hsend).mpr hreset) htimeout

theorem publishMessage_eq_nil_iff (env : Environment) (hne : v.subscribers ≠ []) (os : Os) :
    (publishMessage env v os).1 = [] ↔ v.message = [] := by
  rcases publishMessage_cases env v os with ⟨hmessage, hpublish⟩ | ⟨hmessage, hpublish⟩ <;>
    rw [hpublish]
  · exact iff_of_true rfl hmessage
  · refine iff_of_false (fun hnil ↦ hne ?_) hmessage
    cases hsub : v.subscribers with
    | nil => rfl
    | cons e es => simp [hsub, sendTo] at hnil

/-- An expired timeout: the check sends if there is a message, and the pause begins. -/
theorem Phase.expired {os : Os} (readings : ℕ) (hne : v.subscribers ≠ [])
    (hv : Phase env topicTimeout os.readings h v)
    (hexpired : v.timeoutTimestamp ≤ env.time os.readings) :
    OnSchedule topicTimeout h (checkEvent env v os) ∧
      Phase env topicTimeout readings (checkEvent env v os :: h)
        (v.postpone (env.time (os.readings + 1) + topicTimeout)) := by
  have hevent : checkEvent env v os = .checked v.object (env.time os.readings)
      (publishMessage env v os.readTime).1 (some (env.time (os.readings + 1))) := by
    simp [checkEvent, hexpired]
  have hnil := publishMessage_eq_nil_iff env hne os.readTime
  have hcheck : (checkEvent env v os).IsCheckOf v.object := by
    rw [hevent]
    rfl
  have hsends : v.message ≠ [] → (∃ e ∈ h, e.IsPublishOf v.object) →
      Phase env topicTimeout readings (checkEvent env v os :: h)
        (v.postpone (env.time (os.readings + 1) + topicTimeout)) := by
    rintro hmessage ⟨e, he, hpe⟩
    refine .sent (env.time (os.readings + 1)) hmessage ⟨e, List.mem_cons_of_mem _ he, hpe⟩
      (not_uncheckedSincePublish_cons_check hcheck) ?_ rfl
    rw [hevent]
    exact lastReset_cons_send (mt hnil.mp hmessage)
  cases hv with
  | idle hmessage hpublish =>
      constructor
      · rw [hevent]
        refine iff_of_false (fun hcalls ↦ hcalls (hnil.mpr hmessage)) ?_
        rintro ⟨⟨e, he, hpe⟩, -⟩
        exact hpublish e he hpe
      · refine .idle hmessage (List.forall_mem_cons.mpr ⟨fun hp ↦ ?_, hpublish⟩)
        exact hp.not_isCheckOf hcheck
  | due hmessage hunchecked htimeout =>
      refine ⟨?_, hsends hmessage hunchecked.published⟩
      rw [hevent]
      exact iff_of_true (mt hnil.mp hmessage) ⟨hunchecked.published, Or.inl hunchecked⟩
  | sent s hmessage hpublish hchecked hreset htimeout =>
      refine ⟨?_, hsends hmessage hpublish⟩
      rw [hevent]
      exact iff_of_true (mt hnil.mp hmessage)
        ⟨hpublish, Or.inr ⟨s, hreset, htimeout ▸ hexpired⟩⟩

/-- A timeout that lies ahead: the check does nothing, and nothing was due. -/
theorem Phase.pending {os : Os} (readings : ℕ) (hv : Phase env topicTimeout os.readings h v)
    (hpending : ¬ v.timeoutTimestamp ≤ env.time os.readings) :
    OnSchedule topicTimeout h (checkEvent env v os) ∧
      Phase env topicTimeout readings (checkEvent env v os :: h) v := by
  have hevent : checkEvent env v os = .checked v.object (env.time os.readings) [] none := by
    simp [checkEvent, hpending]
  have hcheck : (checkEvent env v os).IsCheckOf v.object := by
    rw [hevent]
    rfl
  have hsend : ¬ (checkEvent env v os).IsSendOf v.object := by
    rw [hevent]
    exact fun hs ↦ hs.2 rfl
  cases hv with
  | idle hmessage hpublish =>
      constructor
      · rw [hevent]
        refine iff_of_false (fun hcalls ↦ hcalls rfl) ?_
        rintro ⟨⟨e, he, hpe⟩, -⟩
        exact hpublish e he hpe
      · refine .idle hmessage (List.forall_mem_cons.mpr ⟨fun hp ↦ ?_, hpublish⟩)
        exact hp.not_isCheckOf hcheck
  | due hmessage hunchecked htimeout => exact (hpending (htimeout os.readings le_rfl)).elim
  | sent s hmessage hpublish hchecked hreset htimeout =>
      constructor
      · rw [hevent]
        refine iff_of_false (fun hcalls ↦ hcalls rfl) ?_
        rintro ⟨-, hunchecked | ⟨t, ht, hle⟩⟩
        · exact hchecked hunchecked
        · rw [htimeout, hreset.unique ht] at hpending
          exact hpending hle
      · obtain ⟨e, he, hpe⟩ := hpublish
        exact .sent s hmessage ⟨e, List.mem_cons_of_mem _ he, hpe⟩
          (not_uncheckedSincePublish_cons_check hcheck)
          ((lastReset_cons_of_not hsend).mpr hreset) htimeout

end

/-! ## The invariant of whole runs -/

structure Timed (env : Environment) (topicTimeout : ℤ) (b : Broker) : Prop where
  timeout : b.topicTimeout = topicTimeout
  objects : ∀ e ∈ b.history, ∃ n < b.allocated, e.topic = some n
  clock : ∀ p now calls reset, .checked p now calls reset ∈ b.history →
    ∀ n, b.os.readings ≤ n → now ≤ env.time n
  ordered : Justified InOrder b.history
  scheduled : Justified (OnSchedule topicTimeout) b.history
  phases : ∀ v ∈ b.topics, Phase env topicTimeout b.os.readings b.history v

def MessageNonempty : Event → Prop
  | .published _ _ message _ => message ≠ []
  | _ => True

instance : DecidablePred MessageNonempty
  | .published _ _ message _ => inferInstanceAs (Decidable (message ≠ []))
  | .created _ _ | .checked _ _ _ _ => isTrue trivial

/-- No publish in the history is empty. -/
def MessagesNonempty (h : List Event) : Prop := ∀ e ∈ h, MessageNonempty e

instance (h : List Event) : Decidable (MessagesNonempty h) :=
  inferInstanceAs (Decidable (∀ e ∈ h, MessageNonempty e))

theorem MessagesNonempty.tail {h : List Event} {x : Event} (hx : MessagesNonempty (x :: h)) :
    MessagesNonempty h :=
  fun e he ↦ hx e (List.mem_cons_of_mem x he)

section

variable {env : Environment} {topicTimeout : ℤ} {b c : Broker}

theorem Timed.silent (h : Timed env topicTimeout b)
    (htopics : ∀ v ∈ c.topics, ∃ u ∈ b.topics, v = { u with subscribers := v.subscribers })
    (htimeout : c.topicTimeout = b.topicTimeout) (hallocated : c.allocated = b.allocated)
    (hos : c.os = b.os) (hhistory : c.history = b.history) : Timed env topicTimeout c where
  timeout := htimeout.trans h.timeout
  objects := by rw [hhistory, hallocated]; exact h.objects
  clock := by rw [hhistory, hos]; exact h.clock
  ordered := by rw [hhistory]; exact h.ordered
  scheduled := by rw [hhistory]; exact h.scheduled
  phases v hv := by
    obtain ⟨u, hu, hvu⟩ := htopics v hv
    rw [hhistory, hos, hvu]
    exact (h.phases u hu).congr rfl rfl rfl

/-- No entry is about a topic object that does not exist yet. -/
theorem Timed.not_topic_allocated (h : Timed env topicTimeout b) {e : Event} (he : e ∈ b.history) :
    e.topic ≠ some b.allocated := by
  obtain ⟨n, hn, htopic⟩ := h.objects e he
  rw [htopic]
  rintro ⟨⟩
  exact Nat.lt_irrefl _ hn

theorem Timed.create (h : Timed env topicTimeout b) (topicName : Text) :
    Timed env topicTimeout (b.addTopic env topicName) where
  timeout := h.timeout
  objects := List.forall_mem_cons.mpr ⟨⟨b.allocated, Nat.lt_succ_self _, rfl⟩, fun e he ↦ by
    obtain ⟨n, hn, htopic⟩ := h.objects e he
    exact ⟨n, Nat.lt_succ_of_lt hn, htopic⟩⟩
  clock p now calls reset hmem n hn := by
    have hmem : .checked p now calls reset ∈ b.history := by simpa [addTopic] using hmem
    have hle : b.os.readings + 1 + 1 ≤ n := hn
    exact h.clock p now calls reset hmem n (by omega)
  ordered := justified_cons_iff.mpr ⟨trivial, h.ordered⟩
  scheduled := justified_cons_iff.mpr ⟨trivial, h.scheduled⟩
  phases v hv := by
    rcases List.mem_append.mp hv with hv | hv
    · have hle : b.os.readings ≤ b.os.readTime.readTime.readings := by simp; omega
      exact (h.phases v hv).later (by simp [Event.IsPublishOf, Event.IsCheckOf]) hle
    · rw [List.mem_singleton.mp hv]
      refine .idle rfl (List.forall_mem_cons.mpr ⟨fun hp ↦ hp, fun e he hp ↦ ?_⟩)
      exact h.not_topic_allocated he hp.topic_eq

theorem Timed.store (hclock : env.NonDecreasing) (hb : b.Wf) (h : Timed env topicTimeout b)
    {v : TopicView} (hv : v ∈ b.topics) {message : Text} (hmessage : message ≠ []) :
    Timed env topicTimeout (b.storeMessage env v message) where
  timeout := h.timeout
  objects := List.forall_mem_cons.mpr ⟨hb.objects_allocated v hv, h.objects⟩
  clock p now calls reset hmem n hn := by
    have hmem : .checked p now calls reset ∈ b.history := by simpa [storeMessage] using hmem
    have hle : b.os.readings + 1 + 1 ≤ n := hn
    exact h.clock p now calls reset hmem n (by omega)
  ordered := justified_cons_iff.mpr ⟨trivial, h.ordered⟩
  scheduled := justified_cons_iff.mpr ⟨trivial, h.scheduled⟩
  phases w hw := by
    obtain ⟨u, hu, rfl⟩ := mem_alter.mp hw
    by_cases huv : u.object = v.object
    · rw [if_pos huv]
      refine .due hmessage (uncheckedSincePublish_cons_publish huv.symm) fun n hn ↦ ?_
      have hle : b.os.readings + 1 + 1 ≤ n := hn
      exact hclock (by omega)
    · rw [if_neg huv]
      have hle : b.os.readings ≤ b.os.readTime.readTime.readings := by simp; omega
      refine (h.phases u hu).later ?_ hle
      rintro (hp | hc)
      · exact huv hp.symm
      · exact hc

theorem inOrder_checkEvent (hclock : env.NonDecreasing) (h : Timed env topicTimeout b)
    (v : TopicView) : InOrder b.history (checkEvent env v b.os) := by
  rcases checkEvent_cases env v b.os with ⟨-, hevent⟩ | ⟨-, hevent⟩ <;> rw [hevent]
  · refine ⟨hclock (by simp), fun p now' calls reset hmem ↦ ?_⟩
    exact h.clock p now' calls reset hmem _ (by simp)
  · trivial

/-- The checked topic moves on to its next phase; the others stay in theirs. -/
theorem Timed.phases_checkView (hb : b.Wf) (h : Timed env topicTimeout b) {v : TopicView}
    (hv : v ∈ b.topics) (hne : v.subscribers ≠ []) :
    OnSchedule topicTimeout b.history (checkEvent env v b.os) ∧
      ∀ u ∈ (b.checkView env v).topics, Phase env topicTimeout (b.checkView env v).os.readings
        (checkEvent env v b.os :: b.history) u := by
  have hother : ∀ u ∈ b.topics, u.object ≠ v.object →
      Phase env topicTimeout (b.checkView env v).os.readings
        (checkEvent env v b.os :: b.history) u := by
    intro u hu huv
    refine (h.phases u hu).later ?_ (readings_le_checkView b env v)
    rintro (hp | hc)
    · exact huv (hp.topic_eq.symm.trans (topic_checkEvent env v b.os))
    · exact huv (hc.topic_eq.symm.trans (topic_checkEvent env v b.os))
  by_cases hexpired : v.timeoutTimestamp ≤ env.time b.os.readings
  · obtain ⟨hschedule, hphase⟩ := (h.phases v hv).expired
      (b.checkView env v).os.readings hne hexpired
    refine ⟨hschedule, fun w hw ↦ ?_⟩
    have htopics : (b.checkView env v).topics =
        (b.alter v.object (.postpone (env.time (b.os.readings + 1) + topicTimeout))).topics := by
      simp [checkView, hexpired, h.timeout]
    rw [htopics] at hw
    obtain ⟨u, hu, rfl⟩ := mem_alter.mp hw
    by_cases huv : u.object = v.object
    · rw [if_pos huv, hb.eq_of_object hu hv huv]
      exact hphase
    · rw [if_neg huv]
      exact hother u hu huv
  · obtain ⟨hschedule, hphase⟩ := (h.phases v hv).pending
      (b.checkView env v).os.readings hexpired
    refine ⟨hschedule, fun u hu ↦ ?_⟩
    have htopics : (b.checkView env v).topics = b.topics := by simp [checkView, hexpired]
    rw [htopics] at hu
    by_cases huv : u.object = v.object
    · rw [hb.eq_of_object hu hv huv]
      exact hphase
    · exact hother u hu huv

theorem Timed.check (hclock : env.NonDecreasing) (hb : b.Wf) (h : Timed env topicTimeout b)
    {v : TopicView} (hv : v ∈ b.topics) (hne : v.subscribers ≠ []) :
    Timed env topicTimeout (b.checkView env v) := by
  obtain ⟨hschedule, hphases⟩ := h.phases_checkView hb hv hne
  obtain ⟨htimeout, hallocated⟩ := frame_checkView b env v
  have hlt := readings_lt_checkView b env v
  refine ⟨htimeout.trans h.timeout, ?_, ?_, ?_, ?_, ?_⟩ <;> rw [history_checkView]
  · rw [hallocated]
    refine List.forall_mem_cons.mpr ⟨?_, h.objects⟩
    rw [topic_checkEvent]
    exact hb.objects_allocated v hv
  · intro p now calls reset hmem n hn
    rcases List.mem_cons.mp hmem with heq | hmem
    · rw [now_of_checkEvent heq.symm]
      apply hclock
      omega
    · apply h.clock p now calls reset hmem
      omega
  · exact justified_cons_iff.mpr ⟨inOrder_checkEvent hclock h v, h.ordered⟩
  · exact justified_cons_iff.mpr ⟨hschedule, h.scheduled⟩
  · exact hphases

theorem Timed.change (hclock : env.NonDecreasing) (hb : b.Wf) (hchange : Change env b c)
    (h : MessagesNonempty b.history → Timed env topicTimeout b)
    (hc : MessagesNonempty c.history) : Timed env topicTimeout c := by
  cases hchange with
  | silent _ htopics htimeout hallocated hos hhistory =>
      exact (h (hhistory ▸ hc)).silent htopics htimeout hallocated hos hhistory
  | create topicName hfind => exact (h hc.tail).create topicName
  | store v hv message =>
      exact (h hc.tail).store hclock hb hv (hc _ List.mem_cons_self)
  | check v hv hne =>
      rw [history_checkView] at hc
      exact (h hc.tail).check hclock hb hv hne

theorem timed_of_reachable (hclock : env.NonDecreasing)
    (h : (system env topicTimeout).Reachable b) (hb : MessagesNonempty b.history) :
    Timed env topicTimeout b := by
  refine (reachable_invariant
    (I := fun b ↦ MessagesNonempty b.history → Timed env topicTimeout b) (fun _ ↦ ?_)
    (fun _ _ hb hchange ih hc ↦ Timed.change hclock hb hchange ih hc) h).2 hb
  exact ⟨rfl, by simp [system], by simp [system], justified_nil, justified_nil, by simp [system]⟩

end

/-- Between two sends without a publish in between lies the pause. -/
theorem Timed.pause {env : Environment} {topicTimeout : ℤ} {b : Broker}
    (h : Timed env topicTimeout b) {newer between oldest : List Event} {p : Pointer}
    {now now' : ℤ} {calls calls' : List SendMessageCall} {reset reset' : Option ℤ}
    (hentry : b.history = newer ++ .checked p now calls reset ::
      (between ++ .checked p now' calls' reset' :: oldest))
    (hbetween : ∀ e ∈ between, ¬ e.IsPublishOf p) (hcalls : calls ≠ []) (hcalls' : calls' ≠ []) :
    now' + topicTimeout ≤ now := by
  have hsend : (Event.checked p now' calls' reset').IsSendOf p := ⟨rfl, hcalls'⟩
  obtain ⟨-, ⟨e, he, hpublish⟩ | ⟨s, ⟨now'', calls'', hlatest⟩, hle⟩⟩ :=
    (h.scheduled _ _ _ hentry).mp hcalls
  · rcases he.of_append (Or.inr hsend.isCheckOf) with rfl | hmem
    · exact (hpublish.not_isCheckOf hsend.isCheckOf).elim
    · exact (hbetween e hmem hpublish).elim
  · -- The latest send is the older of the two, or was made after it.
    have hnow : now' ≤ s := by
      rcases hlatest.of_append hsend with heq | hmem
      · obtain ⟨-, -, -, rfl⟩ := Event.checked.inj heq
        have hordered := h.ordered (newer ++ .checked p now calls reset :: between)
          (.checked p now' calls' (some s)) oldest (by rw [hentry]; simp)
        exact hordered.1
      · obtain ⟨first, last, rfl⟩ := List.append_of_mem hmem
        have hordered := h.ordered (newer ++ .checked p now calls reset :: first)
          (.checked p now'' calls'' (some s)) (last ++ .checked p now' calls' reset' :: oldest)
          (by rw [hentry]; simp)
        exact hordered.2 p now' calls' reset' (by simp)
    omega

end Broker

/-- For every clock that does not go back and every timeout: a check sends
exactly when a send is due, the first check after a publish does, and two sends
without a publish between them are a timeout apart. -/
theorem heartbeat_schedule (env : Environment) (topicTimeout : ℤ) (hclock : env.NonDecreasing)
    {w : World} (h : (Server.system env topicTimeout).Reachable w)
    (hmessages : Broker.MessagesNonempty w.history) {newer older : List Event} {p : Pointer}
    {now : ℤ} {calls : List SendMessageCall} {reset : Option ℤ}
    (hentry : w.history = newer ++ .checked p now calls reset :: older) :
    (calls ≠ [] ↔ Broker.SendDue topicTimeout older p now) ∧
      (Broker.UncheckedSincePublish older p → calls ≠ []) ∧
      ∀ between now' calls' reset' oldest,
        older = between ++ .checked p now' calls' reset' :: oldest →
        (∀ e ∈ between, ¬ e.IsPublishOf p) → calls ≠ [] → calls' ≠ [] →
          now' + topicTimeout ≤ now := by
  have htimed : Broker.Timed env topicTimeout w.view :=
    Broker.timed_of_reachable hclock ((Server.abstraction env topicTimeout).reachable h) hmessages
  have hschedule : calls ≠ [] ↔ Broker.SendDue topicTimeout older p now :=
    htimed.scheduled newer _ older hentry
  refine ⟨hschedule, fun hunchecked ↦ ?_, ?_⟩
  · exact hschedule.mpr ⟨hunchecked.published, Or.inl hunchecked⟩
  · rintro between now' calls' reset' oldest rfl hbetween hcalls hcalls'
    exact htimed.pause hentry hbetween hcalls hcalls'

/-- The second tick after a publish, before the pause is over. -/
theorem heartbeat_schedule_second_tick :
    let w := (Server.system .steady 10).final [
      .request (.subscribe (ascii "10.0.0.1") 7001 (ascii "news")),
      .tick,
      .request (.publish (ascii "news") (ascii "hello")),
      .tick,
      .tick]
    w.history = [] ++ .checked (some 0) 8 [] none :: w.history.tail ∧
      ¬ Broker.SendDue 10 w.history.tail (some 0) 8 := by
  refine ⟨?entry, fun hdue ↦ (heartbeat_schedule .steady 10 (fun a b hab ↦ Int.ofNat_le.mpr hab)
    (Transition.System.reachable_final _ _) ?messages ?entry).1.mpr hdue rfl⟩
  case entry => decide +kernel
  case messages => decide +kernel

end PublisherSubscriber
