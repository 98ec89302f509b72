import PublisherSubscriber.Broker.Membership
import PublisherSubscriber.Broker.Replies
import PublisherSubscriber.Library.Components
import Mathlib.Data.List.Find

/-!
# What one topic holds

Times apart, the requests that name a topic say all about it: what it holds
after them, and what they are answered.
-/

namespace PublisherSubscriber

open PointerHeap

structure TopicContents where
  message : Text := []
  subscribers : List Endpoint := []
  deriving DecidableEq, Repr

namespace Request

/-- The topic that is named; a list of the topics names none. -/
def namedTopic : Request → Option Text
  | subscribe _ _ topicName => some topicName
  | unsubscribe _ _ topicName => some topicName
  | publish topicName _ => some topicName
  | listTopics => none
  | getTopicStatus topicName => some topicName

end Request

namespace TopicContents

/-- What a request that names the topic makes of it. -/
def after (contents : Option TopicContents) : Request → Option TopicContents
  | .subscribe ipAddress port _ =>
      let found := contents.getD {}
      if ⟨ipAddress, port⟩ ∈ found.subscribers then some found
      else some { found with subscribers := found.subscribers ++ [⟨ipAddress, port⟩] }
  | .unsubscribe _ _ _ => contents.bind fun found ↦
      if found.subscribers.tail = [] then none
      else some { found with subscribers := found.subscribers.tail }
  | .publish _ message => contents.map fun found ↦ { found with message := message }
  | .listTopics => contents
  | .getTopicStatus _ => contents

/-- The status code of the answer and the subscribers it lists, if any. -/
def answer (contents : Option TopicContents) : Request → Statuscode × Text
  | .subscribe ipAddress port _ =>
      (if ⟨ipAddress, port⟩ ∈ (contents.getD {}).subscribers then .failed else .success, [])
  | .unsubscribe _ _ _ => (if contents = none then .invalidParameter else .success, [])
  | .publish _ _ => (if contents = none then .invalidParameter else .success, [])
  | .listTopics => (.success, [])
  | .getTopicStatus _ =>
      match contents with
      | none => (.invalidParameter, [])
      | some found =>
          (.success, Response.arrayString (found.subscribers.map Endpoint.toText))

end TopicContents

def TopicView.contents (v : TopicView) : TopicContents := ⟨v.message, v.subscribers⟩

namespace Broker

def contents (b : Broker) (topicName : Text) : Option TopicContents :=
  (b.find topicName).map TopicView.contents

variable {b c : Broker} {env : Environment}

theorem contents_congr (h : c.topics = b.topics) (t : Text) : c.contents t = b.contents t := by
  rw [contents, find, h]
  rfl

theorem find_alter (b : Broker) (object : Pointer) {f : TopicView → TopicView}
    (hname : ∀ u, (f u).topicName = u.topicName) (t : Text) :
    (b.alter object f).find t = (b.find t).map fun u ↦ if u.object = object then f u else u := by
  have hsame : ∀ u, (if u.object = object then f u else u).topicName = u.topicName := by
    intro u
    split_ifs
    · exact hname u
    · rfl
  simp only [find, alter, List.find?_map, Function.comp_def, hsame]

/-- A change of one topic that keeps its name. -/
theorem Wf.contents_alter (h : b.Wf) {v : TopicView} (hv : v ∈ b.topics)
    {f : TopicView → TopicView} (hname : ∀ u, (f u).topicName = u.topicName) (t : Text) :
    (b.alter v.object f).contents t =
      if v.topicName = t then some (f v).contents else b.contents t := by
  rw [contents, find_alter b v.object hname, contents]
  split_ifs with ht
  · rw [← ht, h.find_topicName hv]
    simp
  · cases hfind : b.find t with
    | none => rfl
    | some u =>
        obtain ⟨hu, rfl⟩ := find_eq_some hfind
        have hne : u.object ≠ v.object := fun huv ↦ ht (by rw [h.eq_of_object hu hv huv])
        simp [hne]

/-- A change of the times only. -/
theorem contents_alter_of_same (b : Broker) (object : Pointer) {f : TopicView → TopicView}
    (hname : ∀ u, (f u).topicName = u.topicName) (hcontents : ∀ u, (f u).contents = u.contents)
    (t : Text) : (b.alter object f).contents t = b.contents t := by
  rw [contents, find_alter b object hname, contents, Option.map_map]
  congr 1
  funext u
  show (if u.object = object then f u else u).contents = u.contents
  split_ifs
  · exact hcontents u
  · rfl

theorem contents_find {topicName : Text} {v : TopicView} (h : b.find topicName = some v) :
    b.contents topicName = some v.contents := by
  rw [contents, h]
  rfl

/-! ## What a request changes -/

theorem contents_findOrAddTopic (b : Broker) (env : Environment) (topicName t : Text) :
    (b.findOrAddTopic env topicName).2.contents t =
      if topicName = t then some ((b.contents topicName).getD {}) else b.contents t := by
  rcases b.findOrAddTopic_cases env topicName with ⟨hfind, hadd⟩ | ⟨v, hfind, hadd⟩ <;> rw [hadd]
  · have hnone : b.contents topicName = none := by rw [contents, hfind]; rfl
    have hnew : (b.addTopic env topicName).find t =
        (b.find t).or (if topicName = t then some (b.newTopic env topicName) else none) := by
      rw [find, addTopic, List.find?_append, find, List.find?_singleton]
      by_cases ht : topicName = t <;> simp [newTopic, ht]
    rw [contents, hnew]
    split_ifs with ht
    · rw [← ht, hfind, hnone]
      rfl
    · rw [Option.or_none]
      rfl
  · split_ifs with ht
    · rw [← ht, contents_find hfind]
      rfl
    · rfl

theorem contents_found (b : Broker) (env : Environment) (topicName : Text) :
    (b.findOrAddTopic env topicName).1.contents = (b.contents topicName).getD {} := by
  rcases b.findOrAddTopic_cases env topicName with ⟨hfind, hadd⟩ | ⟨v, hfind, hadd⟩ <;> rw [hadd]
  · rw [contents, hfind]
    rfl
  · rw [contents_find hfind]
    rfl

theorem Wf.contents_subscribe (h : b.Wf) (env : Environment) (e : Endpoint) (topicName t : Text) :
    (b.subscribe env e topicName).2.contents t =
      if topicName = t then
        TopicContents.after (b.contents topicName) (.subscribe e.ipAddress e.port topicName)
      else b.contents t := by
  obtain ⟨hadded, hmem, hname⟩ := h.findOrAddTopic env topicName
  have hfound := b.contents_found env topicName
  have hsubscribers : (b.findOrAddTopic env topicName).1.subscribers =
      ((b.contents topicName).getD {}).subscribers := by rw [← hfound]; rfl
  have hconnected : ∀ s, ((b.findOrAddTopic env topicName).2.connect e).contents s =
      if topicName = s then some ((b.contents topicName).getD {}) else b.contents s := fun s ↦
    (contents_congr (topics_connect _ e) s).trans (b.contents_findOrAddTopic env topicName s)
  rcases b.subscribe_cases env e topicName with ⟨he, hsubscribe⟩ | ⟨he, hsubscribe⟩ <;>
    rw [hsubscribe]
  · have hafter : TopicContents.after (b.contents topicName)
        (.subscribe e.ipAddress e.port topicName) = some ((b.contents topicName).getD {}) :=
      if_pos (by rwa [← hsubscribers])
    rw [hconnected, hafter]
  · have hmem' : (b.findOrAddTopic env topicName).1 ∈
        ((b.findOrAddTopic env topicName).2.connect e).topics := by
      rwa [topics_connect]
    have halter := (hadded.connect e).contents_alter hmem' (f := .addSubscriber e)
      (fun _ ↦ rfl) t
    have hafter : TopicContents.after (b.contents topicName)
        (.subscribe e.ipAddress e.port topicName) =
          some ((b.findOrAddTopic env topicName).1.addSubscriber e).contents := by
      rw [TopicContents.after, if_neg (by rwa [← hsubscribers]), ← hfound]
      rfl
    rw [halter, hname, hconnected, hafter]
    by_cases ht : topicName = t <;> simp [ht]

theorem Wf.contents_dropFirst (h : b.Wf) {v : TopicView} (hv : v ∈ b.topics) (t : Text) :
    (b.dropFirst v).contents t =
      if v.topicName = t then
        if v.subscribers.tail = [] then none
        else some { v.contents with subscribers := v.subscribers.tail }
      else b.contents t := by
  rcases b.dropFirst_cases v with ⟨htail, hdrop⟩ | ⟨htail, hdrop⟩ <;> rw [hdrop]
  · rw [if_pos htail, contents, find, List.find?_filter]
    split_ifs with ht
    · rw [List.find?_eq_none.mpr]
      · rfl
      · intro u hu hboth
        obtain ⟨hobject, hname⟩ := by simpa using hboth
        exact hobject (by rw [h.eq_of_topicName hu hv (hname.trans ht.symm)])
    · apply congrArg (Option.map TopicView.contents)
      apply List.find?_congr
      intro u hu
      have hkept : u.topicName = t → u.object ≠ v.object := by
        rintro rfl huv
        exact ht (by rw [h.eq_of_object hu hv huv])
      simpa using hkept
  · rw [if_neg htail, h.contents_alter hv (f := .dropSubscriber) (fun _ ↦ rfl)]
    rfl

theorem Wf.contents_unsubscribe (h : b.Wf) {e : Endpoint} {topicName : Text} {r : Response}
    (hstep : b.unsubscribe e topicName = .ok (r, c)) (t : Text) :
    c.contents t =
      if topicName = t then
        TopicContents.after (b.contents topicName) (.unsubscribe e.ipAddress e.port topicName)
      else b.contents t := by
  rcases unsubscribe_cases hstep with ⟨hfind, rfl, -⟩ | ⟨v, hfind, hrelease, -⟩
  · have hnone : c.contents topicName = none := by rw [contents, hfind]; rfl
    split_ifs with ht
    · rw [← ht, hnone]
      rfl
    · rfl
  · obtain ⟨hv, hname⟩ := find_eq_some hfind
    rw [contents_congr (topics_releaseConnection hrelease), h.contents_dropFirst hv, hname,
      contents_find hfind]
    rfl

theorem Wf.contents_publish (h : b.Wf) (env : Environment) (topicName message t : Text) :
    (b.publish env topicName message).2.contents t =
      if topicName = t then TopicContents.after (b.contents topicName) (.publish topicName message)
      else b.contents t := by
  rcases b.publish_cases env topicName message with ⟨hfind, hpublish⟩ | ⟨v, hfind, hpublish⟩ <;>
    rw [hpublish]
  · have hnone : b.contents topicName = none := by rw [contents, hfind]; rfl
    split_ifs with ht
    · rw [← ht, hnone]
      rfl
    · rfl
  · obtain ⟨hv, hname⟩ := find_eq_some hfind
    have halter := h.contents_alter hv (f := .store message (env.time b.os.readings)
      (env.time (b.os.readings + 1))) (fun _ ↦ rfl) t
    rw [contents_find hfind, ← hname]
    exact halter

/-- A request changes the topic that it names, and no other one. -/
theorem Wf.contents_handle (h : b.Wf) {q : Request} {r : Response}
    (hstep : b.handle env q = .ok (r, c)) (t : Text) :
    c.contents t =
      if q.namedTopic = some t then TopicContents.after (b.contents t) q else b.contents t := by
  have hnamed : ∀ topicName, (if topicName = t then TopicContents.after (b.contents topicName) q
      else b.contents t) =
        if some topicName = some t then TopicContents.after (b.contents t) q
        else b.contents t := by
    intro topicName
    by_cases ht : topicName = t <;> simp [ht]
  cases q with
  | subscribe ipAddress port topicName =>
      have hc : b.subscribe env ⟨ipAddress, port⟩ topicName = (r, c) := Except.ok.inj hstep
      have hcontents := h.contents_subscribe env ⟨ipAddress, port⟩ topicName t
      rw [hc] at hcontents
      exact hcontents.trans (hnamed topicName)
  | unsubscribe ipAddress port topicName =>
      exact (h.contents_unsubscribe hstep t).trans (hnamed topicName)
  | publish topicName message =>
      have hc : b.publish env topicName message = (r, c) := Except.ok.inj hstep
      have hcontents := h.contents_publish env topicName message t
      rw [hc] at hcontents
      exact hcontents.trans (hnamed topicName)
  | listTopics =>
      cases hstep
      rfl
  | getTopicStatus topicName =>
      cases hstep
      exact (ite_self _).symm

theorem contents_tick (b : Broker) (env : Environment) (t : Text) :
    (b.tick env).contents t = b.contents t := by
  apply tick_induction env (P := fun c ↦ c.contents t = b.contents t)
  · intro c object hc
    rcases checkTopic_cases env c object with hcheck | ⟨v, -, -, hcheck⟩ <;> rw [hcheck]
    · exact hc
    · rcases checkView_cases env c v with ⟨-, _, _, -, hview⟩ | ⟨-, _, hview⟩ <;> rw [hview]
      · rw [← hc]
        exact contents_alter_of_same c v.object (f := .postpone _) (fun _ ↦ rfl) (fun _ ↦ rfl) t
      · exact hc
  · rfl

/-! ## What a request is answered -/

/-- The status code of a response and the subscribers it lists. -/
def seen (r : Response) : Option Statuscode × Text := (r.statusCode, r.shown .subscribers)

theorem seen_topicStatus (v : TopicView) :
    seen (topicStatus v) =
      (some .success, Response.arrayString (v.subscribers.map Endpoint.toText)) := by
  simp [seen, topicStatus, Server.setTopicStatus, Response.setResponseArgumentUInt,
    Response.setResponseArgumentList, Response.setResponseArgument, Response.shown,
    Response.value, Slots.read, Response.new, responseDictionary]

/-- A request is answered by what the topic that it names holds. -/
theorem seen_handle {q : Request} {r : Response} (hstep : b.handle env q = .ok (r, c)) {t : Text}
    (ht : q.namedTopic = some t) :
    seen r = (some (TopicContents.answer (b.contents t) q).1,
      (TopicContents.answer (b.contents t) q).2) := by
  have hnone : ∀ {topicName}, b.find topicName = none → b.contents topicName = none := by
    intro topicName hfind
    rw [contents, hfind]
    rfl
  cases q with
  | subscribe ipAddress port topicName =>
      obtain rfl := Option.some.inj ht
      have hc : b.subscribe env ⟨ipAddress, port⟩ topicName = (r, c) := Except.ok.inj hstep
      have hfound : (b.findOrAddTopic env topicName).1.subscribers =
          ((b.contents topicName).getD {}).subscribers := by
        rw [← b.contents_found env topicName]
        rfl
      rcases b.subscribe_cases env ⟨ipAddress, port⟩ topicName with
        ⟨he, hsubscribe⟩ | ⟨he, hsubscribe⟩ <;> rw [hc] at hsubscribe <;>
        obtain ⟨rfl, -⟩ := Prod.mk.inj hsubscribe <;> rw [hfound] at he
      · rw [TopicContents.answer, if_pos he]
        rfl
      · rw [TopicContents.answer, if_neg he]
        rfl
  | unsubscribe ipAddress port topicName =>
      obtain rfl := Option.some.inj ht
      rcases unsubscribe_cases hstep with ⟨hfind, -, rfl⟩ | ⟨v, hfind, -, rfl⟩
      · rw [TopicContents.answer, if_pos (hnone hfind)]
        rfl
      · rw [TopicContents.answer, if_neg (by rw [contents_find hfind]; simp)]
        rfl
  | publish topicName message =>
      obtain rfl := Option.some.inj ht
      have hc : b.publish env topicName message = (r, c) := Except.ok.inj hstep
      rcases b.publish_cases env topicName message with ⟨hfind, hpublish⟩ | ⟨v, hfind, hpublish⟩ <;>
        rw [hc] at hpublish <;> obtain ⟨rfl, -⟩ := Prod.mk.inj hpublish
      · rw [TopicContents.answer, if_pos (hnone hfind)]
        rfl
      · rw [TopicContents.answer, if_neg (by rw [contents_find hfind]; simp)]
        rfl
  | listTopics => cases ht
  | getTopicStatus topicName =>
      obtain rfl := Option.some.inj ht
      obtain ⟨rfl, -⟩ := Prod.mk.inj (Except.ok.inj hstep)
      cases hfind : b.find topicName with
      | none =>
          rw [getTopicStatus, hfind, hnone hfind]
          rfl
      | some v =>
          rw [getTopicStatus, hfind, contents_find hfind]
          exact seen_topicStatus v

/-! ## One topic through a run -/

/-- One topic, with the requests that name it as its inputs. -/
def topic : Transition.Component (Option TopicContents) Action
    (Option (Option Statuscode × Text)) where
  next contents a :=
    match a with
    | .request q => TopicContents.after contents q
    | .tick => contents
  reply contents a :=
    match a with
    | .request q =>
        some (some (TopicContents.answer contents q).1, (TopicContents.answer contents q).2)
    | .tick => none

def names (topicName : Text) : Action → Bool
  | .request q => q.namedTopic = some topicName
  | .tick => false

theorem Inv.act_component (h : b.Inv) {a : Action} {r : Option Response}
    (hstep : b.act env a = .ok (r, c)) (t : Text) :
    if names t a then c.contents t = topic.next (b.contents t) a ∧
      r.map seen = topic.reply (b.contents t) a
    else c.contents t = b.contents t := by
  rcases act_eq_ok hstep with ⟨q, s, rfl, rfl, hhandle⟩ | ⟨rfl, rfl, rfl⟩
  · have hcontents := h.toWf.contents_handle hhandle t
    by_cases hnamed : q.namedTopic = some t
    · rw [if_pos (by simpa [names] using hnamed)]
      rw [if_pos hnamed] at hcontents
      exact ⟨hcontents, congrArg some (seen_handle hhandle hnamed)⟩
    · rw [if_neg (by simpa [names] using hnamed)]
      rwa [if_neg hnamed] at hcontents
  · exact b.contents_tick env t

end Broker

end PublisherSubscriber
