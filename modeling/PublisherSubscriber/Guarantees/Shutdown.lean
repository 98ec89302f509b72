import PublisherSubscriber.Client.Session

/-!
# The loop that unsubscribes

Every pass of the loop in the destructor takes the front of the list out of it,
with all its duplicates, so the passes follow the first occurrences.
-/

namespace PublisherSubscriber

/-- The first of the distinct elements is the front; the others are those of the rest. -/
theorem eraseDups_eq_cons {l distinct : List Text} {front : Text}
    (h : l.eraseDups = front :: distinct) :
    (∃ rest, l = front :: rest) ∧ (l.filter (· ≠ front)).eraseDups = distinct := by
  cases l with
  | nil => cases h
  | cons t rest =>
      rw [List.eraseDups_cons] at h
      obtain ⟨rfl, hrest⟩ := List.cons.inj h
      refine ⟨⟨rest, rfl⟩, ?_⟩
      rw [← hrest, List.filter_cons_of_neg (by simp)]
      congr 1
      apply List.filter_congr
      intro b _
      by_cases hb : b = t <;> simp [hb]

theorem eq_nil_of_eraseDups_eq_nil {l : List Text} (h : l.eraseDups = []) : l = [] := by
  cases l with
  | nil => rfl
  | cons t rest => simp [List.eraseDups_cons] at h

namespace Session

variable {library : JsonLibrary} {formatTimestamp : ℤ → Option Text} {indeterminate port : ℤ}
  {exchanges : ℕ → Exchange}

/-- One pass for each distinct topic, and one that finds the list empty. -/
theorem unsubscribeAll_spec {s : Session} (hs : s.client.dictionaries.Sound) {distinct : List Text}
    (hdistinct : s.client.subscribedTopics.eraseDups = distinct)
    (hreturns : ∀ n topicName, distinct[n]? = some topicName →
      ∃ line, Client.sendMessage library formatTimestamp indeterminate
        ((ClientOperation.unsubscribe topicName).sent port) (exchanges (s.requests.length + n)) =
          .ok line) :
    ∃ s' : Session, s'.client.subscribedTopics = [] ∧
      s'.requests = s.requests ++ distinct.map (fun topicName ↦
        (ClientOperation.unsubscribe topicName).sent port) ∧
      ∀ fuel, distinct.length < fuel →
        unsubscribeAll library formatTimestamp indeterminate port exchanges fuel s =
          some (.ok (), s') := by
  induction distinct generalizing s with
  | nil =>
      have hempty := eq_nil_of_eraseDups_eq_nil hdistinct
      refine ⟨s, hempty, by simp, fun fuel hfuel ↦ ?_⟩
      obtain ⟨fuel, rfl⟩ := Nat.exists_eq_add_of_lt hfuel
      simp only [unsubscribeAll, hempty]
  | cons front distinct ih =>
      obtain ⟨⟨rest, hfront⟩, hrest⟩ := eraseDups_eq_cons hdistinct
      obtain ⟨line, hline⟩ := hreturns 0 front rfl
      obtain ⟨s₁, hs₁, hrequests, ⟨_, -, hcall, htopics⟩ | ⟨f, hf, -⟩⟩ :=
        call_spec library formatTimestamp indeterminate port exchanges hs (.unsubscribe front)
      · have hdistinct₁ : s₁.client.subscribedTopics.eraseDups = distinct := by
          rw [htopics]
          exact hrest
        obtain ⟨s', hempty, hlog, hloop⟩ := ih hs₁ hdistinct₁ fun n topicName hn ↦ by
          have hreturn := hreturns (n + 1) topicName hn
          rwa [hrequests, List.length_append, List.length_singleton, Nat.add_right_comm]
        refine ⟨s', hempty, ?_, fun fuel hfuel ↦ ?_⟩
        · rw [hlog, hrequests, List.append_assoc]
          rfl
        · obtain ⟨fuel, rfl⟩ : ∃ n, fuel = n + 1 := ⟨fuel - 1, by omega⟩
          have hless : distinct.length < fuel := by
            simp only [List.length_cons] at hfuel
            omega
          simp only [unsubscribeAll, hfront, hcall]
          exact hloop fuel hless
      · cases hf.symm.trans hline

end Session

/-- In every session the loop ends with an empty list, after one request for each
distinct topic in the order of first occurrence, if these requests return. -/
theorem unsubscribeAll_of_returns (library : JsonLibrary) (formatTimestamp : ℤ → Option Text)
    (indeterminate port : ℤ) (exchanges : ℕ → Exchange) {s : Session}
    (hs : (Session.system library formatTimestamp indeterminate port exchanges).Reachable s)
    (hreturns : ∀ n topicName, s.client.subscribedTopics.eraseDups[n]? = some topicName →
      ∃ line, Client.sendMessage library formatTimestamp indeterminate
        ((ClientOperation.unsubscribe topicName).sent port) (exchanges (s.requests.length + n)) =
          .ok line) :
    ∃ s' : Session, s'.client.subscribedTopics = [] ∧
      s'.requests = s.requests ++ s.client.subscribedTopics.eraseDups.map (fun topicName ↦
        (ClientOperation.unsubscribe topicName).sent port) ∧
      ∀ fuel, s.client.subscribedTopics.eraseDups.length < fuel →
        Session.unsubscribeAll library formatTimestamp indeterminate port exchanges fuel s =
          some (.ok (), s') :=
  Session.unsubscribeAll_spec (Session.sound_of_reachable hs) rfl hreturns

/-- Three subscriptions to two topics, an error for the first reply of the loop and
none for the second. -/
theorem unsubscribeAll_two_topics :
    let v := Json.object [(ascii "statusCode", .int 3)]
    let formatTimestamp : ℤ → Option Text := fun _ ↦ none
    let exchanges : ℕ → Exchange := fun n ↦
      if n = 3 then .response v.compact (ascii "127.0.0.1") (ascii "8080") else .noConnection
    let system := Session.system (.ofValues [v]) formatTimestamp 0 7001 exchanges
    let s := system.final [.subscribeTopic (ascii "news"), .subscribeTopic (ascii "weather"),
      .subscribeTopic (ascii "news")]
    s.client.subscribedTopics = [ascii "news", ascii "weather", ascii "news"] ∧
      ∃ s' : Session, s'.client.subscribedTopics = [] ∧
        s'.requests = s.requests ++ [ascii "news", ascii "weather"].map (fun topicName ↦
          (ClientOperation.unsubscribe topicName).sent 7001) ∧
        ∀ fuel, 2 < fuel → Session.unsubscribeAll (.ofValues [v]) formatTimestamp 0 7001 exchanges
          fuel s = some (.ok (), s') := by
  intro v formatTimestamp exchanges system s
  have htopics : s.client.subscribedTopics = [ascii "news", ascii "weather", ascii "news"] := by
    decide +kernel
  have hdistinct : s.client.subscribedTopics.eraseDups = [ascii "news", ascii "weather"] := by
    rw [htopics]
    decide +kernel
  have hlength : s.requests.length = 3 := by decide +kernel
  have hloop := unsubscribeAll_of_returns (.ofValues [v]) formatTimestamp 0 7001 exchanges
    (s := s) (Transition.System.reachable_final _ _)
  rw [hdistinct, hlength] at hloop
  refine ⟨htopics, hloop fun n topicName hn ↦ ?_⟩
  match n with
  | 0 =>
      refine ⟨(.error, ascii "Received response from: 127.0.0.1:8080\nStatus: Internal Error"), ?_⟩
      cases hn
      decide +kernel
  | 1 => exact ⟨_, by cases hn; rfl⟩
  | n + 2 => cases hn

end PublisherSubscriber
