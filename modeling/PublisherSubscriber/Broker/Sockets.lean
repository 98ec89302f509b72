import PublisherSubscriber.Broker.Changes

/-!
# What happens to descriptors

A tick asks for one descriptor for each datagram and closes none.  The handlers
ask for no descriptor.
-/

namespace PublisherSubscriber

open PointerHeap

namespace Os

/-- The descriptors that `count` requests from number `first` on are given, newest first. -/
def granted (env : Environment) (first count : ℕ) : List ℕ :=
  ((List.range' first count).filter env.grants).reverse

theorem granted_zero (env : Environment) (first : ℕ) : granted env first 0 = [] := rfl

theorem granted_one (env : Environment) (first : ℕ) :
    granted env first 1 = if env.grants first then [first] else [] := by
  unfold granted
  split_ifs with hgrants <;> simp [hgrants]

theorem granted_add (env : Environment) (first m n : ℕ) :
    granted env first (m + n) = granted env (first + m) n ++ granted env first m := by
  unfold granted
  rw [← List.range'_append_1, List.filter_append, List.reverse_append]

theorem mem_granted {env : Environment} {first count d : ℕ} :
    d ∈ granted env first count ↔ first ≤ d ∧ d < first + count ∧ env.grants d = true := by
  simp [granted, List.mem_range'_1, and_assoc]

/-- `os'` is `os` after `count` requests for a descriptor and any number of clock readings. -/
structure Acquired (env : Environment) (count : ℕ) (os os' : Os) : Prop where
  requested : os'.requested = os.requested + count
  descriptors : os'.descriptors = granted env os.requested count ++ os.descriptors
  closed : os'.closed = os.closed

variable {env : Environment} {os os' os'' : Os}

theorem Acquired.refl (env : Environment) (os : Os) : Acquired env 0 os os := ⟨rfl, rfl, rfl⟩

theorem Acquired.trans {m n : ℕ} (h : Acquired env m os os') (h' : Acquired env n os' os'') :
    Acquired env (m + n) os os'' where
  requested := by rw [h'.requested, h.requested, Nat.add_assoc]
  descriptors := by
    rw [h'.descriptors, h.descriptors, h.requested, granted_add, List.append_assoc]
  closed := h'.closed.trans h.closed

theorem acquired_readTime (env : Environment) (os : Os) : Acquired env 0 os os.readTime :=
  ⟨rfl, rfl, rfl⟩

theorem acquired_acquire (env : Environment) (os : Os) : Acquired env 1 os (os.acquire env).2 := by
  unfold acquire
  split_ifs with hgrants
  · exact ⟨rfl, by rw [granted_one, if_pos hgrants]; rfl, rfl⟩
  · exact ⟨rfl, by rw [granted_one, if_neg hgrants]; rfl, rfl⟩

/-- Between the two states a request for a descriptor was refused. -/
def RefusedBetween (env : Environment) (os os' : Os) : Prop :=
  ∃ n, os.requested ≤ n ∧ n < os'.requested ∧ env.grants n = false

theorem RefusedBetween.mono {first last : Os} (h : os.RefusedBetween env os')
    (hfirst : first.requested ≤ os.requested) (hlast : os'.requested ≤ last.requested) :
    first.RefusedBetween env last := by
  obtain ⟨n, hle, hlt, hrefused⟩ := h
  exact ⟨n, hfirst.trans hle, hlt.trans_le hlast, hrefused⟩

theorem not_refusedBetween (h : ∀ os : Os, (os.acquire env).1 ≠ none) :
    ¬ os.RefusedBetween env os' := by
  rintro ⟨n, -, -, hrefused⟩
  exact h { requested := n } (by simp [acquire, hrefused])

theorem refusedBetween_acquire (h : (os.acquire env).1 = none) :
    os.RefusedBetween env (os.acquire env).2 := by
  unfold acquire at h ⊢
  split_ifs at h ⊢ with hgrants
  exact ⟨os.requested, Nat.le_refl _, Nat.lt_succ_self _, by simpa using hgrants⟩

end Os

/-- The calls of `SendMessage` in a tick that begins with clock reading number `n`,
where each topic has a timeout and a number of calls to make when it is due. -/
def Environment.callsFrom (env : Environment) : ℕ → List (ℤ × ℕ) → ℕ
  | _, [] => 0
  | n, (timeoutTimestamp, calls) :: rest =>
      if timeoutTimestamp ≤ env.time n then calls + env.callsFrom (n + 2) rest
      else env.callsFrom (n + 1) rest

theorem Environment.callsFrom_cons (env : Environment) (n : ℕ) (topic : ℤ × ℕ)
    (rest : List (ℤ × ℕ)) :
    env.callsFrom n (topic :: rest) = (if topic.1 ≤ env.time n then topic.2 else 0) +
      env.callsFrom (n + if topic.1 ≤ env.time n then 2 else 1) rest := by
  rw [callsFrom]
  split_ifs
  · rfl
  · rw [Nat.zero_add]

/-- The timeout of a topic, and one call for each subscriber if a message is stored. -/
def TopicView.calls (v : TopicView) : ℤ × ℕ :=
  (v.timeoutTimestamp, if v.message = [] then 0 else v.subscribers.length)

namespace Broker

variable (env : Environment)

theorem acquired_sendTo (v : TopicView) (es : List Endpoint) (os : Os) :
    Os.Acquired env es.length os (sendTo env v es os).2 := by
  induction es generalizing os with
  | nil => exact .refl env os
  | cons e es ih =>
      have hboth := (Os.acquired_acquire env os).trans (ih (os.acquire env).2)
      rwa [Nat.add_comm] at hboth

theorem acquired_publishMessage (v : TopicView) (os : Os) :
    Os.Acquired env v.calls.2 os (publishMessage env v os).2 := by
  rcases publishMessage_cases env v os with ⟨hmessage, hpublish⟩ | ⟨hmessage, hpublish⟩ <;>
    rw [hpublish, TopicView.calls]
  · rw [if_pos hmessage]
    exact .refl env os
  · rw [if_neg hmessage]
    exact acquired_sendTo env v v.subscribers os

variable {env} {b c : Broker}

/-- A check of a topic makes its calls if it is due, and then reads the clock twice. -/
theorem acquired_checkView (b : Broker) (env : Environment) (v : TopicView) :
    Os.Acquired env (if v.timeoutTimestamp ≤ env.time b.os.readings then v.calls.2 else 0) b.os
        (b.checkView env v).os ∧
      (b.checkView env v).os.readings =
        b.os.readings + if v.timeoutTimestamp ≤ env.time b.os.readings then 2 else 1 := by
  rcases checkView_cases env b v with ⟨hdue, os, _, hos, hview⟩ | ⟨hdue, _, hview⟩
  · rw [if_pos hdue, if_pos hdue, hview]
    constructor
    · have hsent := (Os.acquired_readTime env b.os).trans
        (acquired_publishMessage env v b.os.readTime)
      have hreset := hsent.trans (Os.acquired_readTime env _)
      rwa [Nat.zero_add, Nat.add_zero, ← hos] at hreset
    · rw [hos]
      simp
  · have hearly : ¬ v.timeoutTimestamp ≤ env.time b.os.readings := Int.not_le.mpr hdue
    rw [if_neg hearly, if_neg hearly, hview]
    exact ⟨Os.acquired_readTime env b.os, rfl⟩

theorem acquired_foldl_checkView (b : Broker) (env : Environment) (vs : List TopicView) :
    Os.Acquired env (env.callsFrom b.os.readings (vs.map TopicView.calls)) b.os
      (vs.foldl (Broker.checkView env) b).os := by
  induction vs generalizing b with
  | nil => exact .refl env b.os
  | cons v vs ih =>
      have hrest := ih (b.checkView env v)
      obtain ⟨hfirst, hreadings⟩ := acquired_checkView b env v
      rw [List.map_cons, List.foldl_cons, Environment.callsFrom_cons]
      rw [hreadings] at hrest
      exact hfirst.trans hrest

/-- A call goes without a socket only if one was refused. -/
theorem refused_of_mem_sendTo {v : TopicView} {es : List Endpoint} {os : Os}
    {call : SendMessageCall} (h : call ∈ (sendTo env v es os).1) (hsocket : call.socket = none) :
    os.RefusedBetween env (sendTo env v es os).2 := by
  induction es generalizing os with
  | nil => exact absurd h List.not_mem_nil
  | cons e es ih =>
      have hfirst := (Os.acquired_acquire env os).requested
      have hrest := (acquired_sendTo env v es (os.acquire env).2).requested
      show os.RefusedBetween env (sendTo env v es (os.acquire env).2).2
      rcases List.mem_cons.mp h with rfl | h
      · exact (Os.refusedBetween_acquire hsocket).mono (Nat.le_refl _) (by omega)
      · exact (ih h).mono (by omega) (Nat.le_refl _)

theorem refused_of_mem_checkEvent {v : TopicView} {call : SendMessageCall}
    (h : call ∈ (checkEvent env v b.os).calls) (hsocket : call.socket = none) :
    b.os.RefusedBetween env (b.checkView env v).os := by
  unfold checkEvent at h
  split_ifs at h with hdue
  · rcases checkView_cases env b v with ⟨-, os, _, hos, hview⟩ | ⟨hearly, -⟩
    · rw [hview]
      rcases publishMessage_cases env v b.os.readTime with ⟨-, hpublish⟩ | ⟨-, hpublish⟩ <;>
        rw [hpublish] at h hos
      · exact absurd h List.not_mem_nil
      · exact (refused_of_mem_sendTo h hsocket).mono (Nat.le_refl _) (by rw [hos]; exact le_rfl)
    · omega
  · exact absurd h List.not_mem_nil

theorem refused_of_mem_foldl {vs : List TopicView} {news : List Event} {x : Event}
    {call : SendMessageCall}
    (hhistory : (vs.foldl (Broker.checkView env) b).history = news ++ b.history) (hx : x ∈ news)
    (hcall : call ∈ x.calls) (hsocket : call.socket = none) :
    b.os.RefusedBetween env (vs.foldl (Broker.checkView env) b).os := by
  induction vs generalizing b news with
  | nil =>
      obtain rfl : news = [] := List.self_eq_append_left.mp hhistory
      exact absurd hx List.not_mem_nil
  | cons v vs ih =>
      obtain ⟨later, hlater, -⟩ := history_foldl_checkView (b.checkView env v) env vs
      have hfirst := (acquired_checkView b env v).1.requested
      have hrest := (acquired_foldl_checkView (b.checkView env v) env vs).requested
      obtain rfl : news = later.reverse ++ [checkEvent env v b.os] := by
        refine List.append_cancel_right (hhistory.symm.trans ?_)
        rw [List.foldl_cons, hlater, history_checkView, List.append_assoc, List.singleton_append]
      rw [List.foldl_cons]
      rcases List.mem_append.mp hx with hx | hx
      · exact (ih hlater hx).mono (by omega) (Nat.le_refl _)
      · obtain rfl := List.mem_singleton.mp hx
        exact (refused_of_mem_checkEvent hcall hsocket).mono (Nat.le_refl _) (by omega)

/-- Every call of a tick is given a socket unless a request of the tick is refused. -/
theorem Inv.refused_of_tick (h : b.Inv) {news : List Event} {x : Event} {call : SendMessageCall}
    (hhistory : (b.tick env).history = news ++ b.history) (hx : x ∈ news) (hcall : call ∈ x.calls)
    (hsocket : call.socket = none) : b.os.RefusedBetween env (b.tick env).os := by
  rw [h.tick_eq] at hhistory ⊢
  exact refused_of_mem_foldl hhistory hx hcall hsocket

/-- A tick acquires what its calls are given, and closes nothing. -/
theorem Inv.acquired_tick (h : b.Inv) (env : Environment) :
    Os.Acquired env (env.callsFrom b.os.readings (b.topics.map TopicView.calls)) b.os
      (b.tick env).os := by
  rw [h.tick_eq]
  exact acquired_foldl_checkView b env b.topics

@[simp] theorem os_connect (b : Broker) (e : Endpoint) : (b.connect e).os = b.os := by
  rcases b.connect_cases e with ⟨-, hconnect⟩ | ⟨-, hconnect⟩ <;> rw [hconnect]

@[simp] theorem os_dropFirst (b : Broker) (v : TopicView) : (b.dropFirst v).os = b.os := by
  rcases b.dropFirst_cases v with ⟨-, hdrop⟩ | ⟨-, hdrop⟩ <;> rw [hdrop]
  rfl

theorem os_releaseConnection {e : Endpoint} (h : b.releaseConnection e = .ok c) :
    c.os = b.os := by
  rcases releaseConnection_cases h with ⟨rfl, -⟩ | ⟨-, rfl⟩
  · rfl
  · rfl

theorem acquired_findOrAddTopic (b : Broker) (env : Environment) (topicName : Text) :
    Os.Acquired env 0 b.os (b.findOrAddTopic env topicName).2.os := by
  rcases b.findOrAddTopic_cases env topicName with ⟨-, hadd⟩ | ⟨v, -, hadd⟩ <;> rw [hadd]
  · exact (Os.acquired_readTime env b.os).trans (Os.acquired_readTime env _)
  · exact .refl env b.os

theorem acquired_subscribe (b : Broker) (env : Environment) (e : Endpoint) (topicName : Text) :
    Os.Acquired env 0 b.os (b.subscribe env e topicName).2.os := by
  have hos : (b.subscribe env e topicName).2.os = (b.findOrAddTopic env topicName).2.os := by
    rcases b.subscribe_cases env e topicName with ⟨-, hsubscribe⟩ | ⟨-, hsubscribe⟩ <;>
      rw [hsubscribe]
    · exact os_connect _ e
    · exact os_connect _ e
  rw [hos]
  exact acquired_findOrAddTopic b env topicName

theorem acquired_publish (b : Broker) (env : Environment) (topicName message : Text) :
    Os.Acquired env 0 b.os (b.publish env topicName message).2.os := by
  rcases b.publish_cases env topicName message with ⟨-, hpublish⟩ | ⟨v, -, hpublish⟩ <;>
    rw [hpublish]
  · exact .refl env b.os
  · exact (Os.acquired_readTime env b.os).trans (Os.acquired_readTime env _)

theorem os_unsubscribe {e : Endpoint} {topicName : Text} {r : Response}
    (h : b.unsubscribe e topicName = .ok (r, c)) : c.os = b.os := by
  rcases unsubscribe_cases h with ⟨-, rfl, -⟩ | ⟨v, -, hrelease, -⟩
  · rfl
  · rw [os_releaseConnection hrelease, os_dropFirst]

/-- The handlers read the clock only. -/
theorem acquired_handle {q : Request} {r : Response} (h : b.handle env q = .ok (r, c)) :
    Os.Acquired env 0 b.os c.os := by
  cases q with
  | subscribe ipAddress port topicName =>
      have hc : b.subscribe env ⟨ipAddress, port⟩ topicName = (r, c) := Except.ok.inj h
      have hacquired := acquired_subscribe b env ⟨ipAddress, port⟩ topicName
      rwa [hc] at hacquired
  | unsubscribe ipAddress port topicName =>
      have hos : c.os = b.os := os_unsubscribe h
      rw [hos]
      exact .refl env b.os
  | publish topicName message =>
      have hc : b.publish env topicName message = (r, c) := Except.ok.inj h
      have hacquired := acquired_publish b env topicName message
      rwa [hc] at hacquired
  | listTopics =>
      cases h
      exact .refl env b.os
  | getTopicStatus topicName =>
      cases h
      exact .refl env b.os

end Broker

end PublisherSubscriber
