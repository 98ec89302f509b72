import Mathlib.Data.List.Basic

/-!
# Deterministic systems that may fail

A system answers every input with an output and a next state, or fails.  This
module collects the rules the development uses for it: invariants of guarded
runs, abstraction functions, and simulation by a relational specification.
-/

namespace Transition

structure System (σ ι ο ε : Type) where
  start : σ
  step : σ → ι → Except ε (ο × σ)

namespace System

variable {σ ι ο ε : Type}

def run (S : System σ ι ο ε) : σ → List ι → Except ε (List ο × σ)
  | s, [] => .ok ([], s)
  | s, i :: is =>
      match S.step s i with
      | .error e => .error e
      | .ok (o, t) =>
          match S.run t is with
          | .error e => .error e
          | .ok (os, u) => .ok (o :: os, u)

@[simp] theorem run_nil (S : System σ ι ο ε) (s : σ) : S.run s [] = .ok ([], s) := rfl

theorem run_cons_of_step (S : System σ ι ο ε) {s t : σ} {i : ι} {o : ο}
    (hstep : S.step s i = .ok (o, t)) {is : List ι} {os : List ο} {u : σ}
    (hrun : S.run t is = .ok (os, u)) : S.run s (i :: is) = .ok (o :: os, u) := by
  simp only [run, hstep, hrun]

theorem run_cons_inv (S : System σ ι ο ε) {s u : σ} {i : ι} {is : List ι} {os : List ο}
    (h : S.run s (i :: is) = .ok (os, u)) :
    ∃ o t rest, S.step s i = .ok (o, t) ∧ S.run t is = .ok (rest, u) ∧ os = o :: rest := by
  cases hstep : S.step s i with
  | error e => simp [run, hstep] at h
  | ok r =>
      obtain ⟨o, t⟩ := r
      cases hrest : S.run t is with
      | error e => simp [run, hstep, hrest] at h
      | ok q =>
          obtain ⟨rest, v⟩ := q
          simp only [run, hstep, hrest, Except.ok.injEq, Prod.mk.injEq] at h
          exact ⟨o, t, rest, rfl, h.2 ▸ hrest, h.1.symm⟩

theorem run_append_inv (S : System σ ι ο ε) {s u : σ} {is js : List ι} {os : List ο}
    (h : S.run s (is ++ js) = .ok (os, u)) :
    ∃ os₁ t os₂, S.run s is = .ok (os₁, t) ∧ S.run t js = .ok (os₂, u) := by
  induction is generalizing s os with
  | nil => exact ⟨[], s, os, rfl, h⟩
  | cons i is ih =>
      obtain ⟨o, t, rest, hstep, hrest, -⟩ := S.run_cons_inv h
      obtain ⟨os₁, v, os₂, hfirst, hsecond⟩ := ih hrest
      exact ⟨o :: os₁, v, os₂, S.run_cons_of_step hstep hfirst, hsecond⟩

/-- The states reached by runs in which every step is taken under `guard`. -/
inductive ReachableWhile (S : System σ ι ο ε) (guard : σ → ι → Prop) : σ → Prop
  | start : ReachableWhile S guard S.start
  | step {s t : σ} {i : ι} {o : ο} (hs : ReachableWhile S guard s) (hi : guard s i)
      (hstep : S.step s i = .ok (o, t)) : ReachableWhile S guard t

abbrev Reachable (S : System σ ι ο ε) : σ → Prop := S.ReachableWhile fun _ _ ↦ True

variable {S : System σ ι ο ε} {guard : σ → ι → Prop}

theorem ReachableWhile.invariant {I : σ → Prop} (hstart : I S.start)
    (hpreserved : ∀ s t i o, I s → guard s i → S.step s i = .ok (o, t) → I t) {s : σ}
    (hs : S.ReachableWhile guard s) : I s := by
  induction hs with
  | start => exact hstart
  | step _ hi hstep ih => exact hpreserved _ _ _ _ ih hi hstep

/-- Every input of the run meets `guard` in the state it arrives in. -/
def Meets (S : System σ ι ο ε) (guard : σ → ι → Prop) : σ → List ι → Prop
  | _, [] => True
  | s, i :: is => guard s i ∧ ∀ o t, S.step s i = .ok (o, t) → S.Meets guard t is

theorem meets_cons_of_error (S : System σ ι ο ε) {guard : σ → ι → Prop} {s : σ} {i : ι} {e : ε}
    (hstep : S.step s i = .error e) (is : List ι) :
    S.Meets guard s (i :: is) ↔ guard s i := by
  simp [Meets, hstep]

theorem meets_cons_of_ok (S : System σ ι ο ε) {guard : σ → ι → Prop} {s t : σ} {i : ι} {o : ο}
    (hstep : S.step s i = .ok (o, t)) (is : List ι) :
    S.Meets guard s (i :: is) ↔ guard s i ∧ S.Meets guard t is := by
  simp [Meets, hstep]

instance decidableMeets (S : System σ ι ο ε) (guard : σ → ι → Prop)
    [∀ s i, Decidable (guard s i)] : ∀ s is, Decidable (S.Meets guard s is)
  | _, [] => isTrue trivial
  | s, i :: is =>
      match hstep : S.step s i with
      | .error _ => decidable_of_iff _ (S.meets_cons_of_error hstep is).symm
      | .ok (_, t) =>
          have := decidableMeets S guard t is
          decidable_of_iff _ (S.meets_cons_of_ok hstep is).symm

theorem meets_of_forall (S : System σ ι ο ε) {guard : σ → ι → Prop} {is : List ι}
    (h : ∀ i ∈ is, ∀ s, guard s i) (s : σ) : S.Meets guard s is := by
  induction is generalizing s with
  | nil => trivial
  | cons i is ih =>
      obtain ⟨hi, his⟩ := List.forall_mem_cons.mp h
      exact ⟨hi s, fun _ t _ ↦ ih his t⟩

theorem meets_true (S : System σ ι ο ε) (s : σ) (is : List ι) :
    S.Meets (fun _ _ ↦ True) s is :=
  S.meets_of_forall (fun _ _ _ ↦ trivial) s

theorem Meets.imp {guard guard' : σ → ι → Prop} (h : ∀ s i, guard s i → guard' s i) {s : σ}
    {is : List ι} (hmeets : S.Meets guard s is) : S.Meets guard' s is := by
  induction is generalizing s with
  | nil => trivial
  | cons i is ih => exact ⟨h s i hmeets.1, fun o t hstep ↦ ih (hmeets.2 o t hstep)⟩

theorem Meets.and {guard guard' : σ → ι → Prop} {s : σ} {is : List ι}
    (h : S.Meets guard s is) (h' : S.Meets guard' s is) :
    S.Meets (fun s i ↦ guard s i ∧ guard' s i) s is := by
  induction is generalizing s with
  | nil => trivial
  | cons i is ih =>
      exact ⟨⟨h.1, h'.1⟩, fun o t hstep ↦ ih (h.2 o t hstep) (h'.2 o t hstep)⟩

theorem ReachableWhile.run {s u : σ} {is : List ι} {os : List ο}
    (hs : S.ReachableWhile guard s) (hmeets : S.Meets guard s is)
    (hrun : S.run s is = .ok (os, u)) : S.ReachableWhile guard u := by
  induction is generalizing s os with
  | nil =>
      simp only [run_nil, Except.ok.injEq, Prod.mk.injEq] at hrun
      exact hrun.2 ▸ hs
  | cons i is ih =>
      obtain ⟨o, t, rest, hstep, hrest, -⟩ := S.run_cons_inv hrun
      exact ih (hs.step hmeets.1 hstep) (hmeets.2 o t hstep) hrest

theorem Meets.invariant {I : σ → Prop}
    (hpreserved : ∀ s t i o, I s → guard s i → S.step s i = .ok (o, t) → I t) {s u : σ}
    {is : List ι} {os : List ο} (hmeets : S.Meets guard s is) (hrun : S.run s is = .ok (os, u))
    (hs : I s) : I u := by
  induction is generalizing s os with
  | nil =>
      simp only [run_nil, Except.ok.injEq, Prod.mk.injEq] at hrun
      exact hrun.2 ▸ hs
  | cons i is ih =>
      obtain ⟨o, t, rest, hstep, hrest, -⟩ := S.run_cons_inv hrun
      exact ih (hmeets.2 o t hstep) hrest (hpreserved s t i o hs hmeets.1 hstep)

/-- `P` holds of every state of the run, the first and the last included. -/
def Throughout (S : System σ ι ο ε) (P : σ → Prop) : σ → List ι → Prop
  | s, [] => P s
  | s, i :: is => P s ∧ ∀ o t, S.step s i = .ok (o, t) → S.Throughout P t is

theorem Throughout.head {P : σ → Prop} {s : σ} {is : List ι} (h : S.Throughout P s is) : P s := by
  cases is with
  | nil => exact h
  | cons i is => exact h.1

theorem throughout_cons_of_ok (S : System σ ι ο ε) {P : σ → Prop} {s t : σ} {i : ι} {o : ο}
    (hstep : S.step s i = .ok (o, t)) (is : List ι) :
    S.Throughout P s (i :: is) ↔ P s ∧ S.Throughout P t is := by
  simp [Throughout, hstep]

theorem throughout_cons_of_error (S : System σ ι ο ε) {P : σ → Prop} {s : σ} {i : ι} {e : ε}
    (hstep : S.step s i = .error e) (is : List ι) : S.Throughout P s (i :: is) ↔ P s := by
  simp [Throughout, hstep]

instance decidableThroughout (S : System σ ι ο ε) (P : σ → Prop) [DecidablePred P] :
    ∀ s is, Decidable (S.Throughout P s is)
  | s, [] => inferInstanceAs (Decidable (P s))
  | s, i :: is =>
      match hstep : S.step s i with
      | .error _ => decidable_of_iff _ (S.throughout_cons_of_error hstep is).symm
      | .ok (_, t) =>
          have := decidableThroughout S P t is
          decidable_of_iff _ (S.throughout_cons_of_ok hstep is).symm

/-- What every step keeps between two states of `P` holds at the end of the run. -/
theorem Throughout.keeps {P Q : σ → Prop} {s u : σ} {is : List ι} {os : List ο}
    (h : S.Throughout P s is) (hrun : S.run s is = .ok (os, u))
    (hkeeps : ∀ s i o t, i ∈ is → P s → P t → S.step s i = .ok (o, t) → Q s → Q t) (hs : Q s) :
    P u ∧ Q u := by
  induction is generalizing s os with
  | nil =>
      simp only [run_nil, Except.ok.injEq, Prod.mk.injEq] at hrun
      exact hrun.2 ▸ ⟨h, hs⟩
  | cons i is ih =>
      obtain ⟨o, t, rest, hstep, hrest, -⟩ := S.run_cons_inv hrun
      have ht := h.2 o t hstep
      exact ih ht hrest (fun s i o t hi ↦ hkeeps s i o t (List.mem_cons_of_mem _ hi))
        (hkeeps s i o t (by simp) h.1 ht.head hstep hs)

/-- The state a run from the start ends in; the start itself if the run fails. -/
def final (S : System σ ι ο ε) (is : List ι) : σ :=
  match S.run S.start is with
  | .ok (_, t) => t
  | .error _ => S.start

theorem reachableWhile_final (S : System σ ι ο ε) {guard : σ → ι → Prop} {is : List ι}
    (hmeets : S.Meets guard S.start is) : S.ReachableWhile guard (S.final is) := by
  cases hrun : S.run S.start is with
  | error e => simpa [final, hrun] using ReachableWhile.start
  | ok r => simpa [final, hrun] using ReachableWhile.start.run hmeets hrun

theorem reachable_final (S : System σ ι ο ε) (is : List ι) : S.Reachable (S.final is) :=
  S.reachableWhile_final (S.meets_true S.start is)

/-! ## Abstraction functions -/

/-- `abstract` follows `concrete` step by step, answers and failures included,
as long as the concrete state is `Sound`. -/
structure Abstraction {τ : Type} (concrete : System σ ι ο ε) (abstract : System τ ι ο ε) where
  view : σ → τ
  Sound : σ → Prop
  sound_start : Sound concrete.start
  view_start : view concrete.start = abstract.start
  step_ok : ∀ s i o t, Sound s → abstract.step (view s) i = .ok (o, t) →
    ∃ s', concrete.step s i = .ok (o, s') ∧ view s' = t ∧ Sound s'
  step_error : ∀ s i e, Sound s → abstract.step (view s) i = .error e →
    concrete.step s i = .error e

namespace Abstraction

variable {τ : Type} {A : System τ ι ο ε} (φ : Abstraction S A)

include φ

theorem view_step {s t : σ} {i : ι} {o : ο} (hs : φ.Sound s) (hstep : S.step s i = .ok (o, t)) :
    A.step (φ.view s) i = .ok (o, φ.view t) ∧ φ.Sound t := by
  cases habs : A.step (φ.view s) i with
  | error e =>
      rw [φ.step_error s i e hs habs] at hstep
      cases hstep
  | ok r =>
      obtain ⟨s', hs', hview, hsound⟩ := φ.step_ok s i r.1 r.2 hs habs
      rw [hstep] at hs'
      cases hs'
      exact ⟨by rw [hview], hsound⟩

theorem sound {s : σ} (hs : S.ReachableWhile guard s) : φ.Sound s :=
  hs.invariant φ.sound_start fun _ _ _ _ hs _ hstep ↦ (φ.view_step hs hstep).2

theorem reachable {s : σ} (hs : S.Reachable s) : A.Reachable (φ.view s) := by
  induction hs with
  | start => exact φ.view_start ▸ .start
  | step hs _ hstep ih => exact ih.step trivial (φ.view_step (φ.sound hs) hstep).1

end Abstraction

/-! ## Several steps for one -/

section

variable {τ κ π : Type}

/-- `concrete` does in one of several steps what `abstract` does at once; the
other steps are not seen.  What was output so far is related as well, the
newest first. -/
structure Linearization (concrete : System σ ι ο ε) (abstract : System τ κ π ε) where
  input : σ → ι → Option κ
  Related : List ο → List (κ × π) → σ → τ → Prop
  related_start : Related [] [] concrete.start abstract.start
  step_none : ∀ os ps s t i, Related os ps s t → input s i = none →
    ∃ o s', concrete.step s i = .ok (o, s') ∧ Related (o :: os) ps s' t
  step_ok : ∀ os ps s t i k o s', Related os ps s t → input s i = some k →
    concrete.step s i = .ok (o, s') →
      ∃ p t', abstract.step t k = .ok (p, t') ∧ Related (o :: os) ((k, p) :: ps) s' t'
  step_error : ∀ os ps s t i k e, Related os ps s t → input s i = some k →
    concrete.step s i = .error e → abstract.step t k = .error e

namespace Linearization

variable {A : System τ κ π ε} (L : Linearization S A)

/-- The inputs of the abstract system, in the order the steps come in. -/
def inputs : σ → List ι → List κ
  | _, [] => []
  | s, i :: is => (L.input s i).toList ++
      match S.step s i with
      | .error _ => []
      | .ok (_, t) => inputs t is

variable {L}

theorem inputs_cons_of_ok {s s' : σ} {i : ι} {o : ο} (hstep : S.step s i = .ok (o, s'))
    (is : List ι) : L.inputs s (i :: is) = (L.input s i).toList ++ L.inputs s' is := by
  rw [inputs, hstep]

theorem run_ok {os : List ο} {ps : List (κ × π)} {s u : σ} {t : τ} {is : List ι} {rest : List ο}
    (h : L.Related os ps s t) (hrun : S.run s is = .ok (rest, u)) :
    ∃ answers v, A.run t (L.inputs s is) = .ok (answers, v) ∧
      L.Related (rest.reverse ++ os) (((L.inputs s is).zip answers).reverse ++ ps) u v := by
  induction is generalizing os ps s t rest with
  | nil =>
      simp only [run_nil, Except.ok.injEq, Prod.mk.injEq] at hrun
      obtain ⟨rfl, rfl⟩ := hrun
      exact ⟨[], t, rfl, h⟩
  | cons i is ih =>
      obtain ⟨o, s', rest, hstep, hrest, rfl⟩ := S.run_cons_inv hrun
      rw [inputs_cons_of_ok hstep, List.reverse_cons, List.append_assoc, List.singleton_append]
      cases hinput : L.input s i with
      | none =>
          obtain ⟨o', s'', hstep', hrelated⟩ := L.step_none os ps s t i h hinput
          obtain ⟨rfl, rfl⟩ : o' = o ∧ s'' = s' := by simpa [hstep] using hstep'.symm
          exact ih hrelated hrest
      | some k =>
          obtain ⟨p, t', hanswer, hrelated⟩ := L.step_ok os ps s t i k o s' h hinput hstep
          obtain ⟨answers, v, hanswers, hend⟩ := ih hrelated hrest
          refine ⟨p :: answers, v, A.run_cons_of_step hanswer hanswers, ?_⟩
          rwa [Option.toList_some, List.singleton_append, List.zip_cons_cons, List.reverse_cons,
            List.append_assoc, List.singleton_append]

theorem run_error {os : List ο} {ps : List (κ × π)} {s : σ} {t : τ} {is : List ι} {e : ε}
    (h : L.Related os ps s t) (hrun : S.run s is = .error e) :
    A.run t (L.inputs s is) = .error e := by
  induction is generalizing os ps s t with
  | nil => cases hrun
  | cons i is ih =>
      cases hstep : S.step s i with
      | error e' =>
          obtain rfl : e' = e := by simpa [run, hstep] using hrun
          cases hinput : L.input s i with
          | none =>
              obtain ⟨o, s', hok, -⟩ := L.step_none os ps s t i h hinput
              cases hstep.symm.trans hok
          | some k =>
              have herror := L.step_error os ps s t i k e' h hinput hstep
              simp [inputs, hinput, hstep, run, herror]
      | ok r =>
          obtain ⟨o, s'⟩ := r
          have hrest : S.run s' is = .error e := by
            cases hother : S.run s' is with
            | error e' => simpa [run, hstep, hother] using hrun
            | ok q => simp [run, hstep, hother] at hrun
          rw [inputs_cons_of_ok hstep]
          cases hinput : L.input s i with
          | none =>
              obtain ⟨o', s'', hstep', hrelated⟩ := L.step_none os ps s t i h hinput
              obtain ⟨rfl, rfl⟩ : o' = o ∧ s'' = s' := by simpa [hstep] using hstep'.symm
              exact ih hrelated hrest
          | some k =>
              obtain ⟨p, t', hanswer, hrelated⟩ := L.step_ok os ps s t i k o s' h hinput hstep
              simp [run, hanswer, ih hrelated hrest]

end Linearization

end

/-! ## Runs under a guard -/

theorem run_ok_of_meets {I : σ → Prop}
    (hstep : ∀ s i, I s → guard s i → ∃ o t, S.step s i = .ok (o, t) ∧ I t)
    {s : σ} {is : List ι} (hs : I s) (hmeets : S.Meets guard s is) :
    ∃ os t, S.run s is = .ok (os, t) ∧ I t := by
  induction is generalizing s with
  | nil => exact ⟨[], s, rfl, hs⟩
  | cons i is ih =>
      obtain ⟨o, t, ht, hI⟩ := hstep s i hs hmeets.1
      obtain ⟨os, u, hrun, hu⟩ := ih hI (hmeets.2 o t ht)
      exact ⟨o :: os, u, S.run_cons_of_step ht hrun, hu⟩

/-- What every step keeps of the inputs so far, the newest of them first, and of
the state, holds at the end of the run. -/
theorem run_invariant {P : ι → Prop} {I : List ι → σ → Prop}
    (hstep : ∀ past s i o t, I past s → P i → S.step s i = .ok (o, t) → I (i :: past) t)
    {past : List ι} {s u : σ} {is : List ι} {os : List ο} (hs : I past s) (hP : ∀ i ∈ is, P i)
    (hrun : S.run s is = .ok (os, u)) : I (is.reverse ++ past) u := by
  induction is generalizing past s os with
  | nil =>
      simp only [run_nil, Except.ok.injEq, Prod.mk.injEq] at hrun
      exact hrun.2 ▸ hs
  | cons i is ih =>
      obtain ⟨o, t, rest, ht, hrest, -⟩ := S.run_cons_inv hrun
      obtain ⟨hi, his⟩ := List.forall_mem_cons.mp hP
      have hall := ih (hstep past s i o t hs hi ht) his hrest
      rwa [List.reverse_cons, List.append_assoc, List.singleton_append]

/-- An input of the system, or none, takes `s` to `t`. -/
def Leads (S : System σ ι ο ε) (s : σ) (i : Option ι) (t : σ) : Prop :=
  match i with
  | none => t = s
  | some i => ∃ o, S.step s i = .ok (o, t)

/-- A run of `S` is a run of `A` seen through `f`, without the inputs that have no
image; it goes through states of `running` only if it ends in one. -/
theorem run_image {τ κ π : Type} {A : System τ κ π ε} {f : σ → τ} {image : ι → Option κ}
    {running : σ → Prop} {P : ι → Prop} {I : List ι → σ → Prop}
    (hstep : ∀ past s i o t, I past s → P i → S.step s i = .ok (o, t) →
      I (i :: past) t ∧ (running t → running s ∧ A.Leads (f s) (image i) (f t)))
    {past : List ι} {s u : σ} {is : List ι} {os : List ο} (hs : I past s) (hP : ∀ i ∈ is, P i)
    (hrun : S.run s is = .ok (os, u)) (hu : running u) :
    running s ∧ ∃ answers, A.run (f s) (is.filterMap image) = .ok (answers, f u) := by
  induction is generalizing past s os with
  | nil =>
      simp only [run_nil, Except.ok.injEq, Prod.mk.injEq] at hrun
      exact ⟨hrun.2 ▸ hu, [], by rw [hrun.2]; rfl⟩
  | cons i is ih =>
      obtain ⟨o, t, rest, ht, hrest, -⟩ := S.run_cons_inv hrun
      obtain ⟨hi, his⟩ := List.forall_mem_cons.mp hP
      obtain ⟨hI, hleads⟩ := hstep past s i o t hs hi ht
      obtain ⟨hrunning, answers, hanswers⟩ := ih hI his hrest
      obtain ⟨hrunning, hleads⟩ := hleads hrunning
      refine ⟨hrunning, ?_⟩
      cases himage : image i with
      | none =>
          rw [himage] at hleads
          rw [List.filterMap_cons_none himage, ← show f t = f s from hleads]
          exact ⟨answers, hanswers⟩
      | some k =>
          rw [himage] at hleads
          obtain ⟨p, hp⟩ := hleads
          rw [List.filterMap_cons_some himage]
          exact ⟨p :: answers, A.run_cons_of_step hp hanswers⟩

/-- Every step of the run is a step of the specification, which may leave the
output and its next state open, and related states lead to related states. -/
def Conforms {τ : Type} (S : System σ ι ο ε) (spec : τ → ι → ο → τ → Prop) (R : σ → τ → Prop) :
    σ → τ → List ι → Prop
  | s, t, [] => R s t
  | s, t, i :: is => R s t ∧
      ∃ o s' t', S.step s i = .ok (o, s') ∧ spec t i o t' ∧ S.Conforms spec R s' t' is

theorem Conforms.related {τ : Type} {spec : τ → ι → ο → τ → Prop} {R : σ → τ → Prop} {s : σ}
    {t : τ} {is : List ι} (h : S.Conforms spec R s t is) : R s t := by
  cases is with
  | nil => exact h
  | cons i is => exact h.1

/-- If `guard` says exactly when one step conforms, it says so for whole runs. -/
theorem conforms_iff_meets {τ : Type} {spec : τ → ι → ο → τ → Prop} {R : σ → τ → Prop}
    {I : σ → Prop} (hI : ∀ s i o s', I s → S.step s i = .ok (o, s') → I s')
    (hsim : ∀ s t i, I s → R s t →
      ((∃ o s' t', S.step s i = .ok (o, s') ∧ spec t i o t' ∧ R s' t') ↔ guard s i))
    {s : σ} {t : τ} (hs : I s) (hR : R s t) (is : List ι) :
    S.Conforms spec R s t is ↔ S.Meets guard s is := by
  induction is generalizing s t with
  | nil => exact ⟨fun _ ↦ trivial, fun _ ↦ hR⟩
  | cons i is ih =>
      constructor
      · rintro ⟨-, o, s', t', hstep, hspec, hrest⟩
        refine ⟨(hsim s t i hs hR).mp ⟨o, s', t', hstep, hspec, hrest.related⟩, fun o₂ s₂ h₂ ↦ ?_⟩
        obtain ⟨-, rfl⟩ : o = o₂ ∧ s' = s₂ := by simpa [hstep] using h₂
        exact (ih (hI s i o s' hs hstep) hrest.related).mp hrest
      · rintro ⟨hguard, hrest⟩
        obtain ⟨o, s', t', hstep, hspec, hR'⟩ := (hsim s t i hs hR).mpr hguard
        exact ⟨hR, o, s', t', hstep, hspec,
          (ih (hI s i o s' hs hstep) hR').mpr (hrest o s' hstep)⟩

end System

end Transition
