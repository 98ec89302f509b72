import Mathlib.Data.List.Basic

/-!
# Programs that depend on a part of the state

A state is looked at through a map that forgets some of it.  A program respects
the map if what it returns, how it fails and what it makes of the part that is
seen are determined by that part.
-/

namespace Observation

variable {σ τ ε α β : Type} {φ : σ → τ}

def Respects (φ : σ → τ) (m : StateT σ (Except ε) α) : Prop :=
  ∀ ⦃s t⦄, φ s = φ t → (m.run s).map (Prod.map id φ) = (m.run t).map (Prod.map id φ)

namespace Respects

variable {m : StateT σ (Except ε) α} {f : α → StateT σ (Except ε) β}

theorem ok (hm : Respects φ m) {s t s' : σ} (hst : φ s = φ t) {a : α}
    (hrun : m.run s = .ok (a, s')) : ∃ t', m.run t = .ok (a, t') ∧ φ s' = φ t' := by
  have hsame := hm hst
  rw [hrun] at hsame
  cases hother : m.run t with
  | error e => simp [hother, Except.map] at hsame
  | ok r =>
      obtain ⟨b, t'⟩ := r
      rw [hother] at hsame
      obtain ⟨rfl, hst'⟩ := Prod.mk.inj (Except.ok.inj hsame)
      exact ⟨t', rfl, hst'⟩

theorem error (hm : Respects φ m) {s t : σ} (hst : φ s = φ t) {e : ε}
    (hrun : m.run s = .error e) : m.run t = .error e := by
  have hsame := hm hst
  rw [hrun] at hsame
  cases hother : m.run t with
  | error e' =>
      rw [hother] at hsame
      rw [Except.error.inj hsame]
  | ok r => simp [hother, Except.map] at hsame

theorem pure (a : α) : Respects φ (Pure.pure a : StateT σ (Except ε) α) := fun s t hst ↦ by
  show Except.ok (a, φ s) = Except.ok (a, φ t)
  rw [hst]

theorem bind (hm : Respects φ m) (hf : ∀ a, Respects φ (f a)) : Respects φ (m >>= f) := by
  intro s t hst
  rw [StateT.run_bind, StateT.run_bind]
  cases hrun : m.run s with
  | error e =>
      rw [hm.error hst hrun]
  | ok r =>
      obtain ⟨t', hother, hst'⟩ := hm.ok hst hrun
      rw [hother]
      exact hf r.1 hst'

/-- The program may look at the state, where it sees no more than the map shows. -/
theorem get_bind {k : σ → StateT σ (Except ε) β} (hk : ∀ s, Respects φ (k s))
    (hsame : ∀ s t, φ s = φ t → k s = k t) : Respects φ (get >>= k) := by
  intro s t hst
  show ((k s).run s).map _ = ((k t).run t).map _
  rw [hsame s t hst]
  exact hk t hst

theorem modify {g : σ → σ} (hg : ∀ s t, φ s = φ t → φ (g s) = φ (g t)) :
    Respects φ (modify g : StateT σ (Except ε) Unit) := fun s t hst ↦ by
  show Except.ok ((), φ (g s)) = Except.ok ((), φ (g t))
  rw [hg s t hst]

/-- The program reads a part that the map shows, and may fail because of it. -/
theorem part {γ δ : Type} (part : σ → γ) (change : γ → Except ε δ) (result : δ → α)
    (put : δ → σ → σ) (hpart : ∀ s t, φ s = φ t → part s = part t)
    (hput : ∀ d s t, φ s = φ t → φ (put d s) = φ (put d t)) :
    Respects φ (fun s ↦ (change (part s)).map fun d ↦ (result d, put d s) :
      StateT σ (Except ε) α) := by
  intro s t hst
  show ((change (part s)).map _).map _ = ((change (part t)).map _).map _
  rw [hpart s t hst]
  cases change (part t) with
  | error e => rfl
  | ok d => exact congrArg (fun v ↦ Except.ok (result d, v)) (hput d s t hst)

theorem mapM {f : α → StateT σ (Except ε) β} (hf : ∀ a, Respects φ (f a)) (as : List α) :
    Respects φ (as.mapM f) := by
  induction as with
  | nil => exact .pure []
  | cons a as ih =>
      rw [List.mapM_cons]
      exact (hf a).bind fun b ↦ ih.bind fun bs ↦ .pure (b :: bs)

theorem forM {f : α → StateT σ (Except ε) PUnit} (hf : ∀ a, Respects φ (f a)) (as : List α) :
    Respects φ (as.forM f) := by
  induction as with
  | nil => exact .pure PUnit.unit
  | cons a as ih => exact (hf a).bind fun _ ↦ ih

end Respects

end Observation
