import PublisherSubscriber.Library.Transition

/-!
# Systems made of independent components

A component takes a step on every input that concerns its key and on no other
one.  If that is what an observer sees of one step of a system, then what is seen
of a whole run depends on the inputs that concern the key only.
-/

namespace Transition

/-- What one component does, and what it answers. -/
structure Component (τ ι ρ : Type) where
  next : τ → ι → τ
  reply : τ → ι → ρ

namespace Component

variable {τ ι ρ : Type} (C : Component τ ι ρ)

def run : τ → List ι → τ := List.foldl C.next

def replies : τ → List ι → List ρ
  | _, [] => []
  | t, i :: is => C.reply t i :: replies (C.next t i) is

@[simp] theorem run_nil (t : τ) : C.run t [] = t := rfl

@[simp] theorem run_cons (t : τ) (i : ι) (is : List ι) :
    C.run t (i :: is) = C.run (C.next t i) is := rfl

end Component

namespace System

variable {σ ι ο ε τ ρ : Type} {S : System σ ι ο ε}

/-- The outputs for the inputs that concern the key, as they are observed. -/
def observed (concerns : ι → Bool) (observe : ο → ρ) (is : List ι) (os : List ο) : List ρ :=
  ((is.zip os).filter (concerns ·.1)).map (observe ·.2)

theorem run_component {C : Component τ ι ρ} {view : σ → τ} {concerns : ι → Bool} {observe : ο → ρ}
    {I : σ → Prop} (hstep : ∀ s i o t, I s → S.step s i = .ok (o, t) → I t ∧
      if concerns i then view t = C.next (view s) i ∧ observe o = C.reply (view s) i
      else view t = view s)
    {s u : σ} {is : List ι} {os : List ο} (hs : I s) (hrun : S.run s is = .ok (os, u)) :
    view u = C.run (view s) (is.filter concerns) ∧
      observed concerns observe is os = C.replies (view s) (is.filter concerns) := by
  induction is generalizing s os with
  | nil =>
      simp only [run_nil, Except.ok.injEq, Prod.mk.injEq] at hrun
      obtain ⟨rfl, rfl⟩ := hrun
      exact ⟨rfl, rfl⟩
  | cons i is ih =>
      obtain ⟨o, t, rest, ht, hrest, rfl⟩ := S.run_cons_inv hrun
      obtain ⟨hI, hseen⟩ := hstep s i o t hs ht
      obtain ⟨hview, hreplies⟩ := ih hI hrest
      cases hconcerns : concerns i with
      | true =>
          rw [hconcerns, if_pos rfl] at hseen
          obtain ⟨hnext, hreply⟩ := hseen
          rw [hnext] at hview hreplies
          rw [List.filter_cons_of_pos hconcerns]
          refine ⟨hview, ?_⟩
          simp only [observed, List.zip_cons_cons, List.filter_cons, hconcerns, if_true,
            List.map_cons, Component.replies]
          exact congrArg₂ List.cons hreply hreplies
      | false =>
          have hsame : view t = view s := by simpa [hconcerns] using hseen
          rw [hsame] at hview hreplies
          rw [List.filter_cons_of_neg (by simp [hconcerns])]
          refine ⟨hview, ?_⟩
          simp only [observed, List.zip_cons_cons, List.filter_cons, hconcerns]
          exact hreplies

end System

end Transition
