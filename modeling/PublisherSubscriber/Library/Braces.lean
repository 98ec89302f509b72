import Mathlib.Data.List.Basic
import Mathlib.Data.Nat.Notation

/-!
# Braces outside string literals

A scanner reads what follows an opening brace.  It counts the braces that were
opened since, and knows whether it is inside a string literal, until the brace
it started behind is closed.  A comment ends the scan as well: what is in it is
not looked at.
-/

namespace Braces

structure Delimiters (α : Type) where
  opening : α
  closing : α
  quote : α
  escape : α
  comment : α
  nodup : [opening, closing, quote, escape, comment].Nodup

inductive Mode
  | outside
  | inside
  | escaped
  deriving DecidableEq

/-- `depth` braces are open besides the one the scan started behind. -/
structure State where
  depth : ℕ
  mode : Mode
  deriving DecidableEq

def afterClosing : ℕ → Option State
  | 0 => none
  | depth + 1 => some ⟨depth, .outside⟩

section

variable {α : Type} [DecidableEq α] (D : Delimiters α)

/-- `none` when the scan ends here. -/
def step : State → α → Option State
  | ⟨depth, .inside⟩, c =>
      some ⟨depth, if c = D.escape then .escaped else if c = D.quote then .outside else .inside⟩
  | ⟨depth, .escaped⟩, _ => some ⟨depth, .inside⟩
  | ⟨depth, .outside⟩, c =>
      if c = D.quote then some ⟨depth, .inside⟩
      else if c = D.opening then some ⟨depth + 1, .outside⟩
      else if c = D.closing then afterClosing depth
      else if c = D.comment then none
      else some ⟨depth, .outside⟩

def scan : State → List α → Option State
  | s, [] => some s
  | s, c :: cs => (step D s c).bind fun t ↦ scan t cs

/-- The brace in front of these characters is closed in them, or a comment begins. -/
def Closes (cs : List α) : Prop := scan D ⟨0, .outside⟩ cs = none

instance (cs : List α) : Decidable (Closes D cs) := inferInstanceAs (Decidable (_ = _))

/-- Read outside a literal, these characters leave the scanner as it is. -/
def Balanced (cs : List α) : Prop := ∀ depth, scan D ⟨depth, .outside⟩ cs = some ⟨depth, .outside⟩

/-- The same inside a literal. -/
def Literal (cs : List α) : Prop := ∀ depth, scan D ⟨depth, .inside⟩ cs = some ⟨depth, .inside⟩

variable {D} {s t : State} {c : α} {cs ds : List α}

theorem scan_cons_of_step (h : step D s c = some t) : scan D s (c :: cs) = scan D t cs := by
  rw [scan, h, Option.bind_some]

theorem scan_append : scan D s (cs ++ ds) = (scan D s cs).bind fun t ↦ scan D t ds := by
  induction cs generalizing s with
  | nil => rfl
  | cons c cs ih =>
      simp only [List.cons_append, scan]
      cases step D s c with
      | none => rfl
      | some t => exact ih

theorem scan_append_of_eq (h : scan D s cs = some t) : scan D s (cs ++ ds) = scan D t ds := by
  rw [scan_append, h, Option.bind_some]

/-! ## Single characters -/

theorem step_quote (depth : ℕ) : step D ⟨depth, .outside⟩ D.quote = some ⟨depth, .inside⟩ :=
  if_pos rfl

theorem step_opening (depth : ℕ) :
    step D ⟨depth, .outside⟩ D.opening = some ⟨depth + 1, .outside⟩ := by
  have hquote : D.opening ≠ D.quote := by
    have hnodup := D.nodup
    simp only [List.nodup_cons, List.mem_cons, not_or] at hnodup
    exact hnodup.1.2.1
  rw [step, if_neg hquote, if_pos rfl]

theorem step_closing (depth : ℕ) :
    step D ⟨depth + 1, .outside⟩ D.closing = some ⟨depth, .outside⟩ := by
  have hquote : D.closing ≠ D.quote ∧ D.opening ≠ D.closing := by
    have hnodup := D.nodup
    simp only [List.nodup_cons, List.mem_cons, not_or] at hnodup
    exact ⟨hnodup.2.1.1, hnodup.1.1⟩
  rw [step, if_neg hquote.1, if_neg hquote.2.symm, if_pos rfl, afterClosing]

theorem step_escape (depth : ℕ) : step D ⟨depth, .inside⟩ D.escape = some ⟨depth, .escaped⟩ := by
  rw [step, if_pos rfl]

theorem step_quote_inside (depth : ℕ) :
    step D ⟨depth, .inside⟩ D.quote = some ⟨depth, .outside⟩ := by
  have hescape : D.quote ≠ D.escape := by
    have hnodup := D.nodup
    simp only [List.nodup_cons, List.mem_cons, not_or] at hnodup
    exact hnodup.2.2.1.1
  rw [step, if_neg hescape, if_pos rfl]

/-! ## Literals -/

theorem literal_nil : Literal D [] := fun _ ↦ rfl

theorem Literal.append (hcs : Literal D cs) (hds : Literal D ds) : Literal D (cs ++ ds) :=
  fun depth ↦ (scan_append_of_eq (hcs depth)).trans (hds depth)

theorem Literal.flatMap {β : Type} {f : β → List α} {xs : List β}
    (h : ∀ x ∈ xs, Literal D (f x)) : Literal D (xs.flatMap f) := by
  induction xs with
  | nil => exact literal_nil
  | cons x xs ih =>
      obtain ⟨hx, hxs⟩ := List.forall_mem_cons.mp h
      exact hx.append (ih hxs)

theorem literal_of_forall (h : ∀ c ∈ cs, c ≠ D.quote ∧ c ≠ D.escape) : Literal D cs := by
  intro depth
  induction cs with
  | nil => rfl
  | cons c cs ih =>
      obtain ⟨⟨hquote, hescape⟩, hcs⟩ := List.forall_mem_cons.mp h
      have hstep : step D ⟨depth, .inside⟩ c = some ⟨depth, .inside⟩ := by
        rw [step, if_neg hescape, if_neg hquote]
      exact (scan_cons_of_step hstep).trans (ih hcs)

/-- An escape takes the character behind it along. -/
theorem Literal.escape (hcs : Literal D cs) (c : α) : Literal D (D.escape :: c :: cs) := by
  intro depth
  rw [scan_cons_of_step (step_escape depth), scan_cons_of_step (t := ⟨depth, .inside⟩) rfl]
  exact hcs depth

/-! ## Balanced text -/

theorem balanced_nil : Balanced D [] := fun _ ↦ rfl

theorem Balanced.append (hcs : Balanced D cs) (hds : Balanced D ds) : Balanced D (cs ++ ds) :=
  fun depth ↦ (scan_append_of_eq (hcs depth)).trans (hds depth)

theorem balanced_of_forall
    (h : ∀ c ∈ cs, c ≠ D.quote ∧ c ≠ D.opening ∧ c ≠ D.closing ∧ c ≠ D.comment) :
    Balanced D cs := by
  intro depth
  induction cs with
  | nil => rfl
  | cons c cs ih =>
      obtain ⟨⟨hquote, hopening, hclosing, hcomment⟩, hcs⟩ := List.forall_mem_cons.mp h
      have hstep : step D ⟨depth, .outside⟩ c = some ⟨depth, .outside⟩ := by
        rw [step, if_neg hquote, if_neg hopening, if_neg hclosing, if_neg hcomment]
      exact (scan_cons_of_step hstep).trans (ih hcs)

theorem Literal.balanced (hcs : Literal D cs) : Balanced D ([D.quote] ++ cs ++ [D.quote]) := by
  intro depth
  rw [List.append_assoc, List.singleton_append, scan_cons_of_step (step_quote depth),
    scan_append_of_eq (hcs depth), scan_cons_of_step (step_quote_inside depth)]
  rfl

theorem Balanced.braces (hcs : Balanced D cs) :
    Balanced D ([D.opening] ++ cs ++ [D.closing]) := by
  intro depth
  rw [List.append_assoc, List.singleton_append, scan_cons_of_step (step_opening depth),
    scan_append_of_eq (hcs (depth + 1)), scan_cons_of_step (step_closing depth)]
  rfl

/-! ## Cuts -/

/-- Once the brace is closed it stays closed. -/
theorem Balanced.not_closes_inside (hcs : Balanced D cs) (hpre : ds <+: cs) :
    ¬ Closes D ds := by
  obtain ⟨es, rfl⟩ := hpre
  intro hcloses
  have hscan := hcs 0
  rw [scan_append, hcloses] at hscan
  cases hscan

/-- Cut off before its last brace, a text in braces leaves its first brace open. -/
theorem Balanced.not_closes_of_cut (hcs : Balanced D cs) (hpre : ds <+: cs ++ [D.closing])
    (hcut : ds ≠ cs ++ [D.closing]) : ¬ Closes D ds := by
  rcases List.prefix_concat_iff.mp hpre with hwhole | hpre
  · exact absurd hwhole hcut
  · exact hcs.not_closes_inside hpre

/-! ## Text that may contain a comment -/

variable (D) in
/-- Read outside a literal, these characters leave the scanner as it is, or end the scan. -/
def Neutral (cs : List α) : Prop :=
  ∀ depth, scan D ⟨depth, .outside⟩ cs = some ⟨depth, .outside⟩ ∨
    scan D ⟨depth, .outside⟩ cs = none

theorem Balanced.neutral (h : Balanced D cs) : Neutral D cs := fun depth ↦ Or.inl (h depth)

theorem Neutral.append (hcs : Neutral D cs) (hds : Neutral D ds) : Neutral D (cs ++ ds) := by
  intro depth
  rcases hcs depth with hsame | hnone
  · rw [scan_append_of_eq hsame]
    exact hds depth
  · exact Or.inr (by rw [scan_append, hnone, Option.bind_none])

theorem step_comment (depth : ℕ) : step D ⟨depth, .outside⟩ D.comment = none := by
  have hnodup := D.nodup
  simp only [List.nodup_cons, List.mem_cons, List.not_mem_nil, or_false, not_or] at hnodup
  obtain ⟨⟨-, -, -, hopening⟩, ⟨-, -, hclosing⟩, ⟨-, hquote⟩, -⟩ := hnodup
  rw [step, if_neg (Ne.symm hquote), if_neg (Ne.symm hopening), if_neg (Ne.symm hclosing),
    if_pos rfl]

/-- What follows the beginning of a comment is not looked at. -/
theorem scan_comment (depth : ℕ) (cs : List α) :
    scan D ⟨depth, .outside⟩ (D.comment :: cs) = none := by
  rw [scan, step_comment, Option.bind_none]

theorem neutral_comment (cs : List α) : Neutral D (D.comment :: cs) :=
  fun depth ↦ Or.inr (scan_comment depth cs)

theorem scan_opening (depth : ℕ) (cs : List α) :
    scan D ⟨depth, .outside⟩ (D.opening :: cs) = scan D ⟨depth + 1, .outside⟩ cs :=
  scan_cons_of_step (step_opening depth)

theorem neutral_opening_comment (cs : List α) : Neutral D (D.opening :: D.comment :: cs) :=
  fun depth ↦ Or.inr (by rw [scan_opening, scan_comment])

theorem Neutral.opening_append (hcs : Neutral D cs) (hds : Neutral D (D.opening :: ds)) :
    Neutral D (D.opening :: (cs ++ ds)) := by
  intro depth
  rw [scan_opening]
  rcases hcs (depth + 1) with hsame | hnone
  · rw [scan_append_of_eq hsame, ← scan_opening]
    exact hds depth
  · exact Or.inr (by rw [scan_append, hnone, Option.bind_none])

/-- One more brace that is open stays open. -/
theorem scan_succ {depth depth' : ℕ} {mode mode' : Mode}
    (h : scan D ⟨depth, mode⟩ cs = some ⟨depth', mode'⟩) :
    scan D ⟨depth + 1, mode⟩ cs = some ⟨depth' + 1, mode'⟩ := by
  induction cs generalizing depth mode with
  | nil =>
      cases h
      rfl
  | cons c cs ih =>
      obtain ⟨⟨e, m⟩, hstep, hrest⟩ := Option.bind_eq_some_iff.mp h
      have hnext : step D ⟨depth + 1, mode⟩ c = some ⟨e + 1, m⟩ := by
        cases mode with
        | inside =>
            cases hstep
            rfl
        | escaped =>
            cases hstep
            rfl
        | outside =>
            rw [step] at hstep ⊢
            split_ifs at hstep ⊢
            · cases hstep
              rfl
            · cases hstep
              rfl
            · cases depth with
              | zero => cases hstep
              | succ depth =>
                  cases hstep
                  rfl
            · cases hstep
              rfl
      rw [scan_cons_of_step hnext]
      exact ih hrest

theorem Closes.append (h : Closes D cs) (ds : List α) : Closes D (cs ++ ds) := by
  rw [Closes] at h
  rw [Closes, scan_append, h, Option.bind_none]

/-- The brace in front of neutral text is closed in it. -/
theorem Neutral.closes (h : Neutral D (D.opening :: cs)) : Closes D cs := by
  rw [Closes]
  by_contra hopen
  obtain ⟨⟨depth, mode⟩, hscan⟩ := Option.ne_none_iff_exists'.mp hopen
  have hshifted := scan_succ hscan
  rcases h 0 with hsame | hnone
  · rw [scan_opening, hshifted] at hsame
    cases hsame
  · rw [scan_opening, hshifted] at hnone
    cases hnone

end

end Braces
