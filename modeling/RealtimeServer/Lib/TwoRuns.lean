import Mathlib.Data.List.Forall2
import Mathlib.Data.Option.Defs
import RealtimeServer.Lib.Run

/-!
# Two runs and what they put out

A hyperproperty compares runs: whatever an observer may not depend on is left to differ between
them, and the outputs have to agree. The runs are taken in step. `R` relates their states, `A` the
actions they take.

* `trace next out s as`: what the steps of a run put out, one after the other.
* `occurs next P s as`: how many of the steps satisfy `P`.
* `trace_eq_of_along`: along a condition that makes related steps put out the same, related runs
  have one trace.
* `along_of_trace_eq`: the converse, when equal outputs force the condition.
* **`run_simulates`**: forward simulation, where a step puts out the actions that match it.
-/

namespace Guarded

variable {σ τ α β ω : Type*}

/-- What the steps of a run put out, up to one that is not enabled. -/
def trace (next : σ → α → Option σ) (out : σ → α → ω) : σ → List α → List ω
  | _, [] => []
  | s, a :: as =>
    out s a :: match next s a with
      | none => []
      | some t => trace next out t as

variable {next : σ → α → Option σ} {next₂ : τ → β → Option τ} {out : σ → α → ω} {out₂ : τ → β → ω}
  {C : σ → α → Prop} {R : σ → τ → Prop} {A : α → β → Prop}

/-- Related steps are both enabled, and lead to related states, or neither is. -/
theorem rel_cases {x : Option σ} {y : Option τ} (h : Option.Rel R x y) :
    (x = none ∧ y = none) ∨ ∃ s t, x = some s ∧ y = some t ∧ R s t := by
  cases h with
  | none => exact Or.inl ⟨rfl, rfl⟩
  | some hrel => exact Or.inr ⟨_, _, rfl, rfl, hrel⟩

/-- **Related runs have one trace** along a condition under which related steps put out the same. -/
theorem trace_eq_of_along
    (hnext : ∀ s t a b, R s t → A a b → Option.Rel R (next s a) (next₂ t b))
    (hout : ∀ s t a b, R s t → A a b → C s a → out s a = out₂ t b) {s : σ} {t : τ} {as : List α}
    {bs : List β} (hs : R s t) (has : List.Forall₂ A as bs) (hc : Along next C s as) :
    trace next out s as = trace next₂ out₂ t bs := by
  induction has generalizing s t with
  | nil => rfl
  | @cons a b as bs hab has ih =>
    obtain ⟨hmeets, hrest⟩ := hc
    unfold trace
    rw [hout s t a b hs hab hmeets]
    rcases rel_cases (hnext s t a b hs hab) with ⟨hs', ht'⟩ | ⟨s', t', hs', ht', hrel⟩
    · rw [hs', ht']
    · rw [hs', ht']
      exact congrArg (out₂ t b :: ·) (ih hrel (hrest s' hs'))

/-- The converse: where equal outputs of related steps force the condition, a run that shares its
trace with a related one is along it. -/
theorem along_of_trace_eq
    (hnext : ∀ s t a b, R s t → A a b → Option.Rel R (next s a) (next₂ t b))
    (hforce : ∀ s t a b, R s t → A a b → out s a = out₂ t b → C s a) {s : σ} {t : τ} {as : List α}
    {bs : List β} (hs : R s t) (has : List.Forall₂ A as bs)
    (htrace : trace next out s as = trace next₂ out₂ t bs) : Along next C s as := by
  induction has generalizing s t with
  | nil => trivial
  | @cons a b as bs hab has ih =>
    unfold trace at htrace
    obtain ⟨hhead, htail⟩ := List.cons.inj htrace
    refine ⟨hforce s t a b hs hab hhead, fun u hu => ?_⟩
    rcases rel_cases (hnext s t a b hs hab) with ⟨hs', -⟩ | ⟨s', t', hs', ht', hrel⟩
    · exact absurd (hs'.symm.trans hu) (by simp)
    · obtain rfl := Option.some.inj (hs'.symm.trans hu)
      rw [hs', ht'] at htail
      exact ih hrel htail

theorem trace_append {s t : σ} {as : List α} (hrun : run next s as = some t) (bs : List α) :
    trace next out s (as ++ bs) = trace next out s as ++ trace next out t bs := by
  induction as generalizing s with
  | nil =>
    obtain rfl := Option.some.inj hrun
    rfl
  | cons a as ih =>
    obtain ⟨u, hnext, hrest⟩ := run_cons_inv hrun
    simp only [List.cons_append, trace, hnext, ih hrest]

theorem trace_snoc {s t : σ} {as : List α} {a : α} (hrun : run next s as = some t) :
    trace next out s (as ++ [a]) = trace next out s as ++ [out t a] := by
  rw [trace_append hrun]
  unfold trace
  cases next t a <;> rfl

/-- How often `P` holds before a step of the run. -/
def occurs (next : σ → α → Option σ) (P : σ → α → Prop) [∀ s a, Decidable (P s a)] (s : σ)
    (as : List α) : ℕ :=
  (trace next (fun s a => decide (P s a)) s as).count true

theorem occurs_snoc {P : σ → α → Prop} [∀ s a, Decidable (P s a)] {s t : σ} {as : List α} {a : α}
    (hrun : run next s as = some t) :
    occurs next P s (as ++ [a]) = occurs next P s as + if P t a then 1 else 0 := by
  unfold occurs
  rw [trace_snoc hrun, List.count_append, List.count_singleton]
  simp only [beq_true, decide_eq_true_eq]

/-- **Forward simulation**: where every step is matched by a run of the other system, of the actions
it puts out, so is every run. -/
theorem run_simulates {moves : σ → α → List β}
    (hstep : ∀ s t a s', R s t → next s a = some s' →
      ∃ t', run next₂ t (moves s a) = some t' ∧ R s' t')
    {s s' : σ} {t : τ} {as : List α} (hs : R s t) (hrun : run next s as = some s') :
    ∃ t', run next₂ t (trace next moves s as).flatten = some t' ∧ R s' t' := by
  induction as generalizing s t with
  | nil => exact ⟨t, rfl, Option.some.inj hrun ▸ hs⟩
  | cons a as ih =>
    obtain ⟨u, hnext, hrest⟩ := run_cons_inv hrun
    obtain ⟨t₁, hmatched, hu⟩ := hstep s t a u hs hnext
    obtain ⟨t', hrun', hs'⟩ := ih hu hrest
    refine ⟨t', ?_, hs'⟩
    simp only [trace, hnext, List.flatten_cons]
    rw [run_append, hmatched]
    exact hrun'

end Guarded
