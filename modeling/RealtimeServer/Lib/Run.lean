import Mathlib.Data.List.Infix
import Mathlib.Tactic.TypeStar

/-!
# Runs of a guarded step function

A system is given by `next : σ → α → Option σ`: in state `s` the action `a` either leads to one
state or is not enabled (`none`). A run is a list of actions, each enabled where it is taken.

* `run next s as`: the state the run `as` from `s` ends in, `none` if some action is not enabled.
* `Along next C s as`: every action of the run meets the condition `C` in the state it is taken in.
* `run_invariant`: what every step meeting `C` preserves holds at the end of every run along `C`;
  `run_preserves`: what every step preserves holds at the end of every run; `run_turns`: the step
  that gives it up.
* `run_reaches`: a run leads to the goal when some step always lowers a rank.
* `along_of_reached`: the other direction, when the invariant around a step forces `C`;
  `reached_iff_along`, `kept_iff_along`: both, when `C` says which steps keep it.
* `both`: two systems side by side. `watched`: a system with an observer that sees every step.
-/

namespace Guarded

variable {σ α : Type*}

/-- The state a run ends in, when every one of its actions is enabled. -/
def run (next : σ → α → Option σ) : σ → List α → Option σ
  | s, [] => some s
  | s, a :: as => (next s a).bind fun t => run next t as

/-- Every action of the run meets `C` in the state it is taken in. -/
def Along (next : σ → α → Option σ) (C : σ → α → Prop) : σ → List α → Prop
  | _, [] => True
  | s, a :: as => C s a ∧ ∀ t, next s a = some t → Along next C t as

variable {next : σ → α → Option σ} {C : σ → α → Prop}

instance decidableAlong [∀ s a, Decidable (C s a)] :
    ∀ (s : σ) (as : List α), Decidable (Along next C s as)
  | _, [] => isTrue trivial
  | s, a :: as =>
    match h : next s a with
    | none => decidable_of_iff (C s a) (by simp [Along, h])
    | some t =>
      have := decidableAlong t as
      decidable_of_iff (C s a ∧ Along next C t as) (by simp [Along, h])

/-- A step or a run can be taken, and what its last state satisfies can be tested. -/
instance decidableReached (P : σ → Prop) [DecidablePred P] (reached : Option σ) :
    Decidable (∃ t, reached = some t ∧ P t) :=
  match reached with
  | none => isFalse (by simp)
  | some t => decidable_of_iff (P t) (by simp)

/-- A guarded step that was taken: its guard held. -/
theorem of_guard {p : Prop} [Decidable p] {s t : σ} (h : (if p then some s else none) = some t) :
    p ∧ s = t := by
  split at h
  · exact ⟨‹p›, Option.some.inj h⟩
  · exact absurd h (by simp)

theorem run_cons_inv {s u : σ} {a : α} {as : List α} (h : run next s (a :: as) = some u) :
    ∃ t, next s a = some t ∧ run next t as = some u :=
  Option.bind_eq_some_iff.mp h

theorem run_append (as bs : List α) (s : σ) :
    run next s (as ++ bs) = (run next s as).bind fun t => run next t bs := by
  induction as generalizing s with
  | nil => rfl
  | cons a as ih =>
    simp only [List.cons_append, run]
    cases next s a with
    | none => rfl
    | some t => exact ih t

theorem run_snoc {s t u : σ} {as : List α} {a : α} (hrun : run next s as = some t)
    (hnext : next t a = some u) : run next s (as ++ [a]) = some u := by
  rw [run_append, hrun]
  simp [run, hnext]

theorem run_snoc_inv {s u : σ} {as : List α} {a : α} (h : run next s (as ++ [a]) = some u) :
    ∃ t, run next s as = some t ∧ next t a = some u := by
  rw [run_append, Option.bind_eq_some_iff] at h
  obtain ⟨t, hrun, hlast⟩ := h
  obtain ⟨u', hnext, hnil⟩ := run_cons_inv hlast
  exact ⟨t, hrun, hnext.trans hnil⟩

theorem along_append {s : σ} {as bs : List α} : Along next C s (as ++ bs) ↔
    Along next C s as ∧ ∀ t, run next s as = some t → Along next C t bs := by
  induction as generalizing s with
  | nil =>
    refine ⟨fun h => ⟨trivial, fun t ht => Option.some.inj ht ▸ h⟩, fun h => h.2 s rfl⟩
  | cons a as ih =>
    constructor
    · rintro ⟨hc, hrest⟩
      refine ⟨⟨hc, fun t ht => (ih.mp (hrest t ht)).1⟩, fun u hu => ?_⟩
      obtain ⟨t, ht, hu⟩ := run_cons_inv hu
      exact (ih.mp (hrest t ht)).2 u hu
    · rintro ⟨⟨hc, hrest⟩, hlast⟩
      refine ⟨hc, fun t ht => ih.mpr ⟨hrest t ht, fun u hu => hlast u ?_⟩⟩
      rw [run, ht]
      exact hu

/-- The last action of a run along `C` meets `C`. -/
theorem along_last {s t : σ} {as : List α} {a : α} (h : Along next C s (as ++ [a]))
    (hrun : run next s as = some t) : C t a :=
  ((along_append.mp h).2 t hrun).1

/-- **The run rule**: an invariant of every step that meets `C` holds at the end of every run
along `C`. -/
theorem run_invariant {I : σ → Prop}
    (hstep : ∀ s a t, I s → C s a → next s a = some t → I t) {s t : σ} {as : List α}
    (hs : I s) (hc : Along next C s as) (hrun : run next s as = some t) : I t := by
  induction as generalizing s with
  | nil => exact Option.some.inj hrun ▸ hs
  | cons a as ih =>
    obtain ⟨s', hnext, hrest⟩ := run_cons_inv hrun
    exact ih (hstep s a s' hs hc.1 hnext) (hc.2 s' hnext) hrest

/-- The same of an invariant that knows the run so far. -/
theorem run_history {I : List α → σ → Prop} {s t : σ} {as : List α} (hs : I [] s)
    (hstep : ∀ as t a u, run next s as = some t → I as t → next t a = some u → I (as ++ [a]) u)
    (hrun : run next s as = some t) : I as t := by
  induction as using List.reverseRecOn generalizing t with
  | nil => exact Option.some.inj hrun ▸ hs
  | append_singleton as a ih =>
    obtain ⟨u, hbefore, hlast⟩ := run_snoc_inv hrun
    exact hstep as u a t hbefore (ih hbefore) hlast

/-- What holds where a run starts and not where it ends is given up in one of its steps. -/
theorem run_turns {P : σ → Prop} {s t : σ} {as : List α} (hs : P s) (ht : ¬ P t)
    (hrun : run next s as = some t) : ∃ bs a cs u v, as = bs ++ a :: cs ∧
      run next s bs = some u ∧ P u ∧ next u a = some v ∧ ¬ P v := by
  induction as generalizing s with
  | nil => exact absurd (Option.some.inj hrun ▸ hs) ht
  | cons a as ih =>
    obtain ⟨s', hnext, hrest⟩ := run_cons_inv hrun
    by_cases hs' : P s'
    · obtain ⟨bs, b, cs, u, v, rfl, hbefore, hstep⟩ := ih hs' hrest
      exact ⟨a :: bs, b, cs, u, v, rfl, by rw [run, hnext, Option.bind_some, hbefore], hstep⟩
    · exact ⟨[], a, as, s, s', rfl, rfl, hs, hnext, hs'⟩

/-- The converse: a condition that the invariant before and after a step forces is met along every
run in which the invariant holds of every state reached. -/
theorem along_of_reached {I : σ → Prop}
    (hforce : ∀ s a, I s → (∀ t, next s a = some t → I t) → C s a) {s : σ} {as : List α}
    (h : ∀ bs t, bs <+: as → run next s bs = some t → I t) : Along next C s as := by
  induction as generalizing s with
  | nil => trivial
  | cons a as ih =>
    have hI : I s := h [] s List.nil_prefix rfl
    have hnext : ∀ t, next s a = some t → I t := by
      intro t ht
      refine h [a] t (List.prefix_append [a] as) ?_
      rw [run, ht]
      rfl
    refine ⟨hforce s a hI hnext, fun t ht => ih fun bs u hpre hrun => ?_⟩
    refine h (a :: bs) u (List.cons_prefix_cons.mpr ⟨rfl, hpre⟩) ?_
    rw [run, ht]
    exact hrun

/-- The same in a run whose steps are all enabled. -/
theorem along_of_run {I : σ → Prop} (hforce : ∀ s a t, I s → next s a = some t → I t → C s a)
    {s u : σ} {as : List α} (hrun : run next s as = some u)
    (h : ∀ bs t, bs <+: as → run next s bs = some t → I t) : Along next C s as := by
  induction as generalizing s with
  | nil => trivial
  | cons a as ih =>
    obtain ⟨t, hnext, hrest⟩ := run_cons_inv hrun
    have hI : ∀ bs v, bs <+: as → run next t bs = some v → I v := by
      intro bs v hpre hv
      refine h (a :: bs) v (List.cons_prefix_cons.mpr ⟨rfl, hpre⟩) ?_
      rw [run, hnext]
      exact hv
    refine ⟨hforce s a t (h [] s List.nil_prefix rfl) hnext (hI [] t List.nil_prefix rfl), ?_⟩
    intro t' ht'
    obtain rfl := Option.some.inj (hnext.symm.trans ht')
    exact ih hrest hI

/-- Every start of a run along `C` is one. -/
theorem along_initial {s : σ} {as bs : List α} (hpre : bs <+: as) (h : Along next C s as) :
    Along next C s bs := by
  obtain ⟨cs, rfl⟩ := hpre
  exact (along_append.mp h).1

/-- **A condition that says when a step keeps `P`** is met along exactly the runs in which `P` holds
of every state reached. -/
theorem reached_iff_along {J P : σ → Prop} (hJ : ∀ s a t, J s → next s a = some t → J t)
    (hstep : ∀ s a t, J s → P s → next s a = some t → (P t ↔ C s a))
    (hstuck : ∀ s a, next s a = none → C s a) {s : σ} {as : List α} (hs : J s) (hP : P s) :
    (∀ bs t, bs <+: as → run next s bs = some t → P t) ↔ Along next C s as := by
  constructor
  · intro h
    induction as generalizing s with
    | nil => trivial
    | cons a as ih =>
      have hnext : ∀ t, next s a = some t → P t := by
        intro t ht
        refine h [a] t (List.prefix_append [a] as) ?_
        rw [run, ht]
        rfl
      refine ⟨?_, fun t ht => ih (hJ s a t hs ht) (hnext t ht) fun bs u hpre hrun => ?_⟩
      · cases ht : next s a with
        | none => exact hstuck s a ht
        | some t => exact (hstep s a t hs hP ht).mp (hnext t ht)
      · refine h (a :: bs) u (List.cons_prefix_cons.mpr ⟨rfl, hpre⟩) ?_
        rw [run, ht]
        exact hrun
  · intro hc bs t hpre hrun
    have hinv : J t ∧ P t := by
      refine run_invariant (I := fun s => J s ∧ P s) (C := C) ?_ ⟨hs, hP⟩
        (along_initial hpre hc) hrun
      intro s a t hi hc hnext
      exact ⟨hJ s a t hi.1 hnext, (hstep s a t hi.1 hi.2 hnext).mpr hc⟩
    exact hinv.2

/-- The same of one run whose steps are all enabled; what is known of `P` may rest on the run so
far. -/
theorem kept_iff_along {P : σ → Prop} {s u : σ} {as : List α} (hP : P s)
    (hstep : ∀ bs t a v, run next s bs = some t → P t → next t a = some v → (P v ↔ C t a))
    (hrun : run next s as = some u) :
    (∀ bs t, bs <+: as → run next s bs = some t → P t) ↔ Along next C s as := by
  constructor
  · intro h
    refine along_of_run (I := fun t => (∃ bs, run next s bs = some t) ∧ P t) ?_ hrun ?_
    · rintro t a v ⟨⟨bs, hbefore⟩, hPt⟩ hnext ⟨-, hPv⟩
      exact (hstep bs t a v hbefore hPt hnext).mp hPv
    · intro bs t hpre hbefore
      exact ⟨⟨bs, hbefore⟩, h bs t hpre hbefore⟩
  · intro hc bs t hpre hbefore
    have hinv : (∃ bs, run next s bs = some t) ∧ P t := by
      refine run_invariant (I := fun t => (∃ bs, run next s bs = some t) ∧ P t) ?_ ⟨⟨[], rfl⟩, hP⟩
        (along_initial hpre hc) hbefore
      rintro t a v ⟨⟨bs, hbefore⟩, hPt⟩ hmeets hnext
      exact ⟨⟨bs ++ [a], run_snoc hbefore hnext⟩,
        (hstep bs t a v hbefore hPt hnext).mpr hmeets⟩
    exact hinv.2

/-- A run along two conditions is one along both. -/
theorem along_and {D : σ → α → Prop} {s : σ} {as : List α} (hc : Along next C s as)
    (hd : Along next D s as) : Along next (fun s a => C s a ∧ D s a) s as := by
  induction as generalizing s with
  | nil => trivial
  | cons a as ih => exact ⟨⟨hc.1, hd.1⟩, fun t ht => ih (hc.2 t ht) (hd.2 t ht)⟩

/-- A run along each condition of a family is one along what they force together. -/
theorem along_of_family {ι : Sort*} {D : ι → σ → α → Prop}
    (hforce : ∀ s a, (∀ i, D i s a) → C s a) {s : σ} {as : List α}
    (h : ∀ i, Along next (D i) s as) : Along next C s as := by
  induction as generalizing s with
  | nil => trivial
  | cons a as ih =>
    exact ⟨hforce s a fun i => (h i).1, fun t ht => ih fun i => (h i).2 t ht⟩

/-- What holds of every state reached holds where each action is taken. -/
theorem along_of_states {P : σ → Prop} {s : σ} {as : List α}
    (h : ∀ bs t, bs <+: as → run next s bs = some t → P t) : Along next (fun t _ => P t) s as :=
  along_of_reached (I := P) (fun _ _ hs _ => hs) h

section

variable {τ β : Type*} {next₂ : τ → β → Option τ} {D : τ → β → Prop}

/-- Two systems side by side, each taking steps of its own. -/
def both (next : σ → α → Option σ) (next₂ : τ → β → Option τ) (st : σ × τ) :
    α ⊕ β → Option (σ × τ)
  | .inl a => (next st.1 a).map fun s => (s, st.2)
  | .inr b => (next₂ st.2 b).map fun t => (st.1, t)

/-- The first system runs, and the second stands. -/
theorem run_both_inl {s s' : σ} {as : List α} (t : τ) (h : run next s as = some s') :
    run (both next next₂) (s, t) (as.map .inl) = some (s', t) := by
  induction as generalizing s with
  | nil =>
    obtain rfl := Option.some.inj h
    rfl
  | cons a as ih =>
    obtain ⟨u, hnext, hrest⟩ := run_cons_inv h
    rw [List.map_cons, run, both, hnext]
    exact ih hrest

/-- The second system runs, and the first stands. -/
theorem run_both_inr {t t' : τ} {bs : List β} (s : σ) (h : run next₂ t bs = some t') :
    run (both next next₂) (s, t) (bs.map .inr) = some (s, t') := by
  induction bs generalizing t with
  | nil =>
    obtain rfl := Option.some.inj h
    rfl
  | cons b bs ih =>
    obtain ⟨u, hnext, hrest⟩ := run_cons_inv h
    rw [List.map_cons, run, both, hnext]
    exact ih hrest

/-- Each system's steps meet its condition. -/
def Each (C : σ → α → Prop) (D : τ → β → Prop) (st : σ × τ) : α ⊕ β → Prop
  | .inl a => C st.1 a
  | .inr b => D st.2 b

instance [∀ s a, Decidable (C s a)] [∀ t b, Decidable (D t b)] (st : σ × τ) :
    ∀ step, Decidable (Each C D st step)
  | .inl a => inferInstanceAs (Decidable (C st.1 a))
  | .inr b => inferInstanceAs (Decidable (D st.2 b))

/-- Invariants of the two systems are one of both. -/
theorem both_invariant {I : σ → Prop} {J : τ → Prop}
    (hI : ∀ s a t, I s → C s a → next s a = some t → I t)
    (hJ : ∀ s b t, J s → D s b → next₂ s b = some t → J t) {st st' : σ × τ} {steps : List (α ⊕ β)}
    (hs : I st.1) (ht : J st.2) (hc : Along (both next next₂) (Each C D) st steps)
    (hrun : run (both next next₂) st steps = some st') : I st'.1 ∧ J st'.2 := by
  refine run_invariant (I := fun st => I st.1 ∧ J st.2) ?_ ⟨hs, ht⟩ hc hrun
  rintro st step st' ⟨hi, hj⟩ hmeets hnext
  cases step with
  | inl a =>
    obtain ⟨s, hs, rfl⟩ := Option.map_eq_some_iff.mp hnext
    exact ⟨hI st.1 a s hi hmeets hs, hj⟩
  | inr b =>
    obtain ⟨t, ht, rfl⟩ := Option.map_eq_some_iff.mp hnext
    exact ⟨hi, hJ st.2 b t hj hmeets ht⟩

end

section

variable {ω : Type*} {watch : σ → α → σ → ω → ω}

/-- A system with an observer: it sees each step, the state before and the one behind it, and goes
on from what it has noted. -/
def watched (next : σ → α → Option σ) (watch : σ → α → σ → ω → ω) (st : σ × ω) (a : α) :
    Option (σ × ω) :=
  (next st.1 a).map fun t => (t, watch st.1 a t st.2)

theorem watched_inv {st st' : σ × ω} {a : α} (h : watched next watch st a = some st') :
    next st.1 a = some st'.1 ∧ st'.2 = watch st.1 a st'.1 st.2 := by
  obtain ⟨t, hnext, rfl⟩ := Option.map_eq_some_iff.mp h
  exact ⟨hnext, rfl⟩

/-- The observer is in nobody's way. -/
theorem watched_of_run {s t : σ} {as : List α} (o : ω) (h : run next s as = some t) :
    ∃ o', run (watched next watch) (s, o) as = some (t, o') := by
  induction as generalizing s o with
  | nil =>
    obtain rfl := Option.some.inj h
    exact ⟨o, rfl⟩
  | cons a as ih =>
    obtain ⟨u, hnext, hrest⟩ := run_cons_inv h
    obtain ⟨o', hrun⟩ := ih (watch s a u o) hrest
    refine ⟨o', ?_⟩
    rw [run, watched, hnext]
    exact hrun

end

/-- A condition every step meets holds along every run. -/
theorem along_of_forall (h : ∀ s a, C s a) (s : σ) (as : List α) : Along next C s as := by
  induction as generalizing s with
  | nil => trivial
  | cons a as ih => exact ⟨h s a, fun t _ => ih t⟩

/-- An invariant of every step holds at the end of every run. -/
theorem run_preserves {I : σ → Prop} (hstep : ∀ s a t, I s → next s a = some t → I t) {s t : σ}
    {as : List α} (hs : I s) (hrun : run next s as = some t) : I t :=
  run_invariant (C := fun _ _ => True) (fun s a t hi _ h => hstep s a t hi h) hs
    (along_of_forall (fun _ _ => trivial) s as) hrun

/-- **The progress rule**: where from every state short of the goal some action of a kind keeps the
invariant and lowers the rank, a run of such actions leads to the goal. -/
theorem run_reaches {I goal : σ → Prop} {P : α → Prop} (rank : σ → ℕ)
    (hstep : ∀ s, I s → ¬ goal s →
      ∃ a t, P a ∧ next s a = some t ∧ I t ∧ rank t < rank s) {s : σ} (hs : I s) :
    ∃ as t, (∀ a ∈ as, P a) ∧ run next s as = some t ∧ I t ∧ goal t := by
  induction hrank : rank s using Nat.strong_induction_on generalizing s with
  | _ n ih =>
    by_cases hgoal : goal s
    · exact ⟨[], s, fun a ha => absurd ha List.not_mem_nil, rfl, hs, hgoal⟩
    · obtain ⟨a, t, hP, hnext, ht, hlt⟩ := hstep s hs hgoal
      obtain ⟨as, u, hall, hrun, hu⟩ := ih (rank t) (hrank ▸ hlt) ht rfl
      refine ⟨a :: as, u, ?_, by rw [run, hnext, Option.bind_some, hrun], hu⟩
      intro b hb
      rcases List.mem_cons.mp hb with rfl | hb
      · exact hP
      · exact hall b hb

/-- What holds of every action of a run may be added to a condition it meets. -/
theorem along_and_mem {P : α → Prop} {s : σ} {as : List α} (h : Along next C s as)
    (hall : ∀ a ∈ as, P a) : Along next (fun s a => C s a ∧ P a) s as := by
  induction as generalizing s with
  | nil => trivial
  | cons a as ih =>
    obtain ⟨hc, hrest⟩ := h
    refine ⟨⟨hc, hall a List.mem_cons_self⟩, fun t ht => ?_⟩
    exact ih (hrest t ht) fun b hb => hall b (List.mem_cons_of_mem a hb)

section

variable {ω : Type*} {watch : σ → α → σ → ω → ω} {I : σ → ω → Prop} {s t : σ} {o o' : ω}
  {as : List α}

/-- An invariant of a system and of what its observer has noted, along `C`. -/
theorem watched_invariant
    (hstep : ∀ s a t o, I s o → C s a → next s a = some t → I t (watch s a t o)) (hs : I s o)
    (hc : Along next C s as) (hrun : run (watched next watch) (s, o) as = some (t, o')) :
    I t o' := by
  induction as generalizing s o with
  | nil =>
    obtain ⟨rfl, rfl⟩ := Prod.mk.inj (Option.some.inj hrun)
    exact hs
  | cons a as ih =>
    obtain ⟨⟨u, noted⟩, hnext, hrest⟩ := run_cons_inv hrun
    obtain ⟨hnext, hnoted⟩ := watched_inv hnext
    change noted = watch s a u o at hnoted
    subst hnoted
    exact ih (hstep s a u o hs hc.1 hnext) (hc.2 u hnext) hrest

/-- The same of every run. -/
theorem watched_preserves
    (hstep : ∀ s a t o, I s o → next s a = some t → I t (watch s a t o)) (hs : I s o)
    (hrun : run (watched next watch) (s, o) as = some (t, o')) : I t o' :=
  watched_invariant (C := fun _ _ => True) (fun s a t o hi _ h => hstep s a t o hi h) hs
    (along_of_forall (fun _ _ => trivial) s as) hrun

end

end Guarded
