import RealtimeServer.Lib.Tally
import RealtimeServer.Lib.TwoRuns

/-!
# Critical sections under a spin lock

A lock is one flag. A thread that wants it exchanges the flag for `true` until it has got `false`
back, runs its critical section, and stores `false`. A section is a list of steps, each on what the
lock guards and on the thread's own variables, and any other thread may go on between two of them. A
`Client` says which calls there are, when a thread may make one, the section of each, and what a
thread does outside.

Next to it, the same client without a lock: `atomicNext` performs a section in one step.

* `exclusive_of_run`: the flag is up exactly while one thread is inside.
* **`refines_of_run`**: a run under the lock is a run of whole sections, each in the place where its
  thread got the lock (`linear`): what is guarded then, and the variables of the threads, are those
  of the atomic run, up to the rest of a section that has begun.
* `settled_keeps`: what no section touches does not depend on where a section is.
* `called_of_run`: each thread's sections come in the order of its calls, and each call that has
  returned has its section in there once.
* `lock_progress`: while a thread waits for the lock, some thread can go on.
-/

namespace SpinLock

open Guarded

variable {σ L Call Act : Type*}

/-- A critical section: what its steps do to what is guarded, and to the thread's own variables. -/
abbrev Body (σ L : Type*) := List (σ × L → σ × L)

/-- All steps of a section, one behind the other. -/
def Body.all (body : Body σ L) (x : σ × L) : σ × L := body.foldl (fun x step => step x) x

@[simp] theorem Body.all_nil (x : σ × L) : Body.all [] x = x := rfl

@[simp] theorem Body.all_cons (step : σ × L → σ × L) (body : Body σ L) (x : σ × L) :
    Body.all (step :: body) x = Body.all body (step x) := rfl

/-- What each step of a section keeps, the section keeps. -/
theorem Body.all_invariant {P : σ × L → Prop} {body : Body σ L} {x : σ × L}
    (hkeep : ∀ step ∈ body, ∀ x, P x → P (step x)) (h : P x) : P (body.all x) := by
  induction body generalizing x with
  | nil => exact h
  | cons step body ih =>
    rw [Body.all_cons]
    exact ih (fun other hother => hkeep other (List.mem_cons_of_mem step hother))
      (hkeep step List.mem_cons_self x h)

/-- What the threads do with the lock. -/
structure Client (σ L Call Act : Type*) where
  /-- A thread with these variables may make this call. -/
  ready : L → Call → Bool
  body : Call → Body σ L
  /-- What a thread does outside. -/
  own : L → Act → Option L

/-- Where a thread is. -/
inductive Thread (σ L Call : Type*)
  | outside (own : L)
  /-- In `Lock()`. -/
  | spinning (call : Call) (own : L)
  /-- With the rest of its section, and then `Unlock()`, to run. -/
  | inside (rest : Body σ L) (own : L)

namespace Thread

def isInside : Thread σ L Call → Bool
  | inside .. => true
  | _ => false

/-- The variables of the thread. -/
def own : Thread σ L Call → L
  | outside own | spinning _ own | inside _ own => own

/-- The variables of the thread, once it is through with what it has begun. -/
def settled (data : σ) : Thread σ L Call → L
  | outside own | spinning _ own => own
  | inside rest own => (rest.all (data, own)).2

end Thread

/-- The flag, what it guards, and the threads. -/
structure Locked (σ L Call : Type*) where
  /-- `m_flag`. -/
  flag : Bool
  data : σ
  threads : List (Thread σ L Call)

/-- What happens next. -/
inductive Action (Call Act : Type*)
  /-- The thread makes a call, and comes to `Lock()`. -/
  | enter (k : ℕ) (call : Call)
  /-- It exchanges the flag. -/
  | exchange (k : ℕ)
  /-- It takes the next step of its section, or unlocks. -/
  | goOn (k : ℕ)
  | own (k : ℕ) (act : Act)
  deriving DecidableEq

/-- Nobody is inside. -/
def Locked.start (data : σ) (own : List L) : Locked σ L Call :=
  { flag := false, data := data, threads := own.map .outside }

/-- The thread comes to here. -/
def Locked.become (k : ℕ) (thread : Thread σ L Call) (st : Locked σ L Call) : Locked σ L Call :=
  { st with threads := st.threads.set k thread }

/-- One step of one thread. -/
def next (client : Client σ L Call Act) (st : Locked σ L Call) :
    Action Call Act → Option (Locked σ L Call)
  | .enter k call =>
    match st.threads[k]? with
    | some (.outside own) =>
      if client.ready own call then some (st.become k (.spinning call own)) else none
    | _ => none
  | .exchange k =>
    match st.threads[k]? with
    | some (.spinning call own) =>
      if st.flag then some st
      else some { st.become k (.inside (client.body call) own) with flag := true }
    | _ => none
  | .goOn k =>
    match st.threads[k]? with
    | some (.inside (step :: rest) own) =>
      let (data, own) := step (st.data, own)
      some { st.become k (.inside rest own) with data := data }
    | some (.inside [] own) => some { st.become k (.outside own) with flag := false }
    | _ => none
  | .own k act =>
    match st.threads[k]? with
    | some (.outside own) => (client.own own act).map fun own => st.become k (.outside own)
    | _ => none

/-! ## Without the lock -/

/-- What is shared, and the threads' own variables. -/
structure Atomic (σ L : Type*) where
  data : σ
  own : List L

inductive AtomicAction (Call Act : Type*)
  /-- The thread runs the whole section of this call. -/
  | perform (k : ℕ) (call : Call)
  | own (k : ℕ) (act : Act)
  deriving DecidableEq

/-- The thread runs this section. -/
def Atomic.perform (k : ℕ) (body : Body σ L) (own : L) (st : Atomic σ L) : Atomic σ L :=
  { data := (body.all (st.data, own)).1, own := st.own.set k (body.all (st.data, own)).2 }

def atomicNext (client : Client σ L Call Act) (st : Atomic σ L) :
    AtomicAction Call Act → Option (Atomic σ L)
  | .perform k call =>
    match st.own[k]? with
    | some own => if client.ready own call then some (st.perform k (client.body call) own) else none
    | none => none
  | .own k act =>
    match st.own[k]? with
    | some own => (client.own own act).map fun own => { st with own := st.own.set k own }
    | none => none

/-- The atomic actions of a step: a section stands where its thread gets the lock. -/
def point (st : Locked σ L Call) : Action Call Act → List (AtomicAction Call Act)
  | .exchange k =>
    match st.threads[k]? with
    | some (.spinning call _) => if st.flag then [] else [.perform k call]
    | _ => []
  | .own k act => [.own k act]
  | .enter .. | .goOn _ => []

/-- The atomic run of a run under the lock. -/
def linear (client : Client σ L Call Act) (st : Locked σ L Call)
    (actions : List (Action Call Act)) : List (AtomicAction Call Act) :=
  (trace (next client) point st actions).flatten

/-- What can happen. -/
inductive Acts (client : Client σ L Call Act) (st : Locked σ L Call) :
    Action Call Act → Locked σ L Call → Prop
  | enters (k : ℕ) (call : Call) (own : L) (thread : st.threads[k]? = some (.outside own))
      (ready : client.ready own call = true) :
      Acts client st (.enter k call) (st.become k (.spinning call own))
  | spins (k : ℕ) (call : Call) (own : L) (thread : st.threads[k]? = some (.spinning call own))
      (taken : st.flag = true) : Acts client st (.exchange k) st
  | locks (k : ℕ) (call : Call) (own : L) (thread : st.threads[k]? = some (.spinning call own))
      (free : st.flag = false) : Acts client st (.exchange k)
        { st.become k (.inside (client.body call) own) with flag := true }
  | steps (k : ℕ) (step : σ × L → σ × L) (rest : Body σ L) (own : L)
      (thread : st.threads[k]? = some (.inside (step :: rest) own)) : Acts client st (.goOn k)
        { st.become k (.inside rest (step (st.data, own)).2) with data := (step (st.data, own)).1 }
  | unlocks (k : ℕ) (own : L) (thread : st.threads[k]? = some (.inside [] own)) :
      Acts client st (.goOn k) { st.become k (.outside own) with flag := false }
  | owns (k : ℕ) (act : Act) (own own' : L) (thread : st.threads[k]? = some (.outside own))
      (does : client.own own act = some own') :
      Acts client st (.own k act) (st.become k (.outside own'))

variable {client : Client σ L Call Act} {st st' : Locked σ L Call} {action : Action Call Act}
  {actions : List (Action Call Act)} {data : σ} {own : List L}

theorem acts_next (h : next client st action = some st') : Acts client st action st' := by
  cases action with
  | enter k call =>
    simp only [next] at h
    split at h
    · rename_i own hthread
      obtain ⟨hready, rfl⟩ := of_guard h
      exact .enters k call own hthread hready
    · exact absurd h (by simp)
  | exchange k =>
    simp only [next] at h
    split at h
    · rename_i call own hthread
      split at h
      · rename_i htaken
        obtain rfl := Option.some.inj h
        exact .spins k call own hthread htaken
      · rename_i hfree
        obtain rfl := Option.some.inj h
        exact .locks k call own hthread (Bool.eq_false_iff.mpr hfree)
    · exact absurd h (by simp)
  | goOn k =>
    simp only [next] at h
    split at h
    · rename_i step rest own hthread
      obtain rfl := Option.some.inj h
      exact .steps k step rest own hthread
    · rename_i own hthread
      obtain rfl := Option.some.inj h
      exact .unlocks k own hthread
    · exact absurd h (by simp)
  | own k act =>
    simp only [next] at h
    split at h
    · rename_i own hthread
      obtain ⟨own', hdoes, rfl⟩ := Option.map_eq_some_iff.mp h
      exact .owns k act own own' hthread hdoes
    · exact absurd h (by simp)

/-! ## One thread at a time -/

/-- The flag is up while one thread is inside, and down while none is. -/
def Exclusive (st : Locked σ L Call) : Prop := st.threads.countP Thread.isInside = st.flag.toNat

theorem exclusive_start : Exclusive (.start data own : Locked σ L Call) := by
  refine List.countP_eq_zero.mpr fun thread hthread => ?_
  obtain ⟨own, -, rfl⟩ := List.mem_map.mp hthread
  simp [Thread.isInside]

theorem exclusive_become {k : ℕ} {old new : Thread σ L Call} {flag : Bool} (h : Exclusive st)
    (hold : st.threads[k]? = some old)
    (hflag : flag.toNat + old.isInside.toNat = st.flag.toNat + new.isInside.toNat) :
    Exclusive { st.become k new with flag := flag } := by
  have hcount := Tally.countP_set_add Thread.isInside hold new
  unfold Exclusive Locked.become at *
  simp only
  omega

theorem exclusive_next (h : Exclusive st) (hnext : next client st action = some st') :
    Exclusive st' := by
  cases acts_next hnext with
  | enters k call own thread ready => exact exclusive_become h thread rfl
  | spins k call own thread taken => exact h
  | locks k call own thread free =>
    refine exclusive_become h thread ?_
    rw [free]
    rfl
  | steps k step rest own thread => exact exclusive_become h thread rfl
  | unlocks k own thread =>
    refine exclusive_become h thread ?_
    have hup : 0 < st.threads.countP Thread.isInside :=
      List.countP_pos_iff.mpr ⟨_, List.mem_of_getElem? thread, rfl⟩
    rw [h] at hup
    cases hflag : st.flag with
    | false =>
      rw [hflag] at hup
      exact absurd hup (lt_irrefl 0)
    | true => rfl
  | owns k act own own' thread does => exact exclusive_become h thread rfl

theorem exclusive_of_run (hrun : run (next client) (.start data own) actions = some st) :
    Exclusive st :=
  run_preserves (fun _ _ _ h hnext => exclusive_next h hnext) exclusive_start hrun

/-- Two threads that are inside are one. -/
theorem inside_unique {j k : ℕ} {other thread : Thread σ L Call} (h : Exclusive st)
    (hother : st.threads[j]? = some other) (hthread : st.threads[k]? = some thread)
    (hj : other.isInside = true) (hk : thread.isInside = true) : j = k := by
  by_contra hne
  -- with the one thread out, the other would still be counted
  have hcount := Tally.countP_set_add Thread.isInside hthread (.outside (thread.settled st.data))
  have hleft : other ∈ st.threads.set k (.outside (thread.settled st.data)) :=
    List.mem_of_getElem? ((List.getElem?_set_ne (Ne.symm hne)).trans hother)
  have hpos := List.countP_pos_iff.mpr ⟨other, hleft, hj⟩
  have hone : st.flag.toNat ≤ 1 := Bool.toNat_le _
  unfold Exclusive at h
  rw [hk] at hcount
  simp only [Thread.isInside, Bool.toNat_true, Bool.toNat_false] at hcount
  omega

/-! ## Whole sections -/

/-- The atomic state is where the threads get to that have begun their sections. -/
structure Refines (client : Client σ L Call Act) (st : Locked σ L Call) (ast : Atomic σ L) :
    Prop where
  exclusive : Exclusive st
  free : st.flag = false → ast.data = st.data
  held : ∀ rest own, .inside rest own ∈ st.threads → ast.data = (rest.all (st.data, own)).1
  own : ast.own = st.threads.map (Thread.settled st.data)
  ready : ∀ call own, .spinning call own ∈ st.threads → client.ready own call = true

variable {ast : Atomic σ L} {k : ℕ}

theorem of_mem_set {α : Type*} {l : List α} {x new : α} (h : x ∈ l.set k new) :
    x = new ∨ ∃ j, j ≠ k ∧ l[j]? = some x := by
  obtain ⟨j, hj⟩ := List.mem_iff_getElem?.mp h
  by_cases hjk : j = k
  · subst hjk
    obtain ⟨hlt, hget⟩ := List.getElem?_eq_some_iff.mp hj
    rw [List.getElem_set_self] at hget
    exact Or.inl hget.symm
  · exact Or.inr ⟨j, hjk, (List.getElem?_set_ne (Ne.symm hjk)).symm.trans hj⟩

/-- One element changes, and not as to `f`. -/
theorem map_set_same {α β : Type*} {l : List α} {old new : α} {f : α → β}
    (hold : l[k]? = some old) (hf : f new = f old) : (l.set k new).map f = l.map f := by
  obtain ⟨hk, rfl⟩ := List.getElem?_eq_some_iff.mp hold
  rw [List.map_set, hf]
  refine List.ext_getElem? fun i => ?_
  by_cases hi : k = i
  · subst hi
    rw [List.getElem?_set_self (by rwa [List.length_map]), List.getElem?_map,
      List.getElem?_eq_getElem hk]
    rfl
  · rw [List.getElem?_set_ne hi]

theorem settled_outside {thread : Thread σ L Call} (h : thread.isInside = false) (data data' : σ) :
    thread.settled data' = thread.settled data := by
  cases thread with
  | outside own => rfl
  | spinning call own => rfl
  | inside rest own => exact absurd h (by simp [Thread.isInside])

namespace Refines

theorem own_get (h : Refines client st ast) {thread : Thread σ L Call}
    (hthread : st.threads[k]? = some thread) : ast.own[k]? = some (thread.settled st.data) := by
  rw [h.own, List.getElem?_map, hthread]
  rfl

/-- The thread that is inside is the only one. -/
theorem alone (h : Refines client st ast) {thread other : Thread σ L Call} {j : ℕ}
    (hthread : st.threads[k]? = some thread) (hin : thread.isInside = true) (hj : j ≠ k)
    (hother : st.threads[j]? = some other) : other.isInside = false := by
  by_contra hnot
  exact hj (inside_unique h.exclusive hother hthread (by simpa using hnot) hin)

theorem nobody (h : Refines client st ast) (hfree : st.flag = false) {thread : Thread σ L Call}
    (hmem : thread ∈ st.threads) : thread.isInside = false := by
  have hnone : st.threads.countP Thread.isInside = 0 := by
    have hcount := h.exclusive
    unfold Exclusive at hcount
    rw [hcount, hfree]
    rfl
  exact Bool.eq_false_iff.mpr (List.countP_eq_zero.mp hnone thread hmem)

/-- While nobody is inside, the two states are one. -/
theorem at_rest (h : Refines client st ast)
    (hnone : ∀ thread ∈ st.threads, thread.isInside = false) :
    ast.data = st.data ∧ ast.own = st.threads.map Thread.own := by
  constructor
  · refine h.free (Bool.eq_false_iff.mpr fun hup => ?_)
    have hcount := h.exclusive
    unfold Exclusive at hcount
    rw [List.countP_eq_zero.mpr fun thread hthread => by simp [hnone thread hthread], hup] at hcount
    exact absurd hcount (by simp)
  · rw [h.own]
    refine List.map_congr_left fun thread hthread => ?_
    cases thread with
    | outside own => rfl
    | spinning call own => rfl
    | inside rest own => exact absurd (hnone _ hthread) (by simp [Thread.isInside])

end Refines

theorem refines_start : Refines client (.start data own) ⟨data, own⟩ where
  exclusive := exclusive_start
  free _ := rfl
  held rest own hmem := by
    obtain ⟨own, -, hthread⟩ := List.mem_map.mp hmem
    exact absurd hthread (by simp)
  own := by
    unfold Locked.start
    rw [List.map_map]
    exact (List.map_id _).symm
  ready call own hmem := by
    obtain ⟨own, -, hthread⟩ := List.mem_map.mp hmem
    exact absurd hthread (by simp)

/-- **A step** under the lock is its atomic actions: at the exchange that gets the lock the whole
section, and nothing from there to the unlock. -/
theorem refines_next (h : Refines client st ast) (hnext : next client st action = some st') :
    ∃ ast', run (atomicNext client) ast (point st action) = some ast' ∧
      Refines client st' ast' := by
  have hexclusive := exclusive_next h.exclusive hnext
  cases acts_next hnext with
  | enters k call own thread ready =>
    refine ⟨ast, rfl, hexclusive, h.free, fun rest own' hmem => ?_, ?_, fun call' own' hmem => ?_⟩
    · rcases of_mem_set hmem with hnew | ⟨j, -, hj⟩
      · exact absurd hnew (by simp)
      · exact h.held rest own' (List.mem_of_getElem? hj)
    · have hsame : (st.threads.set k (.spinning call own)).map (Thread.settled st.data) = _ :=
        map_set_same thread rfl
      exact h.own.trans hsame.symm
    · rcases of_mem_set hmem with hnew | ⟨j, -, hj⟩
      · cases hnew
        exact ready
      · exact h.ready call' own' (List.mem_of_getElem? hj)
  | spins k call own thread taken =>
    refine ⟨ast, ?_, h⟩
    simp only [point, thread, taken, if_true]
    rfl
  | locks k call own thread free =>
    have hready := h.ready call own (List.mem_of_getElem? thread)
    refine ⟨ast.perform k (client.body call) own, ?_, hexclusive, fun hup => absurd hup (by simp),
      fun rest own' hmem => ?_, ?_, fun call' own' hmem => ?_⟩
    · have hown : ast.own[k]? = some own := h.own_get thread
      simp [point, thread, free, run, atomicNext, hown, hready]
    · rcases of_mem_set hmem with hnew | ⟨j, -, hj⟩
      · cases hnew
        change ((client.body call).all (ast.data, own)).1 = _
        rw [h.free free]
        rfl
      · exact absurd (h.nobody free (List.mem_of_getElem? hj)) (by simp [Thread.isInside])
    · change ast.own.set k ((client.body call).all (ast.data, own)).2 =
        (st.threads.set k _).map (Thread.settled st.data)
      rw [List.map_set, h.own, h.free free]
      rfl
    · rcases of_mem_set hmem with hnew | ⟨j, -, hj⟩
      · exact absurd hnew (by simp)
      · exact h.ready call' own' (List.mem_of_getElem? hj)
  | steps k step rest own thread =>
    refine ⟨ast, rfl, hexclusive, fun hdown => ?_, fun rest' own' hmem => ?_, ?_,
      fun call' own' hmem => ?_⟩
    · exact absurd (h.nobody hdown (List.mem_of_getElem? thread)) (by simp [Thread.isInside])
    · rcases of_mem_set hmem with hnew | ⟨j, hj, hother⟩
      · cases hnew
        exact h.held (step :: rest) own (List.mem_of_getElem? thread)
      · exact absurd (h.alone thread rfl hj hother) (by simp [Thread.isInside])
    · refine h.own.trans (List.ext_getElem? fun j => ?_)
      change _ = ((st.threads.set k _).map (Thread.settled (step (st.data, own)).1))[j]?
      rw [List.getElem?_map, List.getElem?_map]
      by_cases hj : j = k
      · subst hj
        obtain ⟨hlt, -⟩ := List.getElem?_eq_some_iff.mp thread
        rw [thread, List.getElem?_set_self hlt]
        rfl
      · rw [List.getElem?_set_ne (Ne.symm hj)]
        cases hother : st.threads[j]? with
        | none => rfl
        | some other =>
          exact congrArg some (settled_outside (h.alone thread rfl hj hother) _ _)
    · rcases of_mem_set hmem with hnew | ⟨j, -, hj⟩
      · exact absurd hnew (by simp)
      · exact h.ready call' own' (List.mem_of_getElem? hj)
  | unlocks k own thread =>
    refine ⟨ast, rfl, hexclusive, fun _ => h.held [] own (List.mem_of_getElem? thread),
      fun rest' own' hmem => ?_, ?_, fun call' own' hmem => ?_⟩
    · rcases of_mem_set hmem with hnew | ⟨j, hj, hother⟩
      · exact absurd hnew (by simp)
      · exact absurd (h.alone thread rfl hj hother) (by simp [Thread.isInside])
    · have hsame : (st.threads.set k (.outside own)).map (Thread.settled st.data) = _ :=
        map_set_same thread rfl
      exact h.own.trans hsame.symm
    · rcases of_mem_set hmem with hnew | ⟨j, -, hj⟩
      · exact absurd hnew (by simp)
      · exact h.ready call' own' (List.mem_of_getElem? hj)
  | owns k act own own' thread does =>
    refine ⟨{ ast with own := ast.own.set k own' }, ?_, hexclusive, h.free,
      fun rest own' hmem => ?_, ?_, fun call' own' hmem => ?_⟩
    · have hown : ast.own[k]? = some own := h.own_get thread
      simp only [point, run, atomicNext, hown, does]
      rfl
    · rcases of_mem_set hmem with hnew | ⟨j, -, hj⟩
      · exact absurd hnew (by simp)
      · exact h.held rest own' (List.mem_of_getElem? hj)
    · change ast.own.set k own' = (st.threads.set k _).map (Thread.settled st.data)
      rw [List.map_set, h.own]
      rfl
    · rcases of_mem_set hmem with hnew | ⟨j, -, hj⟩
      · exact absurd hnew (by simp)
      · exact h.ready call' own' (List.mem_of_getElem? hj)

/-- **Critical sections are atomic**: a run under the lock is a run of whole sections. -/
theorem refines_of_run (hrun : run (next client) (.start data own) actions = some st) :
    ∃ ast, run (atomicNext client) ⟨data, own⟩ (linear client (.start data own) actions) =
      some ast ∧ Refines client st ast :=
  run_simulates (fun _ _ _ _ h hnext => refines_next h hnext) refines_start hrun

/-- A thread that is inside has the end of the section of a call to run. -/
theorem inside_suffix (hrun : run (next client) (.start data own) actions = some st) :
    ∀ rest own, .inside rest own ∈ st.threads → ∃ call, rest <:+ client.body call := by
  refine run_preserves (I := fun st => ∀ rest own, .inside rest own ∈ st.threads →
    ∃ call, rest <:+ client.body call) ?_ ?_ hrun
  · intro st action st' hi hnext rest own hmem
    have hold : ∀ {k : ℕ} {new : Thread σ L Call}, .inside rest own ∈ st.threads.set k new →
        (.inside rest own = new → ∃ call, rest <:+ client.body call) →
        ∃ call, rest <:+ client.body call := by
      intro k new hmem hnew
      rcases of_mem_set hmem with hsame | ⟨j, -, hj⟩
      · exact hnew hsame
      · exact hi rest own (List.mem_of_getElem? hj)
    cases acts_next hnext with
    | enters k call own' thread ready => exact hold hmem (by simp)
    | spins k call own' thread taken => exact hi rest own hmem
    | locks k call own' thread free =>
      refine hold hmem fun hsame => ?_
      cases hsame
      exact ⟨call, List.suffix_rfl⟩
    | steps k step rest' own' thread =>
      refine hold hmem fun hsame => ?_
      cases hsame
      obtain ⟨call, hsuffix⟩ := hi (step :: rest) own' (List.mem_of_getElem? thread)
      exact ⟨call, (List.suffix_cons step rest).trans hsuffix⟩
    | unlocks k own' thread => exact hold hmem (by simp)
    | owns k act own' own'' thread does => exact hold hmem (by simp)
  · intro rest own' hmem
    obtain ⟨own, -, hthread⟩ := List.mem_map.mp hmem
    exact absurd hthread (by simp)

theorem all_keeps {β : Type*} {f : L → β} {body : Body σ L}
    (hkeep : ∀ step ∈ body, ∀ x, f (step x).2 = f x.2) (x : σ × L) : f (body.all x).2 = f x.2 :=
  Body.all_invariant (P := fun y => f y.2 = f x.2)
    (fun step hstep y hy => (hkeep step hstep y).trans hy) rfl

/-- What no section touches is the same before a section ends as behind it. -/
theorem settled_keeps {β : Type*} {f : L → β}
    (hkeep : ∀ call, ∀ step ∈ client.body call, ∀ x, f (step x).2 = f x.2)
    (hrun : run (next client) (.start data own) actions = some st) {thread : Thread σ L Call}
    (hmem : thread ∈ st.threads) : f (thread.settled st.data) = f thread.own := by
  cases thread with
  | outside own => rfl
  | spinning call own => rfl
  | inside rest own =>
    obtain ⟨call, hsuffix⟩ := inside_suffix hrun rest own hmem
    exact all_keeps (fun step hstep => hkeep call step (hsuffix.mem hstep)) _

/-! ## The order of the calls -/

/-- The calls the thread has made. -/
def calledBy (k : ℕ) (actions : List (Action Call Act)) : List Call :=
  actions.filterMap fun
    | .enter j call => if j = k then some call else none
    | _ => none

/-- The calls whose sections the thread has performed. -/
def performedBy (k : ℕ) (actions : List (AtomicAction Call Act)) : List Call :=
  actions.filterMap fun
    | .perform j call => if j = k then some call else none
    | .own .. => none

/-- The call the thread waits for the lock with. -/
def Locked.waiting (k : ℕ) (st : Locked σ L Call) : List Call :=
  match st.threads[k]? with
  | some (.spinning call _) => [call]
  | _ => []

theorem linear_append {s : Locked σ L Call} (hrun : run (next client) s actions = some st)
    (more : List (Action Call Act)) : linear client s (actions ++ more) =
      linear client s actions ++ linear client st more := by
  unfold linear
  rw [trace_append hrun, List.flatten_append]

theorem linear_snoc {s : Locked σ L Call} (hrun : run (next client) s actions = some st) :
    linear client s (actions ++ [action]) = linear client s actions ++ point st action := by
  unfold linear
  rw [trace_snoc hrun, List.flatten_append, List.flatten_singleton]

theorem waiting_become {j : ℕ} {old new : Thread σ L Call} (hold : st.threads[k]? = some old) :
    (st.become k new).waiting j = if k = j then
      (match new with | .spinning call _ => [call] | _ => []) else st.waiting j := by
  unfold Locked.waiting Locked.become
  by_cases hk : k = j
  · subst hk
    obtain ⟨hlt, -⟩ := List.getElem?_eq_some_iff.mp hold
    rw [if_pos rfl, List.getElem?_set_self hlt]
    cases new <;> rfl
  · rw [if_neg hk, List.getElem?_set_ne hk]

/-- What one step adds to the calls of a thread, to its sections and to its wait. -/
theorem called_next (j : ℕ) (hnext : next client st action = some st') :
    st.waiting j ++ calledBy j [action] = performedBy j (point st action) ++ st'.waiting j := by
  cases acts_next hnext with
  | enters k call own thread ready =>
    rw [waiting_become thread]
    by_cases hk : k = j
    · subst hk
      simp [Locked.waiting, thread, calledBy, performedBy, point]
    · simp [calledBy, performedBy, point, hk]
  | spins k call own thread taken => simp [calledBy, performedBy, point, thread, taken]
  | locks k call own thread free =>
    change _ = _ ++ (st.become k _).waiting j
    rw [waiting_become thread]
    by_cases hk : k = j
    · subst hk
      simp [Locked.waiting, thread, calledBy, performedBy, point, free]
    · simp [calledBy, performedBy, point, thread, free, hk]
  | steps k step rest own thread =>
    change _ = _ ++ (st.become k _).waiting j
    rw [waiting_become thread]
    by_cases hk : k = j
    · subst hk
      simp [Locked.waiting, thread, calledBy, performedBy, point]
    · simp [calledBy, performedBy, point, hk]
  | unlocks k own thread =>
    change _ = _ ++ (st.become k _).waiting j
    rw [waiting_become thread]
    by_cases hk : k = j
    · subst hk
      simp [Locked.waiting, thread, calledBy, performedBy, point]
    · simp [calledBy, performedBy, point, hk]
  | owns k act own own' thread does =>
    rw [waiting_become thread]
    by_cases hk : k = j
    · subst hk
      simp [Locked.waiting, thread, calledBy, performedBy, point]
    · simp [calledBy, performedBy, point, hk]

/-- **The calls of a thread** are its sections in the atomic run, in their order, and the call it
waits for the lock with. -/
theorem called_of_run (hrun : run (next client) (.start data own) actions = some st) (j : ℕ) :
    calledBy j actions =
      performedBy j (linear client (.start data own) actions) ++ st.waiting j := by
  refine run_history (I := fun actions st => calledBy j actions =
    performedBy j (linear client (.start data own) actions) ++ st.waiting j) ?_ ?_ hrun
  · unfold Locked.waiting Locked.start
    rw [List.getElem?_map]
    cases own[j]? <;> rfl
  · intro actions st action st' hbefore hi hnext
    have hstep := called_next j hnext
    rw [linear_snoc hbefore]
    unfold calledBy performedBy at *
    rw [List.filterMap_append, List.filterMap_append, hi, List.append_assoc, List.append_assoc,
      hstep]

/-! ## Progress -/

/-- The thread that is inside can go on until it has unlocked, all the others staying where they
are. -/
theorem holder_unlocks {rest : Body σ L} {own : L}
    (hthread : st.threads[k]? = some (.inside rest own)) :
    ∃ st', run (next client) st (List.replicate (rest.length + 1) (.goOn k)) = some st' ∧
      st'.flag = false ∧ ∀ j, j ≠ k → st'.threads[j]? = st.threads[j]? := by
  obtain ⟨hlt, -⟩ := List.getElem?_eq_some_iff.mp hthread
  induction rest generalizing st own with
  | nil =>
    refine ⟨{ st.become k (.outside own) with flag := false }, ?_, rfl, fun j hj =>
      List.getElem?_set_ne (Ne.symm hj)⟩
    simp [run, next, hthread]
  | cons step rest ih =>
    let st₁ : Locked σ L Call :=
      { st.become k (.inside rest (step (st.data, own)).2) with data := (step (st.data, own)).1 }
    have hnext : next client st (.goOn k) = some st₁ := by
      simp only [next, hthread]
      rfl
    have hinside : st₁.threads[k]? = some (.inside rest (step (st.data, own)).2) :=
      List.getElem?_set_self hlt
    have hlt₁ : k < st₁.threads.length := by
      change k < (st.threads.set k _).length
      rwa [List.length_set]
    obtain ⟨st', hrun, hfree, hothers⟩ := ih hinside hlt₁
    refine ⟨st', ?_, hfree, fun j hj => (hothers j hj).trans (List.getElem?_set_ne (Ne.symm hj))⟩
    rw [List.length_cons, List.replicate_succ, run, hnext]
    exact hrun

/-- **No deadlock**: a thread that waits for the lock can be brought to get it. -/
theorem lock_progress (hrun : run (next client) (.start data own) actions = some st) {call : Call}
    {own' : L} (hthread : st.threads[k]? = some (.spinning call own')) :
    ∃ more st', run (next client) st more = some st' ∧
      st'.threads[k]? = some (.inside (client.body call) own') := by
  obtain ⟨hlt, -⟩ := List.getElem?_eq_some_iff.mp hthread
  have hgets : ∀ st : Locked σ L Call, st.threads[k]? = some (.spinning call own') →
      st.flag = false → ∃ st', next client st (.exchange k) = some st' ∧
        st'.threads[k]? = some (.inside (client.body call) own') := by
    intro st hspins hfree
    obtain ⟨hlt, -⟩ := List.getElem?_eq_some_iff.mp hspins
    refine ⟨{ st.become k (.inside (client.body call) own') with flag := true }, ?_,
      List.getElem?_set_self hlt⟩
    simp [next, hspins, hfree]
  cases hflag : st.flag with
  | false =>
    obtain ⟨st', hnext, hin⟩ := hgets st hthread hflag
    exact ⟨[.exchange k], st', by simp [run, hnext], hin⟩
  | true =>
    have hheld : 0 < st.threads.countP Thread.isInside := by
      have hcount := exclusive_of_run hrun
      unfold Exclusive at hcount
      rw [hcount, hflag]
      exact Nat.one_pos
    obtain ⟨holder, hmem, hin⟩ := List.countP_pos_iff.mp hheld
    obtain ⟨j, hj⟩ := List.mem_iff_getElem?.mp hmem
    cases holder with
    | outside own => exact absurd hin (by simp [Thread.isInside])
    | spinning call own => exact absurd hin (by simp [Thread.isInside])
    | inside rest own =>
      obtain ⟨st₁, hrun₁, hfree, hothers⟩ :
          ∃ st₁, run (next client) st (List.replicate (rest.length + 1) (.goOn j)) = some st₁ ∧
            st₁.flag = false ∧ ∀ i, i ≠ j → st₁.threads[i]? = st.threads[i]? :=
        holder_unlocks hj
      have hkj : k ≠ j := by
        rintro rfl
        exact absurd (hthread.symm.trans hj) (by simp)
      obtain ⟨st', hnext, hin'⟩ := hgets st₁ ((hothers k hkj).trans hthread) hfree
      exact ⟨_, st', run_snoc hrun₁ hnext, hin'⟩

end SpinLock
