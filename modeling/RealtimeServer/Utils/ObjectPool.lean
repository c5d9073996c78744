import Mathlib.Algebra.Order.BigOperators.Group.List
import RealtimeServer.Core.IoContexts
import RealtimeServer.Lib.SpinLock

/-!
# The object pool under its spin lock

Model of `ObjectPool` (`Utils/ObjectPool.h`), as a client of `Lib/SpinLock`: any number of users
call `Allocate`, `Deallocate` and `Size`. A user is not only a thread: a send is one, with the
worker that has its completion. A section takes more than one step: `empty`, `front`, `pop` and
`Reset` read and write the queue and the objects one behind the other. The objects are of any type;
the model has the arguments with which one was constructed or last reset. No user gives back what it
does not have, as the sends do not (`contexts_conserved`).

* `section_allocate`, `section_deallocate`: as a whole, a section does what the pool of the contexts
  does in one step.
* **`pooled_in_order`**: whatever the users do, an object is never with two of them; each object is
  in the pool or with one user, once, as that user asked for it; objects go out in the order in
  which they came back; and no more are ever made than have been out at once.
-/

namespace RealtimeServer

open Guarded
open SpinLock (Atomic AtomicAction Client Locked Thread)

/-- `T*`. -/
abbrev ObjectRef := ℕ

/-- What the lock guards, and the objects. -/
structure ObjectPool (β : Type*) where
  /-- `m_pool`. -/
  pool : List ObjectRef
  /-- How many objects there are; the next one made has this number. -/
  made : ℕ
  /-- The arguments of the constructor, or of the last `Reset`. -/
  args : ObjectRef → Option β
  /-- The objects that came back; no user reads it. -/
  returned : List ObjectRef
  /-- The objects that went out again; no user reads it. -/
  reused : List ObjectRef

/-- The variables of a user. -/
structure PoolUser (β : Type*) where
  /-- The objects it has, with the arguments it asked for them with. -/
  held : List (ObjectRef × β)
  /-- What `m_pool.empty()` returned. -/
  wasEmpty : Bool
  /-- `obj` in `Allocate`. -/
  obj : ObjectRef
  /-- What a section keeps from one step to the next. -/
  scratch : List ObjectRef
  /-- What its last `Size` returned. -/
  size : Option ℕ

/-- What takes the lock. -/
inductive PoolCall (β : Type*)
  | allocate (args : β)
  | deallocate (obj : ObjectRef)
  | size
  deriving DecidableEq

/-- What does not. -/
inductive PoolAct
  /-- `Deallocate(nullptr)`. -/
  | deallocateNull
  deriving DecidableEq

section

variable {β : Type*}

def ObjectPool.new (β : Type*) : ObjectPool β :=
  { pool := [], made := 0, args := fun _ => none, returned := [], reused := [] }

def PoolUser.new (β : Type*) : PoolUser β :=
  { held := [], wasEmpty := false, obj := 0, scratch := [], size := none }

/-- `new T(args)`. -/
def ObjectPool.construct (args : β) (st : ObjectPool β) : ObjectPool β :=
  { st with made := st.made + 1, args := Function.update st.args st.made (some args) }

/-- `obj->Reset(args)`. -/
def ObjectPool.reset (obj : ObjectRef) (args : β) (st : ObjectPool β) : ObjectPool β :=
  { st with args := Function.update st.args obj (some args) }

/-- How often the user has the object. -/
def PoolUser.has (obj : ObjectRef) (own : PoolUser β) : ℕ := (own.held.map Prod.fst).count obj

/-- The critical section of a call. -/
def PoolCall.body : PoolCall β → SpinLock.Body (ObjectPool β) (PoolUser β)
  | allocate args =>
    [fun (st, own) => (st, { own with wasEmpty := st.pool.isEmpty }),
      fun (st, own) =>
        if own.wasEmpty then (st.construct args, { own with obj := st.made })
        else (st, { own with obj := st.pool.headD 0, scratch := st.pool }),
      fun (st, own) =>
        if own.wasEmpty then (st, own)
        else ({ st with pool := own.scratch.tail, reused := st.reused ++ [own.obj] }, own),
      fun (st, own) => if own.wasEmpty then (st, own) else (st.reset own.obj args, own),
      fun (st, own) => (st, { own with held := (own.obj, args) :: own.held })]
  | deallocate obj =>
    [fun (st, own) => (st, { own with scratch := st.pool }),
      fun (st, own) =>
        ({ st with pool := own.scratch ++ [obj], returned := st.returned ++ [obj] },
          { own with held := own.held.eraseP fun entry => entry.1 = obj })]
  | size => [fun (st, own) => (st, { own with size := some st.pool.length })]

/-- A user gives back an object it has. -/
def PoolUser.ready (own : PoolUser β) : PoolCall β → Bool
  | .allocate _ | .size => true
  | .deallocate obj => own.held.any fun entry => entry.1 = obj

def PoolUser.act (own : PoolUser β) : PoolAct → Option (PoolUser β)
  | .deallocateNull => some own

/-- `ObjectPool`. -/
def objectPool (β : Type*) : Client (ObjectPool β) (PoolUser β) (PoolCall β) PoolAct :=
  { ready := PoolUser.ready, body := PoolCall.body, own := PoolUser.act }

/-- An empty pool, and its users. -/
def objectPoolStart (β : Type*) (users : ℕ) : Locked (ObjectPool β) (PoolUser β) (PoolCall β) :=
  .start (.new β) (List.replicate users (.new β))

abbrev PoolAction (β : Type*) := SpinLock.Action (PoolCall β) PoolAct

/-- The calls of an atomic run. -/
def callsOf (actions : List (AtomicAction (PoolCall β) PoolAct)) : List (PoolCall β) :=
  actions.filterMap fun
    | .perform _ call => some call
    | .own .. => none

/-- The calls of a run, in the order in which they got the lock. -/
def poolOrder (users : ℕ) (actions : List (PoolAction β)) : List (PoolCall β) :=
  callsOf (SpinLock.linear (objectPool β) (objectPoolStart β users) actions)

/-- What a call adds to the objects that are out. -/
def PoolCall.delta : PoolCall β → ℤ
  | allocate _ => 1
  | deallocate _ => -1
  | size => 0

/-- How many objects are out behind these calls. -/
def out (calls : List (PoolCall β)) : ℤ := (calls.map PoolCall.delta).sum

/-! ## The sections as a whole -/

theorem all_allocate (args : β) (st : ObjectPool β) (own : PoolUser β) :
    (PoolCall.allocate args).body.all (st, own) =
      match st.pool with
      | [] => (st.construct args,
          { own with wasEmpty := true, obj := st.made, held := (st.made, args) :: own.held })
      | obj :: pool =>
        (({ st with pool := pool, reused := st.reused ++ [obj] } : ObjectPool β).reset obj args,
          { own with
            wasEmpty := false
            obj := obj
            scratch := st.pool
            held := (obj, args) :: own.held }) := by
  cases hpool : st.pool with
  | nil => simp [PoolCall.body, hpool]
  | cons obj pool => simp [PoolCall.body, hpool]

theorem all_deallocate (obj : ObjectRef) (st : ObjectPool β) (own : PoolUser β) :
    (PoolCall.deallocate obj).body.all (st, own) =
      ({ st with pool := st.pool ++ [obj], returned := st.returned ++ [obj] },
        { own with
          scratch := st.pool
          held := own.held.eraseP fun entry => entry.1 = obj }) := rfl

/-- The pool of the contexts of the sends. -/
def SamePool (pool : ObjectPool SessionRef) (st : IoContexts) : Prop :=
  pool.pool = st.free ∧ pool.made = st.made ∧ pool.args = st.owner

/-- `Allocate` of a context, in one step. -/
theorem section_allocate {pool : ObjectPool SessionRef} {st : IoContexts} (h : SamePool pool st)
    (own : PoolUser SessionRef) (k : ℕ) (op : SendOp) (kind : SendKind) :
    ∃ ctx, (st.allocate k op kind).ops = st.ops.set k { op with stage := .filling kind ctx } ∧
      SamePool ((PoolCall.allocate op.session).body.all (pool, own)).1 (st.allocate k op kind) ∧
      ((PoolCall.allocate op.session).body.all (pool, own)).2.held =
        (ctx, op.session) :: own.held := by
  obtain ⟨hpool, hmade, hargs⟩ := h
  rw [all_allocate, hpool]
  unfold IoContexts.allocate SamePool
  cases hfree : st.free with
  | nil =>
    refine ⟨st.made, rfl, ⟨hpool.trans hfree, ?_, ?_⟩, ?_⟩
    · exact congrArg (· + 1) hmade
    · simp only [ObjectPool.construct, hargs, hmade]
    · rw [← hmade]
  | cons ctx free =>
    refine ⟨ctx, rfl, ⟨rfl, hmade, ?_⟩, rfl⟩
    simp only [ObjectPool.reset, hargs]

/-- `Deallocate` of a context, in one step. -/
theorem section_deallocate {pool : ObjectPool SessionRef} {st : IoContexts} (h : SamePool pool st)
    (own : PoolUser SessionRef) (k : ℕ) (op : SendOp) (ctx : ContextRef) (stage : Sending) :
    SamePool ((PoolCall.deallocate ctx).body.all (pool, own)).1
      (st.deallocate k op ctx stage) := by
  obtain ⟨hpool, hmade, hargs⟩ := h
  rw [all_deallocate]
  refine ⟨?_, hmade, hargs⟩
  rw [hpool]
  rfl

/-! ## The atomic pool -/

/-- What an action does to the objects, with the calls it makes. -/
inductive PoolActs (st st' : Atomic (ObjectPool β) (PoolUser β)) : List (PoolCall β) → Prop
  | makes (k : ℕ) (own own' : PoolUser β) (args : β) (user : st.own[k]? = some own)
      (users : st'.own = st.own.set k own') (held : own'.held = (st.data.made, args) :: own.held)
      (pool : st.data.pool = []) (data : st'.data = st.data.construct args) :
      PoolActs st st' [.allocate args]
  | reuses (k : ℕ) (own own' : PoolUser β) (args : β) (obj : ObjectRef) (rest : List ObjectRef)
      (user : st.own[k]? = some own) (users : st'.own = st.own.set k own')
      (held : own'.held = (obj, args) :: own.held) (pool : st.data.pool = obj :: rest)
      (data : st'.data = ({ st.data with
        pool := rest
        reused := st.data.reused ++ [obj] } : ObjectPool β).reset obj args) :
      PoolActs st st' [.allocate args]
  | takesBack (k : ℕ) (own own' : PoolUser β) (obj : ObjectRef) (user : st.own[k]? = some own)
      (users : st'.own = st.own.set k own') (has : ∃ entry ∈ own.held, entry.1 = obj)
      (held : own'.held = own.held.eraseP fun entry => entry.1 = obj)
      (data : st'.data = { st.data with
        pool := st.data.pool ++ [obj]
        returned := st.data.returned ++ [obj] }) :
      PoolActs st st' [.deallocate obj]
  | stands (k : ℕ) (own own' : PoolUser β) (calls : List (PoolCall β))
      (user : st.own[k]? = some own) (users : st'.own = st.own.set k own')
      (held : own'.held = own.held) (data : st'.data = st.data) (none : out calls = 0) :
      PoolActs st st' calls

variable {actions : List (AtomicAction (PoolCall β) PoolAct)}
  {action : AtomicAction (PoolCall β) PoolAct} {st st' : Atomic (ObjectPool β) (PoolUser β)}
  {calls : List (PoolCall β)}

theorem poolActs_next (h : SpinLock.atomicNext (objectPool β) st action = some st') :
    PoolActs st st' (callsOf [action]) := by
  cases action with
  | perform k call =>
    simp only [SpinLock.atomicNext] at h
    split at h
    · rename_i own hown
      obtain ⟨hready, rfl⟩ := of_guard h
      cases call with
      | allocate args =>
        have hall := all_allocate args st.data own
        cases hpool : st.data.pool with
        | nil =>
          rw [hpool] at hall
          refine .makes k own _ args hown rfl ?_ hpool ?_
          · exact congrArg (fun x => x.2.held) hall
          · exact congrArg Prod.fst hall
        | cons obj rest =>
          rw [hpool] at hall
          refine .reuses k own _ args obj rest hown rfl ?_ hpool ?_
          · exact congrArg (fun x => x.2.held) hall
          · exact congrArg Prod.fst hall
      | deallocate obj =>
        refine .takesBack k own _ obj hown rfl ?_ rfl rfl
        obtain ⟨entry, hmem, hobj⟩ := List.any_eq_true.mp hready
        exact ⟨entry, hmem, of_decide_eq_true hobj⟩
      | size => exact .stands k own _ _ hown rfl rfl rfl rfl
    · exact absurd h (by simp)
  | own k act =>
    simp only [SpinLock.atomicNext] at h
    split at h
    · rename_i own hown
      obtain ⟨own', hact, rfl⟩ := Option.map_eq_some_iff.mp h
      cases act with
      | deallocateNull =>
        obtain rfl := Option.some.inj hact
        exact .stands k own _ _ hown rfl rfl rfl rfl
    · exact absurd h (by simp)

/-- Each object is in the pool or with one user, once. -/
def ObjectOnce (st : Atomic (ObjectPool β) (PoolUser β)) (obj : ObjectRef) : Prop :=
  st.data.pool.count obj + (st.own.map (PoolUser.has obj)).sum =
    if obj < st.data.made then 1 else 0

theorem has_erased {own own' : PoolUser β} {obj : ObjectRef}
    (hhas : ∃ entry ∈ own.held, entry.1 = obj)
    (hheld : own'.held = own.held.eraseP fun entry => entry.1 = obj) (other : ObjectRef) :
    own'.has other + (if obj = other then 1 else 0) = own.has other := by
  unfold PoolUser.has
  rw [hheld]
  obtain ⟨entry, hmem, hobj⟩ := hhas
  obtain ⟨found, before, behind, -, hfound, hsplit, herase⟩ :=
    List.exists_of_eraseP (p := fun entry => decide (entry.1 = obj)) hmem (decide_eq_true hobj)
  rw [herase, hsplit]
  simp only [List.map_append, List.map_cons, List.count_append, List.count_cons, beq_iff_eq,
    of_decide_eq_true hfound]
  omega

theorem lt_made_succ (obj made : ℕ) : (if obj < made + 1 then 1 else 0) =
    (if obj < made then 1 else 0) + if made = obj then 1 else 0 := by
  split <;> split <;> split <;> omega

theorem objectOnce_next {obj : ObjectRef} (h : ∀ obj, ObjectOnce st obj)
    (hacts : PoolActs st st' calls) : ObjectOnce st' obj := by
  have hobj := h obj
  unfold ObjectOnce at hobj ⊢
  cases hacts with
  | makes k own own' args user users held pool data =>
    have hsum := Tally.sum_map_set_add (PoolUser.has obj) user own'
    have hhas : own'.has obj = own.has obj + if st.data.made = obj then 1 else 0 := by
      simp [PoolUser.has, held, List.count_cons]
    have hmade := lt_made_succ obj st.data.made
    rw [users, data]
    change st.data.pool.count obj + _ = if obj < st.data.made + 1 then 1 else 0
    omega
  | reuses k own own' args taken rest user users held pool data =>
    have hsum := Tally.sum_map_set_add (PoolUser.has obj) user own'
    have hhas : own'.has obj = own.has obj + if taken = obj then 1 else 0 := by
      simp [PoolUser.has, held, List.count_cons]
    have hcount : st.data.pool.count obj = rest.count obj + if taken = obj then 1 else 0 := by
      simp [pool, List.count_cons]
    rw [users, data]
    change rest.count obj + _ = if obj < st.data.made then 1 else 0
    omega
  | takesBack k own own' given user users has held data =>
    have hsum := Tally.sum_map_set_add (PoolUser.has obj) user own'
    have hhas := has_erased has held obj
    rw [users, data]
    change (st.data.pool ++ [given]).count obj + _ = if obj < st.data.made then 1 else 0
    rw [List.count_append, List.count_singleton]
    simp only [beq_iff_eq]
    omega
  | stands k own own' calls user users held data none =>
    have hsum := Tally.sum_map_set_add (PoolUser.has obj) user own'
    have hhas : own'.has obj = own.has obj := by simp [PoolUser.has, held]
    rw [users, data]
    omega

/-- Each object is as its user asked for it. -/
def InState (st : Atomic (ObjectPool β) (PoolUser β)) : Prop :=
  ∀ own ∈ st.own, ∀ entry ∈ own.held, st.data.args entry.1 = some entry.2

theorem held_pos {users : List (PoolUser β)} {own : PoolUser β} (hown : own ∈ users)
    {entry : ObjectRef × β} (hentry : entry ∈ own.held) :
    0 < (users.map (PoolUser.has entry.1)).sum := by
  have hhas : 0 < own.has entry.1 := List.count_pos_iff.mpr (List.mem_map_of_mem hentry)
  exact hhas.trans_le (List.le_sum_of_mem (List.mem_map_of_mem hown))

/-- An object in the pool is with nobody. -/
theorem not_held {obj : ObjectRef} (h : ObjectOnce st obj) (hpool : obj ∈ st.data.pool)
    {own : PoolUser β} (hown : own ∈ st.own) : ∀ entry ∈ own.held, entry.1 ≠ obj := by
  rintro entry hentry rfl
  have hin : 0 < st.data.pool.count entry.1 := List.count_pos_iff.mpr hpool
  have hheld := held_pos hown hentry
  unfold ObjectOnce at h
  split at h <;> omega

/-- Nobody has an object that has not been made. -/
theorem held_made {own : PoolUser β} (hown : own ∈ st.own) {entry : ObjectRef × β}
    (hentry : entry ∈ own.held) (h : ObjectOnce st entry.1) : entry.1 < st.data.made := by
  have hheld := held_pos hown hentry
  unfold ObjectOnce at h
  split at h
  · assumption
  · omega

/-- A user gets an object that nobody has. -/
theorem inState_given (h : InState st) {k : ℕ} {own own' : PoolUser β} {args : β} {obj : ObjectRef}
    (user : st.own[k]? = some own) (users : st'.own = st.own.set k own')
    (held : own'.held = (obj, args) :: own.held)
    (data : st'.data.args = Function.update st.data.args obj (some args))
    (hnobody : ∀ other ∈ st.own, ∀ entry ∈ other.held, entry.1 ≠ obj) : InState st' := by
  have hothers : ∀ other ∈ st.own, ∀ entry ∈ other.held,
      st'.data.args entry.1 = some entry.2 := by
    intro other hmem entry hentry
    rw [data, Function.update_of_ne (hnobody other hmem entry hentry)]
    exact h other hmem entry hentry
  intro other hother
  rw [users] at hother
  rcases SpinLock.of_mem_set hother with rfl | ⟨j, -, hj⟩
  · rw [held]
    refine List.forall_mem_cons.mpr ⟨?_, hothers own (List.mem_of_getElem? user)⟩
    rw [data]
    exact Function.update_self _ _ _
  · exact hothers other (List.mem_of_getElem? hj)

/-- No user gets any. -/
theorem inState_kept (h : InState st) {k : ℕ} {own own' : PoolUser β}
    (user : st.own[k]? = some own) (users : st'.own = st.own.set k own')
    (held : ∀ entry ∈ own'.held, entry ∈ own.held) (data : st'.data.args = st.data.args) :
    InState st' := by
  intro other hother entry hentry
  rw [users] at hother
  rw [data]
  rcases SpinLock.of_mem_set hother with rfl | ⟨j, -, hj⟩
  · exact h own (List.mem_of_getElem? user) entry (held entry hentry)
  · exact h other (List.mem_of_getElem? hj) entry hentry

theorem inState_next (honce : ∀ obj, ObjectOnce st obj) (h : InState st)
    (hacts : PoolActs st st' calls) : InState st' := by
  cases hacts with
  | makes k own own' args user users held pool data =>
    refine inState_given h user users held (by rw [data]; rfl) fun other hmem entry hentry => ?_
    exact (held_made hmem hentry (honce _)).ne
  | reuses k own own' args obj rest user users held pool data =>
    have hobj : obj ∈ st.data.pool := by
      rw [pool]
      exact List.mem_cons_self
    exact inState_given h user users held (by rw [data]; rfl)
      fun other hmem => not_held (honce _) hobj hmem
  | takesBack k own own' obj user users has held data =>
    refine inState_kept h user users (fun entry hentry => ?_) (by rw [data])
    rw [held] at hentry
    exact List.mem_of_mem_eraseP hentry
  | stands k own own' calls user users held data none =>
    exact inState_kept h user users (fun entry hentry => held ▸ hentry) (by rw [data])

/-- The largest number of objects that have been out at once is this. -/
structure Peak (calls : List (PoolCall β)) (made : ℕ) : Prop where
  below : ∀ earlier, earlier <+: calls → out earlier ≤ made
  reached : ∃ earlier, earlier <+: calls ∧ out earlier = made

/-- What an atomic run keeps. -/
structure Pooled (actions : List (AtomicAction (PoolCall β) PoolAct))
    (st : Atomic (ObjectPool β) (PoolUser β)) : Prop where
  once : ∀ obj, ObjectOnce st obj
  inState : InState st
  /-- First in, first out. -/
  order : st.data.reused ++ st.data.pool = st.data.returned
  number : out (callsOf actions) + st.data.pool.length = st.data.made
  peak : Peak (callsOf actions) st.data.made

theorem callsOf_append (actions more : List (AtomicAction (PoolCall β) PoolAct)) :
    callsOf (actions ++ more) = callsOf actions ++ callsOf more := List.filterMap_append

theorem out_append (calls more : List (PoolCall β)) :
    out (calls ++ more) = out calls + out more := by
  unfold out
  rw [List.map_append, List.sum_append]

/-- One more call, at most. -/
theorem Peak.append {more : List (PoolCall β)} {made made' : ℕ} (h : Peak calls made)
    (hlength : more.length ≤ 1) (hmade : made ≤ made') (hbelow : out (calls ++ more) ≤ made')
    (hreached : made' = made ∨ out (calls ++ more) = made') : Peak (calls ++ more) made' := by
  constructor
  · intro earlier hearlier
    have hwhole : earlier = calls ++ more ∨ earlier <+: calls := by
      cases more with
      | nil => exact Or.inr (by simpa using hearlier)
      | cons call more =>
        obtain rfl : more = [] := List.eq_nil_of_length_eq_zero (by simpa using hlength)
        exact List.prefix_concat_iff.mp hearlier
    rcases hwhole with rfl | hearlier
    · exact hbelow
    · exact (h.below earlier hearlier).trans (Int.ofNat_le.mpr hmade)
  · rcases hreached with rfl | hreached
    · obtain ⟨earlier, hearlier, hout⟩ := h.reached
      exact ⟨earlier, hearlier.trans (List.prefix_append _ _), hout⟩
    · exact ⟨calls ++ more, List.prefix_rfl, hreached⟩

theorem peak_next {more : List (PoolCall β)}
    (hnumber : out calls + st.data.pool.length = st.data.made) (hpeak : Peak calls st.data.made)
    (hlength : more.length ≤ 1) (hacts : PoolActs st st' more) :
    out (calls ++ more) + st'.data.pool.length = st'.data.made ∧
      Peak (calls ++ more) st'.data.made := by
  have hout := out_append calls more
  cases hacts with
  | makes k own own' args user users held pool data =>
    have hall : out (calls ++ [.allocate args]) = (st.data.made + 1 : ℕ) := by
      rw [hout]
      change out calls + 1 = _
      rw [pool] at hnumber
      push_cast
      simpa using hnumber
    rw [data]
    change out _ + (st.data.pool.length : ℤ) = (st.data.made + 1 : ℕ) ∧ Peak _ (st.data.made + 1)
    refine ⟨?_, hpeak.append hlength (Nat.le_succ _) hall.le (Or.inr hall)⟩
    rw [pool, hall]
    simp
  | reuses k own own' args obj rest user users held pool data =>
    have hall : out (calls ++ [.allocate args]) + (rest.length : ℤ) = st.data.made := by
      rw [hout]
      change out calls + 1 + (rest.length : ℤ) = _
      rw [pool, List.length_cons] at hnumber
      omega
    have hbelow : out (calls ++ _) ≤ st.data.made := Int.le.intro _ hall
    rw [data]
    exact ⟨hall, hpeak.append hlength (le_refl st.data.made) hbelow (Or.inl rfl)⟩
  | takesBack k own own' obj user users has held data =>
    have hall : out (calls ++ [.deallocate obj]) + ((st.data.pool ++ [obj]).length : ℤ) =
        st.data.made := by
      rw [hout, List.length_append, List.length_singleton]
      change out calls + -1 + _ = _
      omega
    have hbelow : out (calls ++ _) ≤ st.data.made := Int.le.intro _ hall
    rw [data]
    exact ⟨hall, hpeak.append hlength (le_refl st.data.made) hbelow (Or.inl rfl)⟩
  | stands k own own' calls user users held data none =>
    rw [data]
    refine ⟨by omega, hpeak.append hlength (le_refl _) (by omega) (Or.inl rfl)⟩

theorem order_next (horder : st.data.reused ++ st.data.pool = st.data.returned)
    (hacts : PoolActs st st' calls) : st'.data.reused ++ st'.data.pool = st'.data.returned := by
  cases hacts with
  | makes k own own' args user users held pool data =>
    rw [data]
    exact horder
  | reuses k own own' args obj rest user users held pool data =>
    rw [data]
    change st.data.reused ++ [obj] ++ rest = st.data.returned
    rw [← horder, pool, List.append_assoc, List.singleton_append]
  | takesBack k own own' obj user users has held data =>
    rw [data, ← horder]
    exact (List.append_assoc _ _ _).symm
  | stands k own own' calls user users held data none =>
    rw [data]
    exact horder

theorem pooled_next (h : Pooled actions st)
    (hnext : SpinLock.atomicNext (objectPool β) st action = some st') :
    Pooled (actions ++ [action]) st' := by
  have hacts := poolActs_next hnext
  have hlength : (callsOf [action]).length ≤ 1 := List.length_filterMap_le _ _
  have haccount := peak_next h.number h.peak hlength hacts
  rw [← callsOf_append] at haccount
  exact
    { once := fun obj => objectOnce_next h.once hacts
      inState := inState_next h.once h.inState hacts
      order := order_next h.order hacts
      number := haccount.1
      peak := haccount.2 }

theorem pooled_start (users : ℕ) : Pooled [] ⟨.new β, List.replicate users (.new β)⟩ where
  once obj := by simp [ObjectOnce, ObjectPool.new, PoolUser.new, PoolUser.has]
  inState own hown entry hentry := by
    obtain rfl := List.eq_of_mem_replicate hown
    exact absurd hentry List.not_mem_nil
  order := rfl
  number := rfl
  peak :=
    { below := fun earlier hearlier => by
        obtain rfl := List.prefix_nil.mp hearlier
        exact le_refl _
      reached := ⟨[], List.nil_prefix, rfl⟩ }

theorem pooled_of_run {users : ℕ} (hrun : run (SpinLock.atomicNext (objectPool β))
    ⟨.new β, List.replicate users (.new β)⟩ actions = some st) : Pooled actions st :=
  run_history (pooled_start users) (fun _ _ _ _ _ h hnext => pooled_next h hnext) hrun

/-! ## Under the lock -/

variable {users : ℕ} {runs : List (PoolAction β)}
  {locked : Locked (ObjectPool β) (PoolUser β) (PoolCall β)}

/-- What a user has it has still when its section is over, but for what it gives back. -/
theorem kept_or_pooled {call : PoolCall β} {rest : SpinLock.Body (ObjectPool β) (PoolUser β)}
    (hrest : rest <:+ (objectPool β).body call) (pool : ObjectPool β) (own : PoolUser β) :
    ∀ entry ∈ own.held, entry ∈ (rest.all (pool, own)).2.held ∨
      entry.1 ∈ (rest.all (pool, own)).1.pool := by
  intro entry hentry
  cases call with
  | allocate args =>
    refine Or.inl (SpinLock.Body.all_invariant (P := fun x : ObjectPool β × PoolUser β =>
      entry ∈ x.2.held) ?_ hentry)
    intro step hstep x hx
    have hmem := hrest.mem hstep
    simp only [objectPool, PoolCall.body, List.mem_cons, List.not_mem_nil, or_false] at hmem
    rcases hmem with rfl | rfl | rfl | rfl | rfl
    · exact hx
    · simp only
      split <;> exact hx
    · simp only
      split <;> exact hx
    · simp only
      split <;> exact hx
    · exact List.mem_cons_of_mem _ hx
  | deallocate obj =>
    have hgiven : entry ∈ own.held.eraseP (fun entry => entry.1 = obj) ∨ entry.1 = obj := by
      by_cases hobj : entry.1 = obj
      · exact Or.inr hobj
      · exact Or.inl ((List.mem_eraseP_of_neg (by simpa using hobj)).mpr hentry)
    simp only [objectPool, PoolCall.body, List.suffix_cons_iff, List.suffix_nil] at hrest
    rcases hrest with rfl | rfl | rfl
    · exact hgiven.imp id fun hobj => by simp [hobj]
    · exact hgiven.imp id fun hobj => by simp [hobj]
    · exact Or.inl hentry
  | size =>
    simp only [objectPool, PoolCall.body, List.suffix_cons_iff, List.suffix_nil] at hrest
    rcases hrest with rfl | rfl <;> exact Or.inl hentry

/-- Two users have different objects. -/
theorem held_by_one (h : ∀ obj, ObjectOnce st obj) {j k : ℕ} {one other : PoolUser β}
    (hone : st.own[j]? = some one) (hother : st.own[k]? = some other)
    {entry entry' : ObjectRef × β} (hentry : entry ∈ one.held) (hentry' : entry' ∈ other.held)
    (hsame : entry.1 = entry'.1) : j = k := by
  by_contra hne
  have hsum := Tally.sum_map_set_add (PoolUser.has entry.1) hother (.new β)
  have hleft : one ∈ st.own.set k (.new β) := by
    refine List.mem_of_getElem? (i := j) ?_
    rw [List.getElem?_set_ne (Ne.symm hne)]
    exact hone
  have hpos : 0 < ((st.own.set k (.new β)).map (PoolUser.has entry.1)).sum :=
    held_pos hleft hentry
  have hhas : 0 < other.has entry.1 := by
    rw [hsame]
    exact List.count_pos_iff.mpr (List.mem_map_of_mem hentry')
  have hnew : (PoolUser.new β).has entry.1 = 0 := rfl
  have honce := h entry.1
  unfold ObjectOnce at honce
  split at honce <;> omega

/-- What a user has is what it has when its section is over, or on its way into the pool. -/
theorem held_settled {atomic : Atomic (ObjectPool β) (PoolUser β)}
    (hrun : run (SpinLock.next (objectPool β)) (objectPoolStart β users) runs = some locked)
    (h : SpinLock.Refines (objectPool β) locked atomic)
    {thread : Thread (ObjectPool β) (PoolUser β) (PoolCall β)} (hthread : thread ∈ locked.threads)
    {entry : ObjectRef × β} (hentry : entry ∈ thread.own.held) :
    entry ∈ (thread.settled locked.data).held ∨
      thread.isInside = true ∧ entry.1 ∈ atomic.data.pool := by
  cases thread with
  | outside own => exact Or.inl hentry
  | spinning call own => exact Or.inl hentry
  | inside rest own =>
    obtain ⟨call, hsuffix⟩ := SpinLock.inside_suffix hrun rest own hthread
    rw [h.held rest own hthread]
    exact (kept_or_pooled hsuffix _ own entry hentry).imp id fun hpool => ⟨rfl, hpool⟩

/-- An object is never with two users. -/
theorem held_once (hrun : run (SpinLock.next (objectPool β)) (objectPoolStart β users) runs =
    some locked) {j k : ℕ} {one other : Thread (ObjectPool β) (PoolUser β) (PoolCall β)}
    (hone : locked.threads[j]? = some one) (hother : locked.threads[k]? = some other)
    {entry entry' : ObjectRef × β} (hentry : entry ∈ one.own.held)
    (hentry' : entry' ∈ other.own.held) (hsame : entry.1 = entry'.1) : j = k := by
  obtain ⟨atomic, hatomic, hrefines⟩ := SpinLock.refines_of_run hrun
  have hpooled := pooled_of_run hatomic
  have hone' := hrefines.own_get hone
  have hother' := hrefines.own_get hother
  rcases held_settled hrun hrefines (List.mem_of_getElem? hone) hentry with hheld | ⟨hin, hpool⟩
  · rcases held_settled hrun hrefines (List.mem_of_getElem? hother) hentry'
      with hheld' | ⟨-, hpool⟩
    · exact held_by_one hpooled.once hone' hother' hheld hheld' hsame
    · exact absurd hsame (not_held (hpooled.once _) hpool (List.mem_of_getElem? hone') _ hheld)
  · rcases held_settled hrun hrefines (List.mem_of_getElem? hother) hentry'
      with hheld' | ⟨hin', -⟩
    · exact absurd hsame.symm
        (not_held (hpooled.once _) hpool (List.mem_of_getElem? hother') _ hheld')
    · exact SpinLock.inside_unique hrefines.exclusive hone hother hin hin'

/-- **The object pool.** In every run of any number of users: an object is never with two of them;
and while nobody is in a section, each object that was made is in the pool or with one user, once;
the arguments of an object are those that the user who has it gave; the objects that went out again
and those in the pool are, in this order, those that came back; and as many were made as have been
out at once in the order of the lock. -/
theorem pooled_in_order
    (hrun : run (SpinLock.next (objectPool β)) (objectPoolStart β users) runs = some locked) :
    (∀ (j k : ℕ) (one other : Thread (ObjectPool β) (PoolUser β) (PoolCall β)),
        locked.threads[j]? = some one → locked.threads[k]? = some other →
        ∀ entry ∈ one.own.held, ∀ entry' ∈ other.own.held, entry.1 = entry'.1 → j = k) ∧
      ((∀ thread ∈ locked.threads, thread.isInside = false) →
        (∀ obj, locked.data.pool.count obj +
            (locked.threads.map fun thread => thread.own.has obj).sum =
          if obj < locked.data.made then 1 else 0) ∧
        (∀ thread ∈ locked.threads, ∀ entry ∈ thread.own.held,
          locked.data.args entry.1 = some entry.2) ∧
        locked.data.reused ++ locked.data.pool = locked.data.returned ∧
        Peak (poolOrder users runs) locked.data.made) := by
  refine ⟨fun j k one other hone hother entry hentry entry' hentry' hsame =>
    held_once hrun hone hother hentry hentry' hsame, fun hnone => ?_⟩
  obtain ⟨atomic, hatomic, hrefines⟩ := SpinLock.refines_of_run hrun
  have hpooled := pooled_of_run hatomic
  obtain ⟨hdata, hown⟩ := hrefines.at_rest hnone
  refine ⟨fun obj => ?_, fun thread hthread entry hentry => ?_, ?_, ?_⟩
  · have honce := hpooled.once obj
    unfold ObjectOnce at honce
    rw [hdata, hown, List.map_map] at honce
    exact honce
  · rw [← hdata]
    refine hpooled.inState thread.own ?_ entry hentry
    rw [hown]
    exact List.mem_map_of_mem hthread
  · rw [← hdata]
    exact hpooled.order
  · rw [← hdata]
    exact hpooled.peak

/-- Three users, the second waiting for the first; what the first gives back, the third gets. -/
def threeUsers : List (PoolAction ℕ) :=
  ([[.enter 0 (.allocate 7), .enter 1 (.allocate 8), .exchange 0, .exchange 1],
    List.replicate 6 (.goOn 0), [.exchange 1], List.replicate 6 (.goOn 1),
    [.enter 0 (.deallocate 0), .exchange 0], List.replicate 3 (.goOn 0),
    [.enter 2 (.allocate 9), .exchange 2], List.replicate 6 (.goOn 2)] :
      List (List (PoolAction ℕ))).flatten

theorem pooled_threeUsers :
    ∃ locked, run (SpinLock.next (objectPool ℕ)) (objectPoolStart ℕ 3) threeUsers = some locked ∧
      locked.threads.map (fun thread => thread.own.held) = [[], [(1, 8)], [(0, 9)]] ∧
      locked.data.args 0 = some 9 ∧ Peak (poolOrder 3 threeUsers) 2 := by
  obtain ⟨locked, hrun, hheld, hmade, hnone⟩ :
      ∃ locked, run (SpinLock.next (objectPool ℕ)) (objectPoolStart ℕ 3) threeUsers = some locked ∧
        locked.threads.map (fun thread => thread.own.held) = [[], [(1, 8)], [(0, 9)]] ∧
        locked.data.made = 2 ∧ ∀ thread ∈ locked.threads, thread.isInside = false := by
    decide +kernel
  obtain ⟨-, hrest⟩ := pooled_in_order hrun
  obtain ⟨-, hstate, -, hpeak⟩ := hrest hnone
  obtain ⟨thread, hthread, hown⟩ := List.mem_map.mp
    (hheld ▸ (by simp : [(0, 9)] ∈ [[], [(1, 8)], [(0, 9)]]))
  exact ⟨locked, hrun, hheld, hstate thread hthread (0, 9) (by rw [hown]; simp), hmade ▸ hpeak⟩

end

end RealtimeServer
