import Mathlib.Algebra.GroupWithZero.Nat

/-!
# Reading a layout back

A reader takes a value off the front of a list of symbols and leaves the rest, or fails.

* `item`, `block n`, `repeated read n`, `accept`: one symbol, `n` symbols, `n` values one behind the
  other, and a value that was read and may be refused.
* `Reads read x text`: before any rest, the reader takes exactly `text` and gives `x`. One rule for
  each way to build a reader (`Reads.bind` and the others), so that what a writer writes is read
  back field by field.
* `Sized taken read size`: with what was taken before, the reader takes as much as `size` says of
  the value it gives.
-/

namespace Layout

variable {β α γ : Type}

/-- A reader of values from lists of symbols. -/
abbrev Reader (β α : Type) := StateT (List β) Option α

/-- One symbol. -/
def item : Reader β β
  | [] => none
  | b :: rest => some (b, rest)

/-- `n` symbols. -/
def block (n : ℕ) : Reader β (List β) := fun text =>
  if n ≤ text.length then some (text.take n, text.drop n) else none

/-- `n` values, one behind the other. -/
def repeated (read : Reader β α) : ℕ → Reader β (List α)
  | 0 => pure []
  | n + 1 => do
    let x ← read
    let xs ← repeated read n
    pure (x :: xs)

/-- A value, unless what was read stands for none. -/
def accept (answer : Option α) : Reader β α := fun text => answer.map fun x => (x, text)

/-- Before any rest, the reader takes exactly `text` and gives `x`. -/
def Reads (read : Reader β α) (x : α) (text : List β) : Prop :=
  ∀ rest, read (text ++ rest) = some (x, rest)

namespace Reads

variable {read : Reader β α} {x : α} {text : List β}

theorem pure (x : α) : Reads (Pure.pure x : Reader β α) x [] := fun _ => rfl

theorem item (b : β) : Reads Layout.item b [b] := fun _ => rfl

theorem block (text : List β) : Reads (Layout.block text.length) text text := by
  intro rest
  unfold Layout.block
  rw [if_pos (by simp), List.take_left, List.drop_left]

theorem accept (x : α) : Reads (Layout.accept (some x) : Reader β α) x [] := fun _ => rfl

theorem bind {next : α → Reader β γ} {y : γ} {text' : List β} (h : Reads read x text)
    (h' : Reads (next x) y text') : Reads (read >>= next) y (text ++ text') := by
  intro rest
  show (read (text ++ text' ++ rest)).bind (fun p => next p.1 p.2) = _
  rw [List.append_assoc, h, Option.bind_some, h']

theorem repeated {ι : Type} {value : ι → α} {write : ι → List β} {xs : List ι}
    (h : ∀ i ∈ xs, Reads read (value i) (write i)) :
    Reads (Layout.repeated read xs.length) (xs.map value) (xs.map write).flatten := by
  induction xs with
  | nil => exact pure []
  | cons i xs ih =>
    have hrest := ih fun j hj => h j (List.mem_cons_of_mem i hj)
    show Reads (read >>= fun y => Layout.repeated read xs.length >>= fun ys => Pure.pure (y :: ys))
      (value i :: xs.map value) (write i ++ (xs.map write).flatten)
    refine (h i List.mem_cons_self).bind ?_
    rw [← List.append_nil (xs.map write).flatten]
    exact hrest.bind (pure _)

/-- Read on its own, the text is consumed exactly. -/
theorem exact (h : Reads read x text) : read text = some (x, []) := by
  have := h []
  rwa [List.append_nil] at this

end Reads

/-- With what was taken before it, the reader takes as much as `size` says of the value. -/
def Sized (taken : ℕ) (read : Reader β α) (size : α → ℕ) : Prop :=
  ∀ text x rest, read text = some (x, rest) → taken + text.length = size x + rest.length

namespace Sized

variable {taken : ℕ} {read : Reader β α} {size : α → ℕ}

theorem pure {x : α} (h : size x = taken) : Sized taken (Pure.pure x : Reader β α) size := by
  rintro text y rest hread
  obtain ⟨rfl, rfl⟩ := Prod.mk.inj (Option.some.inj hread)
  rw [h]

theorem item : Sized 0 (Layout.item : Reader β β) fun _ => 1 := by
  intro text b rest h
  cases text with
  | nil => exact absurd h (by simp [Layout.item])
  | cons c text =>
    obtain ⟨rfl, rfl⟩ := Prod.mk.inj (Option.some.inj h)
    show 0 + (text.length + 1) = 1 + text.length
    omega

theorem block (n : ℕ) : Sized 0 (Layout.block n : Reader β (List β)) List.length := by
  intro text x rest h
  unfold Layout.block at h
  split at h
  · obtain ⟨rfl, rfl⟩ := Prod.mk.inj (Option.some.inj h)
    rw [List.length_take, List.length_drop]
    omega
  · exact absurd h (by simp)

theorem accept (answer : Option α) : Sized 0 (Layout.accept answer : Reader β α) fun _ => 0 := by
  intro text x rest h
  obtain ⟨y, -, hy⟩ := Option.map_eq_some_iff.mp h
  rw [(Prod.mk.inj hy).2]

theorem bind {next : α → Reader β γ} {total : γ → ℕ} (h : Sized 0 read size)
    (h' : ∀ x, Sized (taken + size x) (next x) total) : Sized taken (read >>= next) total := by
  intro text y rest hread
  obtain ⟨⟨x, text'⟩, hfirst, hsecond⟩ := Option.bind_eq_some_iff.mp hread
  have hlen := h text x text' hfirst
  have hlen' := h' x text' y rest hsecond
  omega

theorem repeated (h : Sized 0 read size) (n : ℕ) :
    Sized 0 (Layout.repeated read n) fun xs => (xs.map size).sum := by
  induction n with
  | zero => exact pure rfl
  | succ n ih =>
    refine h.bind fun x => ih.bind fun xs => pure ?_
    rw [List.map_cons, List.sum_cons, Nat.zero_add]

/-- Read to its end, the text is as long as the value says. -/
theorem exact {text : List β} {x : α} (h : Sized 0 read size) (hread : read text = some (x, [])) :
    text.length = size x := by
  have := h text x [] hread
  simpa using this

end Sized

end Layout
