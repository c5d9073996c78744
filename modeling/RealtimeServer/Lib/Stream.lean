import Mathlib.Data.List.TakeDrop
import Mathlib.Tactic.TypeStar

/-!
# Consuming a stream piece by piece

Two general parts.

* **Segments of a fixed array** held as a list: `slice l off len` reads a segment,
  `overwrite l off seg` writes one in place.
* **Incremental consumption.** A consumer reads a stream in pieces of any size, emits items and
  keeps the symbols it has not used. `spec` says what a whole stream yields. `Agrees spec out pend
  read` is the invariant such a consumer keeps: after reading `read`, having emitted `out` and with
  `pend` unused, whatever follows, the items so far and those of `pend` and the rest are the items
  of the whole. It starts (`agrees_start`), survives more input (`agrees_feed`) and an emission
  (`agrees_emit`), and when `pend` yields nothing it gives the result (`agrees_done`). No step
  mentions where the stream was cut, so neither does the result.
-/

namespace Stream

variable {β γ : Type*}

/-! ## Segments of a fixed array -/

/-- The `len` symbols at offset `off`. -/
def slice (l : List β) (off len : Nat) : List β := (l.drop off).take len

/-- `l` with the symbols at offset `off` replaced by `seg`. -/
def overwrite (l : List β) (off : Nat) (seg : List β) : List β :=
  l.take off ++ seg ++ l.drop (off + seg.length)

theorem slice_length {l : List β} {off len : Nat} (h : off + len ≤ l.length) :
    (slice l off len).length = len := by
  unfold slice
  rw [List.length_take, List.length_drop]
  omega

theorem slice_length_le {l : List β} {off len : Nat} : (slice l off len).length ≤ l.length := by
  unfold slice
  rw [List.length_take, List.length_drop]
  omega

theorem slice_zero (l : List β) (off : Nat) : slice l off 0 = [] := by
  simp [slice]

theorem slice_take {n len : Nat} (l : List β) (off : Nat) (h : n ≤ len) :
    (slice l off len).take n = slice l off n := by
  unfold slice
  rw [List.take_take, Nat.min_eq_left h]

theorem slice_drop (l : List β) (off len n : Nat) :
    (slice l off len).drop n = slice l (off + n) (len - n) := by
  unfold slice
  rw [List.drop_take, List.drop_drop]

theorem overwrite_length {l : List β} {off : Nat} {seg : List β}
    (h : off + seg.length ≤ l.length) : (overwrite l off seg).length = l.length := by
  unfold overwrite
  simp only [List.length_append, List.length_take, List.length_drop]
  omega

theorem overwrite_front_length {l seg : List β} (h : seg.length ≤ l.length) :
    (overwrite l 0 seg).length = l.length :=
  overwrite_length (by rwa [Nat.zero_add])

/-- What is written past the end is not kept. -/
theorem overwrite_take_length {l : List β} {size : Nat} (h : l.length = size) (off : Nat)
    (seg : List β) : ((overwrite l off seg).take size).length = size := by
  unfold overwrite
  simp only [List.length_take, List.length_append, List.length_drop]
  omega

/-- Writing right behind a segment extends it. -/
theorem slice_overwrite_append {l : List β} {off n : Nat} {seg : List β}
    (h : off + n + seg.length ≤ l.length) :
    slice (overwrite l (off + n) seg) off (n + seg.length) = slice l off n ++ seg := by
  have hlen : ((l.take (off + n)).drop off).length = n := by
    rw [List.length_drop, List.length_take]; omega
  have hle : off ≤ (l.take (off + n) ++ seg).length := by
    rw [List.length_append, List.length_take]; omega
  have hle' : off ≤ (l.take (off + n)).length := by rw [List.length_take]; omega
  unfold slice overwrite
  rw [List.drop_append_of_le_length hle, List.drop_append_of_le_length hle',
    List.take_left' (by rw [List.length_append, hlen]), List.drop_take]
  congr 2
  omega

theorem slice_overwrite_front {l seg : List β} :
    slice (overwrite l 0 seg) 0 seg.length = seg := by
  simp [slice, overwrite]

/-! ## Incremental consumption -/

variable (spec : List β → List γ)

/-- Whatever follows, the items emitted so far and those still to come from the unused symbols are
the items of everything read. -/
def Agrees (out : List γ) (pend read : List β) : Prop :=
  ∀ rest, out ++ spec (pend ++ rest) = spec (read ++ rest)

variable {spec}

theorem agrees_start : Agrees spec [] [] [] := fun _ => rfl

theorem agrees_feed {out : List γ} {pend read : List β} (h : Agrees spec out pend read)
    (piece : List β) : Agrees spec out (pend ++ piece) (read ++ piece) := by
  intro rest
  rw [List.append_assoc, List.append_assoc]
  exact h (piece ++ rest)

theorem agrees_emit {out : List γ} {pend pend' read : List β} {item : γ}
    (h : Agrees spec out pend read)
    (hitem : ∀ rest, spec (pend ++ rest) = item :: spec (pend' ++ rest)) :
    Agrees spec (out ++ [item]) pend' read := by
  intro rest
  rw [← h rest, hitem rest, List.append_assoc, List.singleton_append]

theorem agrees_done {out : List γ} {pend read : List β} (h : Agrees spec out pend read)
    (hpend : spec pend = []) : out = spec read := by
  have := h []
  rwa [List.append_nil, List.append_nil, hpend, List.append_nil] at this

end Stream
