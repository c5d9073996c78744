import Mathlib.Algebra.Order.Ring.Nat
import RealtimeServer.Lib.Reader

/-!
# The wire format of protocol buffers

A message is written field by field, each a tag and a value; the tag has the number of the field and
the way its value is written. Fields may come in any order, and any number of times.

* `varint n`: a number in groups of seven bits, at most `n` of them; `readTag`, `readSize`,
  `delimited` are what is built on it.
* `FieldParser σ`: one case of the `switch` in a generated parser; `string`, `bool`, `fixed32` and
  `message` are the kinds of cases there are.
* `parse fields skip msg text`: the loop of a generated parser, which reads `text` into `msg`. What
  no case takes is left to `skip`. A reader never leaves more than it was given (`Takes`), so the
  loop ends.
* **`parse_reads`**, `parse_refuses`: the loop goes on behind a field it reads, and fails at one it
  refuses.
* `parse_invariant`: what every case keeps of a message holds of what is parsed.
-/

namespace Wire

open Layout

/-! ## Readers that take something off the front -/

/-- What is left is shorter than what was given, by `n` at least. -/
def Takes {β α : Type} (n : ℕ) (read : Reader β α) : Prop :=
  ∀ text x rest, read text = some (x, rest) → rest.length + n ≤ text.length

/-- Before any rest, the reader fails at `text`. -/
def Refuses {β α : Type} (read : Reader β α) (text : List β) : Prop :=
  ∀ rest, read (text ++ rest) = none

namespace Takes

variable {β α γ : Type} {m n : ℕ} {read : Reader β α}

theorem pure (x : α) : Takes 0 (Pure.pure x : Reader β α) := by
  rintro text y rest h
  obtain ⟨-, rfl⟩ := Prod.mk.inj (Option.some.inj h)
  exact le_refl _

theorem block (k : ℕ) : Takes 0 (Layout.block k : Reader β (List β)) := by
  intro text x rest h
  unfold Layout.block at h
  split at h
  · obtain ⟨-, rfl⟩ := Prod.mk.inj (Option.some.inj h)
    rw [List.length_drop]
    exact Nat.sub_le _ _
  · exact absurd h (by simp)

theorem accept (answer : Option α) : Takes 0 (Layout.accept answer : Reader β α) := by
  intro text x rest h
  obtain ⟨y, -, hy⟩ := Option.map_eq_some_iff.mp h
  rw [(Prod.mk.inj hy).2]
  exact le_refl _

theorem bind {next : α → Reader β γ} (h : Takes m read) (h' : ∀ x, Takes n (next x)) :
    Takes (m + n) (read >>= next) := by
  intro text y rest hread
  obtain ⟨⟨x, text'⟩, hfirst, hsecond⟩ := Option.bind_eq_some_iff.mp hread
  have hfirst := h text x text' hfirst
  have hsecond := h' x text' y rest hsecond
  omega

theorem mono (h : Takes m read) (hle : n ≤ m) : Takes n read := by
  intro text x rest hread
  have := h text x rest hread
  omega

end Takes

/-- What comes behind something that was read is refused. -/
theorem Refuses.bind {β α γ : Type} {read : Reader β α} {next : α → Reader β γ} {x : α}
    {text text' : List β} (h : Reads read x text) (h' : Refuses (next x) text') :
    Refuses (read >>= next) (text ++ text') := by
  intro rest
  change (read (text ++ text' ++ rest)).bind (fun p => next p.1 p.2) = none
  rw [List.append_assoc, h, Option.bind_some, h']

/-! ## Numbers -/

/-- A number in groups of seven bits, the lowest first, at most `n` groups; every group but the last
has its high bit set. -/
def varint : ℕ → Reader UInt8 ℕ
  | 0, _ => none
  | _ + 1, [] => none
  | n + 1, b :: text =>
    if b.toNat < 128 then some (b.toNat, text)
    else (varint n text).map fun p => (b.toNat - 128 + 128 * p.1, p.2)

/-- `ReadTag`: a `uint32_t`. -/
def readTag : Reader UInt8 ℕ := do
  let v ← varint 5
  pure (v % 2 ^ 32)

/-- `INT_MAX - kSlopBytes`. -/
def maxSize : ℕ := 2 ^ 31 - 1 - 16

/-- `ReadSize`. -/
def readSize : Reader UInt8 ℕ := do
  let v ← varint 5
  accept (if v ≤ maxSize then some v else none)

/-- A size, and as many bytes. -/
def delimited : Reader UInt8 (List UInt8) := do
  let size ← readSize
  block size

/-- The number that bytes denote, the lowest first. -/
def little : List UInt8 → ℕ
  | [] => 0
  | b :: bytes => b.toNat + 256 * little bytes

theorem takes_varint (n : ℕ) : Takes 1 (varint n) := by
  intro text
  induction n generalizing text with
  | zero => intro x rest h; exact absurd h (by simp [varint])
  | succ n ih =>
    intro x rest h
    cases text with
    | nil => exact absurd h (by simp [varint])
    | cons b text =>
      unfold varint at h
      split at h
      · obtain ⟨-, rfl⟩ := Prod.mk.inj (Option.some.inj h)
        exact le_refl _
      · obtain ⟨⟨v, rest'⟩, hrest, hpair⟩ := Option.map_eq_some_iff.mp h
        obtain ⟨-, rfl⟩ := Prod.mk.inj hpair
        exact (ih text v rest' hrest).trans (Nat.le_succ _)

theorem takes_readTag : Takes 1 readTag := (takes_varint 5).bind fun _ => .pure _

theorem takes_delimited : Takes 1 delimited :=
  ((takes_varint 5).bind fun _ => .accept _).bind fun _ => .block _

/-- A number of one group. -/
theorem reads_varint_last {n : ℕ} {b : UInt8} (h : b.toNat < 128) :
    Reads (varint (n + 1)) b.toNat [b] := by
  intro rest
  change (if b.toNat < 128 then _ else _) = _
  rw [if_pos h]
  rfl

/-- One more group below the others. -/
theorem reads_varint_more {n v : ℕ} {b : UInt8} {text : List UInt8} (h : 128 ≤ b.toNat)
    (h' : Reads (varint n) v text) :
    Reads (varint (n + 1)) (b.toNat - 128 + 128 * v) (b :: text) := by
  intro rest
  change (if b.toNat < 128 then _ else (varint n (text ++ rest)).map _) = _
  rw [if_neg (not_lt.mpr h), h']
  rfl

theorem reads_readTag {b : UInt8} (h : b.toNat < 128) : Reads readTag b.toNat [b] := by
  have hmod : b.toNat % 2 ^ 32 = b.toNat := Nat.mod_eq_of_lt (by omega)
  have htag : Reads readTag (b.toNat % 2 ^ 32) ([b] ++ []) :=
    (reads_varint_last h).bind (.pure _)
  rwa [hmod] at htag

theorem reads_delimited {size body : List UInt8} (h : Reads (varint 5) body.length size)
    (hfits : body.length ≤ maxSize) : Reads delimited body (size ++ body) := by
  have hsize : Reads readSize body.length (size ++ []) := by
    refine h.bind ?_
    rw [if_pos hfits]
    exact .accept _
  rw [List.append_nil] at hsize
  exact hsize.bind (.block body)

/-! ## Fields -/

/-- A text is UTF-8. -/
def Utf8 (text : List UInt8) : Prop := text.toByteArray.IsValidUTF8

instance (text : List UInt8) : Decidable (Utf8 text) := by
  unfold Utf8; infer_instance

theorem utf8_nil : Utf8 [] := ByteArray.isValidUTF8_empty

/-- A case of the `switch` in a generated parser of messages `σ`: which tag it takes, and what it
does with the value behind it. -/
structure FieldParser (σ : Type) where
  number : ℕ
  tag : UInt8
  read : σ → Reader UInt8 σ
  takes : ∀ msg, Takes 0 (read msg)

/-- How the fields are skipped that no case takes. -/
structure Skip where
  read : ℕ → Reader UInt8 Unit
  takes : ∀ tag, Takes 0 (read tag)

/-- No field is skipped. -/
def Skip.refuse : Skip := ⟨fun _ _ => none, fun _ _ _ _ h => absurd h (by simp)⟩

namespace FieldParser

variable {σ α : Type}

/-- A `string`, which has to be UTF-8. -/
def string (number : ℕ) (set : List UInt8 → σ → σ) : FieldParser σ where
  number := number
  tag := UInt8.ofNat (number * 8 + 2)
  read msg := do
    let text ← delimited
    accept (if Utf8 text then some (set text msg) else none)
  takes _ := (takes_delimited.bind fun _ => .accept _).mono (Nat.zero_le _)

/-- A `bool`: whether a 64-bit number is zero. -/
def bool (number : ℕ) (set : Bool → σ → σ) : FieldParser σ where
  number := number
  tag := UInt8.ofNat (number * 8)
  read msg := do
    let v ← varint 10
    pure (set (decide (v % 2 ^ 64 ≠ 0)) msg)
  takes _ := ((takes_varint 10).bind fun _ => .pure _).mono (Nat.zero_le _)

/-- Four bytes. -/
def fixed32 (number : ℕ) (set : UInt32 → σ → σ) : FieldParser σ where
  number := number
  tag := UInt8.ofNat (number * 8 + 5)
  read msg := do
    let bytes ← block 4
    pure (set (UInt32.ofNat (little bytes)) msg)
  takes _ := (Takes.block 4).bind fun _ => .pure _

/-- A message inside the message, with its own parser. -/
def message (number : ℕ) (parse : List UInt8 → Option α) (add : α → σ → σ) : FieldParser σ where
  number := number
  tag := UInt8.ofNat (number * 8 + 2)
  read msg := do
    let text ← delimited
    accept ((parse text).map fun part => add part msg)
  takes _ := (takes_delimited.bind fun _ => .accept _).mono (Nat.zero_le _)

end FieldParser

/-! ## The loop of a generated parser -/

section

variable {σ : Type} (fields : List (FieldParser σ)) (skip : Skip)

/-- One round: a tag, and the field behind it. A zero tag and the end of a group end the loop before
the text is at its end, and what called it does not take that. -/
def next (msg : σ) : Reader UInt8 σ := do
  let tag ← readTag
  match fields.find? fun f => f.number = tag / 8 ∧ f.tag.toNat = tag % 256 with
  | some f => f.read msg
  | none =>
    if tag = 0 ∨ tag % 8 = 4 then accept none
    else do
      skip.read tag
      pure msg

/-- The loop; every round takes a tag at least, so the text bounds the rounds. -/
def parseLoop : ℕ → σ → List UInt8 → Option σ
  | _, msg, [] => some msg
  | 0, _, _ :: _ => none
  | rounds + 1, msg, b :: text =>
    (next fields skip msg (b :: text)).bind fun p => parseLoop rounds p.1 p.2

/-- A generated `_InternalParse`, from the message it is called on to the end of the text. -/
def parse (msg : σ) (text : List UInt8) : Option σ := parseLoop fields skip text.length msg text

variable {fields : List (FieldParser σ)} {skip : Skip} {msg msg' : σ} {text : List UInt8}

theorem takes_next (msg : σ) : Takes 1 (next fields skip msg) := by
  refine takes_readTag.bind (n := 0) fun tag => ?_
  split
  · rename_i f _
    exact f.takes msg
  · split
    · exact .accept none
    · exact (skip.takes tag).bind fun _ => .pure msg

/-- More rounds than there are bytes make no difference. -/
theorem parseLoop_rounds {n m : ℕ} (hn : text.length ≤ n) (hm : text.length ≤ m) :
    parseLoop fields skip n msg text = parseLoop fields skip m msg text := by
  induction n generalizing m msg text with
  | zero =>
    obtain rfl := List.length_eq_zero_iff.mp (Nat.le_zero.mp hn)
    cases m <;> rfl
  | succ n ih =>
    cases text with
    | nil => cases m <;> rfl
    | cons b text =>
      cases m with
      | zero => exact absurd hm (by simp)
      | succ m =>
        unfold parseLoop
        refine Option.bind_congr fun p hp => ?_
        have hless := takes_next msg _ _ _ hp
        rw [List.length_cons] at hn hm hless
        exact ih (by omega) (by omega)

@[simp] theorem parse_nil : parse fields skip msg [] = some msg := rfl

theorem parse_next (h : text ≠ []) : parse fields skip msg text =
    (next fields skip msg text).bind fun p => parse fields skip p.1 p.2 := by
  cases text with
  | nil => exact absurd rfl h
  | cons b text =>
    unfold parse
    rw [List.length_cons, parseLoop]
    refine Option.bind_congr fun p hp => ?_
    have hless := takes_next msg _ _ _ hp
    rw [List.length_cons] at hless
    exact parseLoop_rounds (by omega) (le_refl _)

/-- The case of the `switch` that takes the tag `b`. -/
def Case (fields : List (FieldParser σ)) (b : UInt8) (f : FieldParser σ) : Prop :=
  b.toNat < 128 ∧
    fields.find? (fun f => f.number = b.toNat / 8 ∧ f.tag.toNat = b.toNat % 256) = some f

variable {f : FieldParser σ} {b : UInt8} {body : List UInt8}

theorem next_case (h : Case fields b f) (rest : List UInt8) :
    next fields skip msg (b :: rest) = f.read msg rest := by
  have htag : readTag (b :: rest) = some (b.toNat, rest) := reads_readTag h.1 rest
  change (readTag (b :: rest)).bind _ = _
  rw [htag, Option.bind_some]
  simp only [h.2]

/-- **The loop goes on** behind a field that it reads. -/
theorem parse_reads (h : Case fields b f) (hbody : Reads (f.read msg) msg' body)
    (rest : List UInt8) :
    parse fields skip msg (b :: body ++ rest) = parse fields skip msg' rest := by
  rw [List.cons_append, parse_next (List.cons_ne_nil b _), next_case h, hbody, Option.bind_some]

/-- It fails at a field that is refused. -/
theorem parse_refuses (h : Case fields b f) (hbody : Refuses (f.read msg) body)
    (rest : List UInt8) : parse fields skip msg (b :: body ++ rest) = none := by
  rw [List.cons_append, parse_next (List.cons_ne_nil b _), next_case h, hbody, Option.bind_none]

/-- What every case keeps of a message, the loop keeps. -/
theorem parse_invariant {I : σ → Prop}
    (hfields : ∀ f ∈ fields, ∀ msg text msg' rest,
      f.read msg text = some (msg', rest) → I msg → I msg')
    (h : parse fields skip msg text = some msg') (hI : I msg) : I msg' := by
  suffices hloop : ∀ rounds msg text, parseLoop fields skip rounds msg text = some msg' →
      I msg → I msg' from hloop _ _ _ h hI
  intro rounds
  induction rounds with
  | zero =>
    intro msg text h hI
    cases text with
    | nil => exact Option.some.inj h ▸ hI
    | cons b text => exact absurd h (by simp [parseLoop])
  | succ rounds ih =>
    intro msg text h hI
    cases text with
    | nil => exact Option.some.inj h ▸ hI
    | cons b text =>
      obtain ⟨⟨between, text'⟩, hnext, hrest⟩ := Option.bind_eq_some_iff.mp h
      refine ih between text' hrest ?_
      obtain ⟨⟨tag, behind⟩, -, hfield⟩ := Option.bind_eq_some_iff.mp hnext
      cases hfind : fields.find? fun f => f.number = tag / 8 ∧ f.tag.toNat = tag % 256 with
      | some f =>
        simp only [hfind] at hfield
        exact hfields f (List.mem_of_find?_eq_some hfind) _ _ _ _ hfield hI
      | none =>
        simp only [hfind] at hfield
        by_cases hend : tag = 0 ∨ tag % 8 = 4
        · rw [if_pos hend] at hfield
          exact absurd hfield (by simp [accept])
        · rw [if_neg hend] at hfield
          obtain ⟨⟨_, behind'⟩, -, hpure⟩ := Option.bind_eq_some_iff.mp hfield
          obtain ⟨rfl, -⟩ := Prod.mk.inj (Option.some.inj hpure)
          exact hI

/-- A text that a case of the `switch` takes is UTF-8. -/
theorem string_read {number : ℕ} {set : List UInt8 → σ → σ} {rest : List UInt8}
    (h : (FieldParser.string number set).read msg text = some (msg', rest)) :
    ∃ s, Utf8 s ∧ msg' = set s msg := by
  obtain ⟨⟨s, behind⟩, -, haccept⟩ := Option.bind_eq_some_iff.mp h
  obtain ⟨x, hx, hpair⟩ := Option.map_eq_some_iff.mp haccept
  split at hx
  · rename_i hutf8
    exact ⟨s, hutf8, by rw [← (Prod.mk.inj hpair).1, ← Option.some.inj hx]⟩
  · exact absurd hx (by simp)

end

end Wire
