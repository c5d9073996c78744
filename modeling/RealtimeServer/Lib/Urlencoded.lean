import Mathlib.Data.List.Infix
import Mathlib.Data.List.TakeWhile

/-!
# Queries of a URL

How the reader of a URL takes its query apart: up to the fragment, at `&` into parameters that are
not empty, each at its first `=`, and both halves decoded. A byte that is not part of an escape
stands for itself.

* `decode`: `+` is a blank, and `%` with two hexadecimal digits behind it is the byte they denote.
  `decode_eq_self`: the texts that stand for themselves.
* `query path`, `params q`: the query of a path, and its parameters.
* **`params_query_iff`**: a value pasted behind a name comes out as it went in exactly if it has no
  separator and stands for itself.
-/

namespace Urlencoded

/-! ## Decoding -/

def hexDigit (b : UInt8) : Option UInt8 :=
  if 48 ≤ b ∧ b ≤ 57 then some (b - 48)
  else if 65 ≤ b ∧ b ≤ 70 then some (b - 55)
  else if 97 ≤ b ∧ b ≤ 102 then some (b - 87)
  else none

/-- The byte an escape denotes. -/
def octet (b high low : UInt8) : Option UInt8 :=
  if b = 37 then (hexDigit high).bind fun h => (hexDigit low).map fun l => h * 16 + l else none

/-- A byte by itself. -/
def single (b : UInt8) : UInt8 := if b = 43 then 32 else b

def decode : List UInt8 → List UInt8
  | [] => []
  | [b] => [single b]
  | [b, c] => [single b, single c]
  | b :: high :: low :: text =>
    match octet b high low with
    | some value => value :: decode text
    | none => single b :: decode (high :: low :: text)

/-- Somewhere a plus, or an escape. -/
def Coded (text : List UInt8) : Prop :=
  43 ∈ text ∨ ∃ high low, (octet 37 high low).isSome ∧ [37, high, low] <:+: text

variable {text name value path : List UInt8} {b : UInt8}

theorem single_eq_self : single b = b ↔ b ≠ 43 := by
  unfold single
  split
  · rename_i h
    subst h
    decide
  · rename_i h
    exact iff_of_true rfl h

theorem octet_eq_some {high low v : UInt8} (h : octet b high low = some v) : b = 37 := by
  unfold octet at h
  split at h
  · assumption
  · exact absurd h (by simp)

theorem length_decode_le (text : List UInt8) : (decode text).length ≤ text.length := by
  fun_induction decode text with
  | case1 => exact le_refl _
  | case2 b => exact le_refl _
  | case3 b c => exact le_refl _
  | case4 b high low text value hoctet ih =>
    simp only [List.length_cons]
    omega
  | case5 b high low text hoctet ih =>
    simp only [List.length_cons] at ih ⊢
    omega

/-- A byte in front adds an escape only if one begins with it. -/
theorem coded_cons : Coded (b :: text) ↔
    b = 43 ∨ (∃ high low, (octet b high low).isSome ∧ [high, low] <+: text) ∨ Coded text := by
  unfold Coded
  constructor
  · rintro (h | ⟨high, low, hoctet, hinfix⟩)
    · rcases List.mem_cons.mp h with h | h
      · exact Or.inl h.symm
      · exact Or.inr (Or.inr (Or.inl h))
    · rcases List.infix_cons_iff.mp hinfix with h | h
      · obtain ⟨rfl, hpre⟩ := List.cons_prefix_cons.mp h
        exact Or.inr (Or.inl ⟨high, low, hoctet, hpre⟩)
      · exact Or.inr (Or.inr (Or.inr ⟨high, low, hoctet, h⟩))
  · rintro (rfl | ⟨high, low, hoctet, hpre⟩ | h | ⟨high, low, hoctet, hinfix⟩)
    · exact Or.inl List.mem_cons_self
    · obtain ⟨v, hv⟩ := Option.isSome_iff_exists.mp hoctet
      obtain rfl := octet_eq_some hv
      exact Or.inr ⟨high, low, hoctet, List.infix_cons_iff.mpr
        (Or.inl (List.cons_prefix_cons.mpr ⟨rfl, hpre⟩))⟩
    · exact Or.inl (List.mem_cons_of_mem b h)
    · exact Or.inr ⟨high, low, hoctet, List.infix_cons_iff.mpr (Or.inr hinfix)⟩

theorem coded_nil : ¬ Coded [] := by
  rintro (h | ⟨high, low, -, h⟩)
  · exact absurd h (by simp)
  · exact absurd (List.eq_nil_of_infix_nil h) (by simp)

/-- **A text stands for itself** exactly if nothing in it is coded: an escape makes it shorter. -/
theorem decode_eq_self (text : List UInt8) : decode text = text ↔ ¬ Coded text := by
  fun_induction decode text with
  | case1 => exact iff_of_true rfl coded_nil
  | case2 b =>
    simp only [List.cons.injEq, and_true, single_eq_self, coded_cons, coded_nil, or_false, not_or]
    simp
  | case3 b c =>
    simp only [List.cons.injEq, and_true, single_eq_self, coded_cons, coded_nil, or_false, not_or]
    simp [List.cons_prefix_cons]
  | case4 b high low text value hoctet ih =>
    refine iff_of_false (fun h => ?_) (not_not.mpr ?_)
    · have hshort := length_decode_le text
      have hsame := congrArg List.length h
      simp only [List.length_cons] at hsame
      omega
    · refine coded_cons.mpr (Or.inr (Or.inl ⟨high, low, ?_, List.prefix_append [high, low] text⟩))
      rw [hoctet]
      rfl
  | case5 b high low text hoctet ih =>
    rw [List.cons.injEq, single_eq_self, ih, coded_cons (b := b)]
    have hnone : ¬ ∃ high' low', (octet b high' low').isSome ∧
        [high', low'] <+: high :: low :: text := by
      rintro ⟨high', low', hsome, hpre⟩
      obtain ⟨hhigh, hpre⟩ := List.cons_prefix_cons.mp hpre
      obtain ⟨hlow, -⟩ := List.cons_prefix_cons.mp hpre
      rw [hhigh, hlow, hoctet] at hsome
      exact absurd hsome (by simp)
    rw [or_iff_right hnone, not_or]

instance (text : List UInt8) : Decidable (Coded text) :=
  decidable_of_iff (decode text ≠ text) (by rw [ne_eq, decode_eq_self, not_not])

/-! ## Taking a query apart -/

/-- What stands behind the first `?`, up to the fragment. -/
def query (path : List UInt8) : List UInt8 :=
  ((path.takeWhile (· != 35)).dropWhile (· != 63)).drop 1

/-- A name and its value. -/
def pair (text : List UInt8) : List UInt8 × List UInt8 :=
  (decode (text.takeWhile (· != 61)), decode ((text.dropWhile (· != 61)).drop 1))

def params (q : List UInt8) : List (List UInt8 × List UInt8) :=
  ((q.splitOn 38).filter (· ≠ [])).map pair

/-- No byte that has a meaning in a query. -/
def Unreserved (text : List UInt8) : Prop := 38 ∉ text ∧ 35 ∉ text ∧ ¬ Coded text

instance (text : List UInt8) : Decidable (Unreserved text) := by
  unfold Unreserved; infer_instance

/-- A name that can stand in front of a value. -/
structure Name (name : List UInt8) : Prop where
  unreserved : Unreserved name
  unsplit : 61 ∉ name

theorem takeWhile_of_not_mem (h : b ∉ text) : text.takeWhile (· != b) = text := by
  refine List.takeWhile_eq_self_iff.mpr fun c hc => ?_
  have hne : c ≠ b := by
    rintro rfl
    exact h hc
  simpa using hne

theorem takeWhile_append_cons (h : b ∉ text) (rest : List UInt8) :
    (text ++ b :: rest).takeWhile (· != b) = text := by
  rw [List.takeWhile_append, takeWhile_of_not_mem h]
  simp

theorem dropWhile_append_cons (h : b ∉ text) (rest : List UInt8) :
    (text ++ b :: rest).dropWhile (· != b) = b :: rest := by
  have hsplit := List.takeWhile_append_dropWhile (p := (· != b)) (l := text ++ b :: rest)
  rw [takeWhile_append_cons h] at hsplit
  exact List.append_cancel_left hsplit

theorem query_append (hpath : 63 ∉ path ∧ 35 ∉ path) (q : List UInt8) :
    query (path ++ 63 :: q) = q.takeWhile (· != 35) := by
  have hcut : (path ++ 63 :: q).takeWhile (· != 35) = path ++ 63 :: q.takeWhile (· != 35) := by
    rw [List.takeWhile_append_of_pos fun c hc => by
      simpa using ne_of_mem_of_not_mem hc hpath.2, List.takeWhile_cons_of_pos (by decide)]
  unfold query
  rw [hcut, dropWhile_append_cons hpath.1]
  rfl

theorem pair_append (hname : Name name) (value : List UInt8) :
    pair (name ++ 61 :: value) = (name, decode value) := by
  unfold pair
  rw [takeWhile_append_cons hname.unsplit, dropWhile_append_cons hname.unsplit,
    (decode_eq_self name).mpr hname.unreserved.2.2]
  rfl

/-- Up to the first `&` stands the first parameter; without one it is the only one. -/
theorem params_append (hname : Name name) (value : List UInt8) : ∃ more,
    params (name ++ 61 :: value) = (name, decode (value.takeWhile (· != 38))) :: more ∧
      (38 ∉ value → more = []) := by
  have hfree : ∀ v : List UInt8, 38 ∉ v → 38 ∉ name ++ 61 :: v := by
    intro v hv
    simpa using ⟨hname.unreserved.1, hv⟩
  have hfirst : ∀ (v : List UInt8) rest,
      (((name ++ 61 :: v) :: rest).filter (· ≠ [])).map pair =
        (name, decode v) :: (rest.filter (· ≠ [])).map pair := by
    intro v rest
    rw [List.filter_cons_of_pos (by simp), List.map_cons, pair_append hname]
  unfold params
  by_cases hsep : 38 ∈ value
  · obtain ⟨v, rest, rfl, hv⟩ := List.eq_append_cons_of_mem hsep
    have hshape : name ++ 61 :: (v ++ 38 :: rest) = (name ++ 61 :: v) ++ 38 :: rest := by simp
    rw [hshape, List.splitOn_append_cons_self_of_not_mem (hfree v hv), hfirst,
      takeWhile_append_cons hv]
    exact ⟨_, rfl, fun h => absurd hsep h⟩
  · rw [List.splitOn_eq_singleton (hfree value hsep), hfirst, takeWhile_of_not_mem hsep]
    exact ⟨_, rfl, fun _ => rfl⟩

/-- What is cut off at a byte and is as long as before did not have it. -/
theorem not_mem_of_length_takeWhile (h : text.length ≤ (text.takeWhile (· != b)).length) :
    b ∉ text := by
  intro hb
  obtain ⟨before, rest, rfl, hbefore⟩ := List.eq_append_cons_of_mem hb
  rw [takeWhile_append_cons hbefore] at h
  simp only [List.length_append, List.length_cons] at h
  omega

/-- **A value pasted behind a name** is the only parameter, and comes out as it went in, exactly if
no byte of it has a meaning in a query. -/
theorem params_query_iff (hpath : 63 ∉ path ∧ 35 ∉ path) (hname : Name name)
    (value : List UInt8) :
    params (query (path ++ 63 :: (name ++ 61 :: value))) = [(name, value)] ↔ Unreserved value := by
  have hquery : query (path ++ 63 :: (name ++ 61 :: value)) =
      name ++ 61 :: value.takeWhile (· != 35) := by
    rw [query_append hpath, List.takeWhile_append_of_pos fun c hc => by
      simpa using ne_of_mem_of_not_mem hc hname.unreserved.2.1,
      List.takeWhile_cons_of_pos (by decide)]
  obtain ⟨more, hparams, hmore⟩ := params_append hname (value.takeWhile (· != 35))
  rw [hquery, hparams]
  constructor
  · intro h
    have hvalue : decode ((value.takeWhile (· != 35)).takeWhile (· != 38)) = value :=
      (Prod.mk.inj (List.cons.inj h).1).2
    -- a cut or an escape makes the value shorter
    have hdecode := length_decode_le ((value.takeWhile (· != 35)).takeWhile (· != 38))
    rw [hvalue] at hdecode
    have hcut := (List.takeWhile_prefix (p := (· != 38)) (l := value.takeWhile (· != 35))).length_le
    have hfragment : 35 ∉ value := not_mem_of_length_takeWhile (hdecode.trans hcut)
    rw [takeWhile_of_not_mem hfragment] at hdecode hvalue
    have hamp : 38 ∉ value := not_mem_of_length_takeWhile hdecode
    rw [takeWhile_of_not_mem hamp] at hvalue
    exact ⟨hamp, hfragment, (decode_eq_self value).mp hvalue⟩
  · rintro ⟨hamp, hfragment, hcoded⟩
    rw [takeWhile_of_not_mem hfragment] at hmore ⊢
    rw [takeWhile_of_not_mem hamp, (decode_eq_self value).mpr hcoded, hmore hamp]

end Urlencoded
