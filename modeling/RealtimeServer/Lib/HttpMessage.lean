import RealtimeServer.Lib.Decimal

/-!
# Reading an HTTP response

A reader of responses whose body is as long as their `Content-Length` says.

* `readResponse text`: the status line, the fields, the body, and what is left of the text.
* `responseText`: the text of a response. **`read_response`**: it is read as the response, and
  whatever is behind it is left, if no line has the end of a line in it, no field name a colon, and
  no value a blank at either end (`Clean`), and the first field that says a length says the body's.
-/

namespace Http

/-- A field of the header. -/
structure Field where
  name : List UInt8
  value : List UInt8
  deriving DecidableEq

structure Response where
  version : List UInt8
  status : ℕ
  reason : List UInt8
  fields : List Field
  body : List UInt8
  deriving DecidableEq

/-! ## The reader -/

/-- A line, and what is behind its end. -/
def readLine : List UInt8 → Option (List UInt8 × List UInt8)
  | 13 :: 10 :: rest => some ([], rest)
  | b :: rest => (readLine rest).map fun (line, rest) => (b :: line, rest)
  | [] => none

def isBlank (b : UInt8) : Bool := b == 32 || b == 9

/-- Without the blanks at both ends. -/
def trim (text : List UInt8) : List UInt8 :=
  ((text.dropWhile isBlank).reverse.dropWhile isBlank).reverse

/-- What is before the first byte of this kind, and what is behind it. -/
def splitAt (b : UInt8) (text : List UInt8) : Option (List UInt8 × List UInt8) :=
  match text.dropWhile (· != b) with
  | [] => none
  | _ :: rest => some (text.takeWhile (· != b), rest)

def readField (line : List UInt8) : Option Field :=
  (splitAt 58 line).map fun (name, value) => ⟨name, trim value⟩

/-- The lines up to the empty one. -/
def readFields : ℕ → List UInt8 → Option (List Field × List UInt8)
  | 0, _ => none
  | fuel + 1, text => do
    let (line, rest) ← readLine text
    if line = [] then pure ([], rest)
    else
      let field ← readField line
      let (fields, rest) ← readFields fuel rest
      pure (field :: fields, rest)

/-- A number, and nothing else. -/
def readNumber (text : List UInt8) : Option ℕ :=
  if text ≠ [] ∧ text.all Decimal.isDigit then some (Decimal.natural text) else none

/-- The version, the status and the reason. -/
def readStatus (line : List UInt8) : Option (List UInt8 × ℕ × List UInt8) := do
  let (version, rest) ← splitAt 32 line
  let (status, reason) ← splitAt 32 rest
  let status ← readNumber status
  pure (version, status, reason)

/-- A letter in lower case. -/
def lower (b : UInt8) : UInt8 := if 65 ≤ b && b ≤ 90 then b + 32 else b

/-- `content-length`. -/
def lengthName : List UInt8 := [99, 111, 110, 116, 101, 110, 116, 45, 108, 101, 110, 103, 116, 104]

/-- The length of the body, as the first field of that name says it. -/
def contentLength (fields : List Field) : Option ℕ :=
  (fields.find? fun field => field.name.map lower == lengthName).bind fun field =>
    readNumber field.value

/-- A response, and what is behind it. -/
def readResponse (text : List UInt8) : Option (Response × List UInt8) := do
  let (line, rest) ← readLine text
  let (version, status, reason) ← readStatus line
  let (fields, rest) ← readFields rest.length rest
  let length ← contentLength fields
  if length ≤ rest.length then
    pure (⟨version, status, reason, fields, rest.take length⟩, rest.drop length)
  else none

/-! ## The text of a response -/

/-- A line, before what follows it. -/
def lineText (line rest : List UInt8) : List UInt8 := line ++ 13 :: 10 :: rest

def fieldsText (fields : List Field) (rest : List UInt8) : List UInt8 :=
  fields.foldr (fun field rest => lineText (field.name ++ 58 :: 32 :: field.value) rest)
    (lineText [] rest)

/-- A response with a status of these digits, before what follows it. -/
def responseText (version digits reason : List UInt8) (fields : List Field)
    (body rest : List UInt8) : List UInt8 :=
  lineText (version ++ 32 :: (digits ++ 32 :: reason)) (fieldsText fields (body ++ rest))

/-- The field is read as it is written. -/
structure Field.Clean (field : Field) : Prop where
  colon : 58 ∉ field.name
  name : 13 ∉ field.name
  value : 13 ∉ field.value
  trimmed : trim field.value = field.value

variable {line text rest : List UInt8} {b : UInt8} {field : Field} {fields : List Field}
  {fuel : ℕ}

/-! ## The text is read -/

theorem readLine_text (h : 13 ∉ line) : readLine (lineText line rest) = some (line, rest) := by
  induction line with
  | nil => rfl
  | cons b line ih =>
    rw [List.mem_cons, not_or] at h
    change readLine (b :: lineText line rest) = _
    unfold readLine
    split
    · rename_i heq
      exact absurd (List.cons.inj heq).1.symm h.1
    · rename_i heq
      obtain ⟨rfl, rfl⟩ := List.cons.inj heq
      rw [ih h.2]
      rfl
    · rename_i heq
      exact absurd heq (by simp)

theorem splitAt_text (h : b ∉ line) : splitAt b (line ++ b :: rest) = some (line, rest) := by
  have hline : ∀ c ∈ line, (c != b) = true := by
    intro c hc
    rw [bne_iff_ne]
    rintro rfl
    exact h hc
  unfold splitAt
  rw [List.dropWhile_append_of_pos hline, List.takeWhile_append_of_pos hline,
    List.dropWhile_cons_of_neg (by simp), List.takeWhile_cons_of_neg (by simp), List.append_nil]

theorem readField_text (h : field.Clean) :
    readField (field.name ++ 58 :: 32 :: field.value) = some field := by
  have htrim : trim (32 :: field.value) = field.value := h.trimmed
  unfold readField
  rw [splitAt_text h.colon]
  change some (⟨field.name, trim (32 :: field.value)⟩ : Field) = some field
  rw [htrim]

theorem readFields_text (hclean : ∀ field ∈ fields, field.Clean) (hfuel : fields.length < fuel) :
    readFields fuel (fieldsText fields rest) = some (fields, rest) := by
  induction fields generalizing fuel with
  | nil =>
    cases fuel with
    | zero => exact absurd hfuel (Nat.not_lt_zero _)
    | succ fuel => rfl
  | cons field fields ih =>
    cases fuel with
    | zero => exact absurd hfuel (Nat.not_lt_zero _)
    | succ fuel =>
      obtain ⟨hfield, hfields⟩ := List.forall_mem_cons.mp hclean
      have hline : 13 ∉ field.name ++ 58 :: 32 :: field.value := by
        simp [hfield.name, hfield.value]
      have hread : readLine (fieldsText (field :: fields) rest) =
          some (field.name ++ 58 :: 32 :: field.value, fieldsText fields rest) :=
        readLine_text hline
      unfold readFields
      rw [hread]
      change (if field.name ++ 58 :: 32 :: field.value = [] then _ else _) = _
      rw [if_neg (by simp)]
      change (readField _).bind _ = _
      rw [readField_text hfield]
      change (readFields fuel (fieldsText fields rest)).bind _ = _
      rw [ih hfields (Nat.lt_of_succ_lt_succ hfuel)]
      rfl

theorem readStatus_text {version digits reason : List UInt8} (hversion : 32 ∉ version)
    (hdigits : ∀ b ∈ digits, Decimal.isDigit b = true) (hnonempty : digits ≠ []) :
    readStatus (version ++ 32 :: (digits ++ 32 :: reason)) =
      some (version, Decimal.natural digits, reason) := by
  have hblank : 32 ∉ digits := fun hmem => absurd (hdigits 32 hmem) (by decide)
  have hnumber : readNumber digits = some (Decimal.natural digits) :=
    if_pos ⟨hnonempty, List.all_eq_true.mpr hdigits⟩
  unfold readStatus
  rw [splitAt_text hversion]
  change (splitAt 32 (digits ++ 32 :: reason)).bind _ = _
  rw [splitAt_text hblank]
  change (readNumber digits).bind _ = _
  rw [hnumber]
  rfl

/-- There is nothing to trim where there are no blanks. -/
theorem trim_eq_self (h : ∀ b ∈ text, isBlank b = false) : trim text = text := by
  have hfront : text.dropWhile isBlank = text := by
    cases text with
    | nil => rfl
    | cons b text => exact List.dropWhile_cons_of_neg (by simp [h b List.mem_cons_self])
  have hback : text.reverse.dropWhile isBlank = text.reverse := by
    cases hreverse : text.reverse with
    | nil => rfl
    | cons b back =>
      have hmem : b ∈ text := List.mem_reverse.mp (hreverse ▸ List.mem_cons_self)
      exact List.dropWhile_cons_of_neg (by simp [h b hmem])
  unfold trim
  rw [hfront, hback, List.reverse_reverse]

theorem readNumber_digitsOf (n : ℕ) : readNumber (Decimal.digitsOf n) = some n := by
  have hdigits : (Decimal.digitsOf n).all Decimal.isDigit = true :=
    List.all_eq_true.mpr (Decimal.isDigit_digitsOf n)
  unfold readNumber
  rw [if_pos ⟨Decimal.digitsOf_ne_nil n, hdigits⟩, Decimal.natural_digitsOf]

/-- A length is a value as it is written. -/
theorem clean_digitsOf {name : List UInt8} (hcolon : 58 ∉ name) (hname : 13 ∉ name) (n : ℕ) :
    Field.Clean ⟨name, Decimal.digitsOf n⟩ where
  colon := hcolon
  name := hname
  value hmem := absurd (Decimal.isDigit_digitsOf n 13 hmem) (by decide)
  trimmed := trim_eq_self fun b hb => by
    have hdigit := Decimal.isDigit_digitsOf n b hb
    rw [← Bool.not_eq_true]
    intro hblank
    simp only [isBlank, Bool.or_eq_true, beq_iff_eq] at hblank
    rcases hblank with rfl | rfl <;> exact absurd hdigit (by decide)

theorem length_fieldsText (fields : List Field) (rest : List UInt8) :
    fields.length < (fieldsText fields rest).length := by
  induction fields with
  | nil => simp [fieldsText, lineText]
  | cons field fields ih =>
    change _ < (lineText (field.name ++ 58 :: 32 :: field.value) (fieldsText fields rest)).length
    simp only [lineText, List.length_append, List.length_cons]
    omega

/-- **A response is read back**, and what is behind it is left. -/
theorem read_response {version digits reason body : List UInt8} (hversion : 32 ∉ version)
    (hdigits : ∀ b ∈ digits, Decimal.isDigit b = true) (hnonempty : digits ≠ [])
    (hline : 13 ∉ version ∧ 13 ∉ reason) (hclean : ∀ field ∈ fields, field.Clean)
    (hlength : contentLength fields = some body.length) :
    readResponse (responseText version digits reason fields body rest) =
      some (⟨version, Decimal.natural digits, reason, fields, body⟩, rest) := by
  have hfirst : 13 ∉ version ++ 32 :: (digits ++ 32 :: reason) := by
    have hdigit : 13 ∉ digits := fun hmem => absurd (hdigits 13 hmem) (by decide)
    simp [hline.1, hline.2, hdigit]
  unfold readResponse responseText
  rw [readLine_text hfirst]
  change (readStatus _).bind _ = _
  rw [readStatus_text hversion hdigits hnonempty]
  change (readFields _ (fieldsText fields (body ++ rest))).bind _ = _
  rw [readFields_text hclean (length_fieldsText _ _)]
  change (contentLength fields).bind _ = _
  rw [hlength]
  change (if body.length ≤ (body ++ rest).length then _ else none) = _
  rw [if_pos (by simp), List.take_left, List.drop_left]
  rfl

end Http
