import RealtimeServer.Lib.Urlencoded
import RealtimeServer.Utils.AuthWorkers

/-!
# What a request carries

Model of `ToWide` and of the header block `DoRequest` builds (`Utils/HttpClient.cpp`), and what the
path that `AuthService::WorkerLoop` asks for is decoded to. `MultiByteToWideChar` is not ours:
`convert` stands for what it makes of a text without its terminator, and all that is used of it is
that it leaves the end of a line as it is (`KeepsLineEnd`).

* `getLast_block`: the terminator is counted, so it is part of every header line, the last one
  included.
* **`request_carried_iff`**: which tokens and which headers arrive as they are.
-/

namespace RealtimeServer

open Urlencoded

/-! ## The header block -/

/-- `HttpClient::Header`. -/
structure Header where
  name : Bytes
  value : Bytes

/-- `"\r\n"`. -/
def crlf : Bytes := [13, 10]

/-- `h.name + ": " + h.value + "\r\n"`. -/
def Header.line (h : Header) : Bytes := h.name ++ utf8 ": " ++ h.value ++ crlf

/-- `s.c_str()`, read with length -1: up to the first NUL. -/
def cString (s : Bytes) : Bytes := s.takeWhile (· != 0)

/-- What `DoRequest` passes to `WinHttpSendRequest`: `headersPtr` and `headersLen`. -/
structure HeaderBlock where
  text : List UInt16
  length : UInt32
  deriving DecidableEq

section

variable (convert : Bytes → List UInt16)

/-- `ToWide`: with length -1 the terminating NUL is converted and counted. -/
def toWide (s : Bytes) : List UInt16 := if s = [] then [] else convert (cString s) ++ [0]

/-- `L"Content-Type: application/json\r\n"`. -/
def contentType : List UInt16 := (utf8 "Content-Type: application/json\r\n").map UInt8.toUInt16

/-- `requestHeaders`. -/
def requestHeaders (body : Bytes) (headers : List Header) : List UInt16 :=
  headers.foldl (fun block h => block ++ toWide convert h.line)
    (if body ≠ [] then contentType else [])

/-- The block: `WINHTTP_NO_ADDITIONAL_HEADERS` when there is none, else the text and its size as a
`DWORD`. -/
def headerBlock (body : Bytes) (headers : List Header) : HeaderBlock :=
  let block := requestHeaders convert body headers
  if block = [] then ⟨[], 0⟩ else ⟨block, UInt32.ofNat block.length⟩

/-- The lines of the headers and nothing else, as wide characters. -/
def headerLines (body : Bytes) (headers : List Header) : List UInt16 :=
  (if body ≠ [] then contentType else []) ++ headers.flatMap fun h => convert h.line

/-- The end of a line is converted to itself, whatever stands before it. -/
def KeepsLineEnd : Prop := ∀ s, ∃ wide, convert (s ++ crlf) = wide ++ [13, 10]

/-- The request carries the token and the headers as they are. -/
structure Carried (token body : Bytes) (headers : List Header) : Prop where
  query : params (query (validatePath token)) = [(utf8 "token", token)]
  text : (headerBlock convert body headers).text = headerLines convert body headers
  length : (headerBlock convert body headers).length.toNat =
    (headerLines convert body headers).length

end

variable {convert : Bytes → List UInt16} {body : Bytes} {headers : List Header}

theorem requestHeaders_eq : requestHeaders convert body headers =
    (if body ≠ [] then contentType else []) ++ headers.flatMap fun h => toWide convert h.line := by
  unfold requestHeaders
  generalize (if body ≠ [] then contentType else []) = block
  induction headers generalizing block with
  | nil => simp
  | cons h headers ih => rw [List.foldl_cons, ih, List.flatMap_cons, List.append_assoc]

theorem text_headerBlock :
    (headerBlock convert body headers).text = requestHeaders convert body headers := by
  unfold headerBlock
  by_cases h : requestHeaders convert body headers = []
  · simp only [h, if_true]
  · simp only [h, if_false]

/-- **The block ends with a NUL** when there are headers. -/
theorem getLast_block (h : Header) :
    (requestHeaders convert body (headers ++ [h])).getLast? = some 0 := by
  have hline : h.line ≠ [] := by
    unfold Header.line crlf
    simp
  rw [requestHeaders_eq, List.flatMap_append, List.flatMap_singleton, toWide, if_neg hline,
    ← List.append_assoc, ← List.append_assoc, List.getLast?_concat]

/-- The lines end with a line feed. -/
theorem getLast_lines (hconvert : KeepsLineEnd convert) (h : Header) :
    (headerLines convert body (headers ++ [h])).getLast? = some 10 := by
  obtain ⟨wide, hwide⟩ := hconvert (h.name ++ utf8 ": " ++ h.value)
  unfold headerLines
  rw [List.flatMap_append, List.flatMap_singleton, Header.line, hwide, ← List.append_assoc,
    ← List.append_assoc, List.getLast?_append]
  rfl

theorem headers_carried_iff (hconvert : KeepsLineEnd convert) :
    ((headerBlock convert body headers).text = headerLines convert body headers ∧
      (headerBlock convert body headers).length.toNat =
        (headerLines convert body headers).length) ↔ headers = [] := by
  constructor
  · rintro ⟨htext, -⟩
    induction headers using List.reverseRecOn with
    | nil => rfl
    | append_singleton headers h _ =>
      rw [text_headerBlock] at htext
      have hlast := @getLast_block convert body headers h
      rw [htext, getLast_lines hconvert h] at hlast
      exact absurd hlast (by decide)
  · rintro rfl
    unfold headerBlock headerLines requestHeaders
    by_cases hbody : body = []
    · simp [hbody]
    · simp only [List.foldl_nil, List.flatMap_nil, List.append_nil, ne_eq, hbody, not_false_eq_true,
        if_true]
      decide

/-! ## The token -/

/-- The token is the value of the path's query. -/
theorem validatePath_eq (token : Bytes) :
    validatePath token = utf8 "/auth/validate" ++ 63 :: (utf8 "token" ++ 61 :: token) := by
  have hstart : utf8 "/auth/validate?token=" =
      utf8 "/auth/validate" ++ 63 :: (utf8 "token" ++ [61]) := by decide
  unfold validatePath
  rw [hstart]
  simp

theorem token_carried_iff (token : Bytes) :
    params (query (validatePath token)) = [(utf8 "token", token)] ↔ Unreserved token := by
  rw [validatePath_eq]
  exact params_query_iff (by decide) ⟨by decide, by decide⟩ token

/-- `WinHttpOpenRequest` reads the path up to a NUL, so up to the first one in the token. -/
theorem cString_validatePath (token : Bytes) :
    cString (validatePath token) = validatePath (cString token) := by
  unfold cString validatePath
  rw [List.takeWhile_append_of_pos (List.all_eq_true.mp (by decide))]

/-- **A request carries its token and its headers** exactly if no byte of the token has a meaning in
a query, and there are no headers. -/
theorem request_carried_iff (hconvert : KeepsLineEnd convert) (token body : Bytes)
    (headers : List Header) :
    Carried convert token body headers ↔ Unreserved token ∧ headers = [] := by
  rw [← token_carried_iff, ← @headers_carried_iff convert body headers hconvert]
  exact ⟨fun ⟨query, text, length⟩ => ⟨query, text, length⟩,
    fun ⟨query, text, length⟩ => ⟨query, text, length⟩⟩

/-- What `MultiByteToWideChar` makes of ASCII. -/
def widen (s : Bytes) : List UInt16 := s.map UInt8.toUInt16

theorem widen_keepsLineEnd : KeepsLineEnd widen := by
  intro s
  exact ⟨widen s, List.map_append⟩

/-- A token of letters and digits is carried by a request without headers, as `AuthService` makes
it. -/
theorem request_carried_session : Carried widen (utf8 "s3ss10n") [] [] :=
  (request_carried_iff widen_keepsLineEnd _ _ _).mpr ⟨by decide, rfl⟩

/-- A `&` in the token ends it and begins another parameter; and the line of the one header that
`RefreshTrafficPolicy` sends takes its NUL along. -/
theorem request_changed :
    params (query (validatePath (utf8 "a&b"))) = [(utf8 "token", utf8 "a"), (utf8 "b", [])] ∧
      ¬ Carried widen (utf8 "a&b") [] [] ∧
      (headerBlock widen [] [⟨utf8 "X-Api-Key", utf8 "k"⟩]).text =
        widen (utf8 "X-Api-Key: k\r\n") ++ [0] ∧
      ¬ Carried widen (utf8 "s3ss10n") [] [⟨utf8 "X-Api-Key", utf8 "k"⟩] := by
  refine ⟨by decide, fun h => ?_, by decide, fun h => ?_⟩
  · exact absurd h.query (by decide)
  · exact absurd h.text (by decide)

end RealtimeServer
