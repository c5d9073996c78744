import RealtimeServer.Core.Heartbeat
import RealtimeServer.Lib.HttpMessage
import RealtimeServer.Lib.JsonReader

/-!
# What the server says of itself

Model of `HealthServer::WorkerLoop` (`Utils/HealthServer.cpp`) from the request it has received to
the response it sends, and of the two texts that `ServerCore::Init` hands to it
(`Core/ServerCore.cpp`).

* **`health_read_back`**: whatever is asked for, a client reads the response as one that is whole,
  and in its body the values the server has read.
* **`heartbeat_read_iff`**: the body of a heartbeat is read as what it reports exactly if the
  version in it has nothing to escape.
-/

namespace RealtimeServer

open Json Http

/-! ## The texts -/

/-- What the two functions load. -/
structure HealthState where
  currentConnections : UInt64
  totalConnections : UInt64
  totalPacketsReceived : UInt64
  totalPacketsSent : UInt64
  totalBytesReceived : UInt64
  totalBytesSent : UInt64
  totalRateLimitRejections : UInt64
  totalOversizedPacketRejections : UInt64
  totalPolicyConnectionRejections : UInt64
  /-- `GetRoomInfoList().size()`. -/
  rooms : Nat
  lastControlPlaneStatusCode : Int
  lastControlPlaneReportUnixMs : Int
  lastPolicyPullStatusCode : Int
  lastPolicyPullUnixMs : Int
  policyMaxConnectionsPerMinuteTotal : Int

/-- `"\"key\":"`, and a value. -/
def jsonField (key value : String) : String := "\"" ++ key ++ "\":" ++ value

/-- The text of `/health`. -/
def healthBody (st : HealthState) : Bytes :=
  utf8 ("\x7b" ++ jsonField "status" "\"ok\"" ++ "," ++
    jsonField "sessions" (toString st.currentConnections.toNat) ++ "," ++
    jsonField "total_connections" (toString st.totalConnections.toNat) ++ "," ++
    jsonField "rooms" (toString st.rooms) ++ "," ++
    jsonField "packets_received" (toString st.totalPacketsReceived.toNat) ++ "," ++
    jsonField "packets_sent" (toString st.totalPacketsSent.toNat) ++ "," ++
    jsonField "rate_limit_rejections" (toString st.totalRateLimitRejections.toNat) ++ "," ++
    jsonField "oversized_rejections" (toString st.totalOversizedPacketRejections.toNat) ++ "," ++
    jsonField "policy_connection_rejections"
      (toString st.totalPolicyConnectionRejections.toNat) ++ "," ++
    jsonField "control_plane_status_code" (toString st.lastControlPlaneStatusCode) ++ "," ++
    jsonField "last_report_unix_ms" (toString st.lastControlPlaneReportUnixMs) ++ "," ++
    jsonField "policy_pull_status_code" (toString st.lastPolicyPullStatusCode) ++ "," ++
    jsonField "last_policy_pull_unix_ms" (toString st.lastPolicyPullUnixMs) ++ "," ++
    jsonField "max_conn_per_min_total" (toString st.policyMaxConnectionsPerMinuteTotal) ++
    "\x7d")

/-- `"name " << value << "\n"`. -/
def metricLine (name value : String) : String := name ++ " " ++ value ++ "\n"

/-- The text of `/metrics`. -/
def metricsBody (st : HealthState) : Bytes :=
  utf8 (metricLine "realtime_current_connections" (toString st.currentConnections.toNat) ++
    metricLine "realtime_total_connections" (toString st.totalConnections.toNat) ++
    metricLine "realtime_packets_received_total" (toString st.totalPacketsReceived.toNat) ++
    metricLine "realtime_packets_sent_total" (toString st.totalPacketsSent.toNat) ++
    metricLine "realtime_bytes_received_total" (toString st.totalBytesReceived.toNat) ++
    metricLine "realtime_bytes_sent_total" (toString st.totalBytesSent.toNat) ++
    metricLine "realtime_rate_limit_rejections_total"
      (toString st.totalRateLimitRejections.toNat) ++
    metricLine "realtime_oversized_rejections_total"
      (toString st.totalOversizedPacketRejections.toNat) ++
    metricLine "realtime_policy_connection_rejections_total"
      (toString st.totalPolicyConnectionRejections.toNat) ++
    metricLine "realtime_control_plane_status_code" (toString st.lastControlPlaneStatusCode) ++
    metricLine "realtime_last_report_unix_ms" (toString st.lastControlPlaneReportUnixMs) ++
    metricLine "realtime_policy_pull_status_code" (toString st.lastPolicyPullStatusCode) ++
    metricLine "realtime_last_policy_pull_unix_ms" (toString st.lastPolicyPullUnixMs) ++
    metricLine "realtime_policy_max_connections_per_min_total"
      (toString st.policyMaxConnectionsPerMinuteTotal))

/-- The response to what was received; what `m_healthFn` and `m_metricsFn` return, if they are
set. -/
def workerResponse (healthFn metricsFn : Option Bytes) (request : Bytes) : Bytes :=
  let metricsPath := decide (utf8 "GET /metrics" <+: request)
  let body :=
    if metricsPath then metricsFn.getD [] else healthFn.getD (utf8 "\x7b\"status\":\"ok\"\x7d")
  let contentType :=
    if metricsPath then utf8 "text/plain; version=0.0.4" else utf8 "application/json"
  utf8 "HTTP/1.1 200 OK\r\n" ++ utf8 "Content-Type: " ++ contentType ++ utf8 "\r\n" ++
    utf8 "Content-Length: " ++ utf8 (toString body.length) ++ utf8 "\r\n" ++
    utf8 "Connection: close\r\n" ++ utf8 "\r\n" ++ body

/-! ## What they say -/

/-- The members of `/health`. -/
def healthMembers (st : HealthState) : List (Bytes × Value) :=
  [(utf8 "status", .string (utf8 "ok")),
    (utf8 "sessions", .int st.currentConnections.toNat),
    (utf8 "total_connections", .int st.totalConnections.toNat),
    (utf8 "rooms", .int st.rooms),
    (utf8 "packets_received", .int st.totalPacketsReceived.toNat),
    (utf8 "packets_sent", .int st.totalPacketsSent.toNat),
    (utf8 "rate_limit_rejections", .int st.totalRateLimitRejections.toNat),
    (utf8 "oversized_rejections", .int st.totalOversizedPacketRejections.toNat),
    (utf8 "policy_connection_rejections", .int st.totalPolicyConnectionRejections.toNat),
    (utf8 "control_plane_status_code", .int st.lastControlPlaneStatusCode),
    (utf8 "last_report_unix_ms", .int st.lastControlPlaneReportUnixMs),
    (utf8 "policy_pull_status_code", .int st.lastPolicyPullStatusCode),
    (utf8 "last_policy_pull_unix_ms", .int st.lastPolicyPullUnixMs),
    (utf8 "max_conn_per_min_total", .int st.policyMaxConnectionsPerMinuteTotal)]

/-- The lines of `/metrics`. -/
def metrics (st : HealthState) : List (Bytes × Int) :=
  [(utf8 "realtime_current_connections", st.currentConnections.toNat),
    (utf8 "realtime_total_connections", st.totalConnections.toNat),
    (utf8 "realtime_packets_received_total", st.totalPacketsReceived.toNat),
    (utf8 "realtime_packets_sent_total", st.totalPacketsSent.toNat),
    (utf8 "realtime_bytes_received_total", st.totalBytesReceived.toNat),
    (utf8 "realtime_bytes_sent_total", st.totalBytesSent.toNat),
    (utf8 "realtime_rate_limit_rejections_total", st.totalRateLimitRejections.toNat),
    (utf8 "realtime_oversized_rejections_total", st.totalOversizedPacketRejections.toNat),
    (utf8 "realtime_policy_connection_rejections_total",
      st.totalPolicyConnectionRejections.toNat),
    (utf8 "realtime_control_plane_status_code", st.lastControlPlaneStatusCode),
    (utf8 "realtime_last_report_unix_ms", st.lastControlPlaneReportUnixMs),
    (utf8 "realtime_policy_pull_status_code", st.lastPolicyPullStatusCode),
    (utf8 "realtime_last_policy_pull_unix_ms", st.lastPolicyPullUnixMs),
    (utf8 "realtime_policy_max_connections_per_min_total",
      st.policyMaxConnectionsPerMinuteTotal)]

/-- Names and values, a blank between the two, a line each. -/
def readMetrics : ℕ → Bytes → Option (List (Bytes × Bytes))
  | _, [] => some []
  | 0, _ :: _ => none
  | fuel + 1, text => do
    let (line, rest) ← Http.splitAt 10 text
    let (name, value) ← Http.splitAt 32 line
    let others ← readMetrics fuel rest
    pure ((name, value) :: others)

theorem utf8_append (a b : String) : utf8 (a ++ b) = utf8 a ++ utf8 b := by
  unfold utf8
  simp

theorem utf8_digit {d : ℕ} (h : d < 10) :
    utf8 (String.singleton (Nat.digitChar d)) = [48 + UInt8.ofNat d] := by
  revert d
  decide

/-- What an output stream makes of a number. -/
theorem utf8_nat (n : ℕ) : utf8 (toString n) = Decimal.digitsOf n := by
  rw [Nat.toString_eq_repr]
  induction n using Nat.strong_induction_on with
  | _ n ih =>
    rcases Nat.lt_or_ge n 10 with hlt | hle
    · rw [Nat.repr_of_lt hlt, Decimal.digitsOf_of_lt hlt, utf8_digit hlt]
    · rw [Nat.repr_of_ge hle, Decimal.digitsOf_of_le hle, utf8_append, ih (n / 10) (by omega),
        utf8_digit (Nat.mod_lt n (by decide))]

theorem utf8_int (n : ℤ) : utf8 (toString n) = Decimal.intText n := by
  unfold Decimal.intText
  cases n with
  | ofNat m =>
    rw [if_neg (by simp)]
    exact utf8_nat m
  | negSucc m =>
    rw [if_pos (Int.negSucc_lt_zero m)]
    have htext : toString (Int.negSucc m) = "-" ++ toString (m + 1) := rfl
    rw [htext, utf8_append, utf8_nat]
    rfl

theorem utf8_jsonField {key value : String}
    (h : (utf8 key).all (fun b => decide (Plain b)) = true) :
    utf8 (jsonField key value) = 34 :: (escape (utf8 key) ++ 34 :: 58 :: utf8 value) := by
  have hopen : utf8 "\"" = [34] := by decide
  have hcolon : utf8 "\":" = [34, 58] := by decide
  unfold jsonField
  rw [utf8_append, utf8_append, utf8_append, hopen, hcolon,
    escape_plain (plain_of_all h)]
  simp

theorem jsonField_nat {key : String} (h : (utf8 key).all (fun b => decide (Plain b)) = true)
    (n : ℕ) (rest : Bytes) :
    utf8 (jsonField key (toString n)) ++ rest = memberText (utf8 key, .int n) rest := by
  rw [utf8_jsonField h, utf8_nat]
  simp [memberText, stringText, Value.int, Value.write, Decimal.intText]

theorem jsonField_int {key : String} (h : (utf8 key).all (fun b => decide (Plain b)) = true)
    (n : ℤ) (rest : Bytes) :
    utf8 (jsonField key (toString n)) ++ rest = memberText (utf8 key, .int n) rest := by
  rw [utf8_jsonField h, utf8_int]
  simp [memberText, stringText, Value.int, Value.write]

theorem jsonField_ok (rest : Bytes) : utf8 (jsonField "status" "\"ok\"") ++ rest =
    memberText (utf8 "status", .string (utf8 "ok")) rest := by
  rw [utf8_jsonField (by decide)]
  have hvalue : utf8 "\"ok\"" = 34 :: (escape (utf8 "ok") ++ [34]) := by decide
  rw [hvalue]
  simp [memberText, stringText, Value.write]

/-- **The text of `/health`** is the compact one of an object. -/
theorem healthBody_eq (st : HealthState) : healthBody st = objectText (healthMembers st) := by
  have hopen : utf8 "\x7b" = [123] := by decide
  have hcomma : utf8 "," = [44] := by decide
  have hclose : utf8 "\x7d" = [125] := by decide
  simp only [healthBody, utf8_append, List.append_assoc]
  simp (disch := decide) only [hopen, hcomma, hclose, jsonField_ok, jsonField_nat, jsonField_int,
    List.singleton_append]
  rfl

theorem readable_health (st : HealthState) :
    ∀ member ∈ healthMembers st, member.2.Readable := by
  simp [healthMembers, readable_int, readable_string]

/-! ## The lines -/

theorem utf8_metricLine (name value : String) (rest : Bytes) :
    utf8 (metricLine name value) ++ rest = utf8 name ++ 32 :: (utf8 value ++ 10 :: rest) := by
  have hblank : utf8 " " = [32] := by decide
  have hend : utf8 "\n" = [10] := by decide
  unfold metricLine
  rw [utf8_append, utf8_append, utf8_append, hblank, hend]
  simp

/-- The text of lines. -/
def linesText : List (Bytes × Int) → Bytes
  | [] => []
  | (name, value) :: lines => name ++ 32 :: (Decimal.intText value ++ 10 :: linesText lines)

theorem intText_nat (n : ℕ) : Decimal.intText n = Decimal.digitsOf n := by
  simp [Decimal.intText]

theorem metricsBody_eq (st : HealthState) : metricsBody st = linesText (metrics st) := by
  rw [← List.append_nil (metricsBody st)]
  simp only [metricsBody, utf8_append, List.append_assoc]
  simp only [utf8_metricLine, utf8_nat, utf8_int, metrics, linesText, intText_nat]

theorem length_linesText (lines : List (Bytes × Int)) :
    lines.length ≤ (linesText lines).length := by
  induction lines with
  | nil => exact Nat.zero_le _
  | cons line lines ih =>
    simp only [linesText, List.length_cons, List.length_append]
    omega

/-- A number ends no line. -/
theorem not_mem_intText (n : ℤ) : 10 ∉ Decimal.intText n := fun hmem =>
  absurd (isNumber_intText n 10 hmem) (by decide)

theorem readMetrics_text {lines : List (Bytes × Int)} {fuel : ℕ}
    (hclean : ∀ line ∈ lines, 32 ∉ line.1 ∧ 10 ∉ line.1) (hfuel : lines.length ≤ fuel) :
    readMetrics fuel (linesText lines) =
      some (lines.map fun line => (line.1, Decimal.intText line.2)) := by
  induction lines generalizing fuel with
  | nil => cases fuel <;> rfl
  | cons line lines ih =>
    obtain ⟨name, value⟩ := line
    obtain ⟨⟨hblank, hend⟩, hlines⟩ := List.forall_mem_cons.mp hclean
    cases fuel with
    | zero => exact absurd hfuel (by simp)
    | succ fuel =>
      have hline : 10 ∉ name ++ 32 :: Decimal.intText value := by
        rw [List.mem_append, List.mem_cons, not_or, not_or]
        exact ⟨hend, by decide, not_mem_intText value⟩
      have htext : linesText ((name, value) :: lines) =
          (name ++ 32 :: Decimal.intText value) ++ 10 :: linesText lines := by
        simp [linesText]
      obtain ⟨first, text, hcons⟩ : ∃ first text, linesText ((name, value) :: lines) =
          first :: text := List.exists_cons_of_ne_nil (by simp [linesText])
      have hread := ih hlines (Nat.le_of_succ_le_succ hfuel)
      have hfirst : Http.splitAt 10 (first :: text) =
          some (name ++ 32 :: Decimal.intText value, linesText lines) := by
        rw [← hcons, htext, Http.splitAt_text hline]
      rw [hcons]
      unfold readMetrics
      rw [hfirst]
      change (Http.splitAt 32 (name ++ 32 :: Decimal.intText value)).bind _ = _
      rw [Http.splitAt_text hblank]
      change (readMetrics fuel (linesText lines)).bind _ = _
      rw [hread]
      rfl

/-! ## The response -/

theorem clean_metrics (st : HealthState) :
    ∀ line ∈ metrics st, 32 ∉ line.1 ∧ 10 ∉ line.1 := by
  simp only [metrics, List.forall_mem_cons, List.not_mem_nil, false_implies, implies_true,
    and_true]
  and_intros <;> decide

/-- The fields of a response. -/
def responseFields (contentType body : Bytes) : List Field :=
  [⟨utf8 "Content-Type", contentType⟩,
    ⟨utf8 "Content-Length", Decimal.digitsOf body.length⟩,
    ⟨utf8 "Connection", utf8 "close"⟩]

theorem contentLength_response (contentType body : Bytes) :
    contentLength (responseFields contentType body) = some body.length := by
  have htype : ((utf8 "Content-Type").map lower == lengthName) = false := by decide
  have hlength : ((utf8 "Content-Length").map lower == lengthName) = true := by decide
  simp only [contentLength, responseFields, List.find?_cons, htype, hlength]
  exact readNumber_digitsOf _

/-- **The response** is one of HTTP, and nothing is behind its body. -/
theorem response_read {contentType : Bytes} (hclean : 13 ∉ contentType)
    (htrim : trim contentType = contentType) (body : Bytes) :
    readResponse (utf8 "HTTP/1.1 200 OK\r\n" ++ utf8 "Content-Type: " ++ contentType ++
      utf8 "\r\n" ++ utf8 "Content-Length: " ++ utf8 (toString body.length) ++ utf8 "\r\n" ++
      utf8 "Connection: close\r\n" ++ utf8 "\r\n" ++ body) =
      some (⟨utf8 "HTTP/1.1", 200, utf8 "OK", responseFields contentType body, body⟩, []) := by
  have hstatus : utf8 "HTTP/1.1 200 OK\r\n" =
      utf8 "HTTP/1.1" ++ 32 :: (utf8 "200" ++ 32 :: (utf8 "OK" ++ [13, 10])) := by decide
  have htype : utf8 "Content-Type: " = utf8 "Content-Type" ++ [58, 32] := by decide
  have hlength : utf8 "Content-Length: " = utf8 "Content-Length" ++ [58, 32] := by decide
  have hconnection : utf8 "Connection: close\r\n" =
      utf8 "Connection" ++ 58 :: 32 :: (utf8 "close" ++ [13, 10]) := by decide
  have hend : utf8 "\r\n" = [13, 10] := by decide
  have hfields : ∀ field ∈ responseFields contentType body, field.Clean := by
    intro field hfield
    simp only [responseFields, List.mem_cons, List.not_mem_nil, or_false] at hfield
    rcases hfield with rfl | rfl | rfl
    · have hname : 58 ∉ utf8 "Content-Type" ∧ 13 ∉ utf8 "Content-Type" := by decide
      exact ⟨hname.1, hname.2, hclean, htrim⟩
    · exact clean_digitsOf (by decide) (by decide) _
    · exact ⟨by decide, by decide, by decide, by decide⟩
  have hread : readResponse (responseText (utf8 "HTTP/1.1") (utf8 "200") (utf8 "OK")
      (responseFields contentType body) body []) = some (⟨utf8 "HTTP/1.1",
        Decimal.natural (utf8 "200"), utf8 "OK", responseFields contentType body, body⟩, []) :=
    read_response (by decide) (List.all_eq_true.mp rfl) (by decide) ⟨by decide, by decide⟩ hfields
      (contentLength_response contentType body)
  have htext : responseText (utf8 "HTTP/1.1") (utf8 "200") (utf8 "OK")
      (responseFields contentType body) body [] =
      utf8 "HTTP/1.1 200 OK\r\n" ++ utf8 "Content-Type: " ++ contentType ++
        utf8 "\r\n" ++ utf8 "Content-Length: " ++ utf8 (toString body.length) ++ utf8 "\r\n" ++
        utf8 "Connection: close\r\n" ++ utf8 "\r\n" ++ body := by
    rw [hstatus, htype, hlength, hconnection, hend, utf8_nat]
    simp [responseText, fieldsText, lineText, responseFields]
  rw [← htext, hread]
  rfl

/-- **What the server says of itself is read back.** To whatever request, and for whatever values
the counters have: a client reads a whole response with status 200, and nothing behind it. If the
request begins with `GET /metrics`, its body is read as one line for each value; if not, as an
object with the values. -/
theorem health_read_back (st : HealthState) (request : Bytes) :
    ∃ fields body, readResponse (workerResponse (some (healthBody st)) (some (metricsBody st))
        request) = some (⟨utf8 "HTTP/1.1", 200, utf8 "OK", fields, body⟩, []) ∧
      if utf8 "GET /metrics" <+: request then
        ⟨utf8 "Content-Type", utf8 "text/plain; version=0.0.4"⟩ ∈ fields ∧
          readMetrics body.length body =
            some ((metrics st).map fun line => (line.1, utf8 (toString line.2)))
      else
        ⟨utf8 "Content-Type", utf8 "application/json"⟩ ∈ fields ∧
          readObject body = some (healthMembers st) := by
  unfold workerResponse
  by_cases hpath : utf8 "GET /metrics" <+: request
  · simp only [hpath, decide_true, if_true, Option.getD_some]
    refine ⟨_, _, response_read (by decide) (by decide) _, List.mem_cons_self, ?_⟩
    rw [metricsBody_eq, readMetrics_text (clean_metrics st) ?_]
    · simp only [utf8_int]
    · exact length_linesText _
  · simp only [hpath, decide_false, if_false, Bool.false_eq_true, Option.getD_some]
    refine ⟨_, _, response_read (by decide) (by decide) _, List.mem_cons_self, ?_⟩
    rw [healthBody_eq]
    exact read_object (readable_health st)

/-! ## The heartbeat -/

/-- What the body of a heartbeat says. -/
def heartbeatMembers (cfg : HeartbeatConfig) (currentPlayers : Int)
    (recentConnections recentRejections : UInt64) : List (Bytes × Value) :=
  [(utf8 "currentPlayers", .int currentPlayers),
    (utf8 "maxPlayers", .int cfg.maxTotalPlayers),
    (utf8 "version", .string cfg.gameServerVersion),
    (utf8 "recentConnections", .int recentConnections.toNat),
    (utf8 "recentRejections", .int recentRejections.toNat)]

/-- **A heartbeat is read as what it says** exactly if no byte of the version is a quote, a
backslash or a control character. -/
theorem heartbeat_read_iff (cfg : HeartbeatConfig) (currentPlayers : Int)
    (recentConnections recentRejections : UInt64) :
    readObject (heartbeatBody cfg currentPlayers recentConnections recentRejections) =
        some (heartbeatMembers cfg currentPlayers recentConnections recentRejections) ↔
      ∀ b ∈ cfg.gameServerVersion, Plain b := by
  have hplayers : utf8 "\x7b\"currentPlayers\":" =
      123 :: 34 :: (escape (utf8 "currentPlayers") ++ [34, 58]) := by decide
  have hmax : utf8 ",\"maxPlayers\":" =
      44 :: 34 :: (escape (utf8 "maxPlayers") ++ [34, 58]) := by decide
  have hversion : utf8 ",\"version\":\"" =
      44 :: 34 :: (escape (utf8 "version") ++ [34, 58, 34]) := by decide
  have hconnections : utf8 "\",\"recentConnections\":" =
      34 :: 44 :: 34 :: (escape (utf8 "recentConnections") ++ [34, 58]) := by decide
  have hrejections : utf8 ",\"recentRejections\":" =
      44 :: 34 :: (escape (utf8 "recentRejections") ++ [34, 58]) := by decide
  have hclose : utf8 "\x7d" = [125] := by decide
  unfold heartbeatBody
  rw [List.append_assoc]
  refine read_pasted_iff ?_ ?_
  · simp only [utf8_append, utf8_int, utf8_nat, hplayers, hmax, hversion, hconnections, hrejections,
      hclose]
    simp [heartbeatMembers, objectText, membersText, memberText, stringText, Value.int, Value.write,
      intText_nat]
  · simp [heartbeatMembers, readable_int, readable_string]

end RealtimeServer
