import RealtimeServer.Lib.Decimal
import RealtimeServer.Lib.Unordered
import RealtimeServer.Packet.Message

/-!
# The configuration file

Model of `ServerConfig` and of `Config::Load`, `Apply` and `Trim` (`Utils/Config.h`). A text is what
the file stream delivers. `std::stoi` is `Decimal.stoi`: it stops behind the digits, and nobody
looks at what is left.

* `lookup_readLines`: only the last line that gives a key a value counts.
* `setting_load`: an integer setting is what `std::stoi` makes of that value.
* `readWhole_iff`: what it makes of it is what the value says, unless the value begins with a number
  that it is not.
* **`setting_load_iff`**: both, of a file and a setting.
-/

namespace RealtimeServer

open Unordered Decimal

/-- `ServerConfig`, with its defaults. -/
structure ServerConfig where
  port : Int := 7777
  workerThreadMultiplier : Int := 2
  tickIntervalMs : Int := 33
  heartbeatTimeoutMs : Int := 30000
  maxRoomPlayers : Int := 16
  statsPrintIntervalMs : Int := 10000
  logFile : Bytes := []
  sessionServerHost : Bytes := utf8 "127.0.0.1"
  sessionServerPort : Int := 8080
  authWorkerCount : Int := 4
  authTimeoutMs : Int := 3000
  externalHost : Bytes := utf8 "127.0.0.1"
  maxTotalPlayers : Int := 500
  healthServerPort : Int := 8081
  maxPacketSize : Int := 4096
  packetRateLimitPerSec : Int := 100
  idleRoomTimeoutMs : Int := 60000
  reconnectWindowMs : Int := 30000
  apiGatewayHost : Bytes := utf8 "127.0.0.1"
  apiGatewayPort : Int := 5000
  gameServerApiKey : Bytes := []
  gameServerVersion : Bytes := utf8 "dev"
  controlPlaneTimeoutMs : Int := 3000
  heartbeatReportIntervalMs : Int := 10000
  policyRefreshIntervalMs : Int := 30000

/-- A `Config` object: `m_values` and `m_cfg`. -/
structure LoadedConfig where
  values : Map Bytes Bytes
  cfg : ServerConfig

/-! ## Lines -/

namespace LoadedConfig

/-- `" \t\r\n"`. -/
def isBlank (b : UInt8) : Bool := b == 32 || b == 9 || b == 13 || b == 10

/-- `Trim`. -/
def trim (s : Bytes) : Bytes := ((s.dropWhile isBlank).reverse.dropWhile isBlank).reverse

/-- `'#'`. -/
def hash : UInt8 := 35

/-- `'='`. -/
def equals : UInt8 := 61

/-- `Trim(line.substr(0, eq))`, with `eq` the first `'='`. -/
def keyOf (line : Bytes) : Bytes := trim (line.takeWhile (· != equals))

/-- `Trim(line.substr(eq + 1))`. -/
def valueOf (line : Bytes) : Bytes := trim ((line.dropWhile (· != equals)).drop 1)

/-- The body of the loop in `Load`. -/
def readLine (values : Map Bytes Bytes) (line : Bytes) : Map Bytes Bytes :=
  if line = [] ∨ line.head? = some hash then values
  else if equals ∉ line then values
  else values.insert (keyOf line) (valueOf line)

/-- The lines `std::getline` reads. Where it reads none behind the last line feed, there is an empty
one here. -/
def lines (text : Bytes) : List Bytes := text.splitOn 10

/-! ## Settings -/

section

variable (config : LoadedConfig)

/-- `getInt`. -/
def getInt (key : Bytes) (fallback : Int) : Int :=
  match config.values.lookup key with
  | none => fallback
  | some value => if value = [] then fallback else (stoi value).getD fallback

/-- `getStr`. -/
def getStr (key : Bytes) : Bytes := (config.values.lookup key).getD []

/-- `getStrOrDefault`. -/
def getStrOrDefault (key default : Bytes) : Bytes :=
  if config.getStr key = [] then default else config.getStr key

/-- `Apply`; `env` is what `getenv("GAME_SERVER_API_KEY")` answers. -/
def apply (env : Option Bytes) : LoadedConfig :=
  let cfg := config.cfg
  let getInt := fun key fallback => config.getInt (utf8 key) fallback
  let getStrOrDefault := fun key default => config.getStrOrDefault (utf8 key) default
  let apiKey := getStrOrDefault "game_server_api_key" cfg.gameServerApiKey
  let cfg : ServerConfig :=
    { port := getInt "port" cfg.port
      workerThreadMultiplier := getInt "worker_thread_multiplier" cfg.workerThreadMultiplier
      tickIntervalMs := getInt "tick_interval_ms" cfg.tickIntervalMs
      heartbeatTimeoutMs := getInt "heartbeat_timeout_ms" cfg.heartbeatTimeoutMs
      maxRoomPlayers := getInt "max_room_players" cfg.maxRoomPlayers
      statsPrintIntervalMs := getInt "stats_print_interval_ms" cfg.statsPrintIntervalMs
      logFile := config.getStr (utf8 "log_file")
      sessionServerHost := getStrOrDefault "session_server_host" cfg.sessionServerHost
      sessionServerPort := getInt "session_server_port" cfg.sessionServerPort
      authWorkerCount := getInt "auth_worker_count" cfg.authWorkerCount
      authTimeoutMs := getInt "auth_timeout_ms" cfg.authTimeoutMs
      externalHost := getStrOrDefault "external_host" cfg.externalHost
      maxTotalPlayers := getInt "max_total_players" cfg.maxTotalPlayers
      healthServerPort := getInt "health_server_port" cfg.healthServerPort
      maxPacketSize := getInt "max_packet_size" cfg.maxPacketSize
      packetRateLimitPerSec := getInt "packet_rate_limit_per_sec" cfg.packetRateLimitPerSec
      idleRoomTimeoutMs := getInt "idle_room_timeout_ms" cfg.idleRoomTimeoutMs
      reconnectWindowMs := getInt "reconnect_window_ms" cfg.reconnectWindowMs
      apiGatewayHost := getStrOrDefault "api_gateway_host" cfg.apiGatewayHost
      apiGatewayPort := getInt "api_gateway_port" cfg.apiGatewayPort
      gameServerApiKey := if apiKey = [] then env.getD apiKey else apiKey
      gameServerVersion := getStrOrDefault "game_server_version" cfg.gameServerVersion
      controlPlaneTimeoutMs := getInt "control_plane_timeout_ms" cfg.controlPlaneTimeoutMs
      heartbeatReportIntervalMs :=
        getInt "heartbeat_report_interval_ms" cfg.heartbeatReportIntervalMs
      policyRefreshIntervalMs := getInt "policy_refresh_interval_ms" cfg.policyRefreshIntervalMs }
  { config with cfg := cfg }

end

/-- `Load`; `file` is the text of the file, `none` where it cannot be opened. -/
def load (env file : Option Bytes) (config : LoadedConfig) : Bool × LoadedConfig :=
  match file with
  | none => (false, config)
  | some text =>
    let values := (lines text).foldl readLine config.values
    (true, apply { config with values := values } env)

end LoadedConfig

/-- The integer settings. -/
inductive IntSetting
  | port | workerThreadMultiplier | tickIntervalMs | heartbeatTimeoutMs | maxRoomPlayers
  | statsPrintIntervalMs | sessionServerPort | authWorkerCount | authTimeoutMs | maxTotalPlayers
  | healthServerPort | maxPacketSize | packetRateLimitPerSec | idleRoomTimeoutMs
  | reconnectWindowMs | apiGatewayPort | controlPlaneTimeoutMs | heartbeatReportIntervalMs
  | policyRefreshIntervalMs

namespace IntSetting

/-- Its key in the file. -/
def key : IntSetting → Bytes
  | port => utf8 "port"
  | workerThreadMultiplier => utf8 "worker_thread_multiplier"
  | tickIntervalMs => utf8 "tick_interval_ms"
  | heartbeatTimeoutMs => utf8 "heartbeat_timeout_ms"
  | maxRoomPlayers => utf8 "max_room_players"
  | statsPrintIntervalMs => utf8 "stats_print_interval_ms"
  | sessionServerPort => utf8 "session_server_port"
  | authWorkerCount => utf8 "auth_worker_count"
  | authTimeoutMs => utf8 "auth_timeout_ms"
  | maxTotalPlayers => utf8 "max_total_players"
  | healthServerPort => utf8 "health_server_port"
  | maxPacketSize => utf8 "max_packet_size"
  | packetRateLimitPerSec => utf8 "packet_rate_limit_per_sec"
  | idleRoomTimeoutMs => utf8 "idle_room_timeout_ms"
  | reconnectWindowMs => utf8 "reconnect_window_ms"
  | apiGatewayPort => utf8 "api_gateway_port"
  | controlPlaneTimeoutMs => utf8 "control_plane_timeout_ms"
  | heartbeatReportIntervalMs => utf8 "heartbeat_report_interval_ms"
  | policyRefreshIntervalMs => utf8 "policy_refresh_interval_ms"

/-- Its value. -/
def get (cfg : ServerConfig) : IntSetting → Int
  | port => cfg.port
  | workerThreadMultiplier => cfg.workerThreadMultiplier
  | tickIntervalMs => cfg.tickIntervalMs
  | heartbeatTimeoutMs => cfg.heartbeatTimeoutMs
  | maxRoomPlayers => cfg.maxRoomPlayers
  | statsPrintIntervalMs => cfg.statsPrintIntervalMs
  | sessionServerPort => cfg.sessionServerPort
  | authWorkerCount => cfg.authWorkerCount
  | authTimeoutMs => cfg.authTimeoutMs
  | maxTotalPlayers => cfg.maxTotalPlayers
  | healthServerPort => cfg.healthServerPort
  | maxPacketSize => cfg.maxPacketSize
  | packetRateLimitPerSec => cfg.packetRateLimitPerSec
  | idleRoomTimeoutMs => cfg.idleRoomTimeoutMs
  | reconnectWindowMs => cfg.reconnectWindowMs
  | apiGatewayPort => cfg.apiGatewayPort
  | controlPlaneTimeoutMs => cfg.controlPlaneTimeoutMs
  | heartbeatReportIntervalMs => cfg.heartbeatReportIntervalMs
  | policyRefreshIntervalMs => cfg.policyRefreshIntervalMs

end IntSetting

/-! ## What a setting is after a load -/

namespace LoadedConfig

/-- What a line gives to a key: it is no comment and defines it. -/
def valueIn (key line : Bytes) : Option Bytes :=
  if line.head? ≠ some hash ∧ equals ∈ line ∧ keyOf line = key then some (valueOf line) else none

/-- The value of the last line that defines the key. -/
def lastValue (key text : Bytes) : Option Bytes := (lines text).reverse.findSome? (valueIn key)

variable {config : LoadedConfig} {values : Map Bytes Bytes} {key line : Bytes} {env : Option Bytes}
  {value : Option Bytes} {default : Int}

theorem lookup_readLine :
    (readLine values line).lookup key = (valueIn key line).or (values.lookup key) := by
  unfold readLine valueIn
  by_cases hcomment : line = [] ∨ line.head? = some hash
  · rw [if_pos hcomment]
    rcases hcomment with rfl | hhash
    · rfl
    · rw [if_neg fun h => h.1 hhash, Option.none_or]
  · obtain ⟨-, hhash⟩ := not_or.mp hcomment
    rw [if_neg hcomment]
    by_cases hequals : equals ∈ line
    · rw [if_neg (not_not.mpr hequals)]
      by_cases hkey : keyOf line = key
      · rw [if_pos ⟨hhash, hequals, hkey⟩, hkey, AList.lookup_insert, Option.some_or]
      · rw [if_neg fun h => hkey h.2.2, AList.lookup_insert_ne (Ne.symm hkey), Option.none_or]
    · rw [if_pos hequals, if_neg fun h => hequals h.2.1, Option.none_or]

/-- **The last definition counts.** -/
theorem lookup_readLines (read : List Bytes) : (read.foldl readLine values).lookup key =
    (read.reverse.findSome? (valueIn key)).or (values.lookup key) := by
  induction read using List.reverseRecOn with
  | nil => rfl
  | append_singleton read line ih =>
    rw [List.foldl_concat, lookup_readLine, ih, List.reverse_concat, List.findSome?_cons]
    cases valueIn key line with
    | none => rfl
    | some value => rfl

theorem getInt_eq :
    config.getInt key default = ((config.values.lookup key).bind stoi).getD default := by
  unfold getInt
  cases config.values.lookup key with
  | none => rfl
  | some value =>
    by_cases hempty : value = []
    · subst hempty
      rfl
    · rw [Option.bind_some]
      exact if_neg hempty

theorem get_apply (s : IntSetting) :
    s.get (config.apply env).cfg = config.getInt s.key (s.get config.cfg) := by
  cases s <;> rfl

/-- **An integer setting** after the load of a fresh object is what `std::stoi` makes of its last
value. -/
theorem setting_load (s : IntSetting) (cfg : ServerConfig) (text : Bytes) :
    s.get (load env (some text) ⟨∅, cfg⟩).2.cfg =
      ((lastValue s.key text).bind stoi).getD (s.get cfg) := by
  unfold load
  rw [get_apply, getInt_eq, lookup_readLines]
  show (((lastValue s.key text).or none).bind stoi).getD (s.get cfg) = _
  rw [Option.or_none]

/-! ## Whole literals, and others -/

/-- A value is taken for the number it denotes, if it is the literal of an `int` and nothing else;
any other leaves the default. -/
structure ReadWhole (value : Option Bytes) (default result : Int) : Prop where
  literal : ∀ l : Literal, value = some l.text → Signed.Fits l.value → result = l.value
  other : (∀ l : Literal, value = some l.text → ¬ Signed.Fits l.value) → result = default

/-- A value that is no literal begins with one, behind white space if it has any. -/
def BeginsWithOther (value : Option Bytes) (default : Int) : Prop :=
  ∃ text spaces l rest, value = some text ∧ Leads text spaces l rest ∧
    (spaces ≠ [] ∨ rest ≠ []) ∧ Signed.Fits l.value ∧ l.value ≠ default

theorem bind_stoi {v : Int} : value.bind stoi = some v ↔ ∃ text spaces l rest,
    value = some text ∧ Leads text spaces l rest ∧ l.value = v ∧ Signed.Fits v := by
  rw [Option.bind_eq_some_iff]
  constructor
  · rintro ⟨text, htext, hv⟩
    obtain ⟨spaces, l, rest, hleads, hvalue, hfits⟩ := stoi_eq_some.mp hv
    exact ⟨text, spaces, l, rest, htext, hleads, hvalue, hfits⟩
  · rintro ⟨text, spaces, l, rest, htext, hleads, hvalue, hfits⟩
    exact ⟨text, htext, stoi_eq_some.mpr ⟨spaces, l, rest, hleads, hvalue, hfits⟩⟩

theorem readWhole_iff : ReadWhole value default ((value.bind stoi).getD default) ↔
    ¬ BeginsWithOther value default := by
  constructor
  · rintro hwhole ⟨text, spaces, l, rest, rfl, hleads, haround, hfits, hne⟩
    have hread : (some text).bind stoi = some l.value :=
      bind_stoi.mpr ⟨text, spaces, l, rest, rfl, hleads, rfl, hfits⟩
    have hdefault := hwhole.other fun l' hl' => by
      obtain rfl := Option.some.inj hl'
      obtain ⟨hspaces, hrest, -⟩ := eq_of_leads hleads
      exact absurd haround (by simp [hspaces, hrest])
    rw [hread] at hdefault
    exact hne hdefault
  · intro hnone
    constructor
    · rintro l rfl hfits
      rw [bind_stoi.mpr ⟨l.text, [], l, [], rfl, leads_text l, rfl, hfits⟩]
      rfl
    · intro hother
      cases hread : value.bind stoi with
      | none => rfl
      | some v =>
        obtain ⟨text, spaces, l, rest, htext, hleads, rfl, hfits⟩ := bind_stoi.mp hread
        by_contra hne
        refine hnone ⟨text, spaces, l, rest, htext, hleads, ?_, hfits, hne⟩
        by_contra haround
        obtain ⟨hspaces, hrest⟩ := not_or.mp haround
        have hwhole : text = l.text := by
          rw [hleads.text, not_not.mp hspaces, not_not.mp hrest]
          simp
        exact hother l (hwhole ▸ htext) hfits

/-- **An integer setting is what its line says**, whatever the lines for other keys are; and the
line is read as a whole exactly if its value does not begin with a number that it is not. -/
theorem setting_load_iff (s : IntSetting) (cfg : ServerConfig) (env : Option Bytes)
    (text : Bytes) :
    (∀ text', lastValue s.key text' = lastValue s.key text →
      s.get (load env (some text') ⟨∅, cfg⟩).2.cfg =
        s.get (load env (some text) ⟨∅, cfg⟩).2.cfg) ∧
    (ReadWhole (lastValue s.key text) (s.get cfg) (s.get (load env (some text) ⟨∅, cfg⟩).2.cfg) ↔
      ¬ BeginsWithOther (lastValue s.key text) (s.get cfg)) := by
  constructor
  · intro text' hsame
    rw [setting_load, setting_load, hsame]
  · rw [setting_load]
    exact readWhole_iff

/-- `80abc` is a port. -/
theorem setting_shortened :
    IntSetting.port.get (load none (some (utf8 "port = 80abc")) ⟨∅, {}⟩).2.cfg = 80 ∧
      ¬ ReadWhole (lastValue (utf8 "port") (utf8 "port = 80abc")) 7777
        (IntSetting.port.get (load none (some (utf8 "port = 80abc")) ⟨∅, {}⟩).2.cfg) := by
  have hvalue : lastValue (utf8 "port") (utf8 "port = 80abc") = some (utf8 "80abc") := by decide
  refine ⟨by decide, ?_⟩
  rw [setting_load]
  show ¬ ReadWhole _ 7777 (((lastValue (utf8 "port") _).bind stoi).getD 7777)
  rw [hvalue, readWhole_iff, not_not]
  refine ⟨_, [], ⟨.none, utf8 "80", by decide, List.all_eq_true.mp (by decide)⟩, utf8 "abc", rfl,
    ⟨?_, nofun, ?_⟩, ?_⟩
  · decide
  · decide
  · decide

end LoadedConfig

end RealtimeServer
