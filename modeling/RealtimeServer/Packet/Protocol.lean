import RealtimeServer.Lib.Wire
import RealtimeServer.Packet.Message

/-!
# The generated messages and their parsers

Model of the messages of `Packet/Logic/Packet.pb.cc` as a client and a handler use them: what
`SerializeToString` writes for a client, the `_InternalParse` of every message that is parsed
anywhere, and `ParseFromArray` on top of it. A generated parser is a table of cases (`fields`) for
the loop of `Lib/Wire`; what it does with a field it does not know is the protobuf runtime's and
stays a parameter (`skip`).

`registered` is the table `RegisterHandlers` fills (`Packet/Logic/Logic.cpp`), with what each
handler reads of its payload.

* **`parse_serialize`**: what the server serializes, a client reads back, unless a text in it is not
  UTF-8; then the client refuses it.
* **`registered_serialize`**: the same of what a client sends and the handlers.
* **`utf8_of_registered`**: what a handler takes out of a payload is UTF-8, whoever wrote it.
-/

namespace RealtimeServer

open Wire

/-! ## The client's messages -/

/-- `C_LOGIN`. -/
structure CLogin where
  accountId : Bytes
  password : Bytes

/-- `C_CHAT`. -/
structure CChat where
  message : Bytes

/-- `C_ROOM_ENTER`. -/
structure CRoomEnter where
  roomName : Bytes

/-- `C_MOVE`. -/
structure CMove where
  x : UInt32
  y : UInt32

/-- The packets a client sends; those from `ping` on have no protobuf message. -/
inductive ClientMessage
  | login (pkt : CLogin)
  | chat (pkt : CChat)
  | roomEnter (pkt : CRoomEnter)
  | roomLeave
  | move (pkt : CMove)
  /-- `[uint64 clientTimestampMs]`. -/
  | ping (clientTimestampMs : UInt64)
  | roomList
  | ready

namespace ClientMessage

def packetId : ClientMessage → PacketID
  | login _ => .cLogin
  | chat _ => .cChat
  | roomEnter _ => .cRoomEnter
  | roomLeave => .cRoomLeave
  | move _ => .cMove
  | ping _ => .cPing
  | roomList => .cRoomList
  | ready => .cReady

/-- `SerializeToString`, and the layouts `PacketID.h` gives for the packets without a message. -/
def serialize : ClientMessage → Bytes
  | login pkt => stringField 1 pkt.accountId ++ stringField 2 pkt.password
  | chat pkt => stringField 1 pkt.message
  | roomEnter pkt => stringField 1 pkt.roomName
  | roomLeave => []
  | move pkt => floatField 1 pkt.x ++ floatField 2 pkt.y
  | ping clientTimestampMs => leBytes 8 clientTimestampMs.toNat
  | roomList => []
  | ready => []

/-- The packet its handler is to read. -/
def packet : ClientMessage → ClientPacket
  | login pkt => .login (some pkt.password)
  | chat pkt => .chat (some pkt.message)
  | roomEnter pkt => .roomEnter (some pkt.roomName)
  | roomLeave => .roomLeave
  | move pkt => .move (some (pkt.x, pkt.y))
  | ping clientTimestampMs => .ping (leBytes 8 clientTimestampMs.toNat)
  | roomList => .roomList
  | ready => .ready

/-- What its handler reads instead, where `ParseFromArray` fails. -/
def refused : ClientMessage → ClientPacket
  | login _ => .login none
  | chat _ => .chat none
  | roomEnter _ => .roomEnter none
  | move _ => .move none
  | message => message.packet

/-- The texts of the message. -/
def texts : ClientMessage → List Bytes
  | login pkt => [pkt.accountId, pkt.password]
  | chat pkt => [pkt.message]
  | roomEnter pkt => [pkt.roomName]
  | roomLeave | move _ | ping _ | roomList | ready => []

end ClientMessage

/-! ## The parsers -/

/-- `C_LOGIN::_InternalParse`. -/
def CLogin.fields : List (FieldParser CLogin) :=
  [.string 1 fun str pkt => { pkt with accountId := str },
    .string 2 fun str pkt => { pkt with password := str }]

/-- `C_CHAT::_InternalParse`. -/
def CChat.fields : List (FieldParser CChat) :=
  [.string 1 fun str pkt => { pkt with message := str }]

/-- `C_ROOM_ENTER::_InternalParse`. -/
def CRoomEnter.fields : List (FieldParser CRoomEnter) :=
  [.string 1 fun str pkt => { pkt with roomName := str }]

/-- `C_MOVE::_InternalParse`. -/
def CMove.fields : List (FieldParser CMove) :=
  [.fixed32 1 fun bits pkt => { pkt with x := bits },
    .fixed32 2 fun bits pkt => { pkt with y := bits }]

/-- `S_LOGIN`. -/
structure SLogin where
  success : Bool
  message : Bytes

/-- `S_LOGIN::_InternalParse`. -/
def SLogin.fields : List (FieldParser SLogin) :=
  [.bool 1 fun flag pkt => { pkt with success := flag },
    .string 2 fun str pkt => { pkt with message := str }]

/-- `S_CHAT`. -/
structure SChat where
  sender : Bytes
  message : Bytes

/-- `S_CHAT::_InternalParse`. -/
def SChat.fields : List (FieldParser SChat) :=
  [.string 1 fun str pkt => { pkt with sender := str },
    .string 2 fun str pkt => { pkt with message := str }]

/-- `S_ROOM_ENTER`. -/
structure SRoomEnter where
  success : Bool
  message : Bytes
  roomName : Bytes

/-- `S_ROOM_ENTER::_InternalParse`. -/
def SRoomEnter.fields : List (FieldParser SRoomEnter) :=
  [.bool 1 fun flag pkt => { pkt with success := flag },
    .string 2 fun str pkt => { pkt with message := str },
    .string 3 fun str pkt => { pkt with roomName := str }]

/-- `S_ROOM_LEAVE`. -/
structure SRoomLeave where
  success : Bool

/-- `S_ROOM_LEAVE::_InternalParse`. -/
def SRoomLeave.fields : List (FieldParser SRoomLeave) :=
  [.bool 1 fun flag pkt => { pkt with success := flag }]

/-- `S_ROOM_USER_ENTERED` and `S_ROOM_USER_LEFT`. -/
structure SRoomUser where
  accountId : Bytes

/-- Their `_InternalParse`. -/
def SRoomUser.fields : List (FieldParser SRoomUser) :=
  [.string 1 fun str pkt => { pkt with accountId := str }]

/-- `MovedActor::_InternalParse`. -/
def MovedActor.fields : List (FieldParser MovedActor) :=
  [.string 1 fun str pkt => { pkt with accountId := str },
    .fixed32 2 fun bits pkt => { pkt with x := bits },
    .fixed32 3 fun bits pkt => { pkt with y := bits }]

/-- `S_MOVE_BROADCAST`. -/
structure SMoveBroadcast where
  actors : List MovedActor

section

variable (skip : Skip)

/-- `S_MOVE_BROADCAST::_InternalParse`; its inner loop takes actors as long as their tag comes next,
as the outer one does. -/
def SMoveBroadcast.fields : List (FieldParser SMoveBroadcast) :=
  [.message 1 (parse MovedActor.fields skip ⟨[], 0, 0⟩) fun actor pkt =>
    { pkt with actors := pkt.actors ++ [actor] }]

/-- `ParseFromArray` of a client, by the id of the packet. -/
def ServerMessage.parse (id : PacketID) (payload : Bytes) : Option ServerMessage :=
  match id with
  | .sLogin => (Wire.parse SLogin.fields skip ⟨false, []⟩ payload).map fun pkt =>
      .login pkt.success pkt.message
  | .sChat => (Wire.parse SChat.fields skip ⟨[], []⟩ payload).map fun pkt =>
      .chat pkt.sender pkt.message
  | .sRoomEnter => (Wire.parse SRoomEnter.fields skip ⟨false, [], []⟩ payload).map fun pkt =>
      .roomEnter pkt.success pkt.message pkt.roomName
  | .sRoomLeave => (Wire.parse SRoomLeave.fields skip ⟨false⟩ payload).map fun pkt =>
      .roomLeave pkt.success
  | .sRoomUserEntered => (Wire.parse SRoomUser.fields skip ⟨[]⟩ payload).map fun pkt =>
      .roomUserEntered pkt.accountId
  | .sRoomUserLeft => (Wire.parse SRoomUser.fields skip ⟨[]⟩ payload).map fun pkt =>
      .roomUserLeft pkt.accountId
  | .sMoveBroadcast => (Wire.parse (SMoveBroadcast.fields skip) skip ⟨[]⟩ payload).map fun pkt =>
      .moveBroadcast pkt.actors
  | _ => none

/-- `RegisterHandlers`: the packet that the handler registered for the id reads, if there is one. -/
def registered (packet : UInt16 × Bytes) : Option ClientPacket :=
  if packet.1 = PacketID.cLogin.toUInt16 then
    some (.login ((parse CLogin.fields skip ⟨[], []⟩ packet.2).map CLogin.password))
  else if packet.1 = PacketID.cChat.toUInt16 then
    some (.chat ((parse CChat.fields skip ⟨[]⟩ packet.2).map CChat.message))
  else if packet.1 = PacketID.cRoomEnter.toUInt16 then
    some (.roomEnter ((parse CRoomEnter.fields skip ⟨[]⟩ packet.2).map CRoomEnter.roomName))
  else if packet.1 = PacketID.cRoomLeave.toUInt16 then some .roomLeave
  else if packet.1 = PacketID.cMove.toUInt16 then
    some (.move ((parse CMove.fields skip ⟨0, 0⟩ packet.2).map fun pkt => (pkt.x, pkt.y)))
  else if packet.1 = PacketID.cPing.toUInt16 then some (.ping packet.2)
  else if packet.1 = PacketID.cRoomList.toUInt16 then some .roomList
  else if packet.1 = PacketID.cReady.toUInt16 then some .ready
  else none

end

/-! ## Reading a field back -/

theorem toNat_ofNat_byte {n : ℕ} (h : n < 256) : (UInt8.ofNat n).toNat = n :=
  UInt8.toNat_ofNat_of_lt' h

theorem reads_varintUpTo {n m k v : ℕ} (hv : v < 128 ^ (n + 1)) (hm : n < m) (hk : n < k) :
    Layout.Reads (Wire.varint m) v (varintUpTo k v) := by
  induction n generalizing m k v with
  | zero =>
    obtain ⟨m, rfl⟩ := Nat.exists_eq_succ_of_ne_zero hm.ne'
    obtain ⟨k, rfl⟩ := Nat.exists_eq_succ_of_ne_zero hk.ne'
    have hbyte : (UInt8.ofNat v).toNat = v := toNat_ofNat_byte (by omega)
    have hlast := reads_varint_last (n := m) (b := UInt8.ofNat v) (by omega)
    rw [varintUpTo, if_pos (by omega)]
    rwa [hbyte] at hlast
  | succ n ih =>
    obtain ⟨m, rfl⟩ := Nat.exists_eq_succ_of_ne_zero (Nat.ne_zero_of_lt hm)
    obtain ⟨k, rfl⟩ := Nat.exists_eq_succ_of_ne_zero (Nat.ne_zero_of_lt hk)
    rw [varintUpTo]
    by_cases hsmall : v < 128
    · have hbyte : (UInt8.ofNat v).toNat = v := toNat_ofNat_byte (by omega)
      have hlast := reads_varint_last (n := m) (b := UInt8.ofNat v) (by omega)
      rw [if_pos hsmall]
      rwa [hbyte] at hlast
    · have hbyte : (UInt8.ofNat (v % 128 + 128)).toNat = v % 128 + 128 :=
        toNat_ofNat_byte (by omega)
      have hrest : v / 128 < 128 ^ (n + 1) := by
        rw [Nat.div_lt_iff_lt_mul (by decide), ← pow_succ]
        exact hv
      have hmore := reads_varint_more (b := UInt8.ofNat (v % 128 + 128)) (by omega)
        (ih (m := m) (k := k) hrest (by omega) (by omega))
      have hvalue : v % 128 + 128 - 128 + 128 * (v / 128) = v := by omega
      rw [if_neg hsmall]
      rwa [hbyte, hvalue] at hmore

/-- A size is read back. -/
theorem reads_size {v : ℕ} (h : v ≤ maxSize) : Layout.Reads (Wire.varint 5) v (varint v) := by
  unfold maxSize at h
  exact reads_varintUpTo (n := 4) (by omega) (by omega) (by omega)

theorem little_leBytes (n v : ℕ) : little (leBytes n v) = v % 256 ^ n := by
  induction n generalizing v with
  | zero => simp [little, leBytes, Nat.mod_one]
  | succ n ih =>
    unfold leBytes little
    have hbyte : (UInt8.ofNat v).toNat = v % 256 := UInt8.toNat_ofNat'
    rw [ih, hbyte, Nat.pow_succ', Nat.mod_mul]

theorem length_leBytes (n v : ℕ) : (leBytes n v).length = n := by
  induction n generalizing v with
  | zero => rfl
  | succ n ih => rw [leBytes, List.length_cons, ih]

section

variable {σ α : Type} {fields : List (FieldParser σ)} {skip : Skip} {msg : σ} {number : ℕ}

theorem parse_stringField {set : Bytes → σ → σ} {s : Bytes}
    (h : Case fields (UInt8.ofNat (number * 8 + 2)) (.string number set))
    (hempty : set [] msg = msg) (hfits : s.length ≤ maxSize) (rest : Bytes) :
    parse fields skip msg (stringField number s ++ rest) =
      if Utf8 s then parse fields skip (set s msg) rest else none := by
  unfold stringField
  by_cases hnil : s = []
  · subst hnil
    rw [if_pos rfl, if_pos utf8_nil, hempty, List.nil_append]
  · have hbody := reads_delimited (reads_size hfits) hfits
    rw [if_neg hnil, bytesField, List.cons_append]
    by_cases hutf8 : Utf8 s
    · rw [if_pos hutf8, ← List.append_nil (varint s.length ++ s)]
      refine parse_reads h (hbody.bind ?_) rest
      rw [if_pos hutf8]
      exact .accept _
    · rw [if_neg hutf8, ← List.append_nil (varint s.length ++ s)]
      refine parse_refuses h (Refuses.bind hbody fun rest => ?_) rest
      rw [if_neg hutf8]
      rfl

theorem parse_boolField {set : Bool → σ → σ}
    (h : Case fields (UInt8.ofNat (number * 8)) (.bool number set)) (hfalse : set false msg = msg)
    (v : Bool) (rest : Bytes) :
    parse fields skip msg (boolField number v ++ rest) =
      parse fields skip (set v msg) rest := by
  cases v with
  | false =>
    rw [hfalse]
    rfl
  | true =>
    have hone : Layout.Reads (Wire.varint 10) 1 [1] := reads_varint_last (b := 1) (by decide)
    exact parse_reads h (hone.bind (.pure _)) rest

theorem parse_floatField {set : UInt32 → σ → σ}
    (h : Case fields (UInt8.ofNat (number * 8 + 5)) (.fixed32 number set))
    (hzero : set 0 msg = msg) (bits : UInt32) (rest : Bytes) :
    parse fields skip msg (floatField number bits ++ rest) =
      parse fields skip (set bits msg) rest := by
  unfold floatField
  by_cases hbits : bits = 0
  · subst hbits
    rw [if_pos rfl, hzero, List.nil_append]
  · have hblock := Layout.Reads.block (leBytes 4 bits.toNat)
    rw [length_leBytes] at hblock
    have hvalue : UInt32.ofNat (little (leBytes 4 bits.toNat)) = bits := by
      have hless : bits.toNat < 256 ^ 4 := bits.toNat_lt
      rw [little_leBytes, Nat.mod_eq_of_lt hless, UInt32.ofNat_toNat]
    rw [if_neg hbits, ← List.append_nil (leBytes 4 bits.toNat)]
    refine parse_reads h (hblock.bind ?_) rest
    rw [hvalue]
    exact .pure _

theorem parse_bytesField {sub : Bytes → Option α} {add : α → σ → σ} {text : Bytes}
    (h : Case fields (UInt8.ofNat (number * 8 + 2)) (.message number sub add))
    (hfits : text.length ≤ maxSize) (rest : Bytes) :
    parse fields skip msg (bytesField number text ++ rest) =
      (sub text).bind fun part => parse fields skip (add part msg) rest := by
  have hbody := reads_delimited (reads_size hfits) hfits
  rw [bytesField, List.cons_append, ← List.append_nil (varint text.length ++ text)]
  cases hsub : sub text with
  | none =>
    refine parse_refuses h (Refuses.bind hbody fun rest => ?_) rest
    rw [hsub]
    rfl
  | some part =>
    refine parse_reads h (hbody.bind ?_) rest
    rw [hsub]
    exact .accept _

end

/-! ## Reading a message back -/

theorem length_le_stringField (number : ℕ) (s : Bytes) :
    s.length ≤ (stringField number s).length := by
  unfold stringField bytesField
  split
  · rename_i hnil
    rw [hnil]
  · rw [List.length_append]
    exact Nat.le_add_left _ _

/-- The texts of a message of the server. -/
def ServerMessage.texts : ServerMessage → List Bytes
  | login _ message => [message]
  | chat sender message => [sender, message]
  | roomEnter _ message roomName => [message, roomName]
  | roomLeave _ => []
  | roomUserEntered accountId | roomUserLeft accountId => [accountId]
  | moveBroadcast actors => actors.map MovedActor.accountId

section

variable {skip : Skip}

/-- The last field of a message is a text. -/
theorem parse_lastString {σ : Type} {fields : List (FieldParser σ)} {msg : σ} {number : ℕ}
    {set : Bytes → σ → σ} {s : Bytes}
    (h : Case fields (UInt8.ofNat (number * 8 + 2)) (.string number set))
    (hempty : set [] msg = msg) (hfits : s.length ≤ maxSize) :
    parse fields skip msg (stringField number s) =
      if Utf8 s then some (set s msg) else none := by
  have hall : parse fields skip msg (stringField number s ++ []) = _ :=
    parse_stringField h hempty hfits []
  rwa [List.append_nil, parse_nil] at hall

theorem parse_movedActor (actor : MovedActor) (hfits : actor.accountId.length ≤ maxSize) :
    parse MovedActor.fields skip ⟨[], 0, 0⟩ actor.serialize =
      if Utf8 actor.accountId then some actor else none := by
  have haccount : Case MovedActor.fields (UInt8.ofNat (1 * 8 + 2))
      (.string 1 fun str pkt => { pkt with accountId := str }) := ⟨by decide, rfl⟩
  have hx : Case MovedActor.fields (UInt8.ofNat (2 * 8 + 5))
      (.fixed32 2 fun bits pkt => { pkt with x := bits }) := ⟨by decide, rfl⟩
  have hy : Case MovedActor.fields (UInt8.ofNat (3 * 8 + 5))
      (.fixed32 3 fun bits pkt => { pkt with y := bits }) := ⟨by decide, rfl⟩
  unfold MovedActor.serialize
  rw [List.append_assoc, parse_stringField haccount rfl hfits, parse_floatField hx rfl,
    ← List.append_nil (floatField 3 actor.y), parse_floatField hy rfl, parse_nil]

/-- The actors of a snapshot, behind those that were read before. -/
theorem parse_actors (actors before : List MovedActor)
    (hfits : (actors.map fun actor => bytesField 1 actor.serialize).flatten.length ≤ maxSize) :
    parse (SMoveBroadcast.fields skip) skip ⟨before⟩
        (actors.map fun actor => bytesField 1 actor.serialize).flatten =
      if ∀ text ∈ actors.map MovedActor.accountId, Utf8 text then some ⟨before ++ actors⟩
      else none := by
  have hcase : Case (SMoveBroadcast.fields skip) (UInt8.ofNat (1 * 8 + 2))
      (.message 1 (parse MovedActor.fields skip ⟨[], 0, 0⟩) fun actor pkt =>
        { pkt with actors := pkt.actors ++ [actor] }) := ⟨by decide, rfl⟩
  induction actors generalizing before with
  | nil => simp
  | cons actor actors ih =>
    rw [List.map_cons, List.flatten_cons, List.length_append] at hfits
    have hserialized : actor.serialize.length ≤ maxSize := by
      unfold bytesField at hfits
      rw [List.length_append] at hfits
      omega
    have haccount : actor.accountId.length ≤ maxSize := by
      refine (length_le_stringField 1 actor.accountId).trans (le_trans ?_ hserialized)
      unfold MovedActor.serialize
      rw [List.append_assoc, List.length_append]
      exact Nat.le_add_right _ _
    rw [List.map_cons, List.flatten_cons, parse_bytesField hcase hserialized,
      parse_movedActor actor haccount, List.map_cons]
    by_cases hutf8 : Utf8 actor.accountId
    · rw [if_pos hutf8, Option.bind_some, ih _ (by omega), List.append_assoc]
      refine if_congr ?_ rfl rfl
      rw [List.forall_mem_cons]
      exact ⟨fun h => ⟨hutf8, h⟩, fun h => h.2⟩
    · have hnot : ¬ ∀ text ∈ actor.accountId :: actors.map MovedActor.accountId, Utf8 text :=
        fun h => hutf8 (h _ List.mem_cons_self)
      rw [if_neg hutf8, if_neg hnot, Option.bind_none]

theorem parse_sLogin (success : Bool) {message : Bytes} (h : message.length ≤ maxSize) :
    parse SLogin.fields skip ⟨false, []⟩ (boolField 1 success ++ stringField 2 message) =
      if Utf8 message then some ⟨success, message⟩ else none := by
  have hsuccess : Case SLogin.fields (UInt8.ofNat (1 * 8))
      (.bool 1 fun flag pkt => { pkt with success := flag }) := ⟨by decide, rfl⟩
  have hmessage : Case SLogin.fields (UInt8.ofNat (2 * 8 + 2))
      (.string 2 fun str pkt => { pkt with message := str }) := ⟨by decide, rfl⟩
  rw [parse_boolField hsuccess rfl, parse_lastString hmessage rfl h]

theorem parse_sChat {sender message : Bytes} (h : sender.length ≤ maxSize)
    (h' : message.length ≤ maxSize) :
    parse SChat.fields skip ⟨[], []⟩ (stringField 1 sender ++ stringField 2 message) =
      if Utf8 sender then if Utf8 message then some ⟨sender, message⟩ else none else none := by
  have hsender : Case SChat.fields (UInt8.ofNat (1 * 8 + 2))
      (.string 1 fun str pkt => { pkt with sender := str }) := ⟨by decide, rfl⟩
  have hmessage : Case SChat.fields (UInt8.ofNat (2 * 8 + 2))
      (.string 2 fun str pkt => { pkt with message := str }) := ⟨by decide, rfl⟩
  rw [parse_stringField hsender rfl h, parse_lastString hmessage rfl h']

theorem parse_sRoomEnter (success : Bool) {message roomName : Bytes}
    (h : message.length ≤ maxSize) (h' : roomName.length ≤ maxSize) :
    parse SRoomEnter.fields skip ⟨false, [], []⟩
        (boolField 1 success ++ stringField 2 message ++ stringField 3 roomName) =
      if Utf8 message then
        if Utf8 roomName then some ⟨success, message, roomName⟩ else none
      else none := by
  have hsuccess : Case SRoomEnter.fields (UInt8.ofNat (1 * 8))
      (.bool 1 fun flag pkt => { pkt with success := flag }) := ⟨by decide, rfl⟩
  have hmessage : Case SRoomEnter.fields (UInt8.ofNat (2 * 8 + 2))
      (.string 2 fun str pkt => { pkt with message := str }) := ⟨by decide, rfl⟩
  have hroomName : Case SRoomEnter.fields (UInt8.ofNat (3 * 8 + 2))
      (.string 3 fun str pkt => { pkt with roomName := str }) := ⟨by decide, rfl⟩
  rw [List.append_assoc, parse_boolField hsuccess rfl, parse_stringField hmessage rfl h,
    parse_lastString hroomName rfl h']

theorem parse_sRoomLeave (success : Bool) :
    parse SRoomLeave.fields skip ⟨false⟩ (boolField 1 success) = some ⟨success⟩ := by
  have hsuccess : Case SRoomLeave.fields (UInt8.ofNat (1 * 8))
      (.bool 1 fun flag pkt => { pkt with success := flag }) := ⟨by decide, rfl⟩
  rw [← List.append_nil (boolField 1 success), parse_boolField hsuccess rfl, parse_nil]

theorem parse_sRoomUser {accountId : Bytes} (h : accountId.length ≤ maxSize) :
    parse SRoomUser.fields skip ⟨[]⟩ (stringField 1 accountId) =
      if Utf8 accountId then some ⟨accountId⟩ else none := by
  have haccount : Case SRoomUser.fields (UInt8.ofNat (1 * 8 + 2))
      (.string 1 fun str pkt => { pkt with accountId := str }) := ⟨by decide, rfl⟩
  exact parse_lastString haccount rfl h

/-- **A client reads back** what the server serializes, unless a text in it is not UTF-8; then it
refuses the whole message. -/
theorem parse_serialize (skip : Skip) (message : ServerMessage)
    (hfits : message.serialize.length ≤ maxSize) :
    ServerMessage.parse skip message.packetId message.serialize =
      if ∀ text ∈ message.texts, Utf8 text then some message else none := by
  cases message with
  | login success message =>
    have hmessage : message.length ≤ maxSize := by
      have := length_le_stringField 2 message
      simp only [ServerMessage.serialize, List.length_append] at hfits
      omega
    change (parse SLogin.fields skip _ (_ ++ _)).map _ = _
    rw [parse_sLogin success hmessage]
    by_cases hutf8 : Utf8 message <;> simp [ServerMessage.texts, hutf8]
  | chat sender message =>
    have hsender : sender.length ≤ maxSize ∧ message.length ≤ maxSize := by
      have := length_le_stringField 1 sender
      have := length_le_stringField 2 message
      simp only [ServerMessage.serialize, List.length_append] at hfits
      omega
    change (parse SChat.fields skip _ (_ ++ _)).map _ = _
    rw [parse_sChat hsender.1 hsender.2]
    by_cases hutf8 : Utf8 sender <;> by_cases hutf8' : Utf8 message <;>
      simp [ServerMessage.texts, hutf8, hutf8']
  | roomEnter success message roomName =>
    have hmessage : message.length ≤ maxSize ∧ roomName.length ≤ maxSize := by
      have := length_le_stringField 2 message
      have := length_le_stringField 3 roomName
      simp only [ServerMessage.serialize, List.length_append] at hfits
      omega
    change (parse SRoomEnter.fields skip _ (_ ++ _ ++ _)).map _ = _
    rw [parse_sRoomEnter success hmessage.1 hmessage.2]
    by_cases hutf8 : Utf8 message <;> by_cases hutf8' : Utf8 roomName <;>
      simp [ServerMessage.texts, hutf8, hutf8']
  | roomLeave success =>
    change (parse SRoomLeave.fields skip _ (boolField 1 success)).map _ = _
    rw [parse_sRoomLeave]
    simp [ServerMessage.texts]
  | roomUserEntered accountId =>
    have haccount := (length_le_stringField 1 accountId).trans hfits
    change (parse SRoomUser.fields skip _ (stringField 1 accountId)).map _ = _
    rw [parse_sRoomUser haccount]
    by_cases hutf8 : Utf8 accountId <;> simp [ServerMessage.texts, hutf8]
  | roomUserLeft accountId =>
    have haccount := (length_le_stringField 1 accountId).trans hfits
    change (parse SRoomUser.fields skip _ (stringField 1 accountId)).map _ = _
    rw [parse_sRoomUser haccount]
    by_cases hutf8 : Utf8 accountId <;> simp [ServerMessage.texts, hutf8]
  | moveBroadcast actors =>
    change (parse (SMoveBroadcast.fields skip) skip _ (actors.map _).flatten).map _ = _
    rw [parse_actors actors [] hfits]
    by_cases hutf8 : ∀ text ∈ actors.map MovedActor.accountId, Utf8 text
    · rw [if_pos hutf8]
      exact (if_pos hutf8).symm
    · rw [if_neg hutf8]
      exact (if_neg hutf8).symm

theorem parse_cLogin {accountId password : Bytes} (h : accountId.length ≤ maxSize)
    (h' : password.length ≤ maxSize) :
    parse CLogin.fields skip ⟨[], []⟩ (stringField 1 accountId ++ stringField 2 password) =
      if Utf8 accountId then if Utf8 password then some ⟨accountId, password⟩ else none
      else none := by
  have haccount : Case CLogin.fields (UInt8.ofNat (1 * 8 + 2))
      (.string 1 fun str pkt => { pkt with accountId := str }) := ⟨by decide, rfl⟩
  have hpassword : Case CLogin.fields (UInt8.ofNat (2 * 8 + 2))
      (.string 2 fun str pkt => { pkt with password := str }) := ⟨by decide, rfl⟩
  rw [parse_stringField haccount rfl h, parse_lastString hpassword rfl h']

theorem parse_cMove (x y : UInt32) :
    parse CMove.fields skip ⟨0, 0⟩ (floatField 1 x ++ floatField 2 y) = some ⟨x, y⟩ := by
  have hx : Case CMove.fields (UInt8.ofNat (1 * 8 + 5))
      (.fixed32 1 fun bits pkt => { pkt with x := bits }) := ⟨by decide, rfl⟩
  have hy : Case CMove.fields (UInt8.ofNat (2 * 8 + 5))
      (.fixed32 2 fun bits pkt => { pkt with y := bits }) := ⟨by decide, rfl⟩
  rw [parse_floatField hx rfl, ← List.append_nil (floatField 2 y), parse_floatField hy rfl,
    parse_nil]

/-- **The handlers read back** what a client serializes, unless a text in it is not UTF-8. -/
theorem registered_serialize (skip : Skip) (message : ClientMessage)
    (hfits : message.serialize.length ≤ maxSize) :
    registered skip (message.packetId.toUInt16, message.serialize) =
      some (if ∀ text ∈ message.texts, Utf8 text then message.packet else message.refused) := by
  cases message with
  | login pkt =>
    have hboth : pkt.accountId.length ≤ maxSize ∧ pkt.password.length ≤ maxSize := by
      have := length_le_stringField 1 pkt.accountId
      have := length_le_stringField 2 pkt.password
      simp only [ClientMessage.serialize, List.length_append] at hfits
      omega
    change some (ClientPacket.login ((parse CLogin.fields skip _ (_ ++ _)).map _)) = _
    rw [parse_cLogin hboth.1 hboth.2]
    by_cases hutf8 : Utf8 pkt.accountId <;> by_cases hutf8' : Utf8 pkt.password <;>
      simp [ClientMessage.texts, ClientMessage.packet, ClientMessage.refused, hutf8, hutf8']
  | chat pkt =>
    have hmessage := (length_le_stringField 1 pkt.message).trans hfits
    have hcase : Case CChat.fields (UInt8.ofNat (1 * 8 + 2))
        (.string 1 fun str pkt => { pkt with message := str }) := ⟨by decide, rfl⟩
    change some (ClientPacket.chat ((parse CChat.fields skip _ (stringField 1 _)).map _)) = _
    rw [parse_lastString hcase rfl hmessage]
    by_cases hutf8 : Utf8 pkt.message <;>
      simp [ClientMessage.texts, ClientMessage.packet, ClientMessage.refused, hutf8]
  | roomEnter pkt =>
    have hroomName := (length_le_stringField 1 pkt.roomName).trans hfits
    have hcase : Case CRoomEnter.fields (UInt8.ofNat (1 * 8 + 2))
        (.string 1 fun str pkt => { pkt with roomName := str }) := ⟨by decide, rfl⟩
    change some (ClientPacket.roomEnter
      ((parse CRoomEnter.fields skip _ (stringField 1 _)).map _)) = _
    rw [parse_lastString hcase rfl hroomName]
    by_cases hutf8 : Utf8 pkt.roomName <;>
      simp [ClientMessage.texts, ClientMessage.packet, ClientMessage.refused, hutf8]
  | move pkt =>
    change some (ClientPacket.move ((parse CMove.fields skip _ (_ ++ _)).map _)) = _
    rw [parse_cMove]
    simp [ClientMessage.texts, ClientMessage.packet]
  | roomLeave => rfl
  | ping clientTimestampMs =>
    change some (ClientPacket.ping (leBytes 8 clientTimestampMs.toNat)) = _
    simp [ClientMessage.texts, ClientMessage.packet]
  | roomList => rfl
  | ready => rfl

end

/-! ## What a handler reads is UTF-8 -/

/-- A text of the source is UTF-8. -/
theorem utf8_literal (text : String) : Utf8 (utf8 text) := by
  have hbytes : (utf8 text).toByteArray = text.toByteArray := by
    apply ByteArray.ext
    rw [List.data_toByteArray]
    exact Array.toArray_toList
  unfold Utf8
  rw [hbytes]
  exact text.isValidUTF8

/-- The texts a handler takes out of its packet. -/
def ClientPacket.texts : ClientPacket → List Bytes
  | login (some password) => [password]
  | chat (some message) => [message]
  | roomEnter (some roomName) => [roomName]
  | login none | chat none | roomEnter none | roomLeave | move _ | ping _ | roomList | ready => []

section

variable {skip : Skip} {payload : Bytes}

theorem utf8_password {pkt : CLogin} (h : parse CLogin.fields skip ⟨[], []⟩ payload = some pkt) :
    Utf8 pkt.password := by
  refine parse_invariant (I := fun pkt => Utf8 pkt.password) ?_ h utf8_nil
  intro f hf msg text msg' rest hread hI
  rcases List.mem_pair.mp hf with rfl | rfl
  · obtain ⟨s, -, rfl⟩ := string_read hread
    exact hI
  · obtain ⟨s, hs, rfl⟩ := string_read hread
    exact hs

theorem utf8_message {pkt : CChat} (h : parse CChat.fields skip ⟨[]⟩ payload = some pkt) :
    Utf8 pkt.message := by
  refine parse_invariant (I := fun pkt => Utf8 pkt.message) ?_ h utf8_nil
  intro f hf msg text msg' rest hread _
  obtain rfl := List.mem_singleton.mp hf
  obtain ⟨s, hs, rfl⟩ := string_read hread
  exact hs

theorem utf8_roomName {pkt : CRoomEnter}
    (h : parse CRoomEnter.fields skip ⟨[]⟩ payload = some pkt) : Utf8 pkt.roomName := by
  refine parse_invariant (I := fun pkt => Utf8 pkt.roomName) ?_ h utf8_nil
  intro f hf msg text msg' rest hread _
  obtain rfl := List.mem_singleton.mp hf
  obtain ⟨s, hs, rfl⟩ := string_read hread
  exact hs

/-- **What a handler takes out of a payload** is UTF-8, whatever bytes came. -/
theorem utf8_of_registered {id : UInt16} {packet : ClientPacket}
    (h : registered skip (id, payload) = some packet) : ∀ text ∈ packet.texts, Utf8 text := by
  unfold registered at h
  split_ifs at h with hlogin hchat henter
  · obtain rfl := Option.some.inj h
    cases hparse : parse CLogin.fields skip ⟨[], []⟩ payload with
    | none => simp [ClientPacket.texts]
    | some pkt => simpa [ClientPacket.texts] using utf8_password hparse
  · obtain rfl := Option.some.inj h
    cases hparse : parse CChat.fields skip ⟨[]⟩ payload with
    | none => simp [ClientPacket.texts]
    | some pkt => simpa [ClientPacket.texts] using utf8_message hparse
  · obtain rfl := Option.some.inj h
    cases hparse : parse CRoomEnter.fields skip ⟨[]⟩ payload with
    | none => simp [ClientPacket.texts]
    | some pkt => simpa [ClientPacket.texts] using utf8_roomName hparse
  all_goals
    obtain rfl := Option.some.inj h
    exact fun text htext => absurd htext (by simp [ClientPacket.texts])

end

end RealtimeServer
