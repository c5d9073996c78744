import RealtimeServer.Packet.RecvBuffer

/-!
# Packets and their bytes

Model of `PacketID` (`Packet/PacketID.h`) and of the messages of `Packet.proto` as
`Packet.pb.cc` writes them: a field that holds its default is left out, a string is a tag, a varint
length and its bytes, a `float` is kept as the 32 bits that are written for it.

A client packet is modelled from the point where its handler has parsed it (`ClientPacket`); `none`
is a payload that `ParseFromArray` refuses.
-/

namespace RealtimeServer

/-- The bytes of a string literal. -/
def utf8 (s : String) : Bytes := s.toUTF8.data.toList

/-- `v & 0xFF`, `(v >> 8) & 0xFF`. -/
def u16Bytes (v : UInt16) : Bytes := [v.toUInt8, (v >>> 8).toUInt8]

/-- The low `n` bytes of `v`, the lowest first. -/
def leBytes : Nat → Nat → Bytes
  | 0, _ => []
  | n + 1, v => UInt8.ofNat v :: leBytes n (v / 256)

/-- `PacketID`. -/
inductive PacketID
  | cLogin | sLogin | cChat | sChat | cRoomEnter | sRoomEnter | cRoomLeave | sRoomLeave
  | sRoomUserEntered | sRoomUserLeft | cMove | sMoveBroadcast | cPing | sPong
  | cRoomList | sRoomList | cReady | sRoomState | sGameStart | sGameResult
  deriving DecidableEq

/-- The value of the enumerator: they are numbered from 1. -/
def PacketID.toUInt16 (id : PacketID) : UInt16 := UInt16.ofNat (id.ctorIdx + 1)

/-- A packet as it goes to the socket: header, then payload. `packetSize` is a `uint16_t`. -/
def frame (packetId : UInt16) (payload : Bytes) : Bytes :=
  u16Bytes (UInt16.ofNat payload.length) ++ u16Bytes packetId ++ payload

theorem toUInt16_injective {id id' : PacketID} (h : id.toUInt16 = id'.toUInt16) : id = id' := by
  have hsmall : ∀ id : PacketID, id.ctorIdx + 1 < 2 ^ 16 := by
    intro id
    cases id <;> decide
  have hidx : id.ctorIdx = id'.ctorIdx := by
    have htoNat := congrArg UInt16.toNat h
    unfold PacketID.toUInt16 at htoNat
    rw [UInt16.toNat_ofNat_of_lt' (hsmall id), UInt16.toNat_ofNat_of_lt' (hsmall id')] at htoNat
    exact Nat.succ.inj htoNat
  rw [← PacketID.ofNat_ctorIdx id, hidx, PacketID.ofNat_ctorIdx]

/-- The two bytes of a number are read back as it. -/
theorem u16le_u16Bytes (v : UInt16) : u16le v.toUInt8 (v >>> 8).toUInt8 = v := by
  have hlow : v.toUInt8.toNat = v.toNat % 256 := by simp
  have hhigh : (v >>> 8).toUInt8.toNat = v.toNat / 256 := by
    have := v.toNat_lt
    simp only [UInt16.toNat_toUInt8, UInt16.toNat_shiftRight]
    show v.toNat >>> 8 % 256 = v.toNat / 256
    rw [Nat.shiftRight_eq_div_pow]
    omega
  have hfits : (v.toNat / 256) <<< 8 < 2 ^ 16 := by
    have := v.toNat_lt
    rw [Nat.shiftLeft_eq]
    omega
  unfold u16le
  apply UInt16.toNat_inj.mp
  rw [UInt16.toNat_or, UInt16.toNat_shiftLeft, UInt8.toNat_toUInt16, UInt8.toNat_toUInt16, hhigh,
    hlow, Nat.or_comm]
  show ((v.toNat / 256) <<< 8) % 2 ^ 16 ||| v.toNat % 256 = v.toNat
  rw [Nat.mod_eq_of_lt hfits, ← Nat.shiftLeft_add_eq_or_of_lt (by omega), Nat.shiftLeft_eq]
  omega

/-- The header of a frame: the length of its payload, as far as 16 bits hold it. -/
theorem header_frame (packetId : UInt16) (payload : Bytes) :
    PacketHeader.ofBytes (frame packetId payload) = ⟨UInt16.ofNat payload.length, packetId⟩ := by
  show PacketHeader.mk (u16le _ _) (u16le _ _) = _
  rw [u16le_u16Bytes, u16le_u16Bytes]

theorem length_frame (packetId : UInt16) (payload : Bytes) :
    (frame packetId payload).length = headerSize + payload.length := by
  unfold frame u16Bytes headerSize
  simp only [List.cons_append, List.nil_append, List.length_cons]
  omega

theorem payload_frame (packetId : UInt16) (payload : Bytes) :
    (frame packetId payload).drop headerSize = payload := rfl

/-- A frame says which packet it is, and with what payload. -/
theorem frame_inj {id id' : PacketID} {payload payload' : Bytes}
    (h : frame id.toUInt16 payload = frame id'.toUInt16 payload') :
    id = id' ∧ payload = payload' := by
  constructor
  · have hheader := congrArg PacketHeader.ofBytes h
    rw [header_frame, header_frame] at hheader
    exact toUInt16_injective (congrArg PacketHeader.packetId hheader)
  · rw [← payload_frame id.toUInt16 payload, h, payload_frame]

/-! ## Protobuf -/

/-- A base-128 varint of at most `n` bytes. -/
def varintUpTo : Nat → Nat → Bytes
  | 0, _ => []
  | n + 1, v =>
    if v < 128 then [UInt8.ofNat v] else UInt8.ofNat (v % 128 + 128) :: varintUpTo n (v / 128)

/-- A varint of a 64-bit value. -/
def varint (v : Nat) : Bytes := varintUpTo 10 v

/-- A length-delimited field. -/
def bytesField (number : Nat) (value : Bytes) : Bytes :=
  UInt8.ofNat (number * 8 + 2) :: varint value.length ++ value

/-- A `string` field, left out when empty. -/
def stringField (number : Nat) (value : Bytes) : Bytes :=
  if value = [] then [] else bytesField number value

/-- A `bool` field, left out when false. -/
def boolField (number : Nat) (value : Bool) : Bytes :=
  if value then [UInt8.ofNat (number * 8), 1] else []

/-- A `float` field, left out when its bits are zero. -/
def floatField (number : Nat) (bits : UInt32) : Bytes :=
  if bits = 0 then [] else UInt8.ofNat (number * 8 + 5) :: leBytes 4 bits.toNat

/-- `MovedActor`. -/
structure MovedActor where
  accountId : Bytes
  x : UInt32
  y : UInt32

def MovedActor.serialize (actor : MovedActor) : Bytes :=
  stringField 1 actor.accountId ++ floatField 2 actor.x ++ floatField 3 actor.y

/-- The messages the server sends. -/
inductive ServerMessage
  | login (success : Bool) (message : Bytes)
  | chat (sender message : Bytes)
  | roomEnter (success : Bool) (message roomName : Bytes)
  | roomLeave (success : Bool)
  | roomUserEntered (accountId : Bytes)
  | roomUserLeft (accountId : Bytes)
  | moveBroadcast (actors : List MovedActor)

namespace ServerMessage

/-- `PacketTraits<T>::ID`. -/
def packetId : ServerMessage → PacketID
  | login .. => .sLogin
  | chat .. => .sChat
  | roomEnter .. => .sRoomEnter
  | roomLeave .. => .sRoomLeave
  | roomUserEntered .. => .sRoomUserEntered
  | roomUserLeft .. => .sRoomUserLeft
  | moveBroadcast .. => .sMoveBroadcast

/-- `SerializeToArray`; its length is `ByteSizeLong()`. -/
def serialize : ServerMessage → Bytes
  | login success message => boolField 1 success ++ stringField 2 message
  | chat sender message => stringField 1 sender ++ stringField 2 message
  | roomEnter success message roomName =>
    boolField 1 success ++ stringField 2 message ++ stringField 3 roomName
  | roomLeave success => boolField 1 success
  | roomUserEntered accountId => stringField 1 accountId
  | roomUserLeft accountId => stringField 1 accountId
  | moveBroadcast actors => (actors.map fun actor => bytesField 1 actor.serialize).flatten

end ServerMessage

/-- A packet a client sends, as its handler reads it. -/
inductive ClientPacket
  /-- `C_LOGIN`: the field `password`, which holds the session token. -/
  | login (password : Option Bytes)
  | chat (message : Option Bytes)
  | roomEnter (roomName : Option Bytes)
  | roomLeave
  | move (position : Option (UInt32 × UInt32))
  | ping (payload : Bytes)
  | roomList
  | ready
  deriving DecidableEq

end RealtimeServer
