import RealtimeServer.Game.Membership
import RealtimeServer.Lib.Reader

/-!
# The room list on the wire

The layout of `S_ROOM_LIST` stands in two places: over its writer, in `Handle_C_ROOM_LIST`
(`Packet/Logic/Logic.cpp`), and over its number, in `Packet/PacketID.h`, where clients are told what
they get. Each is a reader here, and a packet of the handler is read back with both.

* `roomListData_eq`: what the handler writes, room by room. `reads_roomList`: read back by the
  handler's layout it is the list, with the counts as 16 bits hold them (`RoomInfo.carried`).
* `sent_roomList`: when it is sent.
* **`roomList_read_back`**: the two layouts, and when a packet of the handler gives the list back by
  them.
-/

namespace RealtimeServer

open Unordered Guarded Layout Signed

/-! ## The two layouts -/

/-- `uint16`. -/
def readU16 : Reader UInt8 UInt16 := do
  let lo ← item
  let hi ← item
  pure (u16le lo hi)

/-- `uint8 state`. -/
def RoomState.ofUInt8 (v : UInt8) : Option RoomState :=
  if v = 0 then some .waiting else if v = 1 then some .inGame else if v = 2 then some .finished
  else none

/-- `[uint16 nameLen][name bytes][uint16 playerCount][uint16 maxPlayers][uint8 state]`. -/
def readRoomInfo : Reader UInt8 RoomInfo := do
  let nameLen ← readU16
  let name ← block nameLen.toNat
  let playerCount ← readU16
  let maxPlayers ← readU16
  let state ← item
  let state ← accept (RoomState.ofUInt8 state)
  pure ⟨name, playerCount.toNat, maxPlayers.toNat, state⟩

/-- The layout the handler declares: `[uint16 count]`, then the rooms. -/
def readRoomList : Reader UInt8 (List RoomInfo) := do
  let count ← readU16
  repeated readRoomInfo count.toNat

/-- What the published layout says of a room. -/
structure PublishedRoom where
  name : Bytes
  playerCount : Int
  maxPlayers : Int

/-- `[uint16 nameLen][char* name][uint16 playerCount][uint16 maxPlayers]`. -/
def readPublishedRoom : Reader UInt8 PublishedRoom := do
  let nameLen ← readU16
  let name ← block nameLen.toNat
  let playerCount ← readU16
  let maxPlayers ← readU16
  pure ⟨name, playerCount.toNat, maxPlayers.toNat⟩

/-- The layout over `S_ROOM_LIST` in `PacketID.h`. -/
def readPublishedRoomList : Reader UInt8 (List PublishedRoom) := do
  let count ← readU16
  repeated readPublishedRoom count.toNat

/-- What of a room is published. -/
def RoomInfo.published (info : RoomInfo) : PublishedRoom :=
  ⟨info.name, info.playerCount, info.maxPlayers⟩

/-! ## What the handler writes -/

/-- `writeU16(static_cast<uint16_t>(..))`. -/
def writeU16 (v : Int) : Bytes := u16Bytes (UInt16.ofInt v)

/-- A room in the packet. -/
def RoomInfo.write (info : RoomInfo) : Bytes :=
  writeU16 info.name.length ++ info.name ++ writeU16 info.playerCount ++ writeU16 info.maxPlayers ++
    [info.state.toUInt8]

/-- The payload of `S_ROOM_LIST`. -/
def roomListData (rooms : List RoomInfo) : Bytes :=
  writeU16 rooms.length ++ (rooms.map RoomInfo.write).flatten

/-- A count as 16 bits hold it. -/
def carried (v : Int) : Int := (UInt16.ofInt v).toNat

/-- A room as the packet carries it. -/
def RoomInfo.carried (info : RoomInfo) : RoomInfo :=
  { info with
    playerCount := RealtimeServer.carried info.playerCount
    maxPlayers := RealtimeServer.carried info.maxPlayers }

/-- The counts of the room are `uint16`s. -/
def RoomInfo.Carries (info : RoomInfo) : Prop :=
  (0 ≤ info.playerCount ∧ info.playerCount < 2 ^ 16) ∧
    (0 ≤ info.maxPlayers ∧ info.maxPlayers < 2 ^ 16)

instance (info : RoomInfo) : Decidable info.Carries := by
  unfold RoomInfo.Carries; infer_instance

theorem handleCRoomList_eq (env : Env) (s : SessionRef) (srv : Server) :
    (srv.handleCRoomList env s).world =
      srv.world.sendRaw env s .sRoomList
        (Server.passed (roomListData (srv.rooms.getRoomInfoList env))) := rfl

theorem length_writeU16 (v : Int) : (writeU16 v).length = 2 := rfl

theorem length_write (info : RoomInfo) : info.write.length = 7 + info.name.length := by
  unfold RoomInfo.write
  simp only [List.length_append, length_writeU16, List.length_singleton]
  omega

theorem length_roomListData (rooms : List RoomInfo) : (roomListData rooms).length =
    2 + (rooms.map fun info => 7 + info.name.length).sum := by
  unfold roomListData
  rw [List.length_append, length_writeU16, List.length_flatten, List.map_map]
  congr 2
  exact List.map_congr_left fun info _ => length_write info

/-- A name, and the number of rooms, are not longer than the packet. -/
theorem le_roomListData (rooms : List RoomInfo) : rooms.length ≤ (roomListData rooms).length ∧
    ∀ info ∈ rooms, info.name.length ≤ (roomListData rooms).length := by
  rw [length_roomListData]
  induction rooms with
  | nil => simp
  | cons info rooms ih =>
    obtain ⟨hcount, hname⟩ := ih
    rw [List.map_cons, List.sum_cons, List.length_cons]
    refine ⟨by omega, fun info' hinfo => ?_⟩
    rcases List.mem_cons.mp hinfo with rfl | hinfo
    · omega
    · have := hname info' hinfo
      omega

/-! ## Reading it back -/

theorem toNat_ofInt (v : Int) : ((UInt16.ofInt v).toNat : Int) = v % 2 ^ 16 := by
  unfold UInt16.ofInt
  rw [UInt16.toNat_ofNat']
  omega

theorem carried_eq_iff {v : Int} : carried v = v ↔ 0 ≤ v ∧ v < 2 ^ 16 := by
  unfold carried
  rw [toNat_ofInt]
  omega

theorem carried_iff {info : RoomInfo} : info.carried = info ↔ info.Carries := by
  unfold RoomInfo.Carries
  rw [← carried_eq_iff, ← carried_eq_iff]
  constructor
  · intro h
    exact ⟨congrArg RoomInfo.playerCount h, congrArg RoomInfo.maxPlayers h⟩
  · rintro ⟨hcount, hmax⟩
    unfold RoomInfo.carried
    rw [hcount, hmax]

theorem ofUInt8_toUInt8 (state : RoomState) : RoomState.ofUInt8 state.toUInt8 = some state := by
  cases state <;> rfl

theorem reads_u16 (v : UInt16) : Reads readU16 v (u16Bytes v) := by
  have h : Reads readU16 (u16le v.toUInt8 (v >>> 8).toUInt8)
      ([v.toUInt8] ++ ([(v >>> 8).toUInt8] ++ [])) := by
    unfold readU16
    exact (Reads.item _).bind ((Reads.item _).bind (Reads.pure _))
  rwa [u16le_u16Bytes] at h

/-- A length below `2 ^ 16` is read back as it is. -/
theorem toNat_length {n : ℕ} (h : n < 2 ^ 16) : (UInt16.ofInt n).toNat = n := by
  have := toNat_ofInt n
  omega

theorem reads_roomInfo {info : RoomInfo} (hname : info.name.length < 2 ^ 16) :
    Reads readRoomInfo info.carried info.write := by
  have hblock : Reads (block (UInt16.ofInt info.name.length).toNat) info.name info.name := by
    rw [toNat_length hname]
    exact Reads.block info.name
  have hstate : Reads (accept (RoomState.ofUInt8 info.state.toUInt8)) info.state
      ([] : Bytes) := by
    rw [ofUInt8_toUInt8]
    exact Reads.accept info.state
  have hwrite : info.write = writeU16 info.name.length ++ (info.name ++
      (writeU16 info.playerCount ++ (writeU16 info.maxPlayers ++
        ([info.state.toUInt8] ++ ([] ++ []))))) := by
    unfold RoomInfo.write
    simp only [List.append_assoc, List.append_nil]
  rw [hwrite]
  unfold readRoomInfo
  exact (reads_u16 _).bind (hblock.bind ((reads_u16 _).bind ((reads_u16 _).bind
    ((Reads.item _).bind (hstate.bind (Reads.pure _))))))

/-- **The packet by the handler's layout** is the list, as 16 bits hold its counts. -/
theorem reads_roomList {rooms : List RoomInfo} (hcount : rooms.length < 2 ^ 16)
    (hname : ∀ info ∈ rooms, info.name.length < 2 ^ 16) :
    Reads readRoomList (rooms.map RoomInfo.carried) (roomListData rooms) := by
  have hrooms : Reads (repeated readRoomInfo (UInt16.ofInt rooms.length).toNat)
      (rooms.map RoomInfo.carried) (rooms.map RoomInfo.write).flatten := by
    rw [toNat_length hcount]
    exact Reads.repeated fun info hinfo => reads_roomInfo (hname info hinfo)
  exact (reads_u16 (UInt16.ofInt rooms.length)).bind hrooms

theorem sized_u16 : Sized 0 readU16 fun _ => 2 :=
  Sized.item.bind fun _ => Sized.item.bind fun _ => Sized.pure rfl

theorem sized_roomInfo : Sized 0 readRoomInfo fun info => 7 + info.name.length := by
  refine sized_u16.bind fun nameLen => (Sized.block nameLen.toNat).bind fun name =>
    sized_u16.bind fun playerCount => sized_u16.bind fun maxPlayers => Sized.item.bind fun state =>
      (Sized.accept (RoomState.ofUInt8 state)).bind fun state => Sized.pure ?_
  dsimp only
  omega

theorem sized_publishedRoom :
    Sized 0 readPublishedRoom fun room => 6 + room.name.length := by
  refine sized_u16.bind fun nameLen => (Sized.block nameLen.toNat).bind fun name =>
    sized_u16.bind fun playerCount => sized_u16.bind fun maxPlayers => Sized.pure ?_
  dsimp only
  omega

/-- A text that is consumed exactly has seven bytes and the name a room by the handler's layout, and
six by the published one. -/
theorem sized_counted {α : Type} {read : Reader UInt8 α} {size : α → ℕ} (h : Sized 0 read size) :
    Sized 0 (do repeated read (← readU16).toNat) fun rooms => 2 + (rooms.map size).sum := by
  refine sized_u16.bind fun count text rooms rest hread => ?_
  have hrooms := Sized.repeated h count.toNat text rooms rest hread
  dsimp only at hrooms ⊢
  omega

/-- **The packet by the published layout** is the list only when there is no room. -/
theorem published_iff {rooms : List RoomInfo} :
    readPublishedRoomList (roomListData rooms) = some (rooms.map RoomInfo.published, []) ↔
      rooms = [] := by
  constructor
  · intro hread
    have hlen := (sized_counted sized_publishedRoom).exact hread
    have hsix : ∀ rooms : List RoomInfo,
        (rooms.map fun info => 7 + info.name.length).sum = rooms.length +
          ((rooms.map RoomInfo.published).map fun room => 6 + room.name.length).sum := by
      intro rooms
      induction rooms with
      | nil => rfl
      | cons info rooms ih =>
        simp only [List.map_cons, List.sum_cons, List.length_cons, RoomInfo.published] at ih ⊢
        omega
    rw [length_roomListData, hsix] at hlen
    exact List.length_eq_zero_iff.mp (by omega)
  · rintro rfl
    rfl

/-! ## When it is sent -/

/-- A packet to a connected session is sent if `WSASend` takes it. -/
theorem sent_countAndPost {env : Env} {s : SessionRef} {w : World} (packet : Bytes)
    (hup : (w.session s).disconnected = false) : (w.countAndPost env s packet).sent =
      if env.wsaSendFails s w.sent.length = false then w.sent ++ [(s, packet)] else w.sent := by
  have hup' : ((w.countSent packet).session s).disconnected = false := hup
  have hsent : (w.countSent packet).sent = w.sent := rfl
  unfold World.countAndPost World.postSend
  rw [hup', hsent]
  cases env.wsaSendFails s w.sent.length <;> rfl

/-- `SendRaw` to a connected session sends one packet, if it fits the buffer and `WSASend` takes it,
or none. -/
theorem sent_sendRaw {env : Env} {s : SessionRef} {w : World} (id : PacketID) (data : Bytes)
    (hup : (w.session s).disconnected = false) : (w.sendRaw env s id data).sent =
      if headerSize + data.length ≤ maxBufSize ∧ env.wsaSendFails s w.sent.length = false then
        w.sent ++ [(s, frame id.toUInt16 data)]
      else w.sent := by
  unfold World.sendRaw
  rw [if_neg (by simp [hup])]
  by_cases hfits : headerSize + data.length ≤ maxBufSize
  · rw [if_neg (not_lt.mpr hfits), sent_countAndPost _ hup]
    simp only [hfits, true_and]
  · rw [if_pos (not_le.mp hfits), if_neg fun h => hfits h.1]

/-- The handler sends one packet, and its payload satisfies `P`. -/
def SendsRoomList (env : Env) (s : SessionRef) (srv : Server) (P : Bytes → Prop) : Prop :=
  ∃ payload, (srv.handleCRoomList env s).world.sent =
    srv.world.sent ++ [(s, frame PacketID.sRoomList.toUInt16 payload)] ∧ P payload

/-- The packet fits the buffer, and `WSASend` takes it. -/
def RoomListTaken (env : Env) (s : SessionRef) (srv : Server) : Prop :=
  headerSize + (2 + ((srv.rooms.getRoomInfoList env).map fun info => 7 + info.name.length).sum) ≤
    maxBufSize ∧ env.wsaSendFails s srv.world.sent.length = false

instance (env : Env) (s : SessionRef) (srv : Server) : Decidable (RoomListTaken env s srv) := by
  unfold RoomListTaken; infer_instance

section

variable {env : Env} {s : SessionRef} {srv : Server} {P : Bytes → Prop}

theorem sent_roomList {payload : Bytes} (hup : ¬ srv.Down s)
    (hpayload : Server.passed (roomListData (srv.rooms.getRoomInfoList env)) = payload) :
    SendsRoomList env s srv P ↔ (headerSize + payload.length ≤ maxBufSize ∧
      env.wsaSendFails s srv.world.sent.length = false) ∧ P payload := by
  unfold SendsRoomList
  rw [handleCRoomList_eq, hpayload, sent_sendRaw .sRoomList _ (Bool.eq_false_iff.mpr hup)]
  constructor
  · rintro ⟨payload', hsent, hP⟩
    split at hsent
    · rename_i htaken
      have hpacket := List.append_cancel_left hsent
      have hframe := (Prod.mk.inj (List.singleton_inj.mp hpacket)).2
      exact ⟨htaken, (frame_inj hframe).2 ▸ hP⟩
    · simp at hsent
  · rintro ⟨htaken, hP⟩
    exact ⟨payload, by rw [if_pos htaken], hP⟩

/-- What fits the buffer is passed on whole. -/
theorem passed_eq {data : Bytes} (h : headerSize + data.length ≤ maxBufSize) :
    Server.passed data = data := by
  unfold headerSize maxBufSize at h
  unfold Server.passed
  rw [int32_of_fits ⟨by omega, by omega⟩, Int.toNat_natCast, List.take_length]

/-- What gives the whole list back is passed on whole. -/
theorem passed_of_read {rooms : List RoomInfo}
    (h : readRoomList (Server.passed (roomListData rooms)) = some (rooms, [])) :
    Server.passed (roomListData rooms) = roomListData rooms := by
  have hlen := (sized_counted sized_roomInfo).exact h
  rw [← length_roomListData] at hlen
  exact (List.take_prefix _ _).eq_of_length hlen

/-- **When a list is sent that gives the rooms back**: the packet is taken, and they are what the
whole payload reads as. -/
theorem sent_whole_roomList (hup : ¬ srv.Down s)
    (hP : ∀ payload, P payload → readRoomList payload = some (srv.rooms.getRoomInfoList env, [])) :
    SendsRoomList env s srv P ↔
      RoomListTaken env s srv ∧ P (roomListData (srv.rooms.getRoomInfoList env)) := by
  rw [sent_roomList hup rfl]
  unfold RoomListTaken
  rw [← length_roomListData]
  constructor
  · rintro ⟨htaken, hread⟩
    rw [passed_of_read (hP _ hread)] at htaken hread
    exact ⟨htaken, hread⟩
  · rintro ⟨htaken, hread⟩
    rw [passed_eq htaken.1]
    exact ⟨htaken, hread⟩

/-- There is a room in the list for each in the map. -/
theorem getRoomInfoList_eq_nil : srv.rooms.getRoomInfoList env = [] ↔ srv.rooms.rooms = ∅ := by
  unfold RoomManager.getRoomInfoList
  rw [List.map_eq_nil_iff]
  constructor
  · intro hwalk
    refine Map.keys_eq_nil.mp (List.eq_nil_iff_forall_not_mem.mpr fun name hname => ?_)
    obtain ⟨r, hr⟩ := Option.isSome_iff_exists.mp
      (AList.lookup_isSome.mpr (AList.mem_keys.mpr hname))
    have hwalked := @RoomManager.mem_walk _ _ env (Map.mem_values.mpr ⟨name, hr⟩)
    rw [hwalk] at hwalked
    exact absurd hwalked List.not_mem_nil
  · intro hempty
    refine List.eq_nil_iff_forall_not_mem.mpr fun e he => ?_
    obtain ⟨name, hname⟩ := Map.mem_values.mp (RoomManager.live_of_walk he)
    rw [hempty] at hname
    exact absurd hname (by simp)

/-- **A room list is read back**, in any state of the server and for any connected session: by the
layout of the handler exactly when the packet is taken and the counts of every room are `uint16`s;
by the layout that is published to clients as well exactly when there is, besides, no room. -/
theorem roomList_read_back (hup : ¬ srv.Down s) :
    (SendsRoomList env s srv (fun payload =>
        readRoomList payload = some (srv.rooms.getRoomInfoList env, [])) ↔
      RoomListTaken env s srv ∧ ∀ info ∈ srv.rooms.getRoomInfoList env, info.Carries) ∧
    (SendsRoomList env s srv (fun payload =>
        readRoomList payload = some (srv.rooms.getRoomInfoList env, []) ∧
          readPublishedRoomList payload =
            some ((srv.rooms.getRoomInfoList env).map RoomInfo.published, [])) ↔
      RoomListTaken env s srv ∧ srv.rooms.rooms = ∅) := by
  rw [sent_whole_roomList hup fun _ h => h, sent_whole_roomList hup fun _ h => h.1]
  have hread (htaken : RoomListTaken env s srv) :
      readRoomList (roomListData (srv.rooms.getRoomInfoList env)) =
        some ((srv.rooms.getRoomInfoList env).map RoomInfo.carried, []) := by
    obtain ⟨hcount, hname⟩ := le_roomListData (srv.rooms.getRoomInfoList env)
    have hfits := htaken.1
    rw [← length_roomListData] at hfits
    unfold headerSize maxBufSize at hfits
    refine (reads_roomList (by omega) fun info hinfo => ?_).exact
    have := hname info hinfo
    omega
  constructor
  · refine and_congr_right fun htaken => ?_
    rw [hread htaken, Option.some.injEq, Prod.mk.injEq, and_iff_left rfl]
    constructor
    · intro h info hinfo
      exact carried_iff.mp (List.map_inj_left.mp (h.trans (List.map_id _).symm) info hinfo)
    · intro h
      exact (List.map_congr_left fun info hinfo => carried_iff.mpr (h info hinfo)).trans
        (List.map_id _)
  · refine and_congr_right fun htaken => ?_
    rw [published_iff, getRoomInfoList_eq_nil, and_iff_right_iff_imp]
    intro hempty
    rw [hread htaken, getRoomInfoList_eq_nil.mpr hempty]
    rfl

end

/-- The rooms `A` and `B`, and a client that asks for them. -/
theorem roomList_read_back_switch :
    ∃ srv, run (next ⟨16, 30000, 60000⟩) .empty (switchTo [.job 0, .job 1]) = some srv ∧
      SendsRoomList (.quiet 1000) 0 srv fun payload =>
        readRoomList payload = some (srv.rooms.getRoomInfoList (.quiet 1000), []) := by
  obtain ⟨srv, hrun, hup, htaken, hcarries⟩ :
      ∃ srv, run (next ⟨16, 30000, 60000⟩) .empty (switchTo [.job 0, .job 1]) = some srv ∧
        ¬ srv.Down 0 ∧ RoomListTaken (.quiet 1000) 0 srv ∧
          ∀ info ∈ srv.rooms.getRoomInfoList (.quiet 1000), info.Carries := by decide +kernel
  exact ⟨srv, hrun, (roomList_read_back hup).1.mpr ⟨htaken, hcarries⟩⟩

/-- A session logs in and asks for the room of a name. -/
def asksFor (name : Bytes) : List (Action × Env) :=
  quietly
    [.accept true, .packet 0 (.login (some [116])), .authCallback 0 true [97],
      .packet 0 (.roomEnter (some name))]

/-- Then the room is the only one in the list. -/
theorem roomList_asksFor (name : Bytes) :
    ∃ srv, run (next ⟨16, 30000, 60000⟩) .empty (asksFor name) = some srv ∧ ¬ srv.Down 0 ∧
      srv.rooms.getRoomInfoList (.quiet 1000) = [⟨name, 0, 16, .waiting⟩] := by
  refine ⟨_, rfl, Bool.false_ne_true, ?_⟩
  have hlookup : ((∅ : Map Bytes RoomRef).insert name 0).lookup name = some 0 :=
    AList.lookup_insert _
  show ([name].filterMap fun key => ((∅ : Map Bytes RoomRef).insert name 0).lookup key |>.map
    fun r => (key, r)).map _ = _
  rw [List.filterMap_cons, hlookup]
  rfl

/-- **One room with a long name**, and nothing is sent; one room with a short name, and the byte of
its state is left over by the published layout. -/
theorem roomList_unread :
    (∃ srv, run (next ⟨16, 30000, 60000⟩) .empty (asksFor (List.replicate 4086 97)) = some srv ∧
      ¬ srv.Down 0 ∧ ¬ SendsRoomList (.quiet 1000) 0 srv fun _ => True) ∧
    ∃ srv, run (next ⟨16, 30000, 60000⟩) .empty (asksFor [65]) = some srv ∧ ¬ srv.Down 0 ∧
      (readPublishedRoomList (roomListData (srv.rooms.getRoomInfoList (.quiet 1000)))).map
        Prod.snd = some [0] := by
  constructor
  · have hname : (List.replicate 4086 (97 : UInt8)).length = 4086 := List.length_replicate
    generalize List.replicate 4086 (97 : UInt8) = name at hname ⊢
    obtain ⟨srv, hrun, hup, hlist⟩ := roomList_asksFor name
    refine ⟨srv, hrun, hup, fun hsends => ?_⟩
    have hfits := ((sent_roomList hup rfl).mp hsends).1.1
    have hlen : (roomListData [⟨name, 0, 16, .waiting⟩]).length = 4095 := by
      rw [length_roomListData, List.map_singleton, List.sum_singleton]
      dsimp only
      omega
    unfold Server.passed at hfits
    rw [hlist, hlen, int32_of_fits (by decide), List.length_take, hlen] at hfits
    exact absurd hfits (by decide)
  · decide +kernel

end RealtimeServer
