import RealtimeServer.Game.Delivery
import RealtimeServer.Game.ReadyStart

/-!
# Replies that do not fit

`SendInternal` refuses a packet of more than `MAX_BUF_SIZE` bytes, and nobody looks at what it
returns. `HandleRecv` takes packets of up to `max_packet_size` bytes, and a reply carries a client's
text next to other fields.

* `fits_chat`, `fits_admitted`: the sizes that fit.
* **`replies_iff`**: a chat reaches the connected members, and an enter is answered, exactly where
  the reply fits.
-/

namespace RealtimeServer

open Unordered Guarded

/-! ## Sizes -/

/-- The bytes a `string` field of this length takes. -/
def fieldSize (n : ℕ) : ℕ := if n = 0 then 0 else 1 + (varint n).length + n

theorem length_stringField (number : ℕ) (value : Bytes) :
    (stringField number value).length = fieldSize value.length := by
  unfold stringField fieldSize bytesField
  by_cases h : value = []
  · rw [if_pos h, if_pos (List.length_eq_zero_iff.mpr h)]
    rfl
  · rw [if_neg h, if_neg (mt List.length_eq_zero_iff.mp h), List.length_append, List.length_cons]
    omega

theorem length_varint_of_lt {n : ℕ} (h : n < 128) : (varint n).length = 1 := by
  unfold varint varintUpTo
  rw [if_pos h]
  rfl

theorem length_varint_of_le {n : ℕ} (h : 128 ≤ n) (h' : n < 16384) : (varint n).length = 2 := by
  unfold varint varintUpTo varintUpTo
  rw [if_neg (not_lt.mpr h), if_pos (by omega)]
  rfl

/-- A chat fits as long as its two texts do. -/
theorem fits_chat {sender message : Bytes} : (ServerMessage.chat sender message).Fits ↔
    headerSize + fieldSize sender.length + fieldSize message.length ≤ maxBufSize := by
  unfold ServerMessage.Fits ServerMessage.serialize
  rw [List.length_append, length_stringField, length_stringField, Nat.add_assoc]

theorem length_roomEnter (success : Bool) (text roomName : Bytes) :
    (ServerMessage.roomEnter success text roomName).serialize.length =
      (boolField 1 success).length + fieldSize text.length + fieldSize roomName.length := by
  unfold ServerMessage.serialize
  rw [List.length_append, List.length_append, length_stringField, length_stringField]

/-- The answer to an enter that is let in has the room's name in it. -/
theorem fits_admitted {roomName : Bytes} :
    (ServerMessage.roomEnter true (utf8 "입장 성공") roomName).Fits ↔ roomName.length ≤ 4072 := by
  have htext : (utf8 "입장 성공").length = 13 := by decide +kernel
  have htextField : fieldSize 13 = 15 := by decide
  unfold ServerMessage.Fits
  rw [length_roomEnter, htext, htextField]
  have hflag : (boolField 1 true).length = 2 := rfl
  rw [hflag]
  unfold fieldSize headerSize maxBufSize
  by_cases hnone : roomName.length = 0
  · simp [hnone]
  · rw [if_neg hnone]
    by_cases hshort : roomName.length < 128
    · rw [length_varint_of_lt hshort]
      omega
    · by_cases hlong : roomName.length < 16384
      · rw [length_varint_of_le (not_lt.mp hshort) hlong]
        omega
      · omega

/-- A text takes at most four bytes a character. -/
theorem utf8ByteSize_ofList_le (chars : List Char) :
    (String.ofList chars).utf8ByteSize ≤ 4 * chars.length := by
  induction chars with
  | nil => simp
  | cons c chars ih =>
    have hsize := Char.utf8Size_le_four c
    rw [String.ofList_cons, String.utf8ByteSize_append, String.utf8ByteSize_singleton,
      List.length_cons]
    omega

/-- What a 32-bit number is written with. -/
theorem utf8ByteSize_toString_le {n : Int} (hlow : -2 ^ 31 ≤ n) (hhigh : n < 2 ^ 31) :
    (toString n).utf8ByteSize ≤ 44 := by
  have hrepr : ∀ m < 10 ^ 10, (Nat.repr m).utf8ByteSize ≤ 40 := by
    intro m hm
    have hlength : (Nat.toDigits 10 m).length ≤ 10 :=
      (Nat.length_toDigits_le_iff (by decide) (by decide)).mpr hm
    have hsize := utf8ByteSize_ofList_le (Nat.toDigits 10 m)
    rw [← Nat.repr_eq_ofList_toDigits] at hsize
    omega
  cases n with
  | ofNat m =>
    have hm : (m : Int) < 2 ^ 31 := hhigh
    exact (hrepr m (by omega)).trans (by decide)
  | negSucc m =>
    have hsucc := hrepr (m + 1) (by omega)
    have htext : (toString (Int.negSucc m)).utf8ByteSize = ("-" ++ Nat.repr (m + 1)).utf8ByteSize :=
      rfl
    have hsign : "-".utf8ByteSize = 1 := by decide +kernel
    rw [htext, String.utf8ByteSize_append, hsign]
    omega

theorem length_utf8 (text : String) : (utf8 text).length = text.utf8ByteSize := by
  unfold utf8
  rw [Array.length_toList]
  rfl

theorem fieldSize_le {n : ℕ} (h : n < 128) : fieldSize n ≤ n + 2 := by
  unfold fieldSize
  rw [length_varint_of_lt h]
  split <;> omega

/-- A refusal fits. -/
theorem fits_refused {text : Bytes} (h : text.length < 128) :
    (ServerMessage.roomEnter false text []).Fits := by
  have hfield := fieldSize_le h
  have hnone : fieldSize ([] : Bytes).length = 0 := rfl
  have hflag : (boolField 1 false).length = 0 := rfl
  unfold ServerMessage.Fits headerSize maxBufSize
  rw [length_roomEnter, hnone, hflag]
  omega

/-- The text that a full room refuses with. -/
theorem length_full {n : Int} (hlow : -2 ^ 31 ≤ n) (hhigh : n < 2 ^ 31) :
    (utf8 ("방이 꽉 찼습니다. (" ++ toString n ++ "명 제한)")).length < 128 := by
  have hnumber := utf8ByteSize_toString_le hlow hhigh
  have hbefore : "방이 꽉 찼습니다. (".utf8ByteSize = 26 := by decide +kernel
  have hbehind : "명 제한)".utf8ByteSize = 11 := by decide +kernel
  rw [length_utf8, String.utf8ByteSize_append, String.utf8ByteSize_append, hbefore, hbehind]
  omega

/-! ## Replies -/

section

variable {cfg : Config} {env : Env} {srv srv' : Server} {r : RoomRef} {s : SessionRef}
  {room : GameRoom} {w : World}

/-- A refusal is one answer. -/
theorem gets_refused {text : Bytes} (h : text.length < 128) :
    Gets s .sRoomEnter [(ServerMessage.roomEnter false text []).serialize] w
      (w.send env s (.roomEnter false text [])) := by
  have hsend : Gets s .sRoomEnter _ w (w.send env s (.roomEnter false text [])) :=
    Gets.send env s _ w
  rwa [if_pos ⟨rfl, rfl, fits_refused h⟩] at hsend

/-- **`HandleEnter`** answers its session, unless the room's name makes the answer too long. -/
theorem gets_handleEnter (hlow : -2 ^ 31 ≤ room.maxPlayers) (hhigh : room.maxPlayers < 2 ^ 31) :
    ∃ answers, Gets s .sRoomEnter answers w (room.handleEnter env r s w).2 ∧
      (answers.length = 1 ↔ (room.Admits → room.name.length ≤ 4072)) := by
  unfold GameRoom.handleEnter GameRoom.Admits
  by_cases hgame : room.state = .inGame
  · have hshort : (utf8 "게임이 진행 중입니다.").length < 128 := by decide +kernel
    rw [if_pos hgame]
    exact ⟨_, gets_refused hshort, by simp [hgame]⟩
  · rw [if_neg hgame]
    by_cases hfull : room.maxPlayers ≤ (room.members.size : Int)
    · rw [if_pos hfull]
      exact ⟨_, gets_refused (length_full hlow hhigh), by simp [not_lt.mpr hfull]⟩
    · rw [if_neg hfull]
      have hmoved : Gets s .sRoomEnter [] w (w.setRoom s (some r)) :=
        Gets.of_same rfl (World.disconnected_setRoom w s s _)
      have hanswer : Gets s .sRoomEnter _ (w.setRoom s (some r)) _ :=
        Gets.send env s (.roomEnter true (utf8 "입장 성공") room.name) _
      have hentered : ∀ accountId,
          (ServerMessage.roomUserEntered accountId).packetId ≠ .sRoomEnter := by
        simp [ServerMessage.packetId]
      refine ⟨_, (hmoved.none_then hanswer).then_none
        ((Gets.broadcastExcept_other (hentered _) env s _ _).then_none
          (Gets.broadcastRoomState_other (by decide) env _ _)), ?_⟩
      by_cases hname : room.name.length ≤ 4072
      · rw [if_pos ⟨rfl, rfl, fits_admitted.mpr hname⟩]
        simp [hname]
      · rw [if_neg fun h => hname (fits_admitted.mp h.2.2)]
        simp [hname, hgame, not_le.mp hfull]

/-- **A chat** reaches a member that is still connected behind it exactly where it fits. -/
theorem gets_chat {sender message : Bytes} (hmember : s ∈ room.members) :
    ∃ chats, Gets s .sChat chats w ((Job.chat sender message).run env r room w).2 ∧
      (chats = [(ServerMessage.chat sender message).serialize] ↔
        headerSize + fieldSize sender.length + fieldSize message.length ≤ maxBufSize) := by
  refine ⟨_, Gets.broadcast env (.chat sender message) room w, ?_⟩
  rw [if_pos hmember, ← fits_chat]
  by_cases hfits : (ServerMessage.chat sender message).Fits
  · rw [if_pos ⟨rfl, hfits⟩]
    simp [hfits]
  · rw [if_neg fun h => hfits h.2]
    simp [hfits]

/-! ## The server -/

/-- The step that runs a job. -/
theorem world_job {job : Job} (h : next cfg srv (.job r, env) = some srv')
    (hjob : srv.running (.job r) r = some job) :
    ∃ room, room.withoutQueue = (srv.room r).withoutQueue ∧
      srv'.world = (job.run env r room srv.world).2 := by
  obtain ⟨srv₁, hacts, rfl⟩ := next_acts h
  cases hacts with
  | @job _ job' jobs queue =>
    rw [running_job queue] at hjob
    obtain rfl := Option.some.inj hjob
    exact ⟨{ srv.room r with jobQueue := jobs }, rfl, rfl⟩

theorem admits_withoutQueue : room.withoutQueue.Admits ↔ room.Admits := Iff.rfl

/-- **Replies and their sizes**: when a job has run, a session that is connected has got
* the chat, if the job is one and the session is a member: once, exactly if the chat fits with the
  sender's account;
* an answer, if the job is the session's enter: exactly one, exactly if the room does not let it in,
  or the room's name has at most 4072 bytes. -/
theorem replies_iff (h : next cfg srv (.job r, env) = some srv') (hup : ¬ srv'.Down s)
    (hlow : -2 ^ 31 ≤ (srv.room r).maxPlayers) (hhigh : (srv.room r).maxPlayers < 2 ^ 31) :
    (∀ sender message, srv.running (.job r) r = some (.chat sender message) →
      s ∈ (srv.room r).members →
      (srv.world.received srv'.world s .sChat = [(ServerMessage.chat sender message).serialize] ↔
        headerSize + fieldSize sender.length + fieldSize message.length ≤ maxBufSize)) ∧
      (srv.running (.job r) r = some (.handleEnter s) →
        ((srv.world.received srv'.world s .sRoomEnter).length = 1 ↔
          ((srv.room r).Admits → (srv.room r).name.length ≤ 4072))) := by
  have hconnected : (srv'.world.session s).disconnected = false := Bool.eq_false_iff.mpr hup
  refine ⟨fun sender message hjob hmember => ?_, fun hjob => ?_⟩
  · obtain ⟨room, hroom, hworld⟩ := world_job h hjob
    have hmembers : room.members = (srv.room r).members := (congrArg GameRoom.members hroom :)
    rw [← hmembers] at hmember
    obtain ⟨chats, hgets, hfits⟩ := gets_chat hmember
    rw [hworld] at hconnected ⊢
    rw [hgets.received hconnected]
    exact hfits
  · obtain ⟨room, hroom, hworld⟩ := world_job h hjob
    have hname : room.name = (srv.room r).name := (congrArg GameRoom.name hroom :)
    have hlimit : room.maxPlayers = (srv.room r).maxPlayers :=
      (congrArg GameRoom.maxPlayers hroom :)
    have hadmits : room.Admits ↔ (srv.room r).Admits := by
      rw [← admits_withoutQueue, hroom, admits_withoutQueue]
    rw [← hlimit] at hlow hhigh
    have hworld : srv'.world = (room.handleEnter env r s srv.world).2 := hworld
    obtain ⟨answers, hgets, hfits⟩ := gets_handleEnter hlow hhigh
    rw [hworld] at hconnected ⊢
    rw [hgets.received hconnected, ← hadmits, ← hname]
    exact hfits

/-- Two players are in room `A`, and the first one says something short. -/
def shortChat : List (Action × Env) := quietly (lobby 2 ++ [.packet 0 (.chat (some [104, 105]))])

/-- The other one gets it. -/
theorem replies_shortChat :
    ∃ srv srv', run (next ⟨16, 30000, 60000⟩) .empty shortChat = some srv ∧
      next ⟨16, 30000, 60000⟩ srv (.job 0, .quiet 1000) = some srv' ∧
      srv.world.received srv'.world 1 .sChat =
        [(ServerMessage.chat [97] [104, 105]).serialize] := by
  have hrun : ∃ srv, run (next ⟨16, 30000, 60000⟩) .empty shortChat = some srv ∧
      (∃ srv', next ⟨16, 30000, 60000⟩ srv (.job 0, .quiet 1000) = some srv' ∧ ¬ srv'.Down 1) ∧
      srv.running (.job 0) 0 = some (.chat [97] [104, 105]) ∧ 1 ∈ (srv.room 0).members ∧
      (srv.room 0).maxPlayers = 16 := by decide +kernel
  obtain ⟨srv, hrun, ⟨srv', hnext, hup⟩, hjob, hmember, hlimit⟩ := hrun
  have hreplies := replies_iff hnext hup (by rw [hlimit]; decide) (by rw [hlimit]; decide)
  exact ⟨srv, srv', hrun, hnext, (hreplies.1 _ _ hjob hmember).mpr (by decide)⟩

/-- Two players are in room `A`, and the first one says something long. -/
def longChat : List (Action × Env) :=
  quietly (lobby 2 ++ [.packet 0 (.chat (some (List.replicate 4089 97)))])

/-- A player without a room asks for one with a long name. -/
def longName : List (Action × Env) :=
  quietly [.accept true, .packet 0 (.login (some [116])), .authCallback 0 true [97],
    .packet 0 (.roomEnter (some (List.replicate 4089 65)))]

/-- `HandleRecv` takes either packet, and nobody hears of it: not the other player of the chat, and
not the new member of its room. -/
theorem replies_swallowed :
    ((frame PacketID.cChat.toUInt16 (stringField 1 (List.replicate 4089 97))).length = 4096 ∧
      ∃ srv, run (next ⟨16, 30000, 60000⟩) .empty longChat = some srv ∧
        0 ∈ (srv.room 0).members ∧ 1 ∈ (srv.room 0).members ∧ (srv.room 0).jobQueue.length = 1 ∧
        ∃ srv', next ⟨16, 30000, 60000⟩ srv (.job 0, .quiet 1000) = some srv' ∧
          (srv'.room 0).jobQueue.length = 0 ∧ ¬ srv'.Down 1 ∧
          srv.world.received srv'.world 1 .sChat = []) ∧
      (frame PacketID.cRoomEnter.toUInt16 (stringField 1 (List.replicate 4089 65))).length = 4096 ∧
      ∃ srv, run (next ⟨16, 30000, 60000⟩) .empty longName = some srv ∧
        srv.running (.job 0) 0 = some (.handleEnter 0) ∧
        ∃ srv', next ⟨16, 30000, 60000⟩ srv (.job 0, .quiet 1000) = some srv' ∧ ¬ srv'.Down 0 ∧
          0 ∈ (srv'.room 0).members ∧ srv.world.received srv'.world 0 .sRoomEnter = [] := by
  decide +kernel

end

end RealtimeServer
