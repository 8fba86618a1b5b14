import KungFuChess.Server.Actions

/-!
# The room invariant

What every run of the server keeps between the rooms, the map from users to rooms, the
engines and the ratings (`RoomInv`): a member of a room is mapped to that room, an engine
belongs to a room, a room whose result has been applied has both seats filled and its
engine has ended, and ratings are written for rooms whose engine has ended only.

The seats of a room are read off its members in joining order. They survive whatever does
not add a player to the room: a viewer who joins or leaves, and a change of a connection.
-/

namespace KungFuChess

open RoomService GameService

/-! ### Seats -/

section Seats

variable {room : Room} {role : PlayerRole} {userId : UserId}

/-- A seat that is filled is filled by a member. -/
theorem seatOf_eq_some (h : seatOf room role = some userId) :
    ∃ member, room.members.get? userId = some member ∧ member.role = role := by
  obtain ⟨entry, hlast, rfl⟩ := Option.map_eq_some_iff.mp h
  obtain ⟨hmem, hrole⟩ := List.mem_filter.mp (List.mem_of_getLast? hlast)
  exact ⟨entry.2, Dict.mem_entries_iff.mp hmem, of_decide_eq_true hrole⟩

/-- A viewer who joins takes no seat. -/
theorem seatOf_join_viewer (hnew : room.members.get? userId = none) (hrole : role ≠ .viewer) :
    seatOf { room with
      members := room.members.set userId { userId := userId, role := .viewer } } role =
      seatOf room role := by
  have hkey : userId ∉ room.members.keys := Dict.get?_eq_none_iff.mp hnew
  have hentries : (room.members.set userId { userId := userId, role := .viewer }).entries =
      room.members.entries ++ [(userId, { userId := userId, role := .viewer })] := if_neg hkey
  unfold seatOf
  rw [hentries, List.filter_append, List.filter_singleton, decide_eq_false hrole.symm]
  simp

/-- A viewer who leaves gives up no seat. -/
theorem seatOf_leave (hviewer : ∀ member, room.members.get? userId = some member →
    member.role = .viewer) (hrole : role ≠ .viewer) :
    seatOf { room with members := room.members.pop userId } role = seatOf room role := by
  unfold seatOf Dict.pop
  dsimp only
  rw [List.filter_filter]
  congr 2
  refine List.filter_congr fun entry hentry => ?_
  by_cases hkey : entry.1 = userId
  · have hmember : entry.2.role = .viewer :=
      hviewer entry.2 (hkey ▸ Dict.mem_entries_iff.mp hentry)
    simp [hmember, hrole.symm]
  · simp [hkey]

/-- A change of a member that keeps the role changes no seat. -/
theorem seatOf_modify {f : RoomMember → RoomMember} (hf : ∀ member, (f member).role = member.role) :
    seatOf { room with members := room.members.modify userId f } role = seatOf room role := by
  unfold Dict.modify
  split
  · next member hmember =>
    have hkey : userId ∈ room.members.keys := Dict.mem_keys_iff.mpr ⟨member, hmember⟩
    have hentries : (room.members.set userId (f member)).entries =
        room.members.entries.map fun p => if p.1 = userId then (userId, f member) else p :=
      if_pos hkey
    unfold seatOf
    rw [hentries, List.filter_map, List.getLast?_map, Option.map_map]
    -- the entry of the user keeps its role, so it passes the filter if it did
    have hsame : ∀ entry ∈ room.members.entries,
        (if entry.1 = userId then (userId, f member) else entry).2.role = entry.2.role := by
      intro entry hentry
      split
      · next hk =>
        have : room.members.get? userId = some entry.2 := hk ▸ Dict.mem_entries_iff.mp hentry
        rw [hmember] at this
        rw [hf, Option.some.inj this]
      · rfl
    have hfilter : room.members.entries.filter
        ((fun entry => decide (entry.2.role = role)) ∘
          fun p => if p.1 = userId then (userId, f member) else p) =
        room.members.entries.filter fun entry => entry.2.role = role := by
      refine List.filter_congr fun entry hentry => ?_
      change decide (_ = _) = _
      rw [hsame entry hentry]
    rw [hfilter]
    congr 1
    funext entry
    -- and its key
    change (if entry.1 = userId then (userId, f member) else entry).1 = entry.1
    split
    · next hk => exact hk.symm
    · rfl
  · rfl

theorem mem_players {member : RoomMember} (hmember : room.members.get? userId = some member)
    (hrole : member.role = .white ∨ member.role = .black) : member ∈ room.players :=
  List.mem_filter.mpr ⟨List.mem_map.mpr ⟨_, Dict.mem_entries_iff.mpr hmember, rfl⟩,
    decide_eq_true hrole⟩

/-- A room with a White gives out no other White. -/
theorem nextRole_ne_white {member : RoomMember} (hmember : room.members.get? userId = some member)
    (hwhite : member.role = .white) : nextRole room ≠ .white := by
  have hmem := mem_players hmember (Or.inl hwhite)
  unfold nextRole
  rw [if_neg]
  · split <;> simp
  · intro hzero
    rw [List.length_eq_zero_iff.mp hzero] at hmem
    exact absurd hmem List.not_mem_nil

/-- A room with a White and a Black takes viewers only. -/
theorem nextRole_of_members {whiteId blackId : UserId} {white black : RoomMember}
    (hw : room.members.get? whiteId = some white) (hwrole : white.role = .white)
    (hb : room.members.get? blackId = some black) (hbrole : black.role = .black) :
    nextRole room = .viewer := by
  have hwmem := mem_players hw (Or.inl hwrole)
  have hbmem := mem_players hb (Or.inr hbrole)
  unfold nextRole
  rw [if_neg, if_neg]
  · -- one player would be both White and Black
    intro hone
    obtain ⟨only, honly⟩ := List.length_eq_one_iff.mp hone
    rw [honly, List.mem_singleton] at hwmem hbmem
    rw [hwmem.trans hbmem.symm, hbrole] at hwrole
    exact absurd hwrole (by decide)
  · intro hzero
    rw [List.length_eq_zero_iff.mp hzero] at hwmem
    exact absurd hwmem List.not_mem_nil

/-- A room with both seats filled takes viewers only. -/
theorem nextRole_of_seats {whiteId blackId : UserId} (hwhite : seatOf room .white = some whiteId)
    (hblack : seatOf room .black = some blackId) : nextRole room = .viewer := by
  obtain ⟨white, hw, hwrole⟩ := seatOf_eq_some hwhite
  obtain ⟨black, hb, hbrole⟩ := seatOf_eq_some hblack
  exact nextRole_of_members hw hwrole hb hbrole

/-- Two filled seats are seats of a room. -/
theorem getRoomPlayers_eq_some {s : Server} {roomId : RoomId} {whiteId blackId : UserId}
    (h : getRoomPlayers s roomId = (some whiteId, some blackId)) :
    ∃ room, s.rooms.get? roomId = some room ∧ seatOf room .white = some whiteId ∧
      seatOf room .black = some blackId := by
  unfold getRoomPlayers at h
  split at h
  · exact absurd h (by simp)
  · next room hroom => exact ⟨room, hroom, congrArg Prod.fst h, congrArg Prod.snd h⟩

/-- The user is a White or a Black member of the room. -/
def IsPlayer (s : Server) (roomId : RoomId) (userId : UserId) : Prop :=
  memberRole s roomId userId = some .white ∨ memberRole s roomId userId = some .black

/-- Who plays is decided by the roles. -/
instance (s : Server) (roomId : RoomId) (userId : UserId) : Decidable (IsPlayer s roomId userId) :=
  inferInstanceAs (Decidable (_ ∨ _))

/-- A player is a member who is not a viewer. -/
theorem isPlayer_iff {s : Server} {roomId : RoomId} : IsPlayer s roomId userId ↔
    ∃ room member, s.rooms.get? roomId = some room ∧ room.members.get? userId = some member ∧
      member.role ≠ .viewer := by
  have hrole : ∀ role : PlayerRole, role ≠ .viewer ↔ role = .white ∨ role = .black :=
    fun role => by cases role <;> decide
  unfold IsPlayer memberRole
  cases hroom : s.rooms.get? roomId with
  | none => simp
  | some room =>
    rw [Option.bind_some]
    cases hmember : room.members.get? userId with
    | none => simp [hmember]
    | some member => simp [hmember, hrole]

/-- Who plays is read off the members. -/
theorem IsPlayer.of_members_eq {s t : Server} {roomId : RoomId}
    (hmembers : (t.rooms.get? roomId).map Room.members = (s.rooms.get? roomId).map Room.members)
    (h : IsPlayer t roomId userId) : IsPlayer s roomId userId := by
  obtain ⟨room, member, hroom, hmember, hrole⟩ := isPlayer_iff.mp h
  rw [hroom, Option.map_some] at hmembers
  obtain ⟨room', hroom', hsame⟩ := Option.map_eq_some_iff.mp hmembers.symm
  exact isPlayer_iff.mpr ⟨room', member, hroom', hsame ▸ hmember, hrole⟩

/-- Whoever sits on a seat is a member with its role. -/
theorem memberRole_of_seat {s : Server} {roomId : RoomId} (hroom : s.rooms.get? roomId = some room)
    (hseat : seatOf room role = some userId) : memberRole s roomId userId = some role := by
  obtain ⟨member, hmember, hrole⟩ := seatOf_eq_some hseat
  unfold memberRole
  rw [hroom, Option.bind_some, hmember, Option.map_some, hrole]

/-- The users in the two seats play. -/
theorem isPlayer_of_seat {s : Server} {roomId : RoomId} {whiteId blackId : UserId}
    (hplayers : getRoomPlayers s roomId = (some whiteId, some blackId))
    (huser : userId = whiteId ∨ userId = blackId) : IsPlayer s roomId userId := by
  obtain ⟨room, hroom, hwhite, hblack⟩ := getRoomPlayers_eq_some hplayers
  obtain rfl | rfl := huser
  · exact Or.inl (memberRole_of_seat hroom hwhite)
  · exact Or.inr (memberRole_of_seat hroom hblack)

/-- Nobody sits on both seats. -/
theorem seats_ne {s : Server} {roomId : RoomId} {whiteId blackId : UserId}
    (hplayers : getRoomPlayers s roomId = (some whiteId, some blackId)) : whiteId ≠ blackId := by
  obtain ⟨room, hroom, hwhite, hblack⟩ := getRoomPlayers_eq_some hplayers
  rintro rfl
  have hboth := (memberRole_of_seat hroom hwhite).symm.trans (memberRole_of_seat hroom hblack)
  exact absurd hboth (by decide)

end Seats

/-! ### The invariant -/

/-- Both seats of the room are filled and its engine has ended. -/
def Settled (s : Server) (roomId : RoomId) : Prop :=
  (∃ whiteId blackId, getRoomPlayers s roomId = (some whiteId, some blackId)) ∧
    ∃ engine, s.engines.get? roomId = some engine ∧ engine.gameOver = true

/-- What holds between the maps of the services in every state a run reaches. -/
structure RoomInv (s : Server) : Prop where
  /-- A member of a room is mapped to the room. -/
  mapped : ∀ {roomId room userId member}, s.rooms.get? roomId = some room →
    room.members.get? userId = some member → s.userRoom.get? userId = some roomId
  /-- An engine belongs to a room. -/
  roomed : ∀ {roomId engine}, s.engines.get? roomId = some engine →
    ∃ room, s.rooms.get? roomId = some room
  /-- A room whose result has been applied is settled. -/
  finished : ∀ {roomId}, isEloUpdated s roomId = true → Settled s roomId
  /-- Ratings are written for rooms whose engine has ended. -/
  calls : ∀ call ∈ s.setEloCalls, ∃ engine, s.engines.get? call.roomId = some engine ∧
    engine.gameOver = true

/-- A result that is settled stays so while the seats and the engine stay. -/
theorem Settled.of_eq {s t : Server} {roomId : RoomId} (h : Settled s roomId)
    (hplayers : getRoomPlayers t roomId = getRoomPlayers s roomId)
    (hengine : t.engines.get? roomId = s.engines.get? roomId) : Settled t roomId := by
  unfold Settled
  rw [hplayers, hengine]
  exact h

/-- Rooms that are the same have the same players. -/
theorem getRoomPlayers_congr {s t : Server} {roomId : RoomId}
    (h : t.rooms.get? roomId = s.rooms.get? roomId) :
    getRoomPlayers t roomId = getRoomPlayers s roomId := by
  unfold getRoomPlayers
  rw [h]

/-- The mark is the room's. -/
theorem isEloUpdated_congr {s t : Server} {roomId : RoomId}
    (h : t.rooms.get? roomId = s.rooms.get? roomId) :
    isEloUpdated t roomId = isEloUpdated s roomId := by
  unfold isEloUpdated
  rw [h]

namespace RoomInv

variable {s : Server} {roomId : RoomId} {userId : UserId}

/-- A server starts without rooms. -/
theorem initial (users : Dict UserId User) (games : Dict RoomId GameResult) :
    RoomInv (Server.initial users games) where
  mapped := fun h _ => absurd h (by simp [Server.initial])
  roomed := fun h => absurd h (by simp [Server.initial])
  finished := fun h => absurd h (by simp [Server.initial, isEloUpdated])
  calls := fun _ h => absurd h (by simp [Server.initial])

/-- A user who is not mapped is a member of no room. -/
theorem not_member (h : RoomInv s) (huser : s.userRoom.get? userId = none) {room : Room}
    (hroom : s.rooms.get? roomId = some room) : room.members.get? userId = none := by
  cases hmember : room.members.get? userId with
  | none => rfl
  | some member => exact absurd ((h.mapped hroom hmember).symm.trans huser) (by simp)

/-- A player is mapped to the room they play in. -/
theorem mapped_of_isPlayer (h : RoomInv s) (hplayer : IsPlayer s roomId userId) :
    s.userRoom.get? userId = some roomId := by
  have hmember : ∃ role, memberRole s roomId userId = some role :=
    hplayer.elim (fun h => ⟨_, h⟩) (fun h => ⟨_, h⟩)
  obtain ⟨role, hrole⟩ := hmember
  obtain ⟨member, hget, -⟩ := Option.map_eq_some_iff.mp hrole
  obtain ⟨room, hroom, hmember⟩ := Option.bind_eq_some_iff.mp hget
  exact h.mapped hroom hmember

/-- Whoever sits on a seat is mapped to the room. -/
theorem mapped_of_seat (h : RoomInv s) (hseat : (getRoomPlayers s roomId).1 = some userId ∨
    (getRoomPlayers s roomId).2 = some userId) : s.userRoom.get? userId = some roomId := by
  unfold getRoomPlayers at hseat
  split at hseat
  · exact hseat.elim (fun h => absurd h (by simp)) fun h => absurd h (by simp)
  · next room hroom =>
    obtain hseat | hseat := hseat
    · exact h.mapped_of_isPlayer (Or.inl (memberRole_of_seat hroom hseat))
    · exact h.mapped_of_isPlayer (Or.inr (memberRole_of_seat hroom hseat))

/-! ### Writes to one room -/

/-- A room is opened: its members were mapped to no room. -/
theorem opened (h : RoomInv s) {t : Server} {new : Room}
    (hrooms : t.rooms = s.rooms.set roomId new) (hpending : new.eloUpdated = false)
    (hengines : t.engines = s.engines) (hcalls : t.setEloCalls = s.setEloCalls)
    (hnew : ∀ u member, new.members.get? u = some member → t.userRoom.get? u = some roomId)
    (hold : ∀ u r, s.userRoom.get? u = some r → t.userRoom.get? u = some r) : RoomInv t := by
  have hget : ∀ r, t.rooms.get? r = if r = roomId then some new else s.rooms.get? r :=
    fun r => by rw [hrooms, Dict.get?_set]
  -- the four parts of the invariant, the new room first in each
  refine ⟨fun {r room u member} hroom hmember => ?_, fun {r engine} hengine => ?_,
    fun {r} hmarked => ?_, ?_⟩
  · rw [hget] at hroom
    split at hroom
    · next hr =>
      cases hroom
      rw [hr]
      exact hnew u member hmember
    · exact hold u r (h.mapped hroom hmember)
  · rw [hget]
    split
    · exact ⟨new, rfl⟩
    · exact h.roomed (hengines ▸ hengine)
  · -- the mark is another room's: the new room is not marked
    have hne : r ≠ roomId := by
      rintro rfl
      unfold isEloUpdated at hmarked
      rw [hget, if_pos rfl] at hmarked
      change new.eloUpdated = true at hmarked
      exact absurd (hmarked.symm.trans hpending) (by simp)
    have hsame : t.rooms.get? r = s.rooms.get? r := by rw [hget, if_neg hne]
    rw [isEloUpdated_congr hsame] at hmarked
    exact (h.finished hmarked).of_eq (getRoomPlayers_congr hsame) (by rw [hengines])
  · rw [hcalls, hengines]
    exact h.calls

/-- A room is changed; the engines stay. -/
theorem changed (h : RoomInv s) {t : Server} {f : Room → Room}
    (hrooms : t.rooms = s.rooms.modify roomId f) (hengines : t.engines = s.engines)
    (hcalls : t.setEloCalls = s.setEloCalls)
    (hmembers : ∀ room, s.rooms.get? roomId = some room → ∀ u member,
      (f room).members.get? u = some member → t.userRoom.get? u = some roomId)
    (hothers : ∀ r u, r ≠ roomId → s.userRoom.get? u = some r → t.userRoom.get? u = some r)
    (hmarked : ∀ room, s.rooms.get? roomId = some room → (f room).eloUpdated = true →
      Settled t roomId) : RoomInv t := by
  have hget : ∀ r, t.rooms.get? r =
      if r = roomId then (s.rooms.get? roomId).map f else s.rooms.get? r :=
    fun r => by rw [hrooms, Dict.get?_modify]
  refine ⟨fun {r room u member} hroom hmember => ?_, fun {r engine} hengine => ?_,
    fun {r} hmark => ?_, ?_⟩
  -- in each part, the room that is written and the others
  · rw [hget] at hroom
    split at hroom
    · next hr =>
      obtain ⟨room', hroom', rfl⟩ := Option.map_eq_some_iff.mp hroom
      rw [hr]
      exact hmembers room' hroom' u member hmember
    · next hr => exact hothers r u hr (h.mapped hroom hmember)
  · obtain ⟨room, hroom⟩ := h.roomed (hengines ▸ hengine)
    rw [hget]
    split
    · next hr => exact ⟨f room, by rw [← hr, hroom, Option.map_some]⟩
    · exact ⟨room, hroom⟩
  · by_cases hr : r = roomId
    · unfold isEloUpdated at hmark
      rw [hget, if_pos hr] at hmark
      cases hroom : s.rooms.get? roomId with
      | none =>
        rw [hroom] at hmark
        exact absurd hmark (by simp)
      | some room =>
        rw [hroom] at hmark
        rw [hr]
        exact hmarked room hroom hmark
    · have hsame : t.rooms.get? r = s.rooms.get? r := by rw [hget, if_neg hr]
      rw [isEloUpdated_congr hsame] at hmark
      exact (h.finished hmark).of_eq (getRoomPlayers_congr hsame) (by rw [hengines])
  · rw [hcalls, hengines]
    exact h.calls

/-- A change that keeps the mark and the seats of a room keeps it settled. -/
theorem settled_of_seats (h : RoomInv s) {t : Server} {f : Room → Room} {room : Room}
    (hroom : s.rooms.get? roomId = some room) (hrooms : t.rooms = s.rooms.modify roomId f)
    (hengines : t.engines = s.engines) (hmark : room.eloUpdated = true)
    (hseats : ∀ role, role ≠ .viewer → seatOf (f room) role = seatOf room role) :
    Settled t roomId := by
  have hmarked : isEloUpdated s roomId = true := by
    unfold isEloUpdated
    rw [hroom]
    exact hmark
  refine (h.finished hmarked).of_eq ?_ (by rw [hengines])
  unfold getRoomPlayers
  rw [hrooms, Dict.get?_modify, if_pos rfl, hroom, Option.map_some]
  exact Prod.ext (hseats .white (by decide)) (hseats .black (by decide))

/-! ### The actions -/

/-- A user who was free opens a room. -/
theorem openRoom (h : RoomInv s) (hcreator : s.userRoom.get? userId = none) :
    RoomInv ((Action.openRoom roomId userId).apply s) := by
  have hmap : ∀ u, ((Action.openRoom roomId userId).apply s).userRoom.get? u =
      if u = userId then some roomId else s.userRoom.get? u := fun u => Dict.get?_set _ _ _ _
  refine h.opened rfl rfl rfl rfl (fun u member hmember => ?_) (fun u r hu => ?_)
  · change (Dict.empty.set userId _).get? u = some member at hmember
    rw [Dict.get?_set] at hmember
    rw [hmap]
    split at hmember
    · next hu => rw [if_pos hu]
    · exact absurd hmember (by simp)
  · -- the creator was mapped to no room, so no older mapping is lost
    rw [hmap, if_neg, hu]
    rintro rfl
    exact absurd (hu.symm.trans hcreator) (by simp)

/-- Two users who were free are seated. -/
theorem openMatchedRoom (h : RoomInv s) {userA userB : UserId}
    (hA : s.userRoom.get? userA = none) (hB : s.userRoom.get? userB = none) :
    RoomInv ((Action.openMatchedRoom roomId userA userB).apply s) := by
  have hmap : ∀ u, ((Action.openMatchedRoom roomId userA userB).apply s).userRoom.get? u =
      if u = userB then some roomId else if u = userA then some roomId
        else s.userRoom.get? u := by
    intro u
    change ((s.userRoom.set userA roomId).set userB roomId).get? u = _
    rw [Dict.get?_set, Dict.get?_set]
  refine h.opened rfl rfl rfl rfl (fun u member hmember => ?_) (fun u r hu => ?_)
  · -- the members are the two players
    change ((Dict.empty.set userA _).set userB _).get? u = some member at hmember
    rw [Dict.get?_set, Dict.get?_set] at hmember
    rw [hmap]
    split at hmember
    · next hu => rw [if_pos hu]
    · split at hmember
      · next huB huA => rw [if_neg huB, if_pos huA]
      · exact absurd hmember (by simp)
  · -- a user mapped before is neither of them
    have hneA : u ≠ userA := by
      rintro rfl
      exact absurd (hu.symm.trans hA) (by simp)
    have hneB : u ≠ userB := by
      rintro rfl
      exact absurd (hu.symm.trans hB) (by simp)
    rw [hmap, if_neg hneB, if_neg hneA, hu]

/-- A user who was free joins. -/
theorem join (h : RoomInv s) {room : Room} (huser : s.userRoom.get? userId = none)
    (hroom : s.rooms.get? roomId = some room) :
    RoomInv ((Action.join roomId userId (nextRole room)).apply s) := by
  have hmap : ∀ u, ((Action.join roomId userId (nextRole room)).apply s).userRoom.get? u =
      if u = userId then some roomId else s.userRoom.get? u := fun u => Dict.get?_set _ _ _ _
  refine h.changed rfl rfl rfl (fun room' hroom' u member hmember => ?_) (fun r u _ hu => ?_)
    (fun room' hroom' hmark => ?_)
  · -- the members are those of before and the newcomer
    change (room'.members.set userId _).get? u = some member at hmember
    rw [Dict.get?_set] at hmember
    rw [hmap]
    split at hmember
    · next hu => rw [if_pos hu]
    · next hu =>
      rw [if_neg hu]
      exact h.mapped hroom' hmember
  · -- the newcomer was not mapped
    rw [hmap, if_neg, hu]
    rintro rfl
    exact absurd (hu.symm.trans huser) (by simp)
  · -- a room whose result has been applied has both seats filled, so a viewer joins
    obtain rfl : room' = room := Option.some.inj (hroom'.symm.trans hroom)
    have hmarked : isEloUpdated s roomId = true := by
      unfold isEloUpdated
      rw [hroom]
      exact hmark
    obtain ⟨⟨whiteId, blackId, hplayers⟩, -⟩ := h.finished hmarked
    obtain ⟨room'', hroom'', hwhite, hblack⟩ := getRoomPlayers_eq_some hplayers
    obtain rfl : room'' = room' := Option.some.inj (hroom''.symm.trans hroom)
    refine h.settled_of_seats hroom rfl rfl hmark fun role hrole => ?_
    rw [nextRole_of_seats hwhite hblack]
    exact seatOf_join_viewer (h.not_member huser hroom) hrole

/-- A viewer leaves. -/
theorem leave (h : RoomInv s) (huser : s.userRoom.get? userId = some roomId) {room : Room}
    (hroom : s.rooms.get? roomId = some room)
    (hviewer : ∀ member, room.members.get? userId = some member → member.role = .viewer) :
    RoomInv ((Action.leave roomId userId).apply s) := by
  have hmap : ∀ u, ((Action.leave roomId userId).apply s).userRoom.get? u =
      if u = userId then none else s.userRoom.get? u := fun u => Dict.get?_pop _ _ _
  refine h.changed rfl rfl rfl (fun room' hroom' u member hmember => ?_) (fun r u hr hu => ?_)
    (fun room' hroom' hmark => ?_)
  · -- the leaver is no member any more
    change (room'.members.pop userId).get? u = some member at hmember
    rw [Dict.get?_pop] at hmember
    rw [hmap]
    split at hmember
    · exact absurd hmember (by simp)
    · next hu =>
      rw [if_neg hu]
      exact h.mapped hroom' hmember
  · rw [hmap, if_neg, hu]
    rintro rfl
    exact hr (Option.some.inj (hu.symm.trans huser))
  · -- a viewer leaves, so the seats stay
    obtain rfl : room' = room := Option.some.inj (hroom'.symm.trans hroom)
    exact h.settled_of_seats hroom rfl rfl hmark fun role hrole => seatOf_leave hviewer hrole

/-- A connection says nothing about roles. -/
theorem connection (h : RoomInv s) {f : RoomMember → RoomMember}
    (hrole : ∀ member, (f member).role = member.role) :
    RoomInv ((Action.connection roomId userId f).apply s) := by
  refine h.changed rfl rfl rfl (fun room hroom u member hmember => ?_) (fun _ _ _ hu => hu)
    (fun room hroom hmark => ?_)
  · change (room.members.modify userId f).get? u = some member at hmember
    rw [Dict.get?_modify] at hmember
    split at hmember
    · next hu =>
      obtain ⟨member', hmember', -⟩ := Option.map_eq_some_iff.mp hmember
      rw [hu]
      exact h.mapped hroom hmember'
    · exact h.mapped hroom hmember
  · exact h.settled_of_seats hroom rfl rfl hmark fun role _ => seatOf_modify hrole

theorem startGame (h : RoomInv s) : RoomInv ((Action.startGame roomId).apply s) :=
  h.changed rfl rfl rfl (fun _ hroom _ _ hmember => h.mapped hroom hmember)
    (fun _ _ _ hu => hu)
    (fun _ hroom hmark => h.settled_of_seats hroom rfl rfl hmark fun _ _ => rfl)

/-- A room is marked when its result applies. -/
theorem markElo (h : RoomInv s) {whiteId blackId : UserId}
    (happ : Applicable s roomId whiteId blackId) :
    RoomInv ((Action.markElo roomId).apply s) := by
  refine h.changed rfl rfl rfl (fun _ hroom _ _ hmember => h.mapped hroom hmember)
    (fun _ _ _ hu => hu) (fun room hroom _ => ?_)
  obtain ⟨engine, hengine, hover, -⟩ := happ.ended
  refine ⟨⟨whiteId, blackId, ?_⟩, engine, hengine, hover⟩
  exact (EloFrame.getRoomPlayers_eq (Server.members_modifyRoom fun _ => by rfl)).trans happ.players

/-- A rating is written when the result of an ended game applies. -/
theorem setElo (h : RoomInv s) {whiteId blackId : UserId} {elo : Int} {raised : Bool}
    (happ : Applicable s roomId whiteId blackId) :
    RoomInv ((Action.setElo roomId userId elo raised).apply s) := by
  refine ⟨h.mapped, h.roomed, h.finished, fun call hcall => ?_⟩
  obtain hcall | hcall := List.mem_append.mp hcall
  · exact h.calls call hcall
  · obtain ⟨engine, hengine, hover, -⟩ := happ.ended
    rw [List.mem_singleton.mp hcall]
    exact ⟨engine, hengine, hover⟩

/-- An engine is written whose predecessor, if its game had ended, stays what it was. -/
theorem wroteEngine (h : RoomInv s) {engine : GameEngine}
    (hroom : ∃ room, s.rooms.get? roomId = some room)
    (hover : ∀ before, s.engines.get? roomId = some before → before.gameOver = true →
      engine = before) : RoomInv (s.setEngine roomId engine) := by
  have hget : ∀ {r e}, s.engines.get? r = some e → e.gameOver = true →
      (s.setEngine roomId engine).engines.get? r = some e := by
    intro r e he hend
    rw [Server.get?_setEngine]
    split
    · next hr => rw [hover e (hr ▸ he) hend]
    · exact he
  -- an engine of an ended game is found again, whichever was written
  refine ⟨h.mapped, fun {r e} he => ?_, fun {r} hmarked => ?_, fun call hcall => ?_⟩
  · rw [Server.get?_setEngine] at he
    split at he
    · next hr => exact hr ▸ hroom
    · exact h.roomed he
  · obtain ⟨hplayers, e, he, hend⟩ := h.finished hmarked
    exact ⟨hplayers, e, hget he hend, hend⟩
  · obtain ⟨e, he, hend⟩ := h.calls call hcall
    exact ⟨e, hget he hend, hend⟩

/-- **Every action keeps the invariant.** -/
theorem step (h : RoomInv s) {a : Action} (ha : a.Enabled s) : RoomInv (a.apply s) := by
  cases a with
  | openRoom roomId creator => exact h.openRoom ha
  | openMatchedRoom roomId userA userB => exact h.openMatchedRoom ha.1 ha.2.1
  | createEngine roomId board =>
    obtain ⟨hnone, hroom, -⟩ := ha
    exact h.wroteEngine hroom fun before hbefore => absurd (hbefore.symm.trans hnone) (by simp)
  | startGame roomId => exact h.startGame
  | join roomId userId role =>
    obtain ⟨huser, room, hroom, rfl⟩ := ha
    exact h.join huser hroom
  | leave roomId userId =>
    obtain ⟨huser, room, hroom, hviewer⟩ := ha
    exact h.leave huser hroom hviewer
  | connection roomId userId f => exact h.connection ha
  | engine roomId before call =>
    -- a game that is over stays over under every call
    refine h.wroteEngine (h.roomed ha) fun before' hbefore' hover => ?_
    obtain rfl : before' = before := Option.some.inj (hbefore'.symm.trans ha)
    exact call.apply_of_gameOver hover
  | setElo roomId userId elo raised =>
    obtain ⟨whiteId, blackId, happ, -⟩ := ha
    exact h.setElo happ
  | markElo roomId =>
    obtain ⟨whiteId, blackId, happ⟩ := ha
    exact h.markElo happ
  | register | setQueue => exact ⟨h.mapped, h.roomed, h.finished, h.calls⟩
  | aside state =>
    change state = _ at ha
    change RoomInv state
    rw [ha]
    exact ⟨h.mapped, h.roomed, h.finished, h.calls⟩

theorem of_acts (h : RoomInv s) {t : Server} {allowed : Action → Prop} (hacts : Acts allowed s t) :
    RoomInv t :=
  hacts.invariant (fun _ _ _ ha hu => hu.step ha) h

/-- **The invariant holds in every state of a run.** -/
theorem run (cfg : Config) (users : Dict UserId User) (games : Dict RoomId GameResult)
    (events : List (Env × Event)) :
    RoomInv ((Server.initial users games).play cfg events) :=
  Server.play_invariant (fun _ _ ha h => h.step ha) (initial users games) events

end RoomInv

end KungFuChess
