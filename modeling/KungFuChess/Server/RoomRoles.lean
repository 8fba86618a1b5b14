import KungFuChess.Server.RoomInv

/-!
# Who sits where

`SeatMap` is what the room service is for, without its records: which room each user is
in, and which role each member of a room has. `SeatMap.Step` lists the changes it may
make, and `WellSeated` is kept by each of them (`WellSeated.step`): a user is in a room
exactly when the room counts the user among its members, and every room has one White and
at most one Black. White and Black keep their roles (`SeatMap.Step.role_kept`).

The second half connects `RoomService`. `Server.seatMap` reads the seat map off its two
maps, and every call, rejected or cut short by the `on_room_created` hook, makes one of
these steps (`RoomCall.seatMap_step`). The roles are given out by counting players, which
is right because the seat map is well formed when they are counted.
-/

namespace KungFuChess

open Effect

/-! ### Seat maps -/

/-- The room of each user, and the roles of the members of each room. -/
structure SeatMap where
  room : UserId → Option RoomId
  members : RoomId → Option (UserId → Option PlayerRole)

namespace SeatMap

variable (σ : SeatMap) (roomId : RoomId) (userId : UserId)

/-- A room is opened for its first members. -/
def opened (roles : UserId → Option PlayerRole) : SeatMap where
  room := fun u => if (roles u).isSome then some roomId else σ.room u
  members := Function.update σ.members roomId (some roles)

/-- A user joins a room. -/
def joined (role : PlayerRole) : SeatMap where
  room := Function.update σ.room userId (some roomId)
  members := Function.update σ.members roomId
    ((σ.members roomId).map fun roles => Function.update roles userId (some role))

/-- A user leaves a room. -/
def left : SeatMap where
  room := Function.update σ.room userId none
  members := Function.update σ.members roomId
    ((σ.members roomId).map fun roles => Function.update roles userId none)

/-- The role of a user in a room. -/
def role : Option PlayerRole := (σ.members roomId).bind fun roles => roles userId

/-- What may happen to a seat map. -/
inductive Step (σ : SeatMap) : SeatMap → Prop where
  | kept : Step σ σ
  /-- A room that did not exist is opened with one White and at most one Black. -/
  | opened (roomId : RoomId) (roles : UserId → Option PlayerRole)
      (hnew : σ.members roomId = none) (hfree : ∀ u, (roles u).isSome → σ.room u = none)
      (hwhite : ∃! u, roles u = some .white)
      (hblack : ∀ u u', roles u = some .black → roles u' = some .black → u = u') :
      Step σ (σ.opened roomId roles)
  /-- A user who is in no room takes a seat nobody has, or watches. -/
  | joined (roomId : RoomId) (userId : UserId) (role : PlayerRole)
      (roles : UserId → Option PlayerRole) (hroom : σ.members roomId = some roles)
      (hfree : σ.room userId = none)
      (hseat : role ≠ .viewer → ∀ u, roles u ≠ some role) :
      Step σ (σ.joined roomId userId role)
  /-- A viewer leaves. -/
  | left (roomId : RoomId) (userId : UserId) (roles : UserId → Option PlayerRole)
      (hroom : σ.members roomId = some roles) (hmapped : σ.room userId = some roomId)
      (hviewer : ∀ role, roles userId = some role → role = .viewer) :
      Step σ (σ.left roomId userId)

/-! The roles after each of the changes. -/

variable {σ} (r : RoomId) (u : UserId)

/-- A room that is opened has the roles given, whatever it had. -/
theorem role_opened (roles : UserId → Option PlayerRole) :
    (σ.opened roomId roles).role r u = if r = roomId then roles u else σ.role r u := by
  dsimp only [role, opened]
  rw [Function.update_apply]
  split <;> rfl

/-- A user who joins has their role, the others keep theirs. -/
theorem role_joined (joined : PlayerRole) : (σ.joined roomId userId joined).role r u =
    if r = roomId ∧ u = userId then (σ.members roomId).map fun _ => joined else σ.role r u := by
  dsimp only [role, SeatMap.joined]
  rw [Function.update_apply]
  -- the room first, then the user
  by_cases hr : r = roomId
  · subst hr
    rw [if_pos rfl]
    cases σ.members r with
    | none => split <;> rfl
    | some roles =>
      rw [Option.map_some, Option.bind_some, Function.update_apply]
      by_cases hu : u = userId
      · rw [if_pos hu, if_pos ⟨rfl, hu⟩]
        rfl
      · rw [if_neg hu, if_neg fun h => hu h.2]
        rfl
  · rw [if_neg hr, if_neg fun h => hr h.1]

/-- A user who leaves has none. -/
theorem role_left : (σ.left roomId userId).role r u =
    if r = roomId ∧ u = userId then none else σ.role r u := by
  dsimp only [role, left]
  rw [Function.update_apply]
  -- only the roles of that room change, and there only the user's
  by_cases hr : r = roomId
  · subst hr
    rw [if_pos rfl]
    cases σ.members r with
    | none => split <;> rfl
    | some roles =>
      rw [Option.map_some, Option.bind_some, Function.update_apply]
      by_cases hu : u = userId
      · rw [if_pos hu, if_pos ⟨rfl, hu⟩]
      · rw [if_neg hu, if_neg fun h => hu h.2]
        rfl
  · rw [if_neg hr, if_neg fun h => hr h.1]

end SeatMap

/-- A look-up that is known. -/
theorem exists_eq_left_some {α : Type} {a : α} {p : α → Prop} :
    (∃ b, some a = some b ∧ p b) ↔ p a := by
  simp

/-- A user is in a room exactly as a member of it; one White, and one Black at most. -/
structure WellSeated (σ : SeatMap) : Prop where
  mapped : ∀ u r, σ.room u = some r ↔ ∃ roles, σ.members r = some roles ∧ (roles u).isSome
  white : ∀ r roles, σ.members r = some roles → ∃! u, roles u = some .white
  black : ∀ r roles, σ.members r = some roles →
    ∀ u u', roles u = some .black → roles u' = some .black → u = u'

namespace WellSeated

variable {σ τ : SeatMap}

/-- A user who is in no room is a member of none. -/
theorem not_member (h : WellSeated σ) {u : UserId} (hfree : σ.room u = none) {r : RoomId}
    {roles : UserId → Option PlayerRole} (hroles : σ.members r = some roles) : roles u = none := by
  by_contra hmember
  have hmapped := (h.mapped u r).mpr ⟨roles, hroles, Option.isSome_iff_ne_none.mpr hmember⟩
  exact absurd (hmapped.symm.trans hfree) (by simp)

/-- **A new room, of users who were free, with one White.** -/
theorem opened (h : WellSeated σ) {roomId : RoomId} {roles : UserId → Option PlayerRole}
    (hnew : σ.members roomId = none) (hfree : ∀ u, (roles u).isSome → σ.room u = none)
    (hwhite : ∃! u, roles u = some .white)
    (hblack : ∀ u u', roles u = some .black → roles u' = some .black → u = u') :
    WellSeated (σ.opened roomId roles) := by
  refine ⟨fun u r => ?_, fun r roles' hr => ?_, fun r roles' hr => ?_⟩
  · dsimp only [SeatMap.opened]
    by_cases hr : r = roomId
    · subst hr
      rw [Function.update_self, exists_eq_left_some]
      split
      · next hmember => exact iff_of_true rfl hmember
      · next hmember =>
        -- a room that did not exist is nobody's room
        refine iff_of_false (fun hmapped => ?_) hmember
        obtain ⟨roles', hroles', -⟩ := (h.mapped u r).mp hmapped
        exact absurd (hroles'.symm.trans hnew) (by simp)
    · rw [Function.update_of_ne hr, ← h.mapped u r]
      split
      · next hmember =>
        refine iff_of_false (fun heq => hr (Option.some.inj heq).symm) ?_
        rw [hfree u hmember]
        simp
      · exact Iff.rfl
  · dsimp only [SeatMap.opened] at hr
    by_cases heq : r = roomId
    · subst heq
      rw [Function.update_self] at hr
      exact Option.some.inj hr ▸ hwhite
    · rw [Function.update_of_ne heq] at hr
      exact h.white r roles' hr
  · dsimp only [SeatMap.opened] at hr
    by_cases heq : r = roomId
    · subst heq
      rw [Function.update_self] at hr
      exact Option.some.inj hr ▸ hblack
    · rw [Function.update_of_ne heq] at hr
      exact h.black r roles' hr

/-- The room changes its members and the others do not. -/
theorem changed (h : WellSeated σ) {roomId : RoomId} (userId : UserId) (role : Option PlayerRole)
    {roles : UserId → Option PlayerRole} (hroom : σ.members roomId = some roles)
    (hmembers : τ.members =
      Function.update σ.members roomId (some (Function.update roles userId role)))
    (hmap : ∀ r, τ.room userId = some r ↔ role.isSome ∧ r = roomId)
    (hothers : ∀ u, u ≠ userId → τ.room u = σ.room u)
    (hmapped : ∀ r, σ.room userId = some r → r = roomId)
    (hplayer : ∀ r, role = some r → r ≠ .viewer → ∀ u, roles u ≠ some r)
    (hviewer : ∀ r, roles userId = some r → r = .viewer) : WellSeated τ := by
  have hget : ∀ r, r ≠ roomId → τ.members r = σ.members r := fun r hr => by
    rw [hmembers, Function.update_of_ne hr]
  -- the one entry that changes is the user's
  have hself : τ.members roomId = some (Function.update roles userId role) := by
    rw [hmembers, Function.update_self]
  -- the user held no seat, and takes one that was free
  have hseat : ∀ {r}, r ≠ PlayerRole.viewer → ∀ {u}, Function.update roles userId role u = some r →
      (u = userId ∧ role = some r) ∨ (u ≠ userId ∧ roles u = some r ∧ role ≠ some r) := by
    intro r hr u hu
    by_cases heq : u = userId
    · rw [heq, Function.update_self] at hu
      exact Or.inl ⟨heq, hu⟩
    · rw [Function.update_of_ne heq] at hu
      exact Or.inr ⟨heq, hu, fun hrole => hplayer r hrole hr u hu⟩
  -- two holders of a seat are old holders of it, or the user who has taken it
  have hunique : ∀ {r}, r ≠ PlayerRole.viewer →
      (∀ u u', roles u = some r → roles u' = some r → u = u') →
      ∀ u u', Function.update roles userId role u = some r →
        Function.update roles userId role u' = some r → u = u' := by
    intro r hr hold u u' hu hu'
    rcases hseat hr hu with ⟨rfl, hrole⟩ | ⟨-, hu, hrole⟩ <;>
      rcases hseat hr hu' with ⟨rfl, hrole'⟩ | ⟨-, hu', hrole'⟩
    · rfl
    · exact absurd hrole hrole'
    · exact absurd hrole' hrole
    · exact hold u u' hu hu'
  -- the map, White's seat, Black's seat
  refine ⟨fun u r => ?_, fun r roles' hr => ?_, fun r roles' hr => ?_⟩
  · by_cases hr : r = roomId
    · subst hr
      rw [hself, exists_eq_left_some]
      by_cases hu : u = userId
      · rw [hu, Function.update_self, hmap]
        exact and_iff_left rfl
      · rw [Function.update_of_ne hu, hothers u hu, h.mapped, hroom, exists_eq_left_some]
    · rw [hget r hr, ← h.mapped]
      by_cases hu : u = userId
      · rw [hu, hmap]
        exact iff_of_false (fun hin => hr hin.2) fun hin => hr (hmapped r hin)
      · rw [hothers u hu]
  · by_cases heq : r = roomId
    · subst heq
      obtain rfl := Option.some.inj (hself.symm.trans hr)
      obtain ⟨white, hwhite, honly⟩ := h.white r roles hroom
      -- White is not the user who has changed, for that user was a viewer at most
      have hne : white ≠ userId := by
        rintro rfl
        exact absurd (hviewer _ hwhite) (by simp)
      have hstill : Function.update roles userId role white = some .white := by
        rw [Function.update_of_ne hne, hwhite]
      refine ⟨white, hstill, fun u hu => ?_⟩
      exact hunique (by simp) (fun u u' hu hu' => (honly u hu).trans (honly u' hu').symm) u white hu
        hstill
    · rw [hget r heq] at hr
      exact h.white r roles' hr
  · by_cases heq : r = roomId
    · subst heq
      obtain rfl := Option.some.inj (hself.symm.trans hr)
      exact hunique (by simp) (h.black r roles hroom)
    · rw [hget r heq] at hr
      exact h.black r roles' hr

/-- **Every step keeps the seat map well formed.** -/
theorem step (h : WellSeated σ) (hstep : SeatMap.Step σ τ) : WellSeated τ := by
  -- each kind of step is a room opened anew or a room changed in one entry
  cases hstep with
  | kept => exact h
  | opened roomId roles hnew hfree hwhite hblack => exact h.opened hnew hfree hwhite hblack
  | joined roomId userId role roles hroom hfree hseat =>
    refine h.changed userId (some role) hroom ?_ (fun r => ?_) (fun u hu => ?_) (fun r hr => ?_) ?_ ?_
    · dsimp only [SeatMap.joined]
      rw [hroom, Option.map_some]
    · dsimp only [SeatMap.joined]
      rw [Function.update_self, Option.some.injEq]
      exact ⟨fun heq => ⟨rfl, heq.symm⟩, fun hin => hin.2.symm⟩
    · exact Function.update_of_ne hu _ _
    · exact absurd (hfree.symm.trans hr) (by simp)
    · intro r hr hplayer
      exact Option.some.inj hr ▸ hseat (Option.some.inj hr ▸ hplayer)
    · intro r hr
      exact absurd ((h.not_member hfree hroom).symm.trans hr) (by simp)
  | left roomId userId roles hroom hmapped hviewer =>
    refine h.changed userId none hroom ?_ (fun r => ?_) (fun u hu => ?_) (fun r hr => ?_) ?_ hviewer
    · dsimp only [SeatMap.left]
      rw [hroom, Option.map_some]
    · dsimp only [SeatMap.left]
      rw [Function.update_self]
      simp
    · exact Function.update_of_ne hu _ _
    · exact Option.some.inj (hr.symm.trans hmapped)
    · exact fun r hr => absurd hr (by simp)

end WellSeated

/-- **White and Black keep their roles.** Only viewers leave. -/
theorem SeatMap.Step.role_kept {σ τ : SeatMap} (hstep : SeatMap.Step σ τ) (h : WellSeated σ)
    {r : RoomId} {u : UserId} {role : PlayerRole} (hrole : σ.role r u = some role) :
    role = .viewer ∨ τ.role r u = some role := by
  obtain ⟨roles, hroles, hmember⟩ := Option.bind_eq_some_iff.mp hrole
  unfold SeatMap.role
  cases hstep with
  | kept => exact Or.inr hrole
  | opened roomId roles' hnew =>
    have hne : r ≠ roomId := by
      rintro rfl
      exact absurd (hroles.symm.trans hnew) (by simp)
    dsimp only [SeatMap.opened]
    rw [Function.update_of_ne hne]
    exact Or.inr hrole
  | joined roomId userId role' roles' hroom hfree =>
    dsimp only [SeatMap.joined]
    by_cases hr : r = roomId
    · subst hr
      obtain rfl := Option.some.inj (hroles.symm.trans hroom)
      -- the user who joins was no member
      have hne : u ≠ userId := by
        rintro rfl
        exact absurd ((h.not_member hfree hroom).symm.trans hmember) (by simp)
      rw [Function.update_self, hroom, Option.map_some, Option.bind_some, Function.update_of_ne hne]
      exact Or.inr hmember
    · rw [Function.update_of_ne hr]
      exact Or.inr hrole
  | left roomId userId roles' hroom hmapped hviewer =>
    dsimp only [SeatMap.left]
    by_cases hr : r = roomId
    · subst hr
      obtain rfl := Option.some.inj (hroles.symm.trans hroom)
      by_cases hu : u = userId
      · exact Or.inl (hviewer role (hu ▸ hmember))
      · rw [Function.update_self, hroom, Option.map_some, Option.bind_some,
          Function.update_of_ne hu]
        exact Or.inr hmember
    · rw [Function.update_of_ne hr]
      exact Or.inr hrole

/-! ### The seat map of the room service -/

open RoomService GameService

/-- The roles of the members of a room. -/
def Room.roles (room : Room) (userId : UserId) : Option PlayerRole :=
  (room.members.get? userId).map RoomMember.role

/-- The two maps of the room service, as a seat map. -/
def Server.seatMap (s : Server) : SeatMap where
  room := s.userRoom.get?
  members := fun roomId => (s.rooms.get? roomId).map Room.roles

/-- The roles the room service reads are the roles of the seat map. -/
theorem Server.role_seatMap (s : Server) (roomId : RoomId) (userId : UserId) :
    s.seatMap.role roomId userId = memberRole s roomId userId := by
  unfold SeatMap.role memberRole Server.seatMap
  dsimp only
  cases s.rooms.get? roomId with
  | none => rfl
  | some room => rfl

section Writes

variable {s t : Server} {env : Env} {roomId : RoomId}

/-- A write that keeps the roles in every room and the room of every user. -/
theorem seatMap_eq (hrooms : ∀ r, (t.rooms.get? r).map Room.roles = (s.rooms.get? r).map Room.roles)
    (hmap : t.userRoom = s.userRoom) : t.seatMap = s.seatMap := by
  unfold Server.seatMap
  rw [hmap, funext hrooms]

/-- A change of a room that leaves its roles alone. -/
theorem roles_modifyRoom {f : Room → Room} (hf : ∀ room, (f room).roles = room.roles) (r : RoomId) :
    ((s.modifyRoom roomId f).rooms.get? r).map Room.roles = (s.rooms.get? r).map Room.roles := by
  rw [Server.get?_modifyRoom]
  split
  · next h =>
    rw [h, Option.map_map]
    exact congrArg (fun g => (s.rooms.get? roomId).map g) (funext hf)
  · rfl

/-- The room is started. -/
theorem startGame_keeps (σ : SeatMap) (roomId : RoomId) :
    Keeps (fun t : Server => t.seatMap = σ) (startGame roomId) := by
  unfold startGame
  refine keeps_modify fun t ht => ?_
  rw [← ht]
  exact seatMap_eq (roles_modifyRoom fun _ => rfl) rfl

/-- The hook makes an engine. -/
theorem onRoomCreated_keeps (σ : SeatMap) (env : Env) (roomId : RoomId) :
    Keeps (fun t : Server => t.seatMap = σ) (onRoomCreated env roomId) := by
  unfold onRoomCreated createEngineForRoom InputTxtBoardLoader.load
  refine Keeps.get.bind fun s => Keeps.ite (Keeps.pure _) ?_
  refine Keeps.bind (Keeps.bind (Keeps.ite (Keeps.throw _) (Keeps.pure _)) fun _ => ?_) fun board =>
    keeps_modify fun _ ht => ht
  split
  · exact Keeps.pure _
  · exact Keeps.throw _

/-- The hook and the start of the game come after the room has been opened. -/
theorem afterOpening_keeps (σ : SeatMap) (env : Env) (roomId : RoomId) :
    Keeps (fun t : Server => t.seatMap = σ)
      (onRoomCreated env roomId >>= fun _ => startGame roomId >>= fun _ => pure roomId) :=
  (onRoomCreated_keeps σ env roomId).bind fun _ =>
    (startGame_keeps σ roomId).bind fun _ => Keeps.pure _

variable (s) in
/-- A room is opened. -/
theorem seatMap_open (roomId : RoomId) (new : Room) (userRoom : Dict UserId RoomId)
    (hmap : ∀ u, userRoom.get? u =
      if (new.roles u).isSome then some roomId else s.userRoom.get? u) :
    ({ s with rooms := s.rooms.set roomId new, userRoom := userRoom } : Server).seatMap =
      s.seatMap.opened roomId new.roles := by
  unfold Server.seatMap SeatMap.opened
  dsimp only
  congr 1
  · exact funext hmap
  · funext r
    rw [Dict.get?_set, Function.update_apply]
    split <;> rfl

/-- What follows a seat that is taken. -/
theorem startForPlayer_keeps (σ : SeatMap) (env : Env) (roomId : RoomId) (gameStarted : Bool)
    (role : PlayerRole) :
    Keeps (fun t : Server => t.seatMap = σ) (startForPlayer env roomId gameStarted role) := by
  unfold startForPlayer
  exact Keeps.ite ((startGame_keeps σ roomId).bind fun _ => onRoomCreated_keeps σ env roomId)
    (Keeps.pure _)

/-- A room changes the role of one user, who is moved to it or out of it. -/
theorem seatMap_changeMember (s : Server) (roomId : RoomId) (userId : UserId) {f : Room → Room}
    {userRoom : Dict UserId RoomId} {role : Option PlayerRole} {mapped : Option RoomId}
    (hf : ∀ room, (f room).roles = Function.update room.roles userId role)
    (hmap : ∀ u, userRoom.get? u = if u = userId then mapped else s.userRoom.get? u) :
    ({ s.modifyRoom roomId f with userRoom := userRoom } : Server).seatMap =
      { room := Function.update s.seatMap.room userId mapped
        members := Function.update s.seatMap.members roomId
          ((s.seatMap.members roomId).map fun roles => Function.update roles userId role) } := by
  unfold Server.seatMap
  dsimp only
  congr 1
  · -- the map changes at one user, the members at one room
    funext u
    rw [hmap, Function.update_apply]
  · funext r
    change ((s.modifyRoom roomId f).rooms.get? r).map Room.roles = _
    rw [Server.get?_modifyRoom, Function.update_apply]
    split
    · rw [Option.map_map, Option.map_map]
      exact congrArg (fun g => (s.rooms.get? roomId).map g) (funext hf)
    · rfl

/-- A user joins. -/
theorem seatMap_join (s : Server) (roomId : RoomId) (userId : UserId) (role : PlayerRole) :
    ((Action.join roomId userId role).apply s).seatMap = s.seatMap.joined roomId userId role := by
  refine seatMap_changeMember s roomId userId (fun room => ?_) fun u => Dict.get?_set _ _ _ _
  funext u
  unfold Room.roles
  rw [Dict.get?_set, Function.update_apply]
  split <;> rfl

/-- A user leaves. -/
theorem seatMap_leave (s : Server) (roomId : RoomId) (userId : UserId) :
    ((Action.leave roomId userId).apply s).seatMap = s.seatMap.left roomId userId := by
  refine seatMap_changeMember s roomId userId (fun room => ?_) fun u => Dict.get?_pop _ _ _
  funext u
  unfold Room.roles
  rw [Dict.get?_pop, Function.update_apply]
  split <;> rfl

/-- A change of a member that keeps the role. -/
theorem seatMap_modifyMember (s : Server) (roomId : RoomId) (userId : UserId)
    {f : RoomMember → RoomMember} (hf : ∀ member, (f member).role = member.role) :
    (s.modifyMember roomId userId f).seatMap = s.seatMap := by
  refine seatMap_eq (roles_modifyRoom fun room => ?_) rfl
  funext u
  unfold Room.roles
  rw [Dict.get?_modify]
  split
  · next h =>
    rw [h, Option.map_map]
    exact congrArg (fun g => (room.members.get? userId).map g) (funext hf)
  · rfl

end Writes

/-! ### What each call does to the seat map -/

section Specs

variable {s : Server} {env : Env} {roomId : RoomId} {userId : UserId}

/-- The roles of a room with its creator. -/
theorem roles_openedRoom (roomId : RoomId) (creator u : UserId) :
    (openedRoom roomId creator).roles u = if u = creator then some .white else none := by
  unfold Room.roles openedRoom
  rw [Dict.get?_set]
  split <;> rfl

/-- The roles of a matched room. -/
theorem roles_matchedRoom (roomId : RoomId) (userA userB u : UserId) :
    (matchedRoom roomId userA userB).roles u =
      if u = userB then some .black else if u = userA then some .white else none := by
  unfold Room.roles matchedRoom
  rw [Dict.get?_set, Dict.get?_set]
  split
  · rfl
  · split <;> rfl

/-- A room is opened unless the creator has one; the hook may raise after that. -/
theorem createRoom_seatMap (creator : UserId) :
    wp (createRoom env creator)
      (fun _ t => s.userRoom.get? creator = none ∧ t.seatMap = s.seatMap.opened
        (env.tokenHex creator) (openedRoom (env.tokenHex creator) creator).roles)
      (fun _ t => t = s ∨ s.userRoom.get? creator = none ∧ t.seatMap = s.seatMap.opened
        (env.tokenHex creator) (openedRoom (env.tokenHex creator) creator).roles) s := by
  unfold createRoom
  rw [wp_bind, wp_get]
  split
  · exact Or.inl rfl
  next hmapped =>
  -- the creator is free, and the room is written before the hook runs
  have hfree := contains_eq_false hmapped
  rw [wp_bind, wp_modify]
  have hopened := seatMap_open s (env.tokenHex creator) (openedRoom (env.tokenHex creator) creator)
    (s.userRoom.set creator (env.tokenHex creator)) fun u => by
      rw [Dict.get?_set, roles_openedRoom]
      split <;> rfl
  exact wp_mono (afterOpening_keeps _ env (env.tokenHex creator) _ hopened)
    (fun _ _ ht => ⟨hfree, ht⟩) (fun _ _ ht => Or.inr ⟨hfree, ht⟩)

/-- A matched room is opened for two free users, or nothing is written before the hook. -/
theorem createMatchedRoom_seatMap (userA userB : UserId) (roomId? : Option RoomId) :
    wp (createMatchedRoom env userA userB roomId?)
      (fun _ t => ∃ roomId, (Action.openMatchedRoom roomId userA userB).Enabled s ∧
        t.seatMap = s.seatMap.opened roomId (matchedRoom roomId userA userB).roles)
      (fun _ t => t = s ∨ ∃ roomId, (Action.openMatchedRoom roomId userA userB).Enabled s ∧
        t.seatMap = s.seatMap.opened roomId (matchedRoom roomId userA userB).roles) s := by
  unfold createMatchedRoom
  rw [wp_bind, wp_get]
  -- three checks, and nothing is written before they have passed
  split
  · exact Or.inl rfl
  next hfreeA =>
  split
  · exact Or.inl rfl
  next hfreeB =>
  dsimp only
  split
  · exact Or.inl rfl
  next hnew =>
  rw [wp_bind, wp_modify]
  have henabled : (Action.openMatchedRoom (roomId?.getD (env.tokenHex userA)) userA userB).Enabled s :=
    ⟨contains_eq_false hfreeA, contains_eq_false hfreeB, contains_eq_false hnew⟩
  generalize roomId?.getD (env.tokenHex userA) = roomId at henabled
  have hopened := seatMap_open s roomId (matchedRoom roomId userA userB)
    ((s.userRoom.set userA roomId).set userB roomId) fun u => by
      rw [Dict.get?_set, Dict.get?_set, roles_matchedRoom]
      split
      · rfl
      · split <;> rfl
  exact wp_mono (afterOpening_keeps _ env roomId _ hopened)
    (fun _ _ ht => ⟨roomId, henabled, ht⟩) (fun _ _ ht => Or.inr ⟨roomId, henabled, ht⟩)

/-- A user in no room joins a room that exists, with the next role. -/
theorem joinRoom_seatMap (roomId : RoomId) (userId : UserId) :
    wp (joinRoom env roomId userId)
      (fun role t => (Action.join roomId userId role).Enabled s ∧
        t.seatMap = s.seatMap.joined roomId userId role)
      (fun _ t => t = s ∨ ∃ role, (Action.join roomId userId role).Enabled s ∧
        t.seatMap = s.seatMap.joined roomId userId role) s := by
  unfold joinRoom
  rw [wp_bind, wp_get]
  cases hroom : s.rooms.get? roomId with
  | none => exact Or.inl rfl
  | some room =>
    dsimp only
    split
    · exact Or.inl rfl
    next hmapped =>
    -- the role is the next one in the room as it stands
    have henabled : (Action.join roomId userId (nextRole room)).Enabled s :=
      ⟨contains_eq_false hmapped, room, hroom, rfl⟩
    rw [wp_bind, wp_modify]
    refine wp_call (startForPlayer_keeps _ env roomId room.gameStarted (nextRole room) _
      (seatMap_join s roomId userId (nextRole room))) (fun _ _ ht => ?_) (fun _ t ht => ?_)
    · exact Or.inr ⟨nextRole room, henabled, ht⟩
    · exact ⟨henabled, ht⟩

/-- A viewer leaves; a player is marked, and a user in no room is nobody's. -/
theorem markDisconnected_seatMap (userId : UserId) :
    wp (markDisconnected env userId)
      (fun _ t => t.seatMap = s.seatMap ∨ ∃ roomId, (Action.leave roomId userId).Enabled s ∧
        t.seatMap = s.seatMap.left roomId userId)
      (fun _ t => t = s) s := by
  refine wp_mono (markDisconnected_cases env userId s) (fun _ t ht => ?_) fun _ _ ht => ht
  cases ht with
  | nobody => exact Or.inl rfl
  | left roomId room hmapped hroom hviewer =>
    exact Or.inr ⟨roomId, ⟨hmapped, room, hroom, hviewer⟩, seatMap_leave s roomId userId⟩
  | marked roomId => exact Or.inl (seatMap_modifyMember s roomId userId fun _ => rfl)

/-- Who comes back keeps their seat. -/
theorem reconnect_seatMap (userId : UserId) :
    wp (reconnect userId) (fun _ t => t.seatMap = s.seatMap) (fun _ t => t = s) s := by
  refine wp_mono (reconnect_cases userId s) (fun _ t ht => ?_) nofun
  cases ht with
  | absent => rfl
  | back roomId => exact seatMap_modifyMember s roomId userId fun _ => rfl

end Specs

/-! ### The calls of the room service -/

/-- The calls of `RoomService` that write. -/
inductive RoomCall where
  | createRoom (creator : UserId)
  | createMatchedRoom (userA userB : UserId) (roomId : Option RoomId)
  | joinRoom (roomId : RoomId) (userId : UserId)
  | markDisconnected (userId : UserId)
  | reconnect (userId : UserId)
  | clearDisconnectDeadline (roomId : RoomId) (userId : UserId)
  | markEloUpdated (roomId : RoomId)
deriving DecidableEq, Repr

namespace RoomCall

/-- The call as a program of the server. -/
def run (env : Env) : RoomCall → ServerM Unit
  | .createRoom creator => do let _ ← RoomService.createRoom env creator
  | .createMatchedRoom userA userB roomId => do
    let _ ← RoomService.createMatchedRoom env userA userB roomId
  | .joinRoom roomId userId => do let _ ← RoomService.joinRoom env roomId userId
  | .markDisconnected userId => do let _ ← RoomService.markDisconnected env userId
  | .reconnect userId => do let _ ← RoomService.reconnect userId
  | .clearDisconnectDeadline roomId userId => RoomService.clearDisconnectDeadline roomId userId
  | .markEloUpdated roomId => RoomService.markEloUpdated roomId

/-- The state after a call; a caller who is rejected goes on. -/
def step (s : Server) (call : Env × RoomCall) : Server := after (call.2.run call.1) s

/-- A room id that is generated is not in use, and a match is between two users. -/
def Proper (s : Server) (env : Env) : RoomCall → Prop
  | .createRoom creator =>
    s.userRoom.get? creator = none → s.rooms.get? (env.tokenHex creator) = none
  | .createMatchedRoom userA userB _ => userA ≠ userB
  | _ => True

/-- What callers promise can be read off the state. -/
instance (s : Server) (env : Env) : (call : RoomCall) → Decidable (call.Proper s env)
  | .createRoom _ => inferInstanceAs (Decidable (_ → _ = none))
  | .createMatchedRoom _ _ _ => inferInstanceAs (Decidable (_ ≠ _))
  | .joinRoom _ _ | .markDisconnected _ | .reconnect _ | .clearDisconnectDeadline _ _
  | .markEloUpdated _ => instDecidableTrue

/-! ### The calls make the steps -/

/-- The room that is opened has its creator as White, and no Black. -/
theorem opened_step {σ : SeatMap} {roomId : RoomId} {creator : UserId}
    (hnew : σ.members roomId = none) (hfree : σ.room creator = none) :
    SeatMap.Step σ (σ.opened roomId (openedRoom roomId creator).roles) := by
  refine .opened roomId _ hnew (fun u hu => ?_) ⟨creator, ?_, fun u hu => ?_⟩ fun u u' hu => ?_
  · -- whoever has a role in the new room is the creator
    rw [roles_openedRoom] at hu
    split at hu
    · next heq => exact heq ▸ hfree
    · exact absurd hu (by simp)
  · dsimp only
    rw [roles_openedRoom, if_pos rfl]
  · dsimp only at hu
    rw [roles_openedRoom] at hu
    by_contra hne
    rw [if_neg hne] at hu
    exact absurd hu (by simp)
  · rw [roles_openedRoom] at hu
    split at hu <;> exact absurd hu (by simp)

/-- The room that is opened has its two users as White and Black. -/
theorem matched_step {s : Server} {roomId : RoomId} {userA userB : UserId} (hne : userA ≠ userB)
    (henabled : (Action.openMatchedRoom roomId userA userB).Enabled s) :
    SeatMap.Step s.seatMap
      (s.seatMap.opened roomId (matchedRoom roomId userA userB).roles) := by
  obtain ⟨hfreeA, hfreeB, hnew⟩ := henabled
  -- of the two, only the second is black
  have hblack : ∀ u, (matchedRoom roomId userA userB).roles u = some .black → u = userB := by
    intro u hu
    rw [roles_matchedRoom] at hu
    by_contra hub
    rw [if_neg hub] at hu
    split at hu <;> exact absurd hu (by simp)
  refine .opened roomId _ (congrArg (Option.map Room.roles) hnew) (fun u hu => ?_)
    ⟨userA, ?_, fun u hu => ?_⟩ fun u u' hu hu' => (hblack u hu).trans (hblack u' hu').symm
  · rw [roles_matchedRoom] at hu
    split at hu
    · next heq => exact heq ▸ hfreeB
    · split at hu
      · next heq => exact heq ▸ hfreeA
      · exact absurd hu (by simp)
  · dsimp only
    rw [roles_matchedRoom, if_neg hne, if_pos rfl]
  · dsimp only at hu
    rw [roles_matchedRoom] at hu
    split at hu
    · exact absurd hu (by simp)
    · split at hu
      · next heq => exact heq
      · exact absurd hu (by simp)

/-- **Counting players is right.** In a well-formed seat map the next role is a seat nobody
has, or that of a viewer. -/
theorem joined_step {s : Server} (hW : WellSeated s.seatMap) {roomId : RoomId} {userId : UserId}
    {role : PlayerRole} (henabled : (Action.join roomId userId role).Enabled s) :
    SeatMap.Step s.seatMap (s.seatMap.joined roomId userId role) := by
  obtain ⟨hfree, room, hroom, rfl⟩ := henabled
  have hroles : s.seatMap.members roomId = some room.roles := congrArg (Option.map Room.roles) hroom
  refine .joined roomId userId (nextRole room) room.roles hroles hfree fun hplayer u hu => ?_
  obtain ⟨white, hwhite, -⟩ := hW.white roomId room.roles hroles
  obtain ⟨member, hmember, hrole⟩ := Option.map_eq_some_iff.mp hwhite
  obtain ⟨member', hmember', hrole'⟩ := Option.map_eq_some_iff.mp hu
  cases hnext : nextRole room with
  | viewer => exact hplayer hnext
  | white =>
    -- there is a White, so the count is not zero
    exact nextRole_ne_white hmember hrole hnext
  | black =>
    -- with a White and a Black the count is not one
    rw [hnext] at hrole'
    exact absurd (nextRole_of_members hmember hrole hmember' hrole') (by rw [hnext]; simp)

/-- A viewer leaves. -/
theorem left_step {s : Server} {roomId : RoomId} {userId : UserId}
    (henabled : (Action.leave roomId userId).Enabled s) :
    SeatMap.Step s.seatMap (s.seatMap.left roomId userId) := by
  obtain ⟨hmapped, room, hroom, hviewer⟩ := henabled
  refine .left roomId userId room.roles (congrArg (Option.map Room.roles) hroom) hmapped
    fun role hrole => ?_
  obtain ⟨member, hmember, rfl⟩ := Option.map_eq_some_iff.mp hrole
  exact hviewer member hmember

/-- **Every call makes a step of the seat map.** -/
theorem seatMap_step {s : Server} (hW : WellSeated s.seatMap) {env : Env} {call : RoomCall}
    (hproper : call.Proper s env) : SeatMap.Step s.seatMap (step s (env, call)).seatMap := by
  -- a program that leaves a step behind, whichever way it ends
  have hafter : ∀ {α : Type} {x : ServerM α},
      wp x (fun _ t => SeatMap.Step s.seatMap t.seatMap)
        (fun _ t => SeatMap.Step s.seatMap t.seatMap) s →
      SeatMap.Step s.seatMap (after (do let _ ← x; pure ()) s).seatMap := by
    intro α x hx
    refine (wp_iff_after (P := fun t : Server => SeatMap.Step s.seatMap t.seatMap)).mp ?_
    rw [wp_bind]
    exact hx
  have hkept : ∀ {t : Server}, t.seatMap = s.seatMap → SeatMap.Step s.seatMap t.seatMap :=
    fun ht => ht ▸ .kept
  cases call with
  | createRoom creator =>
    have hopened : s.userRoom.get? creator = none → ∀ {t : Server},
        t.seatMap = s.seatMap.opened (env.tokenHex creator)
          (openedRoom (env.tokenHex creator) creator).roles →
        SeatMap.Step s.seatMap t.seatMap := fun hfree _ ht =>
      ht ▸ opened_step (congrArg (Option.map Room.roles) (hproper hfree)) hfree
    refine hafter (wp_mono (createRoom_seatMap creator) (fun _ t ht => hopened ht.1 ht.2)
      fun _ t ht => ?_)
    obtain rfl | ht := ht
    · exact .kept
    · exact hopened ht.1 ht.2
  -- refused, or a match of two free users in a room that is new
  | createMatchedRoom userA userB roomId =>
    refine hafter (wp_mono (createMatchedRoom_seatMap userA userB roomId) (fun _ t ht => ?_)
      fun _ t ht => ?_)
    · obtain ⟨roomId, henabled, ht⟩ := ht
      exact ht ▸ matched_step hproper henabled
    · obtain rfl | ⟨roomId, henabled, ht⟩ := ht
      · exact .kept
      · exact ht ▸ matched_step hproper henabled
  -- refused, or the user joins under the role that is due
  | joinRoom roomId userId =>
    refine hafter (wp_mono (joinRoom_seatMap roomId userId)
      (fun _ t ht => ht.2 ▸ joined_step hW ht.1) fun _ t ht => ?_)
    obtain rfl | ⟨role, henabled, ht⟩ := ht
    · exact .kept
    · exact ht ▸ joined_step hW henabled
  -- a player keeps its seat, a viewer leaves the room
  | markDisconnected userId =>
    refine hafter (wp_mono (markDisconnected_seatMap userId) (fun _ t ht => ?_) fun _ t ht => ?_)
    · obtain ht | ⟨roomId, henabled, ht⟩ := ht
      · exact hkept ht
      · exact ht ▸ left_step henabled
    · exact ht ▸ .kept
  | reconnect userId =>
    exact hafter (wp_mono (reconnect_seatMap userId) (fun _ t ht => hkept ht)
      fun _ t ht => ht ▸ .kept)
  | clearDisconnectDeadline roomId userId =>
    exact hkept (seatMap_modifyMember s roomId userId fun _ => rfl)
  | markEloUpdated roomId => exact hkept (seatMap_eq (roles_modifyRoom fun _ => rfl) rfl)

end RoomCall

/-! ### Runs of the room service -/

/-- The two maps of the room service agree, and the roles are given out right. -/
structure RoomRep (s : Server) : Prop where
  mapped : ∀ u r, s.userRoom.get? u = some r ↔
    ∃ room member, s.rooms.get? r = some room ∧ room.members.get? u = some member
  /-- Exactly one White. -/
  white : ∀ r room, s.rooms.get? r = some room → ∃! u, memberRole s r u = some .white
  /-- At most one Black; whoever is neither is a viewer. -/
  black : ∀ r u u', memberRole s r u = some .black → memberRole s r u' = some .black → u = u'

/-- **A seat map that is well formed makes the room service well formed.** -/
theorem RoomRep.of_wellSeated {s : Server} (h : WellSeated s.seatMap) : RoomRep s := by
  have hrole : ∀ {r room}, s.rooms.get? r = some room → ∀ u, memberRole s r u = room.roles u := by
    intro r room hroom u
    unfold memberRole
    rw [hroom, Option.bind_some]
    rfl
  refine ⟨fun u r => ?_, fun r room hroom => ?_, fun r u u' hu hu' => ?_⟩
  -- the map of a room is its `roles`, and a member is who has one
  · refine (h.mapped u r).trans ⟨?_, ?_⟩
    · rintro ⟨roles, hroles, hmember⟩
      obtain ⟨room, hroom, rfl⟩ := Option.map_eq_some_iff.mp hroles
      obtain ⟨role, hmember⟩ := Option.isSome_iff_exists.mp hmember
      obtain ⟨member, hmember, -⟩ := Option.map_eq_some_iff.mp hmember
      exact ⟨room, member, hroom, hmember⟩
    · rintro ⟨room, member, hroom, hmember⟩
      refine ⟨room.roles, congrArg (Option.map Room.roles) hroom, ?_⟩
      unfold Room.roles
      rw [hmember]
      rfl
  · have hwhite := h.white r room.roles (congrArg (Option.map Room.roles) hroom)
    simpa only [hrole hroom] using hwhite
  · cases hroom : s.rooms.get? r with
    | none =>
      unfold memberRole at hu
      rw [hroom] at hu
      exact absurd hu (by simp)
    | some room =>
      rw [hrole hroom] at hu hu'
      exact h.black r room.roles (congrArg (Option.map Room.roles) hroom) u u' hu hu'

/-- **The representation invariant of the room service.** In every run in which generated
room ids are not in use and matches are between two users, whatever is rejected or raises
on the way, the maps agree and the roles are right in every state, and a member who is not
a viewer keeps the role from then on. -/
theorem roomRep_run {users : Dict UserId User} {games : Dict RoomId GameResult}
    {calls : List (Env × RoomCall)}
    (hproper : Run.Guarded RoomCall.step (fun s call _ => call.2.Proper s call.1)
      (Server.initial users games) calls) :
    RoomRep (calls.foldl RoomCall.step (Server.initial users games)) ∧
      ∀ pre post, calls = pre ++ post → ∀ r u role,
        memberRole (pre.foldl RoomCall.step (Server.initial users games)) r u = some role →
        role = .viewer ∨
          memberRole (calls.foldl RoomCall.step (Server.initial users games)) r u = some role := by
  have hstart : WellSeated (Server.initial users games).seatMap := by
    refine ⟨fun u r => iff_of_false ?_ ?_, fun r roles hr => ?_, fun r roles hr => ?_⟩
    · simp [Server.seatMap, Server.initial]
    · simp [Server.seatMap, Server.initial]
    · exact absurd hr (by simp [Server.seatMap, Server.initial])
    · exact absurd hr (by simp [Server.seatMap, Server.initial])
  have hrun : ∀ {s : Server} {calls : List (Env × RoomCall)}, WellSeated s.seatMap →
      Run.Guarded RoomCall.step (fun s call _ => call.2.Proper s call.1) s calls →
      WellSeated (calls.foldl RoomCall.step s).seatMap := fun hs hg =>
    hg.invariant (P := fun t _ => WellSeated t.seatMap)
      (fun t call _ ht hok => ht.step (RoomCall.seatMap_step ht hok)) hs
  refine ⟨RoomRep.of_wellSeated (hrun hstart hproper), ?_⟩
  rintro pre post rfl r u role hrole
  rw [List.foldl_append]
  obtain ⟨hpre, hpost⟩ := (Run.guarded_append _ _ _).mp hproper
  -- from the state after `pre` on, the role is kept or is a viewer's
  have hmid := hrun hstart hpre
  refine (hpost.invariant (P := fun t _ => WellSeated t.seatMap ∧
    (role = .viewer ∨ memberRole t r u = some role)) (fun t call _ ht hok => ?_)
    ⟨hmid, Or.inr hrole⟩).2
  have hstep := RoomCall.seatMap_step ht.1 hok
  refine ⟨ht.1.step hstep, ht.2.elim Or.inl fun hrole => ?_⟩
  rw [← Server.role_seatMap] at hrole
  exact Server.role_seatMap _ r u ▸ hstep.role_kept ht.1 hrole

/-- Alice opens a room, Bob joins it and is disconnected. -/
theorem roomRep_run_twoPlayers :
    RoomRep ([(Small.env ["wR . bK"], RoomCall.createRoom Small.alice),
      (Small.env ["wR . bK"], .joinRoom Small.room Small.bob),
      (Small.env ["wR . bK"], .markDisconnected Small.bob)].foldl RoomCall.step
        (Server.initial Dict.empty Dict.empty)) :=
  (roomRep_run (by decide)).1

end KungFuChess
