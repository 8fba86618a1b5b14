import KungFuChess.Server.RoomRoles

/-!
# Who comes to sit in a running game

`Seated s r u role` says that `u` is a member of room `r` whose game is not over. Members are
added by the three calls that open a room or join one, and an engine whose game has ended
stays as it is. So a user who is seated after an event was seated before it, or is one of
those whom the event seats (`Seats`, `seated_step`).
-/

namespace KungFuChess

open Effect RoomService GameService

/-- The game of the room has not ended; a room without an engine has not begun. -/
def Running (s : Server) (roomId : RoomId) : Prop :=
  ∀ engine, s.engines.get? roomId = some engine → engine.gameOver = false

/-- The user is a member of the room, and its game is not over. -/
structure Seated (s : Server) (roomId : RoomId) (userId : UserId) (role : PlayerRole) : Prop where
  member : memberRole s roomId userId = some role
  running : Running s roomId

/-- Whom an event makes a member of a room, and with which role. -/
def Seats (s : Server) (env : Env) (roomId : RoomId) (userId : UserId) (role : PlayerRole) :
    Event → Prop
  | .createRoom creator =>
    userId = creator ∧ roomId = env.tokenHex creator ∧ role = .white ∧
      s.userRoom.get? creator = none
  | .joinRoom user room =>
    userId = user ∧ roomId = room ∧ s.userRoom.get? user = none ∧
      ∃ r, s.rooms.get? room = some r ∧ role = nextRole r
  | .createMatch room whiteId blackId =>
    roomId = room ∧
      (userId = blackId ∧ role = .black ∨
        userId = whiteId ∧ userId ≠ blackId ∧ role = .white) ∧
      s.userRoom.get? whiteId = none ∧ s.userRoom.get? blackId = none ∧ s.rooms.get? room = none
  | _ => False

/-! ### Actions -/

/-- What an action does to the seat map. -/
def Action.seats (σ : SeatMap) : Action → SeatMap
  | .openRoom roomId creator => σ.opened roomId (openedRoom roomId creator).roles
  | .openMatchedRoom roomId userA userB => σ.opened roomId (matchedRoom roomId userA userB).roles
  | .join roomId userId role => σ.joined roomId userId role
  | .leave roomId userId => σ.left roomId userId
  | _ => σ

section Actions

variable {s t : Server} {env : Env} {event : Event} {a : Action}

/-- What an action does to the seats is read off the seat map. -/
theorem Action.seatMap_apply (ha : a.Enabled s) : (a.apply s).seatMap = a.seats s.seatMap := by
  cases a with
  | openRoom roomId creator =>
    -- the creator is the one member, and White
    refine seatMap_open s roomId (openedRoom roomId creator) _ fun u => ?_
    rw [Dict.get?_set, roles_openedRoom]
    split <;> rfl
  | openMatchedRoom roomId userA userB =>
    -- the two players, in the order of their seats
    refine seatMap_open s roomId (matchedRoom roomId userA userB) _ fun u => ?_
    rw [Dict.get?_set, Dict.get?_set, roles_matchedRoom]
    split
    · rfl
    · split <;> rfl
  | join roomId userId role => exact seatMap_join s roomId userId role
  | leave roomId userId => exact seatMap_leave s roomId userId
  -- the rest writes no role and no mapping
  | startGame roomId => exact seatMap_eq (roles_modifyRoom fun _ => rfl) rfl
  | markElo roomId => exact seatMap_eq (roles_modifyRoom fun _ => rfl) rfl
  | connection roomId userId f => exact seatMap_modifyMember s roomId userId ha
  | createEngine roomId board => rfl
  | engine roomId before call => rfl
  | setElo roomId userId elo raised => rfl
  | register user => rfl
  | setQueue queue => rfl
  | aside state =>
    change state.seatMap = s.seatMap
    rw [show state = _ from ha]
    rfl

/-- A game that runs after an action has run before it. -/
theorem Action.running_of_apply (ha : a.Enabled s) {roomId : RoomId}
    (h : Running (a.apply s) roomId) : Running s roomId := by
  have hsame : (a.apply s).engines = s.engines → Running s roomId := by
    intro heq
    unfold Running at h ⊢
    rwa [heq] at h
  cases a with
  | createEngine room board =>
    intro engine hengine
    refine h engine ?_
    change (s.setEngine room (GameEngine.new board)).engines.get? roomId = some engine
    rw [Server.get?_setEngine, if_neg]
    · exact hengine
    · rintro rfl
      exact absurd (ha.1.symm.trans hengine) (by simp)
  | engine room before call =>
    intro engine hengine
    by_cases hr : roomId = room
    · subst hr
      obtain rfl := Option.some.inj (hengine.symm.trans ha)
      -- an engine whose game has ended is left as it is
      by_contra hover
      rw [Bool.not_eq_false] at hover
      have hafter := h (call.apply engine) (by
        change (s.setEngine roomId (call.apply engine)).engines.get? roomId = _
        rw [Server.get?_setEngine, if_pos rfl])
      rw [EngineCall.apply_of_gameOver hover, hover] at hafter
      exact absurd hafter (by simp)
    · refine h engine ?_
      change (s.setEngine room (call.apply before)).engines.get? roomId = some engine
      rw [Server.get?_setEngine, if_neg hr]
      exact hengine
  | aside state =>
    refine hsame ?_
    change state.engines = s.engines
    rw [show state = _ from ha]
  | openRoom | openMatchedRoom | startGame | join | leave | connection | setElo | markElo
  | register | setQueue => exact hsame rfl

/-- A room does not disappear. -/
theorem Action.room_apply (ha : a.Enabled s) {roomId : RoomId}
    (h : s.rooms.get? roomId ≠ none) : (a.apply s).rooms.get? roomId ≠ none := by
  have hset : ∀ {r : RoomId} {room : Room}, (s.rooms.set r room).get? roomId ≠ none := by
    intro r room
    rw [Dict.get?_set]
    split
    · simp
    · exact h
  have hmodify : ∀ {r : RoomId} {f : Room → Room}, (s.modifyRoom r f).rooms.get? roomId ≠ none := by
    intro r f
    rw [Server.get?_modifyRoom]
    split
    · next hr => simpa [← hr] using h
    · exact h
  -- of all actions only those on rooms reach them, and none deletes one
  cases a with
  | openRoom | openMatchedRoom => exact hset
  | startGame | join | leave | connection | markElo => exact hmodify
  | createEngine | engine | setElo | register | setQueue => exact h
  | aside state => exact (show state = _ from ha) ▸ h

/-- Only `leave` takes a user out of the map. -/
theorem Action.mapped_apply (ha : a.Enabled s) {userId : UserId}
    (hleave : ∀ roomId, a ≠ .leave roomId userId) (h : s.userRoom.get? userId ≠ none) :
    (a.apply s).userRoom.get? userId ≠ none := by
  have hset : ∀ {u : UserId} {r : RoomId} {d : Dict UserId RoomId}, d.get? userId ≠ none →
      (d.set u r).get? userId ≠ none := by
    intro u r d hd
    rw [Dict.get?_set]
    split
    · simp
    · exact hd
  -- a mapping is set or left alone
  cases a with
  | openRoom | join => exact hset h
  | openMatchedRoom => exact hset (hset h)
  | leave roomId user =>
    change (s.userRoom.pop user).get? userId ≠ none
    rw [Dict.get?_pop, if_neg]
    · exact h
    · rintro rfl
      exact hleave roomId rfl
  | createEngine | startGame | connection | engine | setElo | markElo | register | setQueue =>
    exact h
  | aside state => exact (show state = _ from ha) ▸ h

end Actions

/-! ### Events -/

/-- What has happened since `s` in the course of an event. -/
structure SeatsSince (s : Server) (env : Env) (event : Event) (t : Server) : Prop where
  seated : ∀ r u role, memberRole t r u = some role → Running t r →
    memberRole s r u = some role ∨ Seats s env r u role event
  running : ∀ r, Running t r → Running s r
  rooms : ∀ r, s.rooms.get? r ≠ none → t.rooms.get? r ≠ none
  mapped : ∀ u, event ≠ .clientDisconnected u → s.userRoom.get? u ≠ none →
    t.userRoom.get? u ≠ none
  /-- Before a user has joined, the rooms have the members they had. -/
  members : ∀ u r, event = .joinRoom u r → t.userRoom.get? u = none →
    ∀ r, (t.rooms.get? r).map Room.members = (s.rooms.get? r).map Room.members

namespace SeatsSince

variable {s t : Server} {env : Env} {event : Event} {a : Action}

theorem refl (s : Server) (env : Env) (event : Event) : SeatsSince s env event s :=
  ⟨fun _ _ _ h _ => Or.inl h, fun _ h => h, fun _ h => h, fun _ _ h => h, fun _ _ _ _ _ => rfl⟩

/-- A user who is mapped to no room now was mapped to none before. -/
theorem free (h : SeatsSince s env event t) {u : UserId} (hne : event ≠ .clientDisconnected u)
    (hnone : t.userRoom.get? u = none) : s.userRoom.get? u = none := by
  by_contra hsome
  exact h.mapped u hne hsome hnone

section Seats

variable {r roomId : RoomId} {u userId : UserId} {role : PlayerRole}

/-- The creator is the only member of the new room. -/
theorem seats_openRoom (h : SeatsSince s env (.createRoom userId) t)
    (hunmapped : t.userRoom.get? userId = none)
    (hrole : (openedRoom (env.tokenHex userId) userId).roles u = some role) :
    Seats s env (env.tokenHex userId) u role (.createRoom userId) := by
  rw [roles_openedRoom] at hrole
  split at hrole
  · next hu => exact ⟨hu, rfl, (Option.some.inj hrole).symm, h.free (by simp) hunmapped⟩
  · exact absurd hrole (by simp)

/-- The two users of a match are its members, and the second decides if they are one. -/
theorem seats_openMatchedRoom {userA userB : UserId}
    (h : SeatsSince s env (.createMatch roomId userA userB) t)
    (ha : (Action.openMatchedRoom roomId userA userB).Enabled t)
    (hrole : (matchedRoom roomId userA userB).roles u = some role) :
    Seats s env roomId u role (.createMatch roomId userA userB) := by
  obtain ⟨hfreeA, hfreeB, hnew⟩ := ha
  -- a room that is new now was new at the start
  have hnew' : s.rooms.get? roomId = none := by
    by_contra hsome
    exact h.rooms roomId hsome hnew
  refine ⟨rfl, ?_, h.free (by simp) hfreeA, h.free (by simp) hfreeB, hnew'⟩
  rw [roles_matchedRoom] at hrole
  split at hrole
  · next hu => exact Or.inl ⟨hu, (Option.some.inj hrole).symm⟩
  next hblack =>
  split at hrole
  · next hu => exact Or.inr ⟨hu, hblack, (Option.some.inj hrole).symm⟩
  · exact absurd hrole (by simp)

/-- The role is that of the room as it was before the call: its members have not changed since. -/
theorem seats_join (h : SeatsSince s env (.joinRoom userId roomId) t)
    (hunmapped : t.userRoom.get? userId = none) {room : Room}
    (hroom : t.rooms.get? roomId = some room) :
    Seats s env roomId userId (nextRole room) (.joinRoom userId roomId) := by
  have hmembers := h.members userId roomId rfl hunmapped roomId
  rw [hroom, Option.map_some] at hmembers
  obtain ⟨room', hroom', hsame⟩ := Option.map_eq_some_iff.mp hmembers.symm
  refine ⟨rfl, rfl, h.free (by simp) hunmapped, room', hroom', ?_⟩
  unfold nextRole Room.players
  rw [hsame]

/-- Whom an action seats. -/
theorem seats_of_action (h : SeatsSince s env event t) (hof : Action.Of (env, event) a)
    (htick : event ≠ .matchmakingTick) (ha : a.Enabled t)
    (hmember : (a.seats t.seatMap).role r u = some role) :
    memberRole t r u = some role ∨ Seats s env r u role event := by
  cases a with
  | openRoom roomId creator =>
    obtain ⟨rfl, rfl⟩ := hof
    rw [Action.seats, SeatMap.role_opened] at hmember
    split at hmember
    · next hr => exact Or.inr (hr ▸ h.seats_openRoom ha hmember)
    · exact Or.inl ((Server.role_seatMap t r u).symm.trans hmember)
  | openMatchedRoom roomId userA userB =>
    obtain ⟨rfl, -⟩ | rfl := hof
    · exact absurd rfl htick
    rw [Action.seats, SeatMap.role_opened] at hmember
    split at hmember
    · next hr => exact Or.inr (hr ▸ h.seats_openMatchedRoom ha hmember)
    · exact Or.inl ((Server.role_seatMap t r u).symm.trans hmember)
  | join roomId userId joined =>
    obtain rfl := hof
    obtain ⟨hunmapped, room, hroom, rfl⟩ := ha
    rw [Action.seats, SeatMap.role_joined] at hmember
    split at hmember
    · next hboth =>
      obtain ⟨rfl, rfl⟩ := hboth
      obtain ⟨_, -, rfl⟩ := Option.map_eq_some_iff.mp hmember
      exact Or.inr (h.seats_join hunmapped hroom)
    · exact Or.inl ((Server.role_seatMap t r u).symm.trans hmember)
  | leave roomId userId =>
    -- who leaves has no role any more
    rw [Action.seats, SeatMap.role_left] at hmember
    split at hmember
    · exact absurd hmember (by simp)
    · exact Or.inl ((Server.role_seatMap t r u).symm.trans hmember)
  | createEngine | startGame | connection | engine | setElo | markElo | register | setQueue
  | aside => exact Or.inl ((Server.role_seatMap t r u).symm.trans hmember)

end Seats

/-- Before a user has joined, an action of the call keeps the members of the rooms. -/
theorem members_of_action (h : SeatsSince s env event t) (hof : Action.Of (env, event) a)
    (ha : a.Enabled t) {u : UserId} {room : RoomId} (hevent : event = .joinRoom u room)
    (hfree : (a.apply t).userRoom.get? u = none) (r : RoomId) :
    ((a.apply t).rooms.get? r).map Room.members = (s.rooms.get? r).map Room.members := by
  subst hevent
  -- of the actions of a joining call all but the join itself leave the members alone
  cases a with
  | startGame roomId =>
    refine Eq.trans ?_ (h.members u room rfl hfree r)
    exact Server.members_modifyRoom fun _ => rfl
  | createEngine roomId board => exact h.members u room rfl hfree r
  | aside state =>
    have hsame : state = _ := ha
    change (state.rooms.get? r).map Room.members = _
    change state.userRoom.get? u = none at hfree
    rw [hsame] at hfree ⊢
    exact h.members u room rfl hfree r
  | join roomId userId role =>
    cases hof
    exact absurd hfree (by simp [Action.apply])
  | openRoom => cases hof.1
  | leave => cases hof
  | openMatchedRoom => exact absurd hof (by simp [Action.Of])
  | connection | setElo | markElo | register | setQueue => exact hof.elim
  | engine roomId before call => cases call <;> simp [Action.Of] at hof

/-- **Step lemma.** -/
theorem apply (h : SeatsSince s env event t) (hof : Action.Of (env, event) a)
    (htick : event ≠ .matchmakingTick) (ha : a.Enabled t) :
    SeatsSince s env event (a.apply t) where
  seated := fun r u role hmember hrunning => by
    rw [← Server.role_seatMap, Action.seatMap_apply ha] at hmember
    obtain hmember | hseats := h.seats_of_action hof htick ha hmember
    · exact h.seated r u role hmember (Action.running_of_apply ha hrunning)
    · exact Or.inr hseats
  running := fun r hrunning => h.running r (Action.running_of_apply ha hrunning)
  rooms := fun r hroom => Action.room_apply ha (h.rooms r hroom)
  mapped := fun u hevent hmapped => by
    refine Action.mapped_apply ha (fun roomId heq => ?_) (h.mapped u hevent hmapped)
    subst heq
    exact hevent hof
  members := fun u room hevent hfree r => h.members_of_action hof ha hevent hfree r

end SeatsSince

/-- **Who is seated after an event** was seated before it, or is seated by it. -/
theorem seated_step {cfg : Config} {s : Server} {env : Env} {event : Event}
    (htick : event ≠ .matchmakingTick) {r : RoomId} {u : UserId} {role : PlayerRole}
    (h : Seated (s.step cfg (env, event)) r u role) :
    Seated s r u role ∨ Seats s env r u role event ∧ Running s r := by
  have hsince : SeatsSince s env event (s.step cfg (env, event)) :=
    (s.step_acts cfg (env, event)).invariant (fun a t hof ha ht => ht.apply hof htick ha)
      (SeatsSince.refl s env event)
  have hrunning := hsince.running r h.running
  exact (hsince.seated r u role h.member h.running).imp (fun hmember => ⟨hmember, hrunning⟩)
    fun hseats => ⟨hseats, hrunning⟩

end KungFuChess
