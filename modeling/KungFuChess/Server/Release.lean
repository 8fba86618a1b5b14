import KungFuChess.Server.RoomInv

/-!
# The release of the players of a finished game

When a game has ended and its result has been applied, its players should be free again:
mapped to no room, taken by the lobby and by the matchmaker, and the engine dropped
(`Released`). No step of the server does any of this. `room_service.py` deletes from
`_user_room` only for viewers who disconnect, `remove_engine` is never called, and the
callback of a shard clears the Redis keys alone. `not_released` says that every clause
fails for every applied result, in every run (`Kept`).
-/

namespace KungFuChess

open Effect RoomService GameService

/-- The command is answered with "already in a room". -/
def Refused (command : ServerM CommandOutcome) (s : Server) : Prop :=
  wp command (fun outcome _ => outcome.ok = false ∧ outcome.reason = "already in a room")
    (fun _ _ => False) s

/-- The matchmaker's call raises because the user is in a room already. -/
def Rejected (userId : UserId) (call : ServerM RoomId) (s : Server) : Prop :=
  wp call (fun _ _ => False)
    (fun exn _ => exn = .valueError ("user already in room: " ++ userId.text)) s

/-- The players of the room are free again, and its engine is gone. -/
structure Released (cfg : Config) (s : Server) (roomId : RoomId) : Prop where
  unmapped : ∀ u, IsPlayer s roomId u → roomIdForUser s u = none
  play : ∀ u env, IsPlayer s roomId u → ¬ Refused (LobbyService.play cfg env u) s
  createRoom : ∀ u env, IsPlayer s roomId u → ¬ Refused (LobbyService.createRoom env u) s
  joinRoom : ∀ u env r, IsPlayer s roomId u → ¬ Refused (LobbyService.joinRoom env u r) s
  createMatchedRoom : ∀ u env other r?, IsPlayer s roomId u →
    ¬ Rejected u (RoomService.createMatchedRoom env u other r?) s
  engine : getEngine s roomId = none

/-- Every clause of `Released` fails: both seats are filled, and whoever plays in the room is
mapped to it and turned away by every command. -/
structure Kept (cfg : Config) (s : Server) (roomId : RoomId) : Prop where
  seats : ∃ whiteId blackId, getRoomPlayers s roomId = (some whiteId, some blackId) ∧
    IsPlayer s roomId whiteId ∧ IsPlayer s roomId blackId
  mapped : ∀ u, IsPlayer s roomId u → roomIdForUser s u = some roomId
  play : ∀ u env, IsPlayer s roomId u → Refused (LobbyService.play cfg env u) s
  createRoom : ∀ u env, IsPlayer s roomId u → Refused (LobbyService.createRoom env u) s
  joinRoom : ∀ u env r, IsPlayer s roomId u → s.rooms.contains r = true →
    Refused (LobbyService.joinRoom env u r) s
  createMatchedRoom : ∀ u env other r?, IsPlayer s roomId u →
    Rejected u (RoomService.createMatchedRoom env u other r?) s
  engine : ∃ engine, getEngine s roomId = some engine ∧ engine.gameOver = true

/-! ### A mapped user is turned away -/

section Mapped

variable {cfg : Config} {s : Server} {env : Env} {userId : UserId} {roomId : RoomId}

/-- A mapped user who asks to play is turned away. -/
theorem refused_play (hmapped : s.userRoom.get? userId = some roomId) :
    Refused (LobbyService.play cfg env userId) s := by
  have hsome : (roomIdForUser s userId).isSome = true := by
    rw [roomIdForUser, hmapped]
    rfl
  unfold Refused LobbyService.play
  rw [wp_bind, wp_get, if_pos hsome, wp_pure]
  exact ⟨rfl, rfl⟩

/-- A mapped user cannot open a room. -/
theorem refused_createRoom (hmapped : s.userRoom.get? userId = some roomId) :
    Refused (LobbyService.createRoom env userId) s := by
  have hcontains : s.userRoom.contains userId = true := Dict.contains_iff.mpr ⟨roomId, hmapped⟩
  unfold Refused LobbyService.createRoom RoomService.createRoom
  rw [wp_tryCatch, wp_bind, wp_bind, wp_get, if_pos hcontains, wp_throw]
  exact ⟨rfl, rfl⟩

/-- Nor can they join one, be it their own. -/
theorem refused_joinRoom (hmapped : s.userRoom.get? userId = some roomId) {r : RoomId}
    (hroom : s.rooms.contains r = true) : Refused (LobbyService.joinRoom env userId r) s := by
  have hcontains : s.userRoom.contains userId = true := Dict.contains_iff.mpr ⟨roomId, hmapped⟩
  obtain ⟨room, hroom⟩ := Dict.contains_iff.mp hroom
  unfold Refused LobbyService.joinRoom RoomService.joinRoom
  rw [wp_tryCatch, wp_bind, wp_bind, wp_get, hroom]
  dsimp only
  rw [if_pos hcontains, wp_throw]
  exact ⟨rfl, rfl⟩

/-- Nor does the matchmaker seat them. -/
theorem rejected_createMatchedRoom (hmapped : s.userRoom.get? userId = some roomId)
    (other : UserId) (r? : Option RoomId) :
    Rejected userId (RoomService.createMatchedRoom env userId other r?) s := by
  have hcontains : s.userRoom.contains userId = true := Dict.contains_iff.mpr ⟨roomId, hmapped⟩
  unfold Rejected RoomService.createMatchedRoom
  rw [wp_bind, wp_get, if_pos hcontains, wp_throw]

end Mapped

/-- **The invariant of the rooms is enough**: an applied result leaves its players where they were.
-/
theorem RoomInv.kept {s : Server} (h : RoomInv s) (cfg : Config) {roomId : RoomId}
    (happlied : isEloUpdated s roomId = true) : Kept cfg s roomId := by
  obtain ⟨⟨whiteId, blackId, hplayers⟩, hengine⟩ := h.finished happlied
  -- the seats of the room are where the roles of its players are read
  obtain ⟨room, hroom, hwhite, hblack⟩ := getRoomPlayers_eq_some hplayers
  exact
    { seats := ⟨whiteId, blackId, hplayers, Or.inl (memberRole_of_seat hroom hwhite),
        Or.inr (memberRole_of_seat hroom hblack)⟩
      mapped := fun u hu => h.mapped_of_isPlayer hu
      play := fun u env hu => refused_play (h.mapped_of_isPlayer hu)
      createRoom := fun u env hu => refused_createRoom (h.mapped_of_isPlayer hu)
      joinRoom := fun u env r hu hr => refused_joinRoom (h.mapped_of_isPlayer hu) hr
      createMatchedRoom := fun u env other r? hu =>
        rejected_createMatchedRoom (h.mapped_of_isPlayer hu) other r?
      engine := hengine }

/-- **A finished game releases nobody.** In every state of every run, in process or on a
shard, a room whose result has been applied keeps its players and its engine. -/
theorem not_released (cfg : Config) (users : Dict UserId User) (games : Dict RoomId GameResult)
    (events : List (Env × Event)) (roomId : RoomId)
    (happlied : isEloUpdated ((Server.initial users games).play cfg events) roomId = true) :
    ¬ Released cfg ((Server.initial users games).play cfg events) roomId ∧
      Kept cfg ((Server.initial users games).play cfg events) roomId := by
  have hkept := (RoomInv.run cfg users games events).kept cfg happlied
  refine ⟨fun hreleased => ?_, hkept⟩
  obtain ⟨whiteId, blackId, -, hwhite, -⟩ := hkept.seats
  exact hreleased.play whiteId {} hwhite (hkept.play whiteId {} hwhite)

/-- Alice opens a room, Bob joins it, and Bob forfeits. -/
def forfeitRun : List (Env × Event) :=
  [.createRoom Small.alice, .joinRoom Small.bob Small.room,
    .forceForfeit Small.room Small.bob].map fun event => (Small.env ["wR bK"], event)

/-- A game that has ended and been rated, with both players still in its room. -/
theorem not_released_forfeitRun :
    ¬ Released Small.config (Small.start.play Small.config forfeitRun) Small.room ∧
      Kept Small.config (Small.start.play Small.config forfeitRun) Small.room :=
  not_released Small.config _ _ forfeitRun Small.room (by decide +kernel)

/-- Alice has won, and is still in the room. -/
theorem not_released_alice :
    isEloUpdated (Small.start.play Small.config forfeitRun) Small.room = true ∧
      ¬ Released Small.config (Small.start.play Small.config forfeitRun) Small.room := by
  have hplayer : IsPlayer (Small.start.play Small.config forfeitRun) Small.room Small.alice :=
    Or.inl (by decide +kernel)
  refine ⟨by decide +kernel, fun hreleased => ?_⟩
  have hmapped : roomIdForUser (Small.start.play Small.config forfeitRun) Small.alice =
      some Small.room := by decide +kernel
  exact absurd (hreleased.unmapped Small.alice hplayer) (by rw [hmapped]; decide)

end KungFuChess
