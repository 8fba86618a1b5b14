import KungFuChess.Server.EngineAdapter

/-!
# The room service

`RoomService` seats users in rooms. Opening and joining a room check, write the two maps
and call the `on_room_created` hook, in this order; an exception of the hook leaves the
writes in place.
-/

namespace KungFuChess

namespace RoomService

/-- `DISCONNECT_GRACE_SECONDS`. -/
def disconnectGraceSeconds : ℚ := 20

/-- The room a user is mapped to. -/
def roomIdForUser (s : Server) (userId : UserId) : Option RoomId := s.userRoom.get? userId

/-- `room.game_started = True`. -/
def startGame (roomId : RoomId) : ServerM Unit :=
  modify fun s => s.modifyRoom roomId fun room => { room with gameStarted := true }

/-- The room `create_room` opens: the creator plays White. -/
def openedRoom (roomId : RoomId) (creator : UserId) : Room where
  roomId := roomId
  members := Dict.empty.set creator { userId := creator, role := .white }

/-- The room `create_matched_room` opens: the first user plays White, the second Black. -/
def matchedRoom (roomId : RoomId) (userA userB : UserId) : Room where
  roomId := roomId
  members := (Dict.empty.set userA { userId := userA, role := .white }).set userB
    { userId := userB, role := .black }

/-- A user opens a room and waits for a second player. -/
def createRoom (env : Env) (creator : UserId) : ServerM RoomId := do
  let s ← get
  if s.userRoom.contains creator then throw (.valueError "already in a room")
  else do
    -- the identifier is drawn without a look at the rooms that exist
    let roomId := env.tokenHex creator
    modify fun s =>
      { s with
        rooms := s.rooms.set roomId (openedRoom roomId creator)
        userRoom := s.userRoom.set creator roomId }
    GameService.onRoomCreated env roomId
    startGame roomId
    return roomId

/-- The matchmaker opens a room for two users, under an identifier of its own or a new one. -/
def createMatchedRoom (env : Env) (userA userB : UserId) (roomId? : Option RoomId) :
    ServerM RoomId := do
  let s ← get
  if s.userRoom.contains userA then throw (.valueError ("user already in room: " ++ userA.text))
  else if s.userRoom.contains userB then
    throw (.valueError ("user already in room: " ++ userB.text))
  else
    let roomId := roomId?.getD (env.tokenHex userA)
    if s.rooms.contains roomId then throw (.valueError ("room already exists: " ++ roomId.text))
    else do
      -- both writes stand before the hook runs
      modify fun s =>
        { s with
          rooms := s.rooms.set roomId (matchedRoom roomId userA userB)
          userRoom := (s.userRoom.set userA roomId).set userB roomId }
      GameService.onRoomCreated env roomId
      startGame roomId
      return roomId

/-- The role of the next user who joins. -/
def nextRole (room : Room) : PlayerRole :=
  if room.players.length = 0 then .white
  else if room.players.length = 1 then .black
  else .viewer

/-- A player starts the game of a room that has not been started. -/
def startForPlayer (env : Env) (roomId : RoomId) (gameStarted : Bool) (role : PlayerRole) :
    ServerM Unit :=
  if role ≠ .viewer ∧ gameStarted = false then do
    startGame roomId
    GameService.onRoomCreated env roomId
  else pure ()

/-- A user joins a room, as the player it lacks or as a viewer. -/
def joinRoom (env : Env) (roomId : RoomId) (userId : UserId) : ServerM PlayerRole := do
  let s ← get
  match s.rooms.get? roomId with
  | none => throw (.valueError "room not found")
  | some room =>
    if s.userRoom.contains userId then throw (.valueError "already in a room")
    else do
      let role := nextRole room
      modify fun s =>
        { s.modifyRoom roomId fun room =>
            { room with members := room.members.set userId { userId := userId, role := role } }
          with userRoom := s.userRoom.set userId roomId }
      startForPlayer env roomId room.gameStarted role
      return role

/-- The role of a user in a room, if they are a member. -/
def memberRole (s : Server) (roomId : RoomId) (userId : UserId) : Option PlayerRole :=
  ((s.rooms.get? roomId).bind fun room => room.members.get? userId).map RoomMember.role

/-- The last member with the role, in joining order. -/
def seatOf (room : Room) (role : PlayerRole) : Option UserId :=
  (room.members.entries.filter fun entry => entry.2.role = role).getLast?.map Prod.fst

/-- White and Black of the room. -/
def getRoomPlayers (s : Server) (roomId : RoomId) : Option UserId × Option UserId :=
  match s.rooms.get? roomId with
  | none => (none, none)
  | some room => (seatOf room .white, seatOf room .black)

/-- The user ids of the room, in joining order; none if there is no room. -/
def memberIds (s : Server) (roomId : RoomId) : List UserId :=
  ((s.rooms.get? roomId).map fun room => room.members.keys).getD []

/-- A user's connection is lost. A viewer leaves the room, a player gets a deadline. -/
def markDisconnected (env : Env) (userId : UserId) : ServerM (Option RoomId) := do
  let s ← get
  match s.userRoom.get? userId with
  | none => return none
  | some roomId =>
    match s.rooms.get? roomId with
    | none => throw .keyError
    | some room =>
      -- `member is None` counts as a viewer does
      if (room.members.get? userId).all fun member => member.role = .viewer then do
        modify fun s =>
          { s.modifyRoom roomId fun room => { room with members := room.members.pop userId }
            with userRoom := s.userRoom.pop userId }
        return none
      else do
        modify fun s => s.modifyMember roomId userId fun member =>
          { member with
            status := .disconnected
            disconnectDeadline := some (env.now + disconnectGraceSeconds) }
        return some roomId

/-- A player comes back, and their deadline is dropped. -/
def reconnect (userId : UserId) : ServerM (Option RoomId) := do
  let s ← get
  match s.userRoom.get? userId with
  | none => return none
  | some roomId =>
    match (s.rooms.get? roomId).bind fun room => room.members.get? userId with
    | none => return none
    | some _ => do
      modify fun s => s.modifyMember roomId userId fun member =>
        { member with status := .connected, disconnectDeadline := none }
      return some roomId

/-- The deadline is dropped and the status stays. -/
def clearDisconnectDeadline (roomId : RoomId) (userId : UserId) : ServerM Unit :=
  modify fun s => s.modifyMember roomId userId fun member =>
    { member with disconnectDeadline := none }

/-- The players whose grace has expired. -/
def expiredDisconnects (s : Server) (now : ℚ) : List (RoomId × UserId) :=
  s.rooms.entries.flatMap fun room =>
    (room.2.members.entries.filter fun member =>
      member.2.status = .disconnected ∧ member.2.disconnectDeadline.any (fun d => d ≤ now) ∧
        member.2.role ≠ .viewer).map fun member => (room.1, member.1)

/-- `int(x)`: towards zero. -/
def truncate (x : ℚ) : Int := if 0 ≤ x then ⌊x⌋ else ⌈x⌉

/-- The disconnected members with the seconds they have left. -/
def disconnectCountdowns (s : Server) (now : ℚ) : List (RoomId × UserId × Int) :=
  s.rooms.entries.flatMap fun room =>
    room.2.members.entries.filterMap fun member =>
      if member.2.status = .disconnected then
        member.2.disconnectDeadline.map fun deadline =>
          (room.1, member.1, max 0 (truncate (deadline - now)))
      else none

/-- The result of the room has been applied. -/
def isEloUpdated (s : Server) (roomId : RoomId) : Bool :=
  (s.rooms.get? roomId).any Room.eloUpdated

/-- `room.elo_updated = True`. -/
def markEloUpdated (roomId : RoomId) : ServerM Unit :=
  modify fun s => s.modifyRoom roomId fun room => { room with eloUpdated := true }

end RoomService

end KungFuChess
