import KungFuChess.Library.Effect
import KungFuChess.Engine.BoardParser
import KungFuChess.Server.Domain

/-!
# The state of the server

One record holds what the services of a process hold between them: the maps of
`RoomService`, the engines of `GameService`, the queue of `MatchmakingService`, the
tables of the stores, and the Redis keys of the allocator. Engines and rooms are mutable
objects reached through their map only, so the maps hold them by value.

What is not part of the process comes in through `Env`, one for each step: the clock, the
identifiers drawn, the file the boards are read from, and which of the calls that leave
the process raise. A program of the services is a `ServerM`; an exception leaves the state
as it is at that moment.
-/

namespace KungFuChess

/-! ### The outside world -/

/-- Who looks a user up. -/
inductive Lookup where
  | playerName
  | forfeitName
  | rating
  | queueElo
deriving DecidableEq, Repr

/-- The calls that leave the process and may raise. -/
inductive ExternalCall where
  | readInputTxt (roomId : RoomId)
  | getById (lookup : Lookup) (userId : UserId)
  | setElo (roomId : RoomId) (userId : UserId)
  | record (roomId : RoomId)
  | broadcastState (roomId : RoomId)
  | broadcastGameOver (roomId : RoomId)
  | broadcastCountdown (roomId : RoomId) (userId : UserId)
  | notify (userId : UserId)
  | releaseMatch (roomId : RoomId)
deriving DecidableEq, Repr

/-- The outside world during one step. -/
structure Env where
  /-- `time.time()`. -/
  now : ℚ := 0
  /-- `secrets.token_hex(3)`, drawn for the room that the user opens. -/
  tokenHex : UserId → RoomId := fun _ => ⟨"000000", by decide⟩
  /-- The lines of `input.txt`. -/
  inputTxt : List String := []
  raises : ExternalCall → Bool := fun _ => false

/-- How the process is wired. -/
inductive Deployment where
  | inProcess
  | gameShard (shardId : String)
deriving DecidableEq, Repr

/-- What stays fixed for a server: how it is deployed, and the rating formula. -/
structure Config where
  deployment : Deployment := .inProcess
  /-- The value of the float expression `expected_winner` of `calc_elo`. -/
  expectedWinner : Int → Int → ℚ

/-- The exceptions the services raise. -/
inductive Exn where
  | valueError (message : String)
  | keyError
  | chessValidationError (error : ChessValidationError)
  | external (call : ExternalCall)
deriving DecidableEq, Repr

/-! ### The state -/

/-- The Redis keys `room:shard:*` and `user:room:*`. -/
structure GameAllocator where
  roomShard : Dict RoomId String := Dict.empty
  userRoom : Dict UserId RoomId := Dict.empty

/-- A `set_elo` call, with the room whose result is being applied. -/
structure SetEloCall where
  roomId : RoomId
  userId : UserId
  elo : Int
  raised : Bool
deriving DecidableEq, Repr

/-- A message handed to the transport; `roomId` is set for a broadcast to a room. -/
structure Outgoing where
  roomId : Option RoomId
  recipients : List UserId
  message : Message
deriving DecidableEq, Repr

/-- The state of a server process and of its stores. -/
structure Server where
  /-- `RoomService._rooms`. -/
  rooms : Dict RoomId Room := Dict.empty
  /-- `RoomService._user_room`. -/
  userRoom : Dict UserId RoomId := Dict.empty
  /-- `GameService._engines`. -/
  engines : Dict RoomId GameEngine := Dict.empty
  /-- `MatchmakingService._queue`. -/
  queue : List QueueEntry := []
  /-- `ServerRuntime._last_countdown_sent`. -/
  lastCountdownSent : Dict (RoomId × UserId) Int := Dict.empty
  allocator : GameAllocator := {}
  /-- The table `users`. -/
  users : Dict UserId User := Dict.empty
  /-- The table `games`. -/
  games : Dict RoomId GameResult := Dict.empty
  /-- The `set_elo` calls made so far. The code does not read it. -/
  setEloCalls : List SetEloCall := []
  /-- The messages the services have sent so far, replies excepted. The code does not read
  it. -/
  outbox : List Outgoing := []

/-- A program of the services, which may raise. -/
abbrev ServerM := EStateM Exn Server

/-- Make a call that leaves the process. -/
def perform (env : Env) (call : ExternalCall) : ServerM Unit :=
  if env.raises call then throw (.external call) else pure ()

namespace Server

/-- A started server: empty services over the stores as they are. -/
def initial (users : Dict UserId User) (games : Dict RoomId GameResult) : Server :=
  { users := users, games := games }

/-- A message goes out. -/
def send (s : Server) (roomId : Option RoomId) (recipients : List UserId) (message : Message) :
    Server :=
  { s with outbox := s.outbox ++ [⟨roomId, recipients, message⟩] }

/-- Mutate the room object, if there is one. -/
def modifyRoom (s : Server) (roomId : RoomId) (f : Room → Room) : Server :=
  { s with rooms := s.rooms.modify roomId f }

/-- Mutate the member object, if there is one. -/
def modifyMember (s : Server) (roomId : RoomId) (userId : UserId) (f : RoomMember → RoomMember) :
    Server :=
  s.modifyRoom roomId fun room => { room with members := room.members.modify userId f }

/-- The engine of a room is replaced. -/
def setEngine (s : Server) (roomId : RoomId) (engine : GameEngine) : Server :=
  { s with engines := s.engines.set roomId engine }

/-- A `set_elo` call: the call is logged, and the row is updated unless it raised. -/
def afterSetElo (s : Server) (roomId : RoomId) (userId : UserId) (elo : Int) (raised : Bool) :
    Server :=
  { s with
    setEloCalls := s.setEloCalls ++ [⟨roomId, userId, elo, raised⟩]
    users := if raised then s.users
      else s.users.modify userId fun user => { user with elo := elo } }

variable {s : Server} {roomId roomId' : RoomId} {f : Room → Room}

theorem get?_modifyRoom :
    (s.modifyRoom roomId f).rooms.get? roomId' =
      if roomId' = roomId then (s.rooms.get? roomId).map f else s.rooms.get? roomId' :=
  Dict.get?_modify _ _ _ _

/-- A change of a room that keeps its members. -/
theorem members_modifyRoom (hf : ∀ room, (f room).members = room.members) :
    ((s.modifyRoom roomId f).rooms.get? roomId').map Room.members =
      (s.rooms.get? roomId').map Room.members := by
  rw [get?_modifyRoom]
  split
  · next h =>
    rw [h, Option.map_map]
    exact congrArg (fun g => (s.rooms.get? roomId).map g) (funext hf)
  · rfl

theorem get?_setEngine (engine : GameEngine) :
    (s.setEngine roomId engine).engines.get? roomId' =
      if roomId' = roomId then some engine else s.engines.get? roomId' :=
  Dict.get?_set _ _ _ _

end Server

/-! ### The stores -/

namespace UserStore

/-- `get_by_id`. -/
def getById (env : Env) (lookup : Lookup) (userId : UserId) : ServerM (Option User) := do
  perform env (.getById lookup userId)
  return (← get).users.get? userId

/-- `set_elo`: an update of one row; it changes nothing when it raises. -/
def setElo (env : Env) (roomId : RoomId) (userId : UserId) (elo : Int) : ServerM Unit := do
  modify fun s => s.afterSetElo roomId userId elo (env.raises (.setElo roomId userId))
  perform env (.setElo roomId userId)

/-- The registration half of `register_or_login`: a new row with the start rating, unless
the name is taken. -/
def register (userId : UserId) (username : String) : ServerM Unit :=
  modify fun s =>
    if s.users.contains userId || s.users.values.any (fun user => user.username = username) then s
    else { s with users := s.users.set userId ⟨userId, username, 1200⟩ }

end UserStore

namespace GameHistoryStore

/-- `record`: the primary key is the room, and a second row for it is ignored. -/
def record (env : Env) (result : GameResult) : ServerM Unit := do
  perform env (.record result.roomId)
  modify fun s =>
    if s.games.contains result.roomId then s
    else
      { s with
        games := s.games.set result.roomId
          { result with endedAt := some (result.endedAt.getD env.now) } }

end GameHistoryStore

namespace GameAllocator

/-- `game:{room}` is written. -/
def claimRoom (a : GameAllocator) (roomId : RoomId) (shardId : String) : GameAllocator :=
  { a with roomShard := a.roomShard.set roomId shardId }

/-- `user_room:{user}` is written. -/
def bindPlayer (a : GameAllocator) (userId : UserId) (roomId : RoomId) : GameAllocator :=
  { a with userRoom := a.userRoom.set userId roomId }

/-- `user_room:{user}` is deleted. -/
def unbindPlayer (a : GameAllocator) (userId : UserId) : GameAllocator :=
  { a with userRoom := a.userRoom.pop userId }

/-- The shard of the user's room. -/
def shardForUser (a : GameAllocator) (userId : UserId) : Option String :=
  (a.userRoom.get? userId).bind a.roomShard.get?

/-- The keys of a match: the room's first, then each player's. -/
def bindMatch (a : GameAllocator) (roomId : RoomId) (shardId : String) (userIds : List UserId) :
    GameAllocator :=
  userIds.foldl (fun a userId => a.bindPlayer userId roomId) (a.claimRoom roomId shardId)

/-- The keys of a match are deleted, the room's first. -/
def releaseMatch (a : GameAllocator) (roomId : RoomId) (userIds : List UserId) : GameAllocator :=
  userIds.foldl unbindPlayer { a with roomShard := a.roomShard.pop roomId }

end GameAllocator

end KungFuChess
