import KungFuChess.Server.RoomService

/-!
# The game service

`GameService` plays the moves of the users on the engines of their rooms, advances the
clocks, ends games by forfeit and applies the results to the ratings. `applyElo` is where
the calls that may raise meet: it looks both players up, writes both ratings, marks the
room, records the game and tells the room, in this order, and only the record and the last
callback are inside a `try`. A room that is not marked is tried again at the next tick.
-/

namespace KungFuChess

namespace GameService

open RoomService

/-- `TICK_MS`. -/
def tickMs : Int := 50

/-- The engine of a room, if it has one. -/
def getEngine (s : Server) (roomId : RoomId) : Option GameEngine := s.engines.get? roomId

/-! ### Moves -/

/-- A move on the engine of a room. -/
def handleMove (roomId : RoomId) (color : Color) (startPos endPos : Position) :
    ServerM (Bool × String) := do
  let s ← get
  match s.engines.get? roomId with
  | none => return (false, "no active game")
  | some engine => do
    let moved := engine.tryPlayerMove color startPos endPos
    modify fun s => s.setEngine roomId moved.1
    return moved.2

/-- The colour a role may move. -/
def colorOf : PlayerRole → Option Color
  | .white => some .w
  | .black => some .b
  | .viewer => none

/-- The command `move`: the room and the colour are looked up, never taken from the client. -/
def submitMove (userId : UserId) (startPos endPos : Position) : ServerM MoveOutcome := do
  let s ← get
  match roomIdForUser s userId with
  | none => return { ok := false, reason := "not in a room" }
  | some roomId =>
    match (memberRole s roomId userId).bind colorOf with
    | none => return { ok := false, reason := "viewers cannot move" }
    | some color => do
      let (ok, reason) ← handleMove roomId color startPos endPos
      if ok then do
        let s ← get
        return { ok := true, roomId := roomId, startPos := startPos, endPos := endPos,
                 memberIds := memberIds s roomId }
      else return { ok := false, reason := reason }

/-! ### Results -/

/-- `broadcast_room` of the wiring: nothing is sent if the room is gone. -/
def broadcastRoom (env : Env) (call : ExternalCall) (roomId : RoomId) (message : Message) :
    ServerM Unit := do
  let s ← get
  match s.rooms.get? roomId with
  | none => pure ()
  | some room => do
    perform env call
    modify fun s => s.send (some roomId) room.members.keys message

/-- `get_room_players_for_elo`: the players of a room and the names they have. -/
structure Players where
  whiteId : Option UserId
  blackId : Option UserId
  whiteName : Option String
  blackName : Option String
deriving DecidableEq, Repr

/-- `users.get_by_id(user_id).username`, if there is an id and a user. -/
def usernameOf (env : Env) (lookup : Lookup) : Option UserId → ServerM (Option String)
  | none => return none
  | some userId => do
    let user ← UserStore.getById env lookup userId
    return user.map User.username

/-- `get_room_players_for_elo` of the wiring. -/
def getRoomPlayersForElo (env : Env) (lookup : Lookup) (roomId : RoomId) : ServerM Players := do
  let s ← get
  let players := getRoomPlayers s roomId
  let whiteName ← usernameOf env lookup players.1
  let blackName ← usernameOf env lookup players.2
  return ⟨players.1, players.2, whiteName, blackName⟩

/-- Both ids and both names, if none of them is missing or empty. -/
def Players.both (p : Players) : Option (UserId × UserId × String × String) :=
  match p.whiteId, p.blackId, p.whiteName.filter (· ≠ ""), p.blackName.filter (· ≠ "") with
  | some whiteId, some blackId, some whiteName, some blackName =>
    some (whiteId, blackId, whiteName, blackName)
  | _, _, _, _ => none

/-- The new ratings of White and of Black. -/
def newRatings (cfg : Config) (winner : Color) (whiteElo blackElo : Int) : Int × Int :=
  match winner with
  | .w => calcElo cfg.expectedWinner whiteElo blackElo 32
  | .b => (calcElo cfg.expectedWinner blackElo whiteElo 32).swap

/-- The `on_game_finished` callback: none in process, the allocator's release on a shard. -/
def onGameFinished (cfg : Config) (env : Env) (roomId : RoomId) (userIds : List UserId) :
    ServerM Unit :=
  match cfg.deployment with
  | .inProcess => pure ()
  | .gameShard _ => do
    perform env (.releaseMatch roomId)
    modify fun s => { s with allocator := s.allocator.releaseMatch roomId userIds }

/-- The two `set_elo` writes of `_apply_elo` and the mark. -/
def writeRatings (env : Env) (roomId : RoomId) (whiteId blackId : UserId) (new : Int × Int) :
    ServerM Unit := do
  UserStore.setElo env roomId whiteId new.1
  UserStore.setElo env roomId blackId new.2
  markEloUpdated roomId

/-- What `_apply_elo` does once the ratings are written. -/
def announceResult (cfg : Config) (env : Env) (result : GameResult)
    (ratings : List (String × Int)) : ServerM Unit := do
  -- a failure of the history store is logged and forgotten
  tryCatch (GameHistoryStore.record env result) fun _ => pure ()
  broadcastRoom env (.broadcastGameOver result.roomId) result.roomId
    (.gameOver result.winner ratings result.roomId)
  -- so is a failure of the callback
  tryCatch (onGameFinished cfg env result.roomId [result.whiteId, result.blackId]) fun _ => pure ()

/-- `_apply_elo`. -/
def applyElo (cfg : Config) (env : Env) (roomId : RoomId) (engine : GameEngine) :
    ServerM Unit := do
  let s ← get
  if isEloUpdated s roomId then pure ()
  else
    match engine.winner with
    | none => pure ()
    | some winner => do
      let players ← getRoomPlayersForElo env .playerName roomId
      match players.both with
      | none => pure ()
      | some (whiteId, blackId, whiteName, blackName) => do
        let white? ← UserStore.getById env .rating whiteId
        let black? ← UserStore.getById env .rating blackId
        match white?, black? with
        | some white, some black => do
          let new := newRatings cfg winner white.elo black.elo
          writeRatings env roomId whiteId blackId new
          announceResult cfg env
            { roomId := roomId, whiteId := whiteId, blackId := blackId, winner := winner
              whiteEloBefore := white.elo, blackEloBefore := black.elo
              whiteEloAfter := new.1, blackEloAfter := new.2 }
            [(whiteName, new.1), (blackName, new.2)]
        | _, _ => pure ()

/-! ### The clock and forfeits -/

/-- `finished_now`: the tick has landed the last motion. -/
def finishedNow (before ticked : GameEngine) : Bool :=
  before.hasActiveMotion && !ticked.hasActiveMotion

/-- The state broadcast of `tick_all`. -/
def broadcastFinished (env : Env) (roomId : RoomId) (before ticked : GameEngine) :
    ServerM Unit :=
  if finishedNow before ticked then
    broadcastRoom env (.broadcastState roomId) roomId (.state (ticked.snapshotState roomId))
  else pure ()

/-- The loop body of `tick_all`. -/
def tickRoom (cfg : Config) (env : Env) (roomId : RoomId) : ServerM Unit := do
  let s ← get
  match s.engines.get? roomId with
  | none => pure ()
  | some engine => do
    let ticked := engine.updateGameClock tickMs
    modify fun s => s.setEngine roomId ticked
    broadcastFinished env roomId engine ticked
    let s ← get
    if ticked.gameOver ∧ isEloUpdated s roomId = false then applyElo cfg env roomId ticked

/-- One tick of every room, in the order in which their engines were made. -/
def tickAll (cfg : Config) (env : Env) : ServerM Unit := do
  -- the keys are read once, before the first room is ticked
  let s ← get
  s.engines.keys.forM (tickRoom cfg env)

/-- The winner if the loser of a room leaves. -/
def forfeitWinner (players : Players) (loser : UserId) : Option Color :=
  if players.whiteId = some loser then some .b
  else if players.blackId = some loser then some .w
  else none

/-- A player loses by absence: the game ends at once and the result is applied. -/
def forceForfeit (cfg : Config) (env : Env) (roomId : RoomId) (loser : UserId) :
    ServerM Unit := do
  let s ← get
  match s.engines.get? roomId with
  | none => pure ()
  | some engine =>
    if engine.gameOver then pure ()
    else do
      let players ← getRoomPlayersForElo env .forfeitName roomId
      match forfeitWinner players loser with
      | none => pure ()
      | some winner => do
        let ended := engine.forceForfeit winner
        modify fun s => s.setEngine roomId ended
        applyElo cfg env roomId ended

end GameService

end KungFuChess
