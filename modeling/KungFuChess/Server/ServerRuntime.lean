import KungFuChess.Server.MatchmakingService

/-!
# The runtime loop and the events of the server

`ServerRuntime.run` repeats one iteration: the matchmaking tick, the clocks, the
disconnect grace, all inside one `try`. `Event` lists what drives the services from outside
and what the loop calls; a run of the server is a list of events, each with its own
outside world.
-/

namespace KungFuChess

namespace ServerRuntime

open RoomService GameService

/-- The matchmaking tick of the queue the runtime is wired with; a shard's does nothing. -/
def matchmakingTick (cfg : Config) (env : Env) : ServerM Unit :=
  match cfg.deployment with
  | .inProcess => MatchmakingService.tick env
  | .gameShard _ => pure ()

/-- `broadcast_users` to the members of a room. -/
def broadcastCountdown (env : Env) (roomId : RoomId) (userId : UserId) (secondsLeft : Int) :
    ServerM Unit := do
  let s ← get
  match s.rooms.get? roomId with
  | none => pure ()
  | some room => do
    perform env (.broadcastCountdown roomId userId)
    modify fun s => s.send none room.members.keys (.disconnectCountdown roomId userId secondsLeft)

/-- A client's connection is lost: its search is cancelled, and its room hears the countdown. -/
def onClientDisconnected (cfg : Config) (env : Env) (userId : UserId) : ServerM Unit := do
  let _ ← LobbyService.cancel cfg userId
  let roomId? ← markDisconnected env userId
  match roomId? with
  | none => pure ()
  | some roomId => broadcastCountdown env roomId userId 20

/-- The loop body over `disconnect_countdowns`. -/
def sendCountdown (env : Env) (entry : RoomId × UserId × Int) : ServerM Unit := do
  let s ← get
  if s.lastCountdownSent.get? (entry.1, entry.2.1) = some entry.2.2 then pure ()
  else do
    modify fun s =>
      { s with
        lastCountdownSent := s.lastCountdownSent.set (entry.1, entry.2.1) entry.2.2 }
    broadcastCountdown env entry.1 entry.2.1 entry.2.2

/-- The loop body over `expired_disconnects`. -/
def forfeitExpired (cfg : Config) (env : Env) (entry : RoomId × UserId) : ServerM Unit := do
  forceForfeit cfg env entry.1 entry.2
  clearDisconnectDeadline entry.1 entry.2
  modify fun s => { s with lastCountdownSent := s.lastCountdownSent.pop entry }

/-- `_process_disconnect_grace`. -/
def processDisconnectGrace (cfg : Config) (env : Env) : ServerM Unit := do
  let s ← get
  (disconnectCountdowns s env.now).forM (sendCountdown env)
  let s ← get
  (expiredDisconnects s env.now).forM (forfeitExpired cfg env)

/-- The body of the `try` in `run`. -/
def iteration (cfg : Config) (env : Env) : ServerM Unit := do
  -- an exception of either of the first two skips what follows it
  matchmakingTick cfg env
  tickAll cfg env
  processDisconnectGrace cfg env

/-- One pass of the loop of `run`: every exception is logged and swallowed. -/
def runOnce (cfg : Config) (env : Env) : ServerM Unit :=
  tryCatch (iteration cfg env) fun _ => pure ()

end ServerRuntime

/-! ### Events -/

/-- What happens to a server process. -/
inductive Event where
  | register (userId : UserId) (username : String)
  | play (userId : UserId)
  | cancelPlay (userId : UserId)
  | createRoom (userId : UserId)
  | joinRoom (userId : UserId) (roomId : RoomId)
  | createMatch (roomId : RoomId) (whiteId blackId : UserId)
  | submitMove (userId : UserId) (startPos endPos : Position)
  | reconnect (userId : UserId)
  | clientDisconnected (userId : UserId)
  | matchmakingTick
  | tickAll
  | processDisconnectGrace
  | forceForfeit (roomId : RoomId) (loser : UserId)
deriving DecidableEq, Repr

/-- On a shard, the players of a new room are entered into the allocator. -/
def bindPlayers (cfg : Config) (roomId : RoomId) (userIds : List UserId) : ServerM Unit :=
  match cfg.deployment with
  | .inProcess => pure ()
  | .gameShard shardId =>
    modify fun s => { s with allocator := s.allocator.bindMatch roomId shardId userIds }

/-- On a shard, a user who has joined is entered into the allocator. -/
def bindPlayer (cfg : Config) (userId : UserId) (roomId : RoomId) : ServerM Unit :=
  match cfg.deployment with
  | .inProcess => pure ()
  | .gameShard _ => modify fun s => { s with allocator := s.allocator.bindPlayer userId roomId }

/-- `publish_outbound` to some users, through the bus of the shard. -/
def publishOutbound (env : Env) (call : ExternalCall) (recipients : List UserId)
    (message : Message) : ServerM Unit := do
  perform env call
  modify fun s => s.send none recipients message

/-- `_handle_create_match`, past its checks for missing fields. -/
def handleCreateMatch (cfg : Config) (env : Env) (roomId : RoomId) (whiteId blackId : UserId) :
    ServerM Unit := do
  let _ ← RoomService.createMatchedRoom env whiteId blackId (some roomId)
  bindPlayers cfg roomId [whiteId, blackId]
  publishOutbound env (.notify whiteId) [whiteId] (.matchFound roomId whiteId blackId .white)
  publishOutbound env (.notify blackId) [blackId] (.matchFound roomId whiteId blackId .black)
  let s ← get
  match s.engines.get? roomId with
  | none => pure ()
  | some engine =>
    publishOutbound env (.broadcastState roomId) [whiteId, blackId]
      (.state (engine.snapshotState roomId))

/-- The program an event runs. -/
def Event.run (cfg : Config) (env : Env) : Event → ServerM Unit
  | .register userId username => UserStore.register userId username
  | .play userId => do let _ ← LobbyService.play cfg env userId
  | .cancelPlay userId => do let _ ← LobbyService.cancelPlay cfg userId
  | .createRoom userId => do
    let outcome ← LobbyService.createRoom env userId
    if outcome.ok then bindPlayers cfg (env.tokenHex userId) [userId] else pure ()
  | .joinRoom userId roomId => do
    let outcome ← LobbyService.joinRoom env userId roomId
    if outcome.ok then bindPlayer cfg userId roomId else pure ()
  | .createMatch roomId whiteId blackId => handleCreateMatch cfg env roomId whiteId blackId
  | .submitMove userId startPos endPos => do
    let _ ← GameService.submitMove userId startPos endPos
  | .reconnect userId => do let _ ← RoomService.reconnect userId
  | .clientDisconnected userId => ServerRuntime.onClientDisconnected cfg env userId
  | .matchmakingTick => ServerRuntime.matchmakingTick cfg env
  | .tickAll => GameService.tickAll cfg env
  | .processDisconnectGrace => ServerRuntime.processDisconnectGrace cfg env
  | .forceForfeit roomId loser => GameService.forceForfeit cfg env roomId loser

namespace Server

/-- The state after an event; whoever drives the service logs an exception and goes on. -/
def step (cfg : Config) (s : Server) (event : Env × Event) : Server :=
  Effect.after (event.2.run cfg event.1) s

/-- The state after a list of events. -/
def play (cfg : Config) (s : Server) (events : List (Env × Event)) : Server :=
  events.foldl (step cfg) s

@[simp] theorem play_nil (cfg : Config) (s : Server) : s.play cfg [] = s := rfl

/-- The last event of a run is a step of its own. -/
theorem play_append (cfg : Config) (s : Server) (pre : List (Env × Event)) (event : Env × Event) :
    s.play cfg (pre ++ [event]) = (s.play cfg pre).step cfg event := by
  unfold play
  rw [List.foldl_append]
  rfl

end Server

/-! ### A small server

Two users, one room, a board of one row, and a quiet outside world, for runs on concrete
inputs. -/

namespace Small

/-- The user who opens rooms in the examples. -/
def alice : UserId := { text := "alice" }

/-- The user who joins them. -/
def bob : UserId := { text := "bob" }

/-- The room they play in. -/
def room : RoomId := { text := "a1b2c3" }

/-- A second room. -/
def otherRoom : RoomId := { text := "d4e5f6" }

/-- The 400th root of ten, to fifteen digits: a rating point of difference multiplies the odds by
it. -/
def oddsPerPoint : ℚ := 1005773063001738 / 1000000000000000

/-- `1 / (1 + 10 ** ((loser_elo - winner_elo) / 400))`. -/
def expectedWinner (winnerElo loserElo : Int) : ℚ :=
  1 / (1 + oddsPerPoint ^ (loserElo - winnerElo))

/-- An expected score is a probability. -/
theorem expectedWinner_mem (winnerElo loserElo : Int) :
    0 ≤ expectedWinner winnerElo loserElo ∧ expectedWinner winnerElo loserElo ≤ 1 := by
  have hodds : 0 < oddsPerPoint ^ (loserElo - winnerElo) :=
    zpow_pos (by norm_num [oddsPerPoint]) _
  have hsum : 0 < 1 + oddsPerPoint ^ (loserElo - winnerElo) := by linarith
  unfold expectedWinner
  refine ⟨(one_div_pos.mpr hsum).le, ?_⟩
  rw [div_le_one hsum]
  linarith

/-- In process. -/
def config : Config := { expectedWinner := expectedWinner }

/-- Nothing raises, and the board has the given rows. -/
def env (rows : List String) : Env :=
  { tokenHex := fun _ => room, inputTxt := "Board:" :: rows ++ ["Commands:"] }

/-- Both users are registered, and nothing else has happened. -/
def start : Server :=
  .initial ((Dict.empty.set alice ⟨alice, "Alice", 1200⟩).set bob ⟨bob, "Bob", 1200⟩) Dict.empty

end Small

end KungFuChess
