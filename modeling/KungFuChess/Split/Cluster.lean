import KungFuChess.Split.Matchmaker
import KungFuChess.Split.GameServer

/-!
# The split deployment

Gateways, game servers and the matchmaker are processes of their own that share a Redis and
a database. A gateway sends a command to a shard and waits for the reply (`GatewayCall`): it looks
up where to send it, pushes it to the queue of the shard, and pops the reply, each with a
command of its own, and any of them may be as late as it likes. A shard takes the commands
of its queue one at a time, and the matches published by the matchmaker at its own pace.

The whole is one machine. A step (`Input`) is one Redis command of a gateway or of the
matchmaker, or one handler of a shard. A handler runs without a break, and its reply is
pushed by a step of its own, until which the shard does nothing else. Redis loses nothing
and never fails; what it keeps is kept once, for all processes, so a shard's services run
on their own memory and on the shared tables (`Cluster.load`, `Cluster.store`). A process
that an exception ends stays down.
-/

namespace KungFuChess

open Effect

/-! ### Gateway calls -/

/-- What a gateway does for a user through the command bus. -/
inductive Request where
  | createRoom (userId : UserId)
  | joinRoom (userId : UserId) (roomId : RoomId)
  | submitMove (userId : UserId) (startPos endPos : Position)
  | buildStateDict (roomId : RoomId)
  | onDisconnect (userId : UserId)
  | reconnect (userId : UserId)
deriving DecidableEq, Repr

namespace Request

/-- The command that is sent. -/
def command : Request → GameCommand
  | .createRoom userId => .roomCreate userId
  | .joinRoom userId roomId => .roomJoin userId roomId
  | .submitMove userId startPos endPos => .move userId startPos endPos
  | .buildStateDict roomId => .getState roomId
  | .onDisconnect userId => .playerDisconnected userId
  | .reconnect userId => .playerReconnect userId

/-- A refusal of these makes the gateway clear the mapping of the user. -/
def reconnects : Request → Option UserId
  | .reconnect userId => some userId
  | _ => none

end Request

/-- Where a gateway call is: the Redis command it runs next. -/
inductive CallPhase where
  | begun
  /-- `room_for_user` has returned; `shard_for` is next. -/
  | located (roomId : RoomId)
  /-- The shard is known; `lpush` is next. -/
  | addressed (shardId : String)
  /-- `blpop` waits for the reply. -/
  | waiting (shardId : String)
  /-- `reconnect` has been refused; `unbind_player` is next. -/
  | refused
  /-- The call is over, with the reply of `GameCommandBus.call` if that was called. -/
  | returned (reply : Option GameReply)
deriving DecidableEq, Repr

/-- A call of a gateway: what has been asked, and how far it has come. -/
structure GatewayCall where
  request : Request
  phase : CallPhase := .begun
deriving DecidableEq, Repr

/-! ### The machine -/

/-- A command that has been executed, with what the services were before and after it. -/
structure Execution where
  requestId : Nat
  command : GameCommand
  before : Server
  after : Server

/-- A game server process. -/
structure Shard where
  /-- The memory of its services; the shared tables in it are not looked at. -/
  server : Server := {}
  /-- `kungfu:game:cmdq:*`, oldest first, with the request ids. -/
  commands : List (Nat × GameCommand) := []
  /-- A reply that has not been pushed. -/
  answer : Option (Nat × GameReply) := none
  /-- How many of the matchmaker's events it has taken. -/
  seen : Nat := 0
  crashed : Bool := false
  /-- The commands it has executed so far. The code does not keep them. -/
  log : List Execution := []

/-- The shard can go on with its next handler. -/
def Shard.Ready (shard : Shard) : Prop := shard.crashed = false ∧ shard.answer = none

/-- Readiness is decided by the two fields. -/
instance (shard : Shard) : Decidable shard.Ready := inferInstanceAs (Decidable (_ ∧ _))

/-- What the processes are started with: the shards, and the expectation of `calc_elo`. -/
structure ClusterConfig where
  shards : ShardList
  expectedWinner : Int → Int → ℚ

/-- The state of the deployment: what Redis and the database keep, the shards, and the calls. -/
structure Cluster where
  /-- The keys `room:shard:*` and `user:room:*`. -/
  allocator : GameAllocator := {}
  /-- `kungfu:shard:rr`. -/
  nextShard : Nat := 0
  /-- The keys of the matchmaker, and its worker. -/
  matchmaker : Matchmaker := {}
  /-- The `users` table. -/
  users : Dict UserId User := Dict.empty
  /-- The `games` table. -/
  games : Dict RoomId GameResult := Dict.empty
  /-- `kungfu:reply:*`. -/
  replies : Dict Nat GameReply := Dict.empty
  /-- Every shard there might be; those not in the list get no commands. -/
  shards : String → Shard := fun _ => {}
  /-- The gateway calls so far; the place in the list is the request id. -/
  calls : List GatewayCall := []

/-- Calls that leave a process go to Redis, which does not fail, to the database or to the
file system. -/
def Env.overRedis (env : Env) : Env :=
  { env with
    raises := fun call =>
      match call with
      | .readInputTxt _ | .getById _ _ | .setElo _ _ | .record _ => env.raises call
      | _ => false }

/-- What may happen next in the deployment. -/
inductive Input where
  /-- The row of a new user is written. -/
  | register (userId : UserId) (username : String)
  /-- A gateway begins a call. -/
  | call (request : Request)
  /-- The call runs its next command. -/
  | advance (requestId : Nat)
  /-- `blpop` of the call gives up. -/
  | timeout (requestId : Nat)
  /-- The key of a reply expires. -/
  | expire (requestId : Nat)
  /-- A command of the matchmaker. -/
  | matchmaker (input : MatchmakerInput)
  /-- The shard handles the next command of its queue. -/
  | execute (shardId : String) (env : Env)
  /-- The shard pushes the reply. -/
  | reply (shardId : String)
  /-- The shard takes the next event of the matchmaker. -/
  | deliver (shardId : String) (env : Env)
  /-- One pass of the runtime loop of the shard. -/
  | runOnce (shardId : String) (env : Env)

namespace Cluster

variable (cfg : ClusterConfig) (c : Cluster)

/-- The configuration of the services of a shard. -/
def config (shardId : String) : Config where
  deployment := .gameShard shardId
  expectedWinner := cfg.expectedWinner

/-- The state the services of a shard see. -/
def load (shardId : String) : Server :=
  { (c.shards shardId).server with allocator := c.allocator, users := c.users, games := c.games }

/-- The services of a shard have left this state behind. -/
def store (shardId : String) (s : Server) (f : Shard → Shard) : Cluster :=
  { c with
    allocator := s.allocator
    users := s.users
    games := s.games
    shards := Function.update c.shards shardId (f { c.shards shardId with server := s }) }

/-- A program of a shard; an exception ends the process. -/
def runShard {α : Type} (shardId : String) (x : ServerM α) (f : Option α → Shard → Shard) :
    Cluster :=
  match x (c.load shardId) with
  | .ok a s => c.store shardId s (f (some a))
  | .error _ s => c.store shardId s fun shard => { f none shard with crashed := true }

/-- One shard is changed, the rest of the deployment is not. -/
def modifyShard (shardId : String) (f : Shard → Shard) : Cluster :=
  { c with shards := Function.update c.shards shardId (f (c.shards shardId)) }

/-! ### Calls -/

/-- A call is at another place of its way. -/
def setPhase (requestId : Nat) (phase : CallPhase) : Cluster :=
  { c with calls := c.calls.modify requestId fun call => { call with phase := phase } }

/-- `GameCommandBus.call` has returned. -/
def afterCall (request : Request) (reply : GameReply) : CallPhase :=
  if request.reconnects.isSome ∧ reply.ok = false then .refused else .returned (some reply)

/-- `shard_for` has returned; without a shard nothing is sent. -/
def afterShardFor (request : Request) : Option String → CallPhase
  | some shardId => .addressed shardId
  | none => if request.reconnects.isSome then .refused else .returned none

/-- `room_for_user` has returned. -/
def afterRoomForUser : Option RoomId → CallPhase
  | some roomId => .located roomId
  | none => .returned none

/-- The first command of a call. -/
def route (requestId : Nat) : Request → Cluster
  | .createRoom _ =>
    { c.setPhase requestId (.addressed (cfg.shards.get c.nextShard)) with
      nextShard := c.nextShard + 1 }
  | .joinRoom userId roomId =>
    c.setPhase requestId
      (afterShardFor (.joinRoom userId roomId) (c.allocator.roomShard.get? roomId))
  | .buildStateDict roomId =>
    c.setPhase requestId
      (afterShardFor (.buildStateDict roomId) (c.allocator.roomShard.get? roomId))
  | .submitMove userId _ _ | .onDisconnect userId | .reconnect userId =>
    c.setPhase requestId (afterRoomForUser (c.allocator.userRoom.get? userId))

/-- The next command of a call. -/
def advance (requestId : Nat) : Cluster :=
  match c.calls[requestId]? with
  | none => c
  | some call =>
    match call.phase with
    | .begun => c.route cfg requestId call.request
    | .located roomId =>
      c.setPhase requestId (afterShardFor call.request (c.allocator.roomShard.get? roomId))
    | .addressed shardId =>
      (c.modifyShard shardId fun shard =>
          { shard with commands := shard.commands ++ [(requestId, call.request.command)] }).setPhase
        requestId (.waiting shardId)
    | .waiting _ =>
      match c.replies.get? requestId with
      | none => c
      | some reply =>
        { c.setPhase requestId (afterCall call.request reply) with
          replies := c.replies.pop requestId }
    | .refused =>
      match call.request.reconnects with
      | none => c
      | some userId =>
        { c.setPhase requestId (.returned none) with
          allocator := c.allocator.unbindPlayer userId }
    | .returned _ => c

/-- The wait for a reply ends without one. -/
def timeout (requestId : Nat) : Cluster :=
  match c.calls[requestId]?, c.replies.get? requestId with
  | some ⟨request, .waiting _⟩, none =>
    c.setPhase requestId (afterCall request { ok := false, error := "game server timeout" })
  | _, _ => c

/-! ### Shards and the matchmaker -/

/-- The next command of a shard's queue. -/
def execute (shardId : String) (env : Env) : Cluster :=
  match (c.shards shardId).commands with
  | [] => c
  | (requestId, command) :: rest =>
    c.runShard shardId (handleCommand (config cfg shardId) env.overRedis command)
      fun reply? shard =>
        { shard with
          commands := rest
          answer := reply?.map fun reply => (requestId, reply)
          log := shard.log ++ [⟨requestId, command, c.load shardId, shard.server⟩] }

/-- The reply of a shard. -/
def reply (shardId : String) : Cluster :=
  match (c.shards shardId).answer with
  | none => c
  | some (requestId, reply) =>
    { c.modifyShard shardId fun shard => { shard with answer := none } with
      replies := c.replies.set requestId reply }

/-- The next event of the matchmaker; a match for another shard is passed over. -/
def deliver (shardId : String) (env : Env) : Cluster :=
  match c.matchmaker.events[(c.shards shardId).seen]? with
  | none => c
  | some (.createMatch roomId whiteId blackId target) =>
    if target = shardId then
      c.runShard shardId
        (onCreateMatch (config cfg shardId) env.overRedis roomId whiteId blackId)
        fun _ shard => { shard with seen := shard.seen + 1 }
    else c.modifyShard shardId fun shard => { shard with seen := shard.seen + 1 }
  | some (.matchTimeout _ _) =>
    c.modifyShard shardId fun shard => { shard with seen := shard.seen + 1 }

/-- A step of the matchmaker; an allocation claims the room for its shard. -/
def matchmake (input : MatchmakerInput) : Cluster :=
  let m := c.matchmaker.step cfg.shards input
  { c with
    matchmaker := m
    allocator :=
      match input, m.worker with
      | .work _, .allocated _ _ roomId _ _ shardId => c.allocator.claimRoom roomId shardId
      | _, _ => c.allocator }

/-- **A step of the deployment.** -/
def step : Input → Cluster
  | .register userId username =>
    { c with users := (after (UserStore.register userId username) { users := c.users }).users }
  | .call request => { c with calls := c.calls ++ [⟨request, .begun⟩] }
  | .advance requestId => c.advance cfg requestId
  | .timeout requestId => c.timeout requestId
  | .expire requestId => { c with replies := c.replies.pop requestId }
  | .matchmaker input => c.matchmake cfg input
  -- a shard that has died, or owes a reply, handles nothing
  | .execute shardId env => if (c.shards shardId).Ready then c.execute cfg shardId env else c
  | .reply shardId => c.reply shardId
  | .deliver shardId env => if (c.shards shardId).Ready then c.deliver cfg shardId env else c
  | .runOnce shardId env =>
    if (c.shards shardId).Ready then
      -- `run_once` catches what its pass raises, so the shard goes on
      c.runShard shardId (ServerRuntime.runOnce (config cfg shardId) env.overRedis)
        fun _ shard => shard
    else c

/-- The deployment before its first step, over a database as it is. -/
def start (users : Dict UserId User) (games : Dict RoomId GameResult) : Cluster :=
  { users := users, games := games }

end Cluster

/-- A deployment with two game servers. -/
def Small.cluster : ClusterConfig where
  shards := { shardIds := ["game-server-1", "game-server-2"], hash := fun _ => 0 }
  expectedWinner := Small.expectedWinner

end KungFuChess
