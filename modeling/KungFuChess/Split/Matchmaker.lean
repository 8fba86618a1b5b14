import Mathlib.Data.String.Basic
import KungFuChess.Library.Dict
import KungFuChess.Library.Sorting
import KungFuChess.Server.MatchmakingService

/-!
# The matchmaker of the split deployment

Gateways enter users into a queue in Redis and take them out again
(`RedisMatchmakingGateway`); one worker process pairs them (`RedisMatchmakerWorker`). They
share nothing but Redis, whose commands are atomic, so the matchmaker is a machine that runs
one command, or one pipeline, a step. The worker's part of its state says which command
comes next, with the local variables of the two loops (`Worker`); what a gateway has checked
before its write is in `enqueues`.

`cancelled` is the one thing here the code does not keep: the users whose last effective
call is a `cancel` that returned `True`.
-/

namespace KungFuChess

/-! ### The queue -/

/-- The Redis keys `mm:queue`, a sorted set, and `mm:elo`, a hash. -/
structure RedisMatchmakingQueue where
  scores : Dict UserId ℚ := Dict.empty
  elos : Dict UserId Int := Dict.empty

namespace RedisMatchmakingQueue

variable (q : RedisMatchmakingQueue)

/-- `zrange ... withscores`: by score, and by member where the scores are equal. -/
def zrange : List (UserId × ℚ) :=
  Sorting.sortBy (fun row => toLex (row.2, row.1.text)) q.scores.entries

/-- The pipeline of `enqueue`: `zadd` and `hset`. -/
def add (userId : UserId) (elo : Int) (now : ℚ) : RedisMatchmakingQueue where
  scores := q.scores.set userId now
  elos := q.elos.set userId elo

/-- `zrem` and `hdel` of one user. -/
def remove (userId : UserId) : RedisMatchmakingQueue where
  scores := q.scores.pop userId
  elos := q.elos.pop userId

/-- The pipeline of `remove_users`. -/
def removeUsers (userIds : List UserId) : RedisMatchmakingQueue :=
  userIds.foldl remove q

/-- The entries of `snapshot`, from the rows that `zrange` has returned. -/
def entriesOf (rows : List (UserId × ℚ)) : List QueueEntry :=
  rows.map fun row => ⟨row.1, (q.elos.get? row.1).getD 1200, row.2⟩

/-- `is_queued`: whether the user has a score. -/
def isQueued (userId : UserId) : Bool := q.scores.contains userId

end RedisMatchmakingQueue

/-! ### The shards -/

/-- The shards that `GameAllocator` knows; there is at least one. -/
structure ShardList where
  shardIds : List String
  nonempty : 0 < shardIds.length := by decide
  /-- `hash` of a room identifier; it differs from process to process. -/
  hash : RoomId → Nat

namespace ShardList

variable (shards : ShardList)

/-- The shard at place `n` of the list, counted round and round. -/
def get (n : Nat) : String :=
  shards.shardIds.get ⟨n % shards.shardIds.length, Nat.mod_lt n shards.nonempty⟩

/-- The shard that `allocate` chooses. -/
def allocate (roomId : RoomId) : String := shards.get (shards.hash roomId)

end ShardList

/-! ### The machine -/

/-- What is published on `kungfu:mm:events`. -/
inductive MatchmakerEvent where
  | createMatch (roomId : RoomId) (whiteId blackId : UserId) (shardId : String)
  | matchTimeout (userId : UserId) (reason : String)
deriving DecidableEq, Repr

/-- Where the worker is: the command it runs next. -/
inductive Worker where
  | idle
  /-- `_expire_timeouts` has read the rows and reads the ratings. -/
  | expiryRanged (now : ℚ) (rows : List (UserId × ℚ))
  /-- It publishes the next timeout of `rest`, or removes the users it has told. -/
  | expiring (now : ℚ) (rest : List QueueEntry) (timedOut : List UserId)
  /-- `_try_match` reads the rows. -/
  | expired
  | matchRanged (rows : List (UserId × ℚ))
  /-- It allocates a shard for the next pair of `rest`, or removes the users it has paired. -/
  | matching (rest : List QueueEntry) (used : List UserId)
  /-- It publishes the match; the loop goes on with `later`. -/
  | allocated (later : List QueueEntry) (used : List UserId) (roomId : RoomId)
      (whiteId blackId : UserId) (shardId : String)
deriving DecidableEq, Repr

/-- The state of the matchmaker: the queue, what its calls still have to write, and the worker. -/
structure Matchmaker where
  queue : RedisMatchmakingQueue := {}
  /-- The `enqueue` calls that have found no score and have not written yet. -/
  enqueues : List (UserId × Int) := []
  worker : Worker := .idle
  /-- What has been published so far. -/
  events : List MatchmakerEvent := []
  /-- The users whose last effective call is a `cancel` that has removed them. -/
  cancelled : List UserId := []

/-- The commands of the matchmaker, one at a time. -/
inductive MatchmakerInput where
  /-- `enqueue` has the rating and looks for a score. -/
  | enqueue (userId : UserId) (elo : Int)
  /-- The pipeline of an `enqueue` that has found none. -/
  | write (userId : UserId) (elo : Int) (now : ℚ)
  /-- `zrem` of a `cancel`. -/
  | cancel (userId : UserId)
  /-- The worker begins a tick. -/
  | tick (now : ℚ)
  /-- The worker runs its next command; `roomId` is what `token_hex` draws. -/
  | work (roomId : RoomId)
deriving DecidableEq, Repr

namespace Matchmaker

open MatchmakingService

/-- The next entry that has waited too long, and the entries after it. -/
def nextExpired (now : ℚ) : List QueueEntry → Option (QueueEntry × List QueueEntry)
  | [] => none
  | entry :: rest =>
    if queueTimeoutSeconds ≤ now - entry.enqueuedAt then some (entry, rest)
    else nextExpired now rest

/-- The next pair of the loop of `_try_match`, and the entries after its first. -/
def nextPair (used : List UserId) :
    List QueueEntry → Option (QueueEntry × QueueEntry × List QueueEntry)
  | [] => none
  | a :: later =>
    if a.userId ∈ used then nextPair used later
    else
      match findMatch used a later with
      | none => nextPair used later
      | some b => some (a, b, later)

variable (shards : ShardList) (m : Matchmaker)

/-- An event is published at the end of what has been published. -/
def publish (event : MatchmakerEvent) : Matchmaker := { m with events := m.events ++ [event] }

/-- The next command of the worker. -/
def work (roomId : RoomId) : Matchmaker :=
  match m.worker with
  | .idle => m
  | .expiryRanged now rows => { m with worker := .expiring now (m.queue.entriesOf rows) [] }
  | .expiring now rest timedOut =>
    match nextExpired now rest with
    | some (entry, later) =>
      { m.publish (.matchTimeout entry.userId "no opponent within 60 seconds")
        with worker := .expiring now later (timedOut ++ [entry.userId]) }
    | none => { m with queue := m.queue.removeUsers timedOut, worker := .expired }
  | .expired => { m with worker := .matchRanged m.queue.zrange }
  | .matchRanged rows => { m with worker := .matching (m.queue.entriesOf rows) [] }
  | .matching rest used =>
    match nextPair used rest with
    | some (a, b, later) =>
      { m with
        worker := .allocated later (used ++ [a.userId, b.userId]) roomId a.userId b.userId
          (shards.allocate roomId) }
    | none => { m with queue := m.queue.removeUsers used, worker := .idle }
  | .allocated later used roomId whiteId blackId shardId =>
    { m.publish (.createMatch roomId whiteId blackId shardId) with worker := .matching later used }

/-- One command of a gateway or of the worker. -/
def step : MatchmakerInput → Matchmaker
  | .enqueue userId elo =>
    -- who has a score is told that they wait; nothing is written
    if m.queue.isQueued userId then m
    else { m with enqueues := m.enqueues ++ [(userId, elo)] }
  | .write userId elo now =>
    if (userId, elo) ∈ m.enqueues then
      { m with
        queue := m.queue.add userId elo now
        enqueues := m.enqueues.erase (userId, elo)
        -- the pipeline sets the score without another look
        cancelled := m.cancelled.filter (· ≠ userId) }
    else m
  | .cancel userId =>
    { m with
      queue := m.queue.remove userId
      cancelled := if m.queue.isQueued userId then userId :: m.cancelled else m.cancelled }
  | .tick now =>
    match m.worker with
    | .idle => { m with worker := .expiryRanged now m.queue.zrange }
    -- a worker in the middle of a tick begins no other
    | _ => m
  | .work roomId => m.work shards roomId

end Matchmaker

end KungFuChess
