import KungFuChess.Server.GameService

/-!
# Matchmaking and the lobby

The in-process queue. A tick drops the users who have waited too long, then walks along
the queue and opens a room for each user and the first later user within the Elo window.
The queue is written back at the end of either half, so an exception in between leaves it
as it was.
-/

namespace KungFuChess

namespace MatchmakingService

/-- `ELO_WINDOW`: the largest difference of two ratings that are paired. -/
def eloWindow : Int := 100

/-- `QUEUE_TIMEOUT_SECONDS`. -/
def queueTimeoutSeconds : ℚ := 60

/-- The user waits in the queue. -/
def isQueued (s : Server) (userId : UserId) : Bool :=
  s.queue.any fun entry => entry.userId = userId

/-- `get_elo` of the wiring. -/
def getElo (env : Env) (userId : UserId) : ServerM Int := do
  let user ← UserStore.getById env .queueElo userId
  return (user.map User.elo).getD 1200

/-- A user joins the end of the queue, with the rating they have now. -/
def enqueue (env : Env) (userId : UserId) : ServerM String := do
  let s ← get
  if isQueued s userId then return "already_queued"
  else do
    let elo ← getElo env userId
    modify fun s => { s with queue := s.queue ++ [⟨userId, elo, env.now⟩] }
    return "queued"

/-- A user leaves the queue; the answer says whether they were in it. -/
def cancel (userId : UserId) : ServerM Bool := do
  let s ← get
  let queue := s.queue.filter fun entry => entry.userId ≠ userId
  modify fun s => { s with queue := queue }
  return decide (queue.length < s.queue.length)

/-- `notify_user` of the wiring: a match notice is followed by the state of the room. -/
def notifyUser (env : Env) (userId : UserId) (message : Message) : ServerM Unit := do
  perform env (.notify userId)
  modify fun s => s.send none [userId] message
  match message with
  | .matchFound roomId _ _ _ => do
    let s ← get
    match s.engines.get? roomId with
    | none => pure ()
    | some engine =>
      modify fun s => s.send none [userId] (.state (engine.snapshotState roomId))
  | _ => pure ()

/-- The loop of `_expire_timeouts`, with the entries kept so far. -/
def expireLoop (env : Env) : List QueueEntry → List QueueEntry → ServerM (List QueueEntry)
  | [], still => return still
  | entry :: rest, still =>
    if queueTimeoutSeconds ≤ env.now - entry.enqueuedAt then do
      notifyUser env entry.userId (.matchTimeout "no opponent within 60 seconds")
      expireLoop env rest still
    else expireLoop env rest (still ++ [entry])

/-- The first half of a tick: who has waited too long is told so and dropped. -/
def expireTimeouts (env : Env) : ServerM Unit := do
  let s ← get
  let still ← expireLoop env s.queue []
  modify fun s => { s with queue := still }

/-- The first later entry that is free and within the window. -/
def findMatch (used : List UserId) (a : QueueEntry) (later : List QueueEntry) :
    Option QueueEntry :=
  later.find? fun b => b.userId ∉ used ∧ |a.elo - b.elo| ≤ eloWindow

/-- Seat a pair and tell both. -/
def seatPair (env : Env) (a b : QueueEntry) : ServerM Unit := do
  let roomId ← RoomService.createMatchedRoom env a.userId b.userId none
  notifyUser env a.userId (.matchFound roomId a.userId b.userId .white)
  notifyUser env b.userId (.matchFound roomId a.userId b.userId .black)

/-- The loop of `_try_match` over the rest of the queue, with the users matched so far. -/
def matchLoop (env : Env) : List QueueEntry → List UserId → ServerM (List UserId)
  | [], used => return used
  | a :: later, used =>
    if a.userId ∈ used then matchLoop env later used
    else
      match findMatch used a later with
      | none => matchLoop env later used
      | some b => do
        seatPair env a b
        matchLoop env later (used ++ [a.userId, b.userId])

/-- The second half of a tick: rooms are opened for the pairs within the window. -/
def tryMatch (env : Env) : ServerM Unit := do
  let s ← get
  let used ← matchLoop env s.queue []
  -- an exception in the loop skips this write, and the seated users stay queued
  modify fun s => { s with queue := s.queue.filter fun entry => entry.userId ∉ used }

/-- One tick of the matchmaking service. -/
def tick (env : Env) : ServerM Unit := do
  expireTimeouts env
  tryMatch env

end MatchmakingService

namespace LobbyService

open RoomService MatchmakingService

/-- `enqueue` of the queue the lobby is wired with; a shard's does nothing. -/
def enqueue (cfg : Config) (env : Env) (userId : UserId) : ServerM String :=
  match cfg.deployment with
  | .inProcess => MatchmakingService.enqueue env userId
  | .gameShard _ => return "queued"

/-- `cancel` of the queue the lobby is wired with. -/
def cancel (cfg : Config) (userId : UserId) : ServerM Bool :=
  match cfg.deployment with
  | .inProcess => MatchmakingService.cancel userId
  | .gameShard _ => return false

/-- The command `play`: only a user without a room may queue. -/
def play (cfg : Config) (env : Env) (userId : UserId) : ServerM CommandOutcome := do
  let s ← get
  if (roomIdForUser s userId).isSome then
    return { ok := false, reason := "already in a room" }
  else do
    let status ← enqueue cfg env userId
    return { ok := true, payload := some (.playQueued status) }

/-- The command `cancel_play`, which is answered with success in either case. -/
def cancelPlay (cfg : Config) (userId : UserId) : ServerM CommandOutcome := do
  let cancelled ← cancel cfg userId
  return { ok := true, payload := some (.playCancelled cancelled) }

/-- `except ValueError as exc`. -/
def onValueError (exn : Exn) : ServerM CommandOutcome :=
  match exn with
  | .valueError message => return { ok := false, reason := message }
  | exn => throw exn

/-- The command `create_room`. -/
def createRoom (env : Env) (userId : UserId) : ServerM CommandOutcome :=
  tryCatch (do
    let roomId ← RoomService.createRoom env userId
    return { ok := true, payload := some (.roomCreated roomId .white 1) }) onValueError

/-- The command `join_room`: all members are told who has come. -/
def joinRoom (env : Env) (userId : UserId) (roomId : RoomId) : ServerM CommandOutcome :=
  tryCatch (do
    let role ← RoomService.joinRoom env roomId userId
    let s ← get
    let players := ((s.rooms.get? roomId).map fun room => room.players.length).getD 0
    -- a viewer is shown the board from White's side
    let color := if role ≠ .viewer then role else .white
    return { ok := true
             payload := some (.roomJoined roomId role color players)
             broadcastUserIds := memberIds s roomId
             broadcastPayload := some (.roomUpdate roomId players userId role) }) onValueError

end LobbyService

end KungFuChess
