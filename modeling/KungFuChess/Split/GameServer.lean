import KungFuChess.Server.RoomInv

/-!
# The game server

A game server holds rooms and engines and works off what the other processes send it: the
commands of its queue, each of which gets one reply (`handleCommand`), and the matches that
the matchmaker publishes (`onCreateMatch`).

What a command does to the services is what one event of the server does
(`after_handleCommand`), so whatever holds of events holds of commands.
-/

namespace KungFuChess

open Effect RoomService GameService

/-! ### Commands and replies -/

/-- The commands of `_handle_command`. -/
inductive GameCommand where
  | roomCreate (userId : UserId)
  | roomJoin (userId : UserId) (roomId : RoomId)
  | move (userId : UserId) (startPos endPos : Position)
  | getState (roomId : RoomId)
  | playerDisconnected (userId : UserId)
  | playerReconnect (userId : UserId)
deriving DecidableEq, Repr

/-- The keys of a reply; one that is missing is at its default. -/
structure GameReply where
  ok : Bool
  error : String := ""
  payload : Option Message := none
  broadcastUserIds : List UserId := []
  broadcastPayload : Option Message := none
  extraPayloads : List StateMessage := []
  roomId : Option RoomId := none
  startPos : Option Position := none
  endPos : Option Position := none
  memberIds : List UserId := []
  color : Option PlayerRole := none
  state : Option StateMessage := none
deriving DecidableEq, Repr

/-- The key `room_id` of a payload. -/
def Message.roomId? : Message → Option RoomId
  | .state snapshot => some snapshot.roomId
  | .gameOver _ _ roomId => some roomId
  | .disconnectCountdown roomId _ _ => some roomId
  | .roomCreated roomId _ _ => some roomId
  | .roomJoined roomId _ _ _ => some roomId
  | .roomUpdate roomId _ _ _ => some roomId
  | .matchFound roomId _ _ _ => some roomId
  | .playQueued _ | .playCancelled _ | .matchTimeout _ => none

/-- `build_state_dict` of the engine of a room, if there is one. -/
def stateOf (s : Server) (roomId : RoomId) : Option StateMessage :=
  (s.engines.get? roomId).map fun engine => engine.snapshotState roomId

/-- `_outcome_to_reply`. -/
def outcomeToReply (outcome : CommandOutcome) (s : Server) : GameReply :=
  if outcome.ok then
    { ok := true
      payload := outcome.payload
      broadcastUserIds := outcome.broadcastUserIds
      broadcastPayload := outcome.broadcastPayload
      extraPayloads := ((outcome.payload.bind Message.roomId?).bind (stateOf s)).toList }
  else { ok := false, error := outcome.reason }

/-- The reply to a move. -/
def moveToReply (outcome : MoveOutcome) : GameReply :=
  if outcome.ok then
    { ok := true, roomId := outcome.roomId, startPos := outcome.startPos, endPos := outcome.endPos
      memberIds := outcome.memberIds }
  else { ok := false, error := outcome.reason }

/-- The creator of a room is entered into the allocator. -/
def bindCreated (cfg : Config) (userId : UserId) (reply : GameReply) : ServerM Unit :=
  if reply.ok then
    match reply.payload.bind Message.roomId? with
    | some roomId => bindPlayers cfg roomId [userId]
    | none => pure ()
  else pure ()

/-- A user who has joined is entered into the allocator. -/
def bindJoined (cfg : Config) (userId : UserId) (roomId : RoomId) (reply : GameReply) :
    ServerM Unit :=
  if reply.ok then bindPlayer cfg userId roomId else pure ()

/-- `rooms.reconnect`, and once more if the user is in a room after all. -/
def reconnectTwice (userId : UserId) : ServerM (Option RoomId) := do
  let room? ← RoomService.reconnect userId
  match room? with
  | some roomId => return some roomId
  | none => do
    let s ← get
    match roomIdForUser s userId with
    | none => return none
    | some roomId => do
      let _ ← RoomService.reconnect userId
      return some roomId

/-- `_handle_command`, with what `_cmd_loop` does for a move and for a disconnect. -/
def handleCommand (cfg : Config) (env : Env) : GameCommand → ServerM GameReply
  | .roomCreate userId => do
    let outcome ← LobbyService.createRoom env userId
    let s ← get
    let reply := outcomeToReply outcome s
    bindCreated cfg userId reply
    return reply
  | .roomJoin userId roomId => do
    let outcome ← LobbyService.joinRoom env userId roomId
    let s ← get
    let reply := outcomeToReply outcome s
    bindJoined cfg userId roomId reply
    return reply
  | .move userId startPos endPos => do
    let outcome ← GameService.submitMove userId startPos endPos
    return moveToReply outcome
  | .getState roomId => do
    let s ← get
    match stateOf s roomId with
    | none => return { ok := false, error := "room not found" }
    | some snapshot => return { ok := true, payload := some (.state snapshot) }
  | .playerDisconnected userId => do
    ServerRuntime.onClientDisconnected cfg env userId
    return { ok := true }
  | .playerReconnect userId => do
    let room? ← reconnectTwice userId
    match room? with
    | none => return { ok := false, error := "not in a room" }
    | some roomId => do
      let s ← get
      match stateOf s roomId with
      | none => return { ok := false, error := "game not active" }
      | some snapshot =>
        return { ok := true, roomId := some roomId, color := memberRole s roomId userId
                 state := some snapshot }

/-- `_mm_loop` on a match for this shard: a `ValueError` is logged. -/
def onCreateMatch (cfg : Config) (env : Env) (roomId : RoomId) (whiteId blackId : UserId) :
    ServerM Unit :=
  tryCatch (handleCreateMatch cfg env roomId whiteId blackId) fun exn =>
    match exn with
    | .valueError _ => pure ()
    | exn => throw exn

/-! ### Commands are events -/

/-- What a command does to the services. -/
def GameCommand.event? : GameCommand → Option Event
  | .roomCreate userId => some (.createRoom userId)
  | .roomJoin userId roomId => some (.joinRoom userId roomId)
  | .move userId startPos endPos => some (.submitMove userId startPos endPos)
  | .getState _ => none
  | .playerDisconnected userId => some (.clientDisconnected userId)
  | .playerReconnect userId => some (.reconnect userId)

section Commands

variable {cfg : Config} {env : Env} {s : Server}

/-- The payload of a room that has been opened names the room. -/
theorem createRoom_payload (userId : UserId) :
    wp (LobbyService.createRoom env userId)
      (fun outcome _ => if outcome.ok then
          outcome.payload = some (.roomCreated (env.tokenHex userId) .white 1)
        else outcome.payload = none) (fun _ _ => True) s := by
  have hroom : wp (RoomService.createRoom env userId)
      (fun roomId _ => roomId = env.tokenHex userId) (fun _ _ => True) s := by
    unfold RoomService.createRoom
    -- a creator in a room already makes it raise
    rw [wp_bind, wp_get]
    split
    · trivial
    rw [wp_bind, wp_modify]
    rw [wp_bind]
    -- the hook may raise, or return; either way the id has been drawn
    exact wp_of_forall (fun _ _ => rfl) fun _ _ => trivial
  unfold LobbyService.createRoom
  rw [wp_tryCatch, wp_bind]
  refine wp_mono hroom (fun roomId t ht => ?_) (fun exn t _ => ?_)
  · rw [wp_pure, if_pos rfl, ht]
  · -- a refusal has no payload
    unfold LobbyService.onValueError
    split
    · rfl
    · trivial

/-- The reply says whether the outcome was good. -/
theorem outcomeToReply_ok (outcome : CommandOutcome) : (outcomeToReply outcome s).ok = outcome.ok := by
  unfold outcomeToReply
  split
  · next h => exact h.symm
  · next h => exact (Bool.eq_false_iff.mpr h).symm

/-- A `reconnect` that finds no room changes nothing. -/
theorem reconnect_none {userId : UserId} :
    wp (RoomService.reconnect userId) (fun room? t => room? = none → t = s) (fun _ _ => True) s := by
  refine wp_mono (reconnect_cases userId s) (fun _ t ht => ?_) fun _ _ _ => trivial
  cases ht with
  | absent => exact fun _ => rfl
  | back => exact nofun

/-- A second `reconnect` finds what the first has found. -/
theorem after_reconnectTwice (userId : UserId) :
    after (reconnectTwice userId) s = after (RoomService.reconnect userId) s := by
  rw [← after_bind_pure (RoomService.reconnect userId) id]
  refine after_bind_congr ?_
  have hnone : wp (RoomService.reconnect userId) (fun room? t => room? = none → t = s) _ s :=
    reconnect_none
  unfold wp at hnone ⊢
  cases hrun : RoomService.reconnect userId s with
  | error exn t => trivial
  | ok room? t =>
    rw [hrun] at hnone
    -- the first has found a room, and there is no second
    cases room? with
    | some roomId => rfl
    -- the first has found none, and the second looks at the same state
    | none =>
      obtain rfl := hnone rfl
      change after (match roomIdForUser t userId with
        | none => (pure none : ServerM (Option RoomId))
        | some roomId => RoomService.reconnect userId >>= fun _ => pure (some roomId)) t = t
      split
      · rfl
      · rw [after_bind_pure]
        unfold after
        rw [hrun]

/-- **A command is an event**, as far as the services go; a look at a state is none. -/
theorem after_handleCommand (command : GameCommand) :
    after (handleCommand cfg env command) s =
      match command.event? with
      | some event => s.step cfg (env, event)
      | none => s := by
  cases command with
  | roomCreate userId =>
    -- the reply adds nothing to the state but the keys, which the event writes as well
    refine after_bind_congr (wp_mono (createRoom_payload userId) (fun outcome t ht => ?_)
      fun _ _ h => h)
    change after (bindCreated cfg userId (outcomeToReply outcome t) >>= fun _ => pure _) t = _
    rw [after_bind_pure, bindCreated, outcomeToReply_ok]
    -- the room named by the payload is the one that is bound
    cases hok : outcome.ok with
    | true =>
      rw [if_pos hok] at ht
      rw [outcomeToReply, if_pos hok, ht]
      rfl
    | false => rfl
  | roomJoin userId roomId =>
    refine after_bind_congr (wp_of_forall (fun outcome t => ?_) fun _ _ => trivial)
    -- a join binds the room that was asked for
    change after (bindJoined cfg userId roomId (outcomeToReply outcome t) >>= fun _ => pure _) t = _
    rw [after_bind_pure, bindJoined, outcomeToReply_ok]
  | move userId startPos endPos =>
    refine (after_bind_pure _ _).trans ?_
    -- a move, and a disconnect, are one call of a service
    exact (after_bind_pure (GameService.submitMove userId startPos endPos) fun _ => ()).symm
  | getState roomId =>
    change after (match stateOf s roomId with
      | none => (pure { ok := false, error := "room not found" } : ServerM GameReply)
      | some snapshot => pure { ok := true, payload := some (.state snapshot) }) s = s
    split
    · rfl
    · rfl
  | playerDisconnected userId => exact after_bind_pure _ _
  | playerReconnect userId =>
    -- a second `reconnect` changes nothing more, and the state is only looked at
    change _ = after (RoomService.reconnect userId >>= fun _ => pure ()) s
    rw [after_bind_pure, ← after_reconnectTwice, ← after_bind_pure (reconnectTwice userId) id]
    refine after_bind_congr (wp_of_forall (fun room? t => ?_) fun _ _ => trivial)
    split
    · rfl
    · rename_i roomId
      change after (match stateOf t roomId with
        | none => (pure { ok := false, error := "game not active" } : ServerM GameReply)
        | some snapshot => _) t = t
      split
      · rfl
      · rfl

end Commands

end KungFuChess
