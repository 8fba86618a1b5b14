import KungFuChess.Server.SeatingCalls
import KungFuChess.Split.Cluster

/-!
# What the handlers of a shard do

A command is refused with nothing changed, or accepted, or it ends the process. For the
commands that seat users, and for a match, the specifications say which of the three, what
the services are afterwards, and what has been written to the keys of the allocator.
-/

namespace KungFuChess

open Effect RoomService GameService

/-- A call that seats users has gone through, and the room has an engine. -/
structure OpensRoom (env : Env) (a : Action) (roomId : RoomId) (s t : Server) : Prop where
  opens : Opens a roomId s t
  engine : t.engines.contains roomId = true
  board : ¬ BoardFails env s roomId

/-- A call that seats users has written and then failed to build the engine. -/
structure OpensBroken (env : Env) (a : Action) (roomId : RoomId) (s t : Server) : Prop where
  opens : Opens a roomId s t
  board : BoardFails env s roomId

section Specs

variable {cfg : Config} {env : Env} {s : Server} {shardId : String}

/-- A `ValueError` becomes a refusal; anything else goes on. -/
theorem onValueError_spec {exn : Exn} {t : Server} {Q : CommandOutcome → Server → Prop}
    {E : Exn → Server → Prop} (hQ : exn.IsValueError → ∀ reason, Q { ok := false, reason := reason } t)
    (hE : ¬ exn.IsValueError → E exn t) : wp (LobbyService.onValueError exn) Q E t := by
  unfold LobbyService.onValueError
  cases exn with
  | valueError message => exact hQ trivial message
  | keyError => exact hE id
  | chessValidationError error => exact hE id
  | external call => exact hE id

/-- `create_room` is refused to a user in a room, opens the room, or breaks off at the board. -/
theorem lobby_createRoom (userId : UserId) :
    wp (LobbyService.createRoom env userId)
      (fun outcome t => outcome.ok = false ∧ s.userRoom.contains userId = true ∧ t = s ∨
        outcome.ok = true ∧ outcome.payload = some (.roomCreated (env.tokenHex userId) .white 1) ∧
          OpensRoom env (.openRoom (env.tokenHex userId) userId) (env.tokenHex userId) s t)
      (fun _ t =>
        OpensBroken env (.openRoom (env.tokenHex userId) userId) (env.tokenHex userId) s t) s := by
  unfold LobbyService.createRoom
  rw [wp_tryCatch, wp_bind]
  refine wp_mono (createRoom_opens userId) ?_ ?_
  · rintro _ t ⟨rfl, ht, hengine, hloads⟩
    exact Or.inr ⟨rfl, rfl, ht, hengine, hloads⟩
  · rintro exn t (⟨hexn, hmapped, rfl⟩ | ⟨hexn, ht, hfails⟩)
    · -- a `ValueError` becomes a refusal
      exact onValueError_spec (fun _ _ => Or.inl ⟨rfl, hmapped, rfl⟩) fun h => absurd hexn h
    · -- any other exception goes on
      exact onValueError_spec (fun h => absurd h hexn) fun _ => ⟨ht, hfails⟩

/-- `join_room` is refused with nothing changed, seats the user, or breaks off at the board. -/
theorem lobby_joinRoom (userId : UserId) (roomId : RoomId) :
    wp (LobbyService.joinRoom env userId roomId)
      (fun outcome t => outcome.ok = false ∧ t = s ∧
          (s.rooms.get? roomId = none ∨ s.userRoom.contains userId = true) ∨
        outcome.ok = true ∧ ∃ room, s.rooms.get? roomId = some room ∧
          Opens (.join roomId userId (nextRole room)) roomId s t ∧
          (StartsGame room → ¬ BoardFails env s roomId))
      (fun _ t => ∃ room, s.rooms.get? roomId = some room ∧
        Opens (.join roomId userId (nextRole room)) roomId s t ∧ StartsGame room ∧
          BoardFails env s roomId) s := by
  unfold LobbyService.joinRoom
  rw [wp_tryCatch, wp_bind]
  refine wp_mono (joinRoom_opens roomId userId) ?_ ?_
  · rintro _ t ⟨room, hroom, rfl, ht, hloads⟩
    rw [wp_bind, wp_get]
    exact Or.inr ⟨rfl, room, hroom, ht, hloads⟩
  · -- a `ValueError` becomes a reply, the failure of the board file does not
    rintro exn t (⟨hexn, rfl, hreason⟩ | ⟨hexn, hfails⟩)
    · exact onValueError_spec (fun _ _ => Or.inl ⟨rfl, rfl, hreason⟩) fun h => absurd hexn h
    · exact onValueError_spec (fun h => absurd h hexn) fun _ => hfails

/-- On a shard `bind_match` writes the keys. -/
theorem bindPlayers_shard (hshard : cfg.deployment = .gameShard shardId) (roomId : RoomId)
    (userIds : List UserId) : bindPlayers cfg roomId userIds =
      modify fun s => { s with allocator := s.allocator.bindMatch roomId shardId userIds } := by
  unfold bindPlayers
  rw [hshard]

/-- On a shard `bind_player` writes the key of the user. -/
theorem bindPlayer_shard (hshard : cfg.deployment = .gameShard shardId) (userId : UserId)
    (roomId : RoomId) : bindPlayer cfg userId roomId =
      modify fun s => { s with allocator := s.allocator.bindPlayer userId roomId } := by
  unfold bindPlayer
  rw [hshard]

/-- `room_create`. -/
theorem handleCommand_roomCreate (hshard : cfg.deployment = .gameShard shardId) (userId : UserId) :
    wp (handleCommand cfg env (.roomCreate userId))
      (fun reply t => reply.ok = false ∧ s.userRoom.contains userId = true ∧ t = s ∨
        reply.ok = true ∧ ∃ u,
          OpensRoom env (.openRoom (env.tokenHex userId) userId) (env.tokenHex userId) s u ∧
          t = { u with
            allocator := u.allocator.bindMatch (env.tokenHex userId) shardId [userId] })
      (fun _ t =>
        OpensBroken env (.openRoom (env.tokenHex userId) userId) (env.tokenHex userId) s t) s := by
  unfold handleCommand
  refine wp_call (lobby_createRoom userId) (fun _ _ h => h) ?_
  rintro outcome u (⟨hok, hmapped, rfl⟩ | ⟨hok, hpayload, hu⟩)
  -- a refusal binds nobody; otherwise the payload names the room to bind to
  · have hreply : (outcomeToReply outcome u).ok = false := (outcomeToReply_ok outcome).trans hok
    have hbind : bindCreated cfg userId (outcomeToReply outcome u) = pure () :=
      if_neg (by rw [hreply]; simp)
    change wp (bindCreated cfg userId (outcomeToReply outcome u) >>= fun _ => pure _) _ _ u
    rw [hbind]
    exact Or.inl ⟨hreply, hmapped, rfl⟩
  · have hreply : (outcomeToReply outcome u).ok = true := (outcomeToReply_ok outcome).trans hok
    have hbind : bindCreated cfg userId (outcomeToReply outcome u) =
        bindPlayers cfg (env.tokenHex userId) [userId] := by
      rw [bindCreated, if_pos hreply, outcomeToReply, if_pos hok, hpayload]
      rfl
    change wp (bindCreated cfg userId (outcomeToReply outcome u) >>= fun _ => pure _) _ _ u
    rw [hbind, bindPlayers_shard hshard]
    exact Or.inr ⟨hreply, u, hu, rfl⟩

/-- `room_join`. -/
theorem handleCommand_roomJoin (hshard : cfg.deployment = .gameShard shardId) (userId : UserId)
    (roomId : RoomId) :
    wp (handleCommand cfg env (.roomJoin userId roomId))
      (fun reply t => reply.ok = false ∧ t = s ∧
          (s.rooms.get? roomId = none ∨ s.userRoom.contains userId = true) ∨
        reply.ok = true ∧ ∃ room u, s.rooms.get? roomId = some room ∧
          Opens (.join roomId userId (nextRole room)) roomId s u ∧
          (StartsGame room → ¬ BoardFails env s roomId) ∧
          t = { u with allocator := u.allocator.bindPlayer userId roomId })
      (fun _ t => ∃ room, s.rooms.get? roomId = some room ∧
        Opens (.join roomId userId (nextRole room)) roomId s t ∧ StartsGame room ∧
          BoardFails env s roomId) s := by
  unfold handleCommand
  refine wp_call (lobby_joinRoom userId roomId) (fun _ _ h => h) ?_
  rintro outcome u (⟨hok, rfl, hreason⟩ | ⟨hok, room, hroom, hu, hloads⟩)
  · -- a refusal binds nobody
    have hreply : (outcomeToReply outcome u).ok = false := (outcomeToReply_ok outcome).trans hok
    have hbind : bindJoined cfg userId roomId (outcomeToReply outcome u) = pure () :=
      if_neg (by rw [hreply]; simp)
    change wp (bindJoined cfg userId roomId (outcomeToReply outcome u) >>= fun _ => pure _) _ _ u
    rw [hbind]
    exact Or.inl ⟨hreply, rfl, hreason⟩
  · -- who has been let in is bound to the room that was asked for
    have hreply : (outcomeToReply outcome u).ok = true := (outcomeToReply_ok outcome).trans hok
    have hbind : bindJoined cfg userId roomId (outcomeToReply outcome u) =
        bindPlayer cfg userId roomId := if_pos hreply
    change wp (bindJoined cfg userId roomId (outcomeToReply outcome u) >>= fun _ => pure _) _ _ u
    rw [hbind, bindPlayer_shard hshard]
    exact Or.inr ⟨hreply, room, u, hroom, hu, hloads, rfl⟩

/-- The three rejections of `create_matched_room`. -/
def MatchRejected (s : Server) (roomId : RoomId) (whiteId blackId : UserId) : Prop :=
  s.userRoom.contains whiteId = true ∨ s.userRoom.contains blackId = true ∨
    s.rooms.contains roomId = true

/-- Both users of a match are told of it, and then of the state of the room. -/
def MatchTold (roomId : RoomId) (whiteId blackId : UserId) (before after : List Outgoing) : Prop :=
  ∃ states, after = before ++
    [⟨none, [whiteId], .matchFound roomId whiteId blackId .white⟩,
      ⟨none, [blackId], .matchFound roomId whiteId blackId .black⟩] ++ states

/-- A match of the matchmaker. -/
theorem onCreateMatch_spec (hshard : cfg.deployment = .gameShard shardId) (roomId : RoomId)
    (whiteId blackId : UserId) :
    wp (onCreateMatch cfg env.overRedis roomId whiteId blackId)
      (fun _ t => t = s ∧ MatchRejected s roomId whiteId blackId ∨
        ∃ u, OpensRoom env.overRedis (.openMatchedRoom roomId whiteId blackId) roomId s u ∧
          t = { u with
            allocator := u.allocator.bindMatch roomId shardId [whiteId, blackId]
            outbox := t.outbox } ∧
          MatchTold roomId whiteId blackId s.outbox t.outbox)
      (fun _ t =>
        OpensBroken env.overRedis (.openMatchedRoom roomId whiteId blackId) roomId s t) s := by
  unfold onCreateMatch handleCreateMatch
  rw [wp_tryCatch]
  refine wp_call (createMatchedRoom_opens whiteId blackId roomId) ?_ ?_
  · rintro exn t (⟨hexn, rfl, hrejected⟩ | ⟨hexn, ht, hfails⟩)
    -- a rejection is logged; what the hook raises goes on
    · cases exn with
      | valueError message => exact Or.inl ⟨rfl, hrejected⟩
      | keyError => exact hexn.elim
      | chessValidationError error => exact hexn.elim
      | external call => exact hexn.elim
    · cases exn with
      | valueError message => exact absurd trivial hexn
      | keyError => exact ⟨ht, hfails⟩
      | chessValidationError error => exact ⟨ht, hfails⟩
      | external call => exact ⟨ht, hfails⟩
  · rintro r u ⟨hr, hu, hengine, hloads⟩
    subst r
    rw [bindPlayers_shard hshard]
    have houtbox : u.outbox = s.outbox := by rw [hu.others]
    -- nothing that goes to Redis raises
    have hpublish : ∀ (call : ExternalCall) (recipients : List UserId) (message : Message),
        env.overRedis.raises call = false → publishOutbound env.overRedis call recipients message =
          modify fun s => s.send none recipients message := by
      intro call recipients message hcall
      unfold publishOutbound perform
      rw [hcall]
      rfl
    rw [hpublish _ _ _ rfl, hpublish _ _ _ rfl]
    simp only [wp_bind, wp_modify, wp_get]
    -- the state of the room is sent if it has an engine
    split
    · -- there is none, so nothing more is sent
      refine Or.inr ⟨u, ⟨hu, hengine, hloads⟩, rfl, [], ?_⟩
      simp [Server.send, houtbox]
    · rename_i engine _
      rw [hpublish _ _ _ rfl]
      refine Or.inr ⟨u, ⟨hu, hengine, hloads⟩, rfl,
        [⟨none, [whiteId, blackId], .state (engine.snapshotState roomId)⟩], ?_⟩
      simp [Server.send, houtbox]

/-! ### Moves -/

/-- A move that is refused leaves the engine as it was. -/
theorem tryPlayerMove_refused {e : GameEngine} {color : Color} {startPos endPos : Position}
    (h : (e.tryPlayerMove color startPos endPos).2.1 = false) :
    (e.tryPlayerMove color startPos endPos).1 = e := by
  unfold GameEngine.tryPlayerMove at h ⊢
  -- the refusals of the adapter return the engine that they were given
  split
  · rfl
  next hover =>
  rw [if_neg hover] at h
  split
  · rfl
  next ref hpiece =>
  rw [hpiece] at h
  dsimp only at h
  split
  · rfl
  next hcolor =>
  rw [if_neg hcolor] at h
  dsimp only at h ⊢
  split
  · next hmoved => exact absurd h (by simp [hmoved])
  · next hmoved =>
    unfold GameEngine.handleMoveRequest at hmoved ⊢
    -- so do those of the engine: an illegal or blocked move launches nothing
    split
    · rfl
    · split
      · next ref' hlaunch hlegal => exact absurd hmoved (by simp [hlaunch, hlegal])
      · rfl

/-- A move that is accepted launches a motion. -/
theorem tryPlayerMove_accepted {e : GameEngine} {color : Color} {startPos endPos : Position}
    (h : (e.tryPlayerMove color startPos endPos).2.1 = true) :
    (e.tryPlayerMove color startPos endPos).1.arbiter.motionCounter =
      e.arbiter.motionCounter + 1 := by
  unfold GameEngine.tryPlayerMove at h ⊢
  -- past all refusals, a motion has been launched
  split at h
  · exact absurd h (by simp)
  next hover =>
  rw [if_neg hover]
  split at h
  · exact absurd h (by simp)
  next ref hpiece =>
  split at h
  · exact absurd h (by simp)
  next hcolor =>
  dsimp only at h ⊢
  rw [if_neg hcolor]
  split at h
  · next hmoved =>
    rw [if_pos hmoved]
    dsimp only
    unfold GameEngine.handleMoveRequest at hmoved ⊢
    split at hmoved
    · exact absurd hmoved (by simp)
    · split at hmoved
      · next hlegal =>
        rw [if_pos hlegal]
        rfl
      · exact absurd hmoved (by simp)
  · exact absurd h (by simp)

/-- Where the move goes: the engine of the user's room, for the user's colour. -/
def moveTarget (s : Server) (userId : UserId) : Option (RoomId × Color × GameEngine) :=
  (s.userRoom.get? userId).bind fun roomId =>
    ((memberRole s roomId userId).bind colorOf).bind fun color =>
      (s.engines.get? roomId).map fun engine => (roomId, color, engine)

/-- The move is rejected: there is no engine to go to, or the engine does not accept it. -/
def MoveRefused (s : Server) (userId : UserId) (startPos endPos : Position) : Prop :=
  ∀ roomId color engine, moveTarget s userId = some (roomId, color, engine) →
    (engine.tryPlayerMove color startPos endPos).2.1 = false

/-- `move`. -/
theorem handleCommand_move (userId : UserId) (startPos endPos : Position) :
    wp (handleCommand cfg env (.move userId startPos endPos))
      (fun reply t => reply.ok = false ∧ MoveRefused s userId startPos endPos ∧
          t = { s with engines := t.engines } ∧ (∀ r, t.engines.get? r = s.engines.get? r) ∨
        reply.ok = true ∧ ∃ roomId color engine,
          moveTarget s userId = some (roomId, color, engine) ∧
          (engine.tryPlayerMove color startPos endPos).2.1 = true ∧
          t = s.setEngine roomId (engine.tryPlayerMove color startPos endPos).1)
      (fun _ _ => False) s := by
  unfold handleCommand GameService.submitMove
  simp only [wp_bind, wp_get]
  -- each look-up that fails is a refusal without a target: room, colour, engine
  cases hroom : roomIdForUser s userId with
  | none =>
    refine Or.inl ⟨rfl, fun roomId color engine h => ?_, rfl, fun _ => rfl⟩
    unfold moveTarget at h
    rw [show s.userRoom.get? userId = none from hroom] at h
    cases h
  | some roomId =>
    dsimp only
    cases hcolor : (memberRole s roomId userId).bind colorOf with
    | none =>
      refine Or.inl ⟨rfl, fun r color engine h => ?_, rfl, fun _ => rfl⟩
      unfold moveTarget at h
      rw [show s.userRoom.get? userId = some roomId from hroom, Option.bind_some, hcolor] at h
      cases h
    | some color =>
      dsimp only
      have htarget : moveTarget s userId =
          (s.engines.get? roomId).map fun engine => (roomId, color, engine) := by
        unfold moveTarget
        rw [show s.userRoom.get? userId = some roomId from hroom, Option.bind_some, hcolor]
        rfl
      rw [wp_bind]
      unfold GameService.handleMove
      rw [wp_bind, wp_get]
      cases hengine : s.engines.get? roomId with
      | none =>
        refine Or.inl ⟨rfl, fun r color' engine h => ?_, rfl, fun _ => rfl⟩
        rw [htarget, hengine] at h
        cases h
      | some engine =>
        have htarget' : moveTarget s userId = some (roomId, color, engine) := by
          rw [htarget, hengine]
          rfl
        -- the engine decides
        simp only [wp_bind, wp_modify, wp_pure]
        cases hok : (engine.tryPlayerMove color startPos endPos).2.1 with
        | true =>
          rw [if_pos rfl, wp_bind, wp_get]
          exact Or.inr ⟨rfl, roomId, color, engine, htarget', hok, rfl⟩
        | false =>
          -- the engine that is put back is the one that was there
          rw [if_neg (by simp)]
          refine Or.inl ⟨rfl, fun r color' engine' h => ?_, rfl, fun r => ?_⟩
          · rw [htarget'] at h
            cases h
            exact hok
          · rw [tryPlayerMove_refused hok, Server.get?_setEngine]
            split
            · next hr => rw [hr, hengine]
            · rfl

/-! ### Refusals -/

/-- The rooms with their members, and the engines, are the same. -/
structure SameGames (s t : Server) : Prop where
  rooms : ∀ roomId, t.rooms.get? roomId = s.rooms.get? roomId
  engines : ∀ roomId, t.engines.get? roomId = s.engines.get? roomId

/-- The commands that play: they open a room, join one or move a piece. -/
def GameCommand.Plays : GameCommand → Prop
  | .roomCreate _ | .roomJoin _ _ | .move _ _ _ => True
  | _ => False

/-- The shard rejects the command: what the services check before they write. -/
def Refuses (s : Server) : GameCommand → Prop
  | .roomCreate userId => s.userRoom.contains userId = true
  | .roomJoin userId roomId =>
    s.rooms.get? roomId = none ∨ s.userRoom.contains userId = true
  | .move userId startPos endPos => MoveRefused s userId startPos endPos
  | _ => False

theorem SameGames.refl (s : Server) : SameGames s s := ⟨fun _ => rfl, fun _ => rfl⟩

/-- A user who was in no room is a member of one: that room has changed. -/
theorem RoomInv.not_sameGames {t : Server} {userId : UserId} {roomId : RoomId} {role : PlayerRole}
    (hinv : RoomInv s) (hfree : s.userRoom.get? userId = none)
    (hmember : memberRole t roomId userId = some role) : ¬ SameGames s t := by
  intro hsame
  unfold memberRole at hmember
  rw [hsame.rooms] at hmember
  obtain ⟨member, hget, -⟩ := Option.map_eq_some_iff.mp hmember
  obtain ⟨room, hroom, hmember⟩ := Option.bind_eq_some_iff.mp hget
  exact absurd ((hinv.mapped hroom hmember).symm.trans hfree) (by simp)

/-- The role that a write of the room service has given. -/
theorem Opens.member {a : Action} {roomId r : RoomId} {s u t : Server} {userId : UserId}
    {role : PlayerRole} (h : Opens a roomId s u) (hrooms : t.rooms = u.rooms)
    (hrole : (a.seats s.seatMap).role r userId = some role) : memberRole t r userId = some role := by
  have hu : memberRole u r userId = some role := by
    rw [← Server.role_seatMap, h.seatMap]
    exact hrole
  unfold memberRole at hu ⊢
  rw [hrooms]
  exact hu

theorem role_joined {σ : SeatMap} {roomId : RoomId} {roles : UserId → Option PlayerRole}
    (hroles : σ.members roomId = some roles) (userId : UserId) (role : PlayerRole) :
    (σ.joined roomId userId role).role roomId userId = some role := by
  rw [SeatMap.role_joined, if_pos ⟨rfl, rfl⟩, hroles, Option.map_some]

/-- **A command that plays is refused with nothing changed, or changes something.** -/
theorem handleCommand_plays (hshard : cfg.deployment = .gameShard shardId) (hinv : RoomInv s)
    {command : GameCommand} (hplays : command.Plays) :
    wp (handleCommand cfg env command)
      (fun reply t => reply.ok = false ∧ Refuses s command ∧ SameGames s t ∨
        reply.ok = true ∧ ¬ Refuses s command ∧ ¬ SameGames s t)
      (fun _ t => ¬ Refuses s command ∧ ¬ SameGames s t) s := by
  cases command with
  | roomCreate userId =>
    -- once the room is open, the creator is a member of it
    have hchanged : ∀ {u t : Server},
        Opens (.openRoom (env.tokenHex userId) userId) (env.tokenHex userId) s u →
        t.rooms = u.rooms → ¬ Refuses s (.roomCreate userId) ∧ ¬ SameGames s t := by
      intro u t hu hrooms
      have hfree : s.userRoom.get? userId = none := hu.enabled
      have hmember : memberRole t (env.tokenHex userId) userId = some .white := by
        refine hu.member hrooms ?_
        change (s.seatMap.opened _ _).role _ _ = _
        rw [SeatMap.role_opened, if_pos rfl, roles_openedRoom, if_pos rfl]
      refine ⟨fun h => ?_, hinv.not_sameGames hfree hmember⟩
      exact absurd h (by simp [Refuses, Dict.contains, hfree])
    refine wp_mono (handleCommand_roomCreate hshard userId) ?_ fun _ t ht => hchanged ht.opens rfl
    -- a creator who is a member now was mapped to no room before
    rintro reply t (⟨hok, hmapped, rfl⟩ | ⟨hok, u, hu, rfl⟩)
    · exact Or.inl ⟨hok, hmapped, .refl t⟩
    · exact Or.inr ⟨hok, hchanged hu.opens rfl⟩
  | roomJoin userId roomId =>
    -- and so is who has joined
    have hchanged : ∀ {room : Room} {u t : Server}, s.rooms.get? roomId = some room →
        Opens (.join roomId userId (nextRole room)) roomId s u → t.rooms = u.rooms →
        ¬ Refuses s (.roomJoin userId roomId) ∧ ¬ SameGames s t := by
      intro room u t hroom hu hrooms
      have hfree : s.userRoom.get? userId = none := hu.enabled.1
      have hroles : s.seatMap.members roomId = some room.roles :=
        congrArg (Option.map Room.roles) hroom
      have hmember : memberRole t roomId userId = some (nextRole room) :=
        hu.member hrooms (role_joined hroles userId (nextRole room))
      refine ⟨fun h => ?_, hinv.not_sameGames hfree hmember⟩
      exact absurd h (by simp [Refuses, Dict.contains, hfree, hroom])
    refine wp_mono (handleCommand_roomJoin hshard userId roomId) ?_ ?_
    · rintro reply t (⟨hok, rfl, hreason⟩ | ⟨hok, room, u, hroom, hu, -, rfl⟩)
      · exact Or.inl ⟨hok, hreason, .refl t⟩
      · exact Or.inr ⟨hok, hchanged hroom hu rfl⟩
    · rintro _ t ⟨room, hroom, ht, -⟩
      exact hchanged hroom ht rfl
  | move userId startPos endPos =>
    refine wp_mono (handleCommand_move userId startPos endPos) ?_ fun _ _ h => h.elim
    rintro reply t (⟨hok, hrefused, ht, hengines⟩ | ⟨hok, roomId, color, engine, htarget, hmoved, rfl⟩)
    · -- a refusal puts the same engine back
      refine Or.inl ⟨hok, hrefused, fun r => ?_, hengines⟩
      rw [ht]
    · refine Or.inr ⟨hok, fun h => ?_, fun h => ?_⟩
      · exact absurd ((h roomId color engine htarget).symm.trans hmoved) (by simp)
      · -- the engine counts the motion, so it is not the one before
        have hengine : s.engines.get? roomId = some engine := by
          unfold moveTarget at htarget
          obtain ⟨r, -, htarget⟩ := Option.bind_eq_some_iff.mp htarget
          obtain ⟨c, -, htarget⟩ := Option.bind_eq_some_iff.mp htarget
          obtain ⟨e, he, heq⟩ := Option.map_eq_some_iff.mp htarget
          cases heq
          exact he
        have hsame := h.engines roomId
        rw [Server.get?_setEngine, if_pos rfl, hengine] at hsame
        have hcount := tryPlayerMove_accepted hmoved
        rw [Option.some.inj hsame] at hcount
        omega
  -- the other commands do not play
  | getState roomId => exact hplays.elim
  | playerDisconnected userId => exact hplays.elim
  | playerReconnect userId => exact hplays.elim

/-! ### Seats -/

/-- The users are written into the room, and then the engine of the room cannot be built. -/
def Breaks (s : Server) (env : Env) : Event → Prop
  | .createRoom creator => BoardFails env s (env.tokenHex creator)
  | .joinRoom _ roomId =>
    ∃ room, s.rooms.get? roomId = some room ∧ StartsGame room ∧ BoardFails env s roomId
  | .createMatch roomId _ _ => BoardFails env s roomId
  | _ => False

variable {r : RoomId} {userId : UserId} {role : PlayerRole}

/-- Who is seated by an action is seated after it, whatever comes after. -/
theorem Opens.seated {a : Action} {roomId : RoomId} {u t : Server} (h : Opens a roomId s u)
    (hrooms : t.rooms = u.rooms) (hengines : t.engines = u.engines)
    (hrole : (a.seats s.seatMap).role r userId = some role) (hrunning : Running s r) :
    Seated t r userId role := by
  refine ⟨h.member hrooms hrole, ?_⟩
  have hu := h.running hrunning
  unfold Running at hu ⊢
  rw [hengines]
  exact hu

/-- **Whom a command seats** is seated after it, unless it has ended the process. -/
theorem handleCommand_seats (hshard : cfg.deployment = .gameShard shardId) {command : GameCommand}
    {event : Event} (hevent : command.event? = some event) (hseats : Seats s env r userId role event)
    (hrunning : Running s r) :
    wp (handleCommand cfg env command)
      (fun _ t => ¬ Breaks s env event ∧ Seated t r userId role)
      (fun _ _ => Breaks s env event) s := by
  cases command with
  | roomCreate creator =>
    cases hevent
    obtain ⟨rfl, rfl, rfl, hfree⟩ := hseats
    refine wp_mono (handleCommand_roomCreate hshard userId) ?_ fun _ t ht => ht.board
    rintro reply t (⟨-, hmapped, -⟩ | ⟨-, u, hu, rfl⟩)
    · -- the user is in no room, so this is no refusal
      exact absurd hmapped (by simp [Dict.contains, hfree])
    · refine ⟨hu.board, hu.opens.seated rfl rfl ?_ hrunning⟩
      change (s.seatMap.opened _ _).role _ _ = _
      rw [SeatMap.role_opened, if_pos rfl, roles_openedRoom, if_pos rfl]
  | roomJoin user room =>
    cases hevent
    obtain ⟨rfl, rfl, hfree, room, hroom, rfl⟩ := hseats
    refine wp_mono (handleCommand_roomJoin hshard userId r) ?_ ?_
    · rintro reply t (⟨-, -, hnone | hmapped⟩ | ⟨-, room', u, hroom', hu, hloads, rfl⟩)
      · -- the room exists and the user is in none
        exact absurd (hroom.symm.trans hnone) (by simp)
      · exact absurd hmapped (by simp [Dict.contains, hfree])
      · obtain rfl := Option.some.inj (hroom.symm.trans hroom')
        have hroles : s.seatMap.members r = some room.roles :=
          congrArg (Option.map Room.roles) hroom
        refine ⟨?_, hu.seated rfl rfl (role_joined hroles userId _) hrunning⟩
        -- a join that has been answered has read the board
        rintro ⟨room', hroom', hstarts, hfails⟩
        obtain rfl := Option.some.inj (hroom.symm.trans hroom')
        exact hloads hstarts hfails
    · rintro _ t ⟨room', hroom', -, hstarts, hfails⟩
      exact ⟨room', hroom', hstarts, hfails⟩
  -- no other command seats anybody
  | move | playerDisconnected | playerReconnect =>
    cases hevent
    exact hseats.elim
  | getState => cases hevent

/-- The same for a match. -/
theorem onCreateMatch_seats (hshard : cfg.deployment = .gameShard shardId) {roomId : RoomId}
    {whiteId blackId : UserId}
    (hseats : Seats s env.overRedis r userId role (.createMatch roomId whiteId blackId))
    (hrunning : Running s r) :
    wp (onCreateMatch cfg env.overRedis roomId whiteId blackId)
      (fun _ t => ¬ Breaks s env.overRedis (.createMatch roomId whiteId blackId) ∧
        Seated t r userId role)
      (fun _ _ => Breaks s env.overRedis (.createMatch roomId whiteId blackId)) s := by
  obtain ⟨rfl, hrole, hwhite, hblack, hnew⟩ := hseats
  refine wp_mono (onCreateMatch_spec hshard r whiteId blackId) ?_ fun _ t ht => ht.board
  rintro _ t (⟨-, hrejected⟩ | ⟨u, hu, ht, -⟩)
  · -- the checks that the seat comes from are the three rejections
    exact absurd hrejected (by simp [MatchRejected, Dict.contains, hwhite, hblack, hnew])
  · have hrooms : t.rooms = u.rooms := by rw [ht]
    have hengines : t.engines = u.engines := by rw [ht]
    refine ⟨hu.board, hu.opens.seated hrooms hengines ?_ hrunning⟩
    change (s.seatMap.opened _ _).role _ _ = _
    rw [SeatMap.role_opened, if_pos rfl, roles_matchedRoom]
    -- white, or black when the pair is one user twice
    obtain ⟨rfl, rfl⟩ | ⟨rfl, hne, rfl⟩ := hrole
    · rw [if_pos rfl]
    · rw [if_neg hne, if_pos rfl]

end Specs

end KungFuChess
