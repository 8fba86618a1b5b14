import KungFuChess.Transport.MessageRouter

/-!
# Only the owner of a colour can move it

What a frame does to the engine of a room, from the handler down to the engine. The router
hands `submit_move` the user the socket is bound to; the service looks up the room of that
user and the role in it, refuses a viewer, and turns the role into a colour; the adapter
refuses a piece of another colour. So a motion starts, or an engine changes at all, only
through a valid `move` message of a player of the piece's colour (`OwnMove`). Every other frame
is a quiet event: an engine that is there stays as it is, and an engine that is created for a
room without one has no motion.

Nothing is assumed of the state the frame meets, so the result holds in particular in every
state that logins, joins, reconnects and departures lead to.
-/

namespace KungFuChess

open Effect RoomService

/-- The role that may move the pieces of a colour. -/
def Color.playerRole : Color → PlayerRole
  | .w => .white
  | .b => .black

/-- A role that has a colour is the role of that colour. -/
theorem GameService.playerRole_of_colorOf {role : PlayerRole} {color : Color}
    (h : GameService.colorOf role = some color) : role = color.playerRole := by
  cases role with
  | white => exact Option.some.inj h ▸ rfl
  | black => exact Option.some.inj h ▸ rfl
  | viewer => cases h

/-! ### A move of the adapter -/

namespace GameEngine

variable {e : GameEngine} {color : Color} {startPos endPos : Position}

/-- What `try_player_move` does if it does anything: the piece on the start square has the
colour of the player, and no other motion is started than one of this piece. -/
structure MovedOwn (e moved : GameEngine) (color : Color) (startPos : Position) (ref : PieceRef) :
    Prop where
  onStart : e.board.getPiece startPos = some ref
  own : (e.piece ref).color = color
  color_eq : ∀ ref', (moved.piece ref').color = (e.piece ref').color
  motions : ∀ motion ∈ moved.arbiter.activeMotions,
    motion ∈ e.arbiter.activeMotions ∨ motion.piece = ref ∧ motion.startPos = startPos

/-- A start of a motion adds that motion at most. -/
theorem motions_startMotion {arbiter : RealTimeArbiter} (board : Board) {ref : PieceRef}
    {durationMs : Int} {motion : Motion}
    (h : motion ∈ (arbiter.startMotion board ref startPos endPos durationMs).1.activeMotions) :
    motion ∈ arbiter.activeMotions ∨ motion.piece = ref ∧ motion.startPos = startPos := by
  have hmem : motion ∈ arbiter.activeMotions ++
      [arbiter.newMotion ref startPos endPos durationMs] := by
    unfold RealTimeArbiter.startMotion RealTimeArbiter.resolveCommonRouteCollision at h
    dsimp only at h
    split at h
    · exact List.mem_of_mem_erase h
    · -- the newcomer may be dropped at once, on a common route
      exact h
  rcases List.mem_append.mp hmem with hold | hnew
  · exact Or.inl hold
  · rw [List.mem_singleton.mp hnew]
    exact Or.inr ⟨rfl, rfl⟩

/-- **A move of the adapter** changes nothing, or starts a motion of the colour's own piece. -/
theorem tryPlayerMove_cases (e : GameEngine) (color : Color) (startPos endPos : Position) :
    (e.tryPlayerMove color startPos endPos).1 = e ∨
      ∃ ref, e.MovedOwn (e.tryPlayerMove color startPos endPos).1 color startPos ref := by
  unfold tryPlayerMove
  -- the game is over, there is no piece, the piece is of the other colour
  split
  · exact Or.inl rfl
  split
  · exact Or.inl rfl
  next ref hpiece =>
  split
  · exact Or.inl rfl
  next hcolor =>
  have hown : (e.piece ref).color = color := not_not.mp hcolor
  -- the answer of the engine does not change what it has done
  have hfst : ∀ moved : GameEngine × Bool,
      (if moved.2 then (moved.1, true, "ok") else (moved.1, false, "illegal move")).1 = moved.1 := by
    intro moved
    split <;> rfl
  dsimp only
  rw [hfst]
  unfold handleMoveRequest
  -- the piece may not be launched, or the move is not legal
  split
  · exact Or.inl rfl
  next ref' hlaunch =>
  split
  · have hstart : e.board.getPiece startPos = some ref' := by
      unfold launchable at hlaunch
      split at hlaunch
      · cases hlaunch
      · exact (Option.filter_eq_some_iff.mp hlaunch).1
    obtain rfl := Option.some.inj (hpiece.symm.trans hstart)
    exact Or.inr ⟨ref, hpiece, hown, fun ref' => Board.color_setStatus _ _ _ _,
      fun _ h => motions_startMotion e.board h⟩
  · exact Or.inl rfl

end GameEngine

/-! ### Events and engines -/

/-- The active motions of the engine of a room. -/
def Server.motionsOf (s : Server) (roomId : RoomId) : List Motion :=
  ((s.engines.get? roomId).map fun engine => engine.arbiter.activeMotions).getD []

/-- The engine of the room is as before, or it is new and has no motion. -/
def Server.EngineKept (s t : Server) (roomId : RoomId) : Prop :=
  t.engines.get? roomId = s.engines.get? roomId ∨
    s.engines.get? roomId = none ∧
      ∃ engine, t.engines.get? roomId = some engine ∧ engine.arbiter.activeMotions = []

/-- Engines that are kept twice are kept. -/
theorem Server.EngineKept.trans {s t u : Server} {roomId : RoomId} (h : s.EngineKept t roomId)
    (h' : t.EngineKept u roomId) : s.EngineKept u roomId := by
  rcases h with hsame | ⟨hnone, engine, hnew, hidle⟩
  · unfold Server.EngineKept
    rw [← hsame]
    exact h'
  · rcases h' with hsame' | ⟨hnone', -⟩
    · exact Or.inr ⟨hnone, engine, hsame'.trans hnew, hidle⟩
    · exact absurd (hnew.symm.trans hnone') nofun

/-- An engine that is there is there afterwards. -/
theorem Server.EngineKept.engine {s t : Server} {roomId : RoomId} {engine : GameEngine}
    (h : s.EngineKept t roomId) (hengine : s.engines.get? roomId = some engine) :
    t.engines.get? roomId = some engine := by
  rcases h with hsame | ⟨hnone, -⟩
  · exact hsame.trans hengine
  · exact absurd (hengine.symm.trans hnone) nofun

/-- No motion is new. -/
theorem Server.EngineKept.motionsOf {s t : Server} {roomId : RoomId} {motion : Motion}
    (h : s.EngineKept t roomId) (hmotion : motion ∈ t.motionsOf roomId) :
    motion ∈ s.motionsOf roomId := by
  unfold Server.motionsOf at hmotion ⊢
  rcases h with hsame | ⟨-, engine, hnew, hidle⟩
  · rwa [← hsame]
  · rw [hnew, Option.map_some, Option.getD_some, hidle] at hmotion
    cases hmotion

/-- An action that is no call of an engine. -/
theorem Action.engineKept {a : Action} {s : Server} (henabled : a.Enabled s)
    (hcall : ∀ roomId before call, a ≠ .engine roomId before call) (roomId : RoomId) :
    s.EngineKept (a.apply s) roomId := by
  cases a with
  | createEngine roomId' board =>
    by_cases hroom : roomId = roomId'
    · subst hroom
      exact Or.inr ⟨henabled.1, GameEngine.new board, Dict.get?_set_self _ _ _, rfl⟩
    · exact Or.inl (Dict.get?_set_of_ne _ _ hroom)
  | engine roomId' before call => exact absurd rfl (hcall roomId' before call)
  | aside state =>
    refine Or.inl ?_
    change state.engines.get? roomId = s.engines.get? roomId
    rw [show state = _ from henabled]
  | _ => exact Or.inl rfl

/-- **A quiet event keeps every engine.** -/
theorem Event.Quiet.engineKept {cfg : Config} {env : Env} {event : Event} (h : event.Quiet)
    (s : Server) (roomId : RoomId) : s.EngineKept (s.step cfg (env, event)) roomId := by
  refine (s.step_acts cfg (env, event)).invariant (P := fun t => s.EngineKept t roomId) ?_
    (Or.inl rfl)
  intro a t hallowed henabled ht
  refine ht.trans (a.engineKept henabled ?_ roomId)
  rintro roomId' before call rfl
  -- either the event is not quiet, or it does not call the engine
  cases call with
  | move color startPos endPos =>
    cases event <;> first | exact False.elim h | exact False.elim hallowed
  | tick =>
    obtain rfl : event = .tickAll := hallowed
    exact h
  | forfeit winner =>
    cases event <;> first | exact False.elim h | exact False.elim hallowed

/-- What a quiet run leaves of an engine. -/
theorem Server.play_engineKept {cfg : Config} {env : Env} (s : Server) {events : List Event}
    (hquiet : ∀ event ∈ events, event.Quiet) (roomId : RoomId) :
    s.EngineKept (s.play cfg (events.map fun event => (env, event))) roomId := by
  -- by induction on the events
  induction events generalizing s with
  | nil => exact Or.inl rfl
  | cons event events ih =>
    have hhead : s.EngineKept (s.step cfg (env, event)) roomId :=
      (hquiet event List.mem_cons_self).engineKept s roomId
    exact hhead.trans (ih _ fun event' hmem => hquiet event' (List.mem_cons_of_mem _ hmem))

/-- The engine of the user's room has been asked to play the move in the colour of the user's
role. -/
def Server.MovedBy (s t : Server) (userId : UserId) (startPos endPos : Position) : Prop :=
  ∃ roomId color engine, roomIdForUser s userId = some roomId ∧
    memberRole s roomId userId = some color.playerRole ∧
    s.engines.get? roomId = some engine ∧
    t = s.setEngine roomId (engine.tryPlayerMove color startPos endPos).1

/-- **What `submit_move` does to a server**: nothing, or a move for the user's own colour. -/
theorem GameService.submitMove_cases (userId : UserId) (startPos endPos : Position) (s : Server) :
    after (GameService.submitMove userId startPos endPos) s = s ∨
      s.MovedBy (after (GameService.submitMove userId startPos endPos) s) userId startPos
        endPos := by
  refine wp_iff_after (P := fun t => t = s ∨ s.MovedBy t userId startPos endPos).mp ?_
  unfold GameService.submitMove
  rw [wp_bind, wp_get]
  -- the user is in no room, or only looks on
  split
  · exact Or.inl rfl
  next roomId hroom =>
  split
  · exact Or.inl rfl
  next color hcolor =>
  obtain ⟨role, hrole, hcolorOf⟩ := Option.bind_eq_some_iff.mp hcolor
  rw [GameService.playerRole_of_colorOf hcolorOf] at hrole
  unfold GameService.handleMove
  rw [wp_bind, wp_bind, wp_get]
  cases hengine : s.engines.get? roomId with
  -- the room has no engine
  | none => exact Or.inl rfl
  | some engine =>
    have hmoved : s.MovedBy (s.setEngine roomId (engine.tryPlayerMove color startPos endPos).1)
        userId startPos endPos := ⟨roomId, color, engine, hroom, hrole, hengine, rfl⟩
    -- the engine is written back whether it has accepted the move or not
    dsimp only
    rw [wp_bind, wp_modify, wp_pure]
    split
    · rw [wp_bind, wp_get]
      exact Or.inr hmoved
    · exact Or.inr hmoved

/-! ### Frames and engines -/

/-- The frame is a valid `move` message of a player of the colour in the room, from a square on
which a piece of that colour stands. -/
structure OwnMove (renv : RouterEnv) (p : ServerProcess) (ws : WebSocket) (raw : String)
    (roomId : RoomId) (startPos : Position) (color : Color) : Prop where
  valid : ∃ data endPos, Protocol.decode renv.loads raw = .ok data ∧ data.type = "move" ∧
    Protocol.parseMove data = .ok (startPos, endPos)
  player : ∃ userId, p.registry.userOf ws = some userId ∧
    roomIdForUser p.server userId = some roomId ∧
    memberRole p.server roomId userId = some color.playerRole
  own : ∃ engine ref, p.server.engines.get? roomId = some engine ∧
    engine.board.getPiece startPos = some ref ∧ (engine.piece ref).color = color

/-- The socket is bound to nobody, or to a user who is not a player of the room. -/
def Stranger (p : ServerProcess) (ws : WebSocket) (roomId : RoomId) : Prop :=
  ∀ userId, p.registry.userOf ws = some userId → roomIdForUser p.server userId = some roomId →
    ∀ color : Color, memberRole p.server roomId userId ≠ some color.playerRole

/-- **Only the owner of a colour moves it.** What a frame that leads from `p` to `q` does to the
engine of the room. -/
structure OwnerOnly (renv : RouterEnv) (p q : ServerProcess) (ws : WebSocket) (raw : String)
    (roomId : RoomId) : Prop where
  started : ∀ motion ∈ q.server.motionsOf roomId, motion ∉ p.server.motionsOf roomId →
    ∃ engine, q.server.engines.get? roomId = some engine ∧
      OwnMove renv p ws raw roomId motion.startPos (engine.piece motion.piece).color
  changed : ∀ engine, p.server.engines.get? roomId = some engine →
    q.server.engines.get? roomId ≠ some engine →
      ∃ startPos color, OwnMove renv p ws raw roomId startPos color
  stranger : Stranger p ws roomId → ∀ engine, p.server.engines.get? roomId = some engine →
    q.server.engines.get? roomId = some engine

section OwnerOnly

variable {renv : RouterEnv} {p q : ServerProcess} {ws : WebSocket} {raw : String}
  {roomId : RoomId}

/-- The last part follows: a stranger sends no move of an owner. -/
theorem ownerOnly_of_started
    (hstarted : ∀ motion ∈ q.server.motionsOf roomId, motion ∉ p.server.motionsOf roomId →
      ∃ engine, q.server.engines.get? roomId = some engine ∧
        OwnMove renv p ws raw roomId motion.startPos (engine.piece motion.piece).color)
    (hchanged : ∀ engine, p.server.engines.get? roomId = some engine →
      q.server.engines.get? roomId ≠ some engine →
        ∃ startPos color, OwnMove renv p ws raw roomId startPos color) :
    OwnerOnly renv p q ws raw roomId where
  started := hstarted
  changed := hchanged
  stranger hstranger engine hengine := by
    by_contra hchange
    obtain ⟨startPos, color, hmove⟩ := hchanged engine hengine hchange
    obtain ⟨userId, huser, hroom, hrole⟩ := hmove.player
    exact hstranger userId huser hroom color hrole

theorem ownerOnly_of_engineKept (h : p.server.EngineKept q.server roomId) :
    OwnerOnly renv p q ws raw roomId :=
  ownerOnly_of_started (fun _ hnew hold => absurd (h.motionsOf hnew) hold)
    (fun _ hengine hchange => absurd (h.engine hengine) hchange)

/-- **Whatever a frame does to an engine is a move of the owner.** -/
theorem handleRaw_ownerOnly {cfg : Config} (hcfg : cfg.deployment = .inProcess)
    (renv : RouterEnv) (p : ServerProcess) (ws : WebSocket) (raw : String) (roomId : RoomId) :
    OwnerOnly renv p (after (MessageRouter.handleRaw cfg renv ws raw) p) ws raw roomId := by
  cases MessageRouter.handleRaw_handled hcfg ws raw p with
  | quiet events hquiet hserver _ =>
    refine ownerOnly_of_engineKept ?_
    rw [hserver]
    exact p.server.play_engineKept hquiet roomId
  -- the frame is a move, and the engine of the user's room has been asked
  | move data userId startPos endPos hdecode htype hparse huser hserver _ =>
    have hafter := hserver.trans (after_bind_pure _ _)
    rcases GameService.submitMove_cases userId startPos endPos p.server with hidle | hmoved
    · exact ownerOnly_of_engineKept (Or.inl (by rw [hafter, hidle]))
    obtain ⟨r, color, engine, hroom, hrole, hengine, hset⟩ := hmoved
    rw [hset] at hafter
    -- the room of the user, or another one
    by_cases hr : roomId = r
    · subst hr
      have hengine' := (congrArg (fun s => s.engines.get? roomId) hafter).trans
        (Dict.get?_set_self _ _ _)
      -- the adapter has left the engine alone, or the piece on the start square is the player's
      rcases engine.tryPlayerMove_cases color startPos endPos with hsame | ⟨ref, hown⟩
      · rw [hsame] at hengine'
        exact ownerOnly_of_engineKept (Or.inl (hengine'.trans hengine.symm))
      have hmove : OwnMove renv p ws raw roomId startPos color :=
        ⟨⟨data, endPos, hdecode, htype, hparse⟩, ⟨userId, huser, hroom, hrole⟩,
          ⟨engine, ref, hengine, hown.onStart, hown.own⟩⟩
      refine ownerOnly_of_started (fun motion hnew hold => ⟨_, hengine', ?_⟩)
        (fun _ _ _ => ⟨startPos, color, hmove⟩)
      unfold Server.motionsOf at hnew hold
      rw [hengine', Option.map_some, Option.getD_some] at hnew
      rw [hengine, Option.map_some, Option.getD_some] at hold
      obtain ⟨rfl, rfl⟩ := (hown.motions motion hnew).resolve_left hold
      rwa [hown.color_eq, hown.own]
    · refine ownerOnly_of_engineKept (Or.inl ?_)
      rw [hafter]
      exact Dict.get?_set_of_ne _ _ hr

/-- The frame of the move of the rook. -/
def rookMove : RouterEnv where
  env := Small.env ["wR . bK"]
  loads _ := .ok (.object [("type", .string "move"), ("start", .array [.int 0, .int 0]),
    ("end", .array [.int 0, .int 1])])

/-- Alice plays White in a room of her own, and her socket is the only one. -/
def aliceOnline : ServerProcess where
  server := Small.start.play Small.config [(Small.env ["wR . bK"], .createRoom Small.alice)]
  registry := (({} : ConnectionRegistry).add).bindUser 0 Small.alice "Alice" 1200 "token"

/-- Alice's move starts a motion, and it is hers. -/
theorem handleRaw_ownerOnly_rook :
    OwnerOnly rookMove aliceOnline
        (after (MessageRouter.handleRaw Small.config rookMove 0 "move") aliceOnline) 0 "move"
        Small.room ∧
      (aliceOnline.server.motionsOf Small.room).length = 0 ∧
      ((after (MessageRouter.handleRaw Small.config rookMove 0 "move")
        aliceOnline).server.motionsOf Small.room).length = 1 := by
  refine ⟨handleRaw_ownerOnly rfl _ _ _ _ _, ?_, ?_⟩
  · decide +kernel
  · decide +kernel

end OwnerOnly

end KungFuChess
