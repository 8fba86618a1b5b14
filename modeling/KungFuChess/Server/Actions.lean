import Mathlib.Logic.Relation
import KungFuChess.Library.Run
import KungFuChess.Server.Outcomes

/-!
# The actions of the server

Every event of the server is a program that reads, checks, calls out and writes. Whatever
it does and wherever an exception cuts it, what it has written is a sequence of `Action`s,
each of them enabled in the state it was applied to (`Event.acts`). An action carries
everything the code has checked before the write (`Action.Enabled`), so an invariant of
the server is proved over actions, one case for each, and holds of every run.

`Does` is the judgement for programs; it is closed under the ways to build a program.
-/

namespace KungFuChess

open Effect RoomService GameService

/-- What the server does to an engine. -/
inductive EngineCall where
  | move (color : Color) (startPos endPos : Position)
  | tick
  | forfeit (winner : Color)
deriving DecidableEq, Repr

/-- What the call does to the engine. -/
def EngineCall.apply (e : GameEngine) : EngineCall → GameEngine
  | .move color startPos endPos => (e.tryPlayerMove color startPos endPos).1
  | .tick => e.updateGameClock tickMs
  | .forfeit winner => e.forceForfeit winner

/-- An engine whose game has ended is left as it is. -/
theorem EngineCall.apply_of_gameOver {e : GameEngine} (hover : e.gameOver = true)
    (call : EngineCall) : call.apply e = e := by
  cases call with
  | move color startPos endPos =>
    change (e.tryPlayerMove color startPos endPos).1 = e
    rw [GameEngine.tryPlayerMove, if_pos hover]
  | tick => exact GameEngine.call_of_gameOver hover (.tick tickMs)
  | forfeit winner =>
    change e.forceForfeit winner = e
    rw [GameEngine.forceForfeit, if_pos hover]

/-- The writes of the server. -/
inductive Action where
  | openRoom (roomId : RoomId) (creator : UserId)
  | openMatchedRoom (roomId : RoomId) (userA userB : UserId)
  | createEngine (roomId : RoomId) (board : Board)
  | startGame (roomId : RoomId)
  | join (roomId : RoomId) (userId : UserId) (role : PlayerRole)
  | leave (roomId : RoomId) (userId : UserId)
  | connection (roomId : RoomId) (userId : UserId) (f : RoomMember → RoomMember)
  | engine (roomId : RoomId) (before : GameEngine) (call : EngineCall)
  | setElo (roomId : RoomId) (userId : UserId) (elo : Int) (raised : Bool)
  | markElo (roomId : RoomId)
  | register (user : User)
  | setQueue (queue : List QueueEntry)
  /-- A write to the history, the allocator, the countdowns or the outbox. -/
  | aside (state : Server)

/-- Both seats of the room are filled, its engine has ended with a winner, and the result
has not been applied. -/
structure Applicable (s : Server) (roomId : RoomId) (whiteId blackId : UserId) : Prop where
  ended : ∃ engine, s.engines.get? roomId = some engine ∧ engine.gameOver = true ∧
    engine.winner.isSome
  players : getRoomPlayers s roomId = (some whiteId, some blackId)
  pending : isEloUpdated s roomId = false

namespace Action

/-- The write itself. -/
def apply (s : Server) : Action → Server
  | .openRoom roomId creator =>
    { s with
      rooms := s.rooms.set roomId (openedRoom roomId creator)
      userRoom := s.userRoom.set creator roomId }
  | .openMatchedRoom roomId userA userB =>
    { s with
      rooms := s.rooms.set roomId (matchedRoom roomId userA userB)
      userRoom := (s.userRoom.set userA roomId).set userB roomId }
  | .createEngine roomId board => s.setEngine roomId (GameEngine.new board)
  | .startGame roomId => s.modifyRoom roomId fun room => { room with gameStarted := true }
  | .join roomId userId role =>
    { s.modifyRoom roomId fun room =>
        { room with members := room.members.set userId { userId := userId, role := role } }
      with userRoom := s.userRoom.set userId roomId }
  | .leave roomId userId =>
    { s.modifyRoom roomId fun room => { room with members := room.members.pop userId }
      with userRoom := s.userRoom.pop userId }
  | .connection roomId userId f => s.modifyMember roomId userId f
  | .engine roomId before call => s.setEngine roomId (call.apply before)
  | .setElo roomId userId elo raised => s.afterSetElo roomId userId elo raised
  | .markElo roomId => s.modifyRoom roomId fun room => { room with eloUpdated := true }
  | .register user => { s with users := s.users.set user.userId user }
  | .setQueue queue => { s with queue := queue }
  | .aside state => state

/-- What the code has checked when it writes. -/
def Enabled (s : Server) : Action → Prop
  | .openRoom _ creator => s.userRoom.get? creator = none
  | .openMatchedRoom roomId userA userB =>
    s.userRoom.get? userA = none ∧ s.userRoom.get? userB = none ∧ s.rooms.get? roomId = none
  | .createEngine roomId board =>
    s.engines.get? roomId = none ∧ (∃ room, s.rooms.get? roomId = some room) ∧
      ∃ lines, BoardParser.parseInitialBoard lines = .ok board
  | .startGame _ => True
  | .join roomId userId role =>
    s.userRoom.get? userId = none ∧ ∃ room, s.rooms.get? roomId = some room ∧ role = nextRole room
  | .leave roomId userId =>
    s.userRoom.get? userId = some roomId ∧ ∃ room, s.rooms.get? roomId = some room ∧
      ∀ member, room.members.get? userId = some member → member.role = .viewer
  | .connection _ _ f => ∀ member, (f member).role = member.role
  | .engine roomId before _ => s.engines.get? roomId = some before
  | .setElo roomId userId _ _ =>
    ∃ whiteId blackId, Applicable s roomId whiteId blackId ∧
      (userId = whiteId ∨ userId = blackId)
  | .markElo roomId => ∃ whiteId blackId, Applicable s roomId whiteId blackId
  | .register user => s.users.get? user.userId = none
  | .setQueue _ => True
  | .aside state =>
    state = { s with
      lastCountdownSent := state.lastCountdownSent, allocator := state.allocator
      games := state.games, outbox := state.outbox }

/-- The actions an event can take. -/
def Of (event : Env × Event) : Action → Prop
  | .openRoom roomId creator => event.2 = .createRoom creator ∧ roomId = event.1.tokenHex creator
  | .openMatchedRoom roomId userA userB =>
    event.2 = .matchmakingTick ∧ roomId = event.1.tokenHex userA ∨
      event.2 = .createMatch roomId userA userB
  | .createEngine _ _ | .startGame _ =>
    match event.2 with
    | .createRoom _ | .joinRoom _ _ | .createMatch _ _ _ | .matchmakingTick => True
    | _ => False
  | .join roomId userId _ => event.2 = .joinRoom userId roomId
  | .leave _ userId => event.2 = .clientDisconnected userId
  | .connection _ _ _ =>
    match event.2 with
    | .reconnect _ | .clientDisconnected _ | .processDisconnectGrace => True
    | _ => False
  | .engine _ _ (.move _ _ _) =>
    match event.2 with
    | .submitMove _ _ _ => True
    | _ => False
  | .engine _ _ .tick => event.2 = .tickAll
  | .engine _ _ (.forfeit _) =>
    match event.2 with
    | .processDisconnectGrace | .forceForfeit _ _ => True
    | _ => False
  | .setElo _ _ _ _ | .markElo _ =>
    match event.2 with
    | .tickAll | .processDisconnectGrace | .forceForfeit _ _ => True
    | _ => False
  | .register _ =>
    match event.2 with
    | .register _ _ => True
    | _ => False
  | .setQueue _ =>
    match event.2 with
    | .play _ | .cancelPlay _ | .clientDisconnected _ | .matchmakingTick => True
    | _ => False
  | .aside _ => True

end Action

/-- The second state is reached from the first by enabled actions of a class. -/
def Acts (allowed : Action → Prop) : Server → Server → Prop :=
  Relation.ReflTransGen fun s t => ∃ a : Action, allowed a ∧ a.Enabled s ∧ a.apply s = t

namespace Acts

variable {allowed : Action → Prop} {s t : Server}

/-- Nothing was written. -/
theorem refl (s : Server) : Acts allowed s s := Relation.ReflTransGen.refl

/-- One write. -/
theorem single {a : Action} (hallowed : allowed a) (henabled : a.Enabled s) :
    Acts allowed s (a.apply s) :=
  Relation.ReflTransGen.single ⟨a, hallowed, henabled, rfl⟩

/-- **The invariant rule.** -/
theorem invariant {P : Server → Prop} (h : Acts allowed s t)
    (hstep : ∀ (a : Action) s, allowed a → a.Enabled s → P s → P (a.apply s)) (hs : P s) : P t := by
  induction h with
  | refl => exact hs
  | tail _ hlast ih =>
    obtain ⟨a, hallowed, henabled, rfl⟩ := hlast
    exact hstep a _ hallowed henabled ih

end Acts

/-- Wherever the program ends, it has taken enabled actions of the class. -/
def Does (allowed : Action → Prop) {α : Type} (x : ServerM α) : Prop :=
  ∀ s₀, Keeps (Acts allowed s₀) x

namespace Does

variable {allowed : Action → Prop} {α β : Type}

/-- It is enough to look at the program from the state it starts in. -/
theorem of_wp {x : ServerM α}
    (h : ∀ s, wp x (fun _ => Acts allowed s) (fun _ => Acts allowed s) s) : Does allowed x :=
  fun _ s hs => wp_mono (h s) (fun _ _ ht => hs.trans ht) (fun _ _ ht => hs.trans ht)

/-- From the state itself. -/
theorem wp {x : ServerM α} (hx : Does allowed x) (s : Server) :
    wp x (fun _ => Acts allowed s) (fun _ => Acts allowed s) s := hx s s (Acts.refl s)

/-- A program that goes on from a state that actions have led to. -/
theorem wp_of_acts {x : ServerM α} (hx : Does allowed x) {s t : Server} (h : Acts allowed s t) :
    Effect.wp x (fun _ => Acts allowed s) (fun _ => Acts allowed s) t := hx s t h

/-- A value writes nothing. -/
theorem pure (a : α) : Does allowed (Pure.pure a) := fun _ => Keeps.pure a

/-- Nor does an exception. -/
theorem throw (exn : Exn) : Does allowed (MonadExcept.throw exn : ServerM α) :=
  fun _ => Keeps.throw exn

/-- What has been done before the next program stays done. -/
theorem bind {x : ServerM β} {f : β → ServerM α} (hx : Does allowed x)
    (hf : ∀ b, Does allowed (f b)) : Does allowed (x >>= f) :=
  fun s₀ => (hx s₀).bind fun b => hf b s₀

/-- The handler goes on from where the exception was raised. -/
theorem tryCatch {x : ServerM α} {handler : Exn → ServerM α} (hx : Does allowed x)
    (hhandler : ∀ exn, Does allowed (handler exn)) : Does allowed (MonadExcept.tryCatch x handler) :=
  fun s₀ => (hx s₀).tryCatch fun exn => hhandler exn s₀

/-- Either branch. -/
theorem ite {c : Prop} [Decidable c] {x y : ServerM α} (hx : Does allowed x)
    (hy : Does allowed y) : Does allowed (if c then x else y) :=
  fun s₀ => (hx s₀).ite (hy s₀)

/-- A loop, from any of its turns. -/
theorem forM {f : β → ServerM PUnit} (hf : ∀ b, Does allowed (f b)) (l : List β) :
    Does allowed (l.forM f) :=
  fun s₀ => Keeps.forM (fun b => hf b s₀) l

/-- A program that begins by reading the state. -/
theorem get_bind {f : Server → ServerM α}
    (hf : ∀ s, Effect.wp (f s) (fun _ => Acts allowed s) (fun _ => Acts allowed s) s) :
    Does allowed (get >>= f) := by
  refine of_wp fun s => ?_
  rw [wp_bind, wp_get]
  exact hf s

/-- A call to the outside writes nothing itself. -/
theorem perform (env : Env) (call : ExternalCall) : Does allowed (KungFuChess.perform env call) :=
  ite (throw _) (pure _)

/-- The queue is replaced. -/
theorem setQueue {f : Server → List QueueEntry} (hallowed : ∀ queue, allowed (.setQueue queue)) :
    Does allowed (modify fun s => { s with queue := f s }) :=
  of_wp fun s => Acts.single (hallowed (f s)) trivial

/-- A write that keeps the rooms, the engines, the ratings and the queue. -/
theorem aside {f : Server → Server} (hallowed : ∀ t, allowed (.aside t))
    (hf : ∀ s, (Action.aside (f s)).Enabled s) : Does allowed (modify f) :=
  of_wp fun s => Acts.single (hallowed (f s)) (hf s)

end Does

/-! ### Rooms -/

section Rooms

variable {allowed : Action → Prop} (haside : ∀ t, allowed (.aside t)) {env : Env}

/-- A key that is not found. -/
theorem contains_eq_false {K V : Type} [DecidableEq K] {d : Dict K V} {k : K}
    (h : ¬ d.contains k = true) : d.get? k = none := by
  rw [Dict.contains, Bool.not_eq_true, Option.isSome_eq_false_iff, Option.isNone_iff_eq_none] at h
  exact h

/-- The hook of a new room creates its engine, if it has none; the room stays. -/
theorem onRoomCreated_acts (hcreate : ∀ r board, allowed (.createEngine r board))
    {s t : Server} {roomId : RoomId} (hst : Acts allowed s t)
    (hroom : ∃ room, t.rooms.get? roomId = some room) :
    wp (onRoomCreated env roomId) (fun _ => Acts allowed s) (fun _ => Acts allowed s) t := by
  unfold onRoomCreated
  rw [wp_bind, wp_get]
  split
  · exact hst
  next hnone =>
  unfold createEngineForRoom InputTxtBoardLoader.load
  rw [wp_bind]
  refine wp_call (perform_spec _) (fun _ u hu => hu.1 ▸ hst) ?_
  rintro _ u ⟨rfl, -⟩
  -- a file that does not parse leaves the room without an engine
  split
  · next board hparse =>
    rw [wp_pure, wp_modify]
    exact hst.tail ⟨.createEngine roomId board, hcreate _ _,
      ⟨contains_eq_false hnone, hroom, _, hparse⟩, rfl⟩
  · exact hst

/-- A room is marked as started. -/
theorem startGame_does (hstart : ∀ r, allowed (.startGame r)) (roomId : RoomId) :
    Does allowed (startGame roomId) := Does.of_wp fun _ => Acts.single (hstart roomId) trivial

/-- `create_room` of the room service, through the hook and its exceptions. -/
theorem createRoom_does {creator : UserId}
    (hopen : allowed (.openRoom (env.tokenHex creator) creator))
    (hcreate : ∀ r board, allowed (.createEngine r board))
    (hstart : ∀ r, allowed (.startGame r)) : Does allowed (RoomService.createRoom env creator) := by
  unfold RoomService.createRoom
  refine Does.get_bind fun s => ?_
  split
  · exact Acts.refl s
  next hfree =>
  rw [wp_bind, wp_modify]
  have hopened := Acts.single hopen (contains_eq_false hfree)
  refine wp_call (onRoomCreated_acts hcreate hopened ⟨_, Dict.get?_set_self _ _ _⟩)
    (fun _ _ ht => ht) (fun _ t ht => ?_)
  exact ((startGame_does hstart _).bind fun _ => Does.pure _).wp_of_acts ht

/-- `create_matched_room`, likewise. -/
theorem createMatchedRoom_does {userA userB : UserId} {roomId? : Option RoomId}
    (hopen : allowed (.openMatchedRoom (roomId?.getD (env.tokenHex userA)) userA userB))
    (hcreate : ∀ r board, allowed (.createEngine r board))
    (hstart : ∀ r, allowed (.startGame r)) :
    Does allowed (RoomService.createMatchedRoom env userA userB roomId?) := by
  unfold RoomService.createMatchedRoom
  refine Does.get_bind fun s => ?_
  -- three checks, and nothing is written before they have passed
  split
  · exact Acts.refl s
  next hfreeA =>
  split
  · exact Acts.refl s
  next hfreeB =>
  dsimp only
  split
  · exact Acts.refl s
  next hnew =>
  rw [wp_bind, wp_modify]
  have hopened := Acts.single (s := s) hopen
    ⟨contains_eq_false hfreeA, contains_eq_false hfreeB, contains_eq_false hnew⟩
  refine wp_call (onRoomCreated_acts hcreate hopened ⟨_, Dict.get?_set_self _ _ _⟩)
    (fun _ _ ht => ht) (fun _ t ht => ?_)
  exact ((startGame_does hstart _).bind fun _ => Does.pure _).wp_of_acts ht

/-- What follows the write of a joining player. -/
theorem startForPlayer_acts (hcreate : ∀ r board, allowed (.createEngine r board))
    (hstart : ∀ r, allowed (.startGame r)) {s t : Server} {roomId : RoomId} {gameStarted : Bool}
    {role : PlayerRole} (hst : Acts allowed s t) (hroom : ∃ room, t.rooms.get? roomId = some room) :
    wp (startForPlayer env roomId gameStarted role) (fun _ => Acts allowed s)
      (fun _ => Acts allowed s) t := by
  unfold startForPlayer
  -- a viewer, or a game under way, starts nothing
  split
  · obtain ⟨room, hroom⟩ := hroom
    have hstarted := Acts.single (s := t) (hstart roomId) trivial
    unfold startGame
    rw [wp_bind, wp_modify]
    refine onRoomCreated_acts hcreate (hst.trans hstarted) ⟨{ room with gameStarted := true }, ?_⟩
    rw [Server.get?_modifyRoom, if_pos rfl, hroom, Option.map_some]
  · exact hst

/-- `join_room` of the room service. -/
theorem joinRoom_does {roomId : RoomId} {userId : UserId}
    (hjoin : ∀ role, allowed (.join roomId userId role))
    (hcreate : ∀ r board, allowed (.createEngine r board))
    (hstart : ∀ r, allowed (.startGame r)) :
    Does allowed (RoomService.joinRoom env roomId userId) := by
  unfold RoomService.joinRoom
  refine Does.get_bind fun s => ?_
  cases hroom : s.rooms.get? roomId with
  | none => exact Acts.refl s
  | some room =>
    dsimp only
    split
    · exact Acts.refl s
    next hfree =>
    rw [wp_bind, wp_modify]
    have hjoined := Acts.single (s := s) (hjoin (nextRole room))
      ⟨contains_eq_false hfree, room, hroom, rfl⟩
    -- the room is still there for the hook
    have hroom' : ∃ room', ((Action.join roomId userId (nextRole room)).apply s).rooms.get? roomId =
        some room' := ⟨_, by
      change (s.modifyRoom roomId _).rooms.get? roomId = _
      rw [Server.get?_modifyRoom, if_pos rfl, hroom, Option.map_some]⟩
    exact wp_call (startForPlayer_acts hcreate hstart hjoined hroom') (fun _ _ ht => ht)
      (fun _ _ ht => ht)

end Rooms

/-! ### Results -/

section Results

variable {allowed : Action → Prop} (haside : ∀ t, allowed (.aside t)) {cfg : Config} {env : Env}
  {roomId : RoomId} {s t : Server}

/-- What is announced of a result changes none of the maps. -/
theorem Announced.enabled {roomId : RoomId} {s t : Server} (h : Announced roomId s t) :
    (Action.aside t).Enabled s := by
  change t = _
  rw [h.same]

/-- The two writes and the mark of an attempt come when the result is applicable. -/
theorem EloDue.applicable {engine : GameEngine} {whiteId blackId : UserId} {new : Int × Int}
    (hdue : EloDue cfg env roomId engine s whiteId blackId new)
    (hengine : s.engines.get? roomId = some engine) (hover : engine.gameOver = true) :
    Applicable s roomId whiteId blackId := by
  obtain ⟨winner, white, black, hwinner, hrated, -⟩ := hdue.rated
  exact ⟨⟨engine, hengine, hover, by rw [hwinner]; rfl⟩, hrated.players, hdue.pending⟩

/-- The first write leaves the result applicable. -/
theorem Applicable.afterSetElo {whiteId blackId : UserId} (h : Applicable s roomId whiteId blackId)
    (userId : UserId) (elo : Int) (raised : Bool) :
    Applicable (s.afterSetElo roomId userId elo raised) roomId whiteId blackId :=
  ⟨h.ended, h.players, h.pending⟩

/-- The two calls of `set_elo`. -/
theorem Applicable.setElo_acts {whiteId blackId : UserId}
    (h : Applicable s roomId whiteId blackId) (new : Int × Int) (raised : Bool)
    (hset : ∀ userId elo raised, allowed (.setElo roomId userId elo raised)) :
    Acts allowed s
      ((s.afterSetElo roomId whiteId new.1 false).afterSetElo roomId blackId new.2 raised) := by
  have hfirst := Acts.single (hset whiteId new.1 false) ⟨whiteId, blackId, h, Or.inl rfl⟩
  have hsecond := Acts.single (hset blackId new.2 raised)
    ⟨whiteId, blackId, h.afterSetElo whiteId new.1 false, Or.inr rfl⟩
  exact hfirst.trans hsecond

include haside in
/-- **An attempt at a result is a sequence of writes**, however far it got. -/
theorem EloAttempt.acts {engine : GameEngine} {raised : Bool}
    (hset : ∀ userId elo raised, allowed (.setElo roomId userId elo raised))
    (hmark : allowed (.markElo roomId))
    (hengine : s.engines.get? roomId = some engine) (hover : engine.gameOver = true)
    (h : EloAttempt cfg env roomId engine s raised t) : Acts allowed s t := by
  cases h with
  | idle | nameRaises | ratingRaises => exact Acts.refl s
  | whiteRaises whiteId blackId new hdue =>
    have happ := hdue.applicable hengine hover
    exact Acts.single (hset _ _ _) ⟨whiteId, blackId, happ, Or.inl rfl⟩
  | blackRaises whiteId blackId new hdue =>
    exact (hdue.applicable hengine hover).setElo_acts new true hset
  | applied whiteId blackId new t hdue _ _ hannounced =>
    -- both writes, the mark, and the announcement as one write aside
    have happ := hdue.applicable hengine hover
    have hwrites := happ.setElo_acts new false hset
    have happ' := (happ.afterSetElo whiteId new.1 false).afterSetElo blackId new.2 false
    have hmarked := Acts.single hmark ⟨whiteId, blackId, happ'⟩
    have hlast := Acts.single (haside t) hannounced.enabled
    exact (hwrites.trans hmarked).trans hlast

/-- A broadcast to a room is a write aside. -/
theorem enabled_broadcast (roomId : RoomId) (message : Message) :
    (Action.aside (s.broadcast roomId message)).Enabled s := by
  unfold Server.broadcast
  split
  · rfl
  · rfl

/-- A tick of a room's engine and the broadcast that may follow. -/
theorem afterTick_acts {engine : GameEngine} (haside : ∀ t, allowed (.aside t))
    (htick : ∀ before, allowed (.engine roomId before .tick))
    (hengine : s.engines.get? roomId = some engine) :
    Acts allowed s (s.afterTick roomId engine) := by
  have hticked := Acts.single (htick engine) hengine
  unfold Server.afterTick
  dsimp only
  split
  · exact hticked.trans (Acts.single (haside _) (enabled_broadcast _ _))
  · exact hticked

/-- The clock of a room advances, the other engines stand. -/
theorem get?_afterTick (engine : GameEngine) (r : RoomId) :
    (s.afterTick roomId engine).engines.get? r =
      if r = roomId then some (engine.updateGameClock tickMs) else s.engines.get? r := by
  have hengines : (s.afterTick roomId engine).engines =
      (s.setEngine roomId (engine.updateGameClock tickMs)).engines := by
    unfold Server.afterTick Server.broadcast
    dsimp only
    split
    · split
      · rfl
      · rfl
    · rfl
  rw [hengines, Server.get?_setEngine]

/-- The tick of a room, by its outcomes. -/
theorem tickRoom_does (haside : ∀ t, allowed (.aside t))
    (htick : ∀ before, allowed (.engine roomId before .tick))
    (hset : ∀ userId elo raised, allowed (.setElo roomId userId elo raised))
    (hmark : allowed (.markElo roomId)) : Does allowed (tickRoom cfg env roomId) := by
  -- an attempt follows the tick of the clock, and finds the engine ended
  have hacts : ∀ {s t raised}, TickOutcome cfg env roomId s raised t → Acts allowed s t := by
    intro s t raised h
    cases h with
    | absent => exact Acts.refl s
    | broadcastRaises engine hengine => exact Acts.single (htick engine) hengine
    | ticked engine hengine => exact afterTick_acts haside htick hengine
    | attempted engine raised t hengine _ hover h =>
      have hengine' : (s.afterTick roomId engine).engines.get? roomId =
          some (engine.updateGameClock tickMs) := by
        rw [get?_afterTick, if_pos rfl]
      exact (afterTick_acts haside htick hengine).trans (h.acts haside hset hmark hengine' hover)
  exact Does.of_wp fun s => wp_mono (tickRoom_cases cfg env roomId s) (fun _ _ h => hacts h)
    (fun _ _ h => hacts h)

/-- After a forfeit the game is over. -/
theorem gameOver_forceForfeit (e : GameEngine) (winner : Color) :
    (e.forceForfeit winner).gameOver = true := by
  unfold GameEngine.forceForfeit
  split
  · next h => exact h
  · rfl

/-- A forfeit, by its outcomes. -/
theorem forceForfeit_does {loser : UserId} (haside : ∀ t, allowed (.aside t))
    (hforfeit : ∀ before winner, allowed (.engine roomId before (.forfeit winner)))
    (hset : ∀ userId elo raised, allowed (.setElo roomId userId elo raised))
    (hmark : allowed (.markElo roomId)) :
    Does allowed (GameService.forceForfeit cfg env roomId loser) := by
  have hacts : ∀ {s t raised}, ForfeitOutcome cfg env roomId loser s raised t →
      Acts allowed s t := by
    intro s t raised h
    cases h with
    | idle | nameRaises => exact Acts.refl s
    | forfeited engine winner raised t hengine hrunning _ _ h =>
      -- the engine is ended first, and the result is applied in that state
      have hended := Acts.single (hforfeit engine winner) hengine
      refine hended.trans (h.acts haside hset hmark ?_ (gameOver_forceForfeit engine winner))
      change (s.setEngine roomId (engine.forceForfeit winner)).engines.get? roomId = _
      rw [Server.get?_setEngine, if_pos rfl]
  exact Does.of_wp fun s => wp_mono (forceForfeit_cases cfg env roomId loser s)
    (fun _ _ h => hacts h) (fun _ _ h => hacts h)

/-- A move: at most one call of one engine. -/
theorem submitMove_does {userId : UserId} {startPos endPos : Position}
    (hmove : ∀ r before color, allowed (.engine r before (.move color startPos endPos))) :
    Does allowed (submitMove userId startPos endPos) := by
  -- the engine that is written back is the one that was read
  have hhandle : ∀ r color, Does allowed (handleMove r color startPos endPos) := by
    intro r color
    unfold handleMove
    refine Does.get_bind fun s => ?_
    cases hengine : s.engines.get? r with
    | none => exact Acts.refl s
    | some engine =>
      dsimp only
      rw [wp_bind, wp_modify, wp_pure]
      exact Acts.single (hmove r engine color) hengine
  unfold submitMove
  refine Does.get_bind fun s => ?_
  split
  · exact Acts.refl s
  split
  · exact Acts.refl s
  next color _ =>
  refine ((hhandle _ color).bind fun moved => ?_).wp s
  obtain ⟨ok, reason⟩ := moved
  dsimp only
  refine Does.ite (Does.get_bind fun t => Acts.refl t) (Does.pure _)

end Results

/-! ### Connections, the queue and the runtime -/

section Runtime

variable {allowed : Action → Prop} {cfg : Config} {env : Env}

/-- The connection of a member changes, their role does not. -/
theorem connection_does {roomId : RoomId} {userId : UserId} {f : RoomMember → RoomMember}
    (hconnection : allowed (.connection roomId userId f)) (hrole : ∀ m, (f m).role = m.role) :
    Does allowed (modify fun s => s.modifyMember roomId userId f) :=
  Does.of_wp fun _ => Acts.single hconnection hrole

/-- A player comes back. -/
theorem reconnect_does {userId : UserId} (hconnection : ∀ r f, allowed (.connection r userId f)) :
    Does allowed (RoomService.reconnect userId) := by
  refine Does.of_wp fun s => wp_mono (reconnect_cases userId s) (fun _ t ht => ?_) nofun
  cases ht with
  | absent => exact Acts.refl s
  | back roomId => exact Acts.single (hconnection roomId _) fun _ => rfl

/-- A connection is lost. -/
theorem markDisconnected_does {userId : UserId} (hleave : ∀ r, allowed (.leave r userId))
    (hconnection : ∀ r f, allowed (.connection r userId f)) :
    Does allowed (RoomService.markDisconnected env userId) := by
  refine Does.of_wp fun s => wp_mono (markDisconnected_cases env userId s) (fun _ t ht => ?_) ?_
  · cases ht with
    | nobody => exact Acts.refl s
    | left roomId room hmapped hroom hviewer =>
      exact Acts.single (hleave roomId) ⟨hmapped, room, hroom, hviewer⟩
    | marked roomId => exact Acts.single (hconnection roomId _) fun _ => rfl
  · rintro _ _ rfl
    exact Acts.refl _

/-- A search is cancelled. -/
theorem cancel_does (hqueue : ∀ queue, allowed (.setQueue queue)) (userId : UserId) :
    Does allowed (LobbyService.cancel cfg userId) := by
  unfold LobbyService.cancel
  split
  · unfold MatchmakingService.cancel
    refine Does.get_bind fun s => ?_
    exact ((Does.setQueue hqueue).bind fun _ => Does.pure _).wp s
  · exact Does.pure _

/-- The countdown of a room. -/
theorem broadcastCountdown_does (haside : ∀ t, allowed (.aside t)) (roomId : RoomId)
    (userId : UserId) (secondsLeft : Int) :
    Does allowed (ServerRuntime.broadcastCountdown env roomId userId secondsLeft) := by
  unfold ServerRuntime.broadcastCountdown
  refine Does.get_bind fun s => ?_
  split
  · exact Acts.refl s
  · exact ((Does.perform _ _).bind fun _ =>
      Does.aside haside fun _ => by rfl).wp s

/-- The handler of a lost connection, one service after the other. -/
theorem onClientDisconnected_does {userId : UserId} (haside : ∀ t, allowed (.aside t))
    (hqueue : ∀ queue, allowed (.setQueue queue))
    (hleave : ∀ r, allowed (.leave r userId))
    (hconnection : ∀ r f, allowed (.connection r userId f)) :
    Does allowed (ServerRuntime.onClientDisconnected cfg env userId) := by
  unfold ServerRuntime.onClientDisconnected
  refine (cancel_does hqueue userId).bind fun _ => ?_
  refine (markDisconnected_does hleave hconnection).bind fun roomId? => ?_
  split
  · exact Does.pure _
  · exact broadcastCountdown_does haside _ _ _

/-- The countdown of a pass, which is sent when it changes. -/
theorem sendCountdown_does (haside : ∀ t, allowed (.aside t)) (entry : RoomId × UserId × Int) :
    Does allowed (ServerRuntime.sendCountdown env entry) := by
  unfold ServerRuntime.sendCountdown
  refine Does.get_bind fun s => ?_
  split
  · exact Acts.refl s
  · exact ((Does.aside haside fun _ => by rfl).bind fun _ =>
      broadcastCountdown_does haside _ _ _).wp s

/-- What the bodies of both loops keep, the grace keeps. -/
theorem processDisconnectGrace_keeps {P : Server → Prop}
    (hcountdown : ∀ entry, Keeps P (ServerRuntime.sendCountdown env entry))
    (hexpired : ∀ entry, Keeps P (ServerRuntime.forfeitExpired cfg env entry)) :
    Keeps P (ServerRuntime.processDisconnectGrace cfg env) := by
  unfold ServerRuntime.processDisconnectGrace
  refine Keeps.bind Keeps.get fun s => ?_
  refine Keeps.bind (Keeps.forM hcountdown _) fun _ => ?_
  exact Keeps.bind Keeps.get fun t => Keeps.forM hexpired _

/-- The pass over the disconnected players. -/
theorem processDisconnectGrace_does (haside : ∀ t, allowed (.aside t))
    (hforfeit : ∀ r before winner, allowed (.engine r before (.forfeit winner)))
    (hset : ∀ r userId elo raised, allowed (.setElo r userId elo raised))
    (hmark : ∀ r, allowed (.markElo r))
    (hconnection : ∀ r u f, allowed (.connection r u f)) :
    Does allowed (ServerRuntime.processDisconnectGrace cfg env) := by
  -- one expired entry: the forfeit, then the connection and the deadline are cleared
  have hexpired : ∀ entry, Does allowed (ServerRuntime.forfeitExpired cfg env entry) := by
    intro entry
    unfold ServerRuntime.forfeitExpired clearDisconnectDeadline
    refine (forceForfeit_does haside (hforfeit _) (hset _) (hmark _)).bind fun _ => ?_
    refine (connection_does (hconnection _ _ _) fun _ => by rfl).bind fun _ => ?_
    exact Does.aside haside fun _ => by rfl
  unfold ServerRuntime.processDisconnectGrace
  refine Does.get_bind fun s => ?_
  -- the countdowns are sent first, and the forfeits are of those that still wait
  refine ((Does.forM (sendCountdown_does haside) _).bind fun _ => Does.get_bind fun t => ?_).wp s
  exact (Does.forM hexpired _).wp t

/-- A notice to a user. -/
theorem notifyUser_does (haside : ∀ t, allowed (.aside t)) (userId : UserId)
    (message : Message) : Does allowed (MatchmakingService.notifyUser env userId message) := by
  unfold MatchmakingService.notifyUser
  refine (Does.perform _ _).bind fun _ => ?_
  refine (Does.aside haside fun _ => by rfl).bind fun _ => ?_
  split
  · refine Does.get_bind fun s => ?_
    split
    · exact Acts.refl s
    · exact (Does.aside haside fun _ => by rfl).wp s
  · exact Does.pure _

/-- The matchmaking tick, both halves. -/
theorem matchmakingTick_does (haside : ∀ t, allowed (.aside t))
    (hqueue : ∀ queue, allowed (.setQueue queue))
    (hopen : ∀ a b, allowed (.openMatchedRoom (env.tokenHex a) a b))
    (hcreate : ∀ r board, allowed (.createEngine r board))
    (hstart : ∀ r, allowed (.startGame r)) :
    Does allowed (ServerRuntime.matchmakingTick cfg env) := by
  have hexpire : ∀ queue still, Does allowed (MatchmakingService.expireLoop env queue still) := by
    -- both loops by induction on the queue, for any accumulator
    intro queue
    induction queue with
    | nil => exact fun still => Does.pure still
    | cons entry rest ih =>
      intro still
      unfold MatchmakingService.expireLoop
      exact Does.ite ((notifyUser_does haside _ _).bind fun _ => ih still) (ih _)
  have hmatch : ∀ queue used, Does allowed (MatchmakingService.matchLoop env queue used) := by
    intro queue
    induction queue with
    | nil => exact fun used => Does.pure used
    | cons a later ih =>
      intro used
      unfold MatchmakingService.matchLoop
      refine Does.ite (ih used) ?_
      split
      · exact ih used
      · unfold MatchmakingService.seatPair
        refine ((createMatchedRoom_does (hopen _ _) hcreate hstart).bind fun roomId => ?_).bind
          fun _ => ih _
        exact (notifyUser_does haside _ _).bind fun _ => notifyUser_does haside _ _
  unfold ServerRuntime.matchmakingTick
  split
  · -- the queue is written back at the end of either half
    unfold MatchmakingService.tick MatchmakingService.expireTimeouts MatchmakingService.tryMatch
    refine Does.bind (Does.get_bind fun s => ?_) fun _ => Does.get_bind fun s => ?_
    · exact ((hexpire _ _).bind fun _ => Does.setQueue hqueue).wp s
    · exact ((hmatch _ _).bind fun _ => Does.setQueue hqueue).wp s
  · exact Does.pure _

/-- An account is opened only for a new user. -/
theorem register_does {userId : UserId} {username : String}
    (hregister : ∀ user, allowed (.register user)) :
    Does allowed (UserStore.register userId username) := by
  unfold UserStore.register
  refine Does.of_wp fun s => ?_
  rw [wp_modify]
  split
  · exact Acts.refl s
  · next hnew =>
    refine Acts.single (hregister ⟨userId, username, 1200⟩) ?_
    rw [Bool.or_eq_true, not_or] at hnew
    exact contains_eq_false hnew.1

/-- The keys of the allocator are aside. -/
theorem bindPlayers_does (haside : ∀ t, allowed (.aside t)) (roomId : RoomId)
    (userIds : List UserId) : Does allowed (bindPlayers cfg roomId userIds) := by
  unfold bindPlayers
  split
  · exact Does.pure _
  · exact Does.aside haside fun _ => by rfl

/-- An error of a service becomes a reply, any other exception goes on. -/
theorem onValueError_does (exn : Exn) : Does allowed (LobbyService.onValueError exn) := by
  unfold LobbyService.onValueError
  split
  · exact Does.pure _
  · exact Does.throw _

/-- Who asks to play at most joins the queue. -/
theorem play_does (hqueue : ∀ queue, allowed (.setQueue queue)) (userId : UserId) :
    Does allowed (LobbyService.play cfg env userId) := by
  unfold LobbyService.play
  refine Does.get_bind fun s => ?_
  -- a user in a room, a full service, and the queue itself
  split
  · exact Acts.refl s
  refine Does.wp (Does.bind ?_ fun _ => Does.pure _) s
  unfold LobbyService.enqueue
  split
  · unfold MatchmakingService.enqueue
    refine Does.get_bind fun s => ?_
    split
    · exact Acts.refl s
    · -- the rating is read before the queue is written
      unfold MatchmakingService.getElo UserStore.getById
      refine Does.wp (Does.bind ?_ fun _ => (Does.setQueue hqueue).bind fun _ => Does.pure _) s
      refine Does.bind ((Does.perform _ _).bind fun _ => ?_) fun _ => Does.pure _
      exact Does.get_bind fun s => Acts.refl s
  · exact Does.pure _

/-- The command `create_room` does what the room service does, and turns an error into a reply. -/
theorem createRoom_command_does {userId : UserId}
    (hopen : allowed (.openRoom (env.tokenHex userId) userId))
    (hcreate : ∀ r board, allowed (.createEngine r board))
    (hstart : ∀ r, allowed (.startGame r)) : Does allowed (LobbyService.createRoom env userId) :=
  Does.tryCatch ((createRoom_does hopen hcreate hstart).bind fun _ => Does.pure _)
    onValueError_does

/-- The command `join_room`, likewise; the reply is read off the room. -/
theorem joinRoom_command_does {roomId : RoomId} {userId : UserId}
    (hjoin : ∀ role, allowed (.join roomId userId role))
    (hcreate : ∀ r board, allowed (.createEngine r board))
    (hstart : ∀ r, allowed (.startGame r)) :
    Does allowed (LobbyService.joinRoom env userId roomId) :=
  Does.tryCatch ((joinRoom_does hjoin hcreate hstart).bind fun _ =>
    Does.get_bind fun s => Acts.refl s) onValueError_does

/-- A message that is published. -/
theorem publishOutbound_does (haside : ∀ t, allowed (.aside t)) (call : ExternalCall)
    (recipients : List UserId) (message : Message) :
    Does allowed (publishOutbound env call recipients message) :=
  (Does.perform _ _).bind fun _ => Does.aside haside fun _ => by rfl

end Runtime

/-! ### Events -/

/-- **Every event is a sequence of enabled actions.** -/
theorem Event.does (cfg : Config) (env : Env) (event : Event) :
    Does (Action.Of (env, event)) (event.run cfg env) := by
  have haside : ∀ t, Action.Of (env, event) (.aside t) := fun _ => trivial
  cases event with
  | register userId username => exact register_does fun _ => trivial
  | play userId => exact (play_does (fun _ => trivial) userId).bind fun _ => Does.pure _
  | cancelPlay userId =>
    exact ((cancel_does (fun _ => trivial) userId).bind fun _ => Does.pure _).bind fun _ => Does.pure _
  | createRoom userId =>
    refine Does.bind ?_ fun outcome => Does.ite (bindPlayers_does haside _ _) (Does.pure _)
    exact createRoom_command_does ⟨rfl, rfl⟩ (fun _ _ => trivial) fun _ => trivial
  | joinRoom userId roomId =>
    -- the command, then the player is bound to the room it came to
    refine Does.bind ?_ fun outcome => Does.ite ?_ (Does.pure _)
    · exact joinRoom_command_does (fun _ => rfl) (fun _ _ => trivial) fun _ => trivial
    · unfold bindPlayer
      split
      · exact Does.pure _
      · exact Does.aside haside fun _ => by rfl
  | createMatch roomId whiteId blackId =>
    change Does _ (handleCreateMatch cfg env roomId whiteId blackId)
    -- the match is opened, the players are bound, and the messages are published
    unfold handleCreateMatch
    refine (createMatchedRoom_does (Or.inr rfl) (fun _ _ => trivial) fun _ => trivial).bind
      fun _ => ?_
    refine (bindPlayers_does haside _ _).bind fun _ => ?_
    refine (publishOutbound_does haside _ _ _).bind fun _ => ?_
    refine (publishOutbound_does haside _ _ _).bind fun _ => Does.get_bind fun s => ?_
    split
    · exact Acts.refl s
    · exact (publishOutbound_does haside _ _ _).wp s
  | submitMove userId startPos endPos =>
    exact (submitMove_does fun _ _ _ => trivial).bind fun _ => Does.pure _
  | reconnect userId => exact (reconnect_does fun _ _ => trivial).bind fun _ => Does.pure _
  | clientDisconnected userId =>
    exact onClientDisconnected_does haside (fun _ => trivial) (fun _ => rfl) fun _ _ => trivial
  | matchmakingTick =>
    exact matchmakingTick_does haside (fun _ => trivial) (fun _ _ => Or.inl ⟨rfl, rfl⟩)
      (fun _ _ => trivial) fun _ => trivial
  -- a pass over the rooms, one tick a room
  | tickAll =>
    refine Does.get_bind fun s => ?_
    refine (Does.forM (fun roomId => ?_) _).wp s
    exact tickRoom_does haside (fun _ => rfl) (fun _ _ _ => trivial) trivial
  | processDisconnectGrace =>
    exact processDisconnectGrace_does haside (fun _ _ _ => trivial) (fun _ _ _ _ => trivial)
      (fun _ => trivial) fun _ _ _ => trivial
  | forceForfeit roomId loser =>
    exact forceForfeit_does haside (fun _ _ => trivial) (fun _ _ _ => trivial) trivial

/-- A step, with the exception of its event swallowed. -/
theorem Server.step_acts (cfg : Config) (s : Server) (event : Env × Event) :
    Acts (Action.Of event) s (s.step cfg event) :=
  wp_iff_after.mp ((Event.does cfg event.1 event.2).wp s)

/-- **The invariant rule for runs of the server**: what every enabled action keeps holds
at the end of every run. -/
theorem Server.play_invariant {P : Server → Prop} {cfg : Config} {s : Server}
    (hstep : ∀ (a : Action) t, a.Enabled t → P t → P (a.apply t)) (hs : P s)
    (events : List (Env × Event)) : P (s.play cfg events) :=
  Run.stable (P := P)
    (fun t event ht => (t.step_acts cfg event).invariant (fun a u _ => hstep a u) ht) hs

end KungFuChess
