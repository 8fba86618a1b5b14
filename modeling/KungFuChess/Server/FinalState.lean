import KungFuChess.Engine.KingCapture
import KungFuChess.Server.Iteration

/-!
# The final position reaches the room

Once nothing is in flight on an engine, or its game has ended, the last `state` message to
its room should show the position and the scores the engine has (`FinalShown`). The code
sends the state at one occasion only: a tick begins with motions in flight and ends with
none. That occasion is missed when a game ends with motions in flight, which then stay there
for good, because `update_game_clock` does nothing once the game is over. It happens in a tick
that captures a king while other pieces are on their way, and in a forfeit. It is missed as
well when the one broadcast raises. `InTime` excludes these three; `finalShown_of_inTime` says
that nothing else goes wrong.
-/

namespace KungFuChess

open Effect RoomService GameService

/-! ### Positions -/

/-- Square, colour and type of every piece on the board. -/
def GameEngine.position (e : GameEngine) : List (Position × Color × PieceType) :=
  e.board.getAllPieces.map fun entry => (entry.1, entry.2.color, entry.2.pieceType)

/-- Square, colour and type of every piece in the message. -/
def StateMessage.position (m : StateMessage) : List (Position × Color × PieceType) :=
  m.pieces.map fun piece => (⟨piece.row, piece.col⟩, piece.color, piece.type)

/-- The message shows the position and the scores of the engine. -/
def StateMessage.Shows (m : StateMessage) (e : GameEngine) : Prop :=
  (∀ entry, entry ∈ m.position ↔ entry ∈ e.position) ∧ m.score = e.scoreboard.scores

/-- The state that a message to the room carries, if it is one. -/
def stateTo (roomId : RoomId) (m : Outgoing) : Option StateMessage :=
  if m.roomId = some roomId then
    match m.message with
    | .state snapshot => some snapshot
    | _ => none
  else none

/-- The last `state` message broadcast to the room. -/
def lastState (s : Server) (roomId : RoomId) : Option StateMessage :=
  (s.outbox.filterMap (stateTo roomId)).getLast?

/-- The last `state` message to the room shows what the engine has. -/
def Shown (s : Server) (roomId : RoomId) (e : GameEngine) : Prop :=
  ∃ m, lastState s roomId = some m ∧ m.Shows e

/-! ### The property -/

/-- Nothing is in flight, or the game has ended. -/
def Resting (e : GameEngine) : Prop := e.hasActiveMotion = false ∨ e.gameOver = true

/-- The two engines have the same position. -/
def SamePosition (before after : GameEngine) : Prop :=
  ∀ entry, entry ∈ before.position ↔ entry ∈ after.position

/-- Some tick of the run has changed the position of the room. -/
def TickChanged (cfg : Config) (s : Server) (events : List (Env × Event)) (roomId : RoomId) :
    Prop :=
  ∃ pre env post before after, events = pre ++ (env, .tickAll) :: post ∧
    (s.play cfg pre).engines.get? roomId = some before ∧
    (s.play cfg (pre ++ [(env, .tickAll)])).engines.get? roomId = some after ∧
    ¬ SamePosition before after

/-- At the end of the run: if a tick has changed the position and the engine rests, the room
has been shown what the engine has. -/
def FinalShown (cfg : Config) (s : Server) (events : List (Env × Event)) (roomId : RoomId) :
    Prop :=
  ∀ e, (s.play cfg events).engines.get? roomId = some e → Resting e →
    TickChanged cfg s events roomId → Shown (s.play cfg events) roomId e

/-! ### The condition -/

/-- Some landing of the tick takes a king. -/
def GameEngine.TakesKing (e : GameEngine) (ms : Int) : Prop :=
  ¬ Run.Guarded GameEngine.land (fun t m _ => t.kingTaker m = none) (e.afterAdvance ms)
    (e.completedMotions ms)

/-- Some motion takes longer than the tick. -/
def GameEngine.Outlasts (e : GameEngine) (ms : Int) : Prop :=
  ∃ motion ∈ e.arbiter.activeMotions, ms < motion.remainingTime

/-- Whether a tick takes a king can be computed. -/
instance (e : GameEngine) (ms : Int) : Decidable (e.TakesKing ms) :=
  inferInstanceAs (Decidable (¬ Run.Guarded _ _ _ _))

/-- Since a tick has changed the position or the scores, something has been in flight at any
time. -/
def LandedInFlight (cfg : Config) (s : Server) (events : List (Env × Event)) (roomId : RoomId) :
    Prop :=
  ∃ pre env post before after, events = pre ++ (env, .tickAll) :: post ∧
    (s.play cfg pre).engines.get? roomId = some before ∧
    (s.play cfg (pre ++ [(env, .tickAll)])).engines.get? roomId = some after ∧
    ¬ (SamePosition before after ∧ before.scoreboard.scores = after.scoreboard.scores) ∧
    ∀ mid rest e, post = mid ++ rest →
      (s.play cfg (pre ++ (env, .tickAll) :: mid)).engines.get? roomId = some e →
        e.hasActiveMotion = true

/-- The forfeit ends the running game of the room. -/
def ForfeitEnds (env : Env) (s : Server) (roomId : RoomId) (loser : UserId) (e : GameEngine) :
    Prop :=
  e.gameOver = false ∧ ¬ NameLookupRaises env s .forfeitName roomId ∧
    (forfeitWinner (s.playersOf roomId) loser).isSome = true

/-- The event does not miss the occasion to show the position: a tick that takes a king comes
when no motion outlasts it, no broadcast of the state raises, and no forfeit ends the game in
flight once a piece has landed. -/
def InTime (cfg : Config) (s : Server) (roomId : RoomId) (pre : List (Env × Event))
    (event : Env × Event) : Prop :=
  match event.2 with
  | .tickAll => ∀ e, (s.play cfg pre).engines.get? roomId = some e →
      ¬ StateBroadcastRaises event.1 (s.play cfg pre) roomId e ∧
      (e.gameOver = false → e.TakesKing tickMs → ¬ e.Outlasts tickMs)
  | .forceForfeit r loser => r = roomId → ∀ e, (s.play cfg pre).engines.get? roomId = some e →
      ForfeitEnds event.1 (s.play cfg pre) roomId loser e → ¬ LandedInFlight cfg s pre roomId
  | _ => True

/-! ### Engines -/

namespace GameEngine

variable {e : GameEngine}

/-- A snapshot shows the engine it is taken of. -/
theorem snapshotState_shows (e : GameEngine) (roomId : RoomId) :
    (e.snapshotState roomId).Shows e := by
  have hposition : (e.snapshotState roomId).position = e.position := by
    unfold StateMessage.position GameEngine.position snapshotState
    rw [List.map_map]
    rfl
  refine ⟨fun entry => ?_, rfl⟩
  rw [hposition]

/-- A status is no part of the position. -/
theorem position_setStatus (e : GameEngine) (ref : PieceRef) (status : PieceStatus) :
    (e.setStatus ref status).position = e.position := by
  unfold GameEngine.position Board.getAllPieces
  rw [List.map_map, List.map_map]
  refine List.map_congr_left fun entry _ => ?_
  have hcolor := Board.color_setStatus e.board ref status entry.2
  have htype := Board.pieceType_setStatus e.board ref status entry.2
  exact Prod.ext rfl (Prod.ext hcolor htype)

/-- A request moves no piece and changes no score. -/
theorem shows_tryPlayerMove {m : StateMessage} (color : Color) (startPos endPos : Position) :
    m.Shows (e.tryPlayerMove color startPos endPos).1 ↔ m.Shows e := by
  have hmove : ∀ durationMs, (e.handleMoveRequest startPos endPos durationMs).1.position =
      e.position ∧ (e.handleMoveRequest startPos endPos durationMs).1.scoreboard.scores =
        e.scoreboard.scores := by
    -- the request sets a status and records the move
    intro durationMs
    unfold handleMoveRequest
    split
    · exact ⟨rfl, rfl⟩
    · next ref _ =>
      split
      · exact ⟨position_setStatus e ref .moving, Scoreboard.scores_addMove _ _ _⟩
      · exact ⟨rfl, rfl⟩
  have htry : (e.tryPlayerMove color startPos endPos).1.position = e.position ∧
      (e.tryPlayerMove color startPos endPos).1.scoreboard.scores = e.scoreboard.scores := by
    unfold tryPlayerMove
    split
    · exact ⟨rfl, rfl⟩
    split
    · exact ⟨rfl, rfl⟩
    dsimp only
    split
    · exact ⟨rfl, rfl⟩
    split <;> exact hmove _
  unfold StateMessage.Shows
  rw [htry.1, htry.2]

/-- After a request an engine rests only if it did before. -/
theorem resting_of_tryPlayerMove {color : Color} {startPos endPos : Position}
    (h : Resting (e.tryPlayerMove color startPos endPos).1) : Resting e := by
  -- a request that is accepted puts one motion in flight and removes at most one
  have hmove : ∀ durationMs, Resting (e.handleMoveRequest startPos endPos durationMs).1 →
      Resting e := by
    intro durationMs
    unfold handleMoveRequest
    split
    · exact id
    · dsimp only
      split
      · intro hrest
        obtain hnone | hover := hrest
        · -- a new motion is in flight, unless it met an old one that is
          left
          unfold hasActiveMotion RealTimeArbiter.hasActiveMotion RealTimeArbiter.startMotion
            RealTimeArbiter.resolveCommonRouteCollision at hnone
          unfold hasActiveMotion RealTimeArbiter.hasActiveMotion
          rw [decide_eq_false_iff_not] at hnone ⊢
          intro hpos
          refine hnone ?_
          dsimp only
          split
          · rw [List.length_erase_of_mem (List.mem_append_right _ List.mem_cons_self),
              List.length_append]
            simpa using hpos
          · simp
        · exact Or.inr hover
      · exact id
  unfold tryPlayerMove at h
  split at h
  · exact h
  split at h
  · exact h
  dsimp only at h
  split at h
  · exact h
  split at h <;> exact hmove _ h

/-- A tick of a resting engine changes nothing. -/
theorem updateGameClock_of_resting (h : Resting e) (ms : Int) : e.updateGameClock ms = e := by
  -- no motion is there to land, or the clock does not run any more
  obtain hnone | hover := h
  · have hmotions : e.arbiter.activeMotions = [] := by
      unfold hasActiveMotion RealTimeArbiter.hasActiveMotion at hnone
      exact List.eq_nil_of_length_eq_zero (by simpa using hnone)
    have hcompleted : e.completedMotions ms = [] := by
      unfold completedMotions RealTimeArbiter.advanceTime
      rw [hmotions]
      rfl
    have hadvance : e.afterAdvance ms = e := by
      unfold afterAdvance RealTimeArbiter.advanceTime
      obtain ⟨board, ⟨motions, counter⟩, scoreboard, gameOver, winner⟩ := e
      obtain rfl : motions = [] := hmotions
      rfl
    unfold updateGameClock
    rw [hcompleted, hadvance]
    split <;> rfl
  · exact call_of_gameOver hover (.tick ms)

/-- A tick without a king capture does not end the game. -/
theorem takesKing_of_gameOver {ms : Int} (hrunning : e.gameOver = false)
    (hover : (e.updateGameClock ms).gameOver = true) : e.TakesKing ms := by
  intro hnone
  have hlanded : ((e.completedMotions ms).foldl land (e.afterAdvance ms)).gameOver = false :=
    hnone.invariant (P := fun t _ => t.gameOver = false)
      (fun t m _ ht hm => ((land_cases t m).gameOver_of_not_taken hm).trans ht) hrunning
  unfold updateGameClock at hover
  rw [if_neg (by simp [hrunning]), hlanded] at hover
  exact absurd hover (by simp)

/-- What is in flight after a tick of a running game has outlasted it. -/
theorem outlasts_of_hasActiveMotion {ms : Int} (hrunning : e.gameOver = false)
    (hactive : (e.updateGameClock ms).hasActiveMotion = true) : e.Outlasts ms := by
  unfold hasActiveMotion RealTimeArbiter.hasActiveMotion updateGameClock at hactive
  rw [if_neg (by simp [hrunning]), arbiter_foldl_land, decide_eq_true_iff] at hactive
  obtain ⟨motion, hmotion⟩ := List.exists_mem_of_length_pos hactive
  obtain ⟨helapsed, hpositive⟩ := List.mem_filter.mp hmotion
  obtain ⟨before, hbefore, rfl⟩ := List.mem_map.mp helapsed
  refine ⟨before, hbefore, ?_⟩
  have hleft : ¬ before.remainingTime - ms ≤ 0 := by simpa [RealTimeArbiter.elapse] using hpositive
  omega

theorem shows_forceForfeit {m : StateMessage} (winner : Color) :
    m.Shows (e.forceForfeit winner) ↔ m.Shows e := by
  unfold forceForfeit
  split <;> exact Iff.rfl

end GameEngine

/-- What was shown stays shown while the engine looks the same. -/
theorem Shown.of_eq {s t : Server} {roomId : RoomId} {e e' : GameEngine} (h : Shown s roomId e)
    (hlast : lastState t roomId = lastState s roomId)
    (hshows : ∀ m : StateMessage, m.Shows e → m.Shows e') : Shown t roomId e' := by
  obtain ⟨m, hm, hshow⟩ := h
  exact ⟨m, hlast.trans hm, hshows m hshow⟩

/-! ### Messages -/

section Messages

variable {s t : Server} {roomId r : RoomId}

/-- Messages that are no states of the room leave the last one. -/
theorem lastState_of_sent {sent : List Outgoing} (hsent : t.outbox = s.outbox ++ sent)
    (hnone : ∀ m ∈ sent, stateTo roomId m = none) : lastState t roomId = lastState s roomId := by
  unfold lastState
  rw [hsent, List.filterMap_append, List.filterMap_eq_nil_iff.mpr hnone, List.append_nil]

/-- An attempt sends no state. -/
theorem EloFrame.lastState_eq (h : EloFrame r s t) : lastState t roomId = lastState s roomId := by
  obtain ⟨sent, hsent, hall⟩ := h.sent
  refine lastState_of_sent hsent fun m hm => ?_
  obtain ⟨winner, ratings, hmessage⟩ := hall m hm
  unfold stateTo
  rw [hmessage]
  split <;> rfl

/-- A message to another room. -/
theorem lastState_broadcast_of_ne (hne : roomId ≠ r) (message : Message) :
    lastState (s.broadcast r message) roomId = lastState s roomId := by
  unfold Server.broadcast
  split
  · rfl
  · refine lastState_of_sent rfl fun m hm => ?_
    rw [List.mem_singleton.mp hm]
    exact if_neg fun h => hne (Option.some.inj h).symm

/-- A state that is sent is the last one. -/
theorem lastState_broadcast (hroom : (s.rooms.get? roomId).isSome = true)
    (snapshot : StateMessage) :
    lastState (s.broadcast roomId (.state snapshot)) roomId = some snapshot := by
  obtain ⟨room, hroom⟩ := Option.isSome_iff_exists.mp hroom
  have hto : stateTo roomId ⟨some roomId, room.members.keys, .state snapshot⟩ = some snapshot :=
    if_pos rfl
  unfold Server.broadcast
  rw [hroom]
  change ((s.outbox ++ [_]).filterMap (stateTo roomId)).getLast? = _
  rw [List.filterMap_append, List.filterMap_cons_some hto]
  exact List.getLast?_concat

/-- The tick of another room. -/
theorem lastState_afterTick_of_ne (hne : roomId ≠ r) (e : GameEngine) :
    lastState (s.afterTick r e) roomId = lastState s roomId := by
  unfold Server.afterTick
  dsimp only
  split
  · exact lastState_broadcast_of_ne hne _
  · rfl

/-- The tick of the room sends the state when the last motion lands. -/
theorem lastState_afterTick (hroom : (s.rooms.get? roomId).isSome = true) (e : GameEngine) :
    lastState (s.afterTick roomId e) roomId =
      if finishedNow e (e.updateGameClock tickMs) then
        some ((e.updateGameClock tickMs).snapshotState roomId)
      else lastState s roomId := by
  unfold Server.afterTick
  dsimp only
  split
  · have hroom' : ((s.setEngine roomId (e.updateGameClock tickMs)).rooms.get? roomId).isSome =
        true := hroom
    exact lastState_broadcast hroom' _
  · rfl

end Messages

/-! ### What an event does to the room -/

section Events

variable {cfg : Config} {env : Env} {s t : Server} {roomId r : RoomId} {e : GameEngine}
  {raised : Bool}

/-- A pass over another room. -/
theorem TickOutcome.lastState_of_ne (h : TickOutcome cfg env r s raised t) (hne : roomId ≠ r) :
    lastState t roomId = lastState s roomId := by
  cases h with
  | absent => rfl
  | broadcastRaises => rfl
  | ticked engine => exact lastState_afterTick_of_ne hne engine
  | attempted engine raised t _ _ _ h =>
    exact h.frame.lastState_eq.trans (lastState_afterTick_of_ne hne engine)

/-- The pass over the room. -/
theorem TickOutcome.lastState_eq (h : TickOutcome cfg env roomId s raised t)
    (hroom : (s.rooms.get? roomId).isSome = true) (hengine : s.engines.get? roomId = some e)
    (hsends : ¬ StateBroadcastRaises env s roomId e) :
    lastState t roomId = if finishedNow e (e.updateGameClock tickMs) then
      some ((e.updateGameClock tickMs).snapshotState roomId) else lastState s roomId := by
  have hsame : ∀ {e'}, s.engines.get? roomId = some e' → e' = e :=
    fun he => Option.some.inj (he.symm.trans hengine)
  -- on the outcome of the tick: no engine, a broadcast that raises, a tick, a tick that writes
  cases h with
  | absent hnone => exact absurd (hnone.symm.trans hengine) (by simp)
  | broadcastRaises engine he h => exact absurd (hsame he ▸ h) hsends
  | ticked engine he =>
    obtain rfl := hsame he
    exact lastState_afterTick hroom engine
  | attempted engine raised t he _ _ h =>
    obtain rfl := hsame he
    exact h.frame.lastState_eq.trans (lastState_afterTick hroom engine)

/-- The room has not had its pass, or it has been ticked and the state sent if the last motion
has landed. -/
def RoomTicked (roomId : RoomId) (s : Server) (e : GameEngine) (t : Server) : Prop :=
  t.engines.get? roomId = some e ∧ lastState t roomId = lastState s roomId ∨
    t.engines.get? roomId = some (e.updateGameClock tickMs) ∧
      lastState t roomId = if finishedNow e (e.updateGameClock tickMs) then
        some ((e.updateGameClock tickMs).snapshotState roomId) else lastState s roomId

/-- In the loop over the rooms: the room is as it was before its pass, and ticked after it. -/
def TickedSoFar (roomId : RoomId) (s : Server) (e : GameEngine) (done : List RoomId)
    (t : Server) : Prop :=
  (roomId ∉ done ∧ t.engines.get? roomId = some e ∧ lastState t roomId = lastState s roomId ∧
      Alike roomId s t) ∨
    roomId ∈ done ∧ t.engines.get? roomId = some (e.updateGameClock tickMs) ∧
      lastState t roomId = if finishedNow e (e.updateGameClock tickMs) then
        some ((e.updateGameClock tickMs).snapshotState roomId) else lastState s roomId

namespace TickedSoFar

variable {u : Server} {done : List RoomId}

theorem roomTicked (h : TickedSoFar roomId s e done t) : RoomTicked roomId s e t :=
  h.imp (fun h => ⟨h.2.1, h.2.2.1⟩) fun h => h.2

/-- The pass of another room. -/
theorem pass_of_ne (h : TickedSoFar roomId s e done t) (hne : roomId ≠ r)
    (hpass : TickOutcome cfg env r t raised u) : TickedSoFar roomId s e (done ++ [r]) u := by
  have hmem : roomId ∈ done ++ [r] ↔ roomId ∈ done := by simp [hne]
  unfold TickedSoFar
  rw [hmem, hpass.engines_of_ne hne, hpass.lastState_of_ne hne]
  exact h.imp_left fun h => ⟨h.1, h.2.1, h.2.2.1, h.2.2.2.trans (hpass.alike hne)⟩

/-- The pass of the room itself, which meets the engine and the members of the start. -/
theorem pass_self (h : TickedSoFar roomId s e done t) (hnew : roomId ∉ done)
    (hroom : (s.rooms.get? roomId).isSome = true) (hsends : ¬ StateBroadcastRaises env s roomId e)
    (hpass : TickOutcome cfg env roomId t raised u) :
    TickedSoFar roomId s e (done ++ [roomId]) u := by
  obtain ⟨-, hengine, hlast, halike⟩ | ⟨hmem, -⟩ := h
  · have hroom' : (t.rooms.get? roomId).isSome = true := by
      rw [← Option.isSome_map, halike.members, Option.isSome_map, hroom]
    have hsends' : ¬ StateBroadcastRaises env t roomId e :=
      fun h => hsends (halike.stateBroadcastRaises_iff.mp h)
    refine Or.inr ⟨List.mem_append_right _ List.mem_cons_self, ?_, ?_⟩
    · rw [hpass.engines hengine, if_pos rfl]
    · rw [hpass.lastState_eq hroom' hengine hsends', hlast]
  · exact absurd hmem hnew

end TickedSoFar

/-- `tick_all` ticks the room once, whatever it does to the others. -/
theorem tickAll_room (hroom : (s.rooms.get? roomId).isSome = true)
    (hengine : s.engines.get? roomId = some e)
    (hsends : ¬ StateBroadcastRaises env s roomId e) :
    wp (tickAll cfg env) (fun _ => RoomTicked roomId s e) (fun _ => RoomTicked roomId s e) s := by
  unfold tickAll
  rw [wp_bind, wp_get]
  have hstep : ∀ done r rest t, s.engines.keys = done ++ r :: rest →
      TickedSoFar roomId s e done t → ∀ raised u, TickOutcome cfg env r t raised u →
        TickedSoFar roomId s e (done ++ [r]) u := by
    intro done r rest t hsplit ht raised u hpass
    by_cases hr : roomId = r
    · subst hr
      -- a room has one pass only
      exact ht.pass_self (Dict.not_mem_of_keys_eq hsplit) hroom hsends hpass
    · exact ht.pass_of_ne hr hpass
  have hloop := wp_forM_done (f := tickRoom cfg env) (I := TickedSoFar roomId s e)
    (E := fun _ _ _ => RoomTicked roomId s e) (fun done r rest t hsplit ht =>
      wp_mono (tickRoom_cases cfg env r t) (fun _ u hu => hstep done r rest t hsplit ht false u hu)
        fun _ u hu => (hstep done r rest t hsplit ht true u hu).roomTicked)
    (Or.inl ⟨List.not_mem_nil, hengine, rfl, Alike.refl s⟩)
  exact wp_mono hloop (fun _ _ ht => ht.roomTicked) fun _ _ ⟨_, _, _, _, ht⟩ => ht

/-- What a forfeit does to a room: nothing, unless it ends the game. -/
theorem ForfeitOutcome.room {loser : UserId} (h : ForfeitOutcome cfg env r loser s raised t)
    (hengine : s.engines.get? roomId = some e) :
    lastState t roomId = lastState s roomId ∧
      (t.engines.get? roomId = some e ∨
        r = roomId ∧ ForfeitEnds env s roomId loser e ∧
          ∃ winner, t.engines.get? roomId = some (e.forceForfeit winner)) := by
  cases h with
  | idle | nameRaises => exact ⟨rfl, Or.inl hengine⟩
  | forfeited engine winner raised t hbefore hrunning hnames hwinner h =>
    -- what is announced is no state, and the engine was ended before it
    refine ⟨h.frame.lastState_eq, ?_⟩
    rw [h.frame.engines, Server.get?_setEngine]
    by_cases hr : roomId = r
    · subst hr
      obtain rfl : engine = e := Option.some.inj (hbefore.symm.trans hengine)
      rw [if_pos rfl]
      exact Or.inr ⟨rfl, ⟨hrunning, hnames, by rw [hwinner]; rfl⟩, winner, rfl⟩
    · rw [if_neg hr]
      exact Or.inl hengine

/-- No state has been sent, and at most one move of the room's engine requested. -/
def RoomMoved (roomId : RoomId) (startPos endPos : Position) (s : Server) (e : GameEngine)
    (t : Server) : Prop :=
  lastState t roomId = lastState s roomId ∧ (t.engines.get? roomId = some e ∨
    ∃ color, t.engines.get? roomId = some (e.tryPlayerMove color startPos endPos).1)

/-- What a command to move does to the room. -/
theorem submitMove_room (userId : UserId) (startPos endPos : Position)
    (hengine : s.engines.get? roomId = some e) :
    Effect.wp (submitMove userId startPos endPos)
      (fun _ => RoomMoved roomId startPos endPos s e)
      (fun _ => RoomMoved roomId startPos endPos s e) s := by
  have hhandle : ∀ r color, Effect.wp (handleMove r color startPos endPos)
      (fun _ => RoomMoved roomId startPos endPos s e)
      (fun _ => RoomMoved roomId startPos endPos s e) s := by
    intro r color
    unfold handleMove
    rw [wp_bind, wp_get]
    cases hkey : s.engines.get? r with
    | none => exact ⟨rfl, Or.inl hengine⟩
    | some engine =>
      dsimp only
      rw [wp_bind, wp_modify, wp_pure]
      refine ⟨rfl, ?_⟩
      rw [Server.get?_setEngine]
      by_cases hr : roomId = r
      · subst hr
        obtain rfl : engine = e := Option.some.inj (hkey.symm.trans hengine)
        rw [if_pos rfl]
        exact Or.inr ⟨color, rfl⟩
      · rw [if_neg hr]
        exact Or.inl hengine
  unfold submitMove
  rw [wp_bind, wp_get]
  split
  · exact ⟨rfl, Or.inl hengine⟩
  split
  · exact ⟨rfl, Or.inl hengine⟩
  -- the user plays in a room, which need not be this one
  next roomId' _ _ color _ =>
  refine wp_call (hhandle roomId' color) (fun _ _ h => h) (fun moved t ht => ?_)
  obtain ⟨ok, reason⟩ := moved
  dsimp only
  split
  · exact ht
  · exact ht

end Events

/-! ### Histories -/

section History

variable {cfg : Config} {s : Server} {roomId : RoomId} {pre : List (Env × Event)}
  {event : Env × Event} {e e' : GameEngine}

/-- If the run has a tick that changed the position, it is an earlier one or the last event. -/
theorem TickChanged.of_append (h : TickChanged cfg s (pre ++ [event]) roomId)
    (hbefore : (s.play cfg pre).engines.get? roomId = some e)
    (hafter : (s.play cfg (pre ++ [event])).engines.get? roomId = some e') :
    TickChanged cfg s pre roomId ∨ event.2 = .tickAll ∧ ¬ SamePosition e e' := by
  obtain ⟨before, env, after, e₁, e₂, hsplit, he₁, he₂, hchanged⟩ := h
  obtain ⟨after', hpre⟩ | ⟨rfl, rfl⟩ := split_append_singleton hsplit
  · exact Or.inl ⟨before, env, after', e₁, e₂, hpre, he₁, he₂, hchanged⟩
  · obtain rfl : e₁ = e := Option.some.inj (he₁.symm.trans hbefore)
    obtain rfl : e₂ = e' := Option.some.inj (he₂.symm.trans hafter)
    exact Or.inr ⟨rfl, hchanged⟩

theorem LandedInFlight.hasActiveMotion (h : LandedInFlight cfg s pre roomId)
    (hengine : (s.play cfg pre).engines.get? roomId = some e) : e.hasActiveMotion = true := by
  obtain ⟨before, env, after, e₁, e₂, rfl, -, -, -, hflight⟩ := h
  exact hflight after [] e (List.append_nil _).symm hengine

/-- A tick that moves a piece and leaves something in flight. -/
theorem LandedInFlight.last {env : Env} (hevent : event = (env, .tickAll))
    (hbefore : (s.play cfg pre).engines.get? roomId = some e)
    (hafter : (s.play cfg (pre ++ [event])).engines.get? roomId = some e')
    (hchanged : ¬ (SamePosition e e' ∧ e.scoreboard.scores = e'.scoreboard.scores))
    (hactive : e'.hasActiveMotion = true) : LandedInFlight cfg s (pre ++ [event]) roomId := by
  subst hevent
  refine ⟨pre, env, [], e, e', rfl, hbefore, hafter, hchanged, fun mid rest u hnil hu => ?_⟩
  obtain ⟨rfl, -⟩ := List.append_eq_nil_iff.mp hnil.symm
  obtain rfl : u = e' := Option.some.inj (hu.symm.trans hafter)
  exact hactive

/-- And still does after one more event that leaves something in flight. -/
theorem LandedInFlight.append (h : LandedInFlight cfg s pre roomId)
    (hafter : (s.play cfg (pre ++ [event])).engines.get? roomId = some e')
    (hactive : e'.hasActiveMotion = true) : LandedInFlight cfg s (pre ++ [event]) roomId := by
  obtain ⟨before, env, after, e₁, e₂, rfl, he₁, he₂, hchanged, hflight⟩ := h
  refine ⟨before, env, after ++ [event], e₁, e₂, by rw [List.append_assoc]; rfl, he₁, he₂,
    hchanged, fun mid rest u hsplit hu => ?_⟩
  obtain rfl | ⟨rest', last, rfl⟩ := rest.eq_nil_or_concat
  · -- the whole history
    rw [List.append_nil] at hsplit
    have hall : before ++ (env, .tickAll) :: mid = before ++ (env, .tickAll) :: after ++ [event] := by
      rw [← hsplit, List.append_assoc]
      rfl
    rw [hall] at hu
    obtain rfl : u = e' := Option.some.inj (hu.symm.trans hafter)
    exact hactive
  · -- a part of the old one
    rw [List.concat_eq_append, ← List.append_assoc] at hsplit
    exact hflight mid rest' u (List.append_inj_left' hsplit rfl) hu

/-- The invariant of a run in time: once a tick has changed the position, the room has been shown
what the engine has, or the game is running and there have been motions in flight since a piece
has landed. -/
structure Followed (cfg : Config) (s : Server) (roomId : RoomId) (pre : List (Env × Event)) :
    Prop where
  inv : RoomInv (s.play cfg pre)
  shown : ∃ e, (s.play cfg pre).engines.get? roomId = some e ∧
    (TickChanged cfg s pre roomId → Shown (s.play cfg pre) roomId e ∨
      e.gameOver = false ∧ LandedInFlight cfg s pre roomId)

/-- An event after which the last message and what it should show are the same. -/
theorem Followed.append_of_same (h : Followed cfg s roomId pre)
    (hinv : RoomInv (s.play cfg (pre ++ [event])))
    (hbefore : (s.play cfg pre).engines.get? roomId = some e)
    (hafter : (s.play cfg (pre ++ [event])).engines.get? roomId = some e')
    (hlast : lastState (s.play cfg (pre ++ [event])) roomId = lastState (s.play cfg pre) roomId)
    (hshows : ∀ m : StateMessage, m.Shows e → m.Shows e')
    (hquiet : event.2 = .tickAll → SamePosition e e')
    (hflight : LandedInFlight cfg s pre roomId → e.gameOver = false →
      e'.gameOver = false ∧ e'.hasActiveMotion = true) :
    Followed cfg s roomId (pre ++ [event]) := by
  obtain ⟨-, u, hu, hshown⟩ := h
  obtain rfl : u = e := Option.some.inj (hu.symm.trans hbefore)
  refine ⟨hinv, e', hafter, fun hchanged => ?_⟩
  -- a landing of the history before, or one of this very step
  obtain hold | ⟨htick, hmoved⟩ := hchanged.of_append hbefore hafter
  · obtain hshown | ⟨hrunning, hlanded⟩ := hshown hold
    · exact Or.inl (hshown.of_eq hlast hshows)
    · obtain ⟨hrunning', hactive⟩ := hflight hlanded hrunning
      exact Or.inr ⟨hrunning', hlanded.append hafter hactive⟩
  · exact absurd (hquiet htick) hmoved

/-- An event that leaves the engine and the last message. -/
theorem Followed.append_of_eq (h : Followed cfg s roomId pre)
    (hinv : RoomInv (s.play cfg (pre ++ [event])))
    (hbefore : (s.play cfg pre).engines.get? roomId = some e)
    (hafter : (s.play cfg (pre ++ [event])).engines.get? roomId = some e)
    (hlast : lastState (s.play cfg (pre ++ [event])) roomId = lastState (s.play cfg pre) roomId) :
    Followed cfg s roomId (pre ++ [event]) :=
  h.append_of_same hinv hbefore hafter hlast (fun _ hm => hm) (fun _ _ => Iff.rfl)
    fun hlanded hrunning => ⟨hrunning, hlanded.hasActiveMotion hbefore⟩

/-- A tick. -/
theorem Followed.tick {env : Env} (h : Followed cfg s roomId pre) (hevent : event = (env, .tickAll))
    (hinv : RoomInv (s.play cfg (pre ++ [event])))
    (hbefore : (s.play cfg pre).engines.get? roomId = some e)
    (htime : e.gameOver = false → e.TakesKing tickMs → ¬ e.Outlasts tickMs)
    (hticked : RoomTicked roomId (s.play cfg pre) e (s.play cfg (pre ++ [event]))) :
    Followed cfg s roomId (pre ++ [event]) := by
  obtain ⟨hafter, hlast⟩ | ⟨hafter, hlast⟩ := hticked
  · exact h.append_of_eq hinv hbefore hafter hlast
  by_cases hrest : Resting e
  · -- a resting engine stays as it is, and nothing is sent
    rw [GameEngine.updateGameClock_of_resting hrest] at hafter hlast
    rw [if_neg (by simp [finishedNow])] at hlast
    exact h.append_of_eq hinv hbefore hafter hlast
  unfold Resting at hrest
  push Not at hrest
  have hrunning : e.gameOver = false := Bool.eq_false_iff.mpr hrest.2
  by_cases hactive : (e.updateGameClock tickMs).hasActiveMotion = true
  · -- something is still in flight: the game runs on, and the state is not sent
    have hlong : e.Outlasts tickMs := GameEngine.outlasts_of_hasActiveMotion hrunning hactive
    have hruns : (e.updateGameClock tickMs).gameOver = false := by
      by_contra hover
      exact htime hrunning (GameEngine.takesKing_of_gameOver hrunning (by simpa using hover)) hlong
    rw [if_neg (by simp [finishedNow, hactive])] at hlast
    by_cases hsame : SamePosition e (e.updateGameClock tickMs) ∧
        e.scoreboard.scores = (e.updateGameClock tickMs).scoreboard.scores
    · refine h.append_of_same hinv hbefore hafter hlast (fun m hm => ⟨fun entry => ?_, ?_⟩)
        (fun _ => hsame.1) fun _ _ => ⟨hruns, hactive⟩
      · exact (hm.1 entry).trans (hsame.1 entry)
      · exact hm.2.trans hsame.2
    · exact ⟨hinv, _, hafter, fun _ =>
        Or.inr ⟨hruns, LandedInFlight.last hevent hbefore hafter hsame hactive⟩⟩
  · -- the last motion has landed, and the state is sent
    have hfinished : finishedNow e (e.updateGameClock tickMs) = true := by
      unfold finishedNow
      rw [Bool.eq_false_iff.mpr hactive]
      simpa using hrest.1
    rw [if_pos hfinished] at hlast
    exact ⟨hinv, _, hafter, fun _ => Or.inl ⟨_, hlast, GameEngine.snapshotState_shows _ _⟩⟩

/-- A forfeit. -/
theorem Followed.forfeit {env : Env} {r : RoomId} {loser : UserId} {raised : Bool}
    (h : Followed cfg s roomId pre) (hevent : event = (env, .forceForfeit r loser))
    (hinv : RoomInv (s.play cfg (pre ++ [event])))
    (hbefore : (s.play cfg pre).engines.get? roomId = some e)
    (htime : r = roomId → ForfeitEnds env (s.play cfg pre) roomId loser e →
      ¬ LandedInFlight cfg s pre roomId)
    (houtcome : ForfeitOutcome cfg env r loser (s.play cfg pre) raised
      (s.play cfg (pre ++ [event]))) :
    Followed cfg s roomId (pre ++ [event]) := by
  obtain ⟨hlast, hafter | ⟨hr, hends, winner, hafter⟩⟩ := houtcome.room hbefore
  · exact h.append_of_eq hinv hbefore hafter hlast
  · -- the position and the scores are those of before, only the winner is new
    refine h.append_of_same hinv hbefore hafter hlast
      (fun m hm => (GameEngine.shows_forceForfeit winner).mpr hm) (fun htick => ?_)
      fun hlanded _ => absurd hlanded (htime hr hends)
    rw [hevent] at htick
    exact absurd htick (by simp)

/-- A move. -/
theorem Followed.move {env : Env} {userId : UserId} {startPos endPos : Position}
    (h : Followed cfg s roomId pre) (hevent : event = (env, .submitMove userId startPos endPos))
    (hinv : RoomInv (s.play cfg (pre ++ [event])))
    (hbefore : (s.play cfg pre).engines.get? roomId = some e)
    (hmoved : RoomMoved roomId startPos endPos (s.play cfg pre) e (s.play cfg (pre ++ [event]))) :
    Followed cfg s roomId (pre ++ [event]) := by
  obtain ⟨hlast, hafter | ⟨color, hafter⟩⟩ := hmoved
  · exact h.append_of_eq hinv hbefore hafter hlast
  · -- the request is in the room: the squares and scores stay, whatever it starts
    refine h.append_of_same hinv hbefore hafter hlast
      (fun m hm => (GameEngine.shows_tryPlayerMove color startPos endPos).mpr hm)
      (fun htick => ?_) fun hlanded hrunning => ?_
    · rw [hevent] at htick
      exact absurd htick (by simp)
    · -- after a request the engine rests only if it did before
      have hbusy : ¬ Resting (e.tryPlayerMove color startPos endPos).1 := by
        intro hrest
        obtain hidle | hover := GameEngine.resting_of_tryPlayerMove hrest
        · exact absurd (hlanded.hasActiveMotion hbefore) (by simp [hidle])
        · exact absurd hover (by simp [hrunning])
      unfold Resting at hbusy
      push Not at hbusy
      exact ⟨Bool.eq_false_iff.mpr hbusy.2, by simpa using hbusy.1⟩

end History

/-- The three events of a running game. -/
def Event.isPlay : Event → Bool
  | .submitMove _ _ _ | .tickAll | .forceForfeit _ _ => true
  | _ => false

/-- **Step lemma.** An event in time keeps the room followed. -/
theorem Followed.step {cfg : Config} {s : Server} {roomId : RoomId} {pre : List (Env × Event)}
    {event : Env × Event} (h : Followed cfg s roomId pre) (hplay : event.2.isPlay = true)
    (htime : InTime cfg s roomId pre event) : Followed cfg s roomId (pre ++ [event]) := by
  obtain ⟨e, hbefore, -⟩ := h.shown
  have hstep := Server.play_append cfg s pre event
  have hinv : RoomInv (s.play cfg (pre ++ [event])) := by
    rw [hstep]
    exact h.inv.of_acts (Server.step_acts cfg _ event)
  obtain ⟨env, call⟩ := event
  cases call with
  | tickAll =>
    obtain ⟨hsends, hking⟩ := htime e hbefore
    obtain ⟨room, hroom⟩ := h.inv.roomed hbefore
    -- the clock passes over all rooms; this one is reached
    have hticked : RoomTicked roomId (s.play cfg pre) e (s.play cfg (pre ++ [(env, .tickAll)])) := by
      rw [hstep]
      exact wp_iff_after.mp (tickAll_room (by rw [hroom]; rfl) hbefore hsends)
    exact h.tick rfl hinv hbefore hking hticked
  | forceForfeit r loser =>
    -- however the forfeit ends, it ends in one of its outcomes
    have houtcome : ∃ raised, ForfeitOutcome cfg env r loser (s.play cfg pre) raised
        (s.play cfg (pre ++ [(env, .forceForfeit r loser)])) := by
      have hwp : Effect.wp (forceForfeit cfg env r loser)
          (fun _ t => ∃ raised, ForfeitOutcome cfg env r loser (s.play cfg pre) raised t)
          (fun _ t => ∃ raised, ForfeitOutcome cfg env r loser (s.play cfg pre) raised t)
          (s.play cfg pre) :=
        wp_mono (forceForfeit_cases cfg env r loser _)
          (fun _ _ ht => ⟨false, ht⟩) (fun _ _ ht => ⟨true, ht⟩)
      rw [hstep]
      exact wp_iff_after.mp hwp
    obtain ⟨raised, houtcome⟩ := houtcome
    exact h.forfeit rfl hinv hbefore (fun hr hends => htime hr e hbefore hends) houtcome
  | submitMove userId startPos endPos =>
    have hmoved : RoomMoved roomId startPos endPos (s.play cfg pre) e
        (s.play cfg (pre ++ [(env, .submitMove userId startPos endPos)])) := by
      have hwp := submitMove_room userId startPos endPos hbefore
      rw [hstep]
      exact wp_iff_after.mp ((wp_bind _ _).mpr hwp)
    exact h.move rfl hinv hbefore hmoved
  | _ => exact absurd hplay (by simp [Event.isPlay])

/-- **A game in time shows its end.** `past` is what happened before the game. -/
theorem finalShown_of_inTime (cfg : Config) (users : Dict UserId User)
    (games : Dict RoomId GameResult) (past events : List (Env × Event)) (roomId : RoomId)
    (hengine : ∃ e, ((Server.initial users games).play cfg past).engines.get? roomId = some e)
    (hplay : ∀ event ∈ events, event.2.isPlay = true)
    (htime : ∀ pre event post, events = pre ++ event :: post →
      InTime cfg ((Server.initial users games).play cfg past) roomId pre event) :
    FinalShown cfg ((Server.initial users games).play cfg past) events roomId := by
  have hstart : Followed cfg ((Server.initial users games).play cfg past) roomId [] := by
    obtain ⟨e, hengine⟩ := hengine
    refine ⟨RoomInv.run cfg users games past, e, hengine, fun hchanged => ?_⟩
    obtain ⟨pre, env, post, -, -, hsplit, -⟩ := hchanged
    exact absurd hsplit (by simp)
  have hsteps : ∀ pre event post, events = pre ++ event :: post → event.2.isPlay = true ∧
      InTime cfg ((Server.initial users games).play cfg past) roomId pre event :=
    fun pre event post hsplit =>
      ⟨hplay event (hsplit ▸ List.mem_append_right _ List.mem_cons_self),
        htime pre event post hsplit⟩
  have hfollowed : Followed cfg ((Server.initial users games).play cfg past) roomId events :=
    Run.history hstart (fun pre event h hok => h.step hok.1 hok.2) hsteps
  obtain ⟨-, u, hu, hshown⟩ := hfollowed
  intro e he hrest hchanged
  obtain rfl : u = e := Option.some.inj (hu.symm.trans he)
  obtain hshown | ⟨hrunning, hlanded⟩ := hshown hchanged
  · exact hshown
  · -- a running engine with motions in flight does not rest
    obtain hidle | hover := hrest
    · exact absurd (hlanded.hasActiveMotion hu) (by simp [hidle])
    · exact absurd hover (by simp [hrunning])

/-- Alice moves her rook one square, and it has one tick to go. -/
def lastTickRun : List (Env × Event) :=
  (Event.createRoom Small.alice :: .submitMove Small.alice ⟨0, 0⟩ ⟨0, 1⟩ ::
    List.replicate 19 .tickAll).map fun event => (Small.env ["wR . bK"], event)

/-- The king is taken by the last motion in flight. -/
theorem finalShown_lastTickRun :
    FinalShown Small.config (Small.start.play Small.config lastTickRun)
      [(Small.env ["wR . bK"], .tickAll)] Small.room := by
  have hsafe : ((Small.start.play Small.config lastTickRun).engines.get? Small.room).map
      (fun e => decide (e.TakesKing tickMs)) = some false := by decide +kernel
  obtain ⟨engine, hengine, hnot⟩ := Option.map_eq_some_iff.mp hsafe
  refine finalShown_of_inTime Small.config _ _ lastTickRun _ Small.room ⟨engine, hengine⟩
    (by simp [Event.isPlay]) fun pre event post hsplit => ?_
  -- the run has one tick only
  obtain ⟨rfl, hsplit⟩ | ⟨rest, rfl, hsplit⟩ := List.cons_eq_append_iff.mp hsplit
  · obtain ⟨rfl, -⟩ := List.cons.inj hsplit
    intro e he
    refine ⟨fun hraises => absurd hraises.2.2 (by simp [Small.env]), fun _ hking => ?_⟩
    rw [Server.play_nil] at he
    obtain rfl := Option.some.inj (hengine.symm.trans he)
    exact absurd hking (of_decide_eq_false hnot)
  · exact absurd hsplit (by simp)

/-- One rook takes the king while the other is on its way. -/
def unfinishedRun : List (Env × Event) :=
  (Event.submitMove Small.alice ⟨0, 0⟩ ⟨0, 1⟩ :: .submitMove Small.alice ⟨1, 0⟩ ⟨1, 3⟩ ::
    List.replicate 19 .tickAll).map fun event => (Small.env ["wR bK . .", "wR . . ."], event)

/-- The last tick of the game. -/
def lastTick : Env × Event := (Small.env ["wR bK . .", "wR . . ."], .tickAll)

/-- Alice has created a room. -/
def twoRooks : Server :=
  Small.start.play Small.config [(Small.env ["wR bK . .", "wR . . ."], .createRoom Small.alice)]

/-- The game is over with the white rook on the square of the king, and the room has been sent no
state at all. -/
theorem not_finalShown_unfinishedRun :
    lastState (twoRooks.play Small.config (unfinishedRun ++ [lastTick])) Small.room = none ∧
      ¬ FinalShown Small.config twoRooks (unfinishedRun ++ [lastTick]) Small.room := by
  -- no state was ever sent, so none shows the position, which has changed
  have hsilent : (lastState (twoRooks.play Small.config (unfinishedRun ++ [lastTick]))
      Small.room).isNone = true := by decide +kernel
  have hsilent := Option.isNone_iff_eq_none.mp hsilent
  have hbefore : ((twoRooks.play Small.config unfinishedRun).engines.get? Small.room).map
      (fun e => decide ((⟨0, 0⟩, .w, .r) ∈ e.position)) = some true := by decide +kernel
  have hafter : ((twoRooks.play Small.config (unfinishedRun ++ [lastTick])).engines.get?
      Small.room).map (fun e => (e.gameOver, decide ((⟨0, 0⟩, .w, .r) ∈ e.position))) =
        some (true, false) := by decide +kernel
  obtain ⟨before, hbefore, hstart⟩ := Option.map_eq_some_iff.mp hbefore
  obtain ⟨after, hafter, hend⟩ := Option.map_eq_some_iff.mp hafter
  obtain ⟨hover, hgone⟩ := Prod.mk.inj hend
  have hmoved : ¬ SamePosition before after := fun hsame =>
    of_decide_eq_false hgone ((hsame _).mp (of_decide_eq_true hstart))
  refine ⟨hsilent, fun hshown => ?_⟩
  obtain ⟨m, hm, -⟩ := hshown after hafter (Or.inr hover)
    ⟨unfinishedRun, _, [], before, after, rfl, hbefore, hafter, hmoved⟩
  exact absurd (hsilent.symm.trans hm) (by simp)

end KungFuChess
