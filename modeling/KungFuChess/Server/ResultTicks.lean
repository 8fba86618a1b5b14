import KungFuChess.Engine.Resume
import KungFuChess.Server.Iteration
import KungFuChess.Server.Results
import KungFuChess.Server.RoomGames

/-!
# Every game gets its result

A result is applied by whatever ends the game, and if that does not come through, by every later
tick. So a tick that returns settles all rooms: the result of each game that has ended
and whose two players are known is stored and told by then, however often it could not be before
(`resultTold_tick`). A game that has ended has a winner, since it is a game of the engine.
-/

namespace KungFuChess

open Effect RoomService GameService

/-- If the game of the room has ended and both players are known, the result is applied. -/
def ResultApplied (s : Server) (roomId : RoomId) : Prop :=
  ∀ e, s.engines.get? roomId = some e → e.gameOver = true → e.winner.isSome = true →
    (s.playersOf roomId).both.isSome = true → isEloUpdated s roomId = true

section Passes

variable {cfg : Config} {env : Env} {s t : Server} {roomId r : RoomId} {e : GameEngine}
  {raised : Bool}

/-- An attempt that comes through. -/
theorem EloAttempt.resultApplied (h : EloAttempt cfg env roomId e s raised t) (hquiet : raised = false)
    (hengine : s.engines.get? roomId = some e) : ResultApplied t roomId := by
  intro e' he' hover hwinner hknown
  obtain rfl : e = e' := Option.some.inj (hengine.symm.trans (h.frame.engines ▸ he'))
  cases h with
  | idle h =>
    obtain hmarked | hnone | ⟨-, hunknown⟩ := h
    · exact hmarked
    · rw [hnone] at hwinner
      cases hwinner
    · rw [hunknown] at hknown
      cases hknown
  | nameRaises | ratingRaises | whiteRaises | blackRaises => cases hquiet
  | applied whiteId blackId new t hdue _ _ hannounced =>
    obtain ⟨-, white, black, -, hrated, -⟩ := hdue.rated
    obtain ⟨room, hroom⟩ := Option.isSome_iff_exists.mp hrated.room
    -- the mark is set before the result is told
    have hrooms : t.rooms.get? roomId =
        (s.afterRatings roomId whiteId blackId new).rooms.get? roomId := by rw [hannounced.same]
    unfold isEloUpdated
    rw [hrooms, Server.afterRatings, Server.get?_modifyRoom, if_pos rfl]
    change ((s.rooms.get? roomId).map _).any _ = true
    rw [hroom]
    rfl

/-- A pass over the room itself that comes through. -/
theorem TickOutcome.resultApplied (h : TickOutcome cfg env roomId s raised t) (hquiet : raised = false) :
    ResultApplied t roomId := by
  cases h with
  | absent hnone => exact fun e he => absurd (he.symm.trans hnone) (Option.some_ne_none e)
  | broadcastRaises => cases hquiet
  | ticked e he _ h =>
    intro e' he' hover _ _
    -- the pass has come through, so a result that was due is marked
    rw [get?_afterTick, if_pos rfl] at he'
    obtain rfl := Option.some.inj he'
    obtain hrunning | hmarked := h
    · exact absurd (hrunning.symm.trans hover) Bool.false_ne_true
    · exact hmarked
  | attempted e raised t he _ _ h =>
    refine h.resultApplied hquiet ?_
    rw [get?_afterTick, if_pos rfl]

/-- A pass over another room. -/
theorem TickOutcome.resultApplied_of_ne (h : TickOutcome cfg env r s raised t) (hne : roomId ≠ r)
    (hs : ResultApplied s roomId) : ResultApplied t roomId := by
  intro e he hover hwinner hknown
  rw [h.engines_of_ne hne] at he
  rw [(h.alike hne).playersOf] at hknown
  exact (h.alike hne).marked.trans (hs e he hover hwinner hknown)

/-- A tick makes no engine. -/
theorem TickOutcome.engines_of_none (h : TickOutcome cfg env r s raised t)
    (hnone : s.engines.get? roomId = none) : t.engines.get? roomId = none := by
  by_cases hr : roomId = r
  · subst hr
    cases h with
    | absent => exact hnone
    | broadcastRaises e he | ticked e he | attempted e _ _ he =>
      exact absurd (he.symm.trans hnone) (Option.some_ne_none e)
  · exact (h.engines_of_ne hr).trans hnone

/-- **A tick that comes through settles every room.** -/
theorem tickAll_resultApplied (roomId : RoomId) :
    wp (tickAll cfg env) (fun _ t => ResultApplied t roomId) (fun _ _ => True) s := by
  unfold tickAll
  rw [wp_bind, wp_get]
  have hloop := wp_forM_done (f := tickRoom cfg env) (l := s.engines.keys) (s := s)
    (I := fun done t => (roomId ∈ done → ResultApplied t roomId) ∧
      (s.engines.get? roomId = none → t.engines.get? roomId = none))
    (E := fun _ _ _ _ => True)
    (fun done r rest t _ ⟨hdone, hnone⟩ => wp_mono (tickRoom_cases cfg env r t)
      (fun _ u hu => ⟨fun hmem => ?_, fun h => hu.engines_of_none (hnone h)⟩) fun _ _ _ => trivial)
    ⟨fun hmem => absurd hmem List.not_mem_nil, fun h => h⟩
  · -- a room is settled by its own pass and stays so in the passes after it
    refine wp_mono hloop (fun _ t ⟨happlied, hnone⟩ => ?_) fun _ _ _ => trivial
    by_cases hmem : roomId ∈ s.engines.keys
    · exact happlied hmem
    · -- a room without an engine has had no pass
      have habsent := hnone (Dict.get?_eq_none_iff.mpr hmem)
      exact fun e he => absurd (he.symm.trans habsent) (Option.some_ne_none e)
  · obtain hmem | hmem := List.mem_append.mp hmem
    · by_cases hr : roomId = r
      · exact hr ▸ hu.resultApplied rfl
      · exact hu.resultApplied_of_ne hr (hdone hmem)
    · exact List.mem_singleton.mp hmem ▸ hu.resultApplied rfl

end Passes

/-! ### The winner -/

/-- A game of the adapter that has ended has a winner. -/
theorem Board.LeadsTo.winner_isSome {board : Board} {e : GameEngine} (h : board.LeadsTo e)
    (hparsed : Parsed board) (hover : e.gameOver = true) : e.winner.isSome = true := by
  obtain ⟨served, -, rfl | ⟨winner, hrunning, rfl⟩⟩ := h
  · exact (winner_isSome_play hparsed served).trans hover
  · unfold GameEngine.forceForfeit
    rw [if_neg (by rw [hrunning]; exact Bool.false_ne_true)]
    rfl

/-- So the game of a room that has ended has a winner. -/
theorem Server.OneGame.winner_isSome {s : Server} {roomId : RoomId} {e : GameEngine}
    (h : s.OneGame roomId) (he : s.engines.get? roomId = some e) (hover : e.gameOver = true) :
    e.winner.isSome = true := by
  obtain ⟨hnone, -⟩ | ⟨lines, board, calls, shown, hparse, hplays⟩ := h
  · exact absurd (he.symm.trans hnone) (Option.some_ne_none e)
  · obtain rfl := Option.some.inj (he.symm.trans hplays.engine)
    exact (board.leadsTo_serve calls).winner_isSome (Parsed.of_parseInitialBoard hparse) hover

/-! ### The run -/

/-- **Every game gets its result.** After a run in which the room is not opened again and no
broadcast of its result raises, and a tick that returns: if the game of the room has ended and both
players are known, its result has been told exactly once, to both of them and as it is stored. -/
theorem resultTold_tick (cfg : Config) (users : Dict UserId User) (games : Dict RoomId GameResult)
    (roomId : RoomId) (events : List (Env × Event)) (env : Env) (e : GameEngine)
    (hopened : Run.Guarded (Server.step cfg) (fun s event _ => ¬ Reopens s roomId event)
      (Server.initial users games) events)
    (hheard : ∀ event ∈ events ++ [(env, .tickAll)],
      event.1.raises (.broadcastGameOver roomId) = false)
    (hreturns : returns (tickAll cfg env) ((Server.initial users games).play cfg events) = true)
    (he : ((Server.initial users games).play cfg (events ++ [(env, .tickAll)])).engines.get? roomId =
      some e)
    (hover : e.gameOver = true)
    (hknown : (((Server.initial users games).play cfg
      (events ++ [(env, .tickAll)])).playersOf roomId).both.isSome = true) :
    ∃ m winner whiteId blackId new,
      resultsOf ((Server.initial users games).play cfg (events ++ [(env, .tickAll)])) roomId = [m] ∧
        ResultStored ((Server.initial users games).play cfg (events ++ [(env, .tickAll)])) roomId m
          winner whiteId blackId new := by
  -- at most one result so far, and whoever is marked has been told
  have hinv : ResultInv True roomId
      ((Server.initial users games).play cfg (events ++ [(env, .tickAll)])) := by
    refine ResultInv.run users games ?_ fun _ => hheard
    exact (Run.guarded_append _ _ _).mpr
      ⟨hopened, not_reopens fun _ => Event.noConfusion, trivial⟩
  -- the engine that ended has a winner
  have hgame : ((Server.initial users games).play cfg
      (events ++ [(env, .tickAll)])).OneGame roomId :=
    EventRule.play (fun env event => oneGame_rule cfg env event roomId) (Or.inl ⟨rfl, rfl⟩) _
  -- the pass came through, so the result is applied by now
  have happlied : ResultApplied ((Server.initial users games).play cfg (events ++ [(env, .tickAll)]))
      roomId := by
    rw [Server.play_append]
    exact after_of_returns (tickAll_resultApplied roomId) hreturns
  have hmarked := happlied e he hover (hgame.winner_isSome he hover) hknown
  exact hinv.once.resolve_left (hinv.told trivial hmarked)

/-! ### A concrete run -/

/-- Bob forfeits while no rating can be written. -/
def unwrittenRun : List (Env × Event) := pairedRun ++ [(storeDown, .forceForfeit Small.room Small.bob)]

/-- Nothing can be written when the game ends, and the next tick settles it. -/
theorem resultTold_tick_unwrittenRun :
    resultsOf (Small.start.play Small.config unwrittenRun) Small.room = [] ∧
      ∃ m winner whiteId blackId new,
        resultsOf (Small.start.play Small.config (unwrittenRun ++ [(Small.env ["wR bK"], .tickAll)]))
            Small.room = [m] ∧
          ResultStored
            (Small.start.play Small.config (unwrittenRun ++ [(Small.env ["wR bK"], .tickAll)]))
            Small.room m winner whiteId blackId new := by
  have hfirst : ¬ Reopens Small.start Small.room (Small.env ["wR bK"], .createRoom Small.alice) :=
    not_reopens_of_absent rfl
  obtain ⟨e, he, hover⟩ : ∃ e, (Small.start.play Small.config (unwrittenRun ++
      [(Small.env ["wR bK"], .tickAll)])).engines.get? Small.room = some e ∧ e.gameOver = true :=
    ⟨_, rfl, rfl⟩
  refine ⟨by decide +kernel, resultTold_tick Small.config _ _ Small.room unwrittenRun _ e
    ⟨hfirst, not_reopens fun _ => Event.noConfusion, not_reopens fun _ => Event.noConfusion, trivial⟩
    (fun event hevent => ?_) (by decide +kernel) he hover (by decide +kernel)⟩
  simp only [unwrittenRun, pairedRun, List.map_cons, List.map_nil, List.cons_append,
    List.nil_append, List.mem_cons, List.not_mem_nil, or_false] at hevent
  obtain rfl | rfl | rfl | rfl := hevent <;> rfl

end KungFuChess
