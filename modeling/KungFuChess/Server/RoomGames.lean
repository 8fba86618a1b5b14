import KungFuChess.Script.ScriptGame
import KungFuChess.Server.EventRule

/-!
# The game of a room

A room has one engine, and nobody but the services calls it. Whatever happens to the server, what
they do to the engine of a room is one sequence of calls of the adapter on the board that was
parsed for the room (`Server.Plays`), and the states that are sent, to the members of the room or
to the two players of a new match, are snapshots of this one game in the order in which the game
passes through them (`states_run`). A game of the adapter is a game of the engine without jumps,
in which a move takes its distance and the clock ticks evenly, up to the forfeit that may end it
(`Board.leadsTo_serve`), so what the engine keeps over a game holds of every room.
-/

namespace KungFuChess

open Effect RoomService GameService BoardParser

/-! ### Games of the adapter -/

/-- The engine after calls of the adapter. -/
def GameEngine.serve (e : GameEngine) (calls : List EngineCall) : GameEngine :=
  calls.foldl EngineCall.apply e

/-- The adapter makes no other calls of the engine. -/
def Call.Served : Call → Prop
  | .move startPos endPos durationMs =>
    durationMs = GameEngine.chebyshevDurationMs startPos endPos ∧ 0 < durationMs
  | .jump _ => False
  | .tick ms => ms = tickMs

/-- The engine has come from the board by calls that the adapter makes, and perhaps a forfeit. -/
def Board.LeadsTo (board : Board) (e : GameEngine) : Prop :=
  ∃ served : List Call, (∀ c ∈ served, c.Served) ∧
    (e = (GameEngine.new board).play served ∨
      ∃ winner, ((GameEngine.new board).play served).gameOver = false ∧
        e = ((GameEngine.new board).play served).forceForfeit winner)

section Adapter

variable {board : Board} {e : GameEngine}

/-- A move to another square takes time. -/
theorem chebyshevDurationMs_pos {startPos endPos : Position} (h : startPos ≠ endPos) :
    0 < GameEngine.chebyshevDurationMs startPos endPos := by
  have hdistance : 0 < max |endPos.row - startPos.row| |endPos.col - startPos.col| := by
    rw [lt_max_iff, abs_pos, abs_pos, sub_ne_zero, sub_ne_zero]
    by_contra hnot
    push Not at hnot
    obtain ⟨row, col⟩ := startPos
    obtain ⟨row', col'⟩ := endPos
    obtain ⟨rfl, rfl⟩ : row' = row ∧ col' = col := hnot
    exact h rfl
  unfold GameEngine.chebyshevDurationMs GameEngine.msPerCell
  omega

/-- A request that is accepted is that of the engine, and leads to another square. -/
theorem GameEngine.tryPlayerMove_accepted {color : Color} {startPos endPos : Position}
    (h : (e.tryPlayerMove color startPos endPos).2.1 = true) :
    startPos ≠ endPos ∧ (e.tryPlayerMove color startPos endPos).1 =
      e.call (.move startPos endPos (chebyshevDurationMs startPos endPos)) := by
  -- of the refusals none was met, and the rules accept no move to the same square
  unfold tryPlayerMove at h ⊢
  split at h
  · cases h
  next hrunning =>
  rw [if_neg hrunning]
  split at h
  · cases h
  next ref hpiece =>
  split at h
  · cases h
  next hcolor =>
  rw [if_neg hcolor]
  dsimp only at h ⊢
  split at h
  · next haccepted =>
    rw [if_pos haccepted]
    refine ⟨?_, rfl⟩
    unfold handleMoveRequest at haccepted
    split at haccepted
    · cases haccepted
    split at haccepted
    · next hlegal => exact RuleEngine.ne_of_isMoveLegal hlegal
    · cases haccepted
  · cases h

/-- A call of the adapter does nothing, or is a call of the engine, or ends the game. -/
theorem EngineCall.apply_cases (call : EngineCall) (e : GameEngine) :
    call.apply e = e ∨ (∃ c : Call, c.Served ∧ call.apply e = e.call c) ∨
      ∃ winner, e.gameOver = false ∧ call.apply e = e.forceForfeit winner := by
  cases call with
  | move color startPos endPos =>
    -- a refused request changes nothing, an accepted one is a call that takes its time
    cases hok : (e.tryPlayerMove color startPos endPos).2.1 with
    | false => exact Or.inl (GameEngine.tryPlayerMove_refused hok)
    | true =>
      obtain ⟨hne, hcall⟩ := GameEngine.tryPlayerMove_accepted hok
      have hserved : Call.Served
          (.move startPos endPos (GameEngine.chebyshevDurationMs startPos endPos)) :=
        ⟨rfl, chebyshevDurationMs_pos hne⟩
      exact Or.inr (Or.inl ⟨_, hserved, hcall⟩)
  | tick => exact Or.inr (Or.inl ⟨.tick tickMs, rfl, rfl⟩)
  | forfeit winner =>
    -- a forfeit of a game that is over changes nothing
    cases hover : e.gameOver with
    | true => exact Or.inl (EngineCall.apply_of_gameOver hover _)
    | false => exact Or.inr (Or.inr ⟨winner, rfl, rfl⟩)

theorem Board.leadsTo_new (board : Board) : board.LeadsTo (GameEngine.new board) :=
  ⟨[], fun _ hc => absurd hc List.not_mem_nil, Or.inl rfl⟩

/-- **One call.** -/
theorem Board.LeadsTo.apply (h : board.LeadsTo e) (call : EngineCall) :
    board.LeadsTo (call.apply e) := by
  obtain ⟨served, hserved, hplayed | ⟨winner, hrunning, hforfeit⟩⟩ := h
  · -- a call of the engine lengthens the game, a forfeit closes it
    obtain hsame | ⟨c, hc, hcall⟩ | ⟨winner, hrunning, hforfeit⟩ := call.apply_cases e
    · rw [hsame]
      exact ⟨served, hserved, Or.inl hplayed⟩
    · refine ⟨served ++ [c], fun c' hc' => ?_, Or.inl ?_⟩
      · obtain hc' | hc' := List.mem_append.mp hc'
        · exact hserved c' hc'
        · rw [List.mem_singleton.mp hc']
          exact hc
      · rw [hcall, hplayed, GameEngine.play, GameEngine.play, List.foldl_append]
        rfl
    · rw [hplayed] at hrunning hforfeit
      exact ⟨served, hserved, Or.inr ⟨winner, hrunning, hplayed ▸ hforfeit⟩⟩
  · -- the game is over
    have hover : e.gameOver = true := hforfeit ▸ gameOver_forceForfeit _ winner
    rw [EngineCall.apply_of_gameOver hover]
    exact ⟨served, hserved, Or.inr ⟨winner, hrunning, hforfeit⟩⟩

/-- **A game of the adapter is a game of the engine**, up to the forfeit that may end it. -/
theorem Board.leadsTo_serve (board : Board) (calls : List EngineCall) :
    board.LeadsTo ((GameEngine.new board).serve calls) :=
  Run.stable (P := board.LeadsTo) (fun _ call ht => ht.apply call) board.leadsTo_new

@[simp] theorem GameEngine.board_forceForfeit (e : GameEngine) (winner : Color) :
    (e.forceForfeit winner).board = e.board := by
  unfold forceForfeit
  split <;> rfl

/-- The pieces of the game are those of the board. -/
theorem Board.LeadsTo.comesFrom (h : board.LeadsTo e) (hboard : Parsed board) :
    ComesFrom board e.board := by
  obtain ⟨served, -, hplayed | ⟨winner, -, hforfeit⟩⟩ := h
  · rw [hplayed]
    exact comesFrom_play hboard served
  · rw [hforfeit, GameEngine.board_forceForfeit]
    exact comesFrom_play hboard served

/-- A game that is over stays as it is. -/
theorem GameEngine.serve_of_gameOver (h : e.gameOver = true) (calls : List EngineCall) :
    e.serve calls = e :=
  Run.stable (P := fun t => t = e)
    (fun _ call ht => by rw [ht]; exact EngineCall.apply_of_gameOver h call) rfl

end Adapter

/-! ### The states that are sent -/

/-- The state of the room, if the message carries it. -/
def Message.stateOf? (roomId : RoomId) : Message → Option StateMessage
  | .state snapshot => if snapshot.roomId = roomId then some snapshot else none
  | _ => none

/-- The states of the room that have been sent to anybody, the oldest first. -/
def Server.statesOf (s : Server) (roomId : RoomId) : List StateMessage :=
  s.outbox.filterMap fun m => m.message.stateOf? roomId

/-- **The room plays a game on the board**: these are all calls of its engine, and the states of
the room that have been sent are its snapshots after some of the first calls, in order. -/
structure Server.Plays (s : Server) (roomId : RoomId) (board : Board) (calls : List EngineCall)
    (shown : List (List EngineCall)) : Prop where
  engine : s.engines.get? roomId = some ((GameEngine.new board).serve calls)
  prefixes : ∀ before ∈ shown, before <+: calls
  ordered : shown.Pairwise (· <+: ·)
  states : s.statesOf roomId =
    shown.map fun before => ((GameEngine.new board).serve before).snapshotState roomId

/-- The room has no engine and nothing has been said of it, or it plays a game. -/
def Server.OneGame (s : Server) (roomId : RoomId) : Prop :=
  (s.engines.get? roomId = none ∧ s.statesOf roomId = []) ∨
    ∃ lines board calls shown, parseInitialBoard lines = .ok board ∧
      s.Plays roomId board calls shown

section States

variable {s t : Server} {roomId : RoomId} {cfg : Config} {env : Env}

/-- The states come in the order of sending. -/
theorem statesOf_append {sent : List Outgoing} (h : t.outbox = s.outbox ++ sent) :
    t.statesOf roomId =
      s.statesOf roomId ++ sent.filterMap fun m => m.message.stateOf? roomId := by
  unfold Server.statesOf
  rw [h, List.filterMap_append]

/-- Nothing that concerns the game of the room. -/
theorem Server.OneGame.of_eq (h : s.OneGame roomId)
    (hengine : t.engines.get? roomId = s.engines.get? roomId) {sent : List Outgoing}
    (hsent : t.outbox = s.outbox ++ sent) (hother : ∀ m ∈ sent, m.message.stateOf? roomId = none) :
    t.OneGame roomId := by
  have hstates : t.statesOf roomId = s.statesOf roomId := by
    rw [statesOf_append hsent, List.filterMap_eq_nil_iff.mpr hother, List.append_nil]
  obtain ⟨hnone, hsilent⟩ | ⟨lines, board, calls, shown, hparse, hplays⟩ := h
  · exact Or.inl ⟨hengine.trans hnone, hstates.trans hsilent⟩
  · exact Or.inr ⟨lines, board, calls, shown, hparse, hengine.trans hplays.engine,
      hplays.prefixes, hplays.ordered, hstates.trans hplays.states⟩

/-- Nothing was sent. -/
theorem Server.OneGame.of_outbox_eq (h : s.OneGame roomId)
    (hengine : t.engines.get? roomId = s.engines.get? roomId) (houtbox : t.outbox = s.outbox) :
    t.OneGame roomId := by
  have hsent : t.outbox = s.outbox ++ [] := by rw [houtbox, List.append_nil]
  exact h.of_eq hengine hsent fun _ hm => absurd hm List.not_mem_nil

/-- One call of the engine. -/
theorem Server.OneGame.call (h : s.OneGame roomId) {e : GameEngine}
    (he : s.engines.get? roomId = some e) (call : EngineCall) :
    (s.setEngine roomId (call.apply e)).OneGame roomId := by
  obtain ⟨hnone, -⟩ | ⟨lines, board, calls, shown, hparse, hplays⟩ := h
  · exact absurd (hnone.symm.trans he) nofun
  · obtain rfl := Option.some.inj (he.symm.trans hplays.engine)
    refine Or.inr ⟨lines, board, calls ++ [call], shown, hparse, ?_, ?_, hplays.ordered,
      hplays.states⟩
    · rw [Server.get?_setEngine, if_pos rfl, GameEngine.serve, GameEngine.serve, List.foldl_append]
      rfl
    · exact fun before hbefore => (hplays.prefixes before hbefore).trans (List.prefix_append _ _)

/-- The state of the room is sent. -/
theorem Server.OneGame.sent (h : s.OneGame roomId) {e : GameEngine}
    (he : s.engines.get? roomId = some e) (r? : Option RoomId) (recipients : List UserId) :
    (s.send r? recipients (.state (e.snapshotState roomId))).OneGame roomId := by
  -- without an engine there is no state; with one the new state shows the game as it stands
  obtain ⟨hnone, -⟩ | ⟨lines, board, calls, shown, hparse, hplays⟩ := h
  · exact absurd (hnone.symm.trans he) nofun
  · obtain rfl := Option.some.inj (he.symm.trans hplays.engine)
    refine Or.inr ⟨lines, board, calls, shown ++ [calls], hparse, hplays.engine, ?_, ?_, ?_⟩
    · intro before hbefore
      obtain hbefore | hbefore := List.mem_append.mp hbefore
      · exact hplays.prefixes before hbefore
      · obtain rfl := List.mem_singleton.mp hbefore
        exact List.prefix_rfl
    · refine List.pairwise_append.mpr ⟨hplays.ordered, List.pairwise_singleton _ _, ?_⟩
      intro before hbefore last hlast
      rw [List.mem_singleton.mp hlast]
      exact hplays.prefixes before hbefore
    · have hstate : Message.stateOf? roomId
          (.state (((GameEngine.new board).serve calls).snapshotState roomId)) =
          some (((GameEngine.new board).serve calls).snapshotState roomId) := if_pos rfl
      rw [statesOf_append (s := s) rfl, hplays.states, List.map_append, List.filterMap_cons,
        hstate]
      rfl

/-- A plain action. -/
theorem Server.OneGame.apply (h : s.OneGame roomId) {a : Action} (hplain : a.Plain)
    (ha : a.Enabled s) : (a.apply s).OneGame roomId := by
  cases a with
  | createEngine r board =>
    -- a new engine starts a game where there was none
    obtain ⟨hnone, -, lines, hparse⟩ := ha
    by_cases hr : r = roomId
    · subst hr
      obtain ⟨-, hsilent⟩ | ⟨lines', board', calls, shown, -, hplays⟩ := h
      · refine Or.inr ⟨lines, board, [], [], hparse, ?_, ?_, .nil, hsilent⟩
        · exact (Server.get?_setEngine ..).trans (if_pos rfl)
        · exact fun _ hbefore => absurd hbefore List.not_mem_nil
      · exact absurd (hnone.symm.trans hplays.engine) nofun
    · refine h.of_outbox_eq ?_ rfl
      exact (Server.get?_setEngine ..).trans (if_neg (Ne.symm hr))
  | engine r before call =>
    by_cases hr : r = roomId
    · subst hr
      exact h.call ha call
    · refine h.of_outbox_eq ?_ rfl
      exact (Server.get?_setEngine ..).trans (if_neg (Ne.symm hr))
  | aside | setElo | markElo => exact absurd hplain id
  | _ => exact h.of_outbox_eq rfl rfl

/-- A message about something else. -/
theorem Server.OneGame.passing (h : s.OneGame roomId) (r? : Option RoomId)
    (recipients : List UserId) {message : Message} (hother : message.stateOf? roomId = none) :
    (s.send r? recipients message).OneGame roomId := by
  refine h.of_eq rfl rfl fun m hm => ?_
  rw [List.mem_singleton.mp hm]
  exact hother

/-- **The rule holds of all events**: what is sent of the room shows its engine. -/
theorem oneGame_rule (cfg : Config) (env : Env) (event : Event) (roomId : RoomId) :
    EventRule cfg env event fun s => s.OneGame roomId where
  act := fun a s hplain _ ha hs => hs.apply hplain ha
  note := fun s _ _ hs => hs.of_outbox_eq rfl rfl
  passing := fun s recipients message r? hpassing hs => by
    refine hs.passing r? recipients ?_
    cases message with
    | state | gameOver => exact absurd hpassing id
    | _ => rfl
  state := fun s recipients r e r? he hs => by
    by_cases hr : r = roomId
    · subst hr
      exact hs.sent he r? recipients
    · exact hs.passing r? recipients (if_neg hr)
  result := fun s r e he hover hs => by
    have hkept : ∀ {raised t}, EloAttempt cfg env r e s raised t → t.OneGame roomId := by
      intro raised t h
      obtain ⟨sent, hsent, hresult⟩ := h.frame.sent
      refine hs.of_eq (by rw [h.frame.engines]) hsent fun m hm => ?_
      obtain ⟨winner, ratings, hmessage⟩ := hresult m hm
      rw [hmessage]
      rfl
    exact wp_mono (applyElo_cases cfg env r e s) (fun _ _ h => hkept h) fun _ _ h => hkept h

end States

end KungFuChess
