import KungFuChess.Engine.GridBounds
import KungFuChess.Engine.Mirror

/-!
# The engine treats the colours alike

Two games are run side by side: one on a board, the other on its mirror image, with the
mirror image of every call. `GameEngine.Mirrors` relates their states: the boards with the
statuses and the types of the pieces, the motions in flight, the scores the other way
round, the end of the game and the other winner. The identifiers of the pieces and the
texts of the moves are not compared.

The relation is kept by each write of the engine, hence by a landing (`Mirrors.land`), by a
call (`Mirrors.call`) and by a game (`mirrors_play`), and two related engines give the same
answer to a request (`Mirrors.answer`).
-/

namespace KungFuChess

open GameEngine RealTimeArbiter

/-- The mirror image of a call. -/
def Call.mirror (rows : Nat) : Call → Call
  | .move startPos endPos durationMs =>
    .move (startPos.mirror rows) (endPos.mirror rows) durationMs
  | .jump position => .jump (position.mirror rows)
  | .tick ms => .tick ms

namespace GameEngine

/-- The answer of a request; a tick has none. -/
def answer (e : GameEngine) : Call → Option Bool
  | .move startPos endPos durationMs => some (e.handleMoveRequest startPos endPos durationMs).2
  | .jump position => some (e.handleJumpRequest position).2
  | .tick _ => none

/-- The second engine is the mirror image of the first, on boards of as many rows. -/
structure Mirrors (rows : Nat) (e e' : GameEngine) : Prop where
  board : e.board.Mirrors rows e'.board
  activeMotions : e'.arbiter.activeMotions = e.arbiter.activeMotions.map (Motion.mirror rows)
  motionCounter : e'.arbiter.motionCounter = e.arbiter.motionCounter
  scores : e'.scoreboard.scores = e.scoreboard.scores.swap
  gameOver : e'.gameOver = e.gameOver
  winner : e'.winner = e.winner.map Color.swap

end GameEngine

/-! ### Writes of the board -/

namespace Board.Mirrors

variable {rows : Nat} {board board' : Board}

/-- Corresponding squares are written with images. -/
theorem setPiece (h : board.Mirrors rows board') (p : Position) (occupant : Option PieceRef) :
    (board.setPiece p occupant).Mirrors rows
      (board'.setPiece (p.mirror rows) (occupant.map (PieceRef.mirror rows))) := by
  have hsize : ∀ (b : Board) (p : Position) (o : Option PieceRef),
      (b.setPiece p o).numRows = b.numRows ∧ (b.setPiece p o).numCols = b.numCols :=
    fun b p o => Prod.mk.inj (Board.size_setPiece b p o)
  refine ⟨?_, ?_, ?_, fun p' => ?_, fun ref => ?_⟩
  · rw [(hsize _ _ _).1, h.numRows]
  · rw [(hsize _ _ _).1, h.numRows']
  · rw [(hsize _ _ _).2, (hsize _ _ _).2, h.numCols]
  · -- a square is the one written exactly when its image is
    rw [Board.getPiece_setPiece, Board.getPiece_setPiece, h.getPiece]
    by_cases heq : p' = p
    · rw [if_pos heq, if_pos (congrArg _ heq)]
    · rw [if_neg heq, if_neg (mt Position.mirror_inj.mp heq)]
  · rw [Board.piece_setPiece, Board.piece_setPiece]
    exact h.piece ref

/-- Pieces that are images of each other are rewritten alike. -/
theorem modifyPiece (h : board.Mirrors rows board') (ref : PieceRef) {f f' : Piece → Piece}
    (hf : ∀ {a a'}, a.Mirrors a' → (f a).Mirrors (f' a')) :
    (board.modifyPiece ref f).Mirrors rows (board'.modifyPiece (ref.mirror rows) f') := by
  refine ⟨h.numRows, h.numRows', h.numCols, h.getPiece, fun ref' => ?_⟩
  dsimp only [Board.modifyPiece]
  by_cases heq : ref' = ref
  · rw [heq, Function.update_self, Function.update_self]
    exact hf (h.piece ref)
  · rw [Function.update_of_ne heq, Function.update_of_ne (mt PieceRef.mirror_inj.mp heq)]
    exact h.piece ref'

theorem setStatus (h : board.Mirrors rows board') (ref : PieceRef) (status : PieceStatus) :
    (board.setStatus ref status).Mirrors rows (board'.setStatus (ref.mirror rows) status) :=
  h.modifyPiece ref fun ha => ⟨ha.color, ha.pieceType, rfl⟩

end Board.Mirrors

/-! ### Landings -/

namespace GameEngine.Mirrors

variable {rows : Nat} {e e' : GameEngine}

/-- Writing both boards alike keeps the engines related. -/
theorem withBoard (h : e.Mirrors rows e') {board board' : Board} (hboard : board.Mirrors rows board') :
    ({ e with board := board } : GameEngine).Mirrors rows { e' with board := board' } :=
  ⟨hboard, h.activeMotions, h.motionCounter, h.scores, h.gameOver, h.winner⟩

theorem setStatus (h : e.Mirrors rows e') (ref : PieceRef) (status : PieceStatus) :
    (e.setStatus ref status).Mirrors rows (e'.setStatus (ref.mirror rows) status) :=
  h.withBoard (h.board.setStatus ref status)

/-- The start square is emptied on both boards or on neither. -/
theorem leaveStart (h : e.Mirrors rows e') (m : Motion) :
    (e.leaveStart m).Mirrors rows (e'.leaveStart (m.mirror rows)) := by
  -- whether the mover still stands there decides, here and there
  have hstart : e'.board.getPiece (m.mirror rows).startPos = some (m.mirror rows).piece ↔
      e.board.getPiece m.startPos = some m.piece := h.board.getPiece_eq_some_iff _ _
  unfold GameEngine.leaveStart
  by_cases hstands : e.board.getPiece m.startPos = some m.piece
  · rw [if_pos hstands, if_pos (hstart.mpr hstands)]
    exact h.withBoard (h.board.setPiece m.startPos none)
  · rw [if_neg hstands, if_neg (mt hstart.mp hstands)]
    exact h

/-- The points go to the other player. -/
theorem scores_addCapturePoints {s s' : Scoreboard} (h : s'.scores = s.scores.swap) (color : Color)
    (pieceType : PieceType) :
    (s'.addCapturePoints color.swap pieceType).scores =
      (s.addCapturePoints color pieceType).scores.swap := by
  obtain ⟨h1, h2⟩ := Prod.mk.inj h
  cases color
  · exact Prod.ext h1 (congrArg (· + pieceValues pieceType) h2)
  · exact Prod.ext (congrArg (· + pieceValues pieceType) h1) h2

/-- A capture counts for the other colour, and ends both games or neither. -/
theorem scoreCapture (h : e.Mirrors rows e') (capturer captured : PieceRef) :
    (e.scoreCapture capturer captured).Mirrors rows
      (e'.scoreCapture (capturer.mirror rows) (captured.mirror rows)) := by
  have hscores := scores_addCapturePoints h.scores (e.piece capturer).color
    (e.piece captured).pieceType
  unfold GameEngine.scoreCapture
  rw [(h.board.piece capturer).color, (h.board.piece captured).pieceType]
  -- only a king ends the game
  by_cases hking : (e.piece captured).pieceType = .k
  · rw [if_pos hking, if_pos hking]
    exact ⟨h.board, h.activeMotions, h.motionCounter, hscores, rfl, rfl⟩
  · rw [if_neg hking, if_neg hking]
    exact ⟨h.board, h.activeMotions, h.motionCounter, hscores, h.gameOver, h.winner⟩

theorem capturedByJumper (h : e.Mirrors rows e') (m : Motion) (jumper : PieceRef) :
    (e.capturedByJumper m jumper).Mirrors rows
      (e'.capturedByJumper (m.mirror rows) (jumper.mirror rows)) :=
  ((h.setStatus m.piece .captured).scoreCapture jumper m.piece).leaveStart m

/-- An idle target is taken in both games. -/
theorem captureTarget (h : e.Mirrors rows e') (m : Motion) (target : PieceRef) :
    (e.captureTarget m target).Mirrors rows
      (e'.captureTarget (m.mirror rows) (target.mirror rows)) := by
  have hscored := (h.setStatus target .captured).scoreCapture m.piece target
  exact hscored.withBoard (hscored.board.setPiece m.endPos none)

/-- The last row of one side is the first row of the other. -/
theorem promotionRow_swap (h : e.Mirrors rows e') (p : Position) (color : Color) :
    (p.mirror rows).row = promotionRow e'.board color.swap ↔
      p.row = promotionRow e.board color := by
  unfold promotionRow
  rw [h.board.numRows, h.board.numRows']
  cases color
  · change (rows : Int) - 1 - p.row = rows - 1 ↔ p.row = 0
    omega
  · change (rows : Int) - 1 - p.row = 0 ↔ p.row = rows - 1
    omega

/-- A pawn that arrives on its last row is promoted in both games. -/
theorem promote (h : e.Mirrors rows e') (m : Motion) :
    (e.promote m).Mirrors rows (e'.promote (m.mirror rows)) := by
  have hrow : (m.mirror rows).endPos.row =
      promotionRow e'.board (e.piece m.piece).color.swap ↔
        m.endPos.row = promotionRow e.board (e.piece m.piece).color :=
    h.promotionRow_swap m.endPos _
  have hmover := h.board.piece m.piece
  -- both guards of the promotion are the same in the image
  have hguard : ((e'.piece (m.mirror rows).piece).pieceType = .p ∧ (m.mirror rows).endPos.row =
        promotionRow e'.board (e'.piece (m.mirror rows).piece).color) ↔
      ((e.piece m.piece).pieceType = .p ∧
        m.endPos.row = promotionRow e.board (e.piece m.piece).color) := by
    change ((e'.board.piece (m.piece.mirror rows)).pieceType = .p ∧ (m.mirror rows).endPos.row =
      promotionRow e'.board (e'.board.piece (m.piece.mirror rows)).color) ↔ _
    rw [hmover.pieceType, hmover.color, hrow]
  unfold GameEngine.promote
  by_cases hlast : (e.piece m.piece).pieceType = .p ∧
      m.endPos.row = promotionRow e.board (e.piece m.piece).color
  · rw [if_pos hlast, if_pos (hguard.mpr hlast)]
    exact h.withBoard (h.board.modifyPiece m.piece fun ha => ⟨ha.color, rfl, ha.status⟩)
  · rw [if_neg hlast, if_neg (mt hguard.mp hlast)]
    exact h

theorem settle (h : e.Mirrors rows e') (m : Motion) :
    (e.settle m).Mirrors rows (e'.settle (m.mirror rows)) := by
  have hleft := (h.setStatus m.piece .idle).leaveStart m
  exact (hleft.withBoard (hleft.board.setPiece m.endPos (some m.piece))).promote m

/-- Related branches behind equivalent guards. -/
theorem ite {p p' : Prop} [Decidable p] [Decidable p'] {a b a' b' : GameEngine} (hp : p' ↔ p)
    (ha : a.Mirrors rows a') (hb : b.Mirrors rows b') :
    (if p then a else b).Mirrors rows (if p' then a' else b') := by
  by_cases hguard : p
  · rw [if_pos hguard, if_pos (hp.mpr hguard)]
    exact ha
  · rw [if_neg hguard, if_neg (mt hp.mp hguard)]
    exact hb

/-- **The landing of the image is the image of the landing.** -/
theorem land (h : e.Mirrors rows e') (m : Motion) :
    (e.land m).Mirrors rows (e'.land (m.mirror rows)) := by
  have hstatus : ∀ ref, (e'.piece (ref.mirror rows)).status = (e.piece ref).status :=
    fun ref => (h.board.piece ref).status
  have hcolors : ∀ ref ref', (e'.piece (ref.mirror rows)).color = (e'.piece (ref'.mirror rows)).color ↔
      (e.piece ref).color = (e.piece ref').color := by
    intro ref ref'
    change (e'.board.piece _).color = (e'.board.piece _).color ↔ _
    rw [(h.board.piece ref).color, (h.board.piece ref').color, Color.swap_inj]
  have hidle := h.setStatus m.piece .idle
  unfold GameEngine.land
  refine ite (iff_of_eq (congrArg (· = _) (hstatus m.piece))) h (ite Iff.rfl hidle ?_)
  -- what stands on the end square decides, and its image stands on the image of the square
  have hend : e'.board.getPiece (m.mirror rows).endPos =
      (e.board.getPiece m.endPos).map (PieceRef.mirror rows) := h.board.getPiece m.endPos
  rw [hend]
  cases e.board.getPiece m.endPos with
  | none => exact h.settle m
  | some target =>
    refine ite (and_congr (iff_of_eq (congrArg (· = _) (hstatus target)))
      (not_congr (hcolors target m.piece))) (h.capturedByJumper m target) ?_
    refine ite (iff_of_eq (congrArg (· = _) (hstatus target))) ?_ (h.settle m)
    exact ite (hcolors target m.piece) hidle ((h.captureTarget m target).settle m)

/-- A batch is landed motion by motion. -/
theorem foldl_land (h : e.Mirrors rows e') (batch : List Motion) :
    (batch.foldl GameEngine.land e).Mirrors rows
      ((batch.map (Motion.mirror rows)).foldl GameEngine.land e') := by
  induction batch generalizing e e' with
  | nil => exact h
  | cons m batch ih => exact ih (h.land m)

/-! ### The clock -/

/-- Sorting by a key that does not look at squares commutes with the mirror. -/
theorem sortBy_mirror {κ : Type} [LinearOrder κ] (key : Motion → κ)
    (hkey : ∀ m : Motion, key (m.mirror rows) = key m) (l : List Motion) :
    Sorting.sortBy key (l.map (Motion.mirror rows)) =
      (Sorting.sortBy key l).map (Motion.mirror rows) := by
  refine Sorting.sortBy_map _ _ fun m _ m' _ => ?_
  rw [hkey, hkey]

/-- The images of the motions that are due, in the order of the motions. -/
theorem completedMotions (h : e.Mirrors rows e') (ms : Int) :
    e'.completedMotions ms = (e.completedMotions ms).map (Motion.mirror rows) := by
  -- the mirror leaves times alone, so the same motions are due
  have hdue : ((e'.arbiter.activeMotions.map (elapse ms)).filter
        fun m => decide (m.remainingTime ≤ 0)) =
      ((e.arbiter.activeMotions.map (elapse ms)).filter
        fun m => decide (m.remainingTime ≤ 0)).map (Motion.mirror rows) := by
    rw [h.activeMotions, List.map_map, List.filter_map, List.filter_map, List.map_map]
    rfl
  dsimp only [GameEngine.completedMotions, advanceTime]
  rw [hdue, sortBy_mirror _ fun _ => rfl, sortBy_mirror _ fun _ => rfl]

/-- The motions left over correspond. -/
theorem afterAdvance (h : e.Mirrors rows e') (ms : Int) :
    (e.afterAdvance ms).Mirrors rows (e'.afterAdvance ms) := by
  refine ⟨h.board, ?_, h.motionCounter, h.scores, h.gameOver, h.winner⟩
  dsimp only [GameEngine.afterAdvance, advanceTime]
  rw [h.activeMotions, List.map_map, List.filter_map, List.filter_map, List.map_map]
  rfl

/-- **Clocks.** The batches correspond, in one order. -/
theorem updateGameClock (h : e.Mirrors rows e') (ms : Int) :
    (e.updateGameClock ms).Mirrors rows (e'.updateGameClock ms) := by
  unfold GameEngine.updateGameClock
  rw [h.completedMotions]
  exact ite (iff_of_eq (congrArg (· = true) h.gameOver)) h ((h.afterAdvance ms).foldl_land _)

/-! ### Requests -/

/-- A request finds a piece and its image, or none in both games. -/
theorem launchable (h : e.Mirrors rows e') (p : Position) :
    e'.launchable (p.mirror rows) = (e.launchable p).map (PieceRef.mirror rows) := by
  unfold GameEngine.launchable
  rw [h.gameOver, h.board.getPiece]
  split
  · rfl
  · cases e.board.getPiece p with
    | none => rfl
    | some ref =>
      have hidle : decide ((e'.piece (ref.mirror rows)).status = .idle) =
          decide ((e.piece ref).status = .idle) :=
        decide_eq_decide.mpr (iff_of_eq (congrArg (· = _) (h.board.piece ref).status))
      rw [Option.map_some, Option.filter_some, Option.filter_some, hidle]
      split <;> rfl

theorem scores_addMove {s s' : Scoreboard} (h : s'.scores = s.scores.swap) (color color' : Color)
    (text text' : String) :
    (s'.addMove color' text').scores = (s.addMove color text).scores.swap := by
  rw [Scoreboard.scores_addMove, Scoreboard.scores_addMove, h]

/-- **Jumps.** -/
theorem handleJumpRequest (h : e.Mirrors rows e') (p : Position) :
    (e.handleJumpRequest p).1.Mirrors rows (e'.handleJumpRequest (p.mirror rows)).1 ∧
      (e'.handleJumpRequest (p.mirror rows)).2 = (e.handleJumpRequest p).2 := by
  unfold GameEngine.handleJumpRequest
  rw [h.launchable]
  cases e.launchable p with
  | none => exact ⟨h, rfl⟩
  | some ref =>
    refine ⟨⟨h.board.setStatus ref .jumping, ?_, ?_, scores_addMove h.scores _ _ _ _, h.gameOver,
      h.winner⟩, rfl⟩
    · -- the new motion gets the same number on both sides
      dsimp only [Option.map_some, startJump]
      rw [h.activeMotions, List.map_append]
      dsimp only [jumpMotion]
      rw [h.motionCounter]
      rfl
    · dsimp only [Option.map_some, startJump]
      rw [h.motionCounter]

/-- The new motion meets a motion head-on exactly when its image does. -/
theorem meetsHeadOn_mirror (active : List Motion) (m : Motion) :
    meetsHeadOn (active.map (Motion.mirror rows)) (m.mirror rows) = meetsHeadOn active m := by
  unfold meetsHeadOn
  rw [List.any_map]
  refine congrArg (List.any active) (funext fun existing => ?_)
  change (decide (existing.motionId ≠ m.motionId) &&
    areOnCollisionCourse (existing.mirror rows) (m.mirror rows)) = _
  rw [areOnCollisionCourse_mirror]

/-- The new motion is dropped in both games or in neither. -/
theorem resolveCommonRouteCollision_mirror (active : List Motion) (m : Motion) :
    resolveCommonRouteCollision (active.map (Motion.mirror rows)) (m.mirror rows) =
      (resolveCommonRouteCollision active m).map (Motion.mirror rows) := by
  unfold resolveCommonRouteCollision
  rw [meetsHeadOn_mirror]
  split
  · rw [List.map_erase Motion.mirror_injective]
  · rfl

/-- **Moves.** -/
theorem handleMoveRequest (h : e.Mirrors rows e') (startPos endPos : Position) (durationMs : Int) :
    (e.handleMoveRequest startPos endPos durationMs).1.Mirrors rows
        (e'.handleMoveRequest (startPos.mirror rows) (endPos.mirror rows) durationMs).1 ∧
      (e'.handleMoveRequest (startPos.mirror rows) (endPos.mirror rows) durationMs).2 =
        (e.handleMoveRequest startPos endPos durationMs).2 := by
  unfold GameEngine.handleMoveRequest
  rw [h.launchable, h.board.isMoveLegal_mirror]
  cases e.launchable startPos with
  | none => exact ⟨h, rfl⟩
  | some ref =>
    dsimp only [Option.map_some]
    split
    · -- the motion and its image are appended, and both lose the same head-on motion
      refine ⟨⟨h.board.setStatus ref .moving, ?_, ?_, scores_addMove h.scores _ _ _ _, h.gameOver,
        h.winner⟩, rfl⟩
      · dsimp only [startMotion]
        rw [← resolveCommonRouteCollision_mirror, List.map_append, ← h.activeMotions]
        dsimp only [newMotion]
        rw [h.motionCounter]
        rfl
      · dsimp only [startMotion]
        rw [h.motionCounter]
    · exact ⟨h, rfl⟩

/-! ### Calls -/

/-- **One call.** -/
theorem call (h : e.Mirrors rows e') (c : Call) : (e.call c).Mirrors rows (e'.call (c.mirror rows)) := by
  cases c with
  | move startPos endPos durationMs => exact (h.handleMoveRequest startPos endPos durationMs).1
  | jump position => exact (h.handleJumpRequest position).1
  | tick ms => exact h.updateGameClock ms

/-- A request is accepted exactly when its image is. -/
theorem answer (h : e.Mirrors rows e') (c : Call) : e'.answer (c.mirror rows) = e.answer c := by
  cases c with
  | move startPos endPos durationMs =>
    exact congrArg some (h.handleMoveRequest startPos endPos durationMs).2
  | jump position => exact congrArg some (h.handleJumpRequest position).2
  | tick ms => rfl

/-- **A whole game.** -/
theorem play (h : e.Mirrors rows e') (calls : List Call) :
    (e.play calls).Mirrors rows (e'.play (calls.map (Call.mirror rows))) := by
  induction calls generalizing e e' with
  | nil => exact h
  | cons c calls ih => exact ih (h.call c)

end GameEngine.Mirrors

/-! ### Games -/

/-- **The game treats the two colours alike.** The game with the mirrored calls on the
mirrored board is, after every call, the mirror image of the game, and answers every next
request alike. -/
theorem mirrors_play (board : Board) (calls : List Call) :
    ((GameEngine.new board).play calls).Mirrors board.numRows
        ((GameEngine.new board.mirror).play (calls.map (Call.mirror board.numRows))) ∧
      ∀ c, ((GameEngine.new board.mirror).play (calls.map (Call.mirror board.numRows))).answer
          (c.mirror board.numRows) =
        ((GameEngine.new board).play calls).answer c := by
  have hnew : (GameEngine.new board).Mirrors board.numRows (GameEngine.new board.mirror) :=
    ⟨board.mirrors_mirror, rfl, rfl, rfl, rfl, rfl⟩
  exact ⟨hnew.play calls, (hnew.play calls).answer⟩

end KungFuChess
