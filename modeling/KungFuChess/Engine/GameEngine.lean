import Mathlib.Data.List.Basic
import KungFuChess.Engine.Rules
import KungFuChess.Engine.Arbiter

/-!
# The game engine

The engine of one game: requests launch motions, and the clock lands them. A tick
takes the motions that have completed, sorts them, and lands them one after the
other; each landing reads the board the previous ones left (`land`). The loop body
has these outcomes for a motion whose piece has not been captured meanwhile:

* a jump ends (`land`, second branch);
* the piece runs into an enemy that is jumping on the end square and is captured
  (`capturedByJumper`);
* an idle piece of the same colour stands on the end square: the mover is set idle
  and the grid is not written;
* otherwise the piece takes the end square (`settle`), after capturing an idle enemy
  there (`captureTarget`). A piece that is itself in flight, and a friend that is
  jumping, are written over.

`Call` is the interface of the engine and `GameEngine.call` runs one call; a game is a
`List Call` run from `GameEngine.new board`.
-/

namespace KungFuChess

/-! ### The scoreboard -/

/-- What a captured piece is worth. A king ends the game instead. -/
def pieceValues : PieceType → Int
  | .p => 1
  | .n => 3
  | .b => 3
  | .r => 5
  | .q => 9
  | .k => 0

/-- Scores and move texts; player 1 is white. The field names are the source's. -/
structure Scoreboard where
  plaier1Score : Int := 0
  plaier2Score : Int := 0
  plaier1Moves : List String := []
  plaier2Moves : List String := []
deriving DecidableEq, Repr

namespace Scoreboard

/-- A move is added to the history of its colour. -/
def addMove (s : Scoreboard) (color : Color) (moveText : String) : Scoreboard :=
  match color with
  | .w => { s with plaier1Moves := s.plaier1Moves ++ [moveText] }
  | .b => { s with plaier2Moves := s.plaier2Moves ++ [moveText] }

/-- The points of a captured piece go to the capturer. -/
def addCapturePoints (s : Scoreboard) (capturerColor : Color) (capturedPieceType : PieceType) :
    Scoreboard :=
  match capturerColor with
  | .w => { s with plaier1Score := s.plaier1Score + pieceValues capturedPieceType }
  | .b => { s with plaier2Score := s.plaier2Score + pieceValues capturedPieceType }

/-- The two scores. -/
def scores (s : Scoreboard) : Int × Int := (s.plaier1Score, s.plaier2Score)

@[simp] theorem scores_addMove (s : Scoreboard) (color : Color) (moveText : String) :
    (s.addMove color moveText).scores = s.scores := by
  cases color <;> rfl

end Scoreboard

/-! ### The engine -/

/-- The board, the motions in flight, the scores, and how the game has ended. -/
structure GameEngine where
  board : Board
  arbiter : RealTimeArbiter := {}
  scoreboard : Scoreboard := {}
  gameOver : Bool := false
  winner : Option Color := none

namespace GameEngine

/-- `GameEngine(board)`. -/
def new (board : Board) : GameEngine := { board := board }

/-- The object behind a reference. -/
abbrev piece (e : GameEngine) (ref : PieceRef) : Piece := e.board.piece ref

/-- A status of a piece, written through the board. -/
def setStatus (e : GameEngine) (ref : PieceRef) (status : PieceStatus) : GameEngine :=
  { e with board := e.board.setStatus ref status }

/-! ### Requests -/

/-- The entry of a jump in the history. -/
def jumpText (piece : Piece) (position : Position) : String :=
  piece.pieceType.upper ++ " jump (" ++ toString position.row ++ "," ++ toString position.col ++ ")"

/-- The entry of a move in the history. -/
def moveText (piece : Piece) (startPos endPos : Position) : String :=
  piece.pieceType.upper ++ " (" ++ toString startPos.row ++ "," ++ toString startPos.col ++ ")->("
    ++ toString endPos.row ++ "," ++ toString endPos.col ++ ")"

/-- The piece a request at `position` may launch: the game is running and an idle piece
stands there. -/
def launchable (e : GameEngine) (position : Position) : Option PieceRef :=
  if e.gameOver then none
  else (e.board.getPiece position).filter fun ref => (e.piece ref).status = .idle

/-- A jump takes a second, wherever it is. -/
def handleJumpRequest (e : GameEngine) (position : Position) : GameEngine × Bool :=
  match e.launchable position with
  | none => (e, false)
  | some ref =>
    let launched := e.arbiter.startJump e.board ref position 1000
    ({ e with
        arbiter := launched.1
        board := launched.2
        scoreboard := e.scoreboard.addMove (e.piece ref).color (jumpText (e.piece ref) position) },
      true)

/-- The rules are looked at now, not when the piece arrives; how long it is under way is for the
caller to say. -/
def handleMoveRequest (e : GameEngine) (startPos endPos : Position) (durationMs : Int) :
    GameEngine × Bool :=
  match e.launchable startPos with
  | none => (e, false)
  | some ref =>
    if RuleEngine.isMoveLegal e.board startPos endPos then
      let launched := e.arbiter.startMotion e.board ref startPos endPos durationMs
      ({ e with
          arbiter := launched.1
          board := launched.2
          scoreboard :=
            e.scoreboard.addMove (e.piece ref).color (moveText (e.piece ref) startPos endPos) },
        true)
    else (e, false)

/-! ### Landing -/

/-- Add the points of a captured piece and end the game if it is a king. -/
def scoreCapture (e : GameEngine) (capturer captured : PieceRef) : GameEngine :=
  let scored : GameEngine :=
    { e with
      scoreboard :=
        e.scoreboard.addCapturePoints (e.piece capturer).color (e.piece captured).pieceType }
  if (e.piece captured).pieceType = .k then
    { scored with gameOver := true, winner := some (e.piece capturer).color }
  else scored

/-- The grid entry of the start square, if it is still the mover's, is deleted. -/
def leaveStart (e : GameEngine) (motion : Motion) : GameEngine :=
  if e.board.getPiece motion.startPos = some motion.piece then
    { e with board := e.board.setPiece motion.startPos none }
  else e

/-- The mover runs into an enemy that is jumping on its end square. -/
def capturedByJumper (e : GameEngine) (motion : Motion) (jumper : PieceRef) : GameEngine :=
  ((e.setStatus motion.piece .captured).scoreCapture jumper motion.piece).leaveStart motion

/-- The mover captures the idle enemy on its end square. -/
def captureTarget (e : GameEngine) (motion : Motion) (target : PieceRef) : GameEngine :=
  let captured := (e.setStatus target .captured).scoreCapture motion.piece target
  { captured with board := captured.board.setPiece motion.endPos none }

/-- The row on which a pawn of the colour becomes a queen. -/
def promotionRow (board : Board) (color : Color) : Int :=
  if color = .w then 0 else board.numRows - 1

/-- A pawn that has landed on the last row becomes a queen. -/
def promote (e : GameEngine) (motion : Motion) : GameEngine :=
  if (e.piece motion.piece).pieceType = .p
      ∧ motion.endPos.row = promotionRow e.board (e.piece motion.piece).color then
    { e with
      board := e.board.modifyPiece motion.piece fun piece =>
        { piece with pieceType := .q, pieceId := piece.color.letter ++ "Q" } }
  else e

/-- The tail of the loop body: the mover takes its end square. -/
def settle (e : GameEngine) (motion : Motion) : GameEngine :=
  let left := (e.setStatus motion.piece .idle).leaveStart motion
  let placed : GameEngine :=
    { left with board := left.board.setPiece motion.endPos (some motion.piece) }
  placed.promote motion

/-- The loop body of `update_game_clock`. -/
def land (e : GameEngine) (motion : Motion) : GameEngine :=
  -- each `continue` of the loop is a branch that leaves the rest of the body out
  if (e.piece motion.piece).status = .captured then e
  else if motion.isJump then e.setStatus motion.piece .idle
  else
    match e.board.getPiece motion.endPos with
    | none => e.settle motion
    | some target =>
      if (e.piece target).status = .jumping ∧ (e.piece target).color ≠ (e.piece motion.piece).color
      then e.capturedByJumper motion target
      else if (e.piece target).status = .idle then
        if (e.piece target).color = (e.piece motion.piece).color then
          -- a friend has come first: the mover stays on its start square
          e.setStatus motion.piece .idle
        else (e.captureTarget motion target).settle motion
      -- a piece in flight, or a jumping friend, is written over
      else e.settle motion

/-! ### The clock -/

/-- The order in which the motions of one tick land. -/
def batchKey (motion : Motion) : Int ×ₗ Int ×ₗ Bool ×ₗ Int :=
  toLex (motion.remainingTime,
    toLex (motion.originalDuration, toLex (motion.isJump, -(motion.motionId : Int))))

/-- The motions that complete within `ms`, in landing order. -/
def completedMotions (e : GameEngine) (ms : Int) : List Motion :=
  Sorting.sortBy batchKey (e.arbiter.advanceTime ms).1

/-- The engine between `advance_time` and the first landing. -/
def afterAdvance (e : GameEngine) (ms : Int) : GameEngine :=
  { e with arbiter := (e.arbiter.advanceTime ms).2 }

/-- A finished game has no clock. Otherwise what completes is landed, one motion after the other. -/
def updateGameClock (e : GameEngine) (ms : Int) : GameEngine :=
  if e.gameOver then e
  else (e.completedMotions ms).foldl land (e.afterAdvance ms)

end GameEngine

/-! ### Games -/

/-- One call of the engine's interface. -/
inductive Call where
  | move (startPos endPos : Position) (durationMs : Int)
  | jump (position : Position)
  | tick (ms : Int)
deriving DecidableEq, Repr

/-- Run one call. -/
def GameEngine.call (e : GameEngine) : Call → GameEngine
  | .move startPos endPos durationMs => (e.handleMoveRequest startPos endPos durationMs).1
  | .jump position => (e.handleJumpRequest position).1
  | .tick ms => e.updateGameClock ms

/-- Requests and ticks leave a finished game as it is. -/
theorem GameEngine.call_of_gameOver {e : GameEngine} (hover : e.gameOver = true) (c : Call) :
    e.call c = e := by
  have hnone : ∀ p, e.launchable p = none := fun p => by rw [GameEngine.launchable, if_pos hover]
  -- requests find nothing to launch, and a tick returns at once
  cases c with
  | move startPos endPos durationMs =>
    change (e.handleMoveRequest startPos endPos durationMs).1 = e
    rw [GameEngine.handleMoveRequest, hnone]
  | jump position =>
    change (e.handleJumpRequest position).1 = e
    rw [GameEngine.handleJumpRequest, hnone]
  | tick ms =>
    change e.updateGameClock ms = e
    rw [GameEngine.updateGameClock, if_pos hover]

/-- Run a game: the calls in order, from a given engine. -/
def GameEngine.play (e : GameEngine) (calls : List Call) : GameEngine := calls.foldl GameEngine.call e

end KungFuChess
