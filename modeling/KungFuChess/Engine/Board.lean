import Mathlib.Logic.Function.Basic
import KungFuChess.Library.Dict

/-!
# Positions, pieces and the board

The source keeps pieces as mutable objects: the grid of the board and the motions
in flight hold references to the same `Piece`, and a status written through one of
them is seen through the other. The model separates the two halves. A `PieceRef`
is the identity of a piece object, and the board carries, next to the grid of
references, the store `piece` that says what each object currently is.

A piece object is created by the board parser and nowhere else, one for each
occupied square of the text, so its identity is the square it was created on.
-/

namespace KungFuChess

/-- A square, by row and column. Requests may name any pair of integers. -/
structure Position where
  row : Int
  col : Int
deriving DecidableEq, Repr

/-- The values that `Piece.status` takes; the source keeps them as strings. -/
inductive PieceStatus where
  | idle
  | moving
  | jumping
  | captured
deriving DecidableEq, Repr

/-- A piece is White's or Black's. -/
inductive Color where
  | w
  | b
deriving DecidableEq, Repr

/-- The letter of a colour. -/
def Color.letter : Color → String
  | .w => "w"
  | .b => "b"

/-- The type is the second letter of a token. -/
inductive PieceType where
  | k
  | q
  | r
  | b
  | n
  | p
deriving DecidableEq, Repr

/-- `piece_type.upper()`. -/
def PieceType.upper : PieceType → String
  | .k => "K"
  | .q => "Q"
  | .r => "R"
  | .b => "B"
  | .n => "N"
  | .p => "P"

/-- The identity of a piece object: the square the parser created it on. -/
structure PieceRef where
  origin : Position
deriving DecidableEq, Repr

/-- The contents of a piece object. -/
structure Piece where
  pieceId : String
  color : Color
  pieceType : PieceType
  status : PieceStatus := .idle
deriving DecidableEq, Repr

/-- The board: its size, the grid of references and the store of piece objects. -/
structure Board where
  numRows : Nat
  numCols : Nat
  grid : Dict Position PieceRef
  /-- What each piece object currently is. -/
  piece : PieceRef → Piece

namespace Board

/-- `Board(num_rows, num_cols)`: an empty grid. No object exists yet, and the store
is not read at a reference that was never placed. -/
def new (numRows numCols : Nat) : Board where
  numRows := numRows
  numCols := numCols
  grid := Dict.empty
  piece := fun _ => { pieceId := "", color := .w, pieceType := .p }

/-- What the grid holds on the square. -/
def getPiece (board : Board) (position : Position) : Option PieceRef :=
  board.grid.get? position

/-- The piece object a square refers to, dereferenced. -/
def pieceAt (board : Board) (position : Position) : Option Piece :=
  (board.getPiece position).map board.piece

/-- `None` empties the square; otherwise the grid holds the piece there, whatever stood there
before. -/
def setPiece (board : Board) (position : Position) : Option PieceRef → Board
  | none => { board with grid := board.grid.pop position }
  | some ref => { board with grid := board.grid.set position ref }

/-- Mutate the object behind a reference. -/
def modifyPiece (board : Board) (ref : PieceRef) (f : Piece → Piece) : Board :=
  { board with piece := Function.update board.piece ref (f (board.piece ref)) }

/-- `piece.status = status`. -/
def setStatus (board : Board) (ref : PieceRef) (status : PieceStatus) : Board :=
  board.modifyPiece ref fun piece => { piece with status := status }

/-- The occupied squares with their pieces, in the order of the grid. -/
def getAllPieces (board : Board) : List (Position × Piece) :=
  board.grid.entries.map fun entry => (entry.1, board.piece entry.2)

variable (board : Board) (ref : PieceRef) (f : Piece → Piece) (status : PieceStatus)
  (position : Position) (occupant : Option PieceRef)

/-! ### Field lemmas -/

@[simp] theorem piece_setPiece : (board.setPiece position occupant).piece = board.piece := by
  cases occupant <;> rfl

/-- A write of one square. -/
theorem getPiece_setPiece (position' : Position) :
    (board.setPiece position occupant).getPiece position' =
      if position' = position then occupant else board.getPiece position' := by
  cases occupant with
  | none => exact Dict.get?_pop _ _ _
  | some ref => exact Dict.get?_set _ _ _ _

/-- A write of one status. -/
theorem piece_setStatus (ref' : PieceRef) :
    (board.setStatus ref status).piece ref' =
      if ref' = ref then { board.piece ref with status := status } else board.piece ref' := by
  unfold setStatus modifyPiece
  by_cases h : ref' = ref
  · subst h; simp
  · simp [h]

/-- Only the status of the object named is another. -/
theorem status_setStatus (ref' : PieceRef) :
    ((board.setStatus ref status).piece ref').status =
      if ref' = ref then status else (board.piece ref').status := by
  rw [piece_setStatus]
  split <;> rfl

/-- A status says nothing of the colour. -/
@[simp] theorem color_setStatus (ref' : PieceRef) :
    ((board.setStatus ref status).piece ref').color = (board.piece ref').color := by
  rw [piece_setStatus]
  split
  · next h => rw [h]
  · rfl

/-- Nor of the type. -/
@[simp] theorem pieceType_setStatus (ref' : PieceRef) :
    ((board.setStatus ref status).piece ref').pieceType = (board.piece ref').pieceType := by
  rw [piece_setStatus]
  split
  · next h => rw [h]
  · rfl

end Board

end KungFuChess
