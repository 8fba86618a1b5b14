import Mathlib.Data.List.Basic
import KungFuChess.Engine.Board

/-!
# Move rules

The move generators of `PieceRules` and the legality check of `RuleEngine`. A
generator returns the squares it collects; the source collects them in a set and
only asks for membership, so the order of the list is immaterial.

Rooks and bishops share one loop over directions (`slidingMoves`), kings and knights
one loop over offsets (`offsetMoves`); each keeps its own definition under the
source's name. A sliding ray is a `while` loop that leaves the board after at most
`numRows + numCols` squares, which is the fuel `ray` is given.
-/

namespace KungFuChess

namespace PieceRules

/-- The square is on the board. -/
def inBounds (r c : Int) (board : Board) : Bool :=
  decide (0 ≤ r ∧ r < board.numRows ∧ 0 ≤ c ∧ c < board.numCols)

/-- The squares collected along one direction, from `(r, c)` on. A square is passed
when it is empty or its piece is in flight; any other piece ends the ray, and is
itself collected when it is an enemy. -/
def ray (board : Board) (color : Color) (dr dc : Int) : Nat → Int → Int → List Position
  | 0, _, _ => []
  | fuel + 1, r, c =>
    if inBounds r c board then
      match board.pieceAt ⟨r, c⟩ with
      | none => ⟨r, c⟩ :: ray board color dr dc fuel (r + dr) (c + dc)
      | some target =>
        -- a piece in flight is no obstacle, a jumping one is
        if target.status = .moving then
          ⟨r, c⟩ :: ray board color dr dc fuel (r + dr) (c + dc)
        else if target.color ≠ color then [⟨r, c⟩]
        else []
    else []

/-- One ray for each direction, if the start square is occupied. -/
def slidingMoves (directions : List (Int × Int)) (start : Position) (board : Board) :
    List Position :=
  match board.pieceAt start with
  | none => []
  | some startPiece =>
    directions.flatMap fun d =>
      ray board startPiece.color d.1 d.2 (board.numRows + board.numCols)
        (start.row + d.1) (start.col + d.2)

/-- The squares a rook reaches. -/
def getStraightMoves (start : Position) (board : Board) : List Position :=
  slidingMoves [(0, 1), (0, -1), (1, 0), (-1, 0)] start board

/-- The squares a bishop reaches. -/
def getDiagonalMoves (start : Position) (board : Board) : List Position :=
  slidingMoves [(1, 1), (1, -1), (-1, 1), (-1, -1)] start board

/-- The squares at the given offsets that are on the board and not held by a piece of
the mover's colour, whatever that piece is doing. -/
def offsetMoves (offsets : List (Int × Int)) (start : Position) (board : Board) :
    List Position :=
  match board.pieceAt start with
  | none => []
  | some startPiece =>
    offsets.filterMap fun d =>
      let r := start.row + d.1
      let c := start.col + d.2
      if inBounds r c board then
        match board.pieceAt ⟨r, c⟩ with
        | none => some ⟨r, c⟩
        | some target => if target.color ≠ startPiece.color then some ⟨r, c⟩ else none
      else none

/-- The squares a knight reaches. -/
def getKnightMoves (start : Position) (board : Board) : List Position :=
  offsetMoves [(-2, -1), (-2, 1), (-1, -2), (-1, 2), (1, -2), (1, 2), (2, -1), (2, 1)]
    start board

/-- The squares a king reaches. -/
def getKingMoves (start : Position) (board : Board) : List Position :=
  offsetMoves [(-1, -1), (-1, 0), (-1, 1), (0, -1), (0, 1), (1, -1), (1, 0), (1, 1)]
    start board

/-- White pawns move up (`row - 1`), black ones down; the double step starts from the
second row of the colour's own side; captures are diagonal. -/
def getPawnMoves (start : Position) (board : Board) : List Position :=
  match board.pieceAt start with
  | none => []
  | some piece =>
    let direction : Int := if piece.color = .w then -1 else 1
    let startRow : Int := if piece.color = .w then board.numRows - 2 else 1
    let oneStep : Position := ⟨start.row + direction, start.col⟩
    let twoStep : Position := ⟨start.row + 2 * direction, start.col⟩
    let forward :=
      -- for a pawn, a piece in flight does block
      if inBounds oneStep.row oneStep.col board ∧ board.getPiece oneStep = none then
        oneStep ::
          (if start.row = startRow ∧ inBounds twoStep.row twoStep.col board
              ∧ board.getPiece twoStep = none then [twoStep] else [])
      else []
    let captures := [(-1 : Int), 1].filterMap fun dc =>
      let cap : Position := ⟨start.row + direction, start.col + dc⟩
      if inBounds cap.row cap.col board then
        match board.pieceAt cap with
        | some target => if target.color ≠ piece.color then some cap else none
        | none => none
      else none
    forward ++ captures

/-! ### What the generators collect -/

section Collected

variable {board : Board} {start p : Position}

/-- What `offsetMoves` collects. -/
theorem mem_offsetMoves {offsets : List (Int × Int)} :
    p ∈ offsetMoves offsets start board ↔
      ∃ piece, board.pieceAt start = some piece ∧
        ∃ d ∈ offsets, p = ⟨start.row + d.1, start.col + d.2⟩ ∧
          inBounds p.row p.col board = true ∧
          ∀ target, board.pieceAt p = some target → target.color ≠ piece.color := by
  unfold offsetMoves
  cases hstart : board.pieceAt start with
  | none => simp
  | some piece =>
    simp only [List.mem_filterMap, Option.some.injEq, exists_eq_left']
    refine exists_congr fun d => and_congr_right fun _ => ?_
    -- an offset gives its square, unless that is off the board or an own piece is on it
    constructor
    · intro h
      split at h
      · next hin =>
        split at h
        · next hempty =>
          obtain rfl := Option.some.inj h
          exact ⟨rfl, hin, fun target ht => absurd (hempty.symm.trans ht) (by simp)⟩
        · next target htarget =>
          split at h
          · next henemy =>
            obtain rfl := Option.some.inj h
            refine ⟨rfl, hin, fun target' ht => ?_⟩
            obtain rfl := Option.some.inj (htarget.symm.trans ht)
            exact henemy
          · exact absurd h (by simp)
      · exact absurd h (by simp)
    · rintro ⟨rfl, hin, henemy⟩
      rw [if_pos hin]
      cases hp : board.pieceAt ⟨start.row + d.1, start.col + d.2⟩ with
      | none => rfl
      | some target => exact if_pos (henemy target hp)

/-- A pawn goes one square forward to an empty square. -/
def PawnStep (board : Board) (start p : Position) (piece : Piece) : Prop :=
  p = ⟨start.row + (if piece.color = .w then -1 else 1), start.col⟩ ∧
    inBounds p.row p.col board = true ∧ board.getPiece p = none

/-- What `getPawnMoves` collects: a step, a double step, or a diagonal capture. -/
theorem mem_getPawnMoves :
    p ∈ getPawnMoves start board ↔
      ∃ piece, board.pieceAt start = some piece ∧
        (PawnStep board start p piece ∨
          ((∃ middle, PawnStep board start middle piece ∧
              PawnStep board middle p piece) ∧
            start.row = (if piece.color = .w then (board.numRows : Int) - 2 else 1)) ∨
          (∃ dc ∈ [(-1 : Int), 1],
            p = ⟨start.row + (if piece.color = .w then -1 else 1), start.col + dc⟩ ∧
              inBounds p.row p.col board = true ∧
              ∃ target, board.pieceAt p = some target ∧ target.color ≠ piece.color)) := by
  unfold getPawnMoves
  cases hstart : board.pieceAt start with
  | none => simp
  | some piece =>
    simp only [Option.some.injEq, exists_eq_left']
    unfold PawnStep
    generalize (if piece.color = .w then (-1 : Int) else 1) = direction
    generalize (if piece.color = .w then (board.numRows : Int) - 2 else 1) = startRow
    have htwo : start.row + direction + direction = start.row + 2 * direction := by omega
    rw [List.mem_append]
    rw [← or_assoc]
    -- straight on, then the captures
    refine or_congr ?_ ?_
    · constructor
      · intro h
        -- the second step is tried only after the first
        split at h
        · next hone =>
          obtain rfl | h := List.mem_cons.mp h
          · exact Or.inl ⟨rfl, hone⟩
          · split at h
            · next hdouble =>
              obtain rfl := List.mem_singleton.mp h
              exact Or.inr ⟨⟨_, ⟨rfl, hone⟩, by rw [htwo], hdouble.2⟩, hdouble.1⟩
            · exact absurd h List.not_mem_nil
        · exact absurd h List.not_mem_nil
      · rintro (⟨rfl, hone⟩ | ⟨⟨middle, ⟨rfl, hone⟩, rfl, hdouble⟩, hrow⟩)
        · rw [if_pos hone]
          exact List.mem_cons_self
        · rw [if_pos hone, if_pos ⟨hrow, htwo ▸ hdouble⟩, htwo]
          exact List.mem_cons_of_mem _ (List.mem_singleton.mpr rfl)
    · rw [List.mem_filterMap]
      refine exists_congr fun dc => and_congr_right fun _ => ?_
      constructor
      · intro h
        split at h
        · next hin =>
          split at h
          · next target htarget =>
            split at h
            · next henemy =>
              obtain rfl := Option.some.inj h
              exact ⟨rfl, hin, target, htarget, henemy⟩
            · exact absurd h (by simp)
          · exact absurd h (by simp)
        · exact absurd h (by simp)
      · rintro ⟨rfl, hin, target, htarget, henemy⟩
        rw [if_pos hin, htarget]
        exact if_pos henemy

end Collected

end PieceRules

namespace RuleEngine

open PieceRules

/-- Whether the target square holds a piece of the mover's own colour. -/
def ownPieceAt (board : Board) (piece : Piece) (endPos : Position) : Bool :=
  match board.pieceAt endPos with
  | some target => decide (target.color = piece.color)
  | none => false

/-- `is_move_legal`. -/
def isMoveLegal (board : Board) (startPos endPos : Position) : Bool :=
  if startPos = endPos then false
  else
    match board.pieceAt startPos with
    | none => false
    | some piece =>
      -- a friend on the end square forbids the move, whatever its status
      if ownPieceAt board piece endPos then false
      else
        match piece.pieceType with
        | .r => decide (endPos ∈ getStraightMoves startPos board)
        | .b => decide (endPos ∈ getDiagonalMoves startPos board)
        | .q => decide (endPos ∈ getStraightMoves startPos board)
            || decide (endPos ∈ getDiagonalMoves startPos board)
        | .n => decide (endPos ∈ getKnightMoves startPos board)
        | .k => decide (endPos ∈ getKingMoves startPos board)
        | .p => decide (endPos ∈ getPawnMoves startPos board)

/-- A legal move changes the square. -/
theorem ne_of_isMoveLegal {board : Board} {startPos endPos : Position}
    (h : isMoveLegal board startPos endPos = true) : startPos ≠ endPos := by
  intro heq
  unfold isMoveLegal at h
  rw [if_pos heq] at h
  exact Bool.false_ne_true h

end RuleEngine

end KungFuChess
