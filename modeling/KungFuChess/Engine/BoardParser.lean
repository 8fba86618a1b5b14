import Mathlib.Data.List.Basic
import KungFuChess.Engine.Board

/-!
# The board parser

`BoardParser.parse_initial_board`: a board from lines of tokens. A token is `.`, a
colour letter followed by a type letter, or an underscore form whose first field is the
colour and whose second field is the type.

Besides the parser the file proves what every accepted board looks like
(`Parsed`): each occupied square refers to the object created on it, the objects are
idle, and the occupied squares are on the board.
-/

namespace KungFuChess

/-- `ChessValidationError`, by its message. -/
inductive ChessValidationError where
  | rowWidthMismatch
  | unknownToken
deriving DecidableEq, Repr

/-- The text of the exception. -/
def ChessValidationError.message : ChessValidationError → String
  | .rowWidthMismatch => "ERROR ROW_WIDTH_MISMATCH"
  | .unknownToken => "ERROR UNKNOWN_TOKEN"

namespace BoardParser

/-- The characters `str.split()` splits at. -/
def isSpace (c : Char) : Bool :=
  let n := c.toNat
  decide (9 ≤ n ∧ n ≤ 13) || decide (28 ≤ n ∧ n ≤ 32)
    || n ∈ [0x85, 0xa0, 0x1680, 0x2028, 0x2029, 0x202f, 0x205f, 0x3000]
    || decide (0x2000 ≤ n ∧ n ≤ 0x200a)

/-- `line.strip().split()`: the maximal runs of characters that are not white space. The
`strip` changes nothing, as `split` drops empty fields at both ends anyway. -/
def tokens (line : String) : List (List Char) :=
  (line.toList.splitOnP isSpace).filter (· ≠ [])

/-- `str.lower` on one character, as far as the parser can see it: the Kelvin sign is the
only character outside ASCII whose lower case is one of the letters compared with. -/
def lowerChar (c : Char) : Char := if c.toNat = 0x212a then 'k' else c.toLower

/-- `str.lower`, letter by letter. -/
def lower (text : List Char) : List Char := text.map lowerChar

/-- `color in ('w', 'b')`. -/
def parseColor : List Char → Option Color
  | ['w'] => some .w
  | ['b'] => some .b
  | _ => none

/-- `piece_type in ('k', 'q', 'r', 'b', 'n', 'p')`. -/
def parseType : List Char → Option PieceType
  | ['k'] => some .k
  | ['q'] => some .q
  | ['r'] => some .r
  | ['b'] => some .b
  | ['n'] => some .n
  | ['p'] => some .p
  | _ => none

/-- The colour and type fields of a token other than `.`; a token without underscore must
have two characters at least. -/
def tokenFields (token : List Char) : Except ChessValidationError (List Char × List Char) :=
  if '_' ∈ token then
    -- `parts[0]` and `parts[1].lower()`: the colour is not lowered
    match token.splitOn '_' with
    | color :: pieceType :: _ => .ok (color, lower pieceType)
    | _ => .error .unknownToken
  else
    -- `token[0].lower()` and `token[1:].lower()`
    match token with
    | c :: d :: rest => .ok ([lowerChar c], lower (d :: rest))
    | _ => .error .unknownToken

/-- A token that is no dot. Its whole text is the identifier of the piece. -/
def parsePiece (token : List Char) : Except ChessValidationError Piece :=
  match tokenFields token with
  | .error err => .error err
  | .ok (color, pieceType) =>
    match parseColor color, parseType pieceType with
    | some color, some pieceType =>
      .ok { pieceId := String.ofList token, color := color, pieceType := pieceType }
    | _, _ => .error .unknownToken

/-- `board.set_piece(position, Piece(...))`: a new object, placed where it is created. -/
def createPiece (board : Board) (position : Position) (piece : Piece) : Board :=
  (board.modifyPiece ⟨position⟩ fun _ => piece).setPiece position (some ⟨position⟩)

/-- The inner loop: the tokens of row `row`, from column `col` on. -/
def parseRow (row : Int) : Int → List (List Char) → Board → Except ChessValidationError Board
  | _, [], board => .ok board
  | col, token :: rest, board =>
    if token = ['.'] then parseRow row (col + 1) rest board
    else
      match parsePiece token with
      | .error err => .error err
      | .ok piece => parseRow row (col + 1) rest (createPiece board ⟨row, col⟩ piece)

/-- The outer loop: the lines from row `row` on, each of `expectedCols` tokens. -/
def parseRows (expectedCols : Nat) : Int → List String → Board →
    Except ChessValidationError Board
  | _, [], board => .ok board
  | row, line :: rest, board =>
    if (tokens line).length ≠ expectedCols then .error .rowWidthMismatch
    else
      match parseRow row 0 (tokens line) board with
      | .error err => .error err
      | .ok board => parseRows expectedCols (row + 1) rest board

/-- The width of all lines is that of the first. -/
def parseInitialBoard (boardLines : List String) : Except ChessValidationError Board :=
  match boardLines with
  | [] => .ok (Board.new 0 0)
  | first :: _ =>
    let expectedCols := (tokens first).length
    parseRows expectedCols 0 boardLines (Board.new boardLines.length expectedCols)

/-- The board of an accepted text; an empty one where the text is rejected. -/
def boardOf (boardLines : List String) : Board :=
  match parseInitialBoard boardLines with
  | .ok board => board
  | .error _ => Board.new 0 0

/-- An accepted text is the text of its board. -/
theorem parseInitialBoard_eq_boardOf {boardLines : List String}
    (h : (parseInitialBoard boardLines).isOk = true) :
    parseInitialBoard boardLines = .ok (boardOf boardLines) := by
  unfold boardOf
  cases hparse : parseInitialBoard boardLines with
  | ok board => rfl
  | error err =>
    rw [hparse] at h
    exact absurd h Bool.false_ne_true

end BoardParser

/-! ### What an accepted board looks like -/

/-- The shape of a freshly parsed board. -/
structure Parsed (board : Board) : Prop where
  /-- A square refers to the object created on it. -/
  origin : ∀ position ref, board.getPiece position = some ref → ref = ⟨position⟩
  /-- Every object is idle. -/
  idle : ∀ ref, (board.piece ref).status = .idle
  /-- Occupied squares are on the board. -/
  inBounds : ∀ position ref, board.getPiece position = some ref →
    0 ≤ position.row ∧ position.row < board.numRows ∧
      0 ≤ position.col ∧ position.col < board.numCols

namespace Parsed

open BoardParser

theorem new (numRows numCols : Nat) : Parsed (Board.new numRows numCols) where
  origin := fun _ _ h => absurd h (by simp [Board.new, Board.getPiece])
  idle := fun _ => rfl
  inBounds := fun _ _ h => absurd h (by simp [Board.new, Board.getPiece])

/-- A piece starts idle. -/
theorem parsePiece_idle {token : List Char} {piece : Piece} (h : parsePiece token = .ok piece) :
    piece.status = .idle := by
  unfold parsePiece at h
  split at h
  · exact absurd h (by simp)
  · split at h
    · rw [← Except.ok.inj h]
    · exact absurd h (by simp)

/-- **A piece is put on an own square**, where no reference can point yet. -/
theorem createPiece {board : Board} (h : Parsed board) (position : Position) {piece : Piece}
    (hidle : piece.status = .idle)
    (hbounds : 0 ≤ position.row ∧ position.row < board.numRows ∧
      0 ≤ position.col ∧ position.col < board.numCols) :
    Parsed (BoardParser.createPiece board position piece) := by
  have hget : ∀ position', (BoardParser.createPiece board position piece).getPiece position' =
      if position' = position then some ⟨position⟩ else board.getPiece position' :=
    fun position' => Board.getPiece_setPiece _ _ _ _
  refine ⟨fun position' ref href => ?_, fun ref => ?_, fun position' ref href => ?_⟩
  · rw [hget] at href
    split at href
    · -- the object on its square is the one created there
      next heq => rw [heq]; exact (Option.some.inj href).symm
    · exact h.origin position' ref href
  · -- the store is changed at the new reference only
    change ((Function.update board.piece ⟨position⟩ piece) ref).status = .idle
    by_cases heq : ref = ⟨position⟩
    · rw [heq, Function.update_self]; exact hidle
    · rw [Function.update_of_ne heq]; exact h.idle ref
  · rw [hget] at href
    have hsize : (BoardParser.createPiece board position piece).numRows = board.numRows ∧
        (BoardParser.createPiece board position piece).numCols = board.numCols := ⟨rfl, rfl⟩
    rw [hsize.1, hsize.2]
    split at href
    · next heq => rw [heq]; exact hbounds
    · exact h.inBounds position' ref href

/-- One row of tokens, none of which lies beyond the last column, keeps the shape and the
size of the board. -/
theorem parseRow {row : Int} {rest : List (List Char)} {col : Int} {board board' : Board}
    (h : Parsed board) (hrow : 0 ≤ row ∧ row < board.numRows) (hcol : 0 ≤ col)
    (hlen : col + rest.length ≤ board.numCols)
    (heq : BoardParser.parseRow row col rest board = .ok board') :
    Parsed board' ∧ board'.numRows = board.numRows ∧ board'.numCols = board.numCols := by
  induction rest generalizing col board with
  | nil =>
    rw [← Except.ok.inj heq]
    exact ⟨h, rfl, rfl⟩
  | cons token rest ih =>
    rw [List.length_cons] at hlen
    unfold BoardParser.parseRow at heq
    split at heq
    · -- a dot leaves the square empty
      exact ih h hrow (by omega) (by omega) heq
    · split at heq
      · exact absurd heq (by simp)
      · next piece hpiece =>
        -- the token's square is on the board, because the row is not too long
        have hstep := h.createPiece ⟨row, col⟩ (parsePiece_idle hpiece)
          ⟨hrow.1, hrow.2, hcol, by change col < _; omega⟩
        have hrest := ih hstep hrow (by omega) (by change _ ≤ (board.numCols : Int); omega) heq
        exact hrest

/-- Row after row. -/
theorem parseRows {expectedCols : Nat} {lines : List String} {row : Int} {board board' : Board}
    (h : Parsed board) (hrow : 0 ≤ row) (hlen : row + lines.length ≤ board.numRows)
    (hcols : expectedCols = board.numCols)
    (heq : BoardParser.parseRows expectedCols row lines board = .ok board') : Parsed board' := by
  induction lines generalizing row board with
  | nil =>
    rw [← Except.ok.inj heq]
    exact h
  | cons line lines ih =>
    rw [List.length_cons] at hlen
    unfold BoardParser.parseRows at heq
    split at heq
    · exact absurd heq (by simp)
    · next hwidth =>
      split at heq
      · exact absurd heq (by simp)
      · next board₁ hline =>
        -- the line has the width of the board, and the rows still to come fit below it
        have hwidth' : (tokens line).length = expectedCols := not_not.mp hwidth
        obtain ⟨hparsed, hrows, hcols'⟩ := h.parseRow ⟨hrow, by omega⟩ (Int.le_refl 0) (by omega) hline
        exact ih hparsed (by omega) (by omega) (by omega) heq

/-- **Every accepted board is freshly parsed.** -/
theorem of_parseInitialBoard {boardLines : List String} {board : Board}
    (h : parseInitialBoard boardLines = .ok board) : Parsed board := by
  unfold parseInitialBoard at h
  split at h
  · rw [← Except.ok.inj h]
    exact Parsed.new 0 0
  · refine Parsed.parseRows (Parsed.new _ _) (Int.le_refl 0) ?_ rfl h
    rw [Int.zero_add]
    exact Int.le_refl _

/-- Distinct squares hold distinct pieces. -/
theorem injective {board : Board} (h : Parsed board) {position position' : Position}
    {ref : PieceRef} (h₁ : board.getPiece position = some ref)
    (h₂ : board.getPiece position' = some ref) : position = position' := by
  have horigin := (h.origin position ref h₁).symm.trans (h.origin position' ref h₂)
  exact congrArg PieceRef.origin horigin

end Parsed

end KungFuChess
