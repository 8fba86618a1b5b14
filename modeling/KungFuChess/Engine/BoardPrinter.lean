import KungFuChess.Library.Words
import KungFuChess.Engine.GridBounds
import KungFuChess.Engine.PieceLoss
import KungFuChess.Engine.PieceNames

/-!
# The board printer

`BoardPrinter.print_board` writes one line for each row: the identifiers of the pieces and a dot
for each empty square, with spaces between them.

The printer reads identifiers, the rules read colours and types. A piece is `Printable` if its
identifier is one word that the parser decodes to the colour and type the piece has. The
parser creates printable pieces, and so is the queen that a pawn becomes; hence everything on
the grid is printable throughout a game, and the printed board parses back to the position
(`parse_printBoard`).
-/

namespace KungFuChess

open GameEngine BoardParser

namespace BoardPrinter

/-- What stands for one square. -/
def printToken (board : Board) (position : Position) : String :=
  match board.pieceAt position with
  | some piece => piece.pieceId
  | none => "."

/-- One line. -/
def printRow (board : Board) (row : Nat) : String :=
  " ".intercalate ((List.range board.numCols).map fun (col : Nat) => printToken board ⟨row, col⟩)

/-- The lines `print_board` writes. -/
def printBoard (board : Board) : List String :=
  (List.range board.numRows).map fun row => printRow board row

end BoardPrinter

/-! ### Reading a text -/

/-- What a token puts on its square. -/
def readToken (token : List Char) : Except ChessValidationError (Option Piece) :=
  if token = ['.'] then .ok none else (parsePiece token).map some

/-- Each piece of the board is the object created on its square. -/
def Fresh (board : Board) : Prop :=
  ∀ position ref, board.getPiece position = some ref → ref = ⟨position⟩

section Reading

variable {board board' : Board}

/-- A piece that is created refers to its own square. -/
theorem Fresh.createPiece (h : Fresh board) (position : Position) (piece : Piece) :
    Fresh (createPiece board position piece) := by
  intro position' ref href
  have hget := (Board.getPiece_setPiece (board.modifyPiece ⟨position⟩ fun _ => piece) position
    (some ⟨position⟩) position').symm.trans href
  split at hget
  · next heq =>
    rw [heq]
    exact (Option.some.inj hget).symm
  · exact h position' ref hget

/-- It stands there, and the other squares show what they showed. -/
theorem pieceAt_createPiece (h : Fresh board) (position : Position) (piece : Piece)
    (position' : Position) :
    (createPiece board position piece).pieceAt position' =
      if position' = position then some piece else board.pieceAt position' := by
  have hget : (createPiece board position piece).getPiece position' =
      if position' = position then some ⟨position⟩ else board.getPiece position' :=
    Board.getPiece_setPiece _ _ _ _
  have hpiece : ∀ ref, (createPiece board position piece).piece ref =
      if ref = ⟨position⟩ then piece else board.piece ref := fun ref => by
    change Function.update board.piece ⟨position⟩ piece ref = _
    exact Function.update_apply _ _ _ _
  unfold Board.pieceAt
  rw [hget]
  split
  · rw [Option.map_some, hpiece, if_pos rfl]
  · next hne =>
    cases href : board.getPiece position' with
    | none => rfl
    | some ref =>
      -- what stands elsewhere is another object
      have hother : ref ≠ ⟨position⟩ := fun heq =>
        hne (congrArg PieceRef.origin ((h position' ref href).symm.trans heq))
      rw [Option.map_some, Option.map_some, hpiece, if_neg hother]

/-- What the tokens of a row, from a column on, put on their squares. -/
structure ReadsRow (row col : Int) (toks : List (List Char)) (board board' : Board) : Prop where
  fresh : Fresh board'
  size : board'.size = board.size
  reads : ∀ (i : Nat) token, toks[i]? = some token →
    readToken token = .ok (board'.pieceAt ⟨row, col + i⟩)
  elsewhere : ∀ p : Position, ¬ (p.row = row ∧ col ≤ p.col) →
    board'.pieceAt p = board.pieceAt p

/-- **One row**: the squares it covers show its tokens, the others are left alone. -/
theorem readsRow {row : Int} {toks : List (List Char)} {col : Int} (h : Fresh board)
    (hempty : ∀ c, col ≤ c → board.pieceAt ⟨row, c⟩ = none)
    (hparse : parseRow row col toks board = .ok board') : ReadsRow row col toks board board' := by
  induction toks generalizing col board with
  | nil =>
    obtain rfl := Except.ok.inj hparse
    exact ⟨h, rfl, fun i token htoken => absurd htoken (by simp), fun _ _ => rfl⟩
  | cons token toks ih =>
    -- the board with the first token read, and what the rest of the row leaves of it
    have hrest : ∃ middle, Fresh middle ∧ middle.size = board.size ∧
        readToken token = .ok (middle.pieceAt ⟨row, col⟩) ∧
        (∀ p : Position, p ≠ ⟨row, col⟩ → middle.pieceAt p = board.pieceAt p) ∧
        parseRow row (col + 1) toks middle = .ok board' := by
      unfold parseRow at hparse
      split at hparse
      · next hdot =>
        refine ⟨board, h, rfl, ?_, fun _ _ => rfl, hparse⟩
        rw [readToken, if_pos hdot, hempty col le_rfl]
      · next hdot =>
        split at hparse
        · exact absurd hparse (by simp)
        · next piece hpiece =>
          refine ⟨_, h.createPiece ⟨row, col⟩ piece, rfl, ?_, fun p hp => ?_, hparse⟩
          · rw [readToken, if_neg hdot, hpiece, pieceAt_createPiece h, if_pos rfl]
            rfl
          · rw [pieceAt_createPiece h, if_neg hp]
    obtain ⟨middle, hfresh, hsize, hread, hother, hmiddle⟩ := hrest
    have hlater : ∀ c, col + 1 ≤ c → middle.pieceAt ⟨row, c⟩ = none := fun c hc => by
      rw [hother _ (by simp only [ne_eq, Position.mk.injEq, true_and]; omega)]
      exact hempty c (by omega)
    have hrow := ih hfresh hlater hmiddle
    refine ⟨hrow.fresh, hrow.size.trans hsize, fun i token' htoken => ?_, fun p hp => ?_⟩
    · -- the first token, and those of the rest of the row
      cases i with
      | zero =>
        obtain rfl := Option.some.inj htoken
        have hcol : col + ((0 : Nat) : Int) = col := by omega
        rw [hread, hcol, hrow.elsewhere _ (by simp only [true_and]; omega)]
      | succ i =>
        have hnext := hrow.reads i token' htoken
        have hcol : col + ((i + 1 : Nat) : Int) = col + 1 + i := by omega
        rw [hnext, hcol]
    · -- squares off the row, or before the column, are not written
      rw [hrow.elsewhere p (fun hlate => hp ⟨hlate.1, by omega⟩)]
      refine hother p ?_
      rintro rfl
      exact hp ⟨rfl, le_rfl⟩

/-- A row of readable tokens is accepted. -/
theorem parseRow_ok {row : Int} {toks : List (List Char)} {col : Int}
    (hreadable : ∀ token ∈ toks, ∃ square, readToken token = .ok square) :
    ∃ board', parseRow row col toks board = .ok board' := by
  -- by induction on the tokens, for any board and any column
  induction toks generalizing col board with
  | nil => exact ⟨board, rfl⟩
  | cons token toks ih =>
    have hrest := fun b c => @ih b c fun t ht => hreadable t (List.mem_cons_of_mem token ht)
    obtain ⟨square, hread⟩ := hreadable token List.mem_cons_self
    unfold parseRow
    split
    · exact hrest _ _
    · next hdot =>
      rw [readToken, if_neg hdot] at hread
      cases hpiece : parsePiece token with
      | error err =>
        rw [hpiece] at hread
        exact absurd hread (by simp [Except.map])
      | ok piece => exact hrest _ _

/-- What the lines of a text, from a row on, put on their squares. -/
structure ReadsRows (cols : Nat) (row : Int) (lines : List String) (board board' : Board) : Prop where
  size : board'.size = board.size
  width : ∀ line ∈ lines, (tokens line).length = cols
  reads : ∀ (i : Nat) line, lines[i]? = some line → ∀ (j : Nat) token, (tokens line)[j]? = some token →
    readToken token = .ok (board'.pieceAt ⟨row + i, j⟩)
  above : ∀ p : Position, p.row < row → board'.pieceAt p = board.pieceAt p

/-- **All rows**, each at its own number. -/
theorem readsRows {cols : Nat} {lines : List String} {row : Int} (h : Fresh board)
    (hempty : ∀ p : Position, row ≤ p.row → board.pieceAt p = none)
    (hparse : parseRows cols row lines board = .ok board') :
    ReadsRows cols row lines board board' := by
  induction lines generalizing row board with
  | nil =>
    obtain rfl := Except.ok.inj hparse
    exact ⟨rfl, fun _ hline => absurd hline List.not_mem_nil,
      fun i line hline => absurd hline (by simp), fun _ _ => rfl⟩
  | cons line lines ih =>
    unfold parseRows at hparse
    split at hparse
    · exact absurd hparse (by simp)
    next hwidth =>
    split at hparse
    · exact absurd hparse (by simp)
    next middle hline =>
    have hrow := readsRow h (fun c _ => hempty ⟨row, c⟩ le_rfl) hline
    -- the rows below this one are still empty
    have hbelow : ∀ p : Position, row + 1 ≤ p.row → middle.pieceAt p = none := fun p hp => by
      rw [hrow.elsewhere p (by omega)]
      exact hempty p (by omega)
    have hrows := ih hrow.fresh hbelow hparse
    refine ⟨hrows.size.trans hrow.size, ?_, fun i line' hline' j token htoken => ?_, fun p hp => ?_⟩
    · intro line' hline'
      obtain rfl | hline' := List.mem_cons.mp hline'
      · exact not_not.mp hwidth
      · exact hrows.width line' hline'
    · cases i with
      | zero =>
        obtain rfl := Option.some.inj hline'
        have hread := hrow.reads j token htoken
        have hposition : (⟨row + ((0 : Nat) : Int), j⟩ : Position) = ⟨row, 0 + j⟩ := by
          rw [Position.mk.injEq]
          omega
        -- the later rows leave the first one alone
        rw [hposition, hrows.above _ (by simp only; omega), hread]
      | succ i =>
        have hnext := hrows.reads i line' hline' j token htoken
        have hindex : row + ((i + 1 : Nat) : Int) = row + 1 + i := by omega
        rw [hnext, hindex]
    · rw [hrows.above p (by omega), hrow.elsewhere p (by omega)]

/-- Lines of equal width with readable tokens are accepted. -/
theorem parseRows_ok {cols : Nat} {lines : List String} {row : Int}
    (hwidth : ∀ line ∈ lines, (tokens line).length = cols)
    (hreadable : ∀ line ∈ lines, ∀ token ∈ tokens line, ∃ square, readToken token = .ok square) :
    ∃ board', parseRows cols row lines board = .ok board' := by
  induction lines generalizing row board with
  | nil => exact ⟨board, rfl⟩
  | cons line lines ih =>
    obtain ⟨middle, hmiddle⟩ : ∃ middle, parseRow row 0 (tokens line) board = .ok middle :=
      parseRow_ok (hreadable line List.mem_cons_self)
    unfold parseRows
    rw [if_neg (not_not.mpr (hwidth line List.mem_cons_self)), hmiddle]
    exact ih (fun l hl => hwidth l (List.mem_cons_of_mem line hl))
      fun l hl => hreadable l (List.mem_cons_of_mem line hl)

end Reading

/-- The board says square by square what the lines say. -/
structure Reads (lines : List String) (board : Board) : Prop where
  rows : board.numRows = lines.length
  width : ∀ line ∈ lines, (tokens line).length = board.numCols
  reads : ∀ (i : Nat) line, lines[i]? = some line → ∀ (j : Nat) token, (tokens line)[j]? = some token →
    readToken token = .ok (board.pieceAt ⟨i, j⟩)
  nothingElse : ∀ p : Position, board.pieceAt p ≠ none →
    0 ≤ p.row ∧ p.row < board.numRows ∧ 0 ≤ p.col ∧ p.col < board.numCols

/-- **An accepted board says what its text says.** -/
theorem Reads.of_parseInitialBoard {lines : List String} {board : Board}
    (hparse : parseInitialBoard lines = .ok board) : Reads lines board := by
  have hparsed := Parsed.of_parseInitialBoard hparse
  have helse : ∀ p : Position, board.pieceAt p ≠ none →
      0 ≤ p.row ∧ p.row < board.numRows ∧ 0 ≤ p.col ∧ p.col < board.numCols := fun p hp => by
    cases href : board.getPiece p with
    | none => exact absurd (by rw [Board.pieceAt, href, Option.map_none]) hp
    | some ref => exact hparsed.inBounds p ref href
  -- no line gives the empty board, and otherwise the first line gives the width
  unfold parseInitialBoard at hparse
  split at hparse
  · obtain rfl := Except.ok.inj hparse
    exact ⟨rfl, fun _ hline => absurd hline List.not_mem_nil,
      fun i line hline => absurd hline (by simp), helse⟩
  · next first rest =>
    have hnew : Fresh (Board.new (first :: rest).length (tokens first).length) :=
      (Parsed.new _ _).origin
    have hrows := readsRows hnew (fun p _ => rfl) hparse
    obtain ⟨hnumRows, hnumCols⟩ := Prod.mk.inj hrows.size
    refine ⟨hnumRows, ?_, fun i line hline j token htoken => ?_, helse⟩
    · rw [hnumCols]
      exact hrows.width
    · rw [hrows.reads i line hline j token htoken, Int.zero_add]

/-- A text of lines of equal width with readable tokens is accepted. -/
theorem parseInitialBoard_ok {lines : List String} {cols : Nat}
    (hwidth : ∀ line ∈ lines, (tokens line).length = cols)
    (hreadable : ∀ line ∈ lines, ∀ token ∈ tokens line, ∃ square, readToken token = .ok square) :
    ∃ board, parseInitialBoard lines = .ok board := by
  cases lines with
  | nil => exact ⟨_, rfl⟩
  | cons first rest =>
    unfold parseInitialBoard
    dsimp only
    rw [hwidth first List.mem_cons_self]
    exact parseRows_ok hwidth hreadable

/-- Every square of the board has its token. -/
theorem Reads.exists_token {lines : List String} {board : Board} (h : Reads lines board)
    {p : Position} (hp : 0 ≤ p.row ∧ p.row < board.numRows ∧ 0 ≤ p.col ∧ p.col < board.numCols) :
    ∃ line ∈ lines, ∃ token ∈ tokens line, readToken token = .ok (board.pieceAt p) := by
  -- the coordinates of a square on the board are indices of the text
  have hrow : p.row.toNat < lines.length := by
    rw [← h.rows]
    omega
  have hmem := List.getElem_mem hrow
  have hcol : p.col.toNat < (tokens lines[p.row.toNat]).length := by
    rw [h.width _ hmem]
    omega
  refine ⟨_, hmem, _, List.getElem_mem hcol, ?_⟩
  have hread := h.reads _ _ (List.getElem?_eq_getElem hrow) _ _ (List.getElem?_eq_getElem hcol)
  have hp' : (⟨p.row.toNat, p.col.toNat⟩ : Position) = p := by
    rw [Position.mk.injEq]
    omega
  rwa [hp'] at hread

/-! ### Printable pieces -/

/-- The identifier is one word, which says what the piece is. -/
structure Printable (piece : Piece) : Prop where
  solid : ∀ c ∈ piece.pieceId.toList, isSpace c = false
  decodes : ∃ piece', parsePiece piece.pieceId.toList = .ok piece' ∧ piece'.NamedAs piece

namespace Printable

variable {piece piece' : Piece} {token : List Char}

/-- Only the names count. -/
theorem of_named (h : Printable piece) (hnamed : piece'.NamedAs piece) : Printable piece' := by
  have hid : piece'.pieceId = piece.pieceId := hnamed.pieceId
  obtain ⟨hsolid, decoded, hdecoded, hnamed'⟩ := h
  rw [← hid] at hsolid hdecoded
  exact ⟨hsolid, decoded, hdecoded, hnamed'.pieceId.trans hnamed.pieceId.symm,
    hnamed'.color.trans hnamed.color.symm, hnamed'.pieceType.trans hnamed.pieceType.symm⟩

/-- The queen of a promotion is printable, for her identifier is a new one. -/
theorem queen (piece : Piece) : Printable piece.queen := by
  -- by the colour: the id of a queen is its token
  cases hcolor : piece.color with
  | w =>
    have hid : piece.queen.pieceId = "wQ" := by rw [Piece.queen, hcolor]; rfl
    have htoken : "wQ".toList = ['w', 'Q'] := rfl
    refine ⟨?_, { pieceId := "wQ", color := .w, pieceType := .q }, ?_, ⟨hid.symm, hcolor.symm, rfl⟩⟩
    · rw [hid, htoken]
      simp [isSpace]
    · rw [hid, htoken]
      rfl
  | b =>
    have hid : piece.queen.pieceId = "bQ" := by rw [Piece.queen, hcolor]; rfl
    have htoken : "bQ".toList = ['b', 'Q'] := rfl
    refine ⟨?_, { pieceId := "bQ", color := .b, pieceType := .q }, ?_, ⟨hid.symm, hcolor.symm, rfl⟩⟩
    · rw [hid, htoken]
      simp [isSpace]
    · rw [hid, htoken]
      rfl

theorem of_renamed (h : Printable piece) (hrenamed : piece'.Renamed piece) : Printable piece' := by
  obtain hnamed | hnamed := hrenamed
  · exact h.of_named hnamed
  · exact (queen piece).of_named hnamed

/-- The parser keeps the token as the identifier. -/
theorem pieceId_of_parsePiece (h : parsePiece token = .ok piece) : piece.pieceId.toList = token := by
  unfold parsePiece at h
  split at h
  · exact absurd h (by simp)
  · split at h
    · rw [← Except.ok.inj h]
      exact String.toList_ofList
    · exact absurd h (by simp)

/-- The parser creates printable pieces. -/
theorem of_readToken (hword : Words.IsWord isSpace token) (h : readToken token = .ok (some piece)) :
    Printable piece := by
  unfold readToken at h
  -- a token that is no dot is the identifier of the piece it was parsed to
  split at h
  · exact absurd (Except.ok.inj h) (by simp)
  · cases hparse : parsePiece token with
    | error err =>
      rw [hparse] at h
      exact absurd h (by simp [Except.map])
    | ok piece' =>
      rw [hparse] at h
      obtain rfl := Option.some.inj (Except.ok.inj h)
      have hid := pieceId_of_parsePiece hparse
      refine ⟨?_, piece', ?_, Piece.NamedAs.refl _⟩
      · rw [hid]
        exact hword.solid
      · rw [hid, hparse]

/-- The identifier of a printable piece reads as the piece. -/
theorem readToken (h : Printable piece) :
    ∃ piece', KungFuChess.readToken piece.pieceId.toList = .ok (some piece') ∧ piece'.NamedAs piece := by
  obtain ⟨-, piece', hparse, hnamed⟩ := h
  refine ⟨piece', ?_, hnamed⟩
  have hdot : piece.pieceId.toList ≠ ['.'] := by
    intro hdot
    rw [hdot] at hparse
    exact absurd hparse (by simp [parsePiece, tokenFields])
  rw [KungFuChess.readToken, if_neg hdot, hparse]
  rfl

/-- An identifier is one word. -/
theorem isWord (h : Printable piece) : Words.IsWord isSpace piece.pieceId.toList := by
  refine ⟨fun hnil => ?_, h.solid⟩
  obtain ⟨-, piece', hparse, -⟩ := h
  rw [hnil] at hparse
  exact absurd hparse (by simp [parsePiece, tokenFields])

end Printable

/-! ### Printing and reading back -/

/-- Colour and type. -/
def Piece.kind (piece : Piece) : Color × PieceType := (piece.color, piece.pieceType)

/-- The colour and type on a square. -/
def Board.kindAt (board : Board) (position : Position) : Option (Color × PieceType) :=
  (board.pieceAt position).map Piece.kind

/-- Every piece on the grid is printable. -/
def Board.Printable (board : Board) : Prop :=
  ∀ position piece, board.pieceAt position = some piece → KungFuChess.Printable piece

namespace BoardPrinter

variable {board : Board}

/-- Each square is printed as one word. -/
theorem isWord_printToken (h : board.Printable) (p : Position) :
    Words.IsWord isSpace (printToken board p).toList := by
  unfold printToken
  split
  · next piece hpiece => exact (h p piece hpiece).isWord
  · exact ⟨by decide, by simp [isSpace]⟩

/-- A printed square reads back as what stands there. -/
theorem readToken_printToken (h : board.Printable) (p : Position) :
    ∃ square, readToken (printToken board p).toList = .ok square ∧
      square.map Piece.kind = board.kindAt p := by
  unfold printToken Board.kindAt
  split
  · next piece hpiece =>
    obtain ⟨piece', hread, hnamed⟩ := (h p piece hpiece).readToken
    refine ⟨some piece', hread, ?_⟩
    rw [hpiece, Option.map_some, Option.map_some]
    exact congrArg some (Prod.ext hnamed.color hnamed.pieceType)
  · next hnone =>
    rw [hnone]
    exact ⟨none, rfl, rfl⟩

/-- A printed line splits into the tokens it was joined from. -/
theorem tokens_printRow (h : board.Printable) (row : Nat) :
    tokens (printRow board row) =
      (List.range board.numCols).map fun (col : Nat) => (printToken board ⟨row, col⟩).toList := by
  have hspace : " ".toList = [' '] := rfl
  have hwords : ∀ word ∈ (List.range board.numCols).map fun (col : Nat) =>
      (printToken board ⟨row, col⟩).toList, Words.IsWord isSpace word := by
    intro word hword
    obtain ⟨col, -, rfl⟩ := List.mem_map.mp hword
    exact isWord_printToken h _
  have hspaces : isSpace ' ' = true := rfl
  have hjoin := Words.words_join hspaces hwords
  unfold printRow tokens
  rw [String.toList_intercalate, List.map_map, hspace]
  exact hjoin

/-- **A printed board parses back**, if its pieces are printable and stand on it. -/
theorem parse_of_printable (h : board.Printable)
    (hin : ∀ p : Position, board.pieceAt p ≠ none →
      0 ≤ p.row ∧ p.row < board.numRows ∧ 0 ≤ p.col ∧ p.col < board.numCols)
    (hrows : board.numRows = 0 → board.numCols = 0) :
    ∃ board', parseInitialBoard (printBoard board) = .ok board' ∧ board'.size = board.size ∧
      ∀ p, board'.kindAt p = board.kindAt p := by
  -- the lines have the width of the board, and readable tokens
  have hwidth : ∀ line ∈ printBoard board, (tokens line).length = board.numCols := by
    intro line hline
    obtain ⟨row, -, rfl⟩ := List.mem_map.mp hline
    rw [tokens_printRow h, List.length_map, List.length_range]
  have hreadable : ∀ line ∈ printBoard board, ∀ token ∈ tokens line,
      ∃ square, readToken token = .ok square := by
    intro line hline token htoken
    obtain ⟨row, -, rfl⟩ := List.mem_map.mp hline
    rw [tokens_printRow h] at htoken
    obtain ⟨col, -, rfl⟩ := List.mem_map.mp htoken
    obtain ⟨square, hread, -⟩ := readToken_printToken h ⟨row, col⟩
    exact ⟨square, hread⟩
  obtain ⟨board', hparse⟩ := parseInitialBoard_ok hwidth hreadable
  have hreads := Reads.of_parseInitialBoard hparse
  have hnumRows : board'.numRows = board.numRows := by
    rw [hreads.rows, printBoard, List.length_map, List.length_range]
  have hnumCols : board'.numCols = board.numCols := by
    -- the number of columns shows in any line
    cases hlines : printBoard board with
    | nil =>
      -- no line, no column
      have hzero : board.numRows = 0 := by
        rw [← hnumRows, hreads.rows, hlines, List.length_nil]
      rw [hlines] at hparse
      rw [hrows hzero, ← Except.ok.inj hparse]
      rfl
    | cons line lines =>
      have hline : line ∈ printBoard board := by
        rw [hlines]
        exact List.mem_cons_self
      rw [← hreads.width line hline, hwidth line hline]
  refine ⟨board', hparse, Prod.ext hnumRows hnumCols, fun p => ?_⟩
  by_cases hp : 0 ≤ p.row ∧ p.row < board.numRows ∧ 0 ≤ p.col ∧ p.col < board.numCols
  · -- the square has a printed token
    obtain ⟨square, hread, hkind⟩ := readToken_printToken h p
    have hrow : p.row.toNat < board.numRows := by omega
    have hcol : p.col.toNat < board.numCols := by omega
    have hp' : (⟨p.row.toNat, p.col.toNat⟩ : Position) = p := by
      rw [Position.mk.injEq]
      omega
    have hline : (printBoard board)[p.row.toNat]? = some (printRow board p.row.toNat) := by
      rw [printBoard, List.getElem?_map, List.getElem?_range hrow, Option.map_some]
    have htoken : (tokens (printRow board p.row.toNat))[p.col.toNat]? =
        some (printToken board p).toList := by
      rw [tokens_printRow h, List.getElem?_map, List.getElem?_range hcol, Option.map_some, hp']
    have hback := hreads.reads _ _ hline _ _ htoken
    rw [hp', hread] at hback
    rw [← hkind, Except.ok.inj hback]
    rfl
  · -- both boards are empty there
    have hnone : board.pieceAt p = none := by
      by_contra hsome
      exact hp (hin p hsome)
    have hnone' : board'.pieceAt p = none := by
      by_contra hsome
      have hwithin := hreads.nothingElse p hsome
      rw [hnumRows, hnumCols] at hwithin
      exact hp hwithin
    unfold Board.kindAt
    rw [hnone, hnone']

end BoardPrinter

/-! ### Games -/

section Game

variable {boardLines : List String} {board : Board}

/-- The board of an accepted text is printable. -/
theorem Board.printable_of_parse (hparse : parseInitialBoard boardLines = .ok board) :
    board.Printable := by
  have hreads := Reads.of_parseInitialBoard hparse
  intro p piece hpiece
  obtain ⟨line, -, token, htoken, hread⟩ := hreads.exists_token
    (hreads.nothingElse p (by rw [hpiece]; simp))
  rw [hpiece] at hread
  exact Printable.of_readToken (Words.isWord_of_mem_words htoken) hread

/-- **The grid is printable throughout a game.** -/
theorem printable_play (hparse : parseInitialBoard boardLines = .ok board) (calls : List Call) :
    ((GameEngine.new board).play calls).board.Printable := by
  have hnew : FlightInv (GameEngine.new board) [] :=
    FlightInv.new (Parsed.of_parseInitialBoard hparse)
  have hcast : KnownPieces {ref | ∃ p, board.getPiece p = some ref} (GameEngine.new board) [] :=
    ⟨fun p ref hp => ⟨p, hp⟩, fun m hm => absurd hm List.not_mem_nil⟩
  have hrun := @Run.stable GameEngine Call GameEngine.call
    (fun t => KnownPieces {ref | ∃ p, board.getPiece p = some ref} t t.arbiter.activeMotions ∧
      FlightInv t t.arbiter.activeMotions)
    (fun _ c ht => ⟨ht.1.call ht.2 c, ht.2.call c⟩) calls (GameEngine.new board) ⟨hcast, hnew⟩
  have hknown : KnownPieces {ref | ∃ p, board.getPiece p = some ref}
      ((GameEngine.new board).play calls) _ := hrun.1
  intro p piece hpiece
  obtain ⟨ref, href, rfl⟩ := Option.map_eq_some_iff.mp hpiece
  -- the piece was on the initial board, and is named as there or as its queen
  obtain ⟨p₀, hp₀⟩ := hknown.onGrid p ref href
  have hinitial := Board.printable_of_parse hparse p₀ (board.piece ref) (by
    rw [Board.pieceAt, hp₀, Option.map_some])
  exact hinitial.of_renamed (renamed_play hnew calls ref)

/-- Before any play, the printed lines have the tokens of the text. -/
theorem tokens_printBoard (hparse : parseInitialBoard boardLines = .ok board) :
    (BoardPrinter.printBoard board).map tokens = boardLines.map tokens := by
  have hreads := Reads.of_parseInitialBoard hparse
  have hprintable := Board.printable_of_parse hparse
  refine List.ext_getElem ?_ fun i hi hi' => ?_
  · rw [List.length_map, List.length_map, BoardPrinter.printBoard, List.length_map,
      List.length_range, hreads.rows]
  rw [List.length_map] at hi hi'
  rw [List.getElem_map, List.getElem_map]
  have hline : (BoardPrinter.printBoard board)[i] = BoardPrinter.printRow board i := by
    simp only [BoardPrinter.printBoard, List.getElem_map, List.getElem_range]
  rw [hline, BoardPrinter.tokens_printRow hprintable]
  have hwidth := hreads.width _ (List.getElem_mem hi')
  refine List.ext_getElem ?_ fun j hj hj' => ?_
  · rw [List.length_map, List.length_range, hwidth]
  rw [List.getElem_map, List.getElem_range]
  have hread := hreads.reads i _ (List.getElem?_eq_getElem hi') j _ (List.getElem?_eq_getElem hj')
  -- a token is a dot, or the identifier of the piece it has become
  unfold readToken at hread
  split at hread
  · next hdot =>
    rw [hdot, BoardPrinter.printToken, ← Except.ok.inj hread]
    rfl
  · cases hpiece : parsePiece (tokens boardLines[i])[j] with
    | error err =>
      rw [hpiece] at hread
      exact absurd hread (by simp [Except.map])
    | ok piece =>
      rw [hpiece] at hread
      rw [BoardPrinter.printToken, ← Except.ok.inj hread]
      exact Printable.pieceId_of_parsePiece hpiece

/-- **A printed board parses back to the position**, in every state of a game on a parsed
board; before any play it is the text, up to white space. -/
theorem parse_printBoard (hparse : parseInitialBoard boardLines = .ok board) (calls : List Call) :
    (∃ board', parseInitialBoard
          (BoardPrinter.printBoard ((GameEngine.new board).play calls).board) = .ok board' ∧
        board'.size = ((GameEngine.new board).play calls).board.size ∧
        ∀ p, board'.kindAt p = ((GameEngine.new board).play calls).board.kindAt p) ∧
      (BoardPrinter.printBoard board).map tokens = boardLines.map tokens := by
  have hparsed := Parsed.of_parseInitialBoard hparse
  have hboard := (OnBoard.new hparsed).play (FlightInv.new hparsed) calls
  refine ⟨BoardPrinter.parse_of_printable (printable_play hparse calls) (fun p hp => ?_)
    fun hzero => ?_, tokens_printBoard hparse⟩
  · -- whatever stands on the board stands inside it
    cases href : ((GameEngine.new board).play calls).board.getPiece p with
    | none => exact absurd (by rw [Board.pieceAt, href, Option.map_none]) hp
    | some ref =>
      have hwithin := hboard.occupied p ref href
      rw [← hboard.sized] at hwithin
      exact hwithin
  · -- the size is that of the text, which has no row only if it is empty
    obtain ⟨hnumRows, hnumCols⟩ := Prod.mk.inj hboard.sized
    have hreads := Reads.of_parseInitialBoard hparse
    rw [hnumRows, hreads.rows, List.length_eq_zero_iff] at hzero
    rw [hzero] at hparse
    rw [hnumCols, ← Except.ok.inj hparse]
    rfl

end Game

/-- A pawn in the long form of a token becomes a queen in the short one. -/
theorem parse_printBoard_promotion :
    ∃ board', parseInitialBoard (BoardPrinter.printBoard
        ((GameEngine.new (boardOf [". .", "w_p_1   bK"])).play
          [.move ⟨1, 0⟩ ⟨0, 0⟩ 1000, .tick 1000]).board) = .ok board' ∧
      board'.kindAt ⟨0, 0⟩ = some (.w, .q) ∧ board'.kindAt ⟨1, 1⟩ = some (.b, .k) := by
  have hparse : parseInitialBoard [". .", "w_p_1   bK"] = .ok (boardOf [". .", "w_p_1   bK"]) :=
    parseInitialBoard_eq_boardOf (by decide)
  obtain ⟨⟨board', hback, -, hkinds⟩, -⟩ :=
    parse_printBoard hparse [.move ⟨1, 0⟩ ⟨0, 0⟩ 1000, .tick 1000]
  exact ⟨board', hback, (hkinds _).trans (by decide), (hkinds _).trans (by decide)⟩

end KungFuChess
