import Mathlib.Algebra.Group.Prod
import KungFuChess.Engine.Alike
import KungFuChess.Engine.BoardPrinter
import KungFuChess.Engine.KingCapture

/-!
# Saving a game as its printed board

The printed board keeps what a square shows, and not the scores, the motions, the statuses or
which object a piece is. At a moment when nothing is under way and every piece on the board is
idle (`Saveable`) that is all the future depends on: the game resumed from the printed board
goes on like the one that was printed (`resumed_play`).
-/

namespace KungFuChess

open GameEngine BoardParser BoardPrinter

/-- Nothing is under way, the game is not over, and every piece on the board is idle. -/
structure Saveable (e : GameEngine) : Prop where
  running : e.gameOver = false
  grounded : e.arbiter.activeMotions = []
  idle : ∀ p ref, e.board.getPiece p = some ref → (e.piece ref).status = .idle

/-- The second game shows what the first one shows, and answers as it does. -/
structure GoesOnLike (before e e' : GameEngine) : Prop where
  size : e'.board.size = e.board.size
  pieceAt : ∀ p, e'.board.pieceAt p = e.board.pieceAt p
  printed : printBoard e'.board = printBoard e.board
  gameOver : e'.gameOver = e.gameOver
  winner : e'.winner = e.winner
  /-- The points made before are not counted. -/
  scores : e.scoreboard.scores = e'.scoreboard.scores + before.scoreboard.scores
  accepts : ∀ c, e'.accepts c = e.accepts c

section Printed

variable {board board' : Board}

/-- The printer reads the size of the board and the pieces it shows. -/
theorem printBoard_congr (hsize : board'.size = board.size)
    (hview : ∀ p, board'.pieceAt p = board.pieceAt p) : printBoard board' = printBoard board := by
  obtain ⟨hrows, hcols⟩ := Prod.mk.inj hsize
  unfold printBoard printRow printToken
  rw [hrows, hcols]
  simp only [hview]

/-- The token of an idle piece reads back as the piece itself. -/
theorem readToken_printToken_of_idle (h : board.Printable)
    (hidle : ∀ p piece, board.pieceAt p = some piece → piece.status = .idle) (p : Position) :
    readToken (printToken board p).toList = .ok (board.pieceAt p) := by
  unfold printToken
  cases hpiece : board.pieceAt p with
  | none => rfl
  | some piece =>
    obtain ⟨piece', hread, hnamed⟩ := (h p piece hpiece).readToken
    -- the identifier parses, since the piece is printable
    have hback : parsePiece piece.pieceId.toList = .ok piece' := by
      unfold readToken at hread
      split at hread
      · exact absurd (Except.ok.inj hread) (by simp)
      · cases hparse : parsePiece piece.pieceId.toList with
        | error err =>
          rw [hparse] at hread
          exact absurd hread (by simp [Except.map])
        | ok piece₁ =>
          rw [hparse] at hread
          rw [Option.some.inj (Except.ok.inj hread)]
    have hstatus := (Parsed.parsePiece_idle hback).trans (hidle p piece hpiece).symm
    have hpiece' : piece' = piece := by
      obtain ⟨pieceId, color, pieceType, status⟩ := piece
      obtain ⟨pieceId', color', pieceType', status'⟩ := piece'
      simp only [Piece.mk.injEq]
      exact ⟨hnamed.pieceId, hnamed.color, hnamed.pieceType, hstatus⟩
    rw [hpiece'] at hread
    exact hread

/-- A board of idle pieces parses back to the pieces it shows. -/
theorem parse_of_idle (h : board.Printable)
    (hidle : ∀ p piece, board.pieceAt p = some piece → piece.status = .idle)
    (hin : ∀ p : Position, board.pieceAt p ≠ none →
      0 ≤ p.row ∧ p.row < board.numRows ∧ 0 ≤ p.col ∧ p.col < board.numCols)
    (hrows : board.numRows = 0 → board.numCols = 0) :
    ∃ board', parseInitialBoard (printBoard board) = .ok board' ∧ board'.size = board.size ∧
      ∀ p, board'.pieceAt p = board.pieceAt p := by
  obtain ⟨board', hparse, hsize, hkinds⟩ := parse_of_printable h hin hrows
  refine ⟨board', hparse, hsize, fun p => ?_⟩
  -- the square shows the same kind, and an idle piece of it
  cases hpiece : board.pieceAt p with
  | none =>
    have hkind := hkinds p
    rw [Board.kindAt, Board.kindAt, hpiece] at hkind
    exact Option.map_eq_none_iff.mp hkind
  | some piece =>
    obtain ⟨hrow₀, hrow, hcol₀, hcol⟩ := hin p (by rw [hpiece]; simp)
    have hrow' : p.row.toNat < board.numRows := by omega
    have hcol' : p.col.toNat < board.numCols := by omega
    have hp : (⟨p.row.toNat, p.col.toNat⟩ : Position) = p := by
      rw [Position.mk.injEq]
      omega
    have hline : (printBoard board)[p.row.toNat]? = some (printRow board p.row.toNat) := by
      rw [printBoard, List.getElem?_map, List.getElem?_range hrow', Option.map_some]
    have htoken : (tokens (printRow board p.row.toNat))[p.col.toNat]? =
        some (printToken board p).toList := by
      rw [tokens_printRow h, List.getElem?_map, List.getElem?_range hcol', Option.map_some, hp]
    have hread := (Reads.of_parseInitialBoard hparse).reads _ _ hline _ _ htoken
    rw [hp, readToken_printToken_of_idle h hidle p, hpiece] at hread
    exact (Except.ok.inj hread).symm

end Printed

/-! ### The winner -/

section Winner

variable {e : GameEngine}

/-- A game has a winner when it is over. -/
theorem winner_isSome_land (h : e.winner.isSome = e.gameOver) (m : Motion) :
    (e.land m).winner.isSome = (e.land m).gameOver := by
  have hking : ∀ {pieceType : PieceType} {color : Color},
      (if pieceType = .k then some color else e.winner).isSome =
        if pieceType = .k then true else e.gameOver := fun {pieceType color} => by
    split
    · rfl
    · exact h
  generalize hafter : e.land m = e'
  have hland : Landing e m e' := hafter ▸ land_cases e m
  -- a game ends with a king that is captured, and its captor's colour is the winner
  cases hland with
  | skipped | jumpEnds | blocked => exact h
  | shotDown jumper =>
    rw [winner_capturedByJumper, gameOver_capturedByJumper]
    exact hking
  | takes target =>
    rw [winner_settle, gameOver_settle, winner_captureTarget, gameOver_captureTarget]
    exact hking
  | settles =>
    rw [winner_settle, gameOver_settle]
    exact h

/-- Whatever is called. -/
theorem winner_isSome_call (h : e.winner.isSome = e.gameOver)
    (hflights : FlightInv e e.arbiter.activeMotions) (c : Call) :
    (e.call c).winner.isSome = (e.call c).gameOver := by
  generalize hafter : e.call c = e'
  have hcall : CallOutcome e c e' := hafter ▸ call_cases hflights c
  cases hcall with
  | rejected | launched | cancelled => exact h
  | ticked ms =>
    exact Run.stable (P := fun t : GameEngine => t.winner.isSome = t.gameOver)
      (fun t m ht => winner_isSome_land ht m) h

/-- And so in a whole game. -/
theorem winner_isSome_play {board : Board} (h : Parsed board) (calls : List Call) :
    ((GameEngine.new board).play calls).winner.isSome =
      ((GameEngine.new board).play calls).gameOver :=
  (Run.stable (P := fun t => t.winner.isSome = t.gameOver ∧ FlightInv t t.arbiter.activeMotions)
    (fun _ c ht => ⟨winner_isSome_call ht.1 ht.2 c, ht.2.call c⟩) ⟨rfl, FlightInv.new h⟩).1

end Winner

/-! ### Resuming -/

/-- The objects of two engines that stand on the same square. -/
def OnOneSquare (board board' : Board) (ref ref' : PieceRef) : Prop :=
  ∃ p, board.getPiece p = some ref ∧ board'.getPiece p = some ref'

/-- Where nothing is under way, boards that show the same make the engines alike. -/
theorem alike_of_saveable {e : GameEngine} {board' : Board} (hsave : Saveable e)
    (hflights : FlightInv e e.arbiter.activeMotions) (hparsed : Parsed board')
    (hsize : board'.size = e.board.size) (hview : ∀ p, board'.pieceAt p = e.board.pieceAt p)
    (hwinner : e.winner = none) :
    Relator.BiUnique (OnOneSquare e.board board') ∧
      e.Alike (OnOneSquare e.board board') (-e.arbiter.motionCounter) (-e.scoreboard.scores)
        (GameEngine.new board') := by
  -- a piece of either board stands on one square, which names its partner
  refine ⟨⟨?_, ?_⟩, ⟨hsize, fun p => ?_, ?_⟩, ?_, ?_, ?_, hsave.running.symm, hwinner.symm⟩
  · rintro ref₁ ref₂ ref' ⟨p₁, h₁, h₁'⟩ ⟨p₂, h₂, h₂'⟩
    rw [hparsed.injective h₁' h₂', h₂] at h₁
    exact (Option.some.inj h₁).symm
  · rintro ref ref₁' ref₂' ⟨p₁, h₁, h₁'⟩ ⟨p₂, h₂, h₂'⟩
    rw [hflights.placed p₁ p₂ ref h₁ h₂, h₂'] at h₁'
    exact (Option.some.inj h₁').symm
  · -- a square is occupied in both or in none
    have hpiece := hview p
    unfold Board.pieceAt at hpiece
    change Option.Rel _ (e.board.getPiece p) (board'.getPiece p)
    cases href : e.board.getPiece p with
    | none =>
      rw [href, Option.map_none, Option.map_eq_none_iff] at hpiece
      rw [hpiece]
      exact Option.Rel.none
    | some ref =>
      rw [href, Option.map_some, Option.map_eq_some_iff] at hpiece
      obtain ⟨ref', href', -⟩ := hpiece
      rw [href']
      exact Option.Rel.some ⟨p, href, href'⟩
  · rintro ref ref' ⟨p, href, href'⟩
    have hpiece := hview p
    unfold Board.pieceAt at hpiece
    rw [href, href', Option.map_some, Option.map_some] at hpiece
    exact Option.some.inj hpiece
  · rw [hsave.grounded]
    exact .nil
  · exact (add_neg_cancel (e.arbiter.motionCounter : Int)).symm
  · exact (add_neg_cancel e.scoreboard.scores).symm

section Saved

variable {boardLines : List String} {board : Board}

/-- The printed board is accepted, and shows what was printed. -/
theorem exists_saved (hparse : parseInitialBoard boardLines = .ok board) (calls : List Call)
    (hsave : Saveable ((GameEngine.new board).play calls)) :
    ∃ saved, parseInitialBoard (printBoard ((GameEngine.new board).play calls).board) = .ok saved ∧
      saved.size = ((GameEngine.new board).play calls).board.size ∧
      ∀ p, saved.pieceAt p = ((GameEngine.new board).play calls).board.pieceAt p := by
  have hparsed := Parsed.of_parseInitialBoard hparse
  have hboard := (OnBoard.new hparsed).play (FlightInv.new hparsed) calls
  refine parse_of_idle (printable_play hparse calls) (fun p piece hpiece => ?_) (fun p hp => ?_)
    fun hzero => ?_
  · -- whoever stands on the board is idle
    obtain ⟨ref, href, rfl⟩ := Option.map_eq_some_iff.mp hpiece
    exact hsave.idle p ref href
  · -- and inside it
    obtain ⟨piece, hpiece⟩ := Option.ne_none_iff_exists'.mp hp
    obtain ⟨ref, href, -⟩ := Option.map_eq_some_iff.mp hpiece
    have hwithin := hboard.occupied p ref href
    rw [← hboard.sized] at hwithin
    exact hwithin
  · -- the size is that of the text, which has no row only if it is empty
    obtain ⟨hnumRows, hnumCols⟩ := Prod.mk.inj hboard.sized
    rw [hnumRows, (Reads.of_parseInitialBoard hparse).rows, List.length_eq_zero_iff] at hzero
    rw [hzero] at hparse
    rw [hnumCols, ← Except.ok.inj hparse]
    rfl

/-- The engine of the printed board looks like the one that was printed. -/
theorem exists_alike_saved (hparse : parseInitialBoard boardLines = .ok board) (calls : List Call)
    (hsave : Saveable ((GameEngine.new board).play calls)) :
    ∃ saved σ, parseInitialBoard (printBoard ((GameEngine.new board).play calls).board) = .ok saved ∧
      Relator.BiUnique σ ∧ ((GameEngine.new board).play calls).Alike σ
        (-((GameEngine.new board).play calls).arbiter.motionCounter)
        (-((GameEngine.new board).play calls).scoreboard.scores) (GameEngine.new saved) := by
  have hparsed := Parsed.of_parseInitialBoard hparse
  have hwinner := winner_isSome_play hparsed calls
  rw [hsave.running, Option.isSome_eq_false_iff, Option.isNone_iff_eq_none] at hwinner
  obtain ⟨saved, hsaved, hsize, hview⟩ := exists_saved hparse calls hsave
  exact ⟨saved, _, hsaved, alike_of_saveable hsave ((FlightInv.new hparsed).play calls)
    (Parsed.of_parseInitialBoard hsaved) hsize hview hwinner⟩

/-- **A game resumed from its printed board goes on as if it had not stopped.** -/
theorem resumed_play (hparse : parseInitialBoard boardLines = .ok board) (calls : List Call)
    (hsave : Saveable ((GameEngine.new board).play calls)) :
    ∃ saved, parseInitialBoard (printBoard ((GameEngine.new board).play calls).board) = .ok saved ∧
      ∀ later, GoesOnLike ((GameEngine.new board).play calls)
        ((GameEngine.new board).play (calls ++ later)) ((GameEngine.new saved).play later) := by
  obtain ⟨saved, σ, hsaved, hσ, halike⟩ := exists_alike_saved hparse calls hsave
  refine ⟨saved, hsaved, fun later => ?_⟩
  have hplay : (GameEngine.new board).play (calls ++ later) =
      ((GameEngine.new board).play calls).play later := List.foldl_append
  have hlater := halike.play hσ later
  rw [← hplay] at hlater
  refine ⟨hlater.board.size, hlater.board.pieceAt,
    printBoard_congr hlater.board.size hlater.board.pieceAt, hlater.gameOver, hlater.winner, ?_,
    hlater.accepts hσ⟩
  rw [hlater.scores, neg_add_cancel_right]

end Saved

/-- A pawn that has become a queen is saved as a queen. -/
theorem resumed_play_promotion :
    ∃ saved, parseInitialBoard (printBoard ((GameEngine.new (boardOf [". . .", "wP . bK"])).play
          [.move ⟨1, 0⟩ ⟨0, 0⟩ 1000, .tick 1000]).board) = .ok saved ∧
      ∀ later, GoesOnLike
        ((GameEngine.new (boardOf [". . .", "wP . bK"])).play
          [.move ⟨1, 0⟩ ⟨0, 0⟩ 1000, .tick 1000])
        ((GameEngine.new (boardOf [". . .", "wP . bK"])).play
          ([.move ⟨1, 0⟩ ⟨0, 0⟩ 1000, .tick 1000] ++ later))
        ((GameEngine.new saved).play later) := by
  have hparse : parseInitialBoard [". . .", "wP . bK"] = .ok (boardOf [". . .", "wP . bK"]) :=
    parseInitialBoard_eq_boardOf (by decide)
  refine resumed_play hparse _ ⟨by decide, by decide, fun p ref href => ?_⟩
  -- one check per entry of the grid
  have hentries : ∀ entry ∈ ((GameEngine.new (boardOf [". . .", "wP . bK"])).play
      [.move ⟨1, 0⟩ ⟨0, 0⟩ 1000, .tick 1000]).board.grid.entries,
      (((GameEngine.new (boardOf [". . .", "wP . bK"])).play
        [.move ⟨1, 0⟩ ⟨0, 0⟩ 1000, .tick 1000]).piece entry.2).status = .idle := by
    decide
  exact hentries (p, ref) (Dict.mem_entries_iff.mpr href)

end KungFuChess
