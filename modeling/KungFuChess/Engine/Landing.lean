import KungFuChess.Library.Run
import KungFuChess.Engine.GameEngine

/-!
# What a landing can do

`GameEngine.land` is the loop body every tick runs. `Landing` lists its outcomes with
the guards that lead to them, and `land_cases` says that the loop body does nothing
else; every invariant of the engine is derived from that list. The writes themselves
are read through look-up lemmas: what stands on a square afterwards
(`getPiece_settle` and its siblings) and which status an object has
(`status_settle` and its siblings).

Whatever the outcome, a landing keeps the size of the board, the arbiter and the
colour of every piece, and never takes back `gameOver`.
-/

namespace KungFuChess

/-- What a conditional write does not write was there before. -/
theorem unwritten {α : Type} {p : Prop} [Decidable p] {new old a : α}
    (h : (if p then new else old) = a) (hne : new ≠ a) : ¬ p ∧ old = a := by
  obtain ⟨-, hnew⟩ | hold := ite_eq_iff.mp h
  · exact absurd hnew hne
  · exact hold

namespace GameEngine

variable (e : GameEngine) (m : Motion) (ref target : PieceRef) (status : PieceStatus)
  (p : Position)

/-! ### The writes, square by square and piece by piece -/

/-- A change of status leaves colours alone. -/
@[simp] theorem piece_setStatus_color (ref' : PieceRef) :
    ((e.setStatus ref status).piece ref').color = (e.piece ref').color :=
  Board.color_setStatus _ _ _ _

/-- And types. -/
@[simp] theorem piece_setStatus_pieceType (ref' : PieceRef) :
    ((e.setStatus ref status).piece ref').pieceType = (e.piece ref').pieceType :=
  Board.pieceType_setStatus _ _ _ _

/-- A change of status is one of the piece it names. -/
theorem status_setStatus (ref' : PieceRef) :
    ((e.setStatus ref status).piece ref').status =
      if ref' = ref then status else (e.piece ref').status :=
  Board.status_setStatus _ _ _ _

/-- Counting a capture moves no piece. -/
@[simp] theorem board_scoreCapture (capturer captured : PieceRef) :
    (e.scoreCapture capturer captured).board = e.board := by
  unfold scoreCapture
  split <;> rfl

/-- Counting a capture starts and stops no motion. -/
@[simp] theorem arbiter_scoreCapture (capturer captured : PieceRef) :
    (e.scoreCapture capturer captured).arbiter = e.arbiter := by
  unfold scoreCapture
  split <;> rfl

/-- Taking the mover off the grid changes nothing about the piece itself. -/
@[simp] theorem piece_leaveStart (ref' : PieceRef) :
    (e.leaveStart m).piece ref' = e.piece ref' := by
  -- the grid is written if the mover still stands on its start square
  unfold leaveStart
  split
  · change (e.board.setPiece m.startPos none).piece ref' = _
    rw [Board.piece_setPiece]
  · rfl

/-- The clock does not look at the grid. -/
@[simp] theorem arbiter_leaveStart : (e.leaveStart m).arbiter = e.arbiter := by
  unfold leaveStart
  split <;> rfl

/-- The start square is emptied if the mover still stands there. Whoever has come to it meanwhile
stays. -/
theorem getPiece_leaveStart :
    (e.leaveStart m).board.getPiece p =
      if p = m.startPos ∧ e.board.getPiece m.startPos = some m.piece then none
      else e.board.getPiece p := by
  unfold leaveStart
  by_cases h : e.board.getPiece m.startPos = some m.piece
  · rw [if_pos h]
    simp only [Board.getPiece_setPiece, h, and_true]
  · rw [if_neg h, if_neg fun hc => h hc.2]

/-- Promotion is a matter of the board. -/
@[simp] theorem arbiter_promote : (e.promote m).arbiter = e.arbiter := by
  unfold promote
  split <;> rfl

/-- A queen stands where the pawn stood. -/
@[simp] theorem grid_promote : (e.promote m).board.grid = e.board.grid := by
  unfold promote
  split <;> rfl

/-- So what a square shows is the same object as before. -/
theorem getPiece_promote : (e.promote m).board.getPiece p = e.board.getPiece p := by
  unfold Board.getPiece
  rw [grid_promote]

/-- Promotion rewrites the type and the identifier of the mover, nothing else. -/
theorem piece_promote (ref' : PieceRef) :
    (e.promote m).piece ref' = e.piece ref' ∨
      ref' = m.piece ∧ (e.piece ref').pieceType = .p ∧
        (e.promote m).piece ref' =
          { e.piece ref' with
            pieceType := .q, pieceId := (e.piece ref').color.letter ++ "Q" } := by
  unfold promote
  split
  · next h =>
    by_cases href : ref' = m.piece
    · subst href
      exact Or.inr ⟨rfl, h.1, Function.update_self _ _ _⟩
    · exact Or.inl (Function.update_of_ne href _ _)
  · exact Or.inl rfl

/-- A promoted piece keeps its status. -/
@[simp] theorem status_promote (ref' : PieceRef) :
    ((e.promote m).piece ref').status = (e.piece ref').status := by
  rcases piece_promote e m ref' with h | ⟨-, -, h⟩ <;> rw [h]

/-- A promoted piece keeps its colour. -/
@[simp] theorem color_promote (ref' : PieceRef) :
    ((e.promote m).piece ref').color = (e.piece ref').color := by
  rcases piece_promote e m ref' with h | ⟨-, -, h⟩ <;> rw [h]

/-! ### A capture by a jumper -/

/-- Only the start square of the mover changes on the grid: the jumper stays where it is. -/
theorem getPiece_capturedByJumper :
    (e.capturedByJumper m target).board.getPiece p =
      if p = m.startPos ∧ e.board.getPiece m.startPos = some m.piece then none
      else e.board.getPiece p := by
  unfold capturedByJumper
  rw [getPiece_leaveStart, board_scoreCapture]
  rfl

/-- The mover is captured, and the jumper goes on jumping. -/
theorem status_capturedByJumper :
    ((e.capturedByJumper m target).piece ref).status =
      if ref = m.piece then .captured else (e.piece ref).status := by
  unfold capturedByJumper
  rw [piece_leaveStart, piece, board_scoreCapture]
  exact status_setStatus e m.piece .captured ref

/-- A capture by a jumper leaves colours alone. -/
theorem color_capturedByJumper :
    ((e.capturedByJumper m target).piece ref).color = (e.piece ref).color := by
  unfold capturedByJumper
  rw [piece_leaveStart, piece, board_scoreCapture]
  exact piece_setStatus_color e m.piece .captured ref

/-! ### The capture of an idle piece -/

/-- The end square is emptied before the mover takes it. -/
theorem getPiece_captureTarget :
    (e.captureTarget m target).board.getPiece p =
      if p = m.endPos then none else e.board.getPiece p := by
  -- the points are counted between the two writes, and do not touch the board
  change (((e.setStatus target .captured).scoreCapture m.piece target).board.setPiece
    m.endPos none).getPiece p = _
  rw [Board.getPiece_setPiece, board_scoreCapture]
  rfl

/-- The target is captured; the mover is not settled yet. -/
theorem status_captureTarget :
    ((e.captureTarget m target).piece ref).status =
      if ref = target then .captured else (e.piece ref).status := by
  change ((((e.setStatus target .captured).scoreCapture m.piece target).board.setPiece
    m.endPos none).piece ref).status = _
  rw [Board.piece_setPiece, board_scoreCapture]
  exact status_setStatus e target .captured ref

/-- A capture leaves colours alone. -/
theorem color_captureTarget :
    ((e.captureTarget m target).piece ref).color = (e.piece ref).color := by
  change ((((e.setStatus target .captured).scoreCapture m.piece target).board.setPiece
    m.endPos none).piece ref).color = _
  rw [Board.piece_setPiece, board_scoreCapture]
  exact piece_setStatus_color e target .captured ref

/-! ### The mover takes its end square -/

/-- The mover stands on its end square, and on its start square no more. If the two are one, the
mover stands there. -/
theorem getPiece_settle :
    (e.settle m).board.getPiece p =
      if p = m.endPos then some m.piece
      else if p = m.startPos ∧ e.board.getPiece m.startPos = some m.piece then none
      else e.board.getPiece p := by
  unfold settle
  -- promotion comes last and writes no square
  dsimp only
  rw [getPiece_promote]
  change (((e.setStatus m.piece .idle).leaveStart m).board.setPiece m.endPos
    (some m.piece)).getPiece p = _
  rw [Board.getPiece_setPiece, getPiece_leaveStart]
  rfl

/-- The mover is idle again. -/
theorem status_settle :
    ((e.settle m).piece ref).status =
      if ref = m.piece then .idle else (e.piece ref).status := by
  unfold settle
  dsimp only
  rw [status_promote]
  change ((((e.setStatus m.piece .idle).leaveStart m).board.setPiece m.endPos
    (some m.piece)).piece ref).status = _
  -- the end square is written last, and no write of the grid touches a piece
  rw [Board.piece_setPiece]
  change (((e.setStatus m.piece .idle).leaveStart m).piece ref).status = _
  rw [piece_leaveStart, status_setStatus]

/-- Settling leaves colours alone. -/
theorem color_settle : ((e.settle m).piece ref).color = (e.piece ref).color := by
  unfold settle
  dsimp only
  rw [color_promote]
  change ((((e.setStatus m.piece .idle).leaveStart m).board.setPiece m.endPos
    (some m.piece)).piece ref).color = _
  rw [Board.piece_setPiece]
  change (((e.setStatus m.piece .idle).leaveStart m).piece ref).color = _
  rw [piece_leaveStart, piece_setStatus_color]

/-- Settling starts and stops no motion. -/
@[simp] theorem arbiter_settle : (e.settle m).arbiter = e.arbiter := by
  unfold settle
  dsimp only
  rw [arbiter_promote]
  exact arbiter_leaveStart _ _

/-- A capture starts and stops no motion. -/
@[simp] theorem arbiter_captureTarget : (e.captureTarget m target).arbiter = e.arbiter :=
  arbiter_scoreCapture _ _ _

/-- Nor does a capture by a jumper. -/
@[simp] theorem arbiter_capturedByJumper : (e.capturedByJumper m target).arbiter = e.arbiter := by
  unfold capturedByJumper
  rw [arbiter_leaveStart, arbiter_scoreCapture]
  rfl

end GameEngine

/-! ### The outcomes of the loop body -/

/-- The outcomes of landing `m` in `e`, with the guards of the branches that lead to
them. -/
inductive Landing (e : GameEngine) (m : Motion) : GameEngine → Prop where
  /-- The mover was captured while in flight. -/
  | skipped (hcaptured : (e.piece m.piece).status = .captured) : Landing e m e
  /-- A jump ends. -/
  | jumpEnds (halive : (e.piece m.piece).status ≠ .captured) (hjump : m.isJump = true) :
      Landing e m (e.setStatus m.piece .idle)
  /-- An enemy is jumping on the end square. -/
  | shotDown (jumper : PieceRef) (halive : (e.piece m.piece).status ≠ .captured)
      (hflight : m.isJump = false) (hend : e.board.getPiece m.endPos = some jumper)
      (hjumping : (e.piece jumper).status = .jumping)
      (henemy : (e.piece jumper).color ≠ (e.piece m.piece).color) :
      Landing e m (e.capturedByJumper m jumper)
  /-- An idle friend stands on the end square. -/
  | blocked (friend : PieceRef) (halive : (e.piece m.piece).status ≠ .captured)
      (hflight : m.isJump = false) (hend : e.board.getPiece m.endPos = some friend)
      (hidle : (e.piece friend).status = .idle)
      (hfriend : (e.piece friend).color = (e.piece m.piece).color) :
      Landing e m (e.setStatus m.piece .idle)
  /-- An idle enemy stands on the end square. -/
  | takes (target : PieceRef) (halive : (e.piece m.piece).status ≠ .captured)
      (hflight : m.isJump = false) (hend : e.board.getPiece m.endPos = some target)
      (hidle : (e.piece target).status = .idle)
      (henemy : (e.piece target).color ≠ (e.piece m.piece).color) :
      Landing e m ((e.captureTarget m target).settle m)
  /-- The end square is empty, or what stands there is written over. -/
  | settles (halive : (e.piece m.piece).status ≠ .captured) (hflight : m.isJump = false)
      (hover : ∀ target, e.board.getPiece m.endPos = some target →
        (e.piece target).status ≠ .idle ∧
          ((e.piece target).status = .jumping →
            (e.piece target).color = (e.piece m.piece).color)) :
      Landing e m (e.settle m)

/-- **The loop body does nothing else.** -/
theorem land_cases (e : GameEngine) (m : Motion) : Landing e m (e.land m) := by
  unfold GameEngine.land
  split
  · next hcaptured => exact .skipped hcaptured
  -- the guards of the source, in its order: captured in flight, a jump, and then the end square
  next halive =>
  split
  · next hjump => exact .jumpEnds halive hjump
  next hflight =>
  have hflight' : m.isJump = false := Bool.eq_false_iff.mpr hflight
  split
  · next hempty =>
    exact .settles halive hflight' fun target hend => absurd (hempty.symm.trans hend) (by simp)
  · next target hend =>
    split
    · next h => exact .shotDown target halive hflight' hend h.1 h.2
    · -- not a jumping enemy
      next hnot =>
      split
      · next hidle =>
        split
        · next hfriend => exact .blocked target halive hflight' hend hidle hfriend
        · next henemy => exact .takes target halive hflight' hend hidle henemy
      · -- in flight, or a friend who jumps
        next hbusy =>
        refine .settles halive hflight' fun target' hend' => ?_
        obtain rfl : target = target' := Option.some.inj (hend.symm.trans hend')
        exact ⟨hbusy, fun hjumping => not_not.mp fun hne => hnot ⟨hjumping, hne⟩⟩

/-! ### What every landing keeps -/

section Keeps

variable {e e' : GameEngine} {m : Motion}

/-- No landing touches the motions still under way. -/
theorem Landing.arbiter (h : Landing e m e') : e'.arbiter = e.arbiter := by
  cases h with
  | skipped => rfl
  | jumpEnds | blocked => rfl
  | shotDown jumper => exact GameEngine.arbiter_capturedByJumper _ _ _
  | takes target => rw [GameEngine.arbiter_settle, GameEngine.arbiter_captureTarget]
  | settles => exact GameEngine.arbiter_settle _ _

/-- A piece keeps its colour, promoted or not. -/
theorem Landing.color (h : Landing e m e') (ref : PieceRef) :
    (e'.piece ref).color = (e.piece ref).color := by
  cases h with
  | skipped => rfl
  | jumpEnds | blocked => exact GameEngine.piece_setStatus_color _ _ _ _
  | shotDown jumper => exact GameEngine.color_capturedByJumper _ _ _ _
  | takes target => rw [GameEngine.color_settle, GameEngine.color_captureTarget]
  | settles => exact GameEngine.color_settle _ _ _

/-- What stands on a square after a landing stood there before, or has just landed there. -/
theorem Landing.getPiece_of_some (hland : Landing e m e') {p : Position} {ref : PieceRef}
    (hp : e'.board.getPiece p = some ref) :
    e.board.getPiece p = some ref ∨ m.isJump = false ∧ p = m.endPos ∧ ref = m.piece := by
  -- both outcomes in which the mover settles come down to the same three writes
  have hsettle : ∀ {t : GameEngine}, (t.settle m).board.getPiece p = some ref →
      t.board.getPiece p = some ref ∨ p = m.endPos ∧ ref = m.piece := by
    intro t ht
    rw [GameEngine.getPiece_settle] at ht
    split at ht
    · next hend => exact Or.inr ⟨hend, (Option.some.inj ht).symm⟩
    · exact Or.inl (unwritten ht (by simp)).2
  cases hland with
  | skipped | jumpEnds | blocked => exact Or.inl hp
  | shotDown jumper =>
    rw [GameEngine.getPiece_capturedByJumper] at hp
    exact Or.inl (unwritten hp (by simp)).2
  | takes target _ hflight =>
    -- the capture only empties the end square
    obtain hp | hend := hsettle hp
    · rw [GameEngine.getPiece_captureTarget] at hp
      exact Or.inl (unwritten hp (by simp)).2
    · exact Or.inr ⟨hflight, hend⟩
  | settles _ hflight => exact (hsettle hp).imp_right fun hend => ⟨hflight, hend⟩

end Keeps

namespace GameEngine

variable {e : GameEngine} {m : Motion}

/-- The arbiter after one turn of the loop. -/
@[simp] theorem arbiter_land : (e.land m).arbiter = e.arbiter := (land_cases e m).arbiter

/-- Colours after one turn of the loop. -/
@[simp] theorem color_land (ref : PieceRef) : ((e.land m).piece ref).color = (e.piece ref).color :=
  (land_cases e m).color ref

/-- The arbiter after a batch. -/
theorem arbiter_foldl_land (batch : List Motion) : (batch.foldl land e).arbiter = e.arbiter :=
  Run.stable (P := fun t : GameEngine => t.arbiter = e.arbiter)
    (fun _ _ h => arbiter_land.trans h) rfl

/-- Colours after a batch. -/
theorem color_foldl_land (batch : List Motion) (ref : PieceRef) :
    ((batch.foldl land e).piece ref).color = (e.piece ref).color :=
  Run.stable (P := fun t : GameEngine => (t.piece ref).color = (e.piece ref).color)
    (fun _ _ h => (color_land ref).trans h) rfl

/-- The squares the motions of a batch take as they land, each with the piece it puts there. -/
def arrivals (e : GameEngine) : List Motion → List (Position × PieceRef)
  | [] => []
  | m :: rest =>
    if (e.land m).board.getPiece m.endPos = some m.piece ∧ m.isJump = false then
      (m.endPos, m.piece) :: (e.land m).arrivals rest
    else (e.land m).arrivals rest

/-- What stands on a square after a batch stood there before, or has arrived with it. -/
theorem getPiece_foldl_land {batch : List Motion} {p : Position} {ref : PieceRef}
    (h : (batch.foldl land e).board.getPiece p = some ref) :
    e.board.getPiece p = some ref ∨ (p, ref) ∈ e.arrivals batch := by
  induction batch generalizing e with
  | nil => exact Or.inl h
  | cons m rest ih =>
    unfold arrivals
    obtain hlanded | hrest := ih h
    · -- what the first landing has put there is an arrival of its own
      obtain hbefore | ⟨hflight, rfl, rfl⟩ := (land_cases e m).getPiece_of_some hlanded
      · exact Or.inl hbefore
      · rw [if_pos ⟨hlanded, hflight⟩]
        exact Or.inr List.mem_cons_self
    · right
      split
      · exact List.mem_cons_of_mem _ hrest
      · exact hrest

end GameEngine

end KungFuChess
