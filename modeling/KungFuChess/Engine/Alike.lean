import Mathlib.Data.List.Forall2
import KungFuChess.Engine.FlightInv
import KungFuChess.Engine.GridBounds
import KungFuChess.Engine.Controller

/-!
# The future of a game depends on what is visible

Two engines look alike if their boards show the same pieces and their motions carry corresponding
pieces over the same squares in the same time. The piece objects may be others: a relation `σ`
between the references of the two engines says which objects correspond. It pairs each
object with one object at most, and it stays the same throughout, because an engine makes no
objects. The numbers of the motions and the scores may differ by a constant.

Each write of the engine keeps two engines alike, hence so do a landing (`Alike.land`), a call
(`Alike.call`) and a game (`Alike.play`). A request is answered from what is visible (`Alike.accepts`).
-/

namespace KungFuChess

open GameEngine RealTimeArbiter PieceRules RuleEngine

variable {σ : PieceRef → PieceRef → Prop}

/-- Both boards show the same pieces; `σ` relates the objects. -/
structure Board.Alike (σ : PieceRef → PieceRef → Prop) (board board' : Board) : Prop where
  size : board'.size = board.size
  getPiece : ∀ p, Option.Rel σ (board.getPiece p) (board'.getPiece p)
  piece : ∀ {ref ref'}, σ ref ref' → board'.piece ref' = board.piece ref

/-- Both motions carry the same piece over the same squares; they are numbered differently. -/
structure Motion.Alike (σ : PieceRef → PieceRef → Prop) (shift : Int) (m m' : Motion) : Prop where
  motionId : (m'.motionId : Int) = m.motionId + shift
  piece : σ m.piece m'.piece
  startPos : m'.startPos = m.startPos
  endPos : m'.endPos = m.endPos
  remainingTime : m'.remainingTime = m.remainingTime
  originalDuration : m'.originalDuration = m.originalDuration
  isJump : m'.isJump = m.isJump

namespace GameEngine

/-- The two engines show the same game; the second has counted `shift` motions and `lead` points
more. -/
structure Alike (σ : PieceRef → PieceRef → Prop) (shift : Int) (lead : Int × Int)
    (e e' : GameEngine) : Prop where
  board : e.board.Alike σ e'.board
  activeMotions : List.Forall₂ (Motion.Alike σ shift) e.arbiter.activeMotions e'.arbiter.activeMotions
  motionCounter : (e'.arbiter.motionCounter : Int) = e.arbiter.motionCounter + shift
  scores : e'.scoreboard.scores = e.scoreboard.scores + lead
  gameOver : e'.gameOver = e.gameOver
  winner : e'.winner = e.winner

end GameEngine

/-! ### Boards -/

namespace Board.Alike

variable {board board' : Board}

/-- Corresponding squares show equal pieces, although the objects may be two. -/
theorem pieceAt (h : board.Alike σ board') (p : Position) : board'.pieceAt p = board.pieceAt p := by
  have hmap : ∀ {o o' : Option PieceRef}, Option.Rel σ o o' →
      o'.map board'.piece = o.map board.piece := fun hrel => by
    cases hrel with
    | none => rfl
    | some href => exact congrArg some (h.piece href)
  exact hmap (h.getPiece p)

theorem numRows (h : board.Alike σ board') : board'.numRows = board.numRows :=
  congrArg Prod.fst h.size

/-- Corresponding occupants are put on one square. -/
theorem setPiece (h : board.Alike σ board') (p : Position) {occupant occupant' : Option PieceRef}
    (hoccupant : Option.Rel σ occupant occupant') :
    (board.setPiece p occupant).Alike σ (board'.setPiece p occupant') := by
  refine ⟨?_, fun p' => ?_, fun href => ?_⟩
  · rw [Board.size_setPiece, Board.size_setPiece, h.size]
  · rw [Board.getPiece_setPiece, Board.getPiece_setPiece]
    split
    · exact hoccupant
    · exact h.getPiece p'
  · rw [Board.piece_setPiece, Board.piece_setPiece]
    exact h.piece href

/-- The objects that correspond are changed in the same way. That `σ` is one to one keeps all others
apart from them. -/
theorem modifyPiece (hσ : Relator.BiUnique σ) (h : board.Alike σ board') {ref ref' : PieceRef}
    (href : σ ref ref') (f : Piece → Piece) :
    (board.modifyPiece ref f).Alike σ (board'.modifyPiece ref' f) := by
  refine ⟨h.size, h.getPiece, fun {other other'} hother => ?_⟩
  have hiff : other = ref ↔ other' = ref' := Relator.rel_eq hσ hother href
  dsimp only [Board.modifyPiece]
  by_cases heq : other = ref
  · rw [heq, hiff.mp heq, Function.update_self, Function.update_self, h.piece href]
  · rw [Function.update_of_ne heq, Function.update_of_ne (mt hiff.mpr heq), h.piece hother]

/-- A status is such a change. -/
theorem setStatus (hσ : Relator.BiUnique σ) (h : board.Alike σ board') {ref ref' : PieceRef}
    (href : σ ref ref') (status : PieceStatus) :
    (board.setStatus ref status).Alike σ (board'.setStatus ref' status) :=
  h.modifyPiece hσ href _

end Board.Alike

/-! ### Legality -/

section Legality

variable {board board' : Board} (hsize : board'.size = board.size)
  (hview : ∀ p, board'.pieceAt p = board.pieceAt p)

include hsize in
/-- The edge of the board is the same. -/
theorem inBounds_congr (r c : Int) : inBounds r c board' = inBounds r c board := by
  obtain ⟨hrows, hcols⟩ := Prod.mk.inj hsize
  unfold inBounds
  rw [hrows, hcols]

/-- A square is empty when it shows nothing. -/
theorem getPiece_eq_none_iff {p : Position} : board.getPiece p = none ↔ board.pieceAt p = none := by
  unfold Board.pieceAt
  rw [Option.map_eq_none_iff]

include hsize hview in
/-- A ray stops at the same squares. -/
theorem ray_congr (color : Color) (dr dc : Int) (fuel : Nat) (r c : Int) :
    ray board' color dr dc fuel r c = ray board color dr dc fuel r c := by
  -- the two walks look at the same square in each step, so the induction is on the fuel
  induction fuel generalizing r c with
  | zero => rfl
  | succ fuel ih =>
    unfold ray
    rw [inBounds_congr hsize, hview, ih]

include hsize hview in
/-- The generators of rooks, bishops and queens read the board through rays. -/
theorem slidingMoves_congr (directions : List (Int × Int)) (start : Position) :
    slidingMoves directions start board' = slidingMoves directions start board := by
  obtain ⟨hrows, hcols⟩ := Prod.mk.inj hsize
  unfold slidingMoves
  rw [hview, hrows, hcols]
  simp only [ray_congr hsize hview]

include hsize hview in
/-- Those of knights and kings read single squares. -/
theorem offsetMoves_congr (offsets : List (Int × Int)) (start : Position) :
    offsetMoves offsets start board' = offsetMoves offsets start board := by
  unfold offsetMoves
  simp only [hview, inBounds_congr hsize]

include hsize hview in
/-- That of pawns also reads the number of rows, for the start row. -/
theorem getPawnMoves_congr (start : Position) :
    getPawnMoves start board' = getPawnMoves start board := by
  have hrows : board'.numRows = board.numRows := congrArg Prod.fst hsize
  unfold getPawnMoves
  simp only [hview, inBounds_congr hsize, hrows, getPiece_eq_none_iff]

include hsize hview in
/-- The rules read the size of the board and the pieces it shows, not the objects. -/
theorem isMoveLegal_congr (startPos endPos : Position) :
    isMoveLegal board' startPos endPos = isMoveLegal board startPos endPos := by
  unfold isMoveLegal ownPieceAt getStraightMoves getDiagonalMoves getKnightMoves getKingMoves
  simp only [hview, slidingMoves_congr hsize hview, offsetMoves_congr hsize hview,
    getPawnMoves_congr hsize hview]

end Legality

/-! ### Motions -/

/-- Erasing corresponding elements keeps two lists in correspondence. One to one is needed, as
`erase` takes the first element that is equal. -/
theorem forall₂_erase {α β : Type} [DecidableEq α] [DecidableEq β] {R : α → β → Prop}
    (hR : Relator.BiUnique R) {l : List α} {l' : List β} (h : List.Forall₂ R l l') {a : α} {a' : β}
    (ha : R a a') : List.Forall₂ R (l.erase a) (l'.erase a') := by
  induction h with
  | nil => exact .nil
  | @cons b b' l l' hb hl ih =>
    -- the heads are both what is erased, or neither is
    have hiff : b = a ↔ b' = a' := Relator.rel_eq hR hb ha
    by_cases heq : b = a
    · rw [heq, hiff.mp heq, List.erase_cons_head, List.erase_cons_head]
      exact hl
    · rw [List.erase_cons_tail (by simpa using heq),
        List.erase_cons_tail (by simpa using mt hiff.mpr heq)]
      exact .cons hb ih

namespace Motion.Alike

variable {shift : Int} {m m' : Motion}

/-- Both motions have moved on by the same time. -/
theorem elapse (hm : m.Alike σ shift m') (ms : Int) :
    (RealTimeArbiter.elapse ms m).Alike σ shift (RealTimeArbiter.elapse ms m') :=
  ⟨hm.motionId, hm.piece, hm.startPos, hm.endPos, congrArg (· - ms) hm.remainingTime,
    hm.originalDuration, hm.isJump⟩

/-- A motion corresponds to one motion at most: all its fields are determined, the number by the
shift. -/
theorem biUnique (hσ : Relator.BiUnique σ) : Relator.BiUnique (Motion.Alike σ shift) := by
  refine ⟨fun m n m' hm hn => ?_, fun m m' n' hm hn => ?_⟩
  · -- two motions with one image: the shift and the relation leave no choice for any field
    have hid : m.motionId = n.motionId := by
      have := hm.motionId
      have := hn.motionId
      omega
    have hpiece := hσ.1 hm.piece hn.piece
    have hstart := hm.startPos.symm.trans hn.startPos
    have hend := hm.endPos.symm.trans hn.endPos
    have htime := hm.remainingTime.symm.trans hn.remainingTime
    have hduration := hm.originalDuration.symm.trans hn.originalDuration
    have hjump := hm.isJump.symm.trans hn.isJump
    obtain ⟨id, piece, startPos, endPos, left, duration, isJump⟩ := m
    obtain ⟨id', piece', startPos', endPos', left', duration', isJump'⟩ := n
    simp only [Motion.mk.injEq]
    exact ⟨hid, hpiece, hstart, hend, htime, hduration, hjump⟩
  · -- two images of one motion, likewise
    have hid : m'.motionId = n'.motionId := by
      have := hm.motionId
      have := hn.motionId
      omega
    have hpiece := hσ.2 hm.piece hn.piece
    have hstart := hm.startPos.trans hn.startPos.symm
    have hend := hm.endPos.trans hn.endPos.symm
    have htime := hm.remainingTime.trans hn.remainingTime.symm
    have hduration := hm.originalDuration.trans hn.originalDuration.symm
    have hjump := hm.isJump.trans hn.isJump.symm
    obtain ⟨id, piece, startPos, endPos, left, duration, isJump⟩ := m'
    obtain ⟨id', piece', startPos', endPos', left', duration', isJump'⟩ := n'
    simp only [Motion.mk.injEq]
    exact ⟨hid, hpiece, hstart, hend, htime, hduration, hjump⟩

/-- The keys of the arbiter compare alike, for the numbers are all shifted by the same amount. -/
theorem launchKey_le (hm : m.Alike σ shift m') {n n' : Motion} (hn : n.Alike σ shift n') :
    toLex (m.remainingTime, m.motionId) ≤ toLex (n.remainingTime, n.motionId) ↔
      toLex (m'.remainingTime, m'.motionId) ≤ toLex (n'.remainingTime, n'.motionId) := by
  have hm' := hm.motionId
  have hn' := hn.motionId
  -- only the numbers differ, and they are compared last
  rw [Prod.Lex.toLex_le_toLex, Prod.Lex.toLex_le_toLex, hm.remainingTime, hn.remainingTime]
  refine or_congr Iff.rfl (and_congr Iff.rfl ?_)
  dsimp only
  omega

/-- The batch keys compare alike: the numbers are all shifted by the same amount. -/
theorem batchKey_le (hm : m.Alike σ shift m') {n n' : Motion} (hn : n.Alike σ shift n') :
    batchKey m ≤ batchKey n ↔ batchKey m' ≤ batchKey n' := by
  have hm' := hm.motionId
  have hn' := hn.motionId
  unfold batchKey
  simp only [Prod.Lex.toLex_le_toLex, hm.remainingTime, hn.remainingTime, hm.originalDuration,
    hn.originalDuration, hm.isJump, hn.isJump]
  refine or_congr Iff.rfl (and_congr Iff.rfl (or_congr Iff.rfl (and_congr Iff.rfl
    (or_congr Iff.rfl (and_congr Iff.rfl ?_)))))
  omega

/-- The new motion meets one head-on in both engines or in none. -/
theorem meetsHeadOn {active active' : List Motion}
    (hm : m.Alike σ shift m') (hactive : List.Forall₂ (Motion.Alike σ shift) active active') :
    RealTimeArbiter.meetsHeadOn active' m' = RealTimeArbiter.meetsHeadOn active m := by
  unfold RealTimeArbiter.meetsHeadOn
  induction hactive with
  | nil => rfl
  | @cons n n' active active' hn _ ih =>
    -- the motion is told from itself by its number, which is shifted for all
    have hid : n'.motionId ≠ m'.motionId ↔ n.motionId ≠ m.motionId := by
      have := hm.motionId
      have := hn.motionId
      omega
    have hcourse : areOnCollisionCourse n' m' = areOnCollisionCourse n m := by
      unfold areOnCollisionCourse
      rw [hn.startPos, hn.endPos, hm.startPos, hm.endPos]
    rw [List.any_cons, List.any_cons, ih, hcourse, decide_eq_decide.mpr hid]

end Motion.Alike

/-! ### Landings -/

namespace GameEngine.Alike

variable {shift : Int} {lead : Int × Int} {e e' : GameEngine} {m m' : Motion}

/-- Writing both boards alike keeps the engines alike. -/
theorem withBoard (h : e.Alike σ shift lead e') {board board' : Board}
    (hboard : board.Alike σ board') :
    ({ e with board := board } : GameEngine).Alike σ shift lead { e' with board := board' } :=
  ⟨hboard, h.activeMotions, h.motionCounter, h.scores, h.gameOver, h.winner⟩

/-- A status is written to corresponding objects. -/
theorem setStatus (hσ : Relator.BiUnique σ) (h : e.Alike σ shift lead e') {ref ref' : PieceRef}
    (href : σ ref ref') (status : PieceStatus) :
    (e.setStatus ref status).Alike σ shift lead (e'.setStatus ref' status) :=
  h.withBoard (h.board.setStatus hσ href status)

/-- A square holds a piece in the first engine when it holds the corresponding one in the second. -/
theorem getPiece_eq_some_iff (hσ : Relator.BiUnique σ) (h : e.Alike σ shift lead e')
    {ref ref' : PieceRef} (href : σ ref ref') (p : Position) :
    e'.board.getPiece p = some ref' ↔ e.board.getPiece p = some ref := by
  have hrel : ∀ {o o' : Option PieceRef}, Option.Rel σ o o' → (o' = some ref' ↔ o = some ref) := by
    intro o o' ho
    cases ho with
    | none => simp
    | some hother => simpa using (Relator.rel_eq hσ hother href).symm
  exact hrel (h.board.getPiece p)

/-- The start squares are emptied in both engines or in neither. -/
theorem leaveStart (hσ : Relator.BiUnique σ) (h : e.Alike σ shift lead e')
    (hm : m.Alike σ shift m') : (e.leaveStart m).Alike σ shift lead (e'.leaveStart m') := by
  -- which of the two is decided by whether the mover still stands there
  have hstart := h.getPiece_eq_some_iff hσ hm.piece m.startPos
  unfold GameEngine.leaveStart
  rw [hm.startPos]
  by_cases hstands : e.board.getPiece m.startPos = some m.piece
  · rw [if_pos hstands, if_pos (hstart.mpr hstands)]
    exact h.withBoard (h.board.setPiece m.startPos Option.Rel.none)
  · rw [if_neg hstands, if_neg (mt hstart.mp hstands)]
    exact h

/-- Points are added to both sides of a fixed lead. -/
theorem scores_addCapturePoints {s s' : Scoreboard} (h : s'.scores = s.scores + lead)
    (color : Color) (pieceType : PieceType) :
    (s'.addCapturePoints color pieceType).scores =
      (s.addCapturePoints color pieceType).scores + lead := by
  obtain ⟨h1, h2⟩ := Prod.mk.inj h
  cases color
  · refine Prod.ext ?_ h2
    change s'.plaier1Score + _ = s.plaier1Score + _ + lead.1
    rw [h1]
    exact add_right_comm _ _ _
  · refine Prod.ext h1 ?_
    change s'.plaier2Score + _ = s.plaier2Score + _ + lead.2
    rw [h2]
    exact add_right_comm _ _ _

/-- A capture counts the same points, and ends both games or neither. -/
theorem scoreCapture (h : e.Alike σ shift lead e') {capturer capturer' captured captured' : PieceRef}
    (hcapturer : σ capturer capturer') (hcaptured : σ captured captured') :
    (e.scoreCapture capturer captured).Alike σ shift lead (e'.scoreCapture capturer' captured') := by
  have hscores := scores_addCapturePoints h.scores (e.piece capturer).color
    (e.piece captured).pieceType
  unfold GameEngine.scoreCapture
  rw [show e'.piece capturer' = e.piece capturer from h.board.piece hcapturer,
    show e'.piece captured' = e.piece captured from h.board.piece hcaptured]
  by_cases hking : (e.piece captured).pieceType = .k
  · rw [if_pos hking, if_pos hking]
    exact ⟨h.board, h.activeMotions, h.motionCounter, hscores, rfl, rfl⟩
  · rw [if_neg hking, if_neg hking]
    exact ⟨h.board, h.activeMotions, h.motionCounter, hscores, h.gameOver, h.winner⟩

/-- A mover is shot down in both. -/
theorem capturedByJumper (hσ : Relator.BiUnique σ) (h : e.Alike σ shift lead e')
    (hm : m.Alike σ shift m') {jumper jumper' : PieceRef} (hjumper : σ jumper jumper') :
    (e.capturedByJumper m jumper).Alike σ shift lead (e'.capturedByJumper m' jumper') :=
  ((h.setStatus hσ hm.piece .captured).scoreCapture hjumper hm.piece).leaveStart hσ hm

/-- An idle target is taken in both. -/
theorem captureTarget (hσ : Relator.BiUnique σ) (h : e.Alike σ shift lead e')
    (hm : m.Alike σ shift m') {target target' : PieceRef} (htarget : σ target target') :
    (e.captureTarget m target).Alike σ shift lead (e'.captureTarget m' target') := by
  have hscored := (h.setStatus hσ htarget .captured).scoreCapture hm.piece htarget
  unfold GameEngine.captureTarget
  rw [hm.endPos]
  exact hscored.withBoard (hscored.board.setPiece m.endPos Option.Rel.none)

/-- A pawn is promoted in both: its colour and the number of rows decide. -/
theorem promote (hσ : Relator.BiUnique σ) (h : e.Alike σ shift lead e')
    (hm : m.Alike σ shift m') : (e.promote m).Alike σ shift lead (e'.promote m') := by
  have hmover : e'.piece m'.piece = e.piece m.piece := h.board.piece hm.piece
  have hrow : ∀ color, promotionRow e'.board color = promotionRow e.board color := fun color => by
    rw [promotionRow, promotionRow, h.board.numRows]
  unfold GameEngine.promote
  rw [hmover, hm.endPos, hrow]
  split
  · exact h.withBoard (h.board.modifyPiece hσ hm.piece _)
  · exact h

/-- The mover takes the end square in both. -/
theorem settle (hσ : Relator.BiUnique σ) (h : e.Alike σ shift lead e') (hm : m.Alike σ shift m') :
    (e.settle m).Alike σ shift lead (e'.settle m') := by
  have hleft := (h.setStatus hσ hm.piece .idle).leaveStart hσ hm
  unfold GameEngine.settle
  rw [hm.endPos]
  exact (hleft.withBoard (hleft.board.setPiece m.endPos (Option.Rel.some hm.piece))).promote hσ hm

/-- **Landings in engines that look alike.** -/
theorem land (hσ : Relator.BiUnique σ) (h : e.Alike σ shift lead e') (hm : m.Alike σ shift m') :
    (e.land m).Alike σ shift lead (e'.land m') := by
  have hmover : e'.piece m'.piece = e.piece m.piece := h.board.piece hm.piece
  have hidle := h.setStatus hσ hm.piece .idle
  have hend := h.board.getPiece m.endPos
  unfold GameEngine.land
  rw [hmover, hm.isJump, hm.endPos]
  -- a captured mover, a jump, and a motion with an end square
  split
  · exact h
  · split
    · exact hidle
    · -- what stands on the end square decides, in both engines alike
      generalize e.board.getPiece m.endPos = occupant at hend ⊢
      generalize e'.board.getPiece m.endPos = occupant' at hend ⊢
      cases hend with
      | none => exact h.settle hσ hm
      | @some target target' htarget =>
        have htarget' : e'.piece target' = e.piece target := h.board.piece htarget
        dsimp only
        rw [htarget']
        split
        · exact h.capturedByJumper hσ hm htarget
        · split
          · split
            · exact hidle
            · exact (h.captureTarget hσ hm htarget).settle hσ hm
          · exact h.settle hσ hm

/-- A batch is landed motion by motion. -/
theorem foldl_land (hσ : Relator.BiUnique σ) {batch batch' : List Motion}
    (hbatch : List.Forall₂ (Motion.Alike σ shift) batch batch') (h : e.Alike σ shift lead e') :
    (batch.foldl GameEngine.land e).Alike σ shift lead (batch'.foldl GameEngine.land e') := by
  induction hbatch generalizing e e' with
  | nil => exact h
  | cons hm _ ih => exact ih (h.land hσ hm)

/-! ### The clock -/

/-- The motions that a property of the remaining time selects at a tick. -/
theorem selected (h : e.Alike σ shift lead e') (ms : Int) (select : Int → Bool) :
    List.Forall₂ (Motion.Alike σ shift)
      ((e.arbiter.activeMotions.map (RealTimeArbiter.elapse ms)).filter (select ·.remainingTime))
      ((e'.arbiter.activeMotions.map (RealTimeArbiter.elapse ms)).filter (select ·.remainingTime)) := by
  have hmap := List.rel_map (R := Motion.Alike σ shift) (P := Motion.Alike σ shift)
    (fun _ _ hm => hm.elapse ms) h.activeMotions
  refine List.rel_filter (fun m m' hm => ?_) hmap
  change select m.remainingTime = true ↔ select m'.remainingTime = true
  rw [hm.remainingTime]

/-- The batches correspond, in their order: both sorts compare alike. -/
theorem completedMotions (h : e.Alike σ shift lead e') (ms : Int) :
    List.Forall₂ (Motion.Alike σ shift) (e.completedMotions ms) (e'.completedMotions ms) :=
  Sorting.sortBy_forall₂ (fun hm hn => hm.batchKey_le hn)
    (Sorting.sortBy_forall₂ (fun hm hn => hm.launchKey_le hn)
      (h.selected ms fun left => decide (left ≤ 0)))

/-- **Clocks.** The motions left and the motions that land correspond. -/
theorem updateGameClock (hσ : Relator.BiUnique σ) (h : e.Alike σ shift lead e') (ms : Int) :
    (e.updateGameClock ms).Alike σ shift lead (e'.updateGameClock ms) := by
  have hadvanced : (e.afterAdvance ms).Alike σ shift lead (e'.afterAdvance ms) :=
    ⟨h.board, h.selected ms fun left => !decide (left ≤ 0), h.motionCounter, h.scores, h.gameOver,
      h.winner⟩
  unfold GameEngine.updateGameClock
  rw [h.gameOver]
  split
  · exact h
  · exact hadvanced.foldl_land hσ (h.completedMotions ms)

/-! ### Requests -/

/-- A request finds corresponding pieces, or none in either. -/
theorem launchable (h : e.Alike σ shift lead e') (p : Position) :
    Option.Rel σ (e.launchable p) (e'.launchable p) := by
  have hocc := h.board.getPiece p
  unfold GameEngine.launchable
  rw [h.gameOver]
  split
  · exact Option.Rel.none
  · -- the occupants are related, and so are their statuses
    generalize e.board.getPiece p = occupant at hocc ⊢
    generalize e'.board.getPiece p = occupant' at hocc ⊢
    cases hocc with
    | none => exact Option.Rel.none
    | @some ref ref' href =>
      have hpiece : e'.piece ref' = e.piece ref := h.board.piece href
      rw [Option.filter_some, Option.filter_some, hpiece]
      split
      · exact Option.Rel.some href
      · exact Option.Rel.none

/-- A move is written into both histories and changes no score. -/
theorem scores_addMove {s s' : Scoreboard} (h : s'.scores = s.scores + lead) (color : Color)
    (text : String) : (s'.addMove color text).scores = (s.addMove color text).scores + lead := by
  rw [Scoreboard.scores_addMove, Scoreboard.scores_addMove, h]

/-- The two new motions get the next number of their own engine. -/
theorem jumpMotion (h : e.Alike σ shift lead e') {ref ref' : PieceRef} (href : σ ref ref')
    (p : Position) (durationMs : Int) :
    (e.arbiter.jumpMotion ref p durationMs).Alike σ shift (e'.arbiter.jumpMotion ref' p durationMs) := by
  have hcounter := h.motionCounter
  refine ⟨?_, href, rfl, rfl, rfl, rfl, rfl⟩
  dsimp only [RealTimeArbiter.jumpMotion]
  omega

/-- So do those of a move. -/
theorem newMotion (h : e.Alike σ shift lead e') {ref ref' : PieceRef} (href : σ ref ref')
    (startPos endPos : Position) (durationMs : Int) :
    (e.arbiter.newMotion ref startPos endPos durationMs).Alike σ shift
      (e'.arbiter.newMotion ref' startPos endPos durationMs) := by
  have hcounter := h.motionCounter
  refine ⟨?_, href, rfl, rfl, rfl, rfl, rfl⟩
  dsimp only [RealTimeArbiter.newMotion]
  omega

/-- The counters keep their distance. -/
theorem motionCounter_succ (h : e.Alike σ shift lead e') :
    ((e'.arbiter.motionCounter + 1 : Nat) : Int) = (e.arbiter.motionCounter + 1 : Nat) + shift := by
  have hcounter := h.motionCounter
  omega

/-- **Jumps** are accepted in both or in neither. -/
theorem handleJumpRequest (hσ : Relator.BiUnique σ) (h : e.Alike σ shift lead e') (p : Position) :
    (e.handleJumpRequest p).1.Alike σ shift lead (e'.handleJumpRequest p).1 ∧
      (e'.handleJumpRequest p).2 = (e.handleJumpRequest p).2 := by
  have hlaunch := h.launchable p
  unfold GameEngine.handleJumpRequest
  -- the square asked for decides
  generalize e.launchable p = launched at hlaunch ⊢
  generalize e'.launchable p = launched' at hlaunch ⊢
  cases hlaunch with
  | none => exact ⟨h, rfl⟩
  | @some ref ref' href =>
    have hpiece : e'.piece ref' = e.piece ref := h.board.piece href
    dsimp only
    rw [hpiece]
    exact ⟨⟨h.board.setStatus hσ href .jumping,
      List.rel_append h.activeMotions (.cons (h.jumpMotion href p 1000) .nil),
      h.motionCounter_succ, scores_addMove h.scores _ _, h.gameOver, h.winner⟩, rfl⟩

/-- A head-on meeting drops both new motions or neither. -/
theorem resolveCommonRouteCollision (hσ : Relator.BiUnique σ) {active active' : List Motion}
    (hactive : List.Forall₂ (Motion.Alike σ shift) active active') (hm : m.Alike σ shift m') :
    List.Forall₂ (Motion.Alike σ shift) (RealTimeArbiter.resolveCommonRouteCollision active m)
      (RealTimeArbiter.resolveCommonRouteCollision active' m') := by
  unfold RealTimeArbiter.resolveCommonRouteCollision
  rw [hm.meetsHeadOn hactive]
  split
  · exact forall₂_erase (Motion.Alike.biUnique hσ) hactive hm
  · exact hactive

/-- **Moves** are accepted in both or in neither. -/
theorem handleMoveRequest (hσ : Relator.BiUnique σ) (h : e.Alike σ shift lead e')
    (startPos endPos : Position) (durationMs : Int) :
    (e.handleMoveRequest startPos endPos durationMs).1.Alike σ shift lead
        (e'.handleMoveRequest startPos endPos durationMs).1 ∧
      (e'.handleMoveRequest startPos endPos durationMs).2 =
        (e.handleMoveRequest startPos endPos durationMs).2 := by
  have hlaunch := h.launchable startPos
  unfold GameEngine.handleMoveRequest
  rw [isMoveLegal_congr h.board.size h.board.pieceAt]
  generalize e.launchable startPos = launched at hlaunch ⊢
  generalize e'.launchable startPos = launched' at hlaunch ⊢
  cases hlaunch with
  | none => exact ⟨h, rfl⟩
  | @some ref ref' href =>
    have hpiece : e'.piece ref' = e.piece ref := h.board.piece href
    have hm := h.newMotion href startPos endPos durationMs
    dsimp only
    rw [hpiece]
    -- legality has been shown to be the same, so one split serves both engines
    split
    · exact ⟨⟨h.board.setStatus hσ href .moving,
        resolveCommonRouteCollision hσ (List.rel_append h.activeMotions (.cons hm .nil)) hm,
        h.motionCounter_succ, scores_addMove h.scores _ _, h.gameOver, h.winner⟩, rfl⟩
    · exact ⟨h, rfl⟩

/-! ### Games -/

/-- **One call.** -/
theorem call (hσ : Relator.BiUnique σ) (h : e.Alike σ shift lead e') (c : Call) :
    (e.call c).Alike σ shift lead (e'.call c) := by
  cases c with
  | move startPos endPos durationMs => exact (h.handleMoveRequest hσ startPos endPos durationMs).1
  | jump position => exact (h.handleJumpRequest hσ position).1
  | tick ms => exact h.updateGameClock hσ ms

/-- A request is answered alike. -/
theorem accepts (hσ : Relator.BiUnique σ) (h : e.Alike σ shift lead e') (c : Call) :
    e'.accepts c = e.accepts c := by
  cases c with
  | move startPos endPos durationMs => exact (h.handleMoveRequest hσ startPos endPos durationMs).2
  | jump position => exact (h.handleJumpRequest hσ position).2
  | tick ms => rfl

/-- **A whole game.** The calls are the same, and each keeps the engines alike. -/
theorem play (hσ : Relator.BiUnique σ) (h : e.Alike σ shift lead e') (calls : List Call) :
    (e.play calls).Alike σ shift lead (e'.play calls) := by
  induction calls generalizing e e' with
  | nil => exact h
  | cons c calls ih => exact ih (h.call hσ c)

end GameEngine.Alike

end KungFuChess
