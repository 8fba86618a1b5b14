import KungFuChess.Engine.Captures

/-!
# After the first king capture

A king capture sets `gameOver` and `winner`, but the loop of the tick goes on: the
motions of the batch that come later still land. Requests and later ticks check
`gameOver`, so nothing happens after the tick (`play_of_gameOver`).

`Inert` says that a landing changes neither the winner, nor the scores, nor the grid, read
off the state before it (`Landing.outcome_iff`). The first king capture of a tick is
final exactly when the landings after it are inert (`firstKingFinal_iff`).
-/

namespace KungFuChess

open GameEngine BoardParser

namespace GameEngine

/-- What a king capture is to settle: the winner, the scores and the grid. -/
def outcome (e : GameEngine) : Option Color × (Int × Int) × Dict Position PieceRef :=
  (e.winner, e.scoreboard.scores, e.board.grid)

/-- The colour that takes a king by the landing of `motion`. -/
def kingTaker (e : GameEngine) (motion : Motion) : Option Color :=
  (e.captureOf motion).bind fun capture =>
    if (e.piece capture.2).pieceType = .k then some (e.piece capture.1).color else none

/-- The landing of `motion` ends a jump, or is blocked, or captures a king that has left
its start square for the player who has won anyway. -/
def Inert (e : GameEngine) (motion : Motion) : Prop :=
  motion.isJump = true ∨ (e.piece motion.piece).status = .captured ∨
    ∃ occupant ∈ e.board.getPiece motion.endPos,
      ((e.piece occupant).status = .idle ∧
        (e.piece occupant).color = (e.piece motion.piece).color) ∨
      ((e.piece occupant).status = .jumping ∧
        (e.piece occupant).color ≠ (e.piece motion.piece).color ∧
        (e.piece motion.piece).pieceType = .k ∧
        e.board.getPiece motion.startPos ≠ some motion.piece ∧
        e.winner = some (e.piece occupant).color)

end GameEngine

/-- The landing of `m` is the first king capture of the tick, for `color`; `landed` are
the motions before it and `rest` the motions after it. -/
structure FirstKingCapture (e : GameEngine) (ms : Int) (landed : List Motion) (m : Motion)
    (rest : List Motion) (color : Color) : Prop where
  batch : e.completedMotions ms = landed ++ m :: rest
  earlier : Run.Guarded land (fun t m' _ => t.kingTaker m' = none) (e.afterAdvance ms) landed
  taker : (landed.foldl land (e.afterAdvance ms)).kingTaker m = some color

/-- If the tick captures a king, the colour of the first capturer has won, and nothing
after that capture changes the winner, the scores or the grid: no later motion of the
batch, and no later call. -/
def FirstKingFinal (e : GameEngine) (ms : Int) : Prop :=
  ∀ landed m rest color, FirstKingCapture e ms landed m rest color →
    let taken := (landed.foldl land (e.afterAdvance ms)).land m
    (e.call (.tick ms)).winner = some color ∧
      (∀ pre, pre <+: rest → (pre.foldl land taken).outcome = taken.outcome) ∧
      ∀ calls, ((e.call (.tick ms)).play calls).outcome = taken.outcome

/-! ### The end of the game -/

namespace GameEngine

variable {e : GameEngine}

/-- **A game that is over is over.** -/
theorem play_of_gameOver (hover : e.gameOver = true) (calls : List Call) : e.play calls = e :=
  Run.stable (P := fun t => t = e) (fun t c ht => by rw [ht, call_of_gameOver hover]) rfl

/-! ### What a landing writes -/

variable (e) (m : Motion) (capturer captured : PieceRef)

theorem scores_addCapturePoints_eq_iff (s : Scoreboard) (color : Color) (pieceType : PieceType) :
    (s.addCapturePoints color pieceType).scores = s.scores ↔ pieceType = .k := by
  cases color <;> cases pieceType <;>
    simp [Scoreboard.addCapturePoints, Scoreboard.scores, pieceValues]

@[simp] theorem winner_leaveStart : (e.leaveStart m).winner = e.winner := by
  unfold leaveStart
  split <;> rfl

@[simp] theorem gameOver_leaveStart : (e.leaveStart m).gameOver = e.gameOver := by
  unfold leaveStart
  split <;> rfl

@[simp] theorem scoreboard_leaveStart : (e.leaveStart m).scoreboard = e.scoreboard := by
  unfold leaveStart
  split <;> rfl

@[simp] theorem winner_promote : (e.promote m).winner = e.winner := by
  unfold promote
  split <;> rfl

@[simp] theorem gameOver_promote : (e.promote m).gameOver = e.gameOver := by
  unfold promote
  split <;> rfl

/-- A mover that settles decides nothing; its capture has done so before. -/
@[simp] theorem winner_settle : (e.settle m).winner = e.winner := by
  unfold settle
  dsimp only
  rw [winner_promote]
  exact winner_leaveStart _ _

/-- And does not end the game. -/
@[simp] theorem gameOver_settle : (e.settle m).gameOver = e.gameOver := by
  unfold settle
  dsimp only
  rw [gameOver_promote]
  exact gameOver_leaveStart _ _

/-- A captured king decides the game for the capturer. -/
theorem winner_scoreCapture :
    (e.scoreCapture capturer captured).winner =
      if (e.piece captured).pieceType = .k then some (e.piece capturer).color else e.winner := by
  unfold scoreCapture
  split <;> rfl

/-- A captured king ends it. -/
theorem gameOver_scoreCapture :
    (e.scoreCapture capturer captured).gameOver =
      if (e.piece captured).pieceType = .k then true else e.gameOver := by
  unfold scoreCapture
  split <;> rfl

/-- The capturer gets the points. -/
theorem scoreboard_scoreCapture :
    (e.scoreCapture capturer captured).scoreboard =
      e.scoreboard.addCapturePoints (e.piece capturer).color (e.piece captured).pieceType := by
  unfold scoreCapture
  split <;> rfl

/-- A king that is shot down loses the game for its owner. -/
theorem winner_capturedByJumper :
    (e.capturedByJumper m capturer).winner =
      if (e.piece m.piece).pieceType = .k then some (e.piece capturer).color else e.winner := by
  rw [capturedByJumper, winner_leaveStart, winner_scoreCapture, piece_setStatus_pieceType,
    piece_setStatus_color]
  rfl

/-- It ends the game. -/
theorem gameOver_capturedByJumper :
    (e.capturedByJumper m capturer).gameOver =
      if (e.piece m.piece).pieceType = .k then true else e.gameOver := by
  rw [capturedByJumper, gameOver_leaveStart, gameOver_scoreCapture, piece_setStatus_pieceType]
  rfl

/-- The jumper gets the points of the mover. -/
theorem scoreboard_capturedByJumper :
    (e.capturedByJumper m capturer).scoreboard =
      e.scoreboard.addCapturePoints (e.piece capturer).color (e.piece m.piece).pieceType := by
  rw [capturedByJumper, scoreboard_leaveStart, scoreboard_scoreCapture,
    piece_setStatus_pieceType, piece_setStatus_color]
  rfl

/-- A king that is taken where it stands decides the game. -/
theorem winner_captureTarget :
    (e.captureTarget m captured).winner =
      if (e.piece captured).pieceType = .k then some (e.piece m.piece).color else e.winner := by
  change ((e.setStatus captured .captured).scoreCapture m.piece captured).winner = _
  rw [winner_scoreCapture, piece_setStatus_pieceType, piece_setStatus_color]
  rfl

/-- It ends the game. -/
theorem gameOver_captureTarget :
    (e.captureTarget m captured).gameOver =
      if (e.piece captured).pieceType = .k then true else e.gameOver := by
  change ((e.setStatus captured .captured).scoreCapture m.piece captured).gameOver = _
  rw [gameOver_scoreCapture, piece_setStatus_pieceType]
  rfl

end GameEngine

/-! ### One landing -/

section Landing

variable {e e' : GameEngine} {m : Motion} {rest : List Motion}

/-- No landing takes back the end of the game. -/
theorem Landing.gameOver_mono (hland : Landing e m e') (hover : e.gameOver = true) :
    e'.gameOver = true := by
  cases hland with
  | skipped | jumpEnds | blocked => exact hover
  | shotDown jumper => rw [gameOver_capturedByJumper, hover, ite_self]
  | takes target => rw [gameOver_settle, gameOver_captureTarget, hover, ite_self]
  | settles => rw [gameOver_settle, hover]

/-- The capture of a king ends the game for its capturer. -/
theorem Landing.kingTaken (hland : Landing e m e') {color : Color}
    (htaker : e.kingTaker m = some color) : e'.gameOver = true ∧ e'.winner = some color := by
  obtain ⟨⟨capturer, captured⟩, hcapture, htaker⟩ := Option.bind_eq_some_iff.mp htaker
  dsimp only at htaker
  split at htaker
  · next hking =>
    obtain rfl := Option.some.inj htaker
    -- a capture is by a jumper or of an idle target, and the king is what is captured
    rcases hland.captureOf_cases with ⟨hnone, -⟩ | ⟨jumper, hcap, rfl, -⟩ | ⟨target, hcap, rfl, -⟩
    · exact absurd (hnone.symm.trans hcapture) (by simp)
    · obtain ⟨rfl, rfl⟩ := Prod.mk.inj (Option.some.inj (hcap.symm.trans hcapture))
      rw [gameOver_capturedByJumper, winner_capturedByJumper, if_pos hking, if_pos hking]
      exact ⟨rfl, rfl⟩
    · obtain ⟨rfl, rfl⟩ := Prod.mk.inj (Option.some.inj (hcap.symm.trans hcapture))
      rw [gameOver_settle, winner_settle, gameOver_captureTarget, winner_captureTarget,
        if_pos hking, if_pos hking]
      exact ⟨rfl, rfl⟩
  · exact absurd htaker (by simp)

/-- Only the capture of a king ends the game. -/
theorem Landing.gameOver_of_not_taken (hland : Landing e m e') (hnone : e.kingTaker m = none) :
    e'.gameOver = e.gameOver := by
  -- nothing that this landing captures is a king
  have hking : ∀ capturer captured, e.captureOf m = some (capturer, captured) →
      (e.piece captured).pieceType ≠ .k := by
    intro capturer captured hcapture htype
    unfold kingTaker at hnone
    rw [hcapture, Option.bind_some, if_pos htype] at hnone
    exact absurd hnone (by simp)
  rcases hland.captureOf_cases with ⟨-, rfl | rfl | rfl⟩ | ⟨jumper, hcap, rfl, -⟩ |
    ⟨target, hcap, rfl, -⟩
  · rfl
  · rfl
  · rw [gameOver_settle]
  · rw [gameOver_capturedByJumper, if_neg (hking _ _ hcap)]
  · rw [gameOver_settle, gameOver_captureTarget, if_neg (hking _ _ hcap)]

/-- A landing that puts the mover on its end square changes the grid. -/
theorem FlightInv.outcome_ne (h : FlightInv e (m :: rest)) (hflight : m.isJump = false)
    (hend : e'.board.getPiece m.endPos = some m.piece) : e'.outcome ≠ e.outcome := by
  intro heq
  have hgrid : e'.board.grid = e.board.grid := (Prod.mk.inj (Prod.mk.inj heq).2).2
  rw [Board.getPiece, hgrid] at hend
  exact h.getPiece_end_ne hflight hend

/-- **Exactness, one landing.** -/
theorem Landing.outcome_iff (hland : Landing e m e') (h : FlightInv e (m :: rest)) :
    e.Inert m ↔ e'.outcome = e.outcome := by
  cases hland with
  -- three outcomes that are inert and change nothing
  | skipped hcaptured => exact iff_of_true (Or.inr (Or.inl hcaptured)) rfl
  | jumpEnds _ hjump => exact iff_of_true (Or.inl hjump) rfl
  | blocked friend halive hflight hend hidle hfriend =>
    exact iff_of_true (Or.inr (Or.inr ⟨friend, hend, Or.inl ⟨hidle, hfriend⟩⟩)) rfl
  -- two that put the mover on its end square
  | takes target halive hflight hend hidle henemy =>
    refine iff_of_false ?_ (h.outcome_ne hflight (by rw [getPiece_settle, if_pos rfl]))
    rintro (hjump | hcaptured | ⟨occupant, hend', hcase⟩)
    · exact absurd (hflight.symm.trans hjump) (by simp)
    · exact halive hcaptured
    · obtain rfl : target = occupant := Option.some.inj (hend.symm.trans hend')
      rcases hcase with ⟨-, hfriend⟩ | ⟨hjumping, -⟩
      · exact henemy hfriend
      · exact absurd (hidle.symm.trans hjumping) (by simp)
  | settles halive hflight hover =>
    refine iff_of_false ?_ (h.outcome_ne hflight (by rw [getPiece_settle, if_pos rfl]))
    rintro (hjump | hcaptured | ⟨occupant, hend, hcase⟩)
    · exact absurd (hflight.symm.trans hjump) (by simp)
    · exact halive hcaptured
    · obtain ⟨hbusy, hfriend⟩ := hover occupant hend
      rcases hcase with ⟨hidle, -⟩ | ⟨hjumping, henemy, -⟩
      · exact hbusy hidle
      · exact henemy (hfriend hjumping)
  -- a mover shot down: a king that has left its start square changes the winner at most
  | shotDown jumper halive hflight hend hjumping henemy =>
    constructor
    · rintro (hjump | hcaptured | ⟨occupant, hend', hcase⟩)
      · exact absurd (hflight.symm.trans hjump) (by simp)
      · exact absurd hcaptured halive
      · obtain rfl : jumper = occupant := Option.some.inj (hend.symm.trans hend')
        rcases hcase with ⟨hidle, -⟩ | ⟨-, -, hking, hstart, hwinner⟩
        · exact absurd (hidle.symm.trans hjumping) (by simp)
        · -- a king scores nothing, and the grid entry of the start square is another's
          have hgrid : (e.capturedByJumper m jumper).board.grid = e.board.grid := by
            rw [capturedByJumper, leaveStart, if_neg, board_scoreCapture]
            · rfl
            · rw [board_scoreCapture]
              exact hstart
          rw [outcome, winner_capturedByJumper, scoreboard_capturedByJumper, if_pos hking, hgrid,
            (scores_addCapturePoints_eq_iff _ _ _).mpr hking, ← hwinner]
          rfl
    · intro heq
      obtain ⟨hwinner, hrest⟩ := Prod.mk.inj heq
      obtain ⟨hscores, hgrid⟩ := Prod.mk.inj hrest
      rw [scoreboard_capturedByJumper, scores_addCapturePoints_eq_iff] at hscores
      rw [winner_capturedByJumper, if_pos hscores] at hwinner
      refine Or.inr (Or.inr ⟨jumper, hend, Or.inr ⟨hjumping, henemy, hscores, ?_, hwinner.symm⟩⟩)
      -- had the mover still been on its start square, the entry would be gone
      intro hstart
      have hleft := getPiece_capturedByJumper e m jumper m.startPos
      rw [if_pos ⟨rfl, hstart⟩, Board.getPiece, hgrid] at hleft
      exact absurd (hstart.symm.trans hleft) (by simp)

end Landing

/-! ### The tick -/

section Tick

variable {e : GameEngine}

/-- After a king capture, the later landings of the batch leave the outcome alone
exactly when each of them is inert. -/
theorem inert_iff_outcome {rest : List Motion}
    (h : FlightInv e (rest ++ e.arbiter.activeMotions)) :
    Run.Guarded land (fun t m _ => t.Inert m) e rest ↔
      ∀ pre, pre <+: rest → (pre.foldl land e).outcome = e.outcome := by
  rw [← Run.throughout_iff_prefix (Q := fun t : GameEngine => t.outcome = e.outcome)]
  refine Run.guarded_iff_throughout
    (J := fun t rest => FlightInv t (rest ++ t.arbiter.activeMotions)) ?_ ?_ h rfl
  · intro t m rest ht
    rw [arbiter_land]
    exact (land_cases t m).flightInv ht
  · intro t m rest ht hP
    rw [(land_cases t m).outcome_iff ht, hP]

/-- **The first king capture of a tick is final exactly when the later landings of its
batch are inert.** -/
theorem firstKingFinal_iff {boardLines : List String} {board : Board}
    (hparse : parseInitialBoard boardLines = .ok board) (calls : List Call) (ms : Int)
    (hrunning : ((GameEngine.new board).play calls).gameOver = false) :
    FirstKingFinal ((GameEngine.new board).play calls) ms ↔
      ∀ landed m rest color,
        FirstKingCapture ((GameEngine.new board).play calls) ms landed m rest color →
          Run.Guarded land (fun t m' _ => t.Inert m')
            ((landed.foldl land (((GameEngine.new board).play calls).afterAdvance ms)).land m)
            rest := by
  have hI := (FlightInv.new (Parsed.of_parseInitialBoard hparse)).play calls
  generalize (GameEngine.new board).play calls = e at hrunning hI
  refine forall₅_congr fun landed m rest color hfirst => ?_
  -- the flights when the king has been taken are the rest of the batch and the active ones
  have hstart := hI.afterAdvance ms
  rw [hfirst.batch, List.append_assoc, List.cons_append] at hstart
  have hbefore := Run.invariant
    (P := fun t landed => FlightInv t (landed ++ m :: (rest ++ t.arbiter.activeMotions)))
    (fun t m' landed ht => by rw [arbiter_land]; exact (land_cases t m').flightInv ht) hstart
  have htaken := (land_cases _ m).flightInv hbefore
  -- the king is taken, and what the tick leads to is what the rest of the batch leads to
  obtain ⟨hover, hwinner⟩ := (land_cases _ m).kingTaken hfirst.taker
  have hcall : e.call (.tick ms) =
      rest.foldl land ((landed.foldl land (e.afterAdvance ms)).land m) := by
    change e.updateGameClock ms = _
    rw [updateGameClock, if_neg (by simp [hrunning]), hfirst.batch, List.foldl_append,
      List.foldl_cons]
  rw [hcall]
  dsimp only
  generalize landed.foldl land (e.afterAdvance ms) = before at *
  rw [← arbiter_land (m := m)] at htaken
  constructor
  · rintro ⟨-, hsame, -⟩
    exact (inert_iff_outcome htaken).mpr hsame
  · intro hinert
    have hsame := (inert_iff_outcome htaken).mp hinert
    have hend := hsame rest List.prefix_rfl
    -- after the batch the game is over, so later calls do nothing
    have hover' : (rest.foldl land (before.land m)).gameOver = true :=
      Run.stable (P := fun t : GameEngine => t.gameOver = true)
        (fun t m' ht => (land_cases t m').gameOver_mono ht) hover
    refine ⟨(Prod.mk.inj hend).1.trans hwinner, hsame, fun calls => ?_⟩
    rw [play_of_gameOver hover', hend]

/-- White's rook is on its way to the king, and late in its flight another rook jumps. -/
def lateJumpGame : List Call := [.move ⟨0, 0⟩ ⟨0, 2⟩ 2000, .tick 1500, .jump ⟨1, 0⟩]

/-- White takes the king, and the jump that ends in the same tick changes nothing. -/
theorem firstKingFinal_lateJump :
    FirstKingFinal ((GameEngine.new (boardOf ["wR . bK", "wR . ."])).play lateJumpGame) 1000 := by
  have hparse : parseInitialBoard ["wR . bK", "wR . ."] = .ok (boardOf ["wR . bK", "wR . ."]) :=
    parseInitialBoard_eq_boardOf (by decide)
  refine (firstKingFinal_iff hparse _ _ (by decide)).mpr fun landed m rest color hfirst => ?_
  have hbatch : ((GameEngine.new (boardOf ["wR . bK", "wR . ."])).play lateJumpGame).completedMotions
      1000 = [⟨1, ⟨⟨0, 0⟩⟩, ⟨0, 0⟩, ⟨0, 2⟩, -500, 2000, false⟩,
        ⟨2, ⟨⟨1, 0⟩⟩, ⟨1, 0⟩, ⟨1, 0⟩, 0, 1000, true⟩] := by decide
  have hsplit := hfirst.batch
  rw [hbatch] at hsplit
  cases landed with
  | nil =>
    -- the rook takes the king, and the jump lands after it
    obtain ⟨rfl, rfl⟩ := List.cons.inj hsplit
    exact ⟨Or.inl rfl, trivial⟩
  | cons m' landed =>
    -- the rook would have landed before, without taking the king
    obtain ⟨rfl, -⟩ := List.cons.inj hsplit
    have hearlier : (((GameEngine.new (boardOf ["wR . bK", "wR . ."])).play
        lateJumpGame).afterAdvance 1000).kingTaker ⟨1, ⟨⟨0, 0⟩⟩, ⟨0, 0⟩, ⟨0, 2⟩, -500, 2000, false⟩ =
          none := hfirst.earlier.1
    exact absurd hearlier (by decide)

/-- Each side sends a rook at the other side's king; both land in the same tick. -/
def twoKingsGame : List Call := [.move ⟨0, 0⟩ ⟨0, 2⟩ 2000, .move ⟨1, 0⟩ ⟨1, 2⟩ 2000]

/-- Black's rook lands first and takes the white king; then White's rook lands, takes the
black king and the game with it. -/
theorem not_firstKingFinal_twoKings :
    parseInitialBoard ["wR . bK", "bR . wK"] = .ok (boardOf ["wR . bK", "bR . wK"]) ∧
      ((GameEngine.new (boardOf ["wR . bK", "bR . wK"])).play twoKingsGame).gameOver = false ∧
      ¬ FirstKingFinal
        ((GameEngine.new (boardOf ["wR . bK", "bR . wK"])).play twoKingsGame) 2000 := by
  refine ⟨parseInitialBoard_eq_boardOf (by decide), by decide, fun hfinal => ?_⟩
  have hwinner := (hfinal [] ⟨2, ⟨⟨1, 0⟩⟩, ⟨1, 0⟩, ⟨1, 2⟩, 0, 2000, false⟩
    [⟨1, ⟨⟨0, 0⟩⟩, ⟨0, 0⟩, ⟨0, 2⟩, 0, 2000, false⟩] .b ⟨by decide, by decide, by decide⟩).1
  exact absurd hwinner (by decide)

end Tick

end KungFuChess
