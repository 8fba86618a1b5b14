import Mathlib.Algebra.BigOperators.Group.Finset.Basic
import KungFuChess.Engine.KingCapture
import KungFuChess.Engine.PieceLoss

/-!
# Capture accounting

The scoreboard is a running total: points are added where a piece is captured, and never
compared with the pieces again. `CaptureAccount` is the balance. Each player's score is
what the captured pieces of the other colour are worth, by the types they have now, and
the game is over exactly when one of them is a king.

The balance is kept because nothing that has been captured is written again
(`Landing.piece_captured`): promotion rewrites the type of the mover, which is alive. A
landing therefore either leaves the captured pieces, the scores and the end of the game
alone, or captures one piece that was alive and books it for an enemy
(`Landing.books_cases`).
-/

namespace KungFuChess

open GameEngine BoardParser

/-- The pieces on a board. -/
def Board.pieces (board : Board) : Finset PieceRef := board.grid.values.toFinset

/-- The pieces of a board are those that stand on it. -/
theorem Board.mem_pieces {board : Board} {ref : PieceRef} :
    ref ∈ board.pieces ↔ ∃ p, board.getPiece p = some ref := by
  unfold Board.pieces Dict.values
  rw [List.mem_toFinset, List.mem_map]
  constructor
  · rintro ⟨⟨p, ref'⟩, hentry, rfl⟩
    exact ⟨p, Dict.mem_entries_iff.mp hentry⟩
  · rintro ⟨p, hp⟩
    exact ⟨(p, ref), Dict.mem_entries_iff.mpr hp, rfl⟩

namespace GameEngine

/-- The captured pieces of a colour. -/
def capturedOf (e : GameEngine) (pieces : Finset PieceRef) (color : Color) : Finset PieceRef :=
  pieces.filter fun ref => (e.piece ref).status = .captured ∧ (e.piece ref).color = color

/-- What the captured pieces of a colour are worth, by their present types. -/
def capturedValue (e : GameEngine) (pieces : Finset PieceRef) (color : Color) : Int :=
  ∑ ref ∈ e.capturedOf pieces color, pieceValues (e.piece ref).pieceType

end GameEngine

/-- The scores and the end of the game are those of the captured pieces, all of which are
among the given ones. -/
structure CaptureAccount (pieces : Finset PieceRef) (e : GameEngine) : Prop where
  white : e.scoreboard.plaier1Score = e.capturedValue pieces .b
  black : e.scoreboard.plaier2Score = e.capturedValue pieces .w
  ended : e.gameOver = true ↔
    ∃ ref, (e.piece ref).status = .captured ∧ (e.piece ref).pieceType = .k
  known : ∀ ref, (e.piece ref).status = .captured → ref ∈ pieces

/-! ### What a landing writes, object by object -/

namespace GameEngine

variable (e : GameEngine) (m : Motion) (target : PieceRef) {ref : PieceRef}

/-- A status is written to one object, and the object is otherwise the same. -/
theorem piece_setStatus (ref' : PieceRef) (status : PieceStatus) :
    (e.setStatus ref status).piece ref' =
      if ref' = ref then { e.piece ref with status := status } else e.piece ref' :=
  Board.piece_setStatus _ _ _ _

/-- Settling writes to the mover only. -/
theorem piece_settle_of_ne (hne : ref ≠ m.piece) : (e.settle m).piece ref = e.piece ref := by
  unfold settle
  dsimp only
  -- the promotion is the last write, and it is one of the mover
  obtain h | h := piece_promote { (e.setStatus m.piece .idle).leaveStart m with
    board := ((e.setStatus m.piece .idle).leaveStart m).board.setPiece m.endPos (some m.piece) }
    m ref
  · rw [h]
    change (((e.setStatus m.piece .idle).leaveStart m).board.setPiece m.endPos
      (some m.piece)).piece ref = _
    rw [Board.piece_setPiece]
    change ((e.setStatus m.piece .idle).leaveStart m).piece ref = _
    rw [piece_leaveStart, piece_setStatus, if_neg hne]
  · exact absurd h.1 hne

/-- A capture writes a status, some points and a square. -/
theorem piece_captureTarget :
    (e.captureTarget m target).piece ref = (e.setStatus target .captured).piece ref := by
  change (((e.setStatus target .captured).scoreCapture m.piece target).board.setPiece
    m.endPos none).piece ref = _
  rw [Board.piece_setPiece, board_scoreCapture]

theorem piece_capturedByJumper :
    (e.capturedByJumper m target).piece ref = (e.setStatus m.piece .captured).piece ref := by
  unfold capturedByJumper
  rw [piece_leaveStart, piece, board_scoreCapture]

@[simp] theorem scoreboard_promote : (e.promote m).scoreboard = e.scoreboard := by
  unfold promote
  split <;> rfl

/-- The points of a capture have been counted before the mover settles. -/
@[simp] theorem scoreboard_settle : (e.settle m).scoreboard = e.scoreboard := by
  unfold settle
  dsimp only
  rw [scoreboard_promote]
  exact scoreboard_leaveStart _ _

/-- The mover gets the points of the target. -/
theorem scoreboard_captureTarget :
    (e.captureTarget m target).scoreboard =
      e.scoreboard.addCapturePoints (e.piece m.piece).color (e.piece target).pieceType := by
  change ((e.setStatus target .captured).scoreCapture m.piece target).scoreboard = _
  rw [scoreboard_scoreCapture, piece_setStatus_pieceType, piece_setStatus_color]
  rfl

end GameEngine

/-- Nothing is captured, scored or ended. -/
structure BooksNothing (e e' : GameEngine) : Prop where
  status : ∀ ref, (e'.piece ref).status = .captured ↔ (e.piece ref).status = .captured
  scores : e'.scoreboard.scores = e.scoreboard.scores
  ended : e'.gameOver = e.gameOver

/-- One piece, alive until now, is captured by a piece of the other colour and booked for
it. -/
structure Books (e e' : GameEngine) (capturer captured : PieceRef) : Prop where
  alive : (e.piece captured).status ≠ .captured
  enemy : (e.piece capturer).color ≠ (e.piece captured).color
  taken : e'.piece captured = { e.piece captured with status := .captured }
  status : ∀ ref, ref ≠ captured →
    ((e'.piece ref).status = .captured ↔ (e.piece ref).status = .captured)
  scores : e'.scoreboard.scores =
    (e.scoreboard.addCapturePoints (e.piece capturer).color (e.piece captured).pieceType).scores
  ended : e'.gameOver = if (e.piece captured).pieceType = .k then true else e.gameOver

/-! ### One landing -/

section Landing

variable {e e' : GameEngine} {m : Motion} {rest : List Motion}

/-- **Nothing captured is written again.** -/
theorem Landing.piece_captured (hland : Landing e m e') {ref : PieceRef}
    (hcaptured : (e.piece ref).status = .captured) : e'.piece ref = e.piece ref := by
  -- whatever is written to is alive at that moment
  have hmover : (e.piece m.piece).status ≠ .captured → ref ≠ m.piece := by
    rintro halive rfl
    exact halive hcaptured
  cases hland with
  | skipped => rfl
  | jumpEnds halive | blocked _ halive => rw [piece_setStatus, if_neg (hmover halive)]
  | shotDown jumper halive =>
    rw [piece_capturedByJumper, piece_setStatus, if_neg (hmover halive)]
  | takes target halive _ _ hidle =>
    have htarget : ref ≠ target := by
      rintro rfl
      exact absurd (hidle.symm.trans hcaptured) (by simp)
    rw [piece_settle_of_ne _ _ (hmover halive), piece_captureTarget, piece_setStatus,
      if_neg htarget]
  | settles halive => exact piece_settle_of_ne _ _ (hmover halive)

/-- Setting a live piece idle captures nothing. -/
theorem captured_setStatus_iff {ref ref' : PieceRef} {status : PieceStatus}
    (halive : (e.piece ref).status ≠ .captured) (hstatus : status ≠ .captured) :
    ((e.setStatus ref status).piece ref').status = .captured ↔
      (e.piece ref').status = .captured := by
  rw [status_setStatus]
  split
  · next heq => exact iff_of_false hstatus (heq ▸ halive)
  · exact Iff.rfl

/-- Settling captures nobody and frees nobody. -/
theorem captured_settle_iff {ref : PieceRef} (halive : (e.piece m.piece).status ≠ .captured) :
    ((e.settle m).piece ref).status = .captured ↔ (e.piece ref).status = .captured := by
  rw [status_settle]
  split
  · next heq => exact iff_of_false (by simp) (heq ▸ halive)
  · exact Iff.rfl

/-- **A landing books nothing, or one capture**: that of the mover, or that of the piece on
its end square. -/
theorem Landing.books_cases (hland : Landing e m e') :
    BooksNothing e e' ∨
      ∃ capturer captured, Books e e' capturer captured ∧
        (captured = m.piece ∨ e.board.getPiece m.endPos = some captured) := by
  cases hland with
  | skipped => exact Or.inl ⟨fun _ => Iff.rfl, rfl, rfl⟩
  | jumpEnds halive | blocked _ halive =>
    exact Or.inl ⟨fun _ => captured_setStatus_iff halive (by simp), rfl, rfl⟩
  | settles halive =>
    refine Or.inl ⟨fun _ => captured_settle_iff halive, ?_, gameOver_settle _ _⟩
    rw [scoreboard_settle]
  | shotDown jumper halive _ _ _ henemy =>
    refine Or.inr ⟨jumper, m.piece, ⟨halive, henemy, ?_, fun ref hne => ?_, ?_, ?_⟩, Or.inl rfl⟩
    · rw [piece_capturedByJumper, piece_setStatus, if_pos rfl]
    · rw [status_capturedByJumper, if_neg hne]
    · rw [scoreboard_capturedByJumper]
    · exact gameOver_capturedByJumper _ _ _
  | takes target halive _ hend hidle henemy =>
    -- the colours differ, so the target is not the mover
    have hne : target ≠ m.piece := fun heq => henemy (congrArg (fun ref => (e.piece ref).color) heq)
    have hmover : ((e.captureTarget m target).piece m.piece).status ≠ .captured := by
      rw [status_captureTarget, if_neg hne.symm]
      exact halive
    refine Or.inr ⟨m.piece, target, ⟨?_, henemy.symm, ?_, fun ref href => ?_, ?_, ?_⟩, Or.inr hend⟩
    · rw [hidle]
      simp
    · rw [piece_settle_of_ne _ _ hne, piece_captureTarget, piece_setStatus, if_pos rfl]
    · rw [captured_settle_iff hmover, status_captureTarget, if_neg href]
    · rw [scoreboard_settle, scoreboard_captureTarget]
    · rw [gameOver_settle, gameOver_captureTarget]

end Landing

/-! ### The balance -/

namespace CaptureAccount

variable {pieces : Finset PieceRef} {e e' : GameEngine}

/-- Nothing is booked, and the pieces captured before are as they were. -/
theorem of_booksNothing (h : CaptureAccount pieces e) (hnone : BooksNothing e e')
    (hkept : ∀ ref, (e.piece ref).status = .captured → e'.piece ref = e.piece ref) :
    CaptureAccount pieces e' := by
  -- the captured pieces are the same, each worth the same
  have hvalue : ∀ color, e'.capturedValue pieces color = e.capturedValue pieces color := by
    intro color
    have hsame : e'.capturedOf pieces color = e.capturedOf pieces color := by
      refine Finset.filter_congr fun ref _ => ?_
      rw [hnone.status]
      exact and_congr_right fun hcaptured => by rw [hkept ref hcaptured]
    unfold capturedValue
    rw [hsame]
    refine Finset.sum_congr rfl fun ref href => ?_
    rw [hkept ref (Finset.mem_filter.mp href).2.1]
  obtain ⟨hwhite, hblack⟩ := Prod.mk.inj hnone.scores
  refine ⟨?_, ?_, ?_, fun ref hcaptured => h.known ref ((hnone.status ref).mp hcaptured)⟩
  · rw [hvalue, hwhite, h.white]
  · rw [hvalue, hblack, h.black]
  · rw [hnone.ended, h.ended]
    refine exists_congr fun ref => ?_
    rw [hnone.status]
    exact and_congr_right fun hcaptured => by rw [hkept ref hcaptured]

/-- A booked piece adds its value to the pieces of its colour. -/
theorem capturedValue_of_books {capturer captured : PieceRef}
    (hbooks : Books e e' capturer captured)
    (hkept : ∀ ref, (e.piece ref).status = .captured → e'.piece ref = e.piece ref)
    (hmem : captured ∈ pieces) (color : Color) :
    e'.capturedValue pieces color =
      e.capturedValue pieces color +
        if (e.piece captured).color = color then pieceValues (e.piece captured).pieceType
        else 0 := by
  -- what is booked was alive, so it is new among the captured pieces
  have hnot : captured ∉ e.capturedOf pieces color := fun h =>
    hbooks.alive (Finset.mem_filter.mp h).2.1
  have hsum : ∑ ref ∈ e.capturedOf pieces color, pieceValues (e'.piece ref).pieceType =
      e.capturedValue pieces color := by
    refine Finset.sum_congr rfl fun ref href => ?_
    rw [hkept ref (Finset.mem_filter.mp href).2.1]
  -- the other captured pieces are those of before
  have hother : ∀ ref, ref ≠ captured →
      (ref ∈ e'.capturedOf pieces color ↔ ref ∈ e.capturedOf pieces color) := by
    intro ref hne
    unfold capturedOf
    rw [Finset.mem_filter, Finset.mem_filter, hbooks.status ref hne]
    refine and_congr_right fun _ => and_congr_right fun hcaptured => ?_
    rw [hkept ref hcaptured]
  split
  · next hcolor =>
    have hset : e'.capturedOf pieces color = insert captured (e.capturedOf pieces color) := by
      ext ref
      rw [Finset.mem_insert]
      by_cases heq : ref = captured
      · subst heq
        refine iff_of_true ?_ (Or.inl rfl)
        exact Finset.mem_filter.mpr ⟨hmem, by rw [hbooks.taken], by rw [hbooks.taken]; exact hcolor⟩
      · rw [hother ref heq, or_iff_right heq]
    have hvalue : pieceValues (e'.piece captured).pieceType =
        pieceValues (e.piece captured).pieceType := by rw [hbooks.taken]
    rw [capturedValue, hset, Finset.sum_insert hnot, hsum, hvalue, Int.add_comm]
  · next hcolor =>
    have hset : e'.capturedOf pieces color = e.capturedOf pieces color := by
      ext ref
      by_cases heq : ref = captured
      · subst heq
        refine iff_of_false (fun h => hcolor ?_) hnot
        have hafter := (Finset.mem_filter.mp h).2.2
        rwa [hbooks.taken] at hafter
      · exact hother ref heq
    rw [capturedValue, hset, hsum, Int.add_zero]

/-- One booking keeps the balance: score and captured value rise together, and a king ends the game.
-/
theorem of_books (h : CaptureAccount pieces e) {capturer captured : PieceRef}
    (hbooks : Books e e' capturer captured)
    (hkept : ∀ ref, (e.piece ref).status = .captured → e'.piece ref = e.piece ref)
    (hmem : captured ∈ pieces) : CaptureAccount pieces e' := by
  have hvalue := capturedValue_of_books hbooks hkept hmem
  have hcaptured : (e'.piece captured).status = .captured := by rw [hbooks.taken]
  have htype : (e'.piece captured).pieceType = (e.piece captured).pieceType := by
    rw [hbooks.taken]
  obtain ⟨hwhite, hblack⟩ := Prod.mk.inj hbooks.scores
  have henemy := hbooks.enemy
  refine ⟨?_, ?_, ?_, fun ref href => ?_⟩
  · rw [hwhite, hvalue, ← h.white]
    -- the capturer is white exactly when the captured piece is black
    cases hcol : (e.piece capturer).color <;> cases hcol' : (e.piece captured).color <;>
      simp_all [Scoreboard.addCapturePoints]
  · rw [hblack, hvalue, ← h.black]
    cases hcol : (e.piece capturer).color <;> cases hcol' : (e.piece captured).color <;>
      simp_all [Scoreboard.addCapturePoints]
  · rw [hbooks.ended]
    constructor
    · intro hover
      split at hover
      · next hking => exact ⟨captured, hcaptured, htype.trans hking⟩
      · obtain ⟨ref, href, hking⟩ := h.ended.mp hover
        exact ⟨ref, by rw [hkept ref href]; exact ⟨href, hking⟩⟩
    · rintro ⟨ref, href, hking⟩
      by_cases heq : ref = captured
      · subst heq
        rw [if_pos (htype.symm.trans hking)]
      · have hbefore := (hbooks.status ref heq).mp href
        rw [hkept ref hbefore] at hking
        rw [h.ended.mpr ⟨ref, hbefore, hking⟩, ite_self]
  · by_cases heq : ref = captured
    · exact heq ▸ hmem
    · exact h.known ref ((hbooks.status ref heq).mp href)

end CaptureAccount

/-- **The balance is kept, one landing.** -/
theorem Landing.captureAccount {pieces : Finset PieceRef} {e e' : GameEngine} {m : Motion}
    {flights : List Motion} (hland : Landing e m e') (hcast : KnownPieces pieces e (m :: flights))
    (h : CaptureAccount pieces e) : CaptureAccount pieces e' := by
  have hkept : ∀ ref, (e.piece ref).status = .captured → e'.piece ref = e.piece ref :=
    fun ref => hland.piece_captured
  rcases hland.books_cases with hnone | ⟨capturer, captured, hbooks, hwhere⟩
  · exact h.of_booksNothing hnone hkept
  · refine h.of_books hbooks hkept ?_
    rcases hwhere with rfl | hend
    · exact hcast.inFlight m List.mem_cons_self
    · exact hcast.onGrid _ _ hend

/-! ### Calls -/

section Call

variable {pieces : Finset PieceRef} {e : GameEngine} {ref : PieceRef}

theorem Motion.status_ne_captured (m : Motion) : m.status ≠ .captured := by
  unfold Motion.status
  split <;> simp

/-- Setting an idle piece in flight leaves the captured pieces as they are. -/
theorem piece_setStatus_of_captured {ref' : PieceRef} {status : PieceStatus}
    (halive : (e.piece ref).status ≠ .captured) (hcaptured : (e.piece ref').status = .captured) :
    (e.setStatus ref status).piece ref' = e.piece ref' := by
  rw [piece_setStatus, if_neg]
  rintro rfl
  exact halive hcaptured

/-- A request books nothing; only a tick can. -/
theorem CallOutcome.books_cases {e' : GameEngine} {c : Call} (hcase : CallOutcome e c e') :
    (∃ ms, e' = (e.completedMotions ms).foldl land (e.afterAdvance ms)) ∨
      BooksNothing e e' ∧
        ∀ ref, (e.piece ref).status = .captured → e'.piece ref = e.piece ref := by
  -- what is launched stands idle on its square
  have hlaunched : ∀ {m}, e.launchOf c = some m → (e.piece m.piece).status ≠ .captured := by
    intro m hlaunch
    rw [(launchable_eq_some.mp (launchOf_eq_some hlaunch).1).2.2]
    simp
  cases hcase with
  | rejected => exact Or.inr ⟨⟨fun _ => Iff.rfl, rfl, rfl⟩, fun _ _ => rfl⟩
  | launched m scoreboard hlaunch _ hscores =>
    have halive := hlaunched hlaunch
    exact Or.inr ⟨⟨fun _ => captured_setStatus_iff halive m.status_ne_captured, hscores, rfl⟩,
      fun _ => piece_setStatus_of_captured halive⟩
  | cancelled m scoreboard hlaunch _ _ hscores =>
    have halive := hlaunched hlaunch
    exact Or.inr ⟨⟨fun _ => captured_setStatus_iff halive (by simp), hscores, rfl⟩,
      fun _ => piece_setStatus_of_captured halive⟩
  | ticked ms => exact Or.inl ⟨ms, rfl⟩

/-- **Captured for good, one call.** -/
theorem piece_call_of_captured (h : FlightInv e e.arbiter.activeMotions) (c : Call)
    (hcaptured : (e.piece ref).status = .captured) : (e.call c).piece ref = e.piece ref := by
  obtain ⟨ms, hticked⟩ | ⟨-, hkept⟩ := (call_cases h c).books_cases
  · rw [hticked]
    -- what is captured stays so, and so it is left alone by the next landing
    have hend : (((e.completedMotions ms).foldl land (e.afterAdvance ms)).piece ref).status = .captured ∧
        ((e.completedMotions ms).foldl land (e.afterAdvance ms)).piece ref = e.piece ref :=
      Run.stable
        (P := fun t : GameEngine => (t.piece ref).status = .captured ∧ t.piece ref = e.piece ref)
        (fun t m ht => ⟨(land_cases t m).captured_mono ht.1,
          ((land_cases t m).piece_captured ht.1).trans ht.2⟩) ⟨hcaptured, rfl⟩
    exact hend.2
  · exact hkept ref hcaptured

/-- **The balance is kept, one call.** -/
theorem CaptureAccount.call (h : CaptureAccount pieces e)
    (hI : FlightInv e e.arbiter.activeMotions)
    (hcast : KnownPieces pieces e e.arbiter.activeMotions) (c : Call) :
    CaptureAccount pieces (e.call c) := by
  obtain ⟨ms, hticked⟩ | ⟨hnone, hkept⟩ := (call_cases hI c).books_cases
  · rw [hticked]
    -- induction over the batch, with the pieces that are still to land known
    have hstart : CaptureAccount pieces (e.afterAdvance ms) := ⟨h.white, h.black, h.ended, h.known⟩
    exact (Run.invariant
      (P := fun t rest => KnownPieces pieces t (rest ++ (e.afterAdvance ms).arbiter.activeMotions) ∧
        CaptureAccount pieces t)
      (fun t m rest ht => ⟨ht.1.land (land_cases t m), (land_cases t m).captureAccount ht.1 ht.2⟩)
      ⟨hcast.afterAdvance ms, hstart⟩).2
  · exact h.of_booksNothing hnone hkept

end Call

/-! ### Games -/

section Game

variable {e : GameEngine} {ref : PieceRef}

/-- **Captured for good.** -/
theorem piece_play_of_captured (h : FlightInv e e.arbiter.activeMotions) (calls : List Call)
    (hcaptured : (e.piece ref).status = .captured) : (e.play calls).piece ref = e.piece ref := by
  induction calls generalizing e with
  | nil => rfl
  | cons c calls ih =>
    have hcall := piece_call_of_captured h c hcaptured
    have hrest := ih (h.call c) (by rw [hcall]; exact hcaptured)
    exact hrest.trans hcall

/-- A capture is by an enemy. -/
theorem captureOf_enemy {m : Motion} {capturer captured : PieceRef}
    (h : e.captureOf m = some (capturer, captured)) :
    (e.piece capturer).color ≠ (e.piece captured).color := by
  rcases (land_cases e m).captureOf_cases with ⟨hnone, -⟩ | ⟨jumper, hcap, -, henemy⟩ |
    ⟨target, hcap, -, henemy⟩
  · exact absurd (hnone.symm.trans h) (by simp)
  · obtain ⟨rfl, rfl⟩ := Prod.mk.inj (Option.some.inj (hcap.symm.trans h))
    exact henemy
  · obtain ⟨rfl, rfl⟩ := Prod.mk.inj (Option.some.inj (hcap.symm.trans h))
    exact henemy

/-- So is every capture of a batch. -/
theorem batchCaptures_enemy {batch : List Motion} {capturer captured : PieceRef}
    (h : (capturer, captured) ∈ e.batchCaptures batch) :
    (e.piece capturer).color ≠ (e.piece captured).color := by
  induction batch generalizing e with
  | nil => exact absurd h List.not_mem_nil
  | cons m batch ih =>
    rcases List.mem_append.mp h with h | h
    · exact captureOf_enemy (Option.mem_toList.mp h)
    · have henemy := ih h
      rwa [color_land, color_land] at henemy

/-- Every capture of a game is by the other colour. -/
theorem captures_enemy (hI : FlightInv e e.arbiter.activeMotions) {calls : List Call}
    {capturer captured : PieceRef} (h : (capturer, captured) ∈ e.captures calls) :
    (e.piece capturer).color ≠ (e.piece captured).color := by
  induction calls generalizing e with
  | nil => exact absurd h List.not_mem_nil
  | cons c calls ih =>
    rcases List.mem_append.mp h with h | h
    -- a request captures nothing, and neither does a tick after the end of the game
    · unfold callCaptures at h
      split at h
      · split at h
        · exact absurd h List.not_mem_nil
        · exact batchCaptures_enemy (e := e.afterAdvance _) h
      · exact absurd h List.not_mem_nil
    · have henemy := ih (hI.call c) h
      rwa [color_call hI, color_call hI] at henemy

/-- **Capture accounting is exact.** In every state of a game on a parsed board the scores
and the end of the game are those of the captured pieces of the initial board; every
captured piece was captured in the game, every capture is by the other colour, and a
captured piece stays what it is whatever is called afterwards. -/
theorem captureAccount_play {boardLines : List String} {board : Board}
    (hparse : parseInitialBoard boardLines = .ok board) (calls : List Call) :
    CaptureAccount board.pieces ((GameEngine.new board).play calls) ∧
      (∀ ref, (((GameEngine.new board).play calls).piece ref).status = .captured →
        (∃ capturer, (capturer, ref) ∈ (GameEngine.new board).captures calls) ∧
        ∀ more, (((GameEngine.new board).play calls).play more).piece ref =
          ((GameEngine.new board).play calls).piece ref) ∧
      ∀ capturer captured, (capturer, captured) ∈ (GameEngine.new board).captures calls →
        (((GameEngine.new board).play calls).piece capturer).color ≠
          (((GameEngine.new board).play calls).piece captured).color := by
  have hparsed := Parsed.of_parseInitialBoard hparse
  have hnew : FlightInv (GameEngine.new board) [] := FlightInv.new hparsed
  have hcast : KnownPieces board.pieces (GameEngine.new board) [] :=
    ⟨fun p ref hp => Board.mem_pieces.mpr ⟨p, hp⟩, fun m hm => absurd hm List.not_mem_nil⟩
  have hnone : ∀ ref, ((GameEngine.new board).piece ref).status ≠ .captured := by
    intro ref hcaptured
    exact absurd ((hparsed.idle ref).symm.trans hcaptured) (by simp)
  -- before the first call nothing is captured
  have hstart : CaptureAccount board.pieces (GameEngine.new board) := by
    have hempty : ∀ color, (GameEngine.new board).capturedOf board.pieces color = ∅ := fun color =>
      Finset.filter_eq_empty_iff.mpr fun ref _ hcaptured => hnone ref hcaptured.1
    refine ⟨?_, ?_, ?_, fun ref hcaptured => absurd hcaptured (hnone ref)⟩
    · rw [capturedValue, hempty, Finset.sum_empty]
      rfl
    · rw [capturedValue, hempty, Finset.sum_empty]
      rfl
    · refine iff_of_false (by simp [GameEngine.new]) ?_
      rintro ⟨ref, hcaptured, -⟩
      exact hnone ref hcaptured
  have hall : KnownPieces board.pieces ((GameEngine.new board).play calls)
        ((GameEngine.new board).play calls).arbiter.activeMotions ∧
      CaptureAccount board.pieces ((GameEngine.new board).play calls) :=
    (Run.stable (P := fun t : GameEngine => FlightInv t t.arbiter.activeMotions ∧
      KnownPieces board.pieces t t.arbiter.activeMotions ∧ CaptureAccount board.pieces t)
      (fun t c ht => ⟨ht.1.call c, ht.2.1.call ht.1 c, ht.2.2.call ht.1 ht.2.1 c⟩)
      ⟨hnew, hcast, hstart⟩).2
  refine ⟨hall.2, fun ref hcaptured => ⟨?_, ?_⟩, fun capturer captured hmem => ?_⟩
  · rcases captured_by_enemy hnew hcaptured with hbefore | ⟨capturer, hmem, -⟩
    · exact absurd hbefore (hnone ref)
    · exact ⟨capturer, hmem⟩
  · exact fun more => piece_play_of_captured (hnew.play calls) more hcaptured
  · rw [color_play hnew, color_play hnew]
    exact captures_enemy hnew hmem

/-- A rook takes a queen. -/
theorem captureAccount_play_queenTaken :
    ((GameEngine.new (boardOf ["wR . bQ"])).play
        [.move ⟨0, 0⟩ ⟨0, 2⟩ 2000, .tick 2000]).capturedValue (boardOf ["wR . bQ"]).pieces .b = 9 := by
  have hparse : parseInitialBoard ["wR . bQ"] = .ok (boardOf ["wR . bQ"]) :=
    parseInitialBoard_eq_boardOf (by decide)
  exact (captureAccount_play hparse _).1.white.symm.trans (by decide)

end Game

end KungFuChess
