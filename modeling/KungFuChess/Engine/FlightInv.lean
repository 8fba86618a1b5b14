import Mathlib.Data.List.Perm.Basic
import KungFuChess.Engine.Landing
import KungFuChess.Engine.BoardParser

/-!
# The flight invariant

`FlightInv e flights` ties the grid, the statuses and the motions in flight together. It
is stated for a list of flights of its own, not for the arbiter's list, because a tick
takes the completed motions off the arbiter's list before it lands them: between two
landings the flights are the rest of the batch and the motions still active.

The invariant holds of every parsed board (`FlightInv.new`), is kept by each outcome
of a landing (`Landing.flightInv`), and by each call (`FlightInv.call`), hence holds
throughout every game (`FlightInv.play`).

One implication is missing on purpose: a piece whose status is `moving` need not be
carried by a motion. A launch onto a head-on course is dropped by the arbiter after the
status has been written.
-/

namespace KungFuChess

open GameEngine RealTimeArbiter

/-- The status of a piece while the motion carries it. -/
def Motion.status (m : Motion) : PieceStatus := if m.isJump then .jumping else .moving

/-- The grid, the statuses and the motions in flight agree. -/
structure FlightInv (e : GameEngine) (flights : List Motion) : Prop where
  /-- A piece in flight has the status of its motion. -/
  flying : ∀ m ∈ flights, (e.piece m.piece).status = m.status
  /-- No piece is carried by two motions. -/
  single : (flights.map Motion.piece).Nodup
  /-- A jumping piece is carried by a jump. -/
  jumps : ∀ ref, (e.piece ref).status = .jumping → ∃ m ∈ flights, m.isJump = true ∧ m.piece = ref
  /-- No piece stands on two squares. -/
  placed : ∀ p p' ref, e.board.getPiece p = some ref → e.board.getPiece p' = some ref → p = p'
  /-- No captured piece stands on the grid. -/
  alive : ∀ p ref, e.board.getPiece p = some ref → (e.piece ref).status ≠ .captured
  /-- A piece in flight stands on no square but its start. -/
  atStart : ∀ m ∈ flights, ∀ p, e.board.getPiece p = some m.piece → p = m.startPos
  /-- A motion that is not a jump ends elsewhere. -/
  departs : ∀ m ∈ flights, m.isJump = false → m.startPos ≠ m.endPos

namespace FlightInv

variable {e : GameEngine} {m : Motion} {flights rest : List Motion}

/-! ### Reading the invariant -/

/-- What is carried is alive. -/
theorem status_ne_captured (h : FlightInv e flights) (hm : m ∈ flights) :
    (e.piece m.piece).status ≠ .captured := by
  rw [h.flying m hm, Motion.status]
  split <;> simp

/-- And not idle. -/
theorem status_ne_idle (h : FlightInv e flights) (hm : m ∈ flights) :
    (e.piece m.piece).status ≠ .idle := by
  rw [h.flying m hm, Motion.status]
  split <;> simp

/-- And `moving`, unless it jumps. -/
theorem status_moving (h : FlightInv e flights) (hm : m ∈ flights) (hflight : m.isJump = false) :
    (e.piece m.piece).status = .moving := by
  rw [h.flying m hm, Motion.status, hflight]
  rfl

/-- The other flights carry other pieces. -/
theorem piece_ne (h : FlightInv e (m :: rest)) {m' : Motion} (hm' : m' ∈ rest) :
    m'.piece ≠ m.piece := by
  intro heq
  have hnot := (List.nodup_cons.mp h.single).1
  exact hnot (List.mem_map.mpr ⟨m', hm', heq⟩)

/-- A jumping piece other than the one that lands is carried by the other flights. -/
theorem jumps_of_ne (h : FlightInv e (m :: rest)) {ref : PieceRef} (hne : ref ≠ m.piece)
    (hjumping : (e.piece ref).status = .jumping) :
    ∃ m' ∈ rest, m'.isJump = true ∧ m'.piece = ref := by
  obtain ⟨m', hm', hjump, hpiece⟩ := h.jumps ref hjumping
  obtain rfl | hm' := List.mem_cons.mp hm'
  · exact absurd hpiece.symm hne
  · exact ⟨m', hm', hjump, hpiece⟩

/-- The piece of a landing flight does not stand on the end square. -/
theorem getPiece_end_ne (h : FlightInv e (m :: rest)) (hflight : m.isJump = false) :
    e.board.getPiece m.endPos ≠ some m.piece := fun hend =>
  h.departs m List.mem_cons_self hflight (h.atStart m List.mem_cons_self m.endPos hend).symm

/-- The list of flights matters up to order and remaining time only. -/
theorem of_perm_elapse {ms : Int} {flights' : List Motion} (h : FlightInv e flights)
    (hperm : flights'.Perm (flights.map (elapse ms))) : FlightInv e flights' := by
  -- each flight of the new list is one of the old, with less time left
  have hmem : ∀ {m'}, m' ∈ flights' → ∃ m ∈ flights, elapse ms m = m' := fun hm' =>
    List.mem_map.mp (hperm.mem_iff.mp hm')
  refine ⟨?_, ?_, ?_, h.placed, h.alive, ?_, ?_⟩
  · intro m' hm'
    obtain ⟨m, hm, rfl⟩ := hmem hm'
    exact h.flying m hm
  · -- a motion that has aged carries the same piece
    have hpieces : (flights.map (elapse ms)).map Motion.piece = flights.map Motion.piece := by
      rw [List.map_map]
      rfl
    exact (hperm.map Motion.piece).nodup_iff.mpr (hpieces ▸ h.single)
  · intro ref hjumping
    obtain ⟨m, hm, hjump, hpiece⟩ := h.jumps ref hjumping
    exact ⟨elapse ms m, hperm.mem_iff.mpr (List.mem_map_of_mem hm), hjump, hpiece⟩
  · intro m' hm' p hp
    obtain ⟨m, hm, rfl⟩ := hmem hm'
    exact h.atStart m hm p hp
  · intro m' hm' hflight
    obtain ⟨m, hm, rfl⟩ := hmem hm'
    exact h.departs m hm hflight

/-- The invariant reads the board of an engine, nothing else. -/
theorem of_board_eq {e' : GameEngine} (h : FlightInv e flights) (hboard : e'.board = e.board) :
    FlightInv e' flights := by
  -- pieces and squares are the same, and nothing else of the engine is read
  have hpiece : ∀ ref, e'.piece ref = e.piece ref := fun ref => congrArg (·.piece ref) hboard
  refine ⟨?_, h.single, ?_, ?_, ?_, ?_, h.departs⟩
  · exact fun m hm => (hpiece m.piece).symm ▸ h.flying m hm
  · exact fun ref hjumping => h.jumps ref ((hpiece ref) ▸ hjumping)
  · exact hboard.symm ▸ h.placed
  · intro p ref hp
    rw [hboard] at hp
    rw [hpiece]
    exact h.alive p ref hp
  · intro m hm p hp
    rw [hboard] at hp
    exact h.atStart m hm p hp

/-! ### Launches -/

/-- An idle piece is set `moving` without a motion: what a cancelled launch leaves. -/
theorem strand {ref : PieceRef} (h : FlightInv e flights)
    (hidle : (e.piece ref).status = .idle) : FlightInv (e.setStatus ref .moving) flights := by
  -- the piece is idle, so no flight carries it
  have hne : ∀ m ∈ flights, m.piece ≠ ref := fun m hm heq =>
    h.status_ne_idle hm (heq ▸ hidle)
  refine ⟨?_, h.single, ?_, h.placed, ?_, h.atStart, h.departs⟩
  · intro m hm
    rw [status_setStatus, if_neg (hne m hm)]
    exact h.flying m hm
  · intro ref' hjumping
    rw [status_setStatus] at hjumping
    exact h.jumps ref' (unwritten hjumping (by simp)).2
  · intro p ref' hp
    rw [status_setStatus]
    split
    · simp
    · exact h.alive p ref' hp

/-- A launch of an idle piece from its square, with the new motion among the flights. -/
theorem launch (h : FlightInv e flights) (hidle : (e.piece m.piece).status = .idle)
    (hstart : e.board.getPiece m.startPos = some m.piece)
    (hdeparts : m.isJump = false → m.startPos ≠ m.endPos) :
    FlightInv (e.setStatus m.piece m.status) (flights ++ [m]) := by
  -- the piece is idle, so no flight carries it yet
  have hne : ∀ m' ∈ flights, m'.piece ≠ m.piece := fun m' hm' heq =>
    h.status_ne_idle hm' (heq ▸ hidle)
  refine ⟨?_, ?_, ?_, h.placed, ?_, ?_, ?_⟩
  · intro m' hm'
    rw [status_setStatus]
    rcases List.mem_append.mp hm' with hm' | hm'
    · rw [if_neg (hne m' hm')]
      exact h.flying m' hm'
    · rw [List.mem_singleton.mp hm', if_pos rfl]
  · rw [List.map_append, List.map_cons, List.map_nil]
    refine List.Nodup.append h.single (List.nodup_singleton _) ?_
    refine List.disjoint_singleton.mpr fun hmem => ?_
    obtain ⟨m', hm', heq⟩ := List.mem_map.mp hmem
    exact hne m' hm' heq
  · intro ref hjumping
    rw [status_setStatus] at hjumping
    split at hjumping
    · next heq =>
      -- the new motion carries it, and is a jump because it has made the piece jump
      refine ⟨m, List.mem_append_right _ (List.mem_singleton.mpr rfl), ?_, heq.symm⟩
      by_contra hflight
      rw [Motion.status, if_neg hflight] at hjumping
      exact absurd hjumping (by simp)
    · obtain ⟨m', hm', hjump, hpiece⟩ := h.jumps ref hjumping
      exact ⟨m', List.mem_append_left _ hm', hjump, hpiece⟩
  · intro p ref hp
    rw [status_setStatus]
    split
    · rw [Motion.status]
      split <;> simp
    · exact h.alive p ref hp
  · intro m' hm' p hp
    rcases List.mem_append.mp hm' with hm' | hm'
    · exact h.atStart m' hm' p hp
    · -- it stands on its start square, and on one square only
      rw [List.mem_singleton.mp hm'] at hp ⊢
      exact h.placed p m.startPos m.piece hp hstart
  · intro m' hm' hflight
    rcases List.mem_append.mp hm' with hm' | hm'
    · exact h.departs m' hm' hflight
    · rw [List.mem_singleton.mp hm'] at hflight ⊢
      exact hdeparts hflight

/-! ### Landings -/

/-- A flight ends where it started, or a jump ends: only the status of the mover is
written. -/
theorem setIdle (h : FlightInv e (m :: rest)) : FlightInv (e.setStatus m.piece .idle) rest := by
  refine ⟨?_, (List.nodup_cons.mp h.single).2, ?_, h.placed, ?_, ?_, ?_⟩
  · -- the motions left are of other pieces
    intro m' hm'
    rw [status_setStatus, if_neg (h.piece_ne hm')]
    exact h.flying m' (List.mem_cons_of_mem m hm')
  · -- a jumper left is not the mover, so its motion is among the rest
    intro ref hjumping
    rw [status_setStatus] at hjumping
    obtain ⟨hne, hjumping⟩ := unwritten hjumping (by simp)
    exact h.jumps_of_ne hne hjumping
  · -- an idle piece is not captured
    intro p ref hp
    rw [status_setStatus]
    split
    · simp
    · exact h.alive p ref hp
  · exact fun m' hm' => h.atStart m' (List.mem_cons_of_mem m hm')
  · exact fun m' hm' => h.departs m' (List.mem_cons_of_mem m hm')

/-- The mover leaves the list of flights; its start square is emptied if it still stands there. -/
theorem capturedByJumper (h : FlightInv e (m :: rest)) (jumper : PieceRef) :
    FlightInv (e.capturedByJumper m jumper) rest := by
  -- the squares that are still occupied held the same piece before
  have hold : ∀ {p ref}, (e.capturedByJumper m jumper).board.getPiece p = some ref →
      e.board.getPiece p = some ref ∧
        ¬(p = m.startPos ∧ e.board.getPiece m.startPos = some m.piece) := by
    intro p ref hp
    rw [getPiece_capturedByJumper] at hp
    obtain ⟨hnot, hp⟩ := unwritten hp (by simp)
    exact ⟨hp, hnot⟩
  refine ⟨?_, (List.nodup_cons.mp h.single).2, ?_, ?_, ?_, ?_, ?_⟩
  · intro m' hm'
    rw [status_capturedByJumper, if_neg (h.piece_ne hm')]
    exact h.flying m' (List.mem_cons_of_mem m hm')
  · intro ref hjumping
    rw [status_capturedByJumper] at hjumping
    obtain ⟨hne, hjumping⟩ := unwritten hjumping (by simp)
    exact h.jumps_of_ne hne hjumping
  · exact fun p p' ref hp hp' => h.placed p p' ref (hold hp).1 (hold hp').1
  · intro p ref hp
    obtain ⟨hp, hnot⟩ := hold hp
    rw [status_capturedByJumper]
    split
    · next heq =>
      -- the captured mover stood on its start square only, and that entry is gone
      subst heq
      have hstart := h.atStart m List.mem_cons_self p hp
      exact absurd ⟨hstart, hstart ▸ hp⟩ hnot
    · exact h.alive p ref hp
  · exact fun m' hm' p hp => h.atStart m' (List.mem_cons_of_mem m hm') p (hold hp).1
  · exact fun m' hm' => h.departs m' (List.mem_cons_of_mem m hm')

/-- The idle piece on the end square is captured; no flight carries it. -/
theorem captureTarget (h : FlightInv e flights) {target : PieceRef}
    (hend : e.board.getPiece m.endPos = some target) (hidle : (e.piece target).status = .idle) :
    FlightInv (e.captureTarget m target) flights := by
  -- the end square is empty for a moment, the others are as they were
  have hold : ∀ {p ref}, (e.captureTarget m target).board.getPiece p = some ref →
      e.board.getPiece p = some ref ∧ p ≠ m.endPos := by
    intro p ref hp
    rw [getPiece_captureTarget] at hp
    obtain ⟨hne, hp⟩ := unwritten hp (by simp)
    exact ⟨hp, hne⟩
  -- the target is idle, so the pieces in flight keep their statuses
  have hstatus : ∀ m' ∈ flights, ((e.captureTarget m target).piece m'.piece).status =
      (e.piece m'.piece).status := by
    intro m' hm'
    rw [status_captureTarget, if_neg]
    exact fun heq => h.status_ne_idle hm' (heq ▸ hidle)
  refine ⟨?_, h.single, ?_, ?_, ?_, ?_, h.departs⟩
  · exact fun m' hm' => (hstatus m' hm').trans (h.flying m' hm')
  · intro ref hjumping
    rw [status_captureTarget] at hjumping
    exact h.jumps ref (unwritten hjumping (by simp)).2
  · exact fun p p' ref hp hp' => h.placed p p' ref (hold hp).1 (hold hp').1
  · intro p ref hp
    obtain ⟨hp, hne⟩ := hold hp
    rw [status_captureTarget]
    split
    · -- the target stood on the end square alone
      next heq => exact absurd (h.placed p m.endPos target (heq ▸ hp) hend) hne
    · exact h.alive p ref hp
  · exact fun m' hm' p hp => h.atStart m' hm' p (hold hp).1

/-- What stands on a square after the mover has taken its end square. -/
theorem getPiece_settle_cases (h : FlightInv e (m :: rest)) {p : Position} {ref : PieceRef}
    (hp : (e.settle m).board.getPiece p = some ref) :
    p = m.endPos ∧ ref = m.piece ∨
      p ≠ m.endPos ∧ ref ≠ m.piece ∧ e.board.getPiece p = some ref := by
  rw [getPiece_settle] at hp
  split at hp
  · next hend => exact Or.inl ⟨hend, (Option.some.inj hp).symm⟩
  · next hend =>
    split at hp
    · exact absurd hp (by simp)
    · next hnot =>
      refine Or.inr ⟨hend, ?_, hp⟩
      rintro rfl
      -- the mover could only still be on its start square, which it has left
      have hstart := h.atStart m List.mem_cons_self p hp
      exact hnot ⟨hstart, hstart ▸ hp⟩

/-- The mover leaves the list of flights and stands on its end square. -/
theorem settle (h : FlightInv e (m :: rest)) : FlightInv (e.settle m) rest := by
  refine ⟨?_, (List.nodup_cons.mp h.single).2, ?_, ?_, ?_, ?_, ?_⟩
  · -- the motions left are of other pieces
    intro m' hm'
    rw [status_settle, if_neg (h.piece_ne hm')]
    exact h.flying m' (List.mem_cons_of_mem m hm')
  · intro ref hjumping
    rw [status_settle] at hjumping
    obtain ⟨hne, hjumping⟩ := unwritten hjumping (by simp)
    exact h.jumps_of_ne hne hjumping
  · -- the mover is on the end square only, and every other piece where it was
    intro p p' ref hp hp'
    rcases h.getPiece_settle_cases hp with ⟨hp, href⟩ | ⟨-, href, hp⟩ <;>
      rcases h.getPiece_settle_cases hp' with ⟨hp', href'⟩ | ⟨-, href', hp'⟩
    · exact hp.trans hp'.symm
    · exact absurd href href'
    · exact absurd href' href
    · exact h.placed p p' ref hp hp'
  · -- the mover is idle, and the others as before
    intro p ref hp
    rw [status_settle]
    rcases h.getPiece_settle_cases hp with ⟨-, href⟩ | ⟨-, href, hp⟩
    · rw [if_pos href]; simp
    · rw [if_neg href]
      exact h.alive p ref hp
  · -- a square that only the mover has come to is not the start of another motion
    intro m' hm' p hp
    rcases h.getPiece_settle_cases hp with ⟨-, href⟩ | ⟨-, -, hp⟩
    · exact absurd href (h.piece_ne hm')
    · exact h.atStart m' (List.mem_cons_of_mem m hm') p hp
  · exact fun m' hm' => h.departs m' (List.mem_cons_of_mem m hm')

end FlightInv

/-- **Invariant preservation, one landing.** -/
theorem Landing.flightInv {e e' : GameEngine} {m : Motion} {rest : List Motion}
    (hland : Landing e m e') (h : FlightInv e (m :: rest)) : FlightInv e' rest := by
  cases hland with
  | skipped hcaptured =>
    -- under the invariant no captured piece is in flight
    exact absurd hcaptured (h.status_ne_captured List.mem_cons_self)
  | jumpEnds | blocked => exact h.setIdle
  | shotDown jumper => exact h.capturedByJumper jumper
  | takes target _ _ hend hidle =>
    -- the capture leaves the flights as they are, then the mover settles
    exact (h.captureTarget hend hidle).settle
  | settles => exact h.settle

/-! ### Calls -/

namespace GameEngine

/-- The motion a request launches, if it is accepted. -/
def launchOf (e : GameEngine) : Call → Option Motion
  | .move startPos endPos durationMs =>
    (e.launchable startPos).bind fun ref =>
      if RuleEngine.isMoveLegal e.board startPos endPos then
        some (e.arbiter.newMotion ref startPos endPos durationMs)
      else none
  | .jump position =>
    (e.launchable position).map fun ref => e.arbiter.jumpMotion ref position 1000
  | .tick _ => none

/-- Whether the launch is dropped again because an active motion comes the other way. -/
def cancelsLaunch (e : GameEngine) (c : Call) : Bool :=
  match e.launchOf c with
  | some m => meetsHeadOn e.arbiter.activeMotions m
  | none => false

/-- A piece can be launched while the game runs and it stands idle on the square. -/
theorem launchable_eq_some {e : GameEngine} {p : Position} {ref : PieceRef} :
    e.launchable p = some ref ↔
      e.gameOver = false ∧ e.board.getPiece p = some ref ∧ (e.piece ref).status = .idle := by
  unfold launchable
  cases e.gameOver with
  | true => simp
  | false =>
    rw [if_neg (by simp), Option.filter_eq_some_iff]
    simp

/-- An accepted request launches an idle piece from the square it stands on. -/
theorem launchOf_eq_some {e : GameEngine} {c : Call} {m : Motion} (h : e.launchOf c = some m) :
    e.launchable m.startPos = some m.piece ∧ m.motionId = e.arbiter.motionCounter + 1 ∧
      (m.isJump = false → m.startPos ≠ m.endPos) := by
  cases c with
  | move startPos endPos durationMs =>
    -- a move is legal, so it ends where it has not started
    obtain ⟨ref, hlaunch, h⟩ := Option.bind_eq_some_iff.mp h
    split at h
    · next hlegal =>
      obtain rfl := Option.some.inj h
      exact ⟨hlaunch, rfl, fun _ => RuleEngine.ne_of_isMoveLegal hlegal⟩
    · exact absurd h (by simp)
  | jump position =>
    obtain ⟨ref, hlaunch, rfl⟩ := Option.map_eq_some_iff.mp h
    exact ⟨hlaunch, rfl, fun hflight => absurd hflight (by simp [jumpMotion])⟩
  | tick ms => exact absurd h (by simp [launchOf])

/-- Nothing comes head-on to a jump. -/
theorem not_meetsHeadOn_of_jump {active : List Motion} {m : Motion} (h : m.startPos = m.endPos) :
    meetsHeadOn active m = false := by
  rw [meetsHeadOn, List.any_eq_false]
  intro existing _
  -- a jump has no direction, so no direction is opposite to its own
  have hcourse : areOnCollisionCourse existing m = false := by
    unfold areOnCollisionCourse
    simp only [h, sub_self, show sign 0 = 0 from rfl, add_zero]
    split
    · rfl
    · next hsigns =>
      rw [if_pos]
      simpa using hsigns
  rw [hcourse, Bool.and_false]
  exact Bool.false_ne_true

end GameEngine

/-- The outcomes of a call. -/
inductive CallOutcome (e : GameEngine) (c : Call) : GameEngine → Prop where
  /-- A request is rejected, or a tick comes after the end of the game. -/
  | rejected (hnone : e.launchOf c = none) (hover : ∀ ms, c = .tick ms → e.gameOver = true) :
      CallOutcome e c e
  /-- A piece is launched. -/
  | launched (m : Motion) (scoreboard : Scoreboard) (hlaunch : e.launchOf c = some m)
      (hfree : e.cancelsLaunch c = false) (hscores : scoreboard.scores = e.scoreboard.scores) :
      CallOutcome e c
        { e with
          arbiter := ⟨e.arbiter.activeMotions ++ [m], e.arbiter.motionCounter + 1⟩
          board := e.board.setStatus m.piece m.status
          scoreboard := scoreboard }
  /-- A launch is dropped: the piece is `moving` and no motion carries it. -/
  | cancelled (m : Motion) (scoreboard : Scoreboard) (hlaunch : e.launchOf c = some m)
      (hmeets : e.cancelsLaunch c = true) (hflight : m.isJump = false)
      (hscores : scoreboard.scores = e.scoreboard.scores) :
      CallOutcome e c
        { e with
          arbiter := ⟨e.arbiter.activeMotions, e.arbiter.motionCounter + 1⟩
          board := e.board.setStatus m.piece .moving
          scoreboard := scoreboard }
  /-- The completed motions land. -/
  | ticked (ms : Int) (hcall : c = .tick ms) (hrunning : e.gameOver = false) :
      CallOutcome e c ((e.completedMotions ms).foldl land (e.afterAdvance ms))

namespace FlightInv

variable {e : GameEngine}

/-- The launched motion is not yet among the active ones. -/
theorem not_mem_of_launchOf (h : FlightInv e e.arbiter.activeMotions) {c : Call} {m : Motion}
    (hlaunch : e.launchOf c = some m) : m ∉ e.arbiter.activeMotions := fun hm =>
  h.status_ne_idle hm (launchable_eq_some.mp (launchOf_eq_some hlaunch).1).2.2

end FlightInv

/-- **A call does nothing else.** -/
theorem call_cases {e : GameEngine} (h : FlightInv e e.arbiter.activeMotions) (c : Call) :
    CallOutcome e c (e.call c) := by
  cases c with
  | tick ms =>
    change CallOutcome e _ (e.updateGameClock ms)
    unfold updateGameClock
    split
    · next hover => exact .rejected rfl fun _ _ => hover
    · next hrunning => exact .ticked ms rfl (Bool.eq_false_iff.mpr hrunning)
  | jump position =>
    change CallOutcome e _ (e.handleJumpRequest position).1
    unfold handleJumpRequest
    split
    · next hnone =>
      exact .rejected (by rw [launchOf, hnone, Option.map_none]) fun _ hc => absurd hc (by simp)
    · next ref hsome =>
      have hlaunch : e.launchOf (.jump position) = some (e.arbiter.jumpMotion ref position 1000) := by
        rw [launchOf, hsome, Option.map_some]
      -- `start_jump` does not look for collisions, and there are none to find
      refine .launched _ _ hlaunch ?_ (Scoreboard.scores_addMove _ _ _)
      rw [cancelsLaunch, hlaunch]
      exact not_meetsHeadOn_of_jump rfl
  | move startPos endPos durationMs =>
    change CallOutcome e _ (e.handleMoveRequest startPos endPos durationMs).1
    unfold handleMoveRequest
    split
    · next hnone =>
      exact .rejected (by rw [launchOf, hnone, Option.bind_none]) fun _ hc => absurd hc (by simp)
    next ref hsome =>
    split
    · next hlegal =>
      have hlaunch : e.launchOf (.move startPos endPos durationMs) =
          some (e.arbiter.newMotion ref startPos endPos durationMs) := by
        rw [launchOf, hsome, Option.bind_some, if_pos hlegal]
      have hnew := h.not_mem_of_launchOf hlaunch
      have hscores := Scoreboard.scores_addMove e.scoreboard (e.piece ref).color
        (moveText (e.piece ref) startPos endPos)
      -- among the active motions, the new one is last and compared with none but itself
      have hmeets : meetsHeadOn
            (e.arbiter.activeMotions ++ [e.arbiter.newMotion ref startPos endPos durationMs])
            (e.arbiter.newMotion ref startPos endPos durationMs) =
          e.cancelsLaunch (.move startPos endPos durationMs) := by
        rw [cancelsLaunch, hlaunch]
        simp [meetsHeadOn]
      dsimp only [startMotion, resolveCommonRouteCollision]
      rw [hmeets]
      cases hcancel : e.cancelsLaunch (.move startPos endPos durationMs) with
      | false =>
        rw [if_neg (by simp)]
        exact .launched _ _ hlaunch hcancel hscores
      | true =>
        -- what is taken off the list is the new motion, the status stays written
        rw [if_pos rfl, List.erase_append_right _ hnew]
        simp only [List.erase_cons_head, List.append_nil]
        exact .cancelled _ _ hlaunch hcancel rfl hscores
    · next hillegal =>
      refine .rejected ?_ fun _ hc => absurd hc (by simp)
      rw [launchOf, hsome, Option.bind_some, if_neg hillegal]

namespace FlightInv

variable {e : GameEngine}

/-- The completed and the remaining motions of a tick are the active ones, aged. -/
theorem completed_append_perm (e : GameEngine) (ms : Int) :
    (e.completedMotions ms ++ (e.afterAdvance ms).arbiter.activeMotions).Perm
      (e.arbiter.activeMotions.map (elapse ms)) := by
  have hbatch : (e.completedMotions ms).Perm
      ((e.arbiter.activeMotions.map (elapse ms)).filter fun m => decide (m.remainingTime ≤ 0)) :=
    (Sorting.sortBy_perm _ _).trans (Sorting.sortBy_perm _ _)
  exact (hbatch.append_right _).trans (List.filter_append_perm _ _)

/-- The state in which the landings of a tick begin. -/
theorem afterAdvance (h : FlightInv e e.arbiter.activeMotions) (ms : Int) :
    FlightInv (e.afterAdvance ms)
      (e.completedMotions ms ++ (e.afterAdvance ms).arbiter.activeMotions) :=
  (h.of_perm_elapse (completed_append_perm e ms)).of_board_eq rfl

/-- **Invariant preservation, one call.** -/
theorem call (h : FlightInv e e.arbiter.activeMotions) (c : Call) :
    FlightInv (e.call c) (e.call c).arbiter.activeMotions := by
  have hcase := call_cases h c
  generalize e.call c = e' at hcase
  cases hcase with
  | rejected => exact h
  | launched m scoreboard hlaunch =>
    -- the launched piece was idle on the start square
    obtain ⟨hlaunchable, -, hdeparts⟩ := launchOf_eq_some hlaunch
    obtain ⟨-, hstart, hidle⟩ := launchable_eq_some.mp hlaunchable
    exact (h.launch hidle hstart hdeparts).of_board_eq rfl
  | cancelled m scoreboard hlaunch =>
    -- only the status is written
    have hidle := (launchable_eq_some.mp (launchOf_eq_some hlaunch).1).2.2
    exact (h.strand hidle).of_board_eq rfl
  | ticked ms =>
    -- induction over the batch: the flights are the rest of it and the active motions
    rw [arbiter_foldl_land]
    exact Run.invariant
      (P := fun t rest => FlightInv t (rest ++ (e.afterAdvance ms).arbiter.activeMotions))
      (fun t m rest ht => (land_cases t m).flightInv ht) (h.afterAdvance ms)

/-- A parsed board starts with the invariant: everything is idle, nothing in flight. -/
theorem new {board : Board} (h : Parsed board) : FlightInv (GameEngine.new board) [] := by
  refine ⟨?_, List.nodup_nil, ?_, ?_, ?_, ?_, ?_⟩
  · exact fun m hm => absurd hm List.not_mem_nil
  · intro ref hjumping
    exact absurd ((h.idle ref).symm.trans hjumping) (by simp)
  · exact fun p p' ref hp hp' => h.injective hp hp'
  · intro p ref _ hcaptured
    exact absurd ((h.idle ref).symm.trans hcaptured) (by simp)
  · exact fun m hm => absurd hm List.not_mem_nil
  · exact fun m hm => absurd hm List.not_mem_nil

/-- **The invariant holds throughout every game.** -/
theorem play (h : FlightInv e e.arbiter.activeMotions) (calls : List Call) :
    FlightInv (e.play calls) (e.play calls).arbiter.activeMotions :=
  Run.stable (P := fun t : GameEngine => FlightInv t t.arbiter.activeMotions)
    (fun _ c ht => ht.call c) h

end FlightInv

end KungFuChess
