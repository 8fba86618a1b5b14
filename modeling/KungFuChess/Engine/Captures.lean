import KungFuChess.Engine.FlightInv

/-!
# Captures

The engine keeps no record of who captured whom; it writes a status, some points and
perhaps the end of the game. `captureOf` reads the capturer and the captured piece off a
landing, and `captures` collects them over a game, in landing order.

A piece is `captured` only if a landing of the game captured it, and then its capturer
has the other colour (`captured_by_enemy`).
-/

namespace KungFuChess

open GameEngine

namespace GameEngine

/-- The capture a landing makes: the capturer and the captured piece. -/
def captureOf (e : GameEngine) (motion : Motion) : Option (PieceRef × PieceRef) :=
  if (e.piece motion.piece).status = .captured ∨ motion.isJump then none
  else
    (e.board.getPiece motion.endPos).bind fun target =>
      if (e.piece target).color = (e.piece motion.piece).color then none
      else if (e.piece target).status = .jumping then some (target, motion.piece)
      else if (e.piece target).status = .idle then some (motion.piece, target)
      else none

/-- The captures of a batch, in landing order. -/
def batchCaptures (e : GameEngine) : List Motion → List (PieceRef × PieceRef)
  | [] => []
  | m :: rest => (e.captureOf m).toList ++ (e.land m).batchCaptures rest

/-- The captures of a call. -/
def callCaptures (e : GameEngine) : Call → List (PieceRef × PieceRef)
  | .tick ms =>
    if e.gameOver then [] else (e.afterAdvance ms).batchCaptures (e.completedMotions ms)
  | _ => []

/-- The captures of a game, in the order in which they happened. -/
def captures (e : GameEngine) : List Call → List (PieceRef × PieceRef)
  | [] => []
  | c :: calls => e.callCaptures c ++ (e.call c).captures calls

end GameEngine

/-- The captured piece is a mover that is not in a jump, or stands on the end square. -/
theorem captureOf_eq_some {e : GameEngine} {m : Motion} {capturer captured : PieceRef}
    (h : e.captureOf m = some (capturer, captured)) :
    m.isJump = false ∧
      (captured = m.piece ∨ e.board.getPiece m.endPos = some captured) := by
  unfold captureOf at h
  split at h
  · exact absurd h (by simp)
  · next hnot =>
    -- a piece on the end square is needed for a capture: it captures, or is captured
    obtain ⟨target, hend, h⟩ := Option.bind_eq_some_iff.mp h
    refine ⟨Bool.eq_false_iff.mpr fun hjump => hnot (Or.inr hjump), ?_⟩
    split at h
    · exact absurd h (by simp)
    split at h
    · exact Or.inl (Prod.mk.inj (Option.some.inj h)).2.symm
    split at h
    · exact Or.inr (hend.trans (congrArg some (Prod.mk.inj (Option.some.inj h)).2))
    · exact absurd h (by simp)

/-! ### One landing -/

section Landing

variable {e e' : GameEngine} {m : Motion}

/-- The capture of a landing, outcome by outcome. -/
theorem Landing.captureOf_cases (h : Landing e m e') :
    (e.captureOf m = none ∧
      (e' = e ∨ e' = e.setStatus m.piece .idle ∨ e' = e.settle m)) ∨
    (∃ jumper, e.captureOf m = some (jumper, m.piece) ∧ e' = e.capturedByJumper m jumper ∧
      (e.piece jumper).color ≠ (e.piece m.piece).color) ∨
    ∃ target, e.captureOf m = some (m.piece, target) ∧
      e' = (e.captureTarget m target).settle m ∧
      (e.piece m.piece).color ≠ (e.piece target).color := by
  cases h with
  | skipped hcaptured => exact Or.inl ⟨by rw [captureOf, if_pos (Or.inl hcaptured)], Or.inl rfl⟩
  | jumpEnds halive hjump =>
    exact Or.inl ⟨by rw [captureOf, if_pos (Or.inr hjump)], Or.inr (Or.inl rfl)⟩
  | shotDown jumper halive hflight hend hjumping henemy =>
    refine Or.inr (Or.inl ⟨jumper, ?_, rfl, henemy⟩)
    rw [captureOf, if_neg (by simp [halive, hflight]), hend, Option.bind_some, if_neg henemy,
      if_pos hjumping]
  | blocked friend halive hflight hend hidle hfriend =>
    refine Or.inl ⟨?_, Or.inr (Or.inl rfl)⟩
    rw [captureOf, if_neg (by simp [halive, hflight]), hend, Option.bind_some, if_pos hfriend]
  | takes target halive hflight hend hidle henemy =>
    refine Or.inr (Or.inr ⟨target, ?_, rfl, henemy.symm⟩)
    rw [captureOf, if_neg (by simp [halive, hflight]), hend, Option.bind_some, if_neg henemy,
      if_neg (by simp [hidle]), if_pos hidle]
  | settles halive hflight hover =>
    refine Or.inl ⟨?_, Or.inr (Or.inr rfl)⟩
    -- what stands on the end square is neither an idle nor a jumping enemy
    rw [captureOf, if_neg (by simp [halive, hflight])]
    cases hend : e.board.getPiece m.endPos with
    | none => rfl
    | some target =>
      obtain ⟨hbusy, hfriend⟩ := hover target hend
      rw [Option.bind_some, ite_eq_left_iff]
      intro henemy
      have hstanding : (e.piece target).status ≠ .jumping := fun hjumping =>
        henemy (hfriend hjumping)
      rw [if_neg hstanding, if_neg hbusy]

/-- A piece that a landing leaves captured was so before, or is captured by it. -/
theorem Landing.captured_cases (h : Landing e m e') {ref : PieceRef}
    (hcaptured : (e'.piece ref).status = .captured) :
    (e.piece ref).status = .captured ∨
      ∃ capturer, e.captureOf m = some (capturer, ref) ∧
        (e.piece capturer).color ≠ (e.piece ref).color := by
  rcases h.captureOf_cases with ⟨-, rfl | rfl | rfl⟩ | ⟨jumper, hcap, rfl, henemy⟩ |
    ⟨target, hcap, rfl, henemy⟩
  · exact Or.inl hcaptured
  · -- the mover is set idle, nothing else is written
    rw [status_setStatus] at hcaptured
    exact Or.inl (unwritten hcaptured (by simp)).2
  · -- the mover settles, and is idle
    rw [status_settle] at hcaptured
    exact Or.inl (unwritten hcaptured (by simp)).2
  · -- the mover is the captured piece
    rw [status_capturedByJumper] at hcaptured
    split at hcaptured
    · next heq => exact Or.inr ⟨jumper, heq ▸ hcap, heq ▸ henemy⟩
    · exact Or.inl hcaptured
  · -- the target is the captured piece, and the mover is idle
    rw [status_settle, status_captureTarget] at hcaptured
    obtain ⟨-, hcaptured⟩ := unwritten hcaptured (by simp)
    split at hcaptured
    · next heq => exact Or.inr ⟨m.piece, heq ▸ hcap, heq ▸ henemy⟩
    · exact Or.inl hcaptured

/-- Once captured, always captured. -/
theorem Landing.captured_mono (h : Landing e m e') {ref : PieceRef}
    (hcaptured : (e.piece ref).status = .captured) : (e'.piece ref).status = .captured := by
  -- a landing that sets a piece idle sets the mover idle, which is not captured
  have hmover : (e.piece m.piece).status ≠ .captured → ref ≠ m.piece := by
    rintro halive rfl
    exact halive hcaptured
  cases h with
  | skipped => exact hcaptured
  | jumpEnds halive | blocked _ halive =>
    rw [status_setStatus, if_neg (hmover halive)]
    exact hcaptured
  | shotDown jumper halive =>
    rw [status_capturedByJumper, if_neg (hmover halive)]
    exact hcaptured
  | takes target halive =>
    rw [status_settle, if_neg (hmover halive), status_captureTarget]
    split
    · rfl
    · exact hcaptured
  | settles halive =>
    rw [status_settle, if_neg (hmover halive)]
    exact hcaptured

end Landing

/-! ### Batches, calls and games -/

namespace GameEngine

variable {e : GameEngine} {ref : PieceRef}

/-- What a batch leaves captured was so before, or has been captured in it, by an enemy. -/
theorem captured_of_batch {batch : List Motion}
    (hcaptured : ((batch.foldl land e).piece ref).status = .captured) :
    (e.piece ref).status = .captured ∨
      ∃ capturer, (capturer, ref) ∈ e.batchCaptures batch ∧
        (e.piece capturer).color ≠ (e.piece ref).color := by
  induction batch generalizing e with
  | nil => exact Or.inl hcaptured
  | cons m batch ih =>
    obtain hland | ⟨capturer, hmem, henemy⟩ := ih hcaptured
    · -- captured by the first landing, or before
      obtain h | ⟨capturer, hcap, henemy⟩ := (land_cases e m).captured_cases hland
      · exact Or.inl h
      · refine Or.inr ⟨capturer, List.mem_append_left _ ?_, henemy⟩
        rw [hcap]
        exact List.mem_singleton.mpr rfl
    · -- a later landing: the colours are those of the start
      rw [color_land, color_land] at henemy
      exact Or.inr ⟨capturer, List.mem_append_right _ hmem, henemy⟩

/-- Requests capture nothing; a tick captures what its landings capture. -/
theorem captured_of_call (h : FlightInv e e.arbiter.activeMotions) {c : Call}
    (hcaptured : ((e.call c).piece ref).status = .captured) :
    (e.piece ref).status = .captured ∨
      ∃ capturer, (capturer, ref) ∈ e.callCaptures c ∧
        (e.piece capturer).color ≠ (e.piece ref).color := by
  have hcase := call_cases h c
  generalize e.call c = e' at hcase hcaptured
  cases hcase with
  | rejected => exact Or.inl hcaptured
  | launched m scoreboard =>
    -- the status of a motion is `moving` or `jumping`
    have hstatus : m.status ≠ .captured := by
      unfold Motion.status
      split <;> simp
    replace hcaptured : ((e.setStatus m.piece m.status).piece ref).status = .captured := hcaptured
    rw [status_setStatus] at hcaptured
    exact Or.inl (unwritten hcaptured hstatus).2
  | cancelled m scoreboard =>
    replace hcaptured : ((e.setStatus m.piece .moving).piece ref).status = .captured := hcaptured
    rw [status_setStatus] at hcaptured
    exact Or.inl (unwritten hcaptured (by simp)).2
  | ticked ms hcall hrunning =>
    rw [hcall, callCaptures, hrunning]
    exact captured_of_batch hcaptured

/-- Nothing but the parser colours a piece. -/
theorem color_call (h : FlightInv e e.arbiter.activeMotions) (c : Call) (ref : PieceRef) :
    ((e.call c).piece ref).color = (e.piece ref).color := by
  have hcase := call_cases h c
  generalize e.call c = e' at hcase
  cases hcase with
  | rejected => rfl
  | launched m => exact piece_setStatus_color e m.piece m.status ref
  | cancelled m => exact piece_setStatus_color e m.piece .moving ref
  | ticked ms => exact color_foldl_land _ ref

/-- Colours do not change in a game. -/
theorem color_play (h : FlightInv e e.arbiter.activeMotions) (calls : List Call)
    (ref : PieceRef) : ((e.play calls).piece ref).color = (e.piece ref).color := by
  induction calls generalizing e with
  | nil => rfl
  | cons c calls ih => exact (ih (h.call c)).trans (color_call h c ref)

/-- **Captures are captures by the other colour.** A piece found captured at the end of
a game was so at its start, or the game's captures name its capturer, an enemy. -/
theorem captured_by_enemy (h : FlightInv e e.arbiter.activeMotions) {calls : List Call}
    (hcaptured : ((e.play calls).piece ref).status = .captured) :
    (e.piece ref).status = .captured ∨
      ∃ capturer, (capturer, ref) ∈ e.captures calls ∧
        (e.piece capturer).color ≠ (e.piece ref).color := by
  induction calls generalizing e with
  | nil => exact Or.inl hcaptured
  | cons c calls ih =>
    -- captured by the first call, or by a later one
    obtain hcall | ⟨capturer, hmem, henemy⟩ := ih (h.call c) hcaptured
    · obtain hbefore | ⟨capturer, hmem, henemy⟩ := captured_of_call h hcall
      · exact Or.inl hbefore
      · exact Or.inr ⟨capturer, List.mem_append_left _ hmem, henemy⟩
    · rw [color_call h, color_call h] at henemy
      exact Or.inr ⟨capturer, List.mem_append_right _ hmem, henemy⟩

end GameEngine

end KungFuChess
