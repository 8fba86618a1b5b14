import KungFuChess.Engine.FlightInv

/-!
# Statuses and motions

Piece statuses are written by the engine and by the arbiter, motions by the arbiter
alone. `StatusesAgree` says that the two tell the same story: a piece is `moving` or
`jumping` exactly while one active motion of that kind carries it, and at rest exactly
while none does.

All of it follows from the flight invariant but one implication, that a `moving` piece
is carried by a motion (`Carried`). Landings keep it, and so does every call except a
launch that is cancelled head-on: the arbiter drops the motion, the status stays. The
agreement therefore holds in all states of a game exactly when no launch of the game is
cancelled (`statusesAgree_iff`).
-/

namespace KungFuChess

open GameEngine BoardParser

namespace GameEngine

/-- The active motions, jumps excepted, that carry the piece. -/
def flightsOf (e : GameEngine) (ref : PieceRef) : List Motion :=
  e.arbiter.activeMotions.filter fun m => m.piece = ref ∧ m.isJump = false

/-- The active jumps of the piece. -/
def jumpsOf (e : GameEngine) (ref : PieceRef) : List Motion :=
  e.arbiter.activeMotions.filter fun m => m.piece = ref ∧ m.isJump = true

end GameEngine

/-- Piece statuses and the arbiter's motion list agree. -/
structure StatusesAgree (e : GameEngine) : Prop where
  moving : ∀ ref, (e.piece ref).status = .moving ↔ (e.flightsOf ref).length = 1
  jumping : ∀ ref, (e.piece ref).status = .jumping ↔ (e.jumpsOf ref).length = 1
  resting : ∀ ref, ((e.piece ref).status = .idle ∨ (e.piece ref).status = .captured) ↔
    ∀ m ∈ e.arbiter.activeMotions, m.piece ≠ ref

/-- Every piece set `moving` is carried by a flight. -/
def Carried (e : GameEngine) (flights : List Motion) : Prop :=
  ∀ ref, (e.piece ref).status = .moving → ∃ m ∈ flights, m.isJump = false ∧ m.piece = ref

/-! ### Counting the motions of a piece -/

/-- Among flights that carry distinct pieces, those of one piece and one kind are one
exactly when there is one. -/
theorem length_filter_eq_one_iff {flights : List Motion}
    (hsingle : (flights.map Motion.piece).Nodup) (ref : PieceRef) (isJump : Bool) :
    (flights.filter fun m => m.piece = ref ∧ m.isJump = isJump).length = 1 ↔
      ∃ m ∈ flights, m.isJump = isJump ∧ m.piece = ref := by
  have hle : (flights.filter fun m => m.piece = ref ∧ m.isJump = isJump).length ≤ 1 := by
    induction flights with
    | nil => simp
    | cons m flights ih =>
      -- if the first flight counts, the others carry other pieces
      obtain ⟨hnot, hsingle'⟩ := List.nodup_cons.mp hsingle
      by_cases hm : m.piece = ref ∧ m.isJump = isJump
      · have hnone : (flights.filter fun m => m.piece = ref ∧ m.isJump = isJump) = [] := by
          rw [List.filter_eq_nil_iff]
          intro m' hm' hsame
          have hsame' := (decide_eq_true_iff.mp hsame).1
          exact hnot (List.mem_map.mpr ⟨m', hm', hsame'.trans hm.1.symm⟩)
        rw [List.filter_cons_of_pos (by simpa using hm), hnone]
        simp
      · rw [List.filter_cons_of_neg (by simpa using hm)]
        exact ih hsingle'
  refine ⟨fun hone => ?_, ?_⟩
  · obtain ⟨m, hm⟩ := List.length_pos_iff_exists_mem.mp (Nat.lt_of_lt_of_eq Nat.one_pos hone.symm)
    obtain ⟨hmem, hsame⟩ := List.mem_filter.mp hm
    have hsame' := decide_eq_true_iff.mp hsame
    exact ⟨m, hmem, hsame'.2, hsame'.1⟩
  · rintro ⟨m, hmem, hjump, hpiece⟩
    have hm : m ∈ flights.filter fun m => m.piece = ref ∧ m.isJump = isJump :=
      List.mem_filter.mpr ⟨hmem, decide_eq_true ⟨hpiece, hjump⟩⟩
    exact le_antisymm hle (List.length_pos_of_mem hm)

/-- Under the flight invariant the agreement is the one implication it leaves out. -/
theorem FlightInv.statusesAgree_iff_carried {e : GameEngine}
    (h : FlightInv e e.arbiter.activeMotions) :
    StatusesAgree e ↔ Carried e e.arbiter.activeMotions := by
  have hmoving := fun ref => length_filter_eq_one_iff h.single ref false
  have hjumping := fun ref => length_filter_eq_one_iff h.single ref true
  refine ⟨fun hagree ref hstatus => ?_, fun hcarried => ⟨fun ref => ?_, fun ref => ?_, fun ref => ?_⟩⟩
  · exact (hmoving ref).mp ((hagree.moving ref).mp hstatus)
  · -- one direction is the missing implication, the other is `FlightInv.flying`
    rw [flightsOf, hmoving]
    refine ⟨hcarried ref, ?_⟩
    rintro ⟨m, hm, hflight, rfl⟩
    exact h.status_moving hm hflight
  · -- the same of the jumps, where the invariant has the implication
    rw [jumpsOf, hjumping]
    refine ⟨h.jumps ref, ?_⟩
    rintro ⟨m, hm, hjump, rfl⟩
    rw [h.flying m hm, Motion.status, hjump]
    rfl
  · -- the two statuses left over are those of the pieces nothing carries
    refine ⟨?_, fun hnone => ?_⟩
    · intro hrest m hm hpiece
      subst hpiece
      obtain hidle | hcaptured := hrest
      · exact h.status_ne_idle hm hidle
      · exact h.status_ne_captured hm hcaptured
    · cases hstatus : (e.piece ref).status with
      | idle => exact Or.inl rfl
      | captured => exact Or.inr rfl
      | moving =>
        obtain ⟨m, hm, -, hpiece⟩ := hcarried ref hstatus
        exact absurd hpiece (hnone m hm)
      | jumping =>
        obtain ⟨m, hm, -, hpiece⟩ := h.jumps ref hstatus
        exact absurd hpiece (hnone m hm)

/-! ### Landings and calls -/

/-- A landing sets no piece `moving`, and takes the mover out of that status. -/
theorem Landing.status_moving {e e' : GameEngine} {m : Motion} (hland : Landing e m e')
    (hcaptured : (e.piece m.piece).status ≠ .captured) {ref : PieceRef}
    (hmoving : (e'.piece ref).status = .moving) :
    ref ≠ m.piece ∧ (e.piece ref).status = .moving := by
  cases hland with
  | skipped h => exact absurd h hcaptured
  | jumpEnds | blocked =>
    rw [status_setStatus] at hmoving
    obtain ⟨hne, hmoving⟩ := unwritten hmoving (by simp)
    exact ⟨hne, hmoving⟩
  | shotDown jumper =>
    rw [status_capturedByJumper] at hmoving
    obtain ⟨hne, hmoving⟩ := unwritten hmoving (by simp)
    exact ⟨hne, hmoving⟩
  | takes target =>
    -- neither the mover nor the target is `moving` afterwards
    rw [status_settle, status_captureTarget] at hmoving
    obtain ⟨hne, hmoving⟩ := unwritten hmoving (by simp)
    exact ⟨hne, (unwritten hmoving (by simp)).2⟩
  | settles =>
    rw [status_settle] at hmoving
    obtain ⟨hne, hmoving⟩ := unwritten hmoving (by simp)
    exact ⟨hne, hmoving⟩

/-- A landing keeps the other `moving` pieces carried. -/
theorem Landing.carried {e e' : GameEngine} {m : Motion} {rest : List Motion}
    (hland : Landing e m e') (h : FlightInv e (m :: rest)) (hcarried : Carried e (m :: rest)) :
    Carried e' rest := by
  intro ref hmoving
  obtain ⟨hne, hbefore⟩ := hland.status_moving (h.status_ne_captured List.mem_cons_self) hmoving
  obtain ⟨m', hm', hflight, hpiece⟩ := hcarried ref hbefore
  obtain rfl | hm' := List.mem_cons.mp hm'
  · -- the landing motion carried another piece
    exact absurd hpiece.symm hne
  · exact ⟨m', hm', hflight, hpiece⟩

/-- **Exactness, one call.** From a state where every `moving` piece is carried, a call
leads to such a state unless it launches a piece head-on into an active motion. -/
theorem Carried.call_iff {e : GameEngine} (h : FlightInv e e.arbiter.activeMotions)
    (hcarried : Carried e e.arbiter.activeMotions) (c : Call) :
    e.cancelsLaunch c = false ↔ Carried (e.call c) (e.call c).arbiter.activeMotions := by
  have hcase := call_cases h c
  generalize e.call c = e' at hcase
  cases hcase with
  | rejected hnone =>
    refine iff_of_true ?_ hcarried
    rw [cancelsLaunch, hnone]
  | launched m scoreboard hlaunch hfree =>
    refine iff_of_true hfree fun ref hmoving => ?_
    replace hmoving : ((e.setStatus m.piece m.status).piece ref).status = .moving := hmoving
    rw [status_setStatus] at hmoving
    split at hmoving
    · next heq =>
      -- the launched piece, carried by the new motion unless that is a jump
      refine ⟨m, List.mem_append_right _ (List.mem_singleton.mpr rfl), ?_, heq.symm⟩
      by_contra hjump
      rw [Motion.status, if_pos (by simpa using hjump)] at hmoving
      exact absurd hmoving (by simp)
    · obtain ⟨m', hm', hflight, hpiece⟩ := hcarried ref hmoving
      exact ⟨m', List.mem_append_left _ hm', hflight, hpiece⟩
  | cancelled m scoreboard hlaunch hmeets =>
    refine iff_of_false (by rw [hmeets]; simp) fun hafter => ?_
    -- the stranded piece was idle, so no active motion carries it
    have hidle := (launchable_eq_some.mp (launchOf_eq_some hlaunch).1).2.2
    have hstranded : ((e.setStatus m.piece .moving).piece m.piece).status = .moving := by
      rw [status_setStatus, if_pos rfl]
    obtain ⟨m', hm', -, hpiece⟩ := hafter m.piece hstranded
    exact h.status_ne_idle hm' (hpiece ▸ hidle)
  | ticked ms hcall =>
    refine iff_of_true (by rw [hcall]; rfl) ?_
    rw [arbiter_foldl_land]
    -- the aged motions still carry the pieces, and the landings keep them carried
    have hstart : Carried (e.afterAdvance ms)
        (e.completedMotions ms ++ (e.afterAdvance ms).arbiter.activeMotions) := by
      intro ref hmoving
      obtain ⟨m, hm, hflight, hpiece⟩ := hcarried ref hmoving
      have hmem := List.mem_map_of_mem (f := RealTimeArbiter.elapse ms) hm
      exact ⟨_, (FlightInv.completed_append_perm e ms).mem_iff.mpr hmem, hflight, hpiece⟩
    have hend := Run.invariant
      (P := fun t rest => FlightInv t (rest ++ (e.afterAdvance ms).arbiter.activeMotions) ∧
        Carried t (rest ++ (e.afterAdvance ms).arbiter.activeMotions))
      (fun t m rest ht => ⟨(land_cases t m).flightInv ht.1, (land_cases t m).carried ht.1 ht.2⟩)
      ⟨h.afterAdvance ms, hstart⟩
    exact hend.2

/-! ### Games -/

/-- **Statuses and motions agree exactly in the games without a cancelled launch.** In a
game played on a parsed board, every state reached has the agreement iff no accepted move
of the game is launched head-on into a motion that is still active. -/
theorem statusesAgree_iff {boardLines : List String} {board : Board}
    (hparse : parseInitialBoard boardLines = .ok board) (calls : List Call) :
    (∀ pre, pre <+: calls → StatusesAgree ((GameEngine.new board).play pre)) ↔
      ∀ pre c post, calls = pre ++ c :: post →
        ((GameEngine.new board).play pre).cancelsLaunch c = false := by
  have hnew : FlightInv (GameEngine.new board) [] :=
    FlightInv.new (Parsed.of_parseInitialBoard hparse)
  have hcarried : Carried (GameEngine.new board) [] := by
    intro ref hmoving
    have hidle := (Parsed.of_parseInitialBoard hparse).idle ref
    exact absurd (hidle.symm.trans hmoving) (by simp)
  -- from the states of the game to its steps, with the flight invariant in hand
  calc (∀ pre, pre <+: calls → StatusesAgree ((GameEngine.new board).play pre))
      ↔ ∀ pre, pre <+: calls → Carried ((GameEngine.new board).play pre)
          ((GameEngine.new board).play pre).arbiter.activeMotions :=
        forall₂_congr fun pre _ => (hnew.play pre).statusesAgree_iff_carried
    _ ↔ Run.Throughout GameEngine.call
          (fun e _ => Carried e e.arbiter.activeMotions) (GameEngine.new board) calls :=
        (Run.throughout_iff_prefix
          (Q := fun e : GameEngine => Carried e e.arbiter.activeMotions) _ _).symm
    _ ↔ Run.Guarded GameEngine.call (fun e c _ => e.cancelsLaunch c = false)
          (GameEngine.new board) calls :=
        (Run.guarded_iff_throughout
          (J := fun (e : GameEngine) _ => FlightInv e e.arbiter.activeMotions)
          (fun e c _ h => h.call c) (fun e c _ h hP => hP.call_iff h c) hnew hcarried).symm
    _ ↔ _ := Run.guarded_iff_split _ _

/-- Two rooks on an open row, sent at each other. -/
def headOnGame : List Call := [.move ⟨0, 0⟩ ⟨0, 3⟩ 3000, .move ⟨0, 3⟩ ⟨0, 0⟩ 3000]

/-- Two rooks that follow one another, with a tick in between. -/
theorem statusesAgree_iff_openRow :
    StatusesAgree ((GameEngine.new (boardOf ["wR . . bR"])).play
      [.move ⟨0, 0⟩ ⟨0, 2⟩ 2000, .tick 2000, .move ⟨0, 3⟩ ⟨0, 2⟩ 1000]) := by
  have hparse : parseInitialBoard ["wR . . bR"] = .ok (boardOf ["wR . . bR"]) :=
    parseInitialBoard_eq_boardOf (by decide)
  refine (statusesAgree_iff hparse _).mpr ?_ _ List.prefix_rfl
  have hguarded : Run.Guarded GameEngine.call (fun e c _ => e.cancelsLaunch c = false)
      (GameEngine.new (boardOf ["wR . . bR"]))
      [Call.move ⟨0, 0⟩ ⟨0, 2⟩ 2000, .tick 2000, .move ⟨0, 3⟩ ⟨0, 2⟩ 1000] := by
    decide
  exact (Run.guarded_iff_split _ _).mp hguarded

/-- The second rook is launched, its motion is dropped, and it stays `moving`. -/
theorem not_statusesAgree_headOn :
    parseInitialBoard ["wR . . bR"] = .ok (boardOf ["wR . . bR"]) ∧
      ¬ StatusesAgree ((GameEngine.new (boardOf ["wR . . bR"])).play headOnGame) := by
  refine ⟨parseInitialBoard_eq_boardOf (by decide), fun h => ?_⟩
  exact absurd ((h.moving ⟨⟨0, 3⟩⟩).mp (by decide)) (by decide)

end KungFuChess
