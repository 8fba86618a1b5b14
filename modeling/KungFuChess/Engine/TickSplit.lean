import Mathlib.Algebra.Order.BigOperators.Group.List
import Mathlib.Algebra.Order.Ring.Int
import KungFuChess.Engine.KingCapture

/-!
# Cutting time into ticks

A tick lands the motions that complete within it, sorted by the time they have left. The
motions that complete in the first part of a tick have less time left than those that
complete in the second, so the batch of the whole tick is the batch of the first part
followed by the batch of the second (`completedMotions_add`). The landings do not look at
the clock or at the arbiter (`land_elapse`, `land_withArbiter`), so it does not matter
that between the two batches the clock has been advanced a second time.

The only thing that separates a long tick from its parts is the end of the game, after
which the parts no longer run. Where the long tick does not end the game, every way to cut
it leads to the same state (`foldl_updateGameClock`).

The batch order is determined by the elements of the batch because motion numbers are
never given twice (`FreshIds`).
-/

namespace KungFuChess

open GameEngine BoardParser RealTimeArbiter

/-- The active motions carry distinct numbers, none above the counter. -/
structure FreshIds (e : GameEngine) : Prop where
  distinct : (e.arbiter.activeMotions.map Motion.motionId).Nodup
  counted : ∀ m ∈ e.arbiter.activeMotions, m.motionId ≤ e.arbiter.motionCounter

namespace FreshIds

variable {e : GameEngine}

/-- A number of an active motion identifies it. -/
theorem eq_of_motionId (hids : FreshIds e) {m m' : Motion} (hm : m ∈ e.arbiter.activeMotions)
    (hm' : m' ∈ e.arbiter.activeMotions) (heq : m.motionId = m'.motionId) : m = m' :=
  List.inj_on_of_nodup_map hids.distinct hm hm' heq

/-- A request draws a new number, and a tick keeps some of the old ones. -/
theorem call (hids : FreshIds e) (h : FlightInv e e.arbiter.activeMotions) (c : Call) :
    FreshIds (e.call c) := by
  have hcase := call_cases h c
  generalize e.call c = e' at hcase
  cases hcase with
  | rejected => exact hids
  | launched m scoreboard hlaunch =>
    -- the new number is above the counter, the old ones are not
    have hid := (launchOf_eq_some hlaunch).2.1
    refine ⟨?_, fun m' hm' => ?_⟩
    · change ((e.arbiter.activeMotions ++ [m]).map Motion.motionId).Nodup
      rw [List.map_append, List.map_singleton]
      refine List.Nodup.append hids.distinct (List.nodup_singleton _) ?_
      refine List.disjoint_singleton.mpr fun hmem => ?_
      obtain ⟨m', hm', heq⟩ := List.mem_map.mp hmem
      have hle := hids.counted m' hm'
      omega
    · change m'.motionId ≤ e.arbiter.motionCounter + 1
      obtain hm' | hm' := List.mem_append.mp hm'
      · exact Nat.le_succ_of_le (hids.counted m' hm')
      · rw [List.mem_singleton.mp hm', hid]
  | cancelled m scoreboard =>
    -- the counter has gone up for a motion that is not there
    exact ⟨hids.distinct, fun m' hm' => Nat.le_succ_of_le (hids.counted m' hm')⟩
  | ticked ms =>
    -- what is still active was active, under the same numbers
    have hids_map : (e.arbiter.activeMotions.map (elapse ms)).map Motion.motionId =
        e.arbiter.activeMotions.map Motion.motionId := by
      rw [List.map_map]
      rfl
    have hsub : ((e.afterAdvance ms).arbiter.activeMotions.map Motion.motionId).Sublist
        (e.arbiter.activeMotions.map Motion.motionId) := by
      rw [← hids_map]
      exact List.filter_sublist.map _
    refine ⟨?_, fun m hm => ?_⟩
    · rw [arbiter_foldl_land]
      exact hids.distinct.sublist hsub
    · rw [arbiter_foldl_land] at hm ⊢
      obtain ⟨m', hm', rfl⟩ := List.mem_map.mp (List.mem_filter.mp hm).1
      exact hids.counted m' hm'

/-- Numbers stay fresh throughout a game. -/
theorem play (hids : FreshIds e) (h : FlightInv e e.arbiter.activeMotions) (calls : List Call) :
    FreshIds (e.play calls) := by
  have hboth : FreshIds (e.play calls) ∧
      FlightInv (e.play calls) (e.play calls).arbiter.activeMotions :=
    Run.stable (P := fun t : GameEngine => FreshIds t ∧ FlightInv t t.arbiter.activeMotions)
      (fun t c ht => ⟨ht.1.call ht.2 c, ht.2.call c⟩) ⟨hids, h⟩
  exact hboth.1

end FreshIds

namespace GameEngine

variable {e : GameEngine}

/-! ### Landings do not look at the clock -/

theorem land_elapse (ms : Int) (m : Motion) : e.land (elapse ms m) = e.land m := rfl

theorem foldl_land_elapse (ms : Int) (batch : List Motion) :
    (batch.map (elapse ms)).foldl land e = batch.foldl land e := by
  simp only [List.foldl_map, land_elapse]

/-- Replace the arbiter. -/
def withArbiter (e : GameEngine) (arbiter : RealTimeArbiter) : GameEngine :=
  { e with arbiter := arbiter }

section WithArbiter

variable (arbiter : RealTimeArbiter) (m : Motion) (ref ref' : PieceRef)

theorem setStatus_withArbiter (status : PieceStatus) :
    (e.withArbiter arbiter).setStatus ref status =
      (e.setStatus ref status).withArbiter arbiter := rfl

/-- A capture is counted on the scoreboard. -/
theorem scoreCapture_withArbiter :
    (e.withArbiter arbiter).scoreCapture ref ref' =
      (e.scoreCapture ref ref').withArbiter arbiter := by
  unfold scoreCapture
  rw [apply_ite (fun t : GameEngine => t.withArbiter arbiter)]
  rfl

/-- The start square is left on the grid. -/
theorem leaveStart_withArbiter :
    (e.withArbiter arbiter).leaveStart m = (e.leaveStart m).withArbiter arbiter := by
  unfold leaveStart
  rw [apply_ite (fun t : GameEngine => t.withArbiter arbiter)]
  rfl

/-- Promotion changes the object of the pawn. -/
theorem promote_withArbiter :
    (e.withArbiter arbiter).promote m = (e.promote m).withArbiter arbiter := by
  unfold promote
  rw [apply_ite (fun t : GameEngine => t.withArbiter arbiter)]
  rfl

/-- A mover is shot down whatever else flies. -/
theorem capturedByJumper_withArbiter :
    (e.withArbiter arbiter).capturedByJumper m ref =
      (e.capturedByJumper m ref).withArbiter arbiter := by
  unfold capturedByJumper
  rw [← leaveStart_withArbiter, ← scoreCapture_withArbiter]
  rfl

/-- A target is taken whatever else flies. -/
theorem captureTarget_withArbiter :
    (e.withArbiter arbiter).captureTarget m ref =
      (e.captureTarget m ref).withArbiter arbiter := by
  unfold captureTarget
  rw [setStatus_withArbiter, scoreCapture_withArbiter]
  rfl

/-- The mover settles whatever else flies. -/
theorem settle_withArbiter :
    (e.withArbiter arbiter).settle m = (e.settle m).withArbiter arbiter := by
  unfold settle
  rw [setStatus_withArbiter, leaveStart_withArbiter]
  exact promote_withArbiter
    (e := { (e.setStatus m.piece .idle).leaveStart m with
      board := ((e.setStatus m.piece .idle).leaveStart m).board.setPiece m.endPos (some m.piece) })
    arbiter m

/-- **No landing looks at the motions in flight.** -/
theorem land_withArbiter :
    (e.withArbiter arbiter).land m = (e.land m).withArbiter arbiter := by
  have hpiece : ∀ ref, (e.withArbiter arbiter).piece ref = e.piece ref := fun _ => rfl
  have hgrid : (e.withArbiter arbiter).board.getPiece m.endPos = e.board.getPiece m.endPos := rfl
  unfold land
  rw [hgrid]
  simp only [hpiece]
  -- the branches of the loop body; each reads the board, which is the same
  split
  · rfl
  split
  · rfl
  cases e.board.getPiece m.endPos with
  | none => exact settle_withArbiter arbiter m
  | some target =>
    dsimp only
    split
    · exact capturedByJumper_withArbiter arbiter m target
    split
    · split
      · rfl
      · rw [← settle_withArbiter, ← captureTarget_withArbiter]
    · exact settle_withArbiter arbiter m

/-- Nor does a batch. -/
theorem foldl_land_withArbiter (batch : List Motion) :
    batch.foldl land (e.withArbiter arbiter) = (batch.foldl land e).withArbiter arbiter := by
  induction batch generalizing e with
  | nil => rfl
  | cons m batch ih => rw [List.foldl_cons, List.foldl_cons, land_withArbiter, ih]

end WithArbiter

/-! ### Two ticks in place of one -/

theorem elapse_add (a b : Int) (m : Motion) : elapse (a + b) m = elapse b (elapse a m) := by
  simp only [elapse, sub_sub]

/-- What is still active after the whole tick is what is still active after its parts. -/
theorem advanceTime_add_snd {a b : Int} (hb : 0 ≤ b) (arbiter : RealTimeArbiter) :
    (arbiter.advanceTime (a + b)).2 = ((arbiter.advanceTime a).2.advanceTime b).2 := by
  unfold advanceTime
  rw [RealTimeArbiter.mk.injEq]
  refine ⟨?_, rfl⟩
  dsimp only
  -- motion by motion: done after the first part means done after the whole
  induction arbiter.activeMotions with
  | nil => rfl
  | cons m active ih =>
    have hstep : (elapse (a + b) m).remainingTime = (elapse a m).remainingTime - b := by
      rw [elapse_add]
      rfl
    by_cases hdone : (elapse a m).remainingTime ≤ 0
    · have hdone' : (elapse (a + b) m).remainingTime ≤ 0 := by omega
      rw [List.map_cons, List.map_cons, List.filter_cons_of_neg (by simpa using hdone'),
        List.filter_cons_of_neg (by simpa using hdone), ih]
    · rw [List.map_cons, List.map_cons, List.filter_cons_of_pos (a := elapse a m)
        (by simpa using hdone), List.map_cons, List.filter_cons, List.filter_cons, ih, elapse_add]

/-- The motions the whole tick completes are those its parts complete. -/
theorem advanceTime_add_fst_perm {a b : Int} (hb : 0 ≤ b) (arbiter : RealTimeArbiter) :
    (arbiter.advanceTime (a + b)).1.Perm
      ((arbiter.advanceTime a).1.map (elapse b) ++
        ((arbiter.advanceTime a).2.advanceTime b).1) := by
  let elapsed := arbiter.activeMotions.map (elapse a)
  let isDone : Motion → Bool := fun m => decide (m.remainingTime ≤ 0)
  have hmap : arbiter.activeMotions.map (elapse (a + b)) = elapsed.map (elapse b) := by
    rw [List.map_map]
    exact List.map_congr_left fun m _ => elapse_add a b m
  -- what is done after the first part is still done after the second
  have hdone : ((elapsed.filter isDone).map (elapse b)).filter isDone =
      (elapsed.filter isDone).map (elapse b) := by
    refine List.filter_eq_self.mpr fun m' hm' => ?_
    obtain ⟨m, hm, rfl⟩ := List.mem_map.mp hm'
    have hle := of_decide_eq_true (List.mem_filter.mp hm).2
    refine decide_eq_true ?_
    change m.remainingTime - b ≤ 0
    omega
  -- what is done at the end was done after the first part, or gets done in the second
  have hsplit : ((elapsed.map (elapse b)).filter isDone).Perm
      ((elapsed.filter isDone).map (elapse b) ++
        ((elapsed.filter fun m => !isDone m).map (elapse b)).filter isDone) := by
    have hperm := ((List.filter_append_perm isDone elapsed).symm.map (elapse b)).filter isDone
    rw [List.map_append, List.filter_append, hdone] at hperm
    exact hperm
  -- sorting the parts changes nothing up to order
  have hfirst := ((Sorting.sortBy_perm (fun m : Motion => toLex (m.remainingTime, m.motionId))
    (elapsed.filter isDone)).map (elapse b)).symm
  have hsecond := (Sorting.sortBy_perm (fun m : Motion => toLex (m.remainingTime, m.motionId))
    (((elapsed.filter fun m => !isDone m).map (elapse b)).filter isDone)).symm
  refine (Sorting.sortBy_perm _ _).trans ?_
  rw [hmap]
  exact hsplit.trans (hfirst.append hsecond)

theorem batchKey_lt {m m' : Motion} (h : m.remainingTime < m'.remainingTime) :
    batchKey m < batchKey m' := Prod.Lex.toLex_lt_toLex.mpr (Or.inl h)

theorem batchKey_elapse_le_iff (b : Int) (m m' : Motion) :
    batchKey m ≤ batchKey m' ↔ batchKey (elapse b m) ≤ batchKey (elapse b m') := by
  simp [batchKey, elapse, Prod.Lex.toLex_le_toLex]

theorem motionId_eq_of_batchKey {m m' : Motion} (h : batchKey m = batchKey m') :
    m.motionId = m'.motionId := by
  simp only [batchKey, toLex_inj, Prod.mk.injEq, neg_inj, Int.natCast_inj] at h
  exact h.2.2.2

/-- The completed motions of a tick are active motions, aged. -/
theorem exists_of_mem_advanceTime {arbiter : RealTimeArbiter} {ms : Int} {m : Motion}
    (hm : m ∈ (arbiter.advanceTime ms).1) :
    m.remainingTime ≤ 0 ∧ ∃ m₀ ∈ arbiter.activeMotions, elapse ms m₀ = m := by
  obtain ⟨hmem, hdone⟩ := List.mem_filter.mp (Sorting.mem_sortBy.mp hm)
  exact ⟨of_decide_eq_true hdone, List.mem_map.mp hmem⟩

/-- **The batch of a tick is the batch of its first part, then that of its second.** -/
theorem completedMotions_add (hids : FreshIds e) {a b : Int} (hb : 0 ≤ b)
    (hrunning : e.gameOver = false) :
    e.completedMotions (a + b) =
      (e.completedMotions a).map (elapse b) ++ (e.updateGameClock a).completedMotions b := by
  have harbiter : (e.updateGameClock a).arbiter = (e.arbiter.advanceTime a).2 := by
    rw [updateGameClock, if_neg (by simp [hrunning]), arbiter_foldl_land]
    rfl
  have hperm := advanceTime_add_fst_perm (a := a) hb e.arbiter
  -- motions of one key have one number, hence are one motion
  have hkey : ∀ m ∈ (e.arbiter.advanceTime (a + b)).1,
      ∀ m' ∈ (e.arbiter.advanceTime (a + b)).1, batchKey m = batchKey m' → m = m' := by
    intro m hm m' hm' heq
    obtain ⟨-, m₀, hm₀, rfl⟩ := exists_of_mem_advanceTime hm
    obtain ⟨-, m₁, hm₁, rfl⟩ := exists_of_mem_advanceTime hm'
    have hid := motionId_eq_of_batchKey heq
    rw [hids.eq_of_motionId hm₀ hm₁ hid]
  -- the motions of the first part have less time left than those of the second
  have hfirst : ∀ m ∈ (e.arbiter.advanceTime a).1.map (elapse b), m.remainingTime ≤ -b := by
    intro m hm
    obtain ⟨m₀, hm₀, rfl⟩ := List.mem_map.mp hm
    have hle := (exists_of_mem_advanceTime hm₀).1
    change m₀.remainingTime - b ≤ -b
    omega
  have hsecond : ∀ m ∈ ((e.arbiter.advanceTime a).2.advanceTime b).1, -b < m.remainingTime := by
    intro m hm
    obtain ⟨-, m₀, hm₀, rfl⟩ := exists_of_mem_advanceTime hm
    have hactive := (List.mem_filter.mp hm₀).2
    change -b < m₀.remainingTime - b
    simp only [Bool.not_eq_true', decide_eq_false_iff_not] at hactive
    omega
  unfold completedMotions
  rw [harbiter, Sorting.sortBy_eq_of_perm hperm hkey, Sorting.sortBy_append_of_lt,
    Sorting.sortBy_map (elapse b) _ fun m _ m' _ => batchKey_elapse_le_iff b m m']
  · intro m hm m' hm'
    exact batchKey_lt ((hfirst m hm).trans_lt (hsecond m' hm'))
  · intro m hm m' hm'
    exact hkey m (hperm.mem_iff.mpr (List.mem_append_left _ hm)) m'
      (hperm.mem_iff.mpr (List.mem_append_left _ hm'))
  · intro m hm m' hm'
    exact hkey m (hperm.mem_iff.mpr (List.mem_append_right _ hm)) m'
      (hperm.mem_iff.mpr (List.mem_append_right _ hm'))

/-- No tick takes back the end of the game. -/
theorem gameOver_updateGameClock {ms : Int} (hover : e.gameOver = true) :
    (e.updateGameClock ms).gameOver = true := by
  rw [updateGameClock, if_pos hover, hover]

/-- The landings of the whole tick lead where those of its parts lead; what the first part
ends, the second does not change. -/
theorem updateGameClock_add (hids : FreshIds e) {a b : Int} (hb : 0 ≤ b)
    (hrunning : (e.updateGameClock (a + b)).gameOver = false) :
    e.updateGameClock (a + b) = (e.updateGameClock a).updateGameClock b := by
  have hbefore : e.gameOver = false := by
    by_contra hover
    rw [gameOver_updateGameClock (by simpa using hover)] at hrunning
    exact absurd hrunning (by simp)
  -- as landings, the whole tick is the first part and then the second
  have hwhole : e.updateGameClock (a + b) =
      ((e.updateGameClock a).completedMotions b).foldl land
        ((e.updateGameClock a).afterAdvance b) := by
    have hfirst : e.updateGameClock a = (e.completedMotions a).foldl land (e.afterAdvance a) := by
      rw [updateGameClock, if_neg (by simp [hbefore])]
    have hstart : e.afterAdvance (a + b) =
        (e.afterAdvance a).withArbiter ((e.arbiter.advanceTime a).2.advanceTime b).2 := by
      unfold afterAdvance withArbiter
      rw [advanceTime_add_snd hb]
    have hnext : (e.updateGameClock a).afterAdvance b = (e.updateGameClock a).withArbiter
        ((e.arbiter.advanceTime a).2.advanceTime b).2 := by
      rw [hfirst]
      unfold afterAdvance withArbiter
      rw [arbiter_foldl_land]
    calc e.updateGameClock (a + b)
        = (e.completedMotions (a + b)).foldl land (e.afterAdvance (a + b)) := by
          rw [updateGameClock, if_neg (by simp [hbefore])]
      _ = ((e.updateGameClock a).completedMotions b).foldl land
            ((e.completedMotions a).foldl land (e.afterAdvance (a + b))) := by
          rw [completedMotions_add hids hb hbefore, List.foldl_append, foldl_land_elapse]
      _ = _ := by
          rw [hstart, foldl_land_withArbiter, ← hfirst, ← hnext]
  -- so if the first part ended the game, the whole tick would have ended it too
  have hmiddle : (e.updateGameClock a).gameOver = false := by
    by_contra hover
    have hstart : ((e.updateGameClock a).afterAdvance b).gameOver = true :=
      Bool.of_not_eq_false hover
    have hend : (e.updateGameClock (a + b)).gameOver = true := by
      rw [hwhole]
      exact Run.stable (P := fun t : GameEngine => t.gameOver = true)
        (fun t m ht => (land_cases t m).gameOver_mono ht) hstart
    exact absurd (hend.symm.trans hrunning) (by simp)
  rw [hwhole, updateGameClock.eq_def (e.updateGameClock a), if_neg (by simp [hmiddle])]

end GameEngine

/-! ### Any number of ticks -/

/-- **A running game does not see how time is cut into ticks.** -/
theorem foldl_updateGameClock {e : GameEngine} (hids : FreshIds e)
    (h : FlightInv e e.arbiter.activeMotions) {l : List Int} (hne : l ≠ [])
    (hl : ∀ ms ∈ l, 0 ≤ ms) (hrunning : (e.updateGameClock l.sum).gameOver = false) :
    l.foldl updateGameClock e = e.updateGameClock l.sum := by
  induction l generalizing e with
  | nil => exact absurd rfl hne
  | cons ms l ih =>
    cases l with
    | nil => simp
    | cons ms' l =>
      -- the first tick is split off the sum of all
      have hsum : 0 ≤ (ms' :: l).sum :=
        List.sum_nonneg fun x hx => hl x (List.mem_cons_of_mem ms hx)
      rw [List.sum_cons] at hrunning ⊢
      have hadd := updateGameClock_add hids hsum hrunning
      rw [hadd] at hrunning ⊢
      rw [List.foldl_cons]
      exact ih (hids.call h (.tick ms)) (h.call (.tick ms)) (by simp)
        (fun x hx => hl x (List.mem_cons_of_mem ms hx)) hrunning

/-- **The outcome does not depend on how elapsed time is cut into ticks.** From every
state of a game on a parsed board, two non-empty lists of ticks of the same total length
lead to the same state, unless one tick of that length ends the game. -/
theorem foldl_updateGameClock_eq {boardLines : List String} {board : Board}
    (hparse : parseInitialBoard boardLines = .ok board) (calls : List Call) {l l' : List Int}
    (hne : l ≠ []) (hne' : l' ≠ []) (hl : ∀ ms ∈ l, 0 ≤ ms) (hl' : ∀ ms ∈ l', 0 ≤ ms)
    (hsum : l.sum = l'.sum)
    (hrunning : (((GameEngine.new board).play calls).updateGameClock l.sum).gameOver = false) :
    l.foldl updateGameClock ((GameEngine.new board).play calls) =
        ((GameEngine.new board).play calls).updateGameClock l.sum ∧
      l'.foldl updateGameClock ((GameEngine.new board).play calls) =
        l.foldl updateGameClock ((GameEngine.new board).play calls) := by
  have hnew : FlightInv (GameEngine.new board) [] :=
    FlightInv.new (Parsed.of_parseInitialBoard hparse)
  have hfresh : FreshIds (GameEngine.new board) :=
    ⟨List.nodup_nil, fun m hm => absurd hm List.not_mem_nil⟩
  have hids := hfresh.play hnew calls
  have h := hnew.play calls
  have hwhole := foldl_updateGameClock hids h hne hl hrunning
  -- the other list has the same sum, so it leads to the state of the same one tick
  refine ⟨hwhole, ?_⟩
  rw [hwhole, hsum]
  exact foldl_updateGameClock hids h hne' hl' (hsum ▸ hrunning)

/-- A rook under way for two seconds, watched in one tick or in three. -/
theorem foldl_updateGameClock_rook :
    [500, 0, 1500].foldl updateGameClock
        ((GameEngine.new (boardOf ["wR . . bR"])).play [.move ⟨0, 0⟩ ⟨0, 2⟩ 2000]) =
      [2000].foldl updateGameClock
        ((GameEngine.new (boardOf ["wR . . bR"])).play [.move ⟨0, 0⟩ ⟨0, 2⟩ 2000]) :=
  have hparse : parseInitialBoard ["wR . . bR"] = .ok (boardOf ["wR . . bR"]) :=
    parseInitialBoard_eq_boardOf (by decide)
  (@foldl_updateGameClock_eq _ _ hparse _ [2000] [500, 0, 1500] (by decide) (by decide)
    (by decide) (by decide) (by decide) (by decide)).2

end KungFuChess
