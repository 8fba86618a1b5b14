import KungFuChess.Library.Conservation
import KungFuChess.Engine.Controller
import KungFuChess.Engine.PawnCapture
import KungFuChess.Engine.SimultaneousArrival
import KungFuChess.Engine.StatusAgreement

/-!
# Flight times

A request that the engine accepts sets a motion going, unless the arbiter drops it at once for
coming head-on. From then on the motion is carried by the clock alone: no request, no landing and no
cut of the time into ticks makes it earlier or later. It is under way until the clock has counted
its duration, and lands exactly once, in the tick that reaches it (`fliesItsTime_play`).

No motion is lost and none is made up: the motions that have landed and those under way are
those that have been set going (`Run.conserved`, applied to motion numbers).

Where no more requests come, the game comes to rest (`comesToRest_play`): nothing is under
way, time changes nothing any more, and a piece that is still `moving` is one whose launch was
dropped.
-/

namespace KungFuChess

open GameEngine RealTimeArbiter BoardParser

namespace GameEngine

/-- The motion that a call sets going. -/
def started (e : GameEngine) (c : Call) : List Motion :=
  if e.cancelsLaunch c then [] else (e.launchOf c).toList

/-- The motions that land in a call, in landing order. -/
def landed (e : GameEngine) : Call → List Motion
  | .tick ms => if e.gameOver then [] else e.completedMotions ms
  | _ => []

/-- The time that a call counts. -/
def ticked (e : GameEngine) : Call → Int
  | .tick ms => if e.gameOver then 0 else ms
  | _ => 0

/-- The time that the calls count. -/
def clock (e : GameEngine) : List Call → Int
  | [] => 0
  | c :: calls => e.ticked c + (e.call c).clock calls

/-- Some tick of the calls brings the clock to the time `t`. -/
def DueIn (e : GameEngine) (calls : List Call) (t : Int) : Prop :=
  ∃ pre ms, pre ++ [.tick ms] <+: calls ∧ (e.play pre).gameOver = false ∧
    t ≤ e.clock (pre ++ [.tick ms])

end GameEngine

/-- The motion is carried by the clock. -/
structure FliesItsTime (e : GameEngine) (m : Motion) (calls : List Call) : Prop where
  /-- Until its time has come it is under way, with the time counted taken off. -/
  underWay : ∀ m', m'.motionId = m.motionId →
    (m' ∈ (e.play calls).arbiter.activeMotions ↔
      m' = elapse (e.clock calls) m ∧ ¬ e.DueIn calls m.remainingTime)
  /-- It lands once, -/
  lands : e.DueIn calls m.remainingTime →
    ((Run.gather call landed e calls).map Motion.motionId).count m.motionId = 1
  /-- and not before. -/
  waits : ¬ e.DueIn calls m.remainingTime →
    ((Run.gather call landed e calls).map Motion.motionId).count m.motionId = 0

/-! ### The clock -/

section Clock

variable {e : GameEngine} {c : Call} {calls : List Call} {t : Int}

theorem clock_cons : e.clock (c :: calls) = e.ticked c + (e.call c).clock calls := rfl

theorem play_cons : e.play (c :: calls) = (e.call c).play calls := rfl

theorem not_dueIn_nil : ¬ e.DueIn [] t := by
  rintro ⟨pre, ms, hpre, -⟩
  exact absurd (List.prefix_nil.mp hpre) (by simp)

/-- The time comes in the first call or in the rest. -/
theorem dueIn_cons : e.DueIn (c :: calls) t ↔
    (∃ ms, c = .tick ms ∧ e.gameOver = false ∧ t ≤ ms) ∨
      (e.call c).DueIn calls (t - e.ticked c) := by
  constructor
  · rintro ⟨pre, ms, hpre, hrunning, ht⟩
    cases pre with
    | nil =>
      -- the first call is the tick that reaches the time
      obtain ⟨rfl, -⟩ := List.cons_prefix_cons.mp hpre
      refine Or.inl ⟨ms, rfl, hrunning, ?_⟩
      have hclock : e.clock [.tick ms] = ms := by
        rw [clock_cons, ticked, if_neg (by rw [show e.gameOver = false from hrunning]; simp)]
        exact add_zero ms
      exact ht.trans_eq hclock
    | cons d pre =>
      -- the tick comes later, and what the first call has counted is taken off
      obtain ⟨rfl, hpre'⟩ := List.cons_prefix_cons.mp hpre
      refine Or.inr ⟨pre, ms, hpre', hrunning, ?_⟩
      rw [List.cons_append, clock_cons] at ht
      omega
  · rintro (⟨ms, rfl, hrunning, ht⟩ | ⟨pre, ms, hpre, hrunning, ht⟩)
    · refine ⟨[], ms, List.cons_prefix_cons.mpr ⟨rfl, List.nil_prefix⟩, hrunning, ?_⟩
      rw [List.nil_append, clock_cons, ticked, if_neg (by rw [hrunning]; simp)]
      exact ht.trans_eq (add_zero ms).symm
    · refine ⟨c :: pre, ms, List.cons_prefix_cons.mpr ⟨rfl, hpre⟩, hrunning, ?_⟩
      rw [List.cons_append, clock_cons]
      omega

end Clock

/-! ### One call -/

section OneCall

variable {e : GameEngine} {c : Call} {m : Motion}

/-- A request sets a motion going if it is accepted and its launch is not dropped. -/
theorem mem_started : m ∈ e.started c ↔ e.cancelsLaunch c = false ∧ e.launchOf c = some m := by
  unfold started
  cases e.cancelsLaunch c with
  | true => simp
  | false => simp [Option.mem_toList]

/-- **The motions of a call**: those that were under way and the one set going, aged by the
call, have landed or are under way. -/
theorem flights_call (h : FlightInv e e.arbiter.activeMotions) (c : Call) :
    (e.landed c ++ (e.call c).arbiter.activeMotions).Perm
      ((e.arbiter.activeMotions ++ e.started c).map (elapse (e.ticked c))) := by
  -- requests take no time, so motions aged by them are the same
  have haged : ∀ motions : List Motion, motions.map (elapse 0) = motions := fun motions => by
    rw [List.map_congr_left fun m _ => elapse_zero m, List.map_id']
  have hcase := call_cases h c
  generalize e.call c = e' at hcase
  cases hcase with
  -- a rejected request, or a tick after the end of the game
  | rejected hnone hover =>
    have hlanded : e.landed c = [] ∧ e.ticked c = 0 := by
      cases c with
      | tick ms => exact ⟨if_pos (hover ms rfl), if_pos (hover ms rfl)⟩
      | move | jump => exact ⟨rfl, rfl⟩
    have hstarted : e.started c = [] := by
      rw [started, hnone]
      exact ite_self []
    rw [hlanded.1, hlanded.2, hstarted, haged, List.append_nil, List.nil_append]
  -- an accepted one appends its motion to those under way
  | launched m scoreboard hlaunch hfree =>
    have hlanded : e.landed c = [] ∧ e.ticked c = 0 := by
      cases c with
      | tick ms => exact absurd hlaunch (by simp [launchOf])
      | move | jump => exact ⟨rfl, rfl⟩
    have hstarted : e.started c = [m] := by
      rw [started, if_neg (by rw [hfree]; simp), hlaunch]
      rfl
    rw [hlanded.1, hlanded.2, hstarted, haged, List.nil_append]
  -- a dropped launch leaves the list of motions as it was
  | cancelled m scoreboard hlaunch hmeets =>
    have hlanded : e.landed c = [] ∧ e.ticked c = 0 := by
      cases c with
      | tick ms => exact absurd hlaunch (by simp [launchOf])
      | move | jump => exact ⟨rfl, rfl⟩
    rw [hlanded.1, hlanded.2, started, if_pos hmeets, haged, List.append_nil, List.nil_append]
  -- a tick lets all motions age, and sorts them into those that land and those that fly on
  | ticked ms hcall hrunning =>
    subst hcall
    have hcounts : e.landed (.tick ms) = e.completedMotions ms ∧ e.ticked (.tick ms) = ms := by
      have hnot : ¬ e.gameOver = true := by rw [hrunning]; simp
      exact ⟨if_neg hnot, if_neg hnot⟩
    have hstarted : e.started (.tick ms) = [] := ite_self []
    rw [hcounts.1, hcounts.2, hstarted, List.append_nil, arbiter_foldl_land]
    exact FlightInv.completed_append_perm e ms

/-- The counter never goes down, and is the number of the motion that is set going. -/
theorem motionCounter_call (h : FlightInv e e.arbiter.activeMotions) (c : Call) :
    e.arbiter.motionCounter ≤ (e.call c).arbiter.motionCounter := by
  have hcase := call_cases h c
  generalize e.call c = e' at hcase
  cases hcase with
  | rejected => exact le_rfl
  | launched | cancelled => exact Nat.le_succ _
  | ticked ms => rw [arbiter_foldl_land]; exact le_rfl

/-- Under way after the call are motions with time left, if the call is a tick. -/
theorem remainingTime_call {ms : Int} (hrunning : e.gameOver = false)
    (hm : m ∈ (e.call (.tick ms)).arbiter.activeMotions) : 0 < m.remainingTime := by
  change m ∈ (e.updateGameClock ms).arbiter.activeMotions at hm
  rw [updateGameClock, if_neg (by rw [hrunning]; simp), arbiter_foldl_land] at hm
  have hkept := (List.mem_filter.mp hm).2
  simpa using hkept

/-- What lands has no time left. -/
theorem remainingTime_landed (hm : m ∈ e.landed c) : m.remainingTime ≤ 0 := by
  cases c with
  | move | jump => exact absurd hm List.not_mem_nil
  | tick ms =>
    change m ∈ (if e.gameOver = true then [] else e.completedMotions ms) at hm
    split at hm
    · exact absurd hm List.not_mem_nil
    · exact (exists_of_mem_advanceTime (Sorting.mem_sortBy.mp hm)).1

/-- What lands in a call lands in a tick of the running game. -/
theorem exists_tick_of_landed (hm : m ∈ e.landed c) : ∃ ms, c = .tick ms ∧ e.gameOver = false := by
  cases c with
  | move | jump => exact absurd hm List.not_mem_nil
  | tick ms =>
    change m ∈ (if e.gameOver = true then [] else e.completedMotions ms) at hm
    split at hm
    · exact absurd hm List.not_mem_nil
    · next hrunning => exact ⟨ms, rfl, Bool.eq_false_iff.mpr hrunning⟩

/-- A motion under way is, after a call, where its time left says. -/
theorem elapse_mem_call (h : FlightInv e e.arbiter.activeMotions)
    (hm : m ∈ e.arbiter.activeMotions) (c : Call) :
    elapse (e.ticked c) m ∈ e.landed c ∨
      elapse (e.ticked c) m ∈ (e.call c).arbiter.activeMotions := by
  refine List.mem_append.mp ((flights_call h c).mem_iff.mpr ?_)
  exact List.mem_map_of_mem (List.mem_append_left _ hm)

end OneCall

/-! ### Whole games -/

section Runs

variable {e : GameEngine} {m : Motion}

/-- The motions under way, as the invariants of a game have it. -/
structure Numbered (e : GameEngine) : Prop where
  ids : FreshIds e
  flights : FlightInv e e.arbiter.activeMotions

theorem Numbered.call (h : Numbered e) (c : Call) : Numbered (e.call c) :=
  ⟨h.ids.call h.flights c, h.flights.call c⟩

theorem Numbered.play (h : Numbered e) (calls : List Call) : Numbered (e.play calls) :=
  ⟨h.ids.play h.flights calls, h.flights.play calls⟩

theorem Numbered.new {board : Board} (h : Parsed board) : Numbered (GameEngine.new board) :=
  ⟨⟨List.nodup_nil, fun _ hm => absurd hm List.not_mem_nil⟩, FlightInv.new h⟩

/-- **No motion is lost and none is made up.** -/
theorem flights_accounted (h : Numbered e) (calls : List Call) :
    ((Run.gather call landed e calls ++ (e.play calls).arbiter.activeMotions).map
        Motion.motionId).Perm
      ((e.arbiter.activeMotions ++ Run.gather call started e calls).map Motion.motionId) := by
  let ids : GameEngine → List Nat := fun t => t.arbiter.activeMotions.map Motion.motionId
  have hstep : ∀ t c, Numbered t → ((t.landed c).map Motion.motionId ++ ids (t.call c)).Perm
      (ids t ++ (t.started c).map Motion.motionId) := by
    intro t c ht
    have hflights := (flights_call ht.flights c).map Motion.motionId
    rw [List.map_map, List.map_append] at hflights
    refine hflights.trans ?_
    -- the numbers do not age
    change ((t.arbiter.activeMotions ++ t.started c).map Motion.motionId).Perm _
    rw [List.map_append]
  rw [List.map_append, List.map_append, Run.map_gather, Run.map_gather]
  exact Run.conserved (fun _ c ht => ht.call c) hstep h calls

/-- The motions set going in a run have numbers above the counter. -/
theorem lt_motionId_of_started (h : Numbered e) {calls : List Call}
    (hm : m ∈ Run.gather call started e calls) : e.arbiter.motionCounter < m.motionId := by
  induction calls generalizing e with
  | nil => exact absurd hm List.not_mem_nil
  | cons c calls ih =>
    obtain hm | hm := List.mem_append.mp hm
    · rw [(launchOf_eq_some (mem_started.mp hm).2).2.1]
      exact Nat.lt_succ_self _
    · exact (motionCounter_call h.flights c).trans_lt (ih (h.call c) hm)

/-- A number that is not under way any more does not come back. -/
theorem motionId_ne_of_gone (h : Numbered e) {id : Nat} (hid : id ≤ e.arbiter.motionCounter)
    (hgone : ∀ m ∈ e.arbiter.activeMotions, m.motionId ≠ id) (calls : List Call) :
    ∀ m ∈ (e.play calls).arbiter.activeMotions, m.motionId ≠ id := by
  intro m hm heq
  -- whatever flies then was under way at first or has been set going since
  have hmem : m.motionId ∈
      (e.arbiter.activeMotions ++ Run.gather call started e calls).map Motion.motionId :=
    (flights_accounted h calls).mem_iff.mp
      (List.mem_map_of_mem (List.mem_append_right _ hm))
  obtain ⟨m', hm', heq'⟩ := List.mem_map.mp hmem
  obtain hm' | hm' := List.mem_append.mp hm'
  · exact hgone m' hm' (heq'.trans heq)
  · have hlt := lt_motionId_of_started h hm'
    omega

/-- **Where a motion is after the calls.** -/
theorem mem_activeMotions_play (h : Numbered e) (hm : m ∈ e.arbiter.activeMotions)
    (calls : List Call) {m' : Motion} (hid : m'.motionId = m.motionId) :
    m' ∈ (e.play calls).arbiter.activeMotions ↔
      m' = elapse (e.clock calls) m ∧ ¬ e.DueIn calls m.remainingTime := by
  induction calls generalizing e m with
  | nil =>
    rw [show e.clock [] = 0 from rfl, elapse_zero, and_iff_left not_dueIn_nil]
    -- the number tells the motion
    refine ⟨fun hm' => h.ids.eq_of_motionId hm' hm hid, ?_⟩
    rintro rfl
    exact hm
  | cons c calls ih =>
    rw [play_cons, clock_cons, dueIn_cons, elapse_add]
    obtain hdue | hdue := em (∃ ms, c = .tick ms ∧ e.gameOver = false ∧ m.remainingTime ≤ ms)
    · -- it lands in this call, and its number does not come back
      refine iff_of_false ?_ fun hright => hright.2 (Or.inl hdue)
      obtain ⟨ms, rfl, hrunning, hms⟩ := hdue
      -- whatever is left has time left, and the motion has none
      have hgone : ∀ m₁ ∈ (e.call (.tick ms)).arbiter.activeMotions, m₁.motionId ≠ m.motionId := by
        intro m₁ hm₁ heq
        have hleft := remainingTime_call hrunning hm₁
        have hold : m₁ ∈ (e.arbiter.activeMotions ++ e.started (.tick ms)).map
            (elapse (e.ticked (.tick ms))) :=
          (flights_call h.flights _).mem_iff.mp (List.mem_append_right _ hm₁)
        rw [show e.started (.tick ms) = [] from ite_self [], List.append_nil, ticked,
          if_neg (by rw [hrunning]; simp)] at hold
        obtain ⟨m₂, hm₂, rfl⟩ := List.mem_map.mp hold
        obtain rfl := h.ids.eq_of_motionId hm₂ hm heq
        change 0 < m₂.remainingTime - ms at hleft
        omega
      have hcounted := (h.ids.counted m hm).trans (motionCounter_call h.flights (.tick ms))
      exact fun hm' => motionId_ne_of_gone (h.call _) hcounted hgone calls m' hm' hid
    · -- it does not, and goes on with less time left
      have hactive : elapse (e.ticked c) m ∈ (e.call c).arbiter.activeMotions := by
        refine (elapse_mem_call h.flights hm c).resolve_left fun hlanded => hdue ?_
        obtain ⟨ms, rfl, hrunning⟩ := exists_tick_of_landed hlanded
        have hdone := remainingTime_landed hlanded
        rw [ticked, if_neg (by rw [hrunning]; simp)] at hdone
        change m.remainingTime - ms ≤ 0 at hdone
        exact ⟨ms, rfl, hrunning, by omega⟩
      rw [or_iff_right hdue]
      exact ih (h.call c) hactive hid

/-- **A motion under way flies its time.** -/
theorem fliesItsTime_of_mem (h : Numbered e) (hm : m ∈ e.arbiter.activeMotions)
    (calls : List Call) : FliesItsTime e m calls := by
  have hunderWay : ∀ m', m'.motionId = m.motionId → (m' ∈ (e.play calls).arbiter.activeMotions ↔
      m' = elapse (e.clock calls) m ∧ ¬ e.DueIn calls m.remainingTime) :=
    fun _ hid => mem_activeMotions_play h hm calls hid
  -- the number is given once: it has landed or is under way
  have hcount : ((Run.gather call landed e calls).map Motion.motionId).count m.motionId +
      ((e.play calls).arbiter.activeMotions.map Motion.motionId).count m.motionId = 1 := by
    have hperm := (flights_accounted h calls).count_eq m.motionId
    rw [List.map_append, List.map_append, List.count_append, List.count_append] at hperm
    rw [hperm, List.count_eq_one_of_mem h.ids.distinct (List.mem_map_of_mem hm),
      List.count_eq_zero_of_not_mem]
    intro hmem
    obtain ⟨m', hm', heq⟩ := List.mem_map.mp hmem
    have hlt := lt_motionId_of_started h hm'
    have hle := h.ids.counted m hm
    omega
  have hids := (h.play calls).ids.distinct
  refine ⟨hunderWay, fun hdue => ?_, fun hnot => ?_⟩
  · have hzero : ((e.play calls).arbiter.activeMotions.map Motion.motionId).count m.motionId = 0 := by
      refine List.count_eq_zero_of_not_mem fun hmem => ?_
      obtain ⟨m', hm', heq⟩ := List.mem_map.mp hmem
      exact ((hunderWay m' heq).mp hm').2 hdue
    omega
  · have hone := List.count_eq_one_of_mem hids
      (List.mem_map_of_mem ((hunderWay (elapse (e.clock calls) m) rfl).mpr ⟨rfl, hnot⟩))
    have hone' : ((e.play calls).arbiter.activeMotions.map Motion.motionId).count m.motionId = 1 :=
      hone
    omega

end Runs

/-- **Every motion flies its time.** In any game, a request that is accepted, and not dropped for
coming head-on, launches a motion that is under way until the clock has counted its duration,
and then lands, once. -/
theorem fliesItsTime_play {board : Board} (h : Parsed board) (pre : List Call) {c : Call}
    (haccepts : ((GameEngine.new board).play pre).accepts c = true)
    (hfree : ((GameEngine.new board).play pre).cancelsLaunch c = false) (post : List Call) :
    ∃ m, ((GameEngine.new board).play pre).launchOf c = some m ∧
      m.remainingTime = m.originalDuration ∧
      FliesItsTime ((GameEngine.new board).play (pre ++ [c])) m post := by
  -- the request was accepted, so there is a motion that it would launch
  rw [← isSome_launchOf] at haccepts
  obtain ⟨m, hlaunch⟩ := Option.isSome_iff_exists.mp haccepts
  have hpre := (Numbered.new h).play pre
  have hage := age_of_launchOf hlaunch
  refine ⟨m, hlaunch, ?_, ?_⟩
  · unfold Motion.age at hage
    omega
  rw [play_snoc]
  refine fliesItsTime_of_mem (hpre.call c) ?_ post
  -- it is in the list afterwards, as the launch has not been dropped
  have hcase := call_cases hpre.flights c
  generalize ((GameEngine.new board).play pre).call c = e' at hcase
  cases hcase with
  | rejected hnone => exact absurd (hnone.symm.trans hlaunch) (by simp)
  | launched m' scoreboard hlaunch' =>
    obtain rfl := Option.some.inj (hlaunch.symm.trans hlaunch')
    exact List.mem_append_right _ (List.mem_singleton.mpr rfl)
  | cancelled m' scoreboard hlaunch' hmeets => exact absurd (hmeets.symm.trans hfree) (by simp)
  | ticked ms hcall =>
    rw [hcall] at hlaunch
    exact absurd hlaunch (by simp [launchOf])

/-- A rook goes two squares in two seconds, while the king jumps. -/
theorem fliesItsTime_play_rook :
    ∃ m, ((GameEngine.new (boardOf ["wR . .", ". . bK"])).play [.tick 5]).launchOf
        (.move ⟨0, 0⟩ ⟨0, 2⟩ 2000) = some m ∧ m.remainingTime = m.originalDuration ∧
      FliesItsTime ((GameEngine.new (boardOf ["wR . .", ". . bK"])).play
        ([.tick 5] ++ [.move ⟨0, 0⟩ ⟨0, 2⟩ 2000])) m [.tick 1500, .jump ⟨1, 2⟩, .tick 700] := by
  have hparse : parseInitialBoard ["wR . .", ". . bK"] = .ok (boardOf ["wR . .", ". . bK"]) :=
    parseInitialBoard_eq_boardOf (by decide)
  exact fliesItsTime_play (Parsed.of_parseInitialBoard hparse) [.tick 5] (by decide) (by decide) _

/-! ### Rest -/

/-- A launch of the piece has been dropped for coming head-on. -/
def GameEngine.DroppedIn (e : GameEngine) (calls : List Call) (ref : PieceRef) : Prop :=
  ∃ pre c post m, calls = pre ++ c :: post ∧ (e.play pre).cancelsLaunch c = true ∧
    (e.play pre).launchOf c = some m ∧ m.piece = ref

/-- Time changes nothing any more. -/
structure AtRest (e : GameEngine) (dropped : PieceRef → Prop) : Prop where
  timeless : ∀ ms, e.call (.tick ms) = e
  /-- Unless the game is over, nothing is under way. -/
  grounded : e.gameOver = false → e.arbiter.activeMotions = []
  jumping : e.gameOver = false → ∀ ref, (e.piece ref).status ≠ .jumping
  moving : e.gameOver = false → ∀ ref, (e.piece ref).status = .moving → dropped ref

/-- Every `moving` piece is carried by a motion, except for some. -/
def CarriedExcept (dropped : PieceRef → Prop) (e : GameEngine) (flights : List Motion) : Prop :=
  ∀ ref, (e.piece ref).status = .moving →
    (∃ m ∈ flights, m.isJump = false ∧ m.piece = ref) ∨ dropped ref

section Rest

variable {e : GameEngine}

/-- A launch that was dropped in some calls was dropped in more. -/
theorem GameEngine.DroppedIn.snoc {calls : List Call} {ref : PieceRef}
    (h : e.DroppedIn calls ref) (c : Call) :
    e.DroppedIn (calls ++ [c]) ref := by
  obtain ⟨pre, c', post, m, rfl, hcancels, hlaunch, hpiece⟩ := h
  exact ⟨pre, c', post ++ [c], m, by rw [List.append_assoc, List.cons_append], hcancels, hlaunch,
    hpiece⟩

/-- A landing keeps the other `moving` pieces carried. -/
theorem Landing.carriedExcept {dropped : PieceRef → Prop} {e' : GameEngine} {m : Motion}
    {rest : List Motion} (hland : Landing e m e') (h : FlightInv e (m :: rest))
    (hcarried : CarriedExcept dropped e (m :: rest)) : CarriedExcept dropped e' rest := by
  intro ref hmoving
  obtain ⟨hne, hbefore⟩ := hland.status_moving (h.status_ne_captured List.mem_cons_self) hmoving
  obtain ⟨m', hm', hflight, hpiece⟩ | hdropped := hcarried ref hbefore
  · obtain rfl | hm' := List.mem_cons.mp hm'
    · exact absurd hpiece.symm hne
    · exact Or.inl ⟨m', hm', hflight, hpiece⟩
  · exact Or.inr hdropped

/-- **In every state of a game, a `moving` piece is carried or has been dropped.** -/
theorem carriedExcept_play {board : Board} (h : Parsed board) (calls : List Call) :
    CarriedExcept ((GameEngine.new board).DroppedIn calls) ((GameEngine.new board).play calls)
      ((GameEngine.new board).play calls).arbiter.activeMotions := by
  refine @Run.history Call (fun calls => CarriedExcept ((GameEngine.new board).DroppedIn calls)
    ((GameEngine.new board).play calls) ((GameEngine.new board).play calls).arbiter.activeMotions)
    (fun _ _ => True) ?_ ?_ calls fun _ _ _ _ => trivial
  · -- on the board of the start everything is idle
    intro ref hmoving
    exact absurd ((h.idle ref).symm.trans hmoving) (by simp)
  intro pre c ih _ ref hmoving
  rw [play_snoc] at hmoving ⊢
  have hflights := (FlightInv.new h).play pre
  have hcase := call_cases hflights c
  generalize hafter : ((GameEngine.new board).play pre).call c = e' at hcase hmoving ⊢
  cases hcase with
  | rejected => exact (ih ref hmoving).imp_right fun hdropped => hdropped.snoc c
  | launched m scoreboard hlaunch =>
    have hstatus := (status_setStatus _ _ _ _).symm.trans hmoving
    split at hstatus
    · next heq =>
      -- the launched piece is carried by the new motion, which is no jump
      refine Or.inl ⟨m, List.mem_append_right _ (List.mem_singleton.mpr rfl), ?_, heq.symm⟩
      by_contra hjump
      rw [Motion.status, if_pos (by simpa using hjump)] at hstatus
      exact absurd hstatus (by simp)
    · obtain ⟨m', hm', hflight, hpiece⟩ | hdropped := ih ref hstatus
      · exact Or.inl ⟨m', List.mem_append_left _ hm', hflight, hpiece⟩
      · exact Or.inr (hdropped.snoc c)
  -- this is the launch that leaves a piece `moving` without a motion
  | cancelled m scoreboard hlaunch hmeets =>
    have hstatus := (status_setStatus _ _ _ _).symm.trans hmoving
    split at hstatus
    · next heq => exact Or.inr ⟨pre, c, [], m, rfl, hmeets, hlaunch, heq.symm⟩
    · exact (ih ref hstatus).imp_right fun hdropped => hdropped.snoc c
  | ticked ms =>
    rw [arbiter_foldl_land] at ⊢
    generalize (GameEngine.new board).play pre = t at hflights ih hmoving hafter ⊢
    -- the batch and the motions left over carry what was carried before the tick
    have hstart : CarriedExcept ((GameEngine.new board).DroppedIn (pre ++ [c])) (t.afterAdvance ms)
        (t.completedMotions ms ++ (t.afterAdvance ms).arbiter.activeMotions) := by
      intro ref hmoving
      obtain ⟨m, hm, hflight, hpiece⟩ | hdropped := ih ref hmoving
      · have hmem := List.mem_map_of_mem (f := elapse ms) hm
        exact Or.inl ⟨_, (FlightInv.completed_append_perm t ms).mem_iff.mpr hmem, hflight, hpiece⟩
      · exact Or.inr (hdropped.snoc c)
    have hend := Run.invariant
      (P := fun t' rest => FlightInv t' (rest ++ (t.afterAdvance ms).arbiter.activeMotions) ∧
        CarriedExcept ((GameEngine.new board).DroppedIn (pre ++ [c])) t'
          (rest ++ (t.afterAdvance ms).arbiter.activeMotions))
      (fun t' m rest ht =>
        ⟨(land_cases t' m).flightInv ht.1, (land_cases t' m).carriedExcept ht.1 ht.2⟩)
      ⟨hflights.afterAdvance ms, hstart⟩
    exact hend.2 ref hmoving

/-- As long as the game runs, the clock counts every tick. -/
theorem clock_ticks {ticks : List Int} (hrunning : (e.play (ticks.map .tick)).gameOver = false) :
    e.clock (ticks.map .tick) = ticks.sum := by
  induction ticks generalizing e with
  | nil => rfl
  | cons ms ticks ih =>
    have hnow : e.gameOver = false := by
      by_contra hover
      rw [play_of_gameOver (by simpa using hover)] at hrunning
      exact hover hrunning
    rw [List.map_cons, clock_cons, List.sum_cons, ih hrunning, ticked, if_neg (by rw [hnow]; simp)]

/-- The last of some ticks brings the clock to their sum. -/
theorem dueIn_ticks {ticks : List Int} (hne : ticks ≠ [])
    (hrunning : (e.play (ticks.map .tick)).gameOver = false) {t : Int} (ht : t ≤ ticks.sum) :
    e.DueIn (ticks.map .tick) t := by
  obtain ⟨init, ms, rfl⟩ := List.eq_nil_or_concat ticks |>.resolve_left hne
  rw [List.concat_eq_append] at ht hrunning ⊢
  have hclock := clock_ticks hrunning
  rw [List.map_append, List.map_singleton] at hrunning hclock ⊢
  refine ⟨init.map .tick, ms, List.prefix_rfl, ?_, ht.trans_eq hclock.symm⟩
  by_contra hover
  rw [play_snoc, call_of_gameOver (by simpa using hover)] at hrunning
  exact hover hrunning

/-- With nothing under way, time changes nothing. -/
theorem call_tick_of_grounded (h : e.arbiter.activeMotions = []) (ms : Int) :
    e.call (.tick ms) = e := by
  change e.updateGameClock ms = e
  -- nothing is due, and nothing is left over
  have hbatch : e.completedMotions ms = [] := by
    unfold completedMotions advanceTime
    rw [h]
    rfl
  have hafter : e.afterAdvance ms = e := by
    unfold afterAdvance advanceTime
    rw [h]
    obtain ⟨board, ⟨active, counter⟩, scoreboard, gameOver, winner⟩ := e
    obtain rfl : active = [] := h
    rfl
  unfold updateGameClock
  rw [hbatch, hafter]
  exact ite_self e

end Rest

/-- **A game that is left alone comes to rest**: after ticks that add up to the time of every
motion under way, nothing is, time changes nothing any more, and the pieces left `moving` are
those whose launch has been dropped. -/
theorem comesToRest_play {board : Board} (h : Parsed board) (calls : List Call) {ticks : List Int}
    (hne : ticks ≠ []) (htime : ∀ m ∈ ((GameEngine.new board).play calls).arbiter.activeMotions,
      m.remainingTime ≤ ticks.sum) :
    AtRest ((GameEngine.new board).play (calls ++ ticks.map .tick))
      ((GameEngine.new board).DroppedIn (calls ++ ticks.map .tick)) := by
  have hcarried := carriedExcept_play h (calls ++ ticks.map .tick)
  have hflights := (FlightInv.new h).play (calls ++ ticks.map .tick)
  have hnumbered := (Numbered.new h).play calls
  -- the game with the ticks is the game before them, ticked
  have hplay : (GameEngine.new board).play (calls ++ ticks.map .tick) =
      ((GameEngine.new board).play calls).play (ticks.map .tick) := List.foldl_append
  generalize hend : (GameEngine.new board).play (calls ++ ticks.map .tick) = e at *
  have hgrounded : e.gameOver = false → e.arbiter.activeMotions = [] := by
    intro hrunning
    subst hplay
    rw [List.eq_nil_iff_forall_not_mem]
    intro m hm
    -- no request has been made, so it was under way before
    have hold : m.motionId ∈ (((GameEngine.new board).play calls).arbiter.activeMotions ++
        Run.gather call started ((GameEngine.new board).play calls) (ticks.map .tick)).map
          Motion.motionId :=
      (flights_accounted hnumbered (ticks.map .tick)).mem_iff.mp
        (List.mem_map_of_mem (List.mem_append_right _ hm))
    obtain ⟨m', hm', hid⟩ := List.mem_map.mp hold
    obtain hm' | hm' := List.mem_append.mp hm'
    · have hdue := dueIn_ticks hne hrunning (htime m' hm')
      exact ((mem_activeMotions_play hnumbered hm' _ hid.symm).mp hm).2 hdue
    · obtain ⟨pre, c, post, hsplit, hm'⟩ := Run.mem_gather.mp hm'
      have hc : c ∈ ticks.map Call.tick := by
        rw [hsplit]
        exact List.mem_append_right _ List.mem_cons_self
      obtain ⟨ms, -, rfl⟩ := List.mem_map.mp hc
      exact absurd (mem_started.mp hm').2 (by simp [launchOf])
  refine ⟨fun ms => ?_, hgrounded, fun hrunning ref hjumping => ?_, fun hrunning ref hmoving => ?_⟩
  · cases hover : e.gameOver with
    | true => exact call_of_gameOver hover _
    | false => exact call_tick_of_grounded (hgrounded hover) ms
  · -- what jumps is carried, and nothing is
    obtain ⟨m, hm, -⟩ := hflights.jumps ref hjumping
    rw [hgrounded hrunning] at hm
    exact List.not_mem_nil hm
  · obtain ⟨m, hm, -⟩ | hdropped := hcarried ref hmoving
    · rw [hgrounded hrunning] at hm
      exact absurd hm List.not_mem_nil
    · exact hdropped

/-- Two rooks head on: the first arrives, the second is left `moving`. -/
theorem comesToRest_play_headOn :
    AtRest ((GameEngine.new (boardOf ["wR . . bR"])).play
        ([.move ⟨0, 0⟩ ⟨0, 2⟩ 2000, .move ⟨0, 3⟩ ⟨0, 1⟩ 2000] ++ [1000, 1000].map .tick))
      ((GameEngine.new (boardOf ["wR . . bR"])).DroppedIn
        ([.move ⟨0, 0⟩ ⟨0, 2⟩ 2000, .move ⟨0, 3⟩ ⟨0, 1⟩ 2000] ++ [1000, 1000].map .tick)) := by
  have hparse : parseInitialBoard ["wR . . bR"] = .ok (boardOf ["wR . . bR"]) :=
    parseInitialBoard_eq_boardOf (by decide)
  exact comesToRest_play (Parsed.of_parseInitialBoard hparse) _ (by decide) (by decide)

end KungFuChess
