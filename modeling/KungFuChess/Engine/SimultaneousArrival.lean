import KungFuChess.Engine.TickSplit

/-!
# Simultaneous arrivals

Motions with one end square and the same time left land in the order of their original
durations, and in the reverse order of their launches where these are equal; each lands on top
of the one before, or is held up by it if they are friends. The piece of the last one decides
the colour of the square.

That the last one is the one launched first is a property of the clock: what was launched
earlier has been under way for at least as long (`AgesInOrder`), so with the same time left
it was given at least as long. This needs a clock that does not go backwards; the engine takes
whatever time its caller passes, and after a negative one the later launch may win
(`not_takenBy_first_backwards`).

Along the batch two facts carry the proof: before the landing of the first launch no piece on
the square is jumping, and after it an idle piece of its colour stays there
(`Landing.held`), because what lands later ends elsewhere.
-/

namespace KungFuChess

open GameEngine BoardParser RealTimeArbiter

/-! ### Age and number -/

/-- How long a motion has been under way. -/
def Motion.age (m : Motion) : Int := m.originalDuration - m.remainingTime

/-- The active motions were launched in the order of their numbers, and none has yet to be. -/
structure AgesInOrder (e : GameEngine) : Prop where
  started : ∀ m ∈ e.arbiter.activeMotions, 0 ≤ m.age
  ordered : ∀ m ∈ e.arbiter.activeMotions, ∀ m' ∈ e.arbiter.activeMotions,
    m.motionId < m'.motionId → m'.age ≤ m.age

/-- The clock does not go backwards in the call. -/
def Call.Forward : Call → Prop
  | .tick ms => 0 ≤ ms
  | _ => True

/-- Whether time goes forward in a call can be computed. -/
instance (c : Call) : Decidable c.Forward := by
  unfold Call.Forward
  split <;> infer_instance

/-- A motion is new when it is launched. -/
theorem age_of_launchOf {e : GameEngine} {c : Call} {m : Motion} (h : e.launchOf c = some m) :
    m.age = 0 := by
  cases c with
  | move startPos endPos durationMs =>
    obtain ⟨ref, -, h⟩ := Option.bind_eq_some_iff.mp h
    split at h
    · obtain rfl := Option.some.inj h
      exact sub_self durationMs
    · exact absurd h (by simp)
  | jump position =>
    obtain ⟨ref, -, rfl⟩ := Option.map_eq_some_iff.mp h
    exact sub_self (1000 : Int)
  | tick ms => exact absurd h (by simp [launchOf])

theorem age_elapse (ms : Int) (m : Motion) : (elapse ms m).age = m.age + ms := by
  simp only [Motion.age, elapse]
  omega

namespace AgesInOrder

variable {e : GameEngine}

theorem new (board : Board) : AgesInOrder (GameEngine.new board) :=
  ⟨fun _ hm => absurd hm List.not_mem_nil, fun _ hm => absurd hm List.not_mem_nil⟩

/-- **Every call that goes forward keeps the order**: what is new is younger than all the rest. -/
theorem call (hages : AgesInOrder e) (hids : FreshIds e) (h : FlightInv e e.arbiter.activeMotions)
    {c : Call} (hforward : c.Forward) : AgesInOrder (e.call c) := by
  have hcase := call_cases h c
  generalize e.call c = e' at hcase
  cases hcase with
  | rejected => exact hages
  | launched m scoreboard hlaunch =>
    -- the new motion has the largest number and has not yet moved
    have hid := (launchOf_eq_some hlaunch).2.1
    have hage := age_of_launchOf hlaunch
    refine ⟨fun m' hm' => ?_, fun m₁ hm₁ m₂ hm₂ hlt => ?_⟩
    · obtain hm' | hm' := List.mem_append.mp hm'
      · exact hages.started m' hm'
      · rw [List.mem_singleton.mp hm', hage]
    · obtain hm₁ | hm₁ := List.mem_append.mp hm₁ <;> obtain hm₂ | hm₂ := List.mem_append.mp hm₂
      · exact hages.ordered m₁ hm₁ m₂ hm₂ hlt
      · rw [List.mem_singleton.mp hm₂, hage]
        exact hages.started m₁ hm₁
      · have hle := hids.counted m₂ hm₂
        rw [List.mem_singleton.mp hm₁, hid] at hlt
        omega
      · rw [List.mem_singleton.mp hm₁, List.mem_singleton.mp hm₂] at hlt
        exact absurd hlt (lt_irrefl _)
  | cancelled => exact ⟨hages.started, hages.ordered⟩
  | ticked ms hcall =>
    -- all of them get older by as much
    have hms : 0 ≤ ms := by
      rw [hcall] at hforward
      exact hforward
    have hactive : ∀ m,
        m ∈ ((e.completedMotions ms).foldl land (e.afterAdvance ms)).arbiter.activeMotions →
        ∃ m₀ ∈ e.arbiter.activeMotions, elapse ms m₀ = m := by
      intro m hm
      rw [arbiter_foldl_land] at hm
      exact List.mem_map.mp (List.mem_filter.mp hm).1
    refine ⟨fun m hm => ?_, fun m₁ hm₁ m₂ hm₂ hlt => ?_⟩
    · obtain ⟨m₀, hm₀, rfl⟩ := hactive m hm
      have hstarted := hages.started m₀ hm₀
      rw [age_elapse]
      omega
    · obtain ⟨m₁, hactive₁, rfl⟩ := hactive m₁ hm₁
      obtain ⟨m₂, hactive₂, rfl⟩ := hactive m₂ hm₂
      have hle := hages.ordered m₁ hactive₁ m₂ hactive₂ hlt
      rw [age_elapse, age_elapse]
      omega

/-- **In a game whose clock does not go backwards, the older motion has the smaller number.** -/
theorem play (hages : AgesInOrder e) (hids : FreshIds e) (h : FlightInv e e.arbiter.activeMotions)
    {calls : List Call} (hforward : ∀ c ∈ calls, c.Forward) : AgesInOrder (e.play calls) := by
  induction calls generalizing e with
  | nil => exact hages
  | cons c calls ih =>
    exact ih (hages.call hids h (hforward c List.mem_cons_self)) (hids.call h c) (h.call c)
      fun c' hc' => hforward c' (List.mem_cons_of_mem c hc')

end AgesInOrder

/-! ### Landings around one square -/

/-- No piece on the square is jumping. -/
def NoJumperAt (e : GameEngine) (p : Position) : Prop :=
  ∀ ref, e.board.getPiece p = some ref → (e.piece ref).status ≠ .jumping

/-- An idle piece of the colour stands on the square. -/
def Held (e : GameEngine) (p : Position) (color : Color) : Prop :=
  ∃ ref, e.board.getPiece p = some ref ∧ (e.piece ref).status = .idle ∧ (e.piece ref).color = color

section Square

variable {e e' : GameEngine} {m : Motion} {rest : List Motion} {p : Position} {color : Color}

/-- Setting another status to idle does not free the square. -/
theorem Held.setStatus {ref : PieceRef} (h : Held e p color) :
    Held (e.setStatus ref .idle) p color := by
  obtain ⟨ref', hp, hidle, hcolor⟩ := h
  refine ⟨ref', hp, ?_, (piece_setStatus_color _ _ _ _).trans hcolor⟩
  rw [status_setStatus]
  split
  · rfl
  · exact hidle

theorem held_settle : Held (e.settle m) m.endPos (e.piece m.piece).color := by
  refine ⟨m.piece, ?_, ?_, color_settle _ _ _⟩
  · rw [getPiece_settle, if_pos rfl]
  · rw [status_settle, if_pos rfl]

/-- A landing on a square with no jumping piece leaves an idle piece of the mover's colour. -/
theorem Landing.takesSquare (hland : Landing e m e') (h : FlightInv e (m :: rest))
    (hflight : m.isJump = false) (hfree : NoJumperAt e m.endPos) :
    Held e' m.endPos (e.piece m.piece).color := by
  cases hland with
  | skipped hcaptured => exact absurd hcaptured (h.status_ne_captured List.mem_cons_self)
  | jumpEnds _ hjump => exact absurd (hjump.symm.trans hflight) (by simp)
  | shotDown jumper _ _ hend hjumping => exact absurd hjumping (hfree jumper hend)
  | blocked friend _ _ hend hidle hfriend => exact Held.setStatus ⟨friend, hend, hidle, hfriend⟩
  | takes target =>
    have hheld := held_settle (e := e.captureTarget m target) (m := m)
    rwa [color_captureTarget] at hheld
  | settles => exact held_settle

/-- A landing elsewhere leaves an idle piece where it is. -/
theorem Landing.held (hland : Landing e m e') (h : FlightInv e (m :: rest))
    (hother : m.isJump = false → m.endPos ≠ p) (hheld : Held e p color) : Held e' p color := by
  obtain ⟨ref, hp, hidle, hcolor⟩ := hheld
  have hne : ref ≠ m.piece := fun heq =>
    h.status_ne_idle List.mem_cons_self (heq ▸ hidle)
  -- the mover's start is not the square: another piece stands there
  have hstart : ¬ (p = m.startPos ∧ e.board.getPiece m.startPos = some m.piece) := by
    rintro ⟨rfl, hmover⟩
    exact hne (Option.some.inj (hp.symm.trans hmover))
  have hsettle : ∀ {t : GameEngine}, m.endPos ≠ p → t.board.getPiece p = some ref →
      ¬ (p = m.startPos ∧ t.board.getPiece m.startPos = some m.piece) →
      (t.piece ref).status = .idle → (t.piece ref).color = color → Held (t.settle m) p color := by
    intro t hend hp hstart hidle hcolor
    refine ⟨ref, ?_, ?_, (color_settle _ _ _).trans hcolor⟩
    · rw [getPiece_settle, if_neg (Ne.symm hend), if_neg hstart, hp]
    · rw [status_settle, if_neg hne, hidle]
  cases hland with
  | skipped => exact ⟨ref, hp, hidle, hcolor⟩
  | jumpEnds | blocked => exact Held.setStatus ⟨ref, hp, hidle, hcolor⟩
  | shotDown jumper =>
    refine ⟨ref, ?_, ?_, (color_capturedByJumper _ _ _ _).trans hcolor⟩
    · rw [getPiece_capturedByJumper, if_neg hstart, hp]
    · rw [status_capturedByJumper, if_neg hne, hidle]
  | takes target _ hflight hend =>
    -- the captured piece stands on the end square, hence is another one
    have hend' := hother hflight
    have htarget : ref ≠ target := fun heq => hend' (h.placed _ _ target hend (heq ▸ hp))
    refine hsettle hend' ?_ ?_ ?_ ?_
    · rw [getPiece_captureTarget, if_neg (Ne.symm hend'), hp]
    · rintro ⟨rfl, hmover⟩
      rw [getPiece_captureTarget, if_neg (Ne.symm hend')] at hmover
      exact hstart ⟨rfl, hmover⟩
    · rw [status_captureTarget, if_neg htarget, hidle]
    · exact (color_captureTarget _ _ _ _).trans hcolor
  | settles _ hflight => exact hsettle (hother hflight) hp hstart hidle hcolor

/-- No landing puts a jumping piece on a square. -/
theorem Landing.noJumperAt (hland : Landing e m e') (hfree : NoJumperAt e p) : NoJumperAt e' p := by
  -- what is set is set idle or captured
  have hsettle : ∀ {t : GameEngine}, NoJumperAt t p → NoJumperAt (t.settle m) p := by
    intro t ht ref hp
    rw [status_settle]
    split
    · simp
    next hne =>
    rw [getPiece_settle] at hp
    split at hp
    · exact absurd (Option.some.inj hp).symm hne
    split at hp
    · exact absurd hp (by simp)
    · exact ht ref hp
  cases hland with
  | skipped => exact hfree
  | jumpEnds | blocked =>
    intro ref hp
    rw [status_setStatus]
    split
    · simp
    · exact hfree ref hp
  | shotDown jumper =>
    intro ref hp
    rw [status_capturedByJumper]
    split
    · simp
    rw [getPiece_capturedByJumper] at hp
    split at hp
    · exact absurd hp (by simp)
    · exact hfree ref hp
  | takes target =>
    refine hsettle fun ref hp => ?_
    rw [status_captureTarget]
    split
    · simp
    rw [getPiece_captureTarget] at hp
    split at hp
    · exact absurd hp (by simp)
    · exact hfree ref hp
  | settles => exact hsettle hfree

end Square

/-! ### The batch -/

section Batch

variable {e : GameEngine} {p : Position} {color : Color} {batch active : List Motion}

/-- A batch none of whose motions ends on the square leaves an idle piece there. -/
theorem held_foldl_land (h : FlightInv e (batch ++ active))
    (hother : ∀ m ∈ batch, m.isJump = false → m.endPos ≠ p) (hheld : Held e p color) :
    Held (batch.foldl land e) p color := by
  induction batch generalizing e with
  | nil => exact hheld
  | cons m batch ih =>
    have hland := land_cases e m
    exact ih (hland.flightInv h) (fun m' hm' => hother m' (List.mem_cons_of_mem m hm'))
      (hland.held h (hother m List.mem_cons_self) hheld)

/-- The last motion of a batch that ends on the square decides its colour. -/
theorem held_of_last {before after : List Motion} {m : Motion}
    (h : FlightInv e ((before ++ m :: after) ++ active)) (hflight : m.isJump = false)
    (hafter : ∀ m' ∈ after, m'.isJump = false → m'.endPos ≠ m.endPos)
    (hfree : NoJumperAt e m.endPos) :
    Held ((before ++ m :: after).foldl land e) m.endPos (e.piece m.piece).color := by
  rw [List.foldl_append, List.foldl_cons]
  rw [List.append_assoc] at h
  -- up to the motion: the invariant of the flights, and no jumping piece on the square
  have hbefore : FlightInv (before.foldl land e) ((m :: after) ++ active) :=
    Run.invariant (P := fun t rest => FlightInv t (rest ++ ((m :: after) ++ active)))
      (fun t m rest ht => (land_cases t m).flightInv ht) h
  have hfree' : NoJumperAt (before.foldl land e) m.endPos :=
    Run.stable (P := fun t => NoJumperAt t m.endPos)
      (fun t m ht => (land_cases t m).noJumperAt ht) hfree
  -- it lands, and what lands after it ends elsewhere
  have hland := land_cases (before.foldl land e) m
  have hheld := hland.takesSquare hbefore hflight hfree'
  rw [color_foldl_land] at hheld
  exact held_foldl_land (hland.flightInv hbefore) hafter hheld

end Batch

/-! ### The first launch wins -/

/-- The motions of `arrivals` arrive together at a square, in a tick of `ms`, and nothing else
arrives there in it. -/
structure ArriveTogether (e : GameEngine) (ms : Int) (p : Position) (arrivals : List Motion) :
    Prop where
  active : ∀ m ∈ arrivals, m ∈ e.arbiter.activeMotions
  flight : ∀ m ∈ arrivals, m.isJump = false
  ends : ∀ m ∈ arrivals, m.endPos = p
  together : ∀ m ∈ arrivals, ∀ m' ∈ arrivals, m.remainingTime = m'.remainingTime
  completes : ∀ m ∈ arrivals, m.remainingTime ≤ ms
  alone : ∀ m ∈ e.arbiter.activeMotions, m.endPos = p → m.remainingTime ≤ ms → m ∈ arrivals

/-- No idle or jumping piece stands on the square. -/
def Vacant (e : GameEngine) (p : Position) : Prop :=
  ∀ ref, e.board.getPiece p = some ref →
    (e.piece ref).status ≠ .idle ∧ (e.piece ref).status ≠ .jumping

theorem vacant_of_empty {e : GameEngine} {p : Position} (h : e.board.getPiece p = none) :
    Vacant e p := fun ref hp => absurd (h.symm.trans hp) (by simp)

/-- A piece of the colour stands on the square. -/
def TakenBy (e : GameEngine) (p : Position) (color : Color) : Prop :=
  ∃ ref, e.board.getPiece p = some ref ∧ (e.piece ref).color = color

/-- In the order of the batch, the motion of an earlier launch comes later. -/
theorem batchKey_lt_of_age {m m' : Motion} (htogether : m.remainingTime = m'.remainingTime)
    (hjump : m.isJump = m'.isJump) (hid : m.motionId < m'.motionId) (hage : m'.age ≤ m.age) :
    batchKey m' < batchKey m := by
  -- with the same time left the older motion was given more time
  have hduration : m'.originalDuration ≤ m.originalDuration := by
    unfold Motion.age at hage
    omega
  unfold batchKey
  rw [htogether, hjump]
  refine Prod.Lex.toLex_lt_toLex.mpr (Or.inr ⟨rfl, ?_⟩)
  obtain hlt | heq := lt_or_eq_of_le hduration
  · exact Prod.Lex.toLex_lt_toLex.mpr (Or.inl hlt)
  · refine Prod.Lex.toLex_lt_toLex.mpr (Or.inr ⟨heq, ?_⟩)
    refine Prod.Lex.toLex_lt_toLex.mpr (Or.inr ⟨rfl, ?_⟩)
    change -(m'.motionId : Int) < -(m.motionId : Int)
    omega

/-- In the batch of a tick, what comes after the first launch ends elsewhere. -/
theorem ArriveTogether.after_first {e : GameEngine} {ms : Int} {p : Position}
    {arrivals : List Motion} (harrive : ArriveTogether e ms p arrivals)
    (h : FlightInv e e.arbiter.activeMotions) (hids : FreshIds e) (hages : AgesInOrder e)
    {first : Motion} (hfirst : first ∈ arrivals)
    (hleast : ∀ m ∈ arrivals, first.motionId ≤ m.motionId) {before after : List Motion}
    (hbatch : e.completedMotions ms = before ++ elapse ms first :: after) :
    ∀ m ∈ after, m.endPos ≠ p := by
  intro m hm hend
  -- a motion of the batch is one that was active, with the time of the tick gone
  have hmem : m ∈ e.completedMotions ms := by
    rw [hbatch]
    exact List.mem_append_right _ (List.mem_cons_of_mem _ hm)
  obtain ⟨hdone, m, hactive, rfl⟩ := exists_of_mem_advanceTime (Sorting.mem_sortBy.mp hmem)
  have harrival : m ∈ arrivals := by
    refine harrive.alone m hactive hend ?_
    change m.remainingTime - ms ≤ 0 at hdone
    omega
  have hsorted := Sorting.sortBy_pairwise batchKey (e.arbiter.advanceTime ms).1
  change (e.completedMotions ms).Pairwise _ at hsorted
  rw [hbatch] at hsorted
  have hle := (List.pairwise_cons.mp (List.pairwise_append.mp hsorted).2.1).1 _ hm
  obtain hlt | heq := lt_or_eq_of_le (hleast m harrival)
  · -- a later launch would have come before
    have hage := hages.ordered first (harrive.active first hfirst) m hactive hlt
    have hkey := batchKey_lt_of_age (harrive.together first hfirst m harrival)
      ((harrive.flight first hfirst).trans (harrive.flight m harrival).symm) hlt hage
    exact absurd ((batchKey_elapse_le_iff ms first m).mpr hle) (not_le.mpr hkey)
  · -- the batch has each motion once
    obtain rfl := hids.eq_of_motionId (harrive.active first hfirst) hactive heq
    have hsingle := (h.afterAdvance ms).single
    rw [List.map_append] at hsingle
    have hnodup := (List.nodup_append.mp hsingle).1.of_map
    rw [hbatch] at hnodup
    exact (List.nodup_cons.mp (List.nodup_append.mp hnodup).2.1).1 hm

/-- **Simultaneous arrivals are decided by launch order.** In every state of a game on a parsed
board whose clock has not gone backwards: if motions arrive together at a square on which
nothing idle or jumping stands, the square is taken by the colour that was launched first. -/
theorem takenBy_first {boardLines : List String} {board : Board}
    (hparse : parseInitialBoard boardLines = .ok board) {calls : List Call}
    (hforward : ∀ c ∈ calls, c.Forward)
    (hrunning : ((GameEngine.new board).play calls).gameOver = false) {ms : Int} {p : Position}
    {arrivals : List Motion}
    (harrive : ArriveTogether ((GameEngine.new board).play calls) ms p arrivals)
    (hvacant : Vacant ((GameEngine.new board).play calls) p) {first : Motion}
    (hfirst : first ∈ arrivals) (hleast : ∀ m ∈ arrivals, first.motionId ≤ m.motionId) :
    TakenBy (((GameEngine.new board).play calls).updateGameClock ms) p
      (((GameEngine.new board).play calls).piece first.piece).color := by
  have hnew : FlightInv (GameEngine.new board) [] :=
    FlightInv.new (Parsed.of_parseInitialBoard hparse)
  have hfresh : FreshIds (GameEngine.new board) :=
    ⟨List.nodup_nil, fun m hm => absurd hm List.not_mem_nil⟩
  have h := hnew.play calls
  have hids := hfresh.play hnew calls
  have hages := (AgesInOrder.new board).play hfresh hnew hforward
  generalize (GameEngine.new board).play calls = e at *
  -- the first launch is in the batch; it lands there after all the others
  have hmem : elapse ms first ∈ e.completedMotions ms := by
    refine Sorting.mem_sortBy.mpr (Sorting.mem_sortBy.mpr (List.mem_filter.mpr ⟨?_, ?_⟩))
    · exact List.mem_map_of_mem (harrive.active first hfirst)
    · have hdone := harrive.completes first hfirst
      refine decide_eq_true ?_
      change first.remainingTime - ms ≤ 0
      omega
  obtain ⟨before, after, hbatch⟩ := List.append_of_mem hmem
  have hafter := harrive.after_first h hids hages hfirst hleast hbatch
  have hflights := h.afterAdvance ms
  rw [hbatch] at hflights
  obtain rfl : first.endPos = p := harrive.ends first hfirst
  obtain ⟨ref, hp, -, hcolor⟩ := held_of_last hflights (harrive.flight first hfirst)
    (fun m hm _ => hafter m hm) (fun ref hp => (hvacant ref hp).2)
  rw [updateGameClock, if_neg (by simp [hrunning]), hbatch]
  exact ⟨ref, hp, hcolor⟩

/-- Two rooks, one after the other, on their way to the square between them. -/
theorem takenBy_first_rooks :
    TakenBy (((GameEngine.new (boardOf ["wR . . bR"])).play
      [.move ⟨0, 3⟩ ⟨0, 1⟩ 2000, .tick 1000, .move ⟨0, 0⟩ ⟨0, 1⟩ 1000]).updateGameClock 1000)
      ⟨0, 1⟩ .b := by
  have hparse : parseInitialBoard ["wR . . bR"] = .ok (boardOf ["wR . . bR"]) :=
    parseInitialBoard_eq_boardOf (by decide)
  have harrive : ArriveTogether ((GameEngine.new (boardOf ["wR . . bR"])).play
      [.move ⟨0, 3⟩ ⟨0, 1⟩ 2000, .tick 1000, .move ⟨0, 0⟩ ⟨0, 1⟩ 1000]) 1000 ⟨0, 1⟩
      [⟨1, ⟨⟨0, 3⟩⟩, ⟨0, 3⟩, ⟨0, 1⟩, 1000, 2000, false⟩,
        ⟨2, ⟨⟨0, 0⟩⟩, ⟨0, 0⟩, ⟨0, 1⟩, 1000, 1000, false⟩] :=
    ⟨by decide, by decide, by decide, by decide, by decide, by decide⟩
  exact takenBy_first hparse (by decide) (by decide) harrive (vacant_of_empty (by decide))
    List.mem_cons_self (by decide)

/-- The white rook is launched first, but then the clock goes back by the time it is given:
it has as much time left as the black rook, was given less, and is captured on landing. -/
theorem not_takenBy_first_backwards :
    ∃ first second,
      ArriveTogether ((GameEngine.new (boardOf ["wR . . bR"])).play
          [.move ⟨0, 0⟩ ⟨0, 1⟩ 1000, .tick (-1000), .move ⟨0, 3⟩ ⟨0, 1⟩ 2000])
        2000 ⟨0, 1⟩ [first, second] ∧
      Vacant ((GameEngine.new (boardOf ["wR . . bR"])).play
          [.move ⟨0, 0⟩ ⟨0, 1⟩ 1000, .tick (-1000), .move ⟨0, 3⟩ ⟨0, 1⟩ 2000]) ⟨0, 1⟩ ∧
      first.motionId < second.motionId ∧ first.piece = ⟨⟨0, 0⟩⟩ ∧
      ((boardOf ["wR . . bR"]).piece ⟨⟨0, 0⟩⟩).color = .w ∧
      ¬ TakenBy (((GameEngine.new (boardOf ["wR . . bR"])).play
          [.move ⟨0, 0⟩ ⟨0, 1⟩ 1000, .tick (-1000), .move ⟨0, 3⟩ ⟨0, 1⟩ 2000]).updateGameClock
        2000) ⟨0, 1⟩ .w := by
  refine ⟨⟨1, ⟨⟨0, 0⟩⟩, ⟨0, 0⟩, ⟨0, 1⟩, 2000, 1000, false⟩,
    ⟨2, ⟨⟨0, 3⟩⟩, ⟨0, 3⟩, ⟨0, 1⟩, 2000, 2000, false⟩,
    ⟨by decide, by decide, by decide, by decide, by decide, by decide⟩,
    vacant_of_empty (by decide), by decide, rfl, by decide, ?_⟩
  rintro ⟨ref, hp, hwhite⟩
  -- the rook that stands there in the end is Black's
  have hblack : (((GameEngine.new (boardOf ["wR . . bR"])).play
      [.move ⟨0, 0⟩ ⟨0, 1⟩ 1000, .tick (-1000), .move ⟨0, 3⟩ ⟨0, 1⟩ 2000]).updateGameClock
    2000).board.getPiece ⟨0, 1⟩ = some ⟨⟨0, 3⟩⟩ := by decide
  obtain rfl := Option.some.inj (hblack.symm.trans hp)
  exact absurd hwhite (by decide)

end KungFuChess
