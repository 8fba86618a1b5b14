import KungFuChess.Engine.Captures
import KungFuChess.Engine.StatusAgreement

/-!
# Which landings lose a piece

A piece of the initial board is accounted for while it is captured, or stands on the
grid, or is off the grid but carried by a motion that is not a jump. The loop body of
a tick writes the end square whatever stands there, unless it is an enemy in a jump or
an idle piece. `LosesPiece` lists the three landings after which a piece is not accounted
for: a jumping friend is written over; a `moving` piece without a motion (a cancelled
launch left it so) is written over; a piece is blocked on arrival when its start square,
which the grid still gave it during the flight, has been written over meanwhile.

Every other landing keeps the pieces accounted for and every such landing loses one
(`Accounted.land_iff`). A lost piece stays lost (`Lost.land`, `Lost.call`): it is on no
square from which it could be launched. Hence no piece is lost in a game exactly when no
landing of the game is one of the three (`notLost_iff`).
-/

namespace KungFuChess

open GameEngine BoardParser

namespace GameEngine

/-- The landing of `motion`, with the motions `rest` of its batch still to come, leaves a
piece unaccounted for. -/
def LosesPiece (e : GameEngine) (motion : Motion) (rest : List Motion) : Prop :=
  motion.isJump = false ∧ (e.piece motion.piece).status ≠ .captured ∧
    ∃ occupant ∈ e.board.getPiece motion.endPos,
      ((e.piece occupant).status = .jumping ∧
        (e.piece occupant).color = (e.piece motion.piece).color) ∨
      ((e.piece occupant).status = .moving ∧
        ∀ other ∈ rest ++ e.arbiter.activeMotions, other.piece ≠ occupant) ∨
      ((e.piece occupant).status = .idle ∧
        (e.piece occupant).color = (e.piece motion.piece).color ∧
        e.board.getPiece motion.startPos ≠ some motion.piece)

/-- The three cases can be told apart on the state before the landing. -/
instance (e : GameEngine) (motion : Motion) (rest : List Motion) :
    Decidable (e.LosesPiece motion rest) :=
  inferInstanceAs (Decidable (_ ∧ _ ∧ _))

/-- No landing of the call loses a piece. -/
def KeepsPieces (e : GameEngine) : Call → Prop
  | .tick ms =>
    e.gameOver = false →
      Run.Guarded land (fun t m rest => ¬ t.LosesPiece m rest) (e.afterAdvance ms)
        (e.completedMotions ms)
  | _ => True

/-- So can the calls. -/
instance (e : GameEngine) : (c : Call) → Decidable (e.KeepsPieces c)
  | .tick _ => inferInstanceAs (Decidable (e.gameOver = false → Run.Guarded _ _ _ _))
  | .move _ _ _ => instDecidableTrue
  | .jump _ => instDecidableTrue

end GameEngine

/-- After the calls, the piece is captured, and then by an enemy; or it stands on the
grid; or it is off the grid while exactly one active motion, not a jump, carries it. -/
def NotLost (board : Board) (calls : List Call) (ref : PieceRef) : Prop :=
  let e := (GameEngine.new board).play calls
  ((e.piece ref).status = .captured ∧
      ∃ capturer, (capturer, ref) ∈ (GameEngine.new board).captures calls ∧
        (e.piece capturer).color ≠ (e.piece ref).color) ∨
    (∃ p, e.board.getPiece p = some ref) ∨
    (e.flightsOf ref).length = 1

/-! ### Lost pieces -/

/-- The piece is not captured, on no square, and carried by no motion except a jump. -/
structure Lost (e : GameEngine) (flights : List Motion) (ref : PieceRef) : Prop where
  alive : (e.piece ref).status ≠ .captured
  offGrid : ∀ p, e.board.getPiece p ≠ some ref
  grounded : ∀ m ∈ flights, m.piece = ref → m.isJump = true

/-- Only pieces of the set are on the grid or in flight. -/
structure KnownPieces (pieces : Set PieceRef) (e : GameEngine) (flights : List Motion) : Prop where
  onGrid : ∀ p ref, e.board.getPiece p = some ref → ref ∈ pieces
  inFlight : ∀ m ∈ flights, m.piece ∈ pieces

/-- No piece of the set is lost. -/
def Accounted (pieces : Set PieceRef) (e : GameEngine) (flights : List Motion) : Prop :=
  ∀ ref ∈ pieces, ¬ Lost e flights ref

/-! ### One landing -/

/-- The square of another piece is not the one the mover leaves. -/
theorem not_left {e : GameEngine} {m : Motion} {p : Position} {ref : PieceRef}
    (hp : e.board.getPiece p = some ref) (hne : ref ≠ m.piece) :
    ¬ (p = m.startPos ∧ e.board.getPiece m.startPos = some m.piece) := by
  intro hleft
  rw [hleft.1] at hp
  exact hne (Option.some.inj (hp.symm.trans hleft.2))

section Landing

variable {pieces : Set PieceRef} {e e' : GameEngine} {m : Motion} {flights : List Motion}
  {ref : PieceRef}

/-- Only the mover can be on a square where it was not before. -/
theorem Landing.getPiece_cases (hland : Landing e m e') {p : Position}
    (hp : e'.board.getPiece p = some ref) :
    e.board.getPiece p = some ref ∨ m.isJump = false ∧ ref = m.piece := by
  cases hland with
  | skipped => exact Or.inl hp
  | jumpEnds | blocked => exact Or.inl hp
  | shotDown jumper =>
    rw [getPiece_capturedByJumper] at hp
    exact Or.inl (unwritten hp (by simp)).2
  | takes target _ hflight =>
    rw [getPiece_settle] at hp
    split at hp
    · exact Or.inr ⟨hflight, (Option.some.inj hp).symm⟩
    · next hne =>
      -- not the end square, so the capture has left it as it was
      obtain ⟨-, hp⟩ := unwritten hp (by simp)
      rw [getPiece_captureTarget, if_neg hne] at hp
      exact Or.inl hp
  | settles _ hflight =>
    rw [getPiece_settle] at hp
    split at hp
    · exact Or.inr ⟨hflight, (Option.some.inj hp).symm⟩
    · exact Or.inl (unwritten hp (by simp)).2

/-- A landing brings no new piece. -/
theorem KnownPieces.land (hcast : KnownPieces pieces e (m :: flights)) (hland : Landing e m e') :
    KnownPieces pieces e' flights := by
  refine ⟨fun p ref hp => ?_, fun m' hm' => hcast.inFlight m' (List.mem_cons_of_mem m hm')⟩
  obtain hp | ⟨-, rfl⟩ := hland.getPiece_cases hp
  · exact hcast.onGrid p ref hp
  · exact hcast.inFlight m List.mem_cons_self

/-- A lost piece stays lost: no motion but a jump carries it, and a jump ends without
writing the grid. -/
theorem Lost.land (hlost : Lost e (m :: flights) ref) (hland : Landing e m e') :
    Lost e' flights ref := by
  -- the mover is not lost, unless the motion is a jump
  have hmover : m.isJump = false → ref ≠ m.piece := by
    intro hflight heq
    have hjump := hlost.grounded m List.mem_cons_self heq.symm
    exact absurd (hflight.symm.trans hjump) (by simp)
  refine ⟨fun hcaptured => ?_, fun p hp => ?_, fun m' hm' => ?_⟩
  · rcases hland.captured_cases hcaptured with h | ⟨capturer, hcap, -⟩
    · exact hlost.alive h
    · -- the captured piece is the mover or stands on the end square
      rcases captureOf_eq_some hcap with ⟨hflight, rfl | hend⟩
      · exact hmover hflight rfl
      · exact hlost.offGrid _ hend
  · rcases hland.getPiece_cases hp with hp | ⟨hflight, rfl⟩
    · exact hlost.offGrid p hp
    · exact hmover hflight rfl
  · exact hlost.grounded m' (List.mem_cons_of_mem m hm')

/-- After one of the three landings a piece is lost. -/
theorem exists_lost_of_losesPiece {batch : List Motion}
    (h : FlightInv e (m :: (batch ++ e.arbiter.activeMotions)))
    (hcast : KnownPieces pieces e (m :: (batch ++ e.arbiter.activeMotions))) (hland : Landing e m e')
    (hloses : e.LosesPiece m batch) :
    ∃ ref ∈ pieces, Lost e' (batch ++ e.arbiter.activeMotions) ref := by
  obtain ⟨hflight, halive, occupant, hend, hcase⟩ := hloses
  replace hend : e.board.getPiece m.endPos = some occupant := hend
  have hoccupant : occupant ≠ m.piece := fun heq => h.getPiece_end_ne hflight (heq ▸ hend)
  -- an occupant that is written over is on no square afterwards
  have hover : ∀ p, (e.settle m).board.getPiece p ≠ some occupant := by
    intro p hp
    rcases h.getPiece_settle_cases hp with ⟨-, heq⟩ | ⟨hne, -, hp⟩
    · exact hoccupant heq
    · exact hne (h.placed p m.endPos occupant hp hend)
  cases hland with
  | skipped hcaptured => exact absurd hcaptured halive
  | jumpEnds _ hjump => exact absurd (hflight.symm.trans hjump) (by simp)
  | shotDown jumper _ _ hend' hjumping henemy =>
    -- the jumper is an enemy
    obtain rfl : occupant = jumper := Option.some.inj (hend.symm.trans hend')
    rcases hcase with ⟨-, hfriend⟩ | ⟨hmoving, -⟩ | ⟨hidle, -, -⟩
    · exact absurd hfriend henemy
    · exact absurd (hjumping.symm.trans hmoving) (by simp)
    · exact absurd (hjumping.symm.trans hidle) (by simp)
  | takes target _ _ hend' hidle henemy =>
    -- the target is an idle enemy
    obtain rfl : occupant = target := Option.some.inj (hend.symm.trans hend')
    rcases hcase with ⟨hjumping, -⟩ | ⟨hmoving, -⟩ | ⟨-, hfriend, -⟩
    · exact absurd (hidle.symm.trans hjumping) (by simp)
    · exact absurd (hidle.symm.trans hmoving) (by simp)
    · exact absurd hfriend henemy
  | blocked friend _ _ hend' hidle =>
    obtain rfl : occupant = friend := Option.some.inj (hend.symm.trans hend')
    rcases hcase with ⟨hjumping, -⟩ | ⟨hmoving, -⟩ | ⟨-, -, hstart⟩
    · exact absurd (hidle.symm.trans hjumping) (by simp)
    · exact absurd (hidle.symm.trans hmoving) (by simp)
    · -- the mover is set idle where the grid no longer has it
      refine ⟨m.piece, hcast.inFlight m List.mem_cons_self, ?_, fun p hp => ?_, fun m' hm' heq => ?_⟩
      · rw [status_setStatus, if_pos rfl]
        simp
      · have hp' : e.board.getPiece p = some m.piece := hp
        exact hstart (h.atStart m List.mem_cons_self p hp' ▸ hp')
      · exact absurd heq (h.piece_ne hm')
  | settles _ _ hbusy =>
    refine ⟨occupant, hcast.onGrid _ _ hend, ?_, hover, fun m' hm' heq => ?_⟩
    · rw [status_settle, if_neg hoccupant]
      exact h.alive _ _ hend
    · rcases hcase with ⟨hjumping, -⟩ | ⟨-, hnone⟩ | ⟨hidle, -, -⟩
      · -- what carries a jumping piece is a jump
        have hflying := h.flying m' (List.mem_cons_of_mem m hm')
        rw [heq, hjumping, Motion.status] at hflying
        by_contra hflight'
        rw [if_neg hflight'] at hflying
        exact absurd hflying (by simp)
      · exact absurd heq (hnone m' hm')
      · exact absurd hidle (hbusy occupant hend).1

/-- The piece that settles is not lost. -/
theorem Lost.ne_of_settle (hlost : Lost (e.settle m) flights ref) : ref ≠ m.piece := by
  intro heq
  exact hlost.offGrid m.endPos (by rw [getPiece_settle, if_pos rfl, heq])

/-- A piece that is lost after another has settled was on no square but the end square. -/
theorem Lost.offGrid_of_settle (hlost : Lost (e.settle m) flights ref) {p : Position}
    (hp : p ≠ m.endPos) : e.board.getPiece p ≠ some ref := by
  intro hat
  refine hlost.offGrid p ?_
  rw [getPiece_settle, if_neg hp, if_neg (not_left hat hlost.ne_of_settle), hat]

/-- A piece lost by a landing was lost before, or the landing is one of the three. -/
theorem Lost.of_land {batch : List Motion}
    (h : FlightInv e (m :: (batch ++ e.arbiter.activeMotions))) (hland : Landing e m e')
    (hlost : Lost e' (batch ++ e.arbiter.activeMotions) ref) :
    Lost e (m :: (batch ++ e.arbiter.activeMotions)) ref ∨ e.LosesPiece m batch := by
  -- a piece that neither is the mover nor has left its square was lost before
  have hbefore : ref ≠ m.piece → (∀ p, e.board.getPiece p ≠ some ref) →
      Lost e (m :: (batch ++ e.arbiter.activeMotions)) ref := by
    intro hne hgrid
    refine ⟨fun hcaptured => hlost.alive (hland.captured_mono hcaptured), hgrid, ?_⟩
    intro m' hm' heq
    rcases List.mem_cons.mp hm' with rfl | hm'
    · exact absurd heq.symm hne
    · exact hlost.grounded m' hm' heq
  cases hland with
  | skipped hcaptured => exact absurd hcaptured (h.status_ne_captured List.mem_cons_self)
  | jumpEnds halive hjump =>
    by_cases href : ref = m.piece
    · -- the mover of a jump was lost already, if it is now
      subst href
      refine Or.inl ⟨halive, hlost.offGrid, fun m' hm' heq => ?_⟩
      rcases List.mem_cons.mp hm' with rfl | hm'
      · exact hjump
      · exact hlost.grounded m' hm' heq
    · exact Or.inl (hbefore href hlost.offGrid)
  | shotDown jumper halive =>
    -- the mover is captured, so it is not the lost piece
    have hne : ref ≠ m.piece := by
      intro heq
      exact hlost.alive (by rw [status_capturedByJumper, if_pos heq])
    refine Or.inl (hbefore hne fun p hp => hlost.offGrid p ?_)
    rw [getPiece_capturedByJumper, if_neg (not_left hp hne), hp]
  | blocked friend halive hflight hend hidle hfriend =>
    by_cases href : ref = m.piece
    · -- the mover is lost, because the grid no longer has it on the start square
      subst href
      exact Or.inr ⟨hflight, halive, friend, hend,
        Or.inr (Or.inr ⟨hidle, hfriend, hlost.offGrid m.startPos⟩)⟩
    · exact Or.inl (hbefore href hlost.offGrid)
  | takes target halive hflight hend hidle henemy =>
    -- the mover stands on the end square, and the target is captured
    have hne := hlost.ne_of_settle
    have htarget : ref ≠ target := by
      intro heq
      exact hlost.alive (by rw [status_settle, if_neg hne, status_captureTarget, if_pos heq])
    refine Or.inl (hbefore hne fun p hp => ?_)
    have hp_end : p ≠ m.endPos := by
      intro heq
      exact htarget (Option.some.inj (hp.symm.trans (heq ▸ hend)))
    exact hlost.offGrid_of_settle hp_end (by rw [getPiece_captureTarget, if_neg hp_end, hp])
  | settles halive hflight hover =>
    by_cases hend : e.board.getPiece m.endPos = some ref
    · -- `ref` is written over: it is in flight without a motion, or a jumping friend
      refine Or.inr ⟨hflight, halive, ref, hend, ?_⟩
      cases hstatus : (e.piece ref).status with
      | idle => exact absurd hstatus (hover ref hend).1
      | captured => exact absurd hstatus (h.alive _ _ hend)
      | jumping => exact Or.inl ⟨rfl, (hover ref hend).2 hstatus⟩
      | moving =>
        -- a motion that carried it would be a jump, and the status `jumping`
        refine Or.inr (Or.inl ⟨rfl, fun other hother heq => ?_⟩)
        have hjump := hlost.grounded other hother heq
        have hflying := h.flying other (List.mem_cons_of_mem m hother)
        rw [heq, hstatus, Motion.status, if_pos hjump] at hflying
        exact absurd hflying (by simp)
    · refine Or.inl (hbefore hlost.ne_of_settle fun p hp => ?_)
      exact hlost.offGrid_of_settle (fun heq => hend (heq ▸ hp)) hp

/-- **Exactness, one landing.** -/
theorem Accounted.land_iff {batch : List Motion}
    (h : FlightInv e (m :: (batch ++ e.arbiter.activeMotions)))
    (hcast : KnownPieces pieces e (m :: (batch ++ e.arbiter.activeMotions)))
    (hacc : Accounted pieces e (m :: (batch ++ e.arbiter.activeMotions)))
    (hland : Landing e m e') :
    ¬ e.LosesPiece m batch ↔ Accounted pieces e' (batch ++ e.arbiter.activeMotions) := by
  refine ⟨fun hkeeps ref href hlost => ?_, fun hacc' hloses => ?_⟩
  · exact (Lost.of_land h hland hlost).elim (hacc ref href) hkeeps
  · obtain ⟨ref, href, hlost⟩ := exists_lost_of_losesPiece h hcast hland hloses
    exact hacc' ref href hlost

end Landing

/-! ### Calls -/

section Call

variable {pieces : Set PieceRef} {e : GameEngine} {ref : PieceRef}

/-- The clock changes nothing before the first landing but the remaining times. -/
theorem lost_afterAdvance_iff (ms : Int) :
    Lost (e.afterAdvance ms)
        (e.completedMotions ms ++ (e.afterAdvance ms).arbiter.activeMotions) ref ↔
      Lost e e.arbiter.activeMotions ref := by
  have hmem := fun m' => (FlightInv.completed_append_perm e ms).mem_iff (a := m')
  refine ⟨fun h => ⟨h.alive, h.offGrid, fun m hm heq => ?_⟩,
    fun h => ⟨h.alive, h.offGrid, fun m' hm' heq => ?_⟩⟩
  · have hm' : RealTimeArbiter.elapse ms m ∈ e.arbiter.activeMotions.map
        (RealTimeArbiter.elapse ms) := List.mem_map_of_mem hm
    exact h.grounded (RealTimeArbiter.elapse ms m) ((hmem _).mpr hm') heq
  · obtain ⟨m, hm, rfl⟩ := List.mem_map.mp ((hmem m').mp hm')
    exact h.grounded m hm heq

/-- Time brings none either. -/
theorem KnownPieces.afterAdvance (hcast : KnownPieces pieces e e.arbiter.activeMotions) (ms : Int) :
    KnownPieces pieces (e.afterAdvance ms)
      (e.completedMotions ms ++ (e.afterAdvance ms).arbiter.activeMotions) := by
  refine ⟨hcast.onGrid, fun m' hm' => ?_⟩
  obtain ⟨m, hm, rfl⟩ :=
    List.mem_map.mp ((FlightInv.completed_append_perm e ms).mem_iff.mp hm')
  exact hcast.inFlight m hm

/-- Nor does any other call. -/
theorem KnownPieces.call (hcast : KnownPieces pieces e e.arbiter.activeMotions)
    (h : FlightInv e e.arbiter.activeMotions) (c : Call) :
    KnownPieces pieces (e.call c) (e.call c).arbiter.activeMotions := by
  have hcase := call_cases h c
  generalize e.call c = e' at hcase
  cases hcase with
  | rejected => exact hcast
  | launched m scoreboard hlaunch =>
    refine ⟨hcast.onGrid, fun m' hm' => ?_⟩
    rcases List.mem_append.mp hm' with hm' | hm'
    · exact hcast.inFlight m' hm'
    · -- the motion launched is of a piece on the grid
      obtain rfl := List.mem_singleton.mp hm'
      exact hcast.onGrid _ _ (launchable_eq_some.mp (launchOf_eq_some hlaunch).1).2.1
  | cancelled => exact ⟨hcast.onGrid, hcast.inFlight⟩
  | ticked ms =>
    -- the landings of a tick, one after the other
    rw [arbiter_foldl_land]
    exact Run.invariant
      (P := fun t rest => KnownPieces pieces t (rest ++ (e.afterAdvance ms).arbiter.activeMotions))
      (fun t m rest ht => ht.land (land_cases t m)) (hcast.afterAdvance ms)

/-- **Exactness, one batch.** A lost piece stays lost over the landings that follow, so
the end of the batch shows whether one of its landings lost a piece. -/
theorem Accounted.batch_iff {batch : List Motion}
    (h : FlightInv e (batch ++ e.arbiter.activeMotions))
    (hcast : KnownPieces pieces e (batch ++ e.arbiter.activeMotions))
    (hacc : Accounted pieces e (batch ++ e.arbiter.activeMotions)) :
    Run.Guarded land (fun t m rest => ¬ t.LosesPiece m rest) e batch ↔
      Accounted pieces (batch.foldl land e) (batch.foldl land e).arbiter.activeMotions := by
  refine Run.guarded_iff_last
    (P := fun t rest => Accounted pieces t (rest ++ t.arbiter.activeMotions))
    (J := fun t rest => FlightInv t (rest ++ t.arbiter.activeMotions) ∧
      KnownPieces pieces t (rest ++ t.arbiter.activeMotions)) ?_ ?_ ?_ ⟨h, hcast⟩ hacc
  · -- the step keeps what `J` says
    intro t m rest hJ
    rw [arbiter_land]
    exact ⟨(land_cases t m).flightInv hJ.1, hJ.2.land (land_cases t m)⟩
  · -- and the accounting, if nothing is lost
    intro t m rest hJ hP
    rw [arbiter_land]
    exact Accounted.land_iff hJ.1 hJ.2 hP (land_cases t m)
  · -- a piece lost once stays lost
    intro t m rest hJ hP hP'
    rw [arbiter_land] at hP'
    exact hP fun ref href hlost => hP' ref href (hlost.land (land_cases t m))

/-- The status of a piece that stands on the grid does not matter. -/
theorem Lost.of_setStatus {flights : List Motion} {p : Position} {mover : PieceRef}
    {status : PieceStatus} (hp : e.board.getPiece p = some mover)
    (hlost : Lost (e.setStatus mover status) flights ref) : Lost e flights ref := by
  have hne : ref ≠ mover := by
    intro heq
    exact hlost.offGrid p (heq ▸ hp)
  refine ⟨fun hcaptured => hlost.alive ?_, hlost.offGrid, hlost.grounded⟩
  rw [status_setStatus, if_neg hne, hcaptured]

/-- **Exactness, one call.** -/
theorem Accounted.call_iff (h : FlightInv e e.arbiter.activeMotions)
    (hcast : KnownPieces pieces e e.arbiter.activeMotions)
    (hacc : Accounted pieces e e.arbiter.activeMotions) (c : Call) :
    e.KeepsPieces c ↔ Accounted pieces (e.call c) (e.call c).arbiter.activeMotions := by
  -- a request lands nothing
  have hrequest : (∀ ms, c ≠ .tick ms) → e.KeepsPieces c := by
    intro hne
    cases c with
    | tick ms => exact absurd rfl (hne ms)
    | move | jump => exact trivial
  have hcase := call_cases h c
  generalize e.call c = e' at hcase
  cases hcase with
  | rejected _ hover =>
    refine iff_of_true ?_ hacc
    cases c with
    | tick ms => exact fun hrunning => absurd ((hover ms rfl).symm.trans hrunning) (by simp)
    | move | jump => exact trivial
  | launched m scoreboard hlaunch =>
    -- the launched piece stands on the grid, and the other pieces are carried as before
    have hstart := (launchable_eq_some.mp (launchOf_eq_some hlaunch).1).2.1
    refine iff_of_true (hrequest ?_) fun ref href hlost => hacc ref href ?_
    · intro ms hms
      subst hms
      exact absurd hlaunch (by simp [launchOf])
    · have hafter : Lost (e.setStatus m.piece m.status) e.arbiter.activeMotions ref :=
        ⟨hlost.alive, hlost.offGrid, fun m' hm' =>
          hlost.grounded m' (List.mem_append_left _ hm')⟩
      exact hafter.of_setStatus hstart
  | cancelled m scoreboard hlaunch =>
    -- the stranded piece is not lost: it stands on the grid
    have hstart := (launchable_eq_some.mp (launchOf_eq_some hlaunch).1).2.1
    refine iff_of_true (hrequest ?_) fun ref href hlost => hacc ref href ?_
    · intro ms hms
      subst hms
      exact absurd hlaunch (by simp [launchOf])
    · have hafter : Lost (e.setStatus m.piece .moving) e.arbiter.activeMotions ref :=
        ⟨hlost.alive, hlost.offGrid, hlost.grounded⟩
      exact hafter.of_setStatus hstart
  | ticked ms hcall hrunning =>
    subst hcall
    -- the clock loses nothing, so the batch decides
    have hacc' : Accounted pieces (e.afterAdvance ms)
        (e.completedMotions ms ++ (e.afterAdvance ms).arbiter.activeMotions) :=
      fun ref href hlost => hacc ref href ((lost_afterAdvance_iff ms).mp hlost)
    have hbatch := Accounted.batch_iff (h.afterAdvance ms) (hcast.afterAdvance ms) hacc'
    exact ⟨fun hkeeps => hbatch.mp (hkeeps hrunning), fun hafter _ => hbatch.mpr hafter⟩

end Call

/-! ### Games -/

/-- On a parsed board, `NotLost` is the negation of `Lost`: what is captured was captured
by an enemy, and no piece is carried twice. -/
theorem notLost_iff_not_lost {board : Board} (hparsed : Parsed board) (calls : List Call)
    (ref : PieceRef) :
    NotLost board calls ref ↔
      ¬ Lost ((GameEngine.new board).play calls)
        ((GameEngine.new board).play calls).arbiter.activeMotions ref := by
  have hnew : FlightInv (GameEngine.new board) [] := FlightInv.new hparsed
  have hcount := length_filter_eq_one_iff (hnew.play calls).single ref false
  constructor
  · rintro (⟨hcaptured, -⟩ | ⟨p, hp⟩ | hcarried) hlost
    · exact hlost.alive hcaptured
    · exact hlost.offGrid p hp
    · obtain ⟨m, hm, hflight, heq⟩ := hcount.mp hcarried
      exact absurd (hflight.symm.trans (hlost.grounded m hm heq)) (by simp)
  · intro hnot
    by_cases hcaptured :
        (((GameEngine.new board).play calls).piece ref).status = .captured
    · refine Or.inl ⟨hcaptured, ?_⟩
      rcases captured_by_enemy hnew hcaptured with hstart | ⟨capturer, hmem, henemy⟩
      · exact absurd ((hparsed.idle ref).symm.trans hstart) (by simp)
      · refine ⟨capturer, hmem, ?_⟩
        rw [color_play hnew, color_play hnew]
        exact henemy
    -- neither captured nor on the grid: a flight carries it, or it is lost
    by_cases hgrid : ∃ p, ((GameEngine.new board).play calls).board.getPiece p = some ref
    · exact Or.inr (Or.inl hgrid)
    · refine Or.inr (Or.inr (hcount.mpr ?_))
      by_contra hnone
      refine hnot ⟨hcaptured, fun p hp => hgrid ⟨p, hp⟩, fun m hm heq => ?_⟩
      by_contra hflight
      exact hnone ⟨m, hm, Bool.eq_false_iff.mpr hflight, heq⟩

/-- **No piece is lost exactly when no landing loses one.** In a game played on a parsed
board, every piece of the initial board is accounted for in every state reached iff none
of the landings of the game is one of the three that lose a piece. -/
theorem notLost_iff {boardLines : List String} {board : Board}
    (hparse : parseInitialBoard boardLines = .ok board) (calls : List Call) :
    (∀ pre, pre <+: calls → ∀ p ref, board.getPiece p = some ref → NotLost board pre ref) ↔
      Run.Guarded GameEngine.call (fun e c _ => e.KeepsPieces c) (GameEngine.new board) calls := by
  have hparsed := Parsed.of_parseInitialBoard hparse
  -- the pieces of the initial board, which no call adds to
  let pieces : Set PieceRef := {ref | ∃ p, board.getPiece p = some ref}
  have hnew : FlightInv (GameEngine.new board) [] := FlightInv.new hparsed
  have hcast : KnownPieces pieces (GameEngine.new board) [] :=
    ⟨fun p ref hp => ⟨p, hp⟩, fun m hm => absurd hm List.not_mem_nil⟩
  have hacc : Accounted pieces (GameEngine.new board) [] := by
    rintro ref ⟨p, hp⟩ hlost
    exact hlost.offGrid p hp
  calc (∀ pre, pre <+: calls → ∀ p ref, board.getPiece p = some ref → NotLost board pre ref)
      ↔ ∀ pre, pre <+: calls → Accounted pieces ((GameEngine.new board).play pre)
          ((GameEngine.new board).play pre).arbiter.activeMotions := by
        refine forall₂_congr fun pre _ => ⟨?_, fun hacc' p ref hp => ?_⟩
        · rintro h ref ⟨p, hp⟩
          exact (notLost_iff_not_lost hparsed pre ref).mp (h p ref hp)
        · exact (notLost_iff_not_lost hparsed pre ref).mpr (hacc' ref ⟨p, hp⟩)
    _ ↔ Run.Throughout GameEngine.call
          (fun e _ => Accounted pieces e e.arbiter.activeMotions) (GameEngine.new board) calls :=
        (Run.throughout_iff_prefix
          (Q := fun e : GameEngine => Accounted pieces e e.arbiter.activeMotions) _ _).symm
    _ ↔ _ :=
        (Run.guarded_iff_throughout
          (J := fun (e : GameEngine) _ => FlightInv e e.arbiter.activeMotions ∧
            KnownPieces pieces e e.arbiter.activeMotions)
          (fun e c _ hJ => ⟨hJ.1.call c, hJ.2.call hJ.1 c⟩)
          (fun e c _ hJ hP => hP.call_iff hJ.1 hJ.2 c) ⟨hnew, hcast⟩ hacc).symm

/-- A rook arrives where a friend has landed meanwhile; the friend stands there idle. -/
def lateArrivalGame : List Call :=
  [.move ⟨0, 0⟩ ⟨0, 2⟩ 2000, .move ⟨1, 2⟩ ⟨0, 2⟩ 1000, .tick 1000, .tick 1000]

/-- The same game, but the friend jumps before the rook arrives. -/
def friendJumpsGame : List Call :=
  [.move ⟨0, 0⟩ ⟨0, 2⟩ 2000, .move ⟨1, 2⟩ ⟨0, 2⟩ 1000, .tick 1000, .tick 500, .jump ⟨0, 2⟩,
    .tick 500]

/-- A piece that is blocked goes back to its square, and is not lost. -/
theorem notLost_iff_lateArrival :
    NotLost (boardOf ["wR . .", ". . wR"]) lateArrivalGame ⟨⟨1, 2⟩⟩ := by
  have hparse : parseInitialBoard ["wR . .", ". . wR"] = .ok (boardOf ["wR . .", ". . wR"]) :=
    parseInitialBoard_eq_boardOf (by decide)
  exact (notLost_iff hparse _).mpr (by decide) _ List.prefix_rfl ⟨1, 2⟩ _ (by decide)

/-- The rook writes the jumping friend over: nobody captured it, it stands on no square,
and no motion but its jump carries it. -/
theorem not_notLost_friendJumps :
    parseInitialBoard ["wR . .", ". . wR"] = .ok (boardOf ["wR . .", ". . wR"]) ∧
      (boardOf ["wR . .", ". . wR"]).getPiece ⟨1, 2⟩ = some ⟨⟨1, 2⟩⟩ ∧
      ¬ NotLost (boardOf ["wR . .", ". . wR"]) friendJumpsGame ⟨⟨1, 2⟩⟩ := by
  refine ⟨parseInitialBoard_eq_boardOf (by decide), by decide, ?_⟩
  have hgrid : ∀ entry ∈ ((GameEngine.new (boardOf ["wR . .", ". . wR"])).play
      friendJumpsGame).board.grid.entries, entry.2 ≠ ⟨⟨1, 2⟩⟩ := by
    decide
  rintro (⟨hcaptured, -⟩ | ⟨p, hp⟩ | hcarried)
  · exact absurd hcaptured (by decide)
  · exact hgrid _ (Dict.mem_entries_iff.mpr hp) rfl
  · exact absurd hcarried (by decide)

end KungFuChess
