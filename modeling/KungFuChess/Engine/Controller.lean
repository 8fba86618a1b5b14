import KungFuChess.Engine.FlightInv

/-!
# The controller

`Controller` turns clicks into requests. The first click selects a square that holds a piece, the
second one sends the piece on it, or makes it jump if it is the same square. What is kept in
between is the square. Its docstring speaks of the selection of a piece, and the two are the
same as long as no other piece comes to the square: `Clicking` remembers the piece as well, and
`launches_chosen` says that under this condition every piece launched is the piece selected.
-/

namespace KungFuChess

open GameEngine

/-! ### The board mapper -/

namespace BoardMapper

/-- `CELL_SIZE`. -/
def cellSize : Int := 100

/-- `//` rounds down. -/
def toPosition (board : Board) (x y : Int) : Option Position :=
  let col := x.fdiv cellSize
  let row := y.fdiv cellSize
  if 0 ≤ row ∧ row < board.numRows ∧ 0 ≤ col ∧ col < board.numCols then some ⟨row, col⟩ else none

/-- A pixel is on the board if it is in the rectangle of the cells. -/
theorem toPosition_eq_none_iff {board : Board} {x y : Int} : toPosition board x y = none ↔
    ¬ (0 ≤ x ∧ x < cellSize * board.numCols ∧ 0 ≤ y ∧ y < cellSize * board.numRows) := by
  unfold toPosition cellSize
  rw [Int.fdiv_eq_ediv_of_nonneg _ (by omega), Int.fdiv_eq_ediv_of_nonneg _ (by omega)]
  dsimp only
  split
  · next hin => exact iff_of_false (by simp) (not_not.mpr (by omega))
  · next hout => exact iff_of_true rfl (by omega)

end BoardMapper

/-! ### Clicks -/

/-- The engine's answer to a request. -/
def GameEngine.accepts (e : GameEngine) : Call → Bool
  | .move startPos endPos durationMs => (e.handleMoveRequest startPos endPos durationMs).2
  | .jump position => (e.handleJumpRequest position).2
  | .tick _ => false

/-- The requests that launch a piece are the ones the engine accepts. -/
theorem GameEngine.isSome_launchOf (e : GameEngine) (c : Call) :
    (e.launchOf c).isSome = e.accepts c := by
  cases c with
  | move startPos endPos durationMs =>
    rw [launchOf, accepts, handleMoveRequest]
    cases e.launchable startPos with
    -- nothing to launch, else the legality of the move decides
    | none => rfl
    | some ref =>
      rw [Option.bind_some]
      split <;> rfl
  | jump position =>
    rw [launchOf, accepts, handleJumpRequest]
    cases e.launchable position with
    | none => rfl
    | some ref => rfl
  | tick ms => rfl

/-- The controller holds the engine and the square that was selected. -/
structure Controller where
  engine : GameEngine
  selected : Option Position := none

namespace Controller

/-- `MS_PER_CELL`. -/
def msPerCell : Int := 1000

/-- The flight time by Chebyshev distance. -/
def duration (startPos endPos : Position) : Int :=
  max |endPos.row - startPos.row| |endPos.col - startPos.col| * msPerCell

/-- A click on the board. -/
def click (c : Controller) (x y : Int) : Controller :=
  match BoardMapper.toPosition c.engine.board x y with
  | none => c
  | some position =>
    match c.selected with
    | none =>
      -- the first click
      if (c.engine.board.getPiece position).isSome then { c with selected := some position } else c
    | some selected =>
      -- the second click: the same square is a jump
      if position = selected then
        { engine := (c.engine.handleJumpRequest selected).1, selected := none }
      else
        match c.engine.board.pieceAt position, c.engine.board.pieceAt selected with
        | some clickedPiece, some selectedPiece =>
          -- a piece of the same colour is selected instead
          if clickedPiece.color = selectedPiece.color then { c with selected := some position }
          else
            { engine := (c.engine.handleMoveRequest selected position (duration selected position)).1
              selected := none }
        | none, some _ =>
          { engine := (c.engine.handleMoveRequest selected position (duration selected position)).1
            selected := none }
        -- the selected piece has gone
        | _, none => { c with selected := none }

/-- What happens to a controller and its engine. -/
inductive Input where
  | click (x y : Int)
  | tick (ms : Int)
deriving DecidableEq, Repr

/-- One input: a click, or time that passes. -/
def step (c : Controller) : Input → Controller
  | .click x y => c.click x y
  | .tick ms => { c with engine := c.engine.updateGameClock ms }

/-- The call of the engine that a click makes. -/
def request (c : Controller) (x y : Int) : Option Call :=
  (BoardMapper.toPosition c.engine.board x y).bind fun position =>
    c.selected.bind fun selected =>
      if position = selected then some (.jump selected)
      else
        (c.engine.board.pieceAt selected).bind fun selectedPiece =>
          if (c.engine.board.pieceAt position).any fun clicked => clicked.color = selectedPiece.color
          then none
          else some (.move selected position (duration selected position))

/-- The click makes the engine launch the piece: `isSome_launchOf` says that these are the
requests it accepts. -/
def Launches (c : Controller) (x y : Int) (ref : PieceRef) : Prop :=
  ∃ call m, c.request x y = some call ∧ c.engine.launchOf call = some m ∧ m.piece = ref

variable {c : Controller} {x y : Int}

/-- A click outside the board changes nothing. -/
theorem click_outside (h : BoardMapper.toPosition c.engine.board x y = none) : c.click x y = c := by
  unfold click
  rw [h]

/-- How a click ends. -/
inductive ClickOutcome (c : Controller) (x y : Int) : Controller → Prop where
  /-- Nothing happens. -/
  | idle (hnone : c.request x y = none) : ClickOutcome c x y c
  /-- A square is selected on which a piece stands. -/
  | selects (position : Position) (hnone : c.request x y = none)
      (hnew : c.selected ≠ some position) :
      ClickOutcome c x y { c with selected := some position }
  /-- The selection is given up. -/
  | deselects (hnone : c.request x y = none) : ClickOutcome c x y { c with selected := none }
  /-- A request is made for the selected square, and the selection is given up. -/
  | asks (selected : Position) (call : Call) (hcall : c.request x y = some call)
      (hselected : c.selected = some selected)
      (hkind : call = .jump selected ∨
        ∃ position, call = .move selected position (duration selected position)) :
      ClickOutcome c x y { engine := c.engine.call call, selected := none }

/-- **A click does nothing else.** -/
theorem click_cases (c : Controller) (x y : Int) : ClickOutcome c x y (c.click x y) := by
  -- the cases of the click, each with the request it makes
  have hrequest : c.request x y = (BoardMapper.toPosition c.engine.board x y).bind _ := rfl
  unfold click
  cases hposition : BoardMapper.toPosition c.engine.board x y with
  | none =>
    rw [hposition, Option.bind_none] at hrequest
    exact .idle hrequest
  -- a square was clicked; what follows depends on the selection
  | some position =>
    rw [hposition, Option.bind_some] at hrequest
    cases hselected : c.selected with
    | none =>
      rw [hselected, Option.bind_none] at hrequest
      dsimp only
      split
      · exact .selects position hrequest (by rw [hselected]; simp)
      · exact .idle hrequest
    | some selected =>
      rw [hselected, Option.bind_some] at hrequest
      dsimp only
      split
      · next heq =>
        rw [if_pos heq] at hrequest
        exact .asks selected _ hrequest hselected (Or.inl rfl)
      · next hne =>
        rw [if_neg hne] at hrequest
        have hnew : c.selected ≠ some position := by
          rw [hselected]
          exact fun h => hne (Option.some.inj h).symm
        split
        · next clicked piece hclicked hpiece =>
          rw [hpiece, Option.bind_some, hclicked] at hrequest
          split
          · next hsame =>
            rw [if_pos (by simpa using hsame)] at hrequest
            exact .selects position hrequest hnew
          · next hother =>
            rw [if_neg (by simpa using hother)] at hrequest
            exact .asks selected _ hrequest hselected (Or.inr ⟨position, rfl⟩)
        · next piece hclicked hpiece =>
          rw [hpiece, Option.bind_some, hclicked] at hrequest
          rw [if_neg (by simp)] at hrequest
          exact .asks selected _ hrequest hselected (Or.inr ⟨position, rfl⟩)
        · next hpiece =>
          rw [hpiece, Option.bind_none] at hrequest
          exact .deselects hrequest

/-- What a click launches stands on the selected square. -/
theorem Launches.selected {ref : PieceRef} (h : c.Launches x y ref) :
    ∃ p, c.selected = some p ∧ c.engine.board.getPiece p = some ref := by
  obtain ⟨call, m, hcall, hlaunch, rfl⟩ := h
  obtain ⟨hlaunchable, -⟩ := launchOf_eq_some hlaunch
  -- the piece launched stands on the square the motion starts from
  have hstart := (launchable_eq_some.mp hlaunchable).2.1
  have hcase := click_cases c x y
  generalize c.click x y = c' at hcase
  cases hcase with
  | idle hnone | selects _ hnone | deselects hnone =>
    exact absurd (hnone.symm.trans hcall) (by simp)
  | asks selected call' hcall' hselected hkind =>
    obtain rfl := Option.some.inj (hcall.symm.trans hcall')
    refine ⟨selected, hselected, ?_⟩
    -- both requests start on the selected square
    obtain rfl | ⟨position, rfl⟩ := hkind
    · obtain ⟨ref, -, rfl⟩ := Option.map_eq_some_iff.mp hlaunch
      exact hstart
    · obtain ⟨ref, -, hmotion⟩ := Option.bind_eq_some_iff.mp hlaunch
      obtain ⟨-, hmotion⟩ := Option.ite_none_right_eq_some.mp hmotion
      obtain rfl := Option.some.inj hmotion
      exact hstart

end Controller

/-! ### Clicks between ticks -/

/-- The pieces that arrive with a tick, each with its square. -/
def GameEngine.tickArrivals (e : GameEngine) (ms : Int) : List (Position × PieceRef) :=
  if e.gameOver then [] else (e.afterAdvance ms).arrivals (e.completedMotions ms)

/-- What stands on a square after a tick stood there before, or has arrived. -/
theorem GameEngine.getPiece_updateGameClock {e : GameEngine} {ms : Int} {p : Position}
    {ref : PieceRef} (h : (e.updateGameClock ms).board.getPiece p = some ref) :
    e.board.getPiece p = some ref ∨ (p, ref) ∈ e.tickArrivals ms := by
  unfold updateGameClock at h
  unfold tickArrivals
  split at h
  · exact Or.inl h
  · next hrunning =>
    rw [if_neg hrunning]
    exact getPiece_foldl_land h

/-- A controller, and the piece its selection is about, which it does not keep. -/
structure Clicking where
  controller : Controller
  /-- The piece that stood on the selected square at the click that selected it. -/
  chosen : Option PieceRef := none

namespace Clicking

/-- `Controller(engine)`. -/
def new (engine : GameEngine) : Clicking := { controller := { engine := engine } }

/-- The controller, and the object that was selected. -/
def step (s : Clicking) (i : Controller.Input) : Clicking where
  controller := s.controller.step i
  chosen :=
    match (s.controller.step i).selected with
    | none => none
    | some p =>
      if s.controller.selected = some p then s.chosen else s.controller.engine.board.getPiece p

/-- No tick brings another piece to the selected square. -/
def Keeps (s : Clicking) : Controller.Input → Prop
  | .click _ _ => True
  | .tick ms => ∀ arrival ∈ s.controller.engine.tickArrivals ms,
      s.controller.selected = some arrival.1 → s.chosen = some arrival.2

/-- Whether a tick keeps the selection can be computed. -/
instance (s : Clicking) : ∀ i, Decidable (s.Keeps i)
  | .click _ _ => instDecidableTrue
  | .tick _ => inferInstanceAs (Decidable (∀ arrival ∈ _, _))

/-- What stands on the selected square is the piece that was selected. -/
def Current (s : Clicking) : Prop :=
  ∀ p ref, s.controller.selected = some p → s.controller.engine.board.getPiece p = some ref →
    s.chosen = some ref

/-- What a click has to do. -/
structure ClickSound (s : Clicking) (x y : Int) : Prop where
  launched : ∀ ref, s.controller.Launches x y ref → s.chosen = some ref
  outside : ¬ (0 ≤ x ∧ x < BoardMapper.cellSize * s.controller.engine.board.numCols ∧
      0 ≤ y ∧ y < BoardMapper.cellSize * s.controller.engine.board.numRows) →
    s.controller.click x y = s.controller

/-- Every click of the run does what it has to do. -/
def AllSound (engine : GameEngine) (inputs : List Controller.Input) : Prop :=
  ∀ pre x y post, inputs = pre ++ .click x y :: post →
    (pre.foldl step (new engine)).ClickSound x y

/-- **Step lemma**: while the selection is kept, the selected object stands on the selected square.
-/
theorem Current.step {s : Clicking} (h : s.Current) (i : Controller.Input) (hkeeps : s.Keeps i) :
    (s.step i).Current := by
  intro p ref hselected hp
  unfold Clicking.step at hselected hp ⊢
  dsimp only at hselected hp ⊢
  rw [hselected]
  dsimp only
  cases i with
  | tick ms =>
    -- a tick leaves the selection alone, and only a landing brings a piece to its square
    change s.controller.selected = some p at hselected
    rw [if_pos hselected]
    obtain hbefore | harrives := GameEngine.getPiece_updateGameClock hp
    · exact h p ref hselected hbefore
    · exact hkeeps _ harrives hselected
  | click x y =>
    change (s.controller.click x y).selected = some p at hselected
    change (s.controller.click x y).engine.board.getPiece p = some ref at hp
    have hcase := Controller.click_cases s.controller x y
    generalize s.controller.click x y = c' at hcase hselected hp
    cases hcase with
    | idle =>
      rw [if_pos hselected]
      exact h p ref hselected hp
    | selects position hnone hnew =>
      -- what stands on the square now is what is remembered
      obtain rfl := Option.some.inj hselected
      rw [if_neg hnew]
      exact hp
    | deselects | asks => exact absurd hselected (by simp)

/-- And then a click launches the object that was chosen. -/
theorem Current.clickSound {s : Clicking} (h : s.Current) (x y : Int) : s.ClickSound x y := by
  refine ⟨fun ref hlaunches => ?_, fun houtside => ?_⟩
  · obtain ⟨p, hselected, hp⟩ := hlaunches.selected
    exact h p ref hselected hp
  · exact Controller.click_outside (BoardMapper.toPosition_eq_none_iff.mpr houtside)

end Clicking

/-- **What is launched is what was selected**, as long as no tick brings another piece to the
selected square. -/
theorem launches_chosen {engine : GameEngine} {inputs : List Controller.Input}
    (hguard : Run.Guarded Clicking.step (fun s i _ => s.Keeps i) (Clicking.new engine) inputs) :
    Clicking.AllSound engine inputs := by
  rintro pre x y post rfl
  have hpre := ((Run.guarded_append (Clicking.new engine) pre (.click x y :: post)).mp hguard).1
  have hcurrent : (pre.foldl Clicking.step (Clicking.new engine)).Current :=
    Run.Guarded.invariant (P := fun s _ => s.Current) (fun s i _ hs hok => hs.step i hok) hpre
      fun p ref hselected _ => absurd hselected (by simp [Clicking.new])
  exact hcurrent.clickSound x y

/-- A rook is selected and sent. -/
theorem launches_chosen_rook : Clicking.AllSound (.new (BoardParser.boardOf ["wR . bR"]))
    [.click 50 50, .tick 10, .click 150 50] :=
  launches_chosen (by decide +kernel)

/-- The black rook takes the white one on the selected square, and is sent in its place. -/
theorem not_allSound_captured :
    ¬ Clicking.AllSound (.new (BoardParser.boardOf ["wR . bR"]))
      [.click 250 50, .click 50 50, .click 50 50, .tick 2000, .click 150 50] := by
  intro h
  have hlast := h [.click 250 50, .click 50 50, .click 50 50, .tick 2000] 150 50 [] rfl
  have hlaunched := hlast.launched ⟨⟨0, 2⟩⟩
    ⟨.move ⟨0, 0⟩ ⟨0, 1⟩ 1000, ⟨2, ⟨⟨0, 2⟩⟩, ⟨0, 0⟩, ⟨0, 1⟩, 1000, 1000, false⟩,
      by decide +kernel, by decide +kernel, rfl⟩
  exact absurd hlaunched (by decide +kernel)

end KungFuChess
