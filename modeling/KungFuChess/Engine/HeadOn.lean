import KungFuChess.Engine.FlightInv
import KungFuChess.Engine.Legality

/-!
# Head-on collisions

`RealTimeArbiter._are_on_collision_course` works on signs and differences of coordinates.
`HeadOn` is what it is meant to find: two motions along one line, in opposite directions, the
second of which starts on a square that the first one passes.

The code takes every motion whose two coordinates change for a diagonal one. For the moves of
all pieces but the knight it is one, and the code finds the head-on motions exactly. A knight's
move is none: the code reads off it the diagonal ray of its quadrant, and finds a collision
with what comes the other way from a square of this ray, however the knight jumps over it
(`KnightMistaken`). Apart from that it is exact (`detectsHeadOn_iff`).
-/

namespace KungFuChess

open RealTimeArbiter Position BoardParser

/-! ### The definition -/

/-- A rank, a file, or a diagonal of either slope. -/
inductive Line where
  | rank (row : Int)
  | file (col : Int)
  | diagonal (difference : Int)
  | antidiagonal (sum : Int)
deriving DecidableEq, Repr

/-- The squares of a line. -/
def Line.Contains : Line → Position → Prop
  | .rank row, p => p.row = row
  | .file col, p => p.col = col
  | .diagonal difference, p => p.row - p.col = difference
  | .antidiagonal sum, p => p.row + p.col = sum

namespace Motion

variable (a b : Motion)

/-- The signs of the changes of row and column. -/
def direction : Int × Int := a.startPos.direction a.endPos

/-- The two go in opposite directions. -/
def Opposite : Prop := b.direction = (-a.direction.1, -a.direction.2)

/-- The motion runs along the line. -/
def RunsAlong (line : Line) : Prop := line.Contains a.startPos ∧ line.Contains a.endPos

/-- The motion goes along one of the lines of the board. -/
def Straight : Prop := ∃ line, a.RunsAlong line

/-- The squares the motion passes after its start, the end included. -/
def Passes (p : Position) : Prop := a.startPos.Between a.endPos p ∨ p = a.endPos

/-- How far the code looks along the ray of the direction. -/
def reach : Nat :=
  if a.endPos.row = a.startPos.row then (a.endPos.col - a.startPos.col).natAbs
  else (a.endPos.row - a.startPos.row).natAbs

end Motion

/-- Two motions along one line run into each other. -/
structure HeadOn (a b : Motion) : Prop where
  line : ∃ line, a.RunsAlong line ∧ b.RunsAlong line
  opposite : a.Opposite b
  meets : a.Passes b.startPos

/-! ### What the code computes -/

section Course

variable {a b : Motion}

/-- The sign of the source is that of Mathlib. -/
theorem sign_eq (x : Int) : RealTimeArbiter.sign x = x.sign := by
  unfold RealTimeArbiter.sign
  rcases lt_trichotomy x 0 with hx | rfl | hx
  · rw [if_neg (by omega), if_pos hx, Int.sign_eq_neg_one_of_neg hx]
  · rfl
  · rw [if_pos hx, Int.sign_eq_one_of_pos hx]

/-- The three signs. -/
theorem sign_cases (x : Int) :
    x < 0 ∧ x.sign = -1 ∨ x = 0 ∧ x.sign = 0 ∨ 0 < x ∧ x.sign = 1 := by
  rcases lt_trichotomy x 0 with hx | hx | hx
  · exact Or.inl ⟨hx, Int.sign_eq_neg_one_of_neg hx⟩
  · exact Or.inr (Or.inl ⟨hx, Int.sign_eq_zero_iff_zero.mpr hx⟩)
  · exact Or.inr (Or.inr ⟨hx, Int.sign_eq_one_of_pos hx⟩)

/-- The code looks for a start on the ray of the direction, within the reach. -/
theorem areOnCollisionCourse_iff (hne : a.startPos ≠ a.endPos) :
    areOnCollisionCourse a b = true ↔
      a.Opposite b ∧
        ∃ k, 0 < k ∧ k ≤ a.reach ∧ b.startPos = a.startPos.along a.direction k := by
  have hends := eq_iff.not.mp hne
  have hreach : a.reach = if a.endPos.row = a.startPos.row
      then (a.endPos.col - a.startPos.col).natAbs else (a.endPos.row - a.startPos.row).natAbs := rfl
  generalize a.reach = n at hreach ⊢
  unfold areOnCollisionCourse Motion.Opposite Motion.direction Position.direction
  simp only [sign_eq, Prod.mk.injEq, along, eq_iff]
  generalize hu : (b.endPos.row - b.startPos.row).sign = u
  generalize hv : (b.endPos.col - b.startPos.col).sign = v
  by_cases hopposite : u = -(a.endPos.row - a.startPos.row).sign ∧
      v = -(a.endPos.col - a.startPos.col).sign
  · rw [and_iff_right hopposite, if_neg (by omega)]
    have hmoves : ¬ ((a.endPos.row - a.startPos.row).sign = 0 ∧
        (a.endPos.col - a.startPos.col).sign = 0) := by
      rw [Int.sign_eq_zero_iff_zero, Int.sign_eq_zero_iff_zero]
      omega
    rw [if_neg hmoves]
    rw [Int.abs_eq_natAbs, Int.abs_eq_natAbs, Int.abs_eq_natAbs]
    -- eight directions; the ninth case is no motion
    obtain ⟨hx, hsx⟩ | ⟨hx, hsx⟩ | ⟨hx, hsx⟩ := sign_cases (a.endPos.row - a.startPos.row) <;>
      obtain ⟨hy, hsy⟩ | ⟨hy, hsy⟩ | ⟨hy, hsy⟩ := sign_cases (a.endPos.col - a.startPos.col) <;>
      simp [hsx, hsy, -Nat.cast_natAbs] at hmoves ⊢
    all_goals
      split at hreach <;> try omega
    all_goals
      constructor
      · intro h
        refine ⟨max (b.startPos.row - a.startPos.row).natAbs
          (b.startPos.col - a.startPos.col).natAbs, ?_⟩
        omega
      · rintro ⟨k, hk⟩
        omega
  · rw [if_pos (by omega)]
    simp [hopposite]

/-- A motion is straight if its ends are in line or on a diagonal. -/
theorem straight_iff : a.Straight ↔ a.startPos.InLine a.endPos ∨ a.startPos.OnDiagonal a.endPos := by
  unfold Motion.Straight Motion.RunsAlong InLine OnDiagonal
  rw [Int.abs_eq_natAbs, Int.abs_eq_natAbs]
  constructor
  -- along each of the four kinds of line, one difference is zero or the two agree up to sign
  · rintro ⟨_ | _ | _ | _, hstart, hend⟩ <;> unfold Line.Contains at hstart hend <;> omega
  · intro h
    by_cases hrow : a.startPos.row = a.endPos.row
    · exact ⟨.rank _, rfl, hrow.symm⟩
    by_cases hcol : a.startPos.col = a.endPos.col
    · exact ⟨.file _, rfl, hcol.symm⟩
    by_cases hslope : a.endPos.row - a.startPos.row = a.endPos.col - a.startPos.col
    · exact ⟨.diagonal _, rfl, by unfold Line.Contains; omega⟩
    · exact ⟨.antidiagonal _, rfl, by unfold Line.Contains; omega⟩

/-- A direction belongs to a line through the square. -/
theorem exists_line {d : Int × Int} (hd : IsDirection d) (p : Position) :
    ∃ line : Line, ∀ k : Int, line.Contains ⟨p.row + k * d.1, p.col + k * d.2⟩ := by
  -- one case for each of the nine pairs of signs; the line is the one of its slope
  obtain ⟨dr, dc⟩ := d
  obtain rfl | rfl | rfl := hd.row <;> obtain rfl | rfl | rfl := hd.col
  · exact ⟨.diagonal (p.row - p.col), fun k => by unfold Line.Contains; ring⟩
  · exact ⟨.file p.col, fun k => by unfold Line.Contains; ring⟩
  · exact ⟨.antidiagonal (p.row + p.col), fun k => by unfold Line.Contains; ring⟩
  · exact ⟨.rank p.row, fun k => by unfold Line.Contains; ring⟩
  · exact absurd rfl hd.moves
  · exact ⟨.rank p.row, fun k => by unfold Line.Contains; ring⟩
  · exact ⟨.antidiagonal (p.row + p.col), fun k => by unfold Line.Contains; ring⟩
  · exact ⟨.file p.col, fun k => by unfold Line.Contains; ring⟩
  · exact ⟨.diagonal (p.row - p.col), fun k => by unfold Line.Contains; ring⟩

/-- A move has a direction. -/
theorem isDirection_direction (hne : a.startPos ≠ a.endPos) : IsDirection a.direction := by
  have hends := eq_iff.not.mp hne
  unfold Motion.direction Position.direction
  obtain ⟨hx, hsx⟩ | ⟨hx, hsx⟩ | ⟨hx, hsx⟩ := sign_cases (a.endPos.row - a.startPos.row) <;>
    obtain ⟨hy, hsy⟩ | ⟨hy, hsy⟩ | ⟨hy, hsy⟩ := sign_cases (a.endPos.col - a.startPos.col) <;>
    rw [hsx, hsy]
  all_goals first | decide | omega

/-- For a straight motion the reach is its length. -/
theorem reach_eq (h : a.Straight) : a.reach = a.startPos.distance a.endPos := by
  have hline := straight_iff.mp h
  unfold InLine OnDiagonal at hline
  rw [Int.abs_eq_natAbs, Int.abs_eq_natAbs] at hline
  unfold Motion.reach distance
  split <;> omega

/-- What a straight motion passes are the first squares of its ray, as many as it is long. -/
theorem passes_iff (h : a.Straight) (hne : a.startPos ≠ a.endPos) {p : Position} :
    a.Passes p ↔ ∃ k, 0 < k ∧ k ≤ a.reach ∧ p = a.startPos.along a.direction k := by
  -- the end square is the last of them
  have hend : a.endPos = a.startPos.along a.direction a.reach := by
    rw [reach_eq h]
    exact eq_along_iff.mpr (straight_iff.mp h)
  have hpos : 0 < a.reach := by
    refine Nat.pos_of_ne_zero fun hzero => hne ?_
    rw [hzero, along_zero] at hend
    exact hend.symm
  unfold Motion.Passes Between
  rw [← reach_eq h]
  constructor
  · rintro (⟨k, hk, hlt, rfl⟩ | rfl)
    · exact ⟨k, hk, hlt.le, rfl⟩
    · exact ⟨a.reach, hpos, le_rfl, hend⟩
  · rintro ⟨k, hk, hle, rfl⟩
    obtain hlt | rfl := Nat.lt_or_eq_of_le hle
    · exact Or.inl ⟨k, hk, hlt, rfl⟩
    · exact Or.inr hend.symm

/-- Head-on motions are straight, opposite, and the second starts where the first passes. -/
theorem headOn_iff (hne : a.startPos ≠ a.endPos) :
    HeadOn a b ↔ a.Straight ∧ b.Straight ∧ a.Opposite b ∧
      ∃ k, 0 < k ∧ k ≤ a.reach ∧ b.startPos = a.startPos.along a.direction k := by
  constructor
  · rintro ⟨⟨line, ha, hb⟩, hopposite, hmeets⟩
    exact ⟨⟨line, ha⟩, ⟨line, hb⟩, hopposite, (passes_iff ⟨line, ha⟩ hne).mp hmeets⟩
  · rintro ⟨ha, hb, hopposite, k, hk, hle, hstart⟩
    refine ⟨?_, hopposite, (passes_iff ha hne).mpr ⟨k, hk, hle, hstart⟩⟩
    -- all four squares are on the line of the ray of `a`
    obtain ⟨line, hline⟩ := exists_line (isDirection_direction hne) a.startPos
    have hend := eq_along_iff.mpr (straight_iff.mp ha)
    have hend' := eq_along_iff.mpr (straight_iff.mp hb)
    have hdirection : b.startPos.direction b.endPos = (-a.direction.1, -a.direction.2) := hopposite
    refine ⟨line, ⟨?_, ?_⟩, ?_, ?_⟩
    · simpa using hline 0
    · rw [hend]
      exact hline (a.startPos.distance a.endPos)
    · rw [hstart]
      exact hline k
    · have hback := hline (k - b.startPos.distance b.endPos)
      rw [hend', hdirection, along]
      rw [hstart] at hback ⊢
      convert hback using 2
      · simp only [along]
        ring
      · simp only [along]
        ring

end Course

/-! ### Exactness -/

/-- The code finds head-on motions, and leaves alone what does not run along a line. -/
structure DetectsHeadOn (a b : Motion) : Prop where
  detects : areOnCollisionCourse a b = true ↔ HeadOn a b
  spares : ¬ a.Straight ∨ ¬ b.Straight → areOnCollisionCourse a b = false
  keeps : ¬ a.Straight ∨ ¬ b.Straight → a.motionId ≠ b.motionId →
    resolveCommonRouteCollision [a, b] b = [a, b]

/-- A knight is taken for a slider: one of the two is a knight, they head for opposite
quadrants, and the second starts on the diagonal ray of the first one's quadrant, no more rows
away than the first one goes. -/
structure KnightMistaken (a b : Motion) : Prop where
  knight : a.startPos.KnightStep a.endPos ∨ b.startPos.KnightStep b.endPos
  opposite : a.Opposite b
  onRay : ∃ k, 0 < k ∧ k ≤ (a.endPos.row - a.startPos.row).natAbs ∧
    b.startPos = a.startPos.along a.direction k

section Exact

variable {a b : Motion}

/-- Among the shapes of moves, only the knight's is not straight. -/
theorem not_straight_iff (h : a.startPos.InLine a.endPos ∨ a.startPos.OnDiagonal a.endPos ∨
    a.startPos.KnightStep a.endPos) : ¬ a.Straight ↔ a.startPos.KnightStep a.endPos := by
  rw [straight_iff]
  unfold InLine OnDiagonal KnightStep at *
  rw [Int.abs_eq_natAbs, Int.abs_eq_natAbs] at *
  omega

/-- Opposite motions change their rows both or neither. -/
theorem rows_of_opposite (h : a.Opposite b) :
    a.endPos.row = a.startPos.row ↔ b.endPos.row = b.startPos.row := by
  have hrow := congrArg Prod.fst h
  unfold Motion.direction Position.direction at hrow
  rw [← sub_eq_zero, ← sub_eq_zero (a := b.endPos.row), ← Int.sign_eq_zero_iff_zero,
    ← Int.sign_eq_zero_iff_zero (a := b.endPos.row - b.startPos.row)]
  simp only at hrow
  omega

/-- **Head-on detection is exact, but for knights.** For two motions that the rules allow, the
code finds what it is meant to find iff it does not take a knight for a slider. -/
theorem detectsHeadOn_iff {boardA boardB : Board}
    (ha : RuleEngine.isMoveLegal boardA a.startPos a.endPos = true)
    (hb : RuleEngine.isMoveLegal boardB b.startPos b.endPos = true) :
    DetectsHeadOn a b ↔ ¬ KnightMistaken a b := by
  obtain ⟨hne, hshape⟩ := shape_of_isMoveLegal ha
  obtain ⟨-, hshape'⟩ := shape_of_isMoveLegal hb
  have hknight := not_straight_iff hshape
  have hknight' := not_straight_iff hshape'
  have hcourse := areOnCollisionCourse_iff (b := b) hne
  have hheadOn := headOn_iff (b := b) hne
  by_cases hboth : a.Straight ∧ b.Straight
  · -- neither is a knight, and the code looks exactly where the first one passes
    have hspared : ¬ (¬ a.Straight ∨ ¬ b.Straight) := by simp [hboth]
    refine iff_of_true ⟨?_, fun h => absurd h hspared, fun h => absurd h hspared⟩ ?_
    · rw [hcourse, hheadOn, and_iff_right hboth.1, and_iff_right hboth.2]
    · rintro ⟨h | h, -, -⟩
      · exact hknight.mpr h hboth.1
      · exact hknight'.mpr h hboth.2
  · rw [not_and_or] at hboth
    -- one of the two is a knight, so whatever the code finds is a mistake
    have hmistaken : KnightMistaken a b ↔ areOnCollisionCourse a b = true := by
      rw [hcourse]
      have hreach : a.Opposite b → a.reach = (a.endPos.row - a.startPos.row).natAbs := by
        intro hopposite
        refine if_neg fun hrow => ?_
        have hrow' := (rows_of_opposite hopposite).mp hrow
        rw [hknight, hknight'] at hboth
        unfold KnightStep at hboth
        rw [hrow, hrow', sub_self, sub_self, abs_zero] at hboth
        omega
      constructor
      · rintro ⟨-, hopposite, hray⟩
        exact ⟨hopposite, by rwa [hreach hopposite]⟩
      · rintro ⟨hopposite, hray⟩
        exact ⟨hboth.imp hknight.mp hknight'.mp, hopposite, by rwa [hreach hopposite] at hray⟩
    have hnot : ¬ HeadOn a b := fun h => hboth.elim (fun hno => hno (hheadOn.mp h).1)
      fun hno => hno (hheadOn.mp h).2.1
    rw [hmistaken, Bool.not_eq_true]
    constructor
    · exact fun h => h.spares hboth
    · intro hfalse
      refine ⟨iff_of_false (by simp [hfalse]) hnot, fun _ => hfalse, fun _ _ => ?_⟩
      rw [resolveCommonRouteCollision, if_neg]
      simp [meetsHeadOn, hfalse]

end Exact

/-- Two rooks on an open row, sent at each other. -/
theorem detectsHeadOn_iff_rooks :
    DetectsHeadOn ⟨1, ⟨⟨0, 0⟩⟩, ⟨0, 0⟩, ⟨0, 3⟩, 3000, 3000, false⟩
      ⟨2, ⟨⟨0, 3⟩⟩, ⟨0, 3⟩, ⟨0, 0⟩, 3000, 3000, false⟩ := by
  have hlegal : RuleEngine.isMoveLegal (boardOf ["wR . . bR"]) ⟨0, 0⟩ ⟨0, 3⟩ = true := by decide
  have hlegal' : RuleEngine.isMoveLegal (boardOf ["wR . . bR"]) ⟨0, 3⟩ ⟨0, 0⟩ = true := by decide
  refine (detectsHeadOn_iff hlegal hlegal').mpr ?_
  rintro ⟨hknight, -, -⟩
  simp [KnightStep] at hknight

/-- A bishop goes to the square that a knight has jumped off, and its launch is dropped: the
knight is found to come the other way. -/
theorem not_detectsHeadOn_knight :
    ∃ knight bishop,
      ((GameEngine.new (boardOf ["wN . .", ". bB ."])).play
        [.move ⟨0, 0⟩ ⟨1, 2⟩ 2000]).arbiter.activeMotions = [knight] ∧
      ((GameEngine.new (boardOf ["wN . .", ". bB ."])).play
        [.move ⟨0, 0⟩ ⟨1, 2⟩ 2000]).launchOf (.move ⟨1, 1⟩ ⟨0, 0⟩ 1000) = some bishop ∧
      ((GameEngine.new (boardOf ["wN . .", ". bB ."])).play
        [.move ⟨0, 0⟩ ⟨1, 2⟩ 2000]).cancelsLaunch (.move ⟨1, 1⟩ ⟨0, 0⟩ 1000) = true ∧
      ¬ DetectsHeadOn knight bishop := by
  refine ⟨⟨1, ⟨⟨0, 0⟩⟩, ⟨0, 0⟩, ⟨1, 2⟩, 2000, 2000, false⟩,
    ⟨2, ⟨⟨1, 1⟩⟩, ⟨1, 1⟩, ⟨0, 0⟩, 1000, 1000, false⟩, by decide, by decide, by decide, fun h => ?_⟩
  have hknight : ¬ Motion.Straight ⟨1, ⟨⟨0, 0⟩⟩, ⟨0, 0⟩, ⟨1, 2⟩, 2000, 2000, false⟩ := by
    rw [straight_iff]
    decide
  exact absurd (h.spares (Or.inl hknight)) (by decide)

end KungFuChess
