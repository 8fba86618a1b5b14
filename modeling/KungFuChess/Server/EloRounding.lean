import Mathlib.Algebra.Order.Ring.Abs
import Mathlib.Data.Rat.Floor
import Mathlib.Tactic.Linarith
import Mathlib.Tactic.Positivity
import KungFuChess.Server.Domain

/-!
# Rounded ratings

`calc_elo` takes `k * (1 - p)` points from the loser and gives them to the winner, and rounds
both ratings for itself. Rounding moves a number by at most a half, and by less unless it stands
half way between two integers (`abs_roundHalfEven_sub_lt`). So the two roundings cancel, except
at the half points, where the parity of each rating decides and a point may appear or vanish
(`calcElo_sound`).
-/

namespace KungFuChess

/-! ### Rounding half to even -/

section Rounding

variable {x y : ℚ}

/-- Half way between two integers. -/
def IsHalf (x : ℚ) : Prop := ∃ m : Int, Odd m ∧ x = m / 2

/-- A half point is half way above its floor. -/
theorem isHalf_iff : IsHalf x ↔ x - ⌊x⌋ = 1 / 2 := by
  constructor
  · rintro ⟨m, ⟨n, rfl⟩, hx⟩
    -- half an odd number has its integer part below it
    have hfloor : ⌊x⌋ = n := by
      rw [Int.floor_eq_iff, hx]
      push_cast
      constructor <;> linarith
    rw [hfloor, hx]
    push_cast
    ring
  · intro hhalf
    refine ⟨2 * ⌊x⌋ + 1, ⟨⌊x⌋, rfl⟩, ?_⟩
    push_cast
    linarith

/-- The integer below if it is nearer, the integer above if that one is; between equals the
even one. -/
theorem roundHalfEven_cases (x : ℚ) :
    roundHalfEven x = ⌊x⌋ ∧ x - ⌊x⌋ ≤ 1 / 2 ∨
      roundHalfEven x = ⌊x⌋ + 1 ∧ 1 / 2 ≤ x - ⌊x⌋ := by
  unfold roundHalfEven
  split
  · next hbelow => exact Or.inl ⟨rfl, hbelow.le⟩
  next hnot =>
  split
  · next habove => exact Or.inr ⟨rfl, habove.le⟩
  next hnot' =>
  have hhalf : x - ⌊x⌋ = 1 / 2 := le_antisymm (not_lt.mp hnot') (not_lt.mp hnot)
  split
  · exact Or.inl ⟨rfl, hhalf.le⟩
  · exact Or.inr ⟨rfl, hhalf.ge⟩

theorem floor_le_roundHalfEven (x : ℚ) : ⌊x⌋ ≤ roundHalfEven x := by
  obtain ⟨hround, -⟩ | ⟨hround, -⟩ := roundHalfEven_cases x <;> omega

theorem roundHalfEven_le_floor_add_one (x : ℚ) : roundHalfEven x ≤ ⌊x⌋ + 1 := by
  obtain ⟨hround, -⟩ | ⟨hround, -⟩ := roundHalfEven_cases x <;> omega

@[simp] theorem roundHalfEven_intCast (n : Int) : roundHalfEven (n : ℚ) = n := by
  unfold roundHalfEven
  rw [Int.floor_intCast, sub_self, if_pos (by norm_num)]

/-- Rounding is monotone. -/
theorem roundHalfEven_mono (h : x ≤ y) : roundHalfEven x ≤ roundHalfEven y := by
  obtain hlt | heq := (Int.floor_mono h).lt_or_eq
  · -- an integer lies in between
    calc roundHalfEven x ≤ ⌊x⌋ + 1 := roundHalfEven_le_floor_add_one x
      _ ≤ ⌊y⌋ := hlt
      _ ≤ roundHalfEven y := floor_le_roundHalfEven y
  -- both have the same integer part, and only x rounded up and y rounded down is in question
  obtain ⟨hx, -⟩ | ⟨hx, hhalf⟩ := roundHalfEven_cases x
  · calc roundHalfEven x = ⌊y⌋ := hx.trans heq
      _ ≤ roundHalfEven y := floor_le_roundHalfEven y
  obtain ⟨-, hhalf'⟩ | ⟨hy, -⟩ := roundHalfEven_cases y
  · -- both stand at the same half point
    have hfloor : (⌊x⌋ : ℚ) = ⌊y⌋ := congrArg Int.cast heq
    rw [le_antisymm h (by linarith)]
  · rw [hx, hy, heq]

/-- A number moves by a half at most. -/
theorem abs_roundHalfEven_sub_le (x : ℚ) : |(roundHalfEven x : ℚ) - x| ≤ 1 / 2 := by
  have hfloor : (⌊x⌋ : ℚ) ≤ x := Int.floor_le x
  have hlt : x < ⌊x⌋ + 1 := Int.lt_floor_add_one x
  rw [abs_le]
  obtain ⟨hround, hhalf⟩ | ⟨hround, hhalf⟩ := roundHalfEven_cases x
  · rw [hround]
    constructor <;> linarith
  · rw [hround]
    push_cast
    constructor <;> linarith

/-- Off the half points a number moves by less than a half. -/
theorem abs_roundHalfEven_sub_lt (h : ¬ IsHalf x) : |(roundHalfEven x : ℚ) - x| < 1 / 2 := by
  rw [isHalf_iff] at h
  have hfloor : (⌊x⌋ : ℚ) ≤ x := Int.floor_le x
  have hlt : x < ⌊x⌋ + 1 := Int.lt_floor_add_one x
  rw [abs_lt]
  obtain ⟨hround, hhalf⟩ | ⟨hround, hhalf⟩ := roundHalfEven_cases x
  · -- rounded down from less than a half
    have hhalf' := lt_of_le_of_ne hhalf h
    rw [hround]
    constructor <;> linarith
  · -- rounded up from more than a half
    have hhalf' := lt_of_le_of_ne hhalf (Ne.symm h)
    rw [hround]
    push_cast
    constructor <;> linarith

/-- The half points are the same seen from any integer, and from above as from below. -/
theorem isHalf_intCast_add (n : Int) : IsHalf (n + x) ↔ IsHalf x := by
  rw [isHalf_iff, isHalf_iff, Int.floor_intCast_add]
  push_cast
  rw [add_sub_add_left_eq_sub]

theorem IsHalf.neg (h : IsHalf x) : IsHalf (-x) := by
  obtain ⟨m, hm, rfl⟩ := h
  exact ⟨-m, hm.neg, by push_cast; ring⟩

/-- An integer shifts no half point. -/
theorem isHalf_intCast_sub (n : Int) : IsHalf (n - x) ↔ IsHalf x := by
  rw [sub_eq_add_neg, isHalf_intCast_add]
  refine ⟨fun h => ?_, IsHalf.neg⟩
  rw [← neg_neg x]
  exact h.neg

/-- A number taken from one integer and given to another: only the two roundings are left in the
sum. -/
theorem roundHalfEven_add_sub_cast (m n : Int) (x : ℚ) :
    ((roundHalfEven (m + x) + roundHalfEven (n - x) - (m + n) : Int) : ℚ) =
      (roundHalfEven (m + x) - (m + x)) + (roundHalfEven (n - x) - (n - x)) := by
  push_cast
  ring

/-- Two opposite roundings miss the sum by one point at most. -/
theorem roundHalfEven_add_sub_near (m n : Int) (x : ℚ) :
    |roundHalfEven (m + x) + roundHalfEven (n - x) - (m + n)| ≤ 1 := by
  have hadd := abs_roundHalfEven_sub_le (m + x)
  have hsub := abs_roundHalfEven_sub_le (n - x)
  have hsum := roundHalfEven_add_sub_cast m n x
  generalize roundHalfEven (m + x) + roundHalfEven (n - x) - (m + n) = d at hsum ⊢
  have hd : |(d : ℚ)| ≤ 1 := by
    calc |(d : ℚ)| ≤ _ := hsum ▸ abs_add_le _ _
      _ ≤ 1 / 2 + 1 / 2 := add_le_add hadd hsub
      _ = 1 := by norm_num
  exact_mod_cast hd

/-- Off the half points the sum is an integer nearer to zero than one. -/
theorem roundHalfEven_add_sub (m n : Int) (h : ¬ IsHalf x) :
    roundHalfEven (m + x) + roundHalfEven (n - x) = m + n := by
  have hadd := abs_roundHalfEven_sub_lt (mt (isHalf_intCast_add m).mp h)
  have hsub := abs_roundHalfEven_sub_lt (mt (isHalf_intCast_sub n).mp h)
  have hsum := roundHalfEven_add_sub_cast m n x
  refine sub_eq_zero.mp ?_
  generalize roundHalfEven (m + x) + roundHalfEven (n - x) - (m + n) = d at hsum ⊢
  have hd : |(d : ℚ)| < 1 := by
    calc |(d : ℚ)| ≤ _ := hsum ▸ abs_add_le _ _
      _ < 1 / 2 + 1 / 2 := add_lt_add hadd hsub
      _ = 1 := by norm_num
  exact Int.abs_lt_one_iff.mp (by exact_mod_cast hd)

end Rounding

/-! ### The new ratings -/

/-- What the new ratings of winner and loser should be, if `points` change hands before they
are rounded and at most `k` may. -/
structure EloSound (winnerElo loserElo k : Int) (points : ℚ) (new : Int × Int) : Prop where
  winner_ge : winnerElo ≤ new.1
  winner_le : new.1 ≤ winnerElo + k
  loser_ge : loserElo - k ≤ new.2
  loser_le : new.2 ≤ loserElo
  conserved : ¬ IsHalf points → new.1 + new.2 = winnerElo + loserElo
  near : |new.1 + new.2 - (winnerElo + loserElo)| ≤ 1

section Elo

variable {p : ℚ} {winnerElo loserElo k : Int}

/-- Both ratings are rounded for themselves. -/
theorem calcElo_eq (p : ℚ) (winnerElo loserElo k : Int) :
    calcElo (fun _ _ => p) winnerElo loserElo k =
      (roundHalfEven (winnerElo + k * (1 - p)), roundHalfEven (loserElo - k * (1 - p))) := by
  unfold calcElo
  dsimp only
  rw [zero_sub, mul_neg, ← sub_eq_add_neg]

/-- **Elo conserves rating up to rounding**, and gives the winner the less the surer the win. -/
theorem calcElo_sound (p : ℚ) (hpos : 0 < p) (hlt : p < 1) (winnerElo loserElo k : Int)
    (hk : 0 ≤ k) :
    EloSound winnerElo loserElo k (k * (1 - p)) (calcElo (fun _ _ => p) winnerElo loserElo k) ∧
      ∀ p', p ≤ p' → p' < 1 → (calcElo (fun _ _ => p') winnerElo loserElo k).1 ≤
        (calcElo (fun _ _ => p) winnerElo loserElo k).1 := by
  have hk' : (0 : ℚ) ≤ k := by exact_mod_cast hk
  have hpoints : 0 ≤ (k : ℚ) * (1 - p) := mul_nonneg hk' (by linarith)
  have hpoints' : (k : ℚ) * (1 - p) ≤ k := mul_le_of_le_one_right hk' (by linarith)
  constructor
  · -- the bounds are integers, which rounding leaves alone
    rw [calcElo_eq]
    generalize (k : ℚ) * (1 - p) = points at hpoints hpoints'
    refine ⟨?_, ?_, ?_, ?_, roundHalfEven_add_sub winnerElo loserElo,
      roundHalfEven_add_sub_near winnerElo loserElo points⟩
    · calc winnerElo = roundHalfEven (winnerElo : ℚ) := (roundHalfEven_intCast _).symm
        _ ≤ roundHalfEven (winnerElo + points) := roundHalfEven_mono (by linarith)
    · calc roundHalfEven (winnerElo + points)
          ≤ roundHalfEven ((winnerElo + k : Int) : ℚ) :=
            roundHalfEven_mono (by push_cast; linarith)
        _ = winnerElo + k := roundHalfEven_intCast _
    · calc loserElo - k = roundHalfEven ((loserElo - k : Int) : ℚ) :=
            (roundHalfEven_intCast _).symm
        _ ≤ roundHalfEven (loserElo - points) := roundHalfEven_mono (by push_cast; linarith)
    · calc roundHalfEven (loserElo - points) ≤ roundHalfEven (loserElo : ℚ) :=
            roundHalfEven_mono (by linarith)
        _ = loserElo := roundHalfEven_intCast _
  · intro p' hle hlt'
    rw [calcElo_eq, calcElo_eq]
    refine roundHalfEven_mono ?_
    have hless : (k : ℚ) * (1 - p') ≤ k * (1 - p) := mul_le_mul_of_nonneg_left (by linarith) hk'
    linarith

/-- Two equal players: sixteen points change hands. -/
theorem calcElo_sound_equal :
    EloSound 1200 1200 32 ((32 : Int) * (1 - 1 / 2)) (1216, 1184) := by
  have hnew : calcElo (fun _ _ => 1 / 2) 1200 1200 32 = (1216, 1184) := by decide +kernel
  rw [← hnew]
  exact (calcElo_sound (1 / 2) (by norm_num) (by norm_num) 1200 1200 32 (by decide)).1

/-- At a half point a point may vanish: one half of a point changes hands here. -/
example : calcElo (fun _ _ => 1 / 2) 1200 1201 1 = (1200, 1200) := by decide +kernel

end Elo

end KungFuChess
