import KungFuChess.Library.Totals
import KungFuChess.Server.EloRounding
import KungFuChess.Server.EventRule
import KungFuChess.Server.RatingWrites

/-!
# The sum of all ratings

Elo moves points from one player to another, so what all ratings together are above the start
rating should stay what it is. Each result rounds both ratings for itself and may make or lose a
point; and a result whose second write raises has moved the points on one side only, 32 of them at
most. `RatingAccount` says that nothing else changes the sum, in terms of the writes that have gone
through: all but `lost` of them come in pairs, and there is one that has raised for each of the lost
ones.
-/

namespace KungFuChess

open Effect RoomService GameService

/-! ### The property -/

/-- What the ratings in the user table are above the start rating, together. -/
def Server.ratingSurplus (s : Server) : Int := s.users.total fun user => user.elo - 1200

/-- The writes of a rating that have gone through. -/
def Server.writesDone (s : Server) : Nat := s.setEloCalls.countP fun call => !call.raised

/-- The writes of a rating that have raised. -/
def Server.writesRaised (s : Server) : Nat := s.setEloCalls.countP SetEloCall.raised

/-- The sum of the ratings has moved by a point for each pair of writes at most, and by 32 for each
write that has lost its second. -/
def RatingAccount (s t : Server) : Prop :=
  ∃ pairs lost : Nat, t.writesDone = s.writesDone + 2 * pairs + lost ∧
    s.writesRaised + lost ≤ t.writesRaised ∧
    |t.ratingSurplus - s.ratingSurplus| ≤ pairs + 32 * lost

/-! ### The new ratings -/

section NewRatings

variable {p : ℚ}

/-- The two new ratings miss the old sum by a point at most. -/
theorem newRatings_near (cfg : Config) (winner : Color) (whiteElo blackElo : Int) :
    |(newRatings cfg winner whiteElo blackElo).1 + (newRatings cfg winner whiteElo blackElo).2 -
      (whiteElo + blackElo)| ≤ 1 := by
  have hcalc : ∀ a b, |(calcElo cfg.expectedWinner a b 32).1 + (calcElo cfg.expectedWinner a b 32).2 -
      (a + b)| ≤ 1 := by
    intro a b
    have hnew : calcElo cfg.expectedWinner a b 32 = _ := calcElo_eq (cfg.expectedWinner a b) a b 32
    rw [hnew]
    exact roundHalfEven_add_sub_near a b _
  cases winner with
  | w => exact hcalc whiteElo blackElo
  | b =>
    change |(calcElo _ _ _ _).2 + (calcElo _ _ _ _).1 - _| ≤ 1
    rw [add_comm, add_comm whiteElo]
    exact hcalc blackElo whiteElo

/-- Rounding keeps a number between the integers that it lies between. -/
theorem roundHalfEven_mem {x : ℚ} {m n : Int} (hm : (m : ℚ) ≤ x) (hn : x ≤ n) :
    m ≤ roundHalfEven x ∧ roundHalfEven x ≤ n := by
  have hbelow := roundHalfEven_mono hm
  have habove := roundHalfEven_mono hn
  rw [roundHalfEven_intCast] at hbelow habove
  exact ⟨hbelow, habove⟩

/-- White's rating moves by 32 points at most. -/
theorem newRatings_fst (cfg : Config) (winner : Color) (whiteElo blackElo : Int)
    (hexpected : ∀ a b, 0 ≤ cfg.expectedWinner a b ∧ cfg.expectedWinner a b ≤ 1) :
    |(newRatings cfg winner whiteElo blackElo).1 - whiteElo| ≤ 32 := by
  -- the winner gains what the formula says, between none and all of the 32 points
  rw [abs_le]
  cases winner with
  | w =>
    obtain ⟨hlow, hhigh⟩ := hexpected whiteElo blackElo
    have hmem : whiteElo ≤ _ ∧ _ ≤ whiteElo + 32 :=
      roundHalfEven_mem (x := whiteElo + (32 : Int) * (1 - cfg.expectedWinner whiteElo blackElo))
        (by push_cast; linarith) (by push_cast; linarith)
    change -32 ≤ roundHalfEven _ - whiteElo ∧ roundHalfEven _ - whiteElo ≤ 32
    omega
  | b =>
    obtain ⟨hlow, hhigh⟩ := hexpected blackElo whiteElo
    have hmem : whiteElo - 32 ≤ _ ∧ _ ≤ whiteElo :=
      roundHalfEven_mem
        (x := whiteElo + (32 : Int) * (0 - (1 - cfg.expectedWinner blackElo whiteElo)))
        (by push_cast; linarith) (by push_cast; linarith)
    change -32 ≤ roundHalfEven _ - whiteElo ∧ roundHalfEven _ - whiteElo ≤ 32
    omega

end NewRatings

/-! ### Writes -/

section Writes

variable {cfg : Config} {env : Env} {s t u : Server} {roomId : RoomId} {whiteId blackId userId : UserId}
  {white black user : User} {e : GameEngine}

/-- One rating is written. -/
theorem ratingSurplus_afterSetElo (h : s.users.get? userId = some user) (elo : Int) :
    (s.afterSetElo roomId userId elo false).ratingSurplus = s.ratingSurplus + (elo - user.elo) := by
  change (s.users.modify userId _).total _ = _
  rw [Dict.total_modify, h]
  change s.ratingSurplus + (elo - 1200 - (user.elo - 1200)) = _
  omega

/-- What one step adds to an account. -/
theorem RatingAccount.add (h : RatingAccount s t) (pairs lost raised : Nat) (hlost : lost ≤ raised)
    (hdone : u.writesDone = t.writesDone + 2 * pairs + lost)
    (hraised : u.writesRaised = t.writesRaised + raised)
    (hmoved : |u.ratingSurplus - t.ratingSurplus| ≤ pairs + 32 * lost) : RatingAccount s u := by
  obtain ⟨pairs', lost', hdone', hlost', hmoved'⟩ := h
  refine ⟨pairs' + pairs, lost' + lost, by omega, by omega, ?_⟩
  calc |u.ratingSurplus - s.ratingSurplus|
      ≤ |u.ratingSurplus - t.ratingSurplus| + |t.ratingSurplus - s.ratingSurplus| :=
        abs_sub_le _ _ _
    _ ≤ (pairs + 32 * lost) + (pairs' + 32 * lost') := add_le_add hmoved hmoved'
    _ = (pairs' + pairs : Nat) + 32 * (lost' + lost : Nat) := by push_cast; ring

/-- Users and writes are left alone. -/
theorem RatingAccount.of_eq (h : RatingAccount s t) (husers : u.users = t.users)
    (hcalls : u.setEloCalls = t.setEloCalls) : RatingAccount s u := by
  refine h.add 0 0 0 le_rfl ?_ ?_ ?_
  · rw [Server.writesDone, hcalls]
    rfl
  · rw [Server.writesRaised, hcalls]
    rfl
  · rw [Server.ratingSurplus, husers, Server.ratingSurplus, sub_self, abs_zero]
    exact Int.le_refl 0

/-- **An attempt.** -/
theorem RatingAccount.attempt {raised : Bool}
    (hexpected : ∀ a b, 0 ≤ cfg.expectedWinner a b ∧ cfg.expectedWinner a b ≤ 1)
    (h : RatingAccount s t) (hattempt : EloAttempt cfg env roomId e t raised u) : RatingAccount s u := by
  cases hattempt with
  | idle | nameRaises | ratingRaises => exact h
  | whiteRaises whiteId blackId new =>
    -- nothing but the log has changed
    refine h.add 0 0 1 (by decide) ?_ ?_ ?_
    · exact List.countP_append.trans rfl
    · exact List.countP_append.trans rfl
    · change |t.ratingSurplus - t.ratingSurplus| ≤ _
      rw [sub_self, abs_zero]
      exact Int.le_refl 0
  | blackRaises whiteId blackId new hdue =>
    obtain ⟨winner, white, black, -, hrated, rfl⟩ := hdue.rated
    -- one half of the pair is written, the other raised
    refine h.add 0 1 1 le_rfl ?_ ?_ ?_
    · change List.countP _ (t.setEloCalls ++ [_] ++ [_]) = _
      rw [List.countP_append, List.countP_append]
      rfl
    · change List.countP _ (t.setEloCalls ++ [_] ++ [_]) = _
      rw [List.countP_append, List.countP_append]
      rfl
    · -- White's rating has moved
      change |(t.afterSetElo roomId whiteId _ false).ratingSurplus - t.ratingSurplus| ≤ _
      rw [ratingSurplus_afterSetElo hrated.white, add_sub_cancel_left]
      exact newRatings_fst cfg winner white.elo black.elo hexpected
  | applied whiteId blackId new u hdue hwhite hblack hannounced =>
    obtain ⟨winner, white, black, -, hrated, rfl⟩ := hdue.rated
    generalize hnew : newRatings cfg winner white.elo black.elo = new at hannounced
    have husers : u.users = (t.afterRatings roomId whiteId blackId new).users := by
      rw [hannounced.same]
    have hcalls : u.setEloCalls = (t.afterRatings roomId whiteId blackId new).setEloCalls := by
      rw [hannounced.same]
    refine RatingAccount.of_eq (t := t.afterRatings roomId whiteId blackId new) ?_ husers hcalls
    -- both ratings are written, one call of a pair
    refine h.add 1 0 0 le_rfl ?_ ?_ ?_
    · change List.countP _ (t.setEloCalls ++ [_] ++ [_]) = _
      rw [List.countP_append, List.countP_append]
      rfl
    · change List.countP _ (t.setEloCalls ++ [_] ++ [_]) = _
      rw [List.countP_append, List.countP_append]
      rfl
    · -- the row of Black is not White's
      have hother : (t.afterSetElo roomId whiteId new.1 false).users.get? blackId = some black :=
        (Dict.get?_modify_of_ne _ _ (seats_ne hrated.players).symm).trans hrated.black
      have hsum : (t.afterRatings roomId whiteId blackId new).ratingSurplus =
          t.ratingSurplus + (new.1 - white.elo) + (new.2 - black.elo) := by
        change ((t.afterSetElo roomId whiteId new.1 false).afterSetElo roomId blackId new.2
          false).ratingSurplus = _
        rw [ratingSurplus_afterSetElo hother, ratingSurplus_afterSetElo hrated.white]
      have hnear := newRatings_near cfg winner white.elo black.elo
      rw [hnew] at hnear
      calc |(t.afterRatings roomId whiteId blackId new).ratingSurplus - t.ratingSurplus|
          = |new.1 + new.2 - (white.elo + black.elo)| := by
            rw [hsum]
            congr 1
            ring
        _ ≤ 1 := hnear

end Writes

/-! ### Events -/

/-- A new user starts with the start rating. -/
theorem RatingAccount.register {s t : Server} (h : RatingAccount s t) (cfg : Config) (env : Env)
    (userId : UserId) (username : String) :
    RatingAccount s (t.step cfg (env, .register userId username)) := by
  refine wp_iff_after.mp ?_
  change wp (UserStore.register userId username) _ _ t
  unfold UserStore.register
  rw [wp_modify]
  -- an identifier that is in use is not registered again
  split
  · exact h
  next hnew =>
  have hnone : t.users.get? userId = none := by
    refine contains_eq_false fun hcontains => hnew ?_
    rw [hcontains]
    rfl
  refine h.add 0 0 0 le_rfl rfl rfl ?_
  change |(t.users.set userId _).total _ - t.users.total _| ≤ _
  rw [Dict.total_set_of_get?_eq_none hnone, add_sub_cancel_left]
  exact Int.le_refl 0

/-- **The rule holds of all events but the registration.** -/
theorem ratingAccount_rule {cfg : Config} {env : Env} {event : Event} (s : Server)
    (hexpected : ∀ a b, 0 ≤ cfg.expectedWinner a b ∧ cfg.expectedWinner a b ≤ 1)
    (hevent : ∀ userId username, event ≠ .register userId username) :
    EventRule cfg env event (RatingAccount s) where
  act := fun a t hplain hof _ h => by
    -- only a registration adds a rating, and the two writes are left to the result
    cases a with
    | register user =>
      cases event with
      | register userId username => exact absurd rfl (hevent userId username)
      | _ => exact absurd hof id
    | aside | setElo | markElo => exact absurd hplain id
    | _ => exact h.of_eq rfl rfl
  note := fun t _ _ h => h.of_eq rfl rfl
  passing := fun t _ _ _ _ h => h.of_eq rfl rfl
  state := fun t _ _ _ _ _ h => h.of_eq rfl rfl
  result := fun t roomId e _ _ h =>
    wp_mono (applyElo_cases cfg env roomId e t) (fun _ _ ht => h.attempt hexpected ht)
      fun _ _ ht => h.attempt hexpected ht

end KungFuChess
