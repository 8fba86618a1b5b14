import KungFuChess.Server.FirstCome
import KungFuChess.Split.CancelledSearch

/-!
# One matching in both deployments

The worker walks along the rows it has read as `_try_match` of the in-process service walks
along its queue, and publishes what the service seats (`matchPairs_eq_nextPair`). Run by itself
from the beginning of its `_try_match`, it publishes the pairs of the queue in their order, and
leaves the others in the sorted set (`work_matching`). So on one queue of distinct users both
form the same pairs, and these are a first-come matching (`tryMatch_firstCome`).
-/

namespace KungFuChess

open Effect MatchmakingService GreedyMatching

/-! ### The queue in Redis -/

namespace RedisMatchmakingQueue

variable (q : RedisMatchmakingQueue)

/-- `snapshot`: the rows, with their ratings. -/
def snapshot : List QueueEntry := q.entriesOf q.zrange

/-- The key of the sorted set separates its members. -/
theorem row_eq_of_key {row row' : UserId × ℚ}
    (h : toLex (row.2, row.1.text) = toLex (row'.2, row'.1.text)) : row = row' := by
  obtain ⟨⟨text, hne⟩, score⟩ := row
  obtain ⟨⟨text', hne'⟩, score'⟩ := row'
  simp only [toLex_inj, Prod.mk.injEq] at h
  obtain ⟨rfl, rfl⟩ := h
  rfl

/-- The scores that are left are of the users who have not been removed. -/
theorem scores_removeUsers (users : List UserId) :
    (q.removeUsers users).scores.entries =
      q.scores.entries.filter fun row => decide (row.1 ∉ users) := by
  induction users generalizing q with
  | nil => exact (List.filter_eq_self.mpr fun row _ => decide_eq_true List.not_mem_nil).symm
  | cons u users ih =>
    change ((q.remove u).removeUsers users).scores.entries = _
    rw [ih]
    change (q.scores.entries.filter _).filter _ = _
    rw [List.filter_filter]
    refine List.filter_congr fun row _ => ?_
    by_cases hu : row.1 = u <;> simp [hu]

/-- The ratings of the others stay. -/
theorem elos_removeUsers {users : List UserId} {userId : UserId} (h : userId ∉ users) :
    (q.removeUsers users).elos.get? userId = q.elos.get? userId := by
  induction users generalizing q with
  | nil => rfl
  | cons u users ih =>
    obtain ⟨hne, hrest⟩ := not_or.mp (List.mem_cons.not.mp h)
    exact (ih (q.remove u) hrest).trans (Dict.get?_pop_of_ne q.elos hne)

/-- `remove_users` takes the rows of the users out and leaves the others in their order. -/
theorem snapshot_removeUsers (users : List UserId) :
    (q.removeUsers users).snapshot =
      q.snapshot.filter fun entry => decide (entry.userId ∉ users) := by
  -- both lists are sorted by the same key, and have the same rows
  have hzrange : (q.removeUsers users).zrange =
      q.zrange.filter fun row => decide (row.1 ∉ users) := by
    unfold zrange
    rw [scores_removeUsers]
    refine @List.Perm.eq_of_pairwise _
      (fun a b : UserId × ℚ => toLex (a.2, a.1.text) ≤ toLex (b.2, b.1.text)) _ _ ?_
      (Sorting.sortBy_pairwise _ _) ((Sorting.sortBy_pairwise _ _).filter _)
      ((Sorting.sortBy_perm _ _).trans ((Sorting.sortBy_perm _ _).filter _).symm)
    exact fun a b _ _ hab hba => row_eq_of_key (le_antisymm hab hba)
  unfold snapshot entriesOf
  rw [hzrange, List.filter_map]
  refine List.map_congr_left fun row hrow => ?_
  have hnot : row.1 ∉ users := of_decide_eq_true (List.mem_filter.mp hrow).2
  rw [elos_removeUsers q hnot]

end RedisMatchmakingQueue

/-! ### The worker by itself -/

/-- The users of a published match, White first. -/
def MatchmakerEvent.players : MatchmakerEvent → Option (UserId × UserId)
  | .createMatch _ whiteId blackId _ => some (whiteId, blackId)
  | .matchTimeout _ _ => none

namespace Matchmaker

/-- The pairs of users that have been published, in order. -/
def published (m : Matchmaker) : List (UserId × UserId) := m.events.filterMap MatchmakerEvent.players

/-- The worker runs its commands one after the other; `draws` are the room identifiers. -/
def runWorker (shards : ShardList) (m : Matchmaker) (draws : List RoomId) : Matchmaker :=
  draws.foldl (fun m roomId => m.work shards roomId) m

/-- The loop of the worker takes the pairs of its list in their order. -/
theorem matchPairs_eq_nextPair {used : List UserId} {rest : List QueueEntry} :
    matchPairs rest used =
      match nextPair used rest with
      | some (a, b, later) => (a, b) :: matchPairs later (used ++ [a.userId, b.userId])
      | none => [] := by
  induction rest with
  | nil => rfl
  | cons entry rest ih =>
    rw [matchPairs, nextPair]
    split
    · exact ih
    · cases findMatch used entry rest with
      | none => exact ih
      | some b => rfl

/-- The worker has formed the pairs and has gone back to sleep. -/
structure WorkedOff (pairs : List (QueueEntry × QueueEntry)) (used : List UserId)
    (m m' : Matchmaker) : Prop where
  worker : m'.worker = .idle
  published : m'.published = m.published ++ pairs.map fun pair => (pair.1.userId, pair.2.userId)
  queue : m'.queue = m.queue.removeUsers used

variable {shards : ShardList}

/-- **The loop of the worker.** Two commands a pair, and one for the end. -/
theorem work_matching {pairs : List (QueueEntry × QueueEntry)} :
    ∀ {m : Matchmaker} {rest : List QueueEntry} {used : List UserId} {draws : List RoomId},
      m.worker = .matching rest used → matchPairs rest used = pairs →
      draws.length = 2 * pairs.length + 1 →
      WorkedOff pairs (used ++ pairUsers pairs) m (m.runWorker shards draws) := by
  -- by induction on the pairs that the matching still has to form
  induction pairs with
  | nil =>
    intro m rest used draws hworker hpairs hdraws
    obtain ⟨draw, rfl⟩ := List.length_eq_one_iff.mp hdraws
    rw [matchPairs_eq_nextPair] at hpairs
    split at hpairs
    · exact absurd hpairs (by simp)
    · next hnone =>
      -- no pair is left: the command removes whom it has used
      have hwork : m.runWorker shards [draw] =
          { m with queue := m.queue.removeUsers used, worker := .idle } := by
        change m.work shards draw = _
        unfold work
        rw [hworker]
        dsimp only
        rw [hnone]
      rw [hwork]
      refine ⟨rfl, (List.append_nil _).symm, ?_⟩
      rw [pairUsers, List.flatMap_nil, List.append_nil]
  | cons pair pairs ih =>
    intro m rest used draws hworker hpairs hdraws
    rw [List.length_cons] at hdraws
    obtain ⟨draw, draw', draws, rfl⟩ : ∃ d d' ds, draws = d :: d' :: ds := by
      obtain _ | ⟨d, _ | ⟨d', ds⟩⟩ := draws
      · exact absurd hdraws (by simp)
      · exact absurd hdraws (by simp)
      · exact ⟨d, d', ds, rfl⟩
    rw [matchPairs_eq_nextPair] at hpairs
    split at hpairs
    · next a b later hsome =>
      obtain ⟨rfl, hlater⟩ := List.cons.inj hpairs
      -- one command allocates, the next publishes
      have hwork : (m.work shards draw).work shards draw' =
          { m.publish (.createMatch draw a.userId b.userId (shards.allocate draw)) with
            worker := .matching later (used ++ [a.userId, b.userId]) } := by
        have hallocated : m.work shards draw = { m with
            worker := .allocated later (used ++ [a.userId, b.userId]) draw a.userId b.userId
              (shards.allocate draw) } := by
          unfold work
          rw [hworker]
          dsimp only
          rw [hsome]
        rw [hallocated]
        rfl
      -- what follows is the same loop with one pair fewer
      have hrest : WorkedOff pairs _ ((m.work shards draw).work shards draw')
          (((m.work shards draw).work shards draw').runWorker shards draws) :=
        ih (by rw [hwork]) hlater (by simp only [List.length_cons] at hdraws; omega)
      change WorkedOff _ _ m (((m.work shards draw).work shards draw').runWorker shards draws)
      refine ⟨hrest.worker, ?_, ?_⟩
      · rw [hrest.published, hwork]
        change ((m.events ++ [_]).filterMap _) ++ _ = _
        rw [List.filterMap_append, List.append_assoc]
        rfl
      · rw [hrest.queue, hwork, List.append_assoc]
        rfl
    · exact absurd hpairs (by simp)

/-- From the beginning of `_try_match`, two commands more for the snapshot. -/
theorem work_expired {m : Matchmaker} (hworker : m.worker = .expired) {draws : List RoomId}
    (hdraws : draws.length = 2 * (matchPairs m.queue.snapshot []).length + 3) :
    WorkedOff (matchPairs m.queue.snapshot []) (pairUsers (matchPairs m.queue.snapshot [])) m
      (m.runWorker shards draws) := by
  obtain ⟨draw, draw', draws, rfl⟩ : ∃ d d' ds, draws = d :: d' :: ds := by
    obtain _ | ⟨d, _ | ⟨d', ds⟩⟩ := draws
    · exact absurd hdraws (by simp)
    · exact absurd hdraws (by simp)
    · exact ⟨d, d', ds, rfl⟩
  -- the users in the order of the queue, and then their Elos
  have hread : (m.work shards draw).work shards draw' =
      { m with worker := .matching m.queue.snapshot [] } := by
    have hranged : m.work shards draw = { m with worker := .matchRanged m.queue.zrange } := by
      unfold work
      rw [hworker]
    rw [hranged]
    rfl
  have hrest : WorkedOff (matchPairs m.queue.snapshot []) _ ((m.work shards draw).work shards draw')
      (((m.work shards draw).work shards draw').runWorker shards draws) :=
    work_matching (by rw [hread]) rfl (by simp only [List.length_cons] at hdraws; omega)
  rw [hread] at hrest
  change WorkedOff _ _ m (((m.work shards draw).work shards draw').runWorker shards draws)
  rw [hread]
  exact ⟨hrest.worker, hrest.published, hrest.queue⟩

end Matchmaker

/-! ### The two deployments -/

/-- **Greedy matching is sound, first-come and maximal, and the same in both deployments.** -/
theorem tryMatch_firstCome {queue : List QueueEntry}
    (hdistinct : (queue.map QueueEntry.userId).Nodup) :
    ∃ pairs left, FirstCome queue pairs left ∧
      (∀ env s, s.queue = queue →
        (∀ before pair after, pairs = before ++ pair :: after → ¬ PairFails env s before pair) →
        wp (tryMatch env) (fun _ t => PairsOpened env pairs s t ∧ t.queue = left)
          (fun _ _ => False) s) ∧
      ∀ shards (m : Matchmaker) draws, m.worker = .expired → m.queue.snapshot = queue →
        draws.length = 2 * pairs.length + 3 →
        (m.runWorker shards draws).worker = .idle ∧
        (m.runWorker shards draws).published =
          m.published ++ pairs.map (fun pair => (pair.1.userId, pair.2.userId)) ∧
        (m.runWorker shards draws).queue.snapshot = left := by
  refine ⟨matchPairs queue [], unmatched queue, firstCome_matchPairs hdistinct, ?_, ?_⟩
  · -- the service in process
    rintro env s rfl hnone
    exact tryMatch_spec hnone
  · -- the worker, run from the end of its expiry
    rintro shards m draws hworker rfl hdraws
    have hdone := @Matchmaker.work_expired shards m hworker draws hdraws
    refine ⟨hdone.worker, hdone.published, ?_⟩
    rw [hdone.queue, RedisMatchmakingQueue.snapshot_removeUsers]
    rfl

/-- Too far from Alice. -/
def dora : QueueEntry := ⟨{ text := "dora" }, 1350, 0⟩

/-- Dora is passed over for Bob, and stays in the queue. -/
theorem tryMatch_firstCome_passedOver :
    ∃ pairs left, FirstCome [⟨Small.alice, 1200, 0⟩, dora, ⟨Small.bob, 1250, 0⟩] pairs left ∧
      pairs = [(⟨Small.alice, 1200, 0⟩, ⟨Small.bob, 1250, 0⟩)] ∧ left = [dora] := by
  have hdistinct : (([⟨Small.alice, 1200, 0⟩, dora, ⟨Small.bob, 1250, 0⟩] : List QueueEntry).map
      QueueEntry.userId).Nodup := by decide
  obtain ⟨pairs, left, hfirst, -⟩ := tryMatch_firstCome hdistinct
  -- Bob is behind Dora, and within Alice's window
  have hstays : Greedy WithinWindow [dora] [] [dora] :=
    Greedy.leave _ (fun _ hc => absurd hc List.not_mem_nil) Greedy.nil
  have hpassed : ∀ c ∈ [dora], ¬ WithinWindow ⟨Small.alice, 1200, 0⟩ c := by
    intro c hc
    rw [List.mem_singleton.mp hc]
    decide
  have hgreedy : Greedy WithinWindow [⟨Small.alice, 1200, 0⟩, dora, ⟨Small.bob, 1250, 0⟩]
      [(⟨Small.alice, 1200, 0⟩, ⟨Small.bob, 1250, 0⟩)] [dora] :=
    @Greedy.pair _ _ _ _ [dora] [] _ _ hpassed (by decide) hstays
  obtain ⟨hpairs, hleft⟩ := hfirst.greedy.unique hgreedy
  exact ⟨pairs, left, hfirst, hpairs, hleft⟩

end KungFuChess
