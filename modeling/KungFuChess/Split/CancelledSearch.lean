import KungFuChess.Library.Run
import KungFuChess.Server.ServerRuntime
import KungFuChess.Split.Matchmaker

/-!
# A cancelled search

Who has cancelled must not be matched before the next `enqueue`. The worker decides on the
rows it has read at the beginning of `_try_match`, and a `cancel` that comes after them is
seen by nobody: the pair is published all the same. It is not exactly when, at every
publication of a match, both users still have a row (`PairQueued`).

`SearchInv` says where the users of the worker's list are: each of them has a row or has
cancelled since, and no user has a row and has cancelled.
-/

namespace KungFuChess

namespace RedisMatchmakingQueue

variable {q : RedisMatchmakingQueue} {userId u : UserId}

/-- Who has a score after `add`. -/
theorem isQueued_add {elo : Int} {now : ℚ} :
    (q.add userId elo now).isQueued u = true ↔ u = userId ∨ q.isQueued u = true := by
  unfold isQueued add
  dsimp only
  rw [Dict.contains, Dict.contains, Dict.get?_set]
  split
  · simp_all
  · simp_all

/-- Who has a score after `remove`. -/
theorem isQueued_remove :
    (q.remove userId).isQueued u = true ↔ u ≠ userId ∧ q.isQueued u = true := by
  unfold isQueued remove
  dsimp only
  rw [Dict.contains, Dict.contains, Dict.get?_pop]
  split
  · simp_all
  · simp_all

theorem mem_zrange {row : UserId × ℚ} (h : row ∈ q.zrange) : q.isQueued row.1 = true := by
  have hentry : (row.1, row.2) ∈ q.scores.entries := Sorting.mem_sortBy.mp h
  rw [isQueued, Dict.contains_iff]
  exact ⟨row.2, Dict.mem_entries_iff.mp hentry⟩

end RedisMatchmakingQueue

/-! ### Where the worker's users are -/

/-- The users whom the worker may still match before it reads the rows again. -/
def Worker.users : Worker → List UserId
  | .matchRanged rows => rows.map Prod.fst
  | .matching rest _ => rest.map QueueEntry.userId
  | .allocated later _ _ whiteId blackId _ => whiteId :: blackId :: later.map QueueEntry.userId
  | _ => []

namespace Matchmaker

open RedisMatchmakingQueue MatchmakingService

/-- Where the users of the matchmaker are. -/
structure SearchInv (m : Matchmaker) : Prop where
  /-- Who has cancelled has no row. -/
  gone : ∀ u ∈ m.cancelled, m.queue.isQueued u = false
  /-- Whom the worker has in hand has a row, or has cancelled. -/
  known : ∀ u ∈ m.worker.users, m.queue.isQueued u = true ∨ u ∈ m.cancelled

/-- The pair and what comes after it are entries of the list. -/
theorem nextPair_mem {used : List UserId} {rest later : List QueueEntry} {a b : QueueEntry}
    (h : nextPair used rest = some (a, b, later)) :
    a ∈ rest ∧ b ∈ rest ∧ ∀ e ∈ later, e ∈ rest := by
  -- by induction along the list; a hit behind the first entry is one in the rest
  induction rest with
  | nil => cases h
  | cons entry rest ih =>
    have hlater : nextPair used rest = some (a, b, later) →
        a ∈ entry :: rest ∧ b ∈ entry :: rest ∧ ∀ e ∈ later, e ∈ entry :: rest := by
      intro h
      obtain ⟨ha, hb, hall⟩ := ih h
      exact ⟨List.mem_cons_of_mem _ ha, List.mem_cons_of_mem _ hb,
        fun e he => List.mem_cons_of_mem _ (hall e he)⟩
    rw [nextPair] at h
    -- the first entry is used already, or finds no partner
    split at h
    · exact hlater h
    split at h
    · exact hlater h
    · -- it finds one
      rename_i hfound
      cases h
      exact ⟨List.mem_cons_self, List.mem_cons_of_mem _ (List.mem_of_find?_eq_some hfound),
        fun e he => List.mem_cons_of_mem _ he⟩

variable {shards : ShardList} {m : Matchmaker}

/-- Who has a score after a removal has had it before. -/
theorem isQueued_removeUsers {q : RedisMatchmakingQueue} {u : UserId} (users : List UserId)
    (h : (q.removeUsers users).isQueued u = true) : q.isQueued u = true := by
  induction users generalizing q with
  | nil => exact h
  | cons v users ih => exact (isQueued_remove.mp (ih h)).2

/-- A command of the worker. -/
theorem SearchInv.work (h : SearchInv m) (roomId : RoomId) : SearchInv (m.work shards roomId) := by
  -- whatever is removed, those who have cancelled had no row
  have hremove : ∀ users, ∀ u ∈ m.cancelled, (m.queue.removeUsers users).isQueued u = false :=
    fun users u hu => Bool.eq_false_iff.mpr fun hqueued =>
      absurd (isQueued_removeUsers users hqueued) (by rw [h.gone u hu]; simp)
  have hgone := h.gone
  have hknown := h.known
  unfold Matchmaker.work
  cases hworker : m.worker with
  | idle => exact h
  -- the worker looks at everybody afresh
  | expiryRanged now rows => exact ⟨hgone, nofun⟩
  | expiring now rest timedOut =>
    dsimp only
    split
    · exact ⟨hgone, nofun⟩
    · exact ⟨hremove timedOut, nofun⟩
  | expired =>
    refine ⟨hgone, fun u hu => Or.inl ?_⟩
    -- the rows have been read just now
    obtain ⟨row, hrow, rfl⟩ := List.mem_map.mp hu
    exact mem_zrange hrow
  | matchRanged rows =>
    refine ⟨hgone, fun u hu => hknown u ?_⟩
    rw [hworker]
    obtain ⟨entry, hentry, rfl⟩ := List.mem_map.mp hu
    obtain ⟨row, hrow, rfl⟩ := List.mem_map.mp hentry
    exact List.mem_map.mpr ⟨row, hrow, rfl⟩
  | matching rest used =>
    dsimp only
    -- a pair and the entries behind it are of the rows that were read
    split
    · rename_i hpair
      obtain ⟨ha, hb, hlater⟩ := nextPair_mem hpair
      have hrest : ∀ e ∈ rest, m.queue.isQueued e.userId = true ∨ e.userId ∈ m.cancelled :=
        fun e he => hknown e.userId (by rw [hworker]; exact List.mem_map.mpr ⟨e, he, rfl⟩)
      refine ⟨hgone, fun u hu => ?_⟩
      obtain rfl | hu := List.mem_cons.mp hu
      · exact hrest _ ha
      obtain rfl | hu := List.mem_cons.mp hu
      · exact hrest _ hb
      obtain ⟨e, he, rfl⟩ := List.mem_map.mp hu
      exact hrest e (hlater e he)
    · exact ⟨hremove used, nofun⟩
  -- a pair that is published leaves the worker
  | allocated later used roomId whiteId blackId shardId =>
    refine ⟨hgone, fun u hu => hknown u ?_⟩
    rw [hworker]
    exact List.mem_cons_of_mem _ (List.mem_cons_of_mem _ hu)

/-- **Step lemma.** -/
theorem SearchInv.step (h : SearchInv m) (i : MatchmakerInput) : SearchInv (m.step shards i) := by
  cases i with
  | enqueue userId elo =>
    simp only [Matchmaker.step]
    split
    -- who has a row, or is only read, stays
    · exact h
    · exact ⟨h.gone, h.known⟩
  | write userId elo now =>
    simp only [Matchmaker.step]
    split
    · -- who is written has a row, and is struck off those who have cancelled
      refine ⟨fun u hu => ?_, fun u hu => ?_⟩
      · obtain ⟨hcancelled, hne⟩ := List.mem_filter.mp hu
        rw [Bool.eq_false_iff, Ne, isQueued_add, h.gone u hcancelled]
        simpa using hne
      · dsimp only
        rw [isQueued_add, List.mem_filter]
        by_cases heq : u = userId
        · exact Or.inl (Or.inl heq)
        · exact (h.known u hu).imp Or.inr fun hmem => ⟨hmem, by simpa using heq⟩
    · exact h
  | cancel userId =>
    simp only [Matchmaker.step]
    refine ⟨fun u hu => ?_, fun u hu => ?_⟩
    -- who cancels loses the row; a worker that still has the user is told nothing
    · rw [Bool.eq_false_iff, Ne, isQueued_remove]
      rintro ⟨hne, hqueued⟩
      dsimp only at hu
      split at hu
      · obtain rfl | hu := List.mem_cons.mp hu
        · exact hne rfl
        · exact absurd hqueued (by rw [h.gone u hu]; simp)
      · exact absurd hqueued (by rw [h.gone u hu]; simp)
    · dsimp only
      rw [isQueued_remove]
      by_cases heq : u = userId
      · subst heq
        right
        split
        · exact List.mem_cons_self
        · rename_i hnot
          exact (h.known u hu).resolve_left hnot
      · refine (h.known u hu).imp (fun hqueued => ⟨heq, hqueued⟩) fun hmem => ?_
        split
        · exact List.mem_cons_of_mem _ hmem
        · exact hmem
  -- a tick begins with nobody in hand
  | tick now =>
    simp only [Matchmaker.step]
    split
    · exact ⟨h.gone, nofun⟩
    · exact h
  | work roomId => exact h.work roomId

/-! ### Publications -/

/-- When the worker is about to publish a match, both users still have a row. -/
def PairQueued (m : Matchmaker) : MatchmakerInput → Prop
  | .work _ =>
    match m.worker with
    | .allocated _ _ _ whiteId blackId _ =>
      m.queue.isQueued whiteId = true ∧ m.queue.isQueued blackId = true
    | _ => True
  | _ => True

/-- A match is published by the command after its allocation and by no other. -/
theorem createMatch_published {i : MatchmakerInput} {roomId : RoomId} {whiteId blackId : UserId}
    {shardId : String}
    (h : (m.step shards i).events = m.events ++ [.createMatch roomId whiteId blackId shardId]) :
    (∃ drawn, i = .work drawn) ∧
      ∃ later used, m.worker = .allocated later used roomId whiteId blackId shardId := by
  have hsame : ∀ {event : MatchmakerEvent}, m.events ≠ m.events ++ [event] := by
    -- most commands publish nothing
    intro event heq
    simpa using congrArg List.length heq
  cases i with
  | enqueue userId elo =>
    simp only [Matchmaker.step] at h
    split at h
    · exact absurd h hsame
    · exact absurd h hsame
  | write userId elo now =>
    simp only [Matchmaker.step] at h
    split at h
    · exact absurd h hsame
    · exact absurd h hsame
  | cancel userId => exact absurd h hsame
  | tick now =>
    simp only [Matchmaker.step] at h
    split at h
    · exact absurd h hsame
    · exact absurd h hsame
  | work drawn =>
    refine ⟨⟨drawn, rfl⟩, ?_⟩
    simp only [Matchmaker.step, Matchmaker.work] at h
    -- the only phases that publish are a timeout and an allocation
    split at h
    · exact absurd h hsame
    · exact absurd h hsame
    · split at h
      · exact absurd (List.append_cancel_left h) (by simp)
      · exact absurd h hsame
    · exact absurd h hsame
    · exact absurd h hsame
    · split at h
      · exact absurd h hsame
      · exact absurd h hsame
    · rename_i later used r w b sh hworker
      have hevent := List.append_cancel_left h
      simp only [List.cons.injEq, MatchmakerEvent.createMatch.injEq, and_true] at hevent
      obtain ⟨rfl, rfl, rfl, rfl⟩ := hevent
      exact ⟨later, used, hworker⟩

/-- Under the invariant, a user of the worker's list has a row or has cancelled, not both. -/
theorem SearchInv.isQueued_iff (h : SearchInv m) {u : UserId} (hu : u ∈ m.worker.users) :
    m.queue.isQueued u = true ↔ u ∉ m.cancelled := by
  constructor
  · intro hqueued hcancelled
    exact absurd (h.gone u hcancelled) (by rw [hqueued]; simp)
  · exact fun hnot => (h.known u hu).resolve_right hnot

/-- **Step lemma.** Both users of the next publication have a row iff neither has cancelled. -/
theorem SearchInv.pairQueued_iff (h : SearchInv m) (i : MatchmakerInput) :
    PairQueued m i ↔ ∀ roomId whiteId blackId shardId,
      (m.step shards i).events = m.events ++ [.createMatch roomId whiteId blackId shardId] →
        whiteId ∉ m.cancelled ∧ blackId ∉ m.cancelled := by
  constructor
  · -- only an allocated pair is published
    intro hpair roomId whiteId blackId shardId hpublished
    obtain ⟨⟨drawn, rfl⟩, later, used, hworker⟩ := createMatch_published hpublished
    simp only [PairQueued, hworker] at hpair
    have hwhite : whiteId ∈ m.worker.users := by simp [hworker, Worker.users]
    have hblack : blackId ∈ m.worker.users := by simp [hworker, Worker.users]
    exact ⟨(h.isQueued_iff hwhite).mp hpair.1, (h.isQueued_iff hblack).mp hpair.2⟩
  · intro hkept
    -- the guard speaks of that phase only
    unfold PairQueued
    split
    · split
      · rename_i drawn _ later used roomId whiteId blackId shardId hworker
        have hwhite : whiteId ∈ m.worker.users := by simp [hworker, Worker.users]
        have hblack : blackId ∈ m.worker.users := by simp [hworker, Worker.users]
        have hboth := hkept roomId whiteId blackId shardId (by
          simp only [Matchmaker.step, Matchmaker.work, hworker]
          rfl)
        exact ⟨(h.isQueued_iff hwhite).mpr hboth.1, (h.isQueued_iff hblack).mpr hboth.2⟩
      · trivial
    · trivial

/-- A matchmaker whose queue is `queue` and whose worker has not run yet. -/
def start (queue : RedisMatchmakingQueue) : Matchmaker := { queue := queue }

theorem searchInv_run (shards : ShardList) (queue : RedisMatchmakingQueue)
    (inputs : List MatchmakerInput) : SearchInv (inputs.foldl (step shards) (start queue)) :=
  Run.stable (fun _ i h => h.step i) ⟨nofun, nofun⟩

/-- In a run that publishes a match only while both users have a row, and only in such a run, no
match names a user who has cancelled and has not been queued again. -/
theorem searchCancelled_run (shards : ShardList) (queue : RedisMatchmakingQueue)
    (inputs : List MatchmakerInput) :
    Run.Guarded (step shards) (fun m i _ => PairQueued m i) (start queue) inputs ↔
      ∀ pre i post, inputs = pre ++ i :: post → ∀ roomId whiteId blackId shardId,
        ((pre.foldl (step shards) (start queue)).step shards i).events =
            (pre.foldl (step shards) (start queue)).events ++
              [.createMatch roomId whiteId blackId shardId] →
          whiteId ∉ (pre.foldl (step shards) (start queue)).cancelled ∧
            blackId ∉ (pre.foldl (step shards) (start queue)).cancelled := by
  rw [Run.guarded_iff_split]
  refine forall_congr' fun pre => forall_congr' fun i => forall_congr' fun post => ?_
  exact imp_congr_right fun _ => (searchInv_run shards queue pre).pairQueued_iff i

/-- Alice cancels after the worker has read the rows, and is matched with Bob all the same. -/
theorem searchCancelled_run_matched :
    let shards : ShardList := { shardIds := ["game-server-1"], hash := fun _ => 0 }
    let m := [MatchmakerInput.enqueue Small.alice 1200, .write Small.alice 1200 0,
      .enqueue Small.bob 1200, .write Small.bob 1200 1, .tick 2, .work Small.room, .work Small.room,
      .work Small.room, .work Small.room, .cancel Small.alice, .work Small.room].foldl
        (step shards) (start {})
    Small.alice ∈ m.cancelled ∧ (m.step shards (.work Small.room)).events =
      m.events ++ [.createMatch Small.room Small.alice Small.bob "game-server-1"] := by
  decide +kernel

end Matchmaker

end KungFuChess
