import KungFuChess.Split.ClusterSteps

/-!
# What becomes of a matched pair

The worker takes the users of its pairs out of the queue once it has published their matches, and
the addressed shard takes a match when it comes to it. A shard that rejects the match, or fails
on the board of the room, logs that; it puts nobody back and tells nobody. So the two users
are lost then, whichever of them the shard has objected to (`waitersServed_run`).
-/

namespace KungFuChess

open Effect RoomService

/-! ### Who is taken out of the queue -/

/-- The users whom the worker has paired in this pass. It will take them out of the queue. -/
def Worker.used : Worker → List UserId
  | .matching _ used => used
  | .allocated _ used _ _ _ _ => used
  | _ => []

/-- The users of the match that is allocated and not published. -/
def Worker.unpublished : Worker → List UserId
  | .allocated _ _ _ whiteId blackId _ => [whiteId, blackId]
  | _ => []

/-- The users whom a match names. -/
def MatchmakerEvent.users : MatchmakerEvent → List UserId
  | .createMatch _ whiteId blackId _ => [whiteId, blackId]
  | .matchTimeout _ _ => []

/-- A message of a match that has come about. -/
def Message.OfMatch : Message → Prop
  | .matchFound _ _ _ _ | .state _ => True
  | _ => False

namespace Matchmaker

/-- The user waits in the queue, and is not about to be taken out. -/
def Waits (m : Matchmaker) (userId : UserId) : Prop :=
  m.queue.isQueued userId = true ∧ userId ∉ m.worker.used

/-- `_try_match` is over, and takes these users out of the queue. -/
def TakesOut (m : Matchmaker) (users : List UserId) : Prop :=
  ∃ rest, m.worker = .matching rest users ∧ nextPair users rest = none

/-- The last events name the users of this pass, but for the match that is not published. -/
def UsedPublished (m : Matchmaker) : Prop :=
  ∃ before published, m.events = before ++ published ∧
    m.worker.used = published.flatMap MatchmakerEvent.users ++ m.worker.unpublished

section Steps

variable {shards : ShardList} {m : Matchmaker}

/-- No pass has paired anybody. -/
theorem UsedPublished.of_nil {m : Matchmaker} (hused : m.worker.used = [])
    (hunpublished : m.worker.unpublished = []) : UsedPublished m :=
  ⟨m.events, [], (List.append_nil _).symm, by rw [hused, hunpublished]; rfl⟩

/-- **Who is used has been published or is about to be**, over the worker's next command. -/
theorem UsedPublished.work (h : UsedPublished m) (roomId : RoomId) :
    UsedPublished (m.work shards roomId) := by
  unfold Matchmaker.work
  cases hworker : m.worker with
  | idle => exact h
  | expiryRanged now rows => exact .of_nil rfl rfl
  | expiring now rest timedOut =>
    dsimp only
    -- the expiry uses nobody
    split
    · exact .of_nil rfl rfl
    · exact .of_nil rfl rfl
  | expired => exact .of_nil rfl rfl
  | matchRanged rows => exact .of_nil rfl rfl
  | matching rest used =>
    dsimp only
    split
    · rename_i a b later hpair
      obtain ⟨before, published, hevents, hused⟩ := h
      rw [hworker] at hused
      refine ⟨before, published, hevents, ?_⟩
      -- the new pair is used, and its match is still to be published
      change used ++ [a.userId, b.userId] = _ ++ [a.userId, b.userId]
      rw [show used = _ from hused]
      exact congrArg (· ++ _) (List.append_nil _)
    · -- the loop ends, and those who are used leave the queue with it
      exact .of_nil rfl rfl
  | allocated later used drawn whiteId blackId shardId =>
    obtain ⟨before, published, hevents, hused⟩ := h
    rw [hworker] at hused
    refine ⟨before, published ++ [.createMatch drawn whiteId blackId shardId], ?_, ?_⟩
    · -- now it is
      change m.events ++ _ = _
      rw [hevents, List.append_assoc]
    · change used = _ ++ []
      rw [List.append_nil, List.flatMap_append]
      exact hused

/-- Over every step of the matchmaker. -/
theorem UsedPublished.step (h : UsedPublished m) (i : MatchmakerInput) :
    UsedPublished (m.step shards i) := by
  cases i with
  -- a gateway does not touch the worker
  | enqueue userId elo | write userId elo now =>
    simp only [Matchmaker.step]
    split
    · exact h
    · exact h
  | cancel userId => exact h
  | tick now =>
    simp only [Matchmaker.step]
    split
    · exact .of_nil rfl rfl
    · exact h
  | work roomId => exact h.work roomId

/-- Who is taken out has been named by the last events. -/
theorem UsedPublished.takesOut (h : UsedPublished m) {users : List UserId} (hout : m.TakesOut users) :
    ∃ before published, m.events = before ++ published ∧
      users = published.flatMap MatchmakerEvent.users := by
  obtain ⟨rest, hworker, -⟩ := hout
  obtain ⟨before, published, hevents, hused⟩ := h
  rw [hworker] at hused
  exact ⟨before, published, hevents, hused.trans (List.append_nil _)⟩

end Steps

end Matchmaker

namespace Cluster

/-! ### What a delivery does -/

/-- The next event of the matchmaker is this match for the shard, and no reply keeps the shard
from taking it. -/
structure Delivers (c : Cluster) (shardId : String) (roomId : RoomId) (whiteId blackId : UserId) :
    Prop where
  free : (c.shards shardId).answer = none
  event : c.matchmaker.events[(c.shards shardId).seen]? =
    some (.createMatch roomId whiteId blackId shardId)

/-- Between the two states the shard has sent the message to the user. -/
def Told (c c' : Cluster) (shardId : String) (userId : UserId) (message : Message) : Prop :=
  ∃ sent, (c'.load shardId).outbox = (c.load shardId).outbox ++ sent ∧
    ∃ outgoing ∈ sent, userId ∈ outgoing.recipients ∧ outgoing.message = message

/-- A user of a match is seated and told so. -/
structure Matched (c c' : Cluster) (shardId : String) (roomId : RoomId)
    (whiteId blackId userId : UserId) : Prop where
  alive : (c'.shards shardId).crashed = false
  told : ∃ role, memberRole (c'.load shardId) roomId userId = some role ∧
    Told c c' shardId userId (.matchFound roomId whiteId blackId role)

/-- A user of a match is matched, or waits for another one, or is told that there is none. -/
def Served (c c' : Cluster) (shardId : String) (roomId : RoomId)
    (whiteId blackId userId : UserId) : Prop :=
  Matched c c' shardId roomId whiteId blackId userId ∨ c'.matchmaker.Waits userId ∨
    ∃ message, ¬ message.OfMatch ∧ Told c c' shardId userId message

/-- The shard is up, takes the match and builds the board. -/
structure Accepts (c : Cluster) (shardId : String) (env : Env) (roomId : RoomId)
    (whiteId blackId : UserId) : Prop where
  alive : (c.shards shardId).crashed = false
  free : ¬ MatchRejected (c.load shardId) roomId whiteId blackId
  board : ¬ BoardFails env.overRedis (c.load shardId) roomId

/-- A match that is delivered is accepted, or both users wait again. -/
def MatchAccepted (c : Cluster) : Input → Prop
  | .deliver shardId env => ∀ {roomId whiteId blackId}, Delivers c shardId roomId whiteId blackId →
    Accepts c shardId env roomId whiteId blackId ∨
      c.matchmaker.Waits whiteId ∧ c.matchmaker.Waits blackId
  | _ => True

/-- Everyone whom the worker takes out of the queue has been named in a match of the pass, and the
users of a match that is delivered are served. -/
structure WaitersServed (cfg : ClusterConfig) (c : Cluster) (i : Input) : Prop where
  named : ∀ roomId users, i = .matchmaker (.work roomId) → c.matchmaker.TakesOut users →
    ∃ before published, c.matchmaker.events = before ++ published ∧
      users = published.flatMap MatchmakerEvent.users
  served : ∀ {shardId env roomId whiteId blackId}, i = .deliver shardId env →
    Delivers c shardId roomId whiteId blackId →
    ∀ userId ∈ [whiteId, blackId],
      Served c (c.step cfg i) shardId roomId whiteId blackId userId

section Steps

variable {cfg : ClusterConfig} {c c' : Cluster} {shardId : String} {env : Env} {roomId : RoomId}
  {whiteId blackId userId : UserId}

theorem not_told (h : (c'.load shardId).outbox = (c.load shardId).outbox) (message : Message) :
    ¬ Told c c' shardId userId message := by
  rintro ⟨sent, hsent, outgoing, hmem, -⟩
  rw [h] at hsent
  rw [List.self_eq_append_right.mp hsent] at hmem
  cases hmem

/-- A shard that sends nothing serves nobody. -/
theorem served_iff_waits (houtbox : (c'.load shardId).outbox = (c.load shardId).outbox)
    (hmatchmaker : c'.matchmaker = c.matchmaker) :
    Served c c' shardId roomId whiteId blackId userId ↔ c.matchmaker.Waits userId := by
  unfold Served
  rw [hmatchmaker]
  constructor
  · rintro (⟨-, role, -, htold⟩ | hwaits | ⟨message, -, htold⟩)
    · exact absurd htold (not_told houtbox _)
    · exact hwaits
    · exact absurd htold (not_told houtbox _)
  · exact fun h => Or.inr (Or.inl h)

/-- Both users of a match that goes through are seated, and told so. -/
theorem matched_of_opens {u : Server}
    (halive : (c'.shards shardId).crashed = false)
    (hu : Opens (.openMatchedRoom roomId whiteId blackId) roomId (c.load shardId) u)
    (hrooms : (c'.load shardId).rooms = u.rooms)
    (htold : MatchTold roomId whiteId blackId (c.load shardId).outbox (c'.load shardId).outbox)
    (huser : userId ∈ [whiteId, blackId]) :
    Matched c c' shardId roomId whiteId blackId userId := by
  have hrole : ∀ {role}, (matchedRoom roomId whiteId blackId).roles userId = some role →
      memberRole (c'.load shardId) roomId userId = some role := by
    intro role hrole
    refine hu.member hrooms ?_
    change ((c.load shardId).seatMap.opened _ _).role _ _ = _
    rw [SeatMap.role_opened, if_pos rfl, hrole]
  rw [roles_matchedRoom] at hrole
  obtain ⟨states, houtbox⟩ := htold
  rw [List.append_assoc] at houtbox
  refine ⟨halive, ?_⟩
  -- each of the two gets a message of their own, with their role in it
  by_cases hblack : userId = blackId
  · subst hblack
    refine ⟨.black, hrole (if_pos rfl), _, houtbox,
      ⟨none, [userId], .matchFound roomId whiteId userId .black⟩, ?_, ?_, rfl⟩
    · simp
    · exact List.mem_singleton_self _
  · -- otherwise it is white's message
    have hwhite : userId = whiteId := by
      simpa [hblack] using huser
    subst hwhite
    refine ⟨.white, hrole (by rw [if_neg hblack, if_pos rfl]), _, houtbox,
      ⟨none, [userId], .matchFound roomId userId blackId .white⟩, ?_, ?_, rfl⟩
    · simp
    · exact List.mem_singleton_self _

/-- **A delivery serves both users exactly if the shard accepts the match**, or else both wait
anyway. -/
theorem accepts_iff (hdelivers : Delivers c shardId roomId whiteId blackId) :
    (Accepts c shardId env roomId whiteId blackId ∨
        c.matchmaker.Waits whiteId ∧ c.matchmaker.Waits blackId) ↔
      ∀ userId ∈ [whiteId, blackId],
        Served c (c.step cfg (.deliver shardId env)) shardId roomId whiteId blackId userId := by
  -- a shard that does not accept the match sends nothing
  have hquiet : ∀ {c' : Cluster}, ¬ Accepts c shardId env roomId whiteId blackId →
      (c'.load shardId).outbox = (c.load shardId).outbox → c'.matchmaker = c.matchmaker →
      ((Accepts c shardId env roomId whiteId blackId ∨
          c.matchmaker.Waits whiteId ∧ c.matchmaker.Waits blackId) ↔
        ∀ userId ∈ [whiteId, blackId], Served c c' shardId roomId whiteId blackId userId) := by
    intro c' hnot houtbox hmatchmaker
    simp only [served_iff_waits houtbox hmatchmaker, hnot, false_or, List.forall_mem_cons,
      List.not_mem_nil, IsEmpty.forall_iff, implies_true, and_true]
  by_cases halive : (c.shards shardId).crashed = false
  · have hready : (c.shards shardId).Ready := ⟨halive, hdelivers.free⟩
    simp only [step, if_pos hready, deliver, hdelivers.event, if_true]
    -- the three ends of `on_create_match`
    have hspec : wp (onCreateMatch (config cfg shardId) env.overRedis roomId whiteId blackId) _ _
        (c.load shardId) := onCreateMatch_spec rfl roomId whiteId blackId
    obtain ⟨hcrashed, _, hreject | ⟨u, hu, ht, htold⟩⟩ | ⟨-, exn, hbroken⟩ :=
      runShard_spec (f := fun _ shard => { shard with seen := shard.seen + 1 })
        (fun _ _ => rfl) (fun _ _ => rfl) hspec
    -- rejected, gone through, or broken off at the board
    · exact hquiet (fun h => h.free hreject.2) (congrArg Server.outbox hreject.1)
        (matchmaker_runShard _ _)
    · refine iff_of_true (Or.inl ⟨halive, ?_, hu.board⟩) fun userId huser => Or.inl ?_
      · obtain ⟨hwhite, hblack, hnew⟩ := hu.opens.enabled
        simp [MatchRejected, Dict.contains, hwhite, hblack, hnew]
      · refine matched_of_opens (hcrashed.trans halive) hu.opens ?_ htold huser
        rw [ht]
    · refine hquiet (fun h => h.board hbroken.board) ?_ (matchmaker_runShard _ _)
      rw [hbroken.opens.others]
  · -- a process that is down takes no match
    have hstep : c.step cfg (.deliver shardId env) = c := if_neg fun hready => halive hready.1
    rw [hstep]
    exact hquiet (fun h => halive h.alive) rfl rfl

/-- Only the matchmaker changes who is used. -/
theorem usedPublished_step (h : c.matchmaker.UsedPublished) (i : Input) :
    (c.step cfg i).matchmaker.UsedPublished := by
  by_cases hi : ∀ input, i ≠ .matchmaker input
  · rw [matchmaker_step hi]
    exact h
  · push Not at hi
    obtain ⟨input, rfl⟩ := hi
    exact h.step input

/-- In every run, who is used has been published or is about to be. -/
theorem usedPublished_run (cfg : ClusterConfig) (users : Dict UserId User)
    (games : Dict RoomId GameResult) (inputs : List Input) :
    (inputs.foldl (step cfg) (start users games)).matchmaker.UsedPublished :=
  Run.stable (P := fun c : Cluster => c.matchmaker.UsedPublished) (fun _ i h => usedPublished_step h i)
    (.of_nil rfl rfl)

/-- **No waiting user is lost, exactly as long as the shards accept their matches.** -/
theorem waitersServed_run (cfg : ClusterConfig) (users : Dict UserId User)
    (games : Dict RoomId GameResult) (inputs : List Input) :
    Run.Guarded (step cfg) (fun c i _ => c.MatchAccepted i) (start users games) inputs ↔
      ∀ pre i post, inputs = pre ++ i :: post →
        WaitersServed cfg (pre.foldl (step cfg) (start users games)) i := by
  rw [Run.guarded_iff_split]
  refine forall_congr' fun pre => forall_congr' fun i => forall_congr' fun post =>
    imp_congr_right fun _ => ?_
  constructor
  · -- what a shard accepts is served
    intro haccepted
    refine ⟨fun _ _ _ hout => (usedPublished_run cfg users games pre).takesOut hout, ?_⟩
    rintro shardId env roomId whiteId blackId rfl hdelivers
    exact (accepts_iff hdelivers).mp (haccepted hdelivers)
  · -- and what is served has been accepted
    intro hserved
    cases i with
    | deliver shardId env =>
      exact fun hdelivers => (accepts_iff hdelivers).mpr (hserved.served rfl hdelivers)
    | _ => trivial

/-- Alice opens a room while she and Bob wait; then they are matched and taken out of the queue. -/
def matchedTwice : List Input :=
  [.matchmaker (.enqueue Small.alice 1200), .matchmaker (.write Small.alice 1200 0),
    .matchmaker (.enqueue Small.bob 1200), .matchmaker (.write Small.bob 1200 1),
    .call (.createRoom Small.alice), .advance 0, .advance 0,
    .execute "game-server-1" (Small.env ["wK . bK"]), .reply "game-server-1",
    .matchmaker (.tick 2)] ++
  List.replicate 7 (.matchmaker (.work Small.otherRoom))

/-- The shard rejects the match because of Alice, and Bob is lost. -/
theorem waitersServed_run_bobLost :
    let c := matchedTwice.foldl (step Small.cluster) (start Dict.empty Dict.empty)
    Delivers c "game-server-1" Small.otherRoom Small.alice Small.bob ∧
      ¬ Served c (c.step Small.cluster (.deliver "game-server-1" (Small.env ["wK . bK"])))
        "game-server-1" Small.otherRoom Small.alice Small.bob Small.bob := by
  refine ⟨⟨by decide +kernel, by decide +kernel⟩, ?_⟩
  rw [served_iff_waits (by decide +kernel) (matchmaker_step fun _ => by simp)]
  rintro ⟨hqueued, -⟩
  revert hqueued
  decide +kernel

end Steps

end Cluster

end KungFuChess
