import Mathlib.Data.List.Pairwise
import KungFuChess.Library.GreedyMatching
import KungFuChess.Server.Pairing

/-!
# First come, first matched

`matchPairs` is the greedy matching of the queue by the Elo window, hence everything that holds
of a greedy matching (`FirstCome`). A `_try_match` that raises nothing opens a room for each
of the pairs, with the earlier user as White, announces the pairs in their order, and leaves the
others in the queue (`tryMatch_spec`).
-/

namespace KungFuChess

open Effect RoomService MatchmakingService GreedyMatching

/-! ### The pairs as a greedy matching -/

/-- The test of `_try_match`. -/
def WithinWindow (a b : QueueEntry) : Prop := |a.elo - b.elo| ≤ eloWindow

instance : DecidableRel WithinWindow := fun a b => inferInstanceAs (Decidable (|a.elo - b.elo| ≤ _))

/-- The window is the same from both sides. -/
instance : Std.Symm fun a b : QueueEntry => ¬ WithinWindow a b where
  symm a b h h' := h (by
    unfold WithinWindow at *
    rwa [abs_sub_comm])

/-- The pairs are what a first-come matching of the queue should be. -/
structure FirstCome (queue : List QueueEntry) (pairs : List (QueueEntry × QueueEntry))
    (left : List QueueEntry) : Prop where
  /-- Each entry still free is paired with the first later free entry within the window. -/
  greedy : Greedy WithinWindow queue pairs left
  within : ∀ pair ∈ pairs, WithinWindow pair.1 pair.2
  /-- The first of a pair is the earlier entry. -/
  ordered : ∀ pair ∈ pairs, [pair.1, pair.2].Sublist queue
  disjoint : (pairUsers pairs).Nodup
  complete : (members pairs ++ left).Perm queue
  kept : left.Sublist queue
  maximal : ∀ a ∈ left, ∀ b ∈ left, a ≠ b → ¬ WithinWindow a b

/-- The users seated by the pairs are the users of the members of the matching. -/
theorem pairUsers_eq (pairs : List (QueueEntry × QueueEntry)) :
    pairUsers pairs = (members pairs).map QueueEntry.userId := by
  unfold pairUsers members
  rw [List.map_flatMap]
  rfl

/-- A greedy matching by the window, read of the queue entries. -/
theorem FirstCome.of_greedy {queue left : List QueueEntry}
    {pairs : List (QueueEntry × QueueEntry)} (hdistinct : (queue.map QueueEntry.userId).Nodup)
    (h : Greedy WithinWindow queue pairs left) : FirstCome queue pairs left := by
  have hnodup := (h.perm.map QueueEntry.userId).nodup_iff.mpr hdistinct
  rw [List.map_append, ← pairUsers_eq] at hnodup
  exact ⟨h, h.fits_of_mem, h.ordered, (List.nodup_append.mp hnodup).1, h.perm, h.sublist,
    fun a ha b hb hne => h.maximal.forall ha hb hne⟩

/-- The scan of `_try_match` is the general one. -/
theorem matchPairs_eq_scan (queue : List QueueEntry) : ∀ used : List UserId,
    matchPairs queue used = scan QueueEntry.userId WithinWindow queue used := by
  induction queue with
  | nil => exact fun _ => rfl
  | cons a later ih =>
    intro used
    unfold matchPairs scan
    -- the branches of either scan are the same, and the rest is the induction
    split
    · exact ih used
    · rw [show later.find? (fun b => decide (b.userId ∉ used ∧ WithinWindow a b)) =
        findMatch used a later from rfl]
      cases findMatch used a later with
      | none => exact ih used
      | some b =>
        dsimp only
        rw [ih]

/-- The queue that `_try_match` leaves. -/
def unmatched (queue : List QueueEntry) : List QueueEntry :=
  queue.filter fun entry => entry.userId ∉ pairUsers (matchPairs queue [])

/-- **The pairs of a queue of distinct users are a first-come matching.** -/
theorem firstCome_matchPairs {queue : List QueueEntry}
    (hdistinct : (queue.map QueueEntry.userId).Nodup) :
    FirstCome queue (matchPairs queue []) (unmatched queue) := by
  have hgreedy : Greedy WithinWindow (free QueueEntry.userId queue [])
      (scan QueueEntry.userId WithinWindow queue [])
      (free QueueEntry.userId queue
        ([] ++ (members (scan QueueEntry.userId WithinWindow queue [])).map QueueEntry.userId)) :=
    greedy_scan hdistinct
  rw [← matchPairs_eq_scan, ← pairUsers_eq, List.nil_append] at hgreedy
  have hall : free QueueEntry.userId queue ([] : List UserId) = queue :=
    List.filter_eq_self.mpr fun entry _ => decide_eq_true List.not_mem_nil
  rw [hall] at hgreedy
  exact FirstCome.of_greedy hdistinct hgreedy

/-! ### What `_try_match` writes -/

/-- The pairs that have been announced: the notices to White. -/
def announced (outbox : List Outgoing) : List (UserId × UserId) :=
  outbox.filterMap fun outgoing =>
    match outgoing.message with
    | .matchFound _ white black .white => some (white, black)
    | _ => none

/-- The room of a pair whose game has started. -/
def startedRoom (env : Env) (pair : QueueEntry × QueueEntry) : Room :=
  { matchedRoom (pairRoom env pair) pair.1.userId pair.2.userId with gameStarted := true }

section Writes

variable {env : Env} {s : Server}

theorem announced_append (outbox outbox' : List Outgoing) :
    announced (outbox ++ outbox') = announced outbox ++ announced outbox' :=
  List.filterMap_append

/-- A notice of a match; the state that follows it announces nothing. -/
theorem notifyUser_announces (userId white black : UserId) (roomId : RoomId) (color : PlayerRole) :
    wp (notifyUser env userId (.matchFound roomId white black color))
      (fun _ t => t.rooms = s.rooms ∧ announced t.outbox =
        announced s.outbox ++ if color = .white then [(white, black)] else [])
      (fun _ _ => True) s := by
  unfold notifyUser
  refine wp_call (perform_spec _) (fun _ _ _ => trivial) ?_
  rintro _ t ⟨rfl, -⟩
  have hnotice : announced (t.send none [userId] (.matchFound roomId white black color)).outbox =
      announced t.outbox ++ if color = .white then [(white, black)] else [] := by
    refine (announced_append _ _).trans (congrArg _ ?_)
    cases color <;> rfl
  -- the notice comes first, and a state sent after it is no announcement
  rw [wp_bind, wp_modify, wp_bind, wp_get]
  split
  · exact ⟨rfl, hnotice⟩
  · rw [wp_modify]
    refine ⟨rfl, ((announced_append _ _).trans ?_).trans hnotice⟩
    exact List.append_nil _

/-- The hook writes engines only. -/
theorem onRoomCreated_writes (roomId : RoomId) :
    wp (GameService.onRoomCreated env roomId)
      (fun _ t => t.rooms = s.rooms ∧ t.outbox = s.outbox) (fun _ _ => True) s := by
  unfold GameService.onRoomCreated
  rw [wp_bind, wp_get]
  split
  · exact ⟨rfl, rfl⟩
  unfold GameService.createEngineForRoom InputTxtBoardLoader.load
  rw [wp_bind]
  refine wp_call (perform_spec _) (fun _ _ _ => trivial) ?_
  rintro _ t ⟨rfl, -⟩
  split
  · exact ⟨rfl, rfl⟩
  · trivial

/-- The room of a pair stands as it was made, and nothing is announced yet. -/
theorem createMatchedRoom_writes (userA userB : UserId) :
    wp (createMatchedRoom env userA userB none)
      (fun roomId t => roomId = env.tokenHex userA ∧ t.rooms.get? (env.tokenHex userA) =
          some { matchedRoom (env.tokenHex userA) userA userB with gameStarted := true } ∧
        t.outbox = s.outbox)
      (fun _ _ => True) s := by
  unfold createMatchedRoom
  rw [wp_bind, wp_get]
  split
  · trivial
  split
  · trivial
  change wp (if s.rooms.contains (env.tokenHex userA) = true then _ else _) _ _ s
  split
  · trivial
  rw [wp_bind, wp_modify]
  refine wp_call (onRoomCreated_writes _) (fun _ _ _ => trivial) ?_
  rintro _ t ⟨hrooms, houtbox⟩
  -- what is announced does not touch the room
  refine ⟨rfl, ?_, houtbox⟩
  rw [Server.get?_modifyRoom]
  rw [Option.getD_none, if_pos rfl, hrooms]
  change ((s.rooms.set (env.tokenHex userA) _).get? (env.tokenHex userA)).map _ = _
  rw [Dict.get?_set_self]
  rfl

/-- A pair that is seated has its room, and is announced once. -/
theorem seatPair_writes (pair : QueueEntry × QueueEntry) :
    wp (seatPair env pair.1 pair.2)
      (fun _ t => t.rooms.get? (pairRoom env pair) = some (startedRoom env pair) ∧
        announced t.outbox = announced s.outbox ++ [(pair.1.userId, pair.2.userId)])
      (fun _ _ => True) s := by
  unfold seatPair
  refine wp_call (createMatchedRoom_writes _ _) (fun _ _ _ => trivial) ?_
  rintro roomId t ⟨-, hroom, houtbox⟩
  refine wp_call (notifyUser_announces _ _ _ _ _) (fun _ _ _ => trivial) ?_
  rintro _ u ⟨hrooms, hwhite⟩
  refine wp_mono (notifyUser_announces _ _ _ _ _) ?_ fun _ _ _ => trivial
  rintro _ v ⟨hrooms', hblack⟩
  -- the notices leave the room alone, and White's notice is the one that counts
  refine ⟨?_, ?_⟩
  · rw [hrooms', hrooms]
    exact hroom
  · rw [hblack, hwhite, houtbox]
    exact List.append_nil _

/-- The pairs have their rooms, and have been announced in their order. -/
structure PairsOpened (env : Env) (pairs : List (QueueEntry × QueueEntry)) (s t : Server) : Prop where
  rooms : ∀ pair ∈ pairs, t.rooms.get? (pairRoom env pair) = some (startedRoom env pair)
  announces : announced t.outbox =
    announced s.outbox ++ pairs.map fun pair => (pair.1.userId, pair.2.userId)

end Writes

/-! ### The loop -/

section Loop

variable {env : Env} {s t u : Server} {done : List (QueueEntry × QueueEntry)}
  {pair : QueueEntry × QueueEntry}

/-- One pair more; its room is none of those of the pairs before it. -/
theorem PairsOpened.snoc (h : PairsOpened env done s t)
    (hfree : ¬ Taken env t pair.1.userId pair.2.userId)
    (ho : Opened (env.tokenHex pair.1.userId) pair.1.userId pair.2.userId t u)
    (hroom : u.rooms.get? (pairRoom env pair) = some (startedRoom env pair))
    (hannounced : announced u.outbox =
      announced t.outbox ++ [(pair.1.userId, pair.2.userId)]) :
    PairsOpened env (done ++ [pair]) s u := by
  refine ⟨fun pair' hpair' => ?_, ?_⟩
  · obtain hpair' | hpair' := List.mem_append.mp hpair'
    · -- the rooms of the pairs before are others than the new one
      have hold := h.rooms pair' hpair'
      have hne : pairRoom env pair' ≠ env.tokenHex pair.1.userId := fun heq =>
        hfree (Or.inr (Or.inr (Dict.contains_iff.mpr ⟨_, heq ▸ hold⟩)))
      rw [(ho.others _ hne).1, hold]
    · rw [List.mem_singleton.mp hpair', hroom]
  · rw [hannounced, h.announces, List.map_append, List.append_assoc]
    rfl

/-- **A `_try_match` without failures** opens the rooms of the pairs, announces them in order,
and leaves the others in the queue. -/
theorem tryMatch_spec
    (hnone : ∀ before pair after, matchPairs s.queue [] = before ++ pair :: after →
      ¬ PairFails env s before pair) :
    wp (tryMatch env)
      (fun _ t => PairsOpened env (matchPairs s.queue []) s t ∧ t.queue = unmatched s.queue)
      (fun _ _ => False) s := by
  have hopened : wp (matchLoop env s.queue []) (fun _ t =>
      PairsOpened env (matchPairs s.queue []) s t) (fun _ _ => True) s := by
    rw [matchLoop_eq, wp_bind]
    refine wp_mono (wp_forM_done (I := fun done t => PairsOpened env done s t)
      (E := fun _ _ _ _ => True) (fun done pair rest t _ ht => ?_) ?_) (fun _ _ ht => ht)
      fun _ _ _ => trivial
    · refine wp_mono (wp_and (seatPair_spec pair.1 pair.2) (seatPair_writes pair)) ?_
        fun _ _ _ => trivial
      rintro _ u ⟨⟨hopened, hfree, -⟩, hroom, hannounced⟩
      exact ht.snoc hfree hopened hroom hannounced
    · exact ⟨fun pair hpair => absurd hpair List.not_mem_nil, (List.append_nil _).symm⟩
  unfold tryMatch
  rw [wp_bind, wp_get]
  refine wp_call (wp_and (matchLoop_spec s.queue s) hopened) ?_ ?_
  · rintro _ t ⟨⟨-, before, pair, after, hsplit, hfails⟩, -⟩
    -- an exception would be the failure of a pair
    refine hnone before pair after hsplit ?_
    obtain ⟨htaken, -⟩ | ⟨-, hseat, -⟩ := hfails
    · exact Or.inl htaken
    · exact Or.inr hseat
  · rintro used t ⟨⟨rfl, -, hqueue, -⟩, ht⟩
    rw [wp_modify]
    refine ⟨⟨ht.rooms, ht.announces⟩, ?_⟩
    rw [hqueue]
    rfl

end Loop

end KungFuChess
