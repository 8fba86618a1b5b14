import KungFuChess.Library.Run
import KungFuChess.Server.Pairing

/-!
# Queued or seated

No user should be in the matchmaking queue and in a room at once (`Exclusive`). `play` checks
the rooms before it queues a user, but nothing takes a queued user out of the queue who opens
or joins a room, and a matchmaking tick writes the queue back at its end only, so a pair that
fails leaves the pairs before it queued and seated. `SeatsQueued` names these steps, and
`exclusive_iff` says that a run keeps the exclusion exactly as long as it takes none of them.
-/

namespace KungFuChess

open Effect RoomService MatchmakingService

/-- No user is queued and mapped to a room. -/
def Exclusive (s : Server) : Prop :=
  ∀ u, isQueued s u = true → s.userRoom.get? u = none

/-- The step seats a queued user and leaves him in the queue: he opens a room, or joins one that
exists, or is put into a match from outside; or a matchmaking tick seats its first pair, and
then a pair of the tick fails. -/
def SeatsQueued (cfg : Config) (s : Server) (event : Env × Event) : Prop :=
  match event.2 with
  | .createRoom userId => isQueued s userId = true
  | .joinRoom userId roomId => isQueued s userId = true ∧ s.rooms.contains roomId = true
  | .createMatch roomId whiteId blackId =>
    (isQueued s whiteId = true ∨ isQueued s blackId = true) ∧ s.userRoom.get? whiteId = none ∧
      s.userRoom.get? blackId = none ∧ s.rooms.contains roomId = false
  | .matchmakingTick =>
    cfg.deployment = .inProcess ∧ ¬ TimeoutFails event.1 s ∧
      (∃ done pair rest, matchPairs (waiting event.1 s.queue) [] = done ++ pair :: rest ∧
        PairFails event.1 s done pair) ∧
      ∀ pair rest, matchPairs (waiting event.1 s.queue) [] = pair :: rest →
        ¬ PairTaken event.1 s [] pair
  | _ => False

/-! ### The queue and the map after a step -/

/-- The queue and the map of the state are these. -/
def MapsAre (queue : List QueueEntry) (userRoom : Dict UserId RoomId) (s : Server) : Prop :=
  s.queue = queue ∧ s.userRoom = userRoom

/-- The actions that write neither the queue nor the map. -/
def Action.KeepsMaps : Action → Prop
  | .openRoom _ _ | .openMatchedRoom _ _ _ | .join _ _ _ | .leave _ _ | .setQueue _ => False
  | _ => True

section Maps

variable {cfg : Config} {env : Env} {s t : Server} {userId : UserId} {roomId : RoomId}
  {queue : List QueueEntry} {userRoom : Dict UserId RoomId}

theorem Acts.mapsAre {allowed : Action → Prop} (h : Acts allowed s t)
    (hkeeps : ∀ a, allowed a → a.KeepsMaps) (hs : MapsAre queue userRoom s) :
    MapsAre queue userRoom t := by
  refine h.invariant (fun a u hallowed ha hu => ?_) hs
  have hkeeps := hkeeps a hallowed
  cases a with
  | openRoom | openMatchedRoom | join | leave | setQueue => exact hkeeps.elim
  | createEngine | startGame | connection | engine | setElo | markElo | register => exact hu
  | aside state =>
    change state = _ at ha
    change MapsAre queue userRoom state
    rw [ha]
    exact hu

theorem Does.mapsAre {α : Type} {x : ServerM α} (h : Does Action.KeepsMaps x) :
    Keeps (MapsAre queue userRoom) x :=
  fun t ht => wp_mono (h.wp t) (fun _ _ hu => hu.mapsAre (fun _ ha => ha) ht)
    (fun _ _ hu => hu.mapsAre (fun _ ha => ha) ht)

/-- From a state that a write has led to, the rest keeps the queue and the map. -/
theorem mapsAre_of_acts {α : Type} {x : ServerM α}
    (h : wp x (fun _ => Acts Action.KeepsMaps s) (fun _ => Acts Action.KeepsMaps s) s)
    (hs : MapsAre queue userRoom s) :
    wp x (fun _ => MapsAre queue userRoom) (fun _ => MapsAre queue userRoom) s :=
  wp_mono h (fun _ _ ht => ht.mapsAre (fun _ ha => ha) hs)
    (fun _ _ ht => ht.mapsAre (fun _ ha => ha) hs)

/-- What `create_room` leaves of the map. -/
theorem createRoom_maps :
    wp (RoomService.createRoom env userId)
      (fun _ => MapsAre s.queue (if s.userRoom.contains userId then s.userRoom
        else s.userRoom.set userId (env.tokenHex userId)))
      (fun _ => MapsAre s.queue (if s.userRoom.contains userId then s.userRoom
        else s.userRoom.set userId (env.tokenHex userId))) s := by
  unfold RoomService.createRoom
  rw [wp_bind, wp_get]
  split
  · exact ⟨rfl, rfl⟩
  · rw [wp_bind, wp_modify]
    -- the hook and the start keep the map that the write has left
    refine mapsAre_of_acts ?_ ⟨rfl, rfl⟩
    refine wp_call (onRoomCreated_acts (fun _ _ => trivial) (Acts.refl _)
      ⟨_, Dict.get?_set_self _ _ _⟩) (fun _ _ ht => ht) (fun _ t ht => ?_)
    exact ((startGame_does (fun _ => trivial) _).bind fun _ => Does.pure _).wp_of_acts ht

/-- What `join_room` leaves of it. -/
theorem joinRoom_maps :
    wp (RoomService.joinRoom env roomId userId)
      (fun _ => MapsAre s.queue (if s.userRoom.contains userId = false ∧
        s.rooms.contains roomId = true then s.userRoom.set userId roomId else s.userRoom))
      (fun _ => MapsAre s.queue (if s.userRoom.contains userId = false ∧
        s.rooms.contains roomId = true then s.userRoom.set userId roomId else s.userRoom)) s := by
  unfold RoomService.joinRoom
  rw [wp_bind, wp_get]
  cases hroom : s.rooms.get? roomId with
  | none =>
    have hnone : s.rooms.contains roomId = false := by rw [Dict.contains, hroom]; rfl
    rw [if_neg (by simp [hnone])]
    exact ⟨rfl, rfl⟩
  | some room =>
    have hsome : s.rooms.contains roomId = true := by rw [Dict.contains, hroom]; rfl
    dsimp only
    split
    · next hmapped =>
      rw [if_neg (by simp [hmapped])]
      exact ⟨rfl, rfl⟩
    · next hfree =>
      -- the seat is written before the hook runs
      rw [if_pos ⟨Bool.eq_false_iff.mpr hfree, hsome⟩, wp_bind, wp_modify]
      refine mapsAre_of_acts ?_ ⟨rfl, rfl⟩
      refine wp_call (startForPlayer_acts (fun _ _ => trivial) (fun _ => trivial) (Acts.refl _)
        ⟨{ room with members := room.members.set userId ⟨userId, nextRole room, .connected, none⟩ }, ?_⟩)
        (fun _ _ ht => ht) (fun _ _ ht => ht)
      change (s.modifyRoom roomId _).rooms.get? roomId = _
      rw [Server.get?_modifyRoom, if_pos rfl, hroom, Option.map_some]

/-- What a match from the matchmaker leaves of it. -/
theorem handleCreateMatch_maps {whiteId blackId : UserId} :
    wp (handleCreateMatch cfg env roomId whiteId blackId)
      (fun _ => MapsAre s.queue (if s.userRoom.contains whiteId = false ∧
        s.userRoom.contains blackId = false ∧ s.rooms.contains roomId = false then
          (s.userRoom.set whiteId roomId).set blackId roomId else s.userRoom))
      (fun _ => MapsAre s.queue (if s.userRoom.contains whiteId = false ∧
        s.userRoom.contains blackId = false ∧ s.rooms.contains roomId = false then
          (s.userRoom.set whiteId roomId).set blackId roomId else s.userRoom)) s := by
  unfold handleCreateMatch
  refine wp_bind_of_keeps ?_ fun _ => Does.mapsAre ?_
  · unfold createMatchedRoom
    rw [wp_bind, wp_get]
    split
    · next hwhite =>
      rw [if_neg (by simp [hwhite])]
      exact ⟨rfl, rfl⟩
    split
    · next hblack =>
      rw [if_neg (by simp [hblack])]
      exact ⟨rfl, rfl⟩
    -- the identifier given is the one that is checked
    change wp (if s.rooms.contains roomId = true then _ else _) _ _ s
    split
    · next hroom =>
      rw [if_neg (by simp [hroom])]
      exact ⟨rfl, rfl⟩
    next hwhite hblack hroom =>
    rw [if_pos ⟨Bool.eq_false_iff.mpr hwhite, Bool.eq_false_iff.mpr hblack,
      Bool.eq_false_iff.mpr hroom⟩, wp_bind, wp_modify]
    -- the hook and the start keep the map that the write has left
    refine mapsAre_of_acts ?_ ⟨rfl, rfl⟩
    refine wp_call (onRoomCreated_acts (fun _ _ => trivial) (Acts.refl _)
      ⟨_, Dict.get?_set_self _ _ _⟩) (fun _ _ ht => ht) (fun _ t ht => ?_)
    exact ((startGame_does (fun _ => trivial) _).bind fun _ => Does.pure _).wp_of_acts ht
  · have haside : ∀ t, Action.KeepsMaps (.aside t) := fun _ => trivial
    refine (bindPlayers_does haside _ _).bind fun _ => ?_
    refine (publishOutbound_does haside _ _ _).bind fun _ => ?_
    refine (publishOutbound_does haside _ _ _).bind fun _ => Does.get_bind fun u => ?_
    split
    · exact Acts.refl u
    · exact (publishOutbound_does haside _ _ _).wp u

/-- `play` queues a user who is in no room. -/
theorem play_maps :
    wp (LobbyService.play cfg env userId)
      (fun _ t => t.userRoom = s.userRoom ∧ (t.queue = s.queue ∨
        s.userRoom.get? userId = none ∧ ∃ elo, t.queue = s.queue ++ [⟨userId, elo, env.now⟩]))
      (fun _ t => t.userRoom = s.userRoom ∧ t.queue = s.queue) s := by
  unfold LobbyService.play
  rw [wp_bind, wp_get]
  split
  · exact ⟨rfl, Or.inl rfl⟩
  next hroom =>
  have hfree : s.userRoom.get? userId = none := by
    rwa [Bool.not_eq_true, Option.isSome_eq_false_iff, Option.isNone_iff_eq_none] at hroom
  rw [wp_bind]
  -- a shard has no queue, and a user already queued stays where it is
  unfold LobbyService.enqueue
  split
  · unfold MatchmakingService.enqueue
    rw [wp_bind, wp_get]
    split
    · exact ⟨rfl, Or.inl rfl⟩
    · unfold getElo
      rw [wp_bind]
      refine wp_call (getById_spec _ _) ?_ ?_
      · rintro _ t ⟨rfl, -⟩
        exact ⟨rfl, rfl⟩
      · rintro user t ⟨rfl, -, -⟩
        exact ⟨rfl, Or.inr ⟨hfree, _, rfl⟩⟩
  · exact ⟨rfl, Or.inl rfl⟩

/-- What leaves the queue or a room stays out of both. -/
structure Shrinks (s t : Server) : Prop where
  queue : ∀ u, isQueued t u = true → isQueued s u = true
  userRoom : ∀ u, s.userRoom.get? u = none → t.userRoom.get? u = none

theorem Shrinks.refl (s : Server) : Shrinks s s := ⟨fun _ h => h, fun _ h => h⟩

theorem Shrinks.exclusive (h : Shrinks s t) (hs : Exclusive s) : Exclusive t :=
  fun u hu => h.userRoom u (hs u (h.queue u hu))

/-- A cancelled search. -/
theorem cancel_shrinks : wp (LobbyService.cancel cfg userId) (fun _ => Shrinks s)
    (fun _ => Shrinks s) s := by
  unfold LobbyService.cancel
  split
  · unfold MatchmakingService.cancel
    rw [wp_bind, wp_get, wp_bind, wp_modify, wp_pure]
    refine ⟨fun u hu => ?_, fun _ h => h⟩
    obtain ⟨entry, hentry, hsame⟩ := List.any_eq_true.mp hu
    exact List.any_eq_true.mpr ⟨entry, (List.mem_filter.mp hentry).1, hsame⟩
  · exact Shrinks.refl s

/-- A lost connection. -/
theorem onClientDisconnected_shrinks :
    wp (ServerRuntime.onClientDisconnected cfg env userId) (fun _ => Shrinks s)
      (fun _ => Shrinks s) s := by
  unfold ServerRuntime.onClientDisconnected
  refine wp_bind_of_keeps cancel_shrinks fun _ => Keeps.bind (fun t ht => ?_) fun roomId? => ?_
  -- only the viewer's case touches the map, and it deletes from it
  · refine wp_mono (markDisconnected_cases env userId t) (fun _ u hu => ?_) ?_
    · cases hu with
      | nobody => exact ht
      | left =>
        refine ⟨ht.queue, fun u hu => ?_⟩
        change (t.userRoom.pop userId).get? u = none
        rw [Dict.get?_pop]
        split
        · rfl
        · exact ht.userRoom u hu
      | marked => exact ⟨ht.queue, ht.userRoom⟩
    · rintro _ _ rfl
      exact ht
  · -- the countdown is told to the members
    intro t ht
    have hshrinks : ∀ {u}, MapsAre t.queue t.userRoom u → Shrinks s u := by
      rintro u ⟨hqueue, huserRoom⟩
      refine ⟨fun v hv => ht.queue v ?_, fun v hv => huserRoom ▸ ht.userRoom v hv⟩
      unfold isQueued at hv ⊢
      rwa [hqueue] at hv
    cases roomId? with
    | none => exact ht
    | some roomId =>
      have hmaps : Keeps (MapsAre t.queue t.userRoom)
          (ServerRuntime.broadcastCountdown env roomId userId 20) :=
        (broadcastCountdown_does (fun _ => trivial) roomId userId 20).mapsAre
      exact wp_mono (hmaps t ⟨rfl, rfl⟩) (fun _ _ h => hshrinks h) fun _ _ h => hshrinks h

end Maps

/-! ### One step -/

section Step

variable {cfg : Config} {env : Env} {s t : Server} {userId : UserId} {roomId : RoomId}

theorem isQueued_iff : isQueued s userId = true ↔ ∃ entry ∈ s.queue, entry.userId = userId := by
  unfold isQueued
  rw [List.any_eq_true]
  simp only [decide_eq_true_eq]

theorem MapsAre.isQueued_eq {userRoom : Dict UserId RoomId} (h : MapsAre s.queue userRoom t) :
    isQueued t userId = isQueued s userId := by
  unfold isQueued
  rw [h.1]

/-- The maps are what they were. -/
theorem MapsAre.exclusive (hs : Exclusive s) (h : MapsAre s.queue s.userRoom t) : Exclusive t := by
  intro u hu
  rw [h.isQueued_eq] at hu
  rw [h.2]
  exact hs u hu

/-- A user has been seated. -/
theorem MapsAre.exclusive_set_iff (hs : Exclusive s)
    (h : MapsAre s.queue (s.userRoom.set userId roomId) t) :
    Exclusive t ↔ ¬ isQueued s userId = true := by
  constructor
  · -- were the user queued, they would be in no room
    intro ht hqueued
    have hfree := ht userId (h.isQueued_eq.trans hqueued)
    rw [h.2, Dict.get?_set_self] at hfree
    exact absurd hfree (by simp)
  · intro hqueued u hu
    rw [h.isQueued_eq] at hu
    have hne : u ≠ userId := by
      rintro rfl
      exact hqueued hu
    rw [h.2, Dict.get?_set, if_neg hne]
    exact hs u hu

/-- Two users have been seated. -/
theorem MapsAre.exclusive_set_set_iff {other : UserId} (hs : Exclusive s)
    (h : MapsAre s.queue ((s.userRoom.set userId roomId).set other roomId) t) :
    Exclusive t ↔ ¬ (isQueued s userId = true ∨ isQueued s other = true) := by
  have hget : ∀ u, t.userRoom.get? u = if u = other then some roomId
      else if u = userId then some roomId else s.userRoom.get? u := by
    intro u
    rw [h.2, Dict.get?_set, Dict.get?_set]
  constructor
  · -- a seated user that is queued breaks the exclusion
    rintro ht (hqueued | hqueued)
    · have hfree := ht userId (h.isQueued_eq.trans hqueued)
      rw [hget] at hfree
      by_cases hsame : userId = other
      · rw [if_pos hsame] at hfree
        exact absurd hfree (by simp)
      · rw [if_neg hsame, if_pos rfl] at hfree
        exact absurd hfree (by simp)
    · have hfree := ht other (h.isQueued_eq.trans hqueued)
      rw [hget, if_pos rfl] at hfree
      exact absurd hfree (by simp)
  · -- and a queued user is neither of the two, so it is where it was
    intro hqueued u hu
    rw [h.isQueued_eq] at hu
    have hneOther : u ≠ other := by
      rintro rfl
      exact hqueued (Or.inr hu)
    have hne : u ≠ userId := by
      rintro rfl
      exact hqueued (Or.inl hu)
    rw [hget, if_neg hneOther, if_neg hne]
    exact hs u hu

/-- A tick has seated some pairs, and their entries are still queued. -/
theorem Paired.not_exclusive {done : List (QueueEntry × QueueEntry)}
    {pair : QueueEntry × QueueEntry} (h : Paired env done s t) (hpair : pair ∈ done)
    (hentry : pair.1 ∈ t.queue) : ¬ Exclusive t := by
  intro ht
  have hfree := ht pair.1.userId (isQueued_iff.mpr ⟨pair.1, hentry, rfl⟩)
  have hmapped : t.userRoom.contains pair.1.userId = true := by
    rw [h.mapped]
    exact Or.inr (List.mem_flatMap.mpr ⟨pair, hpair, List.mem_cons_self⟩)
  rw [Dict.contains, hfree] at hmapped
  exact absurd hmapped (by simp)

/-- The first pair of a tick that seats it is not turned away. -/
theorem Paired.first_free {done : List (QueueEntry × QueueEntry)}
    {first : QueueEntry × QueueEntry} (h : Paired env done s t) (hfirst : first ∈ done)
    (hs : Exclusive s) (hentries : first.1 ∈ s.queue ∧ first.2 ∈ s.queue) :
    ¬ PairTaken env s [] first := by
  have hfree : ∀ {entry}, entry ∈ s.queue → s.userRoom.contains entry.userId = false := by
    intro entry hentry
    rw [Dict.contains, hs _ (isQueued_iff.mpr ⟨entry, hentry, rfl⟩)]
    rfl
  intro htaken
  -- the queued users are in no room, and nothing has been seated before the first pair
  obtain (hA | hA) | (hB | hB) | (hr | hr) := htaken
  · exact absurd ((hfree hentries.1).symm.trans hA) (by simp)
  · exact absurd hA List.not_mem_nil
  · exact absurd ((hfree hentries.2).symm.trans hB) (by simp)
  · exact absurd hB List.not_mem_nil
  · have hnew := h.fresh _ (List.mem_map.mpr ⟨first, hfirst, rfl⟩)
    exact absurd (hnew.symm.trans hr) (by simp)
  · exact absurd hr List.not_mem_nil

/-- A tick has seated some pairs, and who is still queued is in none of them. -/
theorem Paired.exclusive {done : List (QueueEntry × QueueEntry)} (h : Paired env done s t)
    (hs : Exclusive s) (hqueue : ∀ entry ∈ t.queue, entry ∈ s.queue ∧
      entry.userId ∉ pairUsers done) : Exclusive t := by
  intro u hu
  obtain ⟨entry, hentry, rfl⟩ := isQueued_iff.mp hu
  obtain ⟨hold, hunused⟩ := hqueue entry hentry
  have hfree := hs entry.userId (isQueued_iff.mpr ⟨entry, hold, rfl⟩)
  refine contains_eq_false fun hmapped => ?_
  rw [h.mapped, Dict.contains, hfree] at hmapped
  exact hmapped.elim (by simp) hunused

/-- A tick that has seated its first pair and raises leaves that pair queued. -/
theorem Paired.exclusive_iff_kept {seated done rest : List (QueueEntry × QueueEntry)}
    {pair : QueueEntry × QueueEntry} (h : Paired env seated s t) (hs : Exclusive s)
    (hin : cfg.deployment = .inProcess) (htimeout : ¬ TimeoutFails env s)
    (hsplit : matchPairs (waiting env s.queue) [] = done ++ pair :: rest)
    (hfails : PairFails env s done pair) (hqueue : t.queue = waiting env s.queue)
    (hhead : ∀ first, (done ++ pair :: rest).head? = some first → first ∈ seated) :
    Exclusive t ↔ ¬ SeatsQueued cfg s (env, .matchmakingTick) := by
  -- some pair comes first, and it is one of the seated
  obtain ⟨first, later, hfirst⟩ : ∃ first later, done ++ pair :: rest = first :: later := by
    cases done with
    | nil => exact ⟨pair, rest, rfl⟩
    | cons p done => exact ⟨p, done ++ pair :: rest, rfl⟩
  have hmem : first ∈ seated := hhead first (by rw [hfirst]; rfl)
  have hpairs : first ∈ matchPairs (waiting env s.queue) [] := by
    rw [hsplit, hfirst]
    exact List.mem_cons_self
  have hentries := mem_of_mem_matchPairs hpairs
  have hwaiting : first.1 ∈ s.queue ∧ first.2 ∈ s.queue :=
    ⟨(List.mem_filter.mp hentries.1).1, (List.mem_filter.mp hentries.2).1⟩
  -- the pair is in the queue that is written back, so both sides fail
  refine iff_of_false (h.not_exclusive hmem (hqueue ▸ hentries.1)) (not_not_intro
    ⟨hin, htimeout, ⟨done, pair, rest, hsplit, hfails⟩, fun p later' hp => ?_⟩)
  rw [hsplit, hfirst] at hp
  obtain ⟨rfl, -⟩ := List.cons.inj hp
  exact h.first_free hmem hs hwaiting

/-- **The matchmaking tick keeps the exclusion exactly when it seats nobody who stays queued.** -/
theorem MatchmakingOutcome.exclusive_iff_kept {raised : Bool} (hs : Exclusive s)
    (h : MatchmakingOutcome cfg env s raised t) :
    Exclusive t ↔ ¬ SeatsQueued cfg s (env, .matchmakingTick) := by
  have hwaiting : ∀ {entry}, entry ∈ waiting env s.queue → entry ∈ s.queue :=
    fun hentry => (List.mem_filter.mp hentry).1
  cases h with
  | shard hshard => exact iff_of_true hs fun h => hshard h.1
  | timeoutFails t hin h ht =>
    -- the tick stops before it seats anybody
    refine iff_of_true (MapsAre.exclusive hs ?_) fun hseats => hseats.2.1 h
    rw [ht]
    exact ⟨rfl, rfl⟩
  | pairTaken done rest pair t hin htimeout hsplit h hpaired hqueue =>
    cases done with
    | nil =>
      -- nobody has been seated
      refine iff_of_true (hpaired.exclusive hs fun entry hentry => ?_) fun hseats =>
        hseats.2.2.2 pair rest hsplit h
      exact ⟨hwaiting (hqueue ▸ hentry), List.not_mem_nil⟩
    | cons first done =>
      refine hpaired.exclusive_iff_kept hs hin htimeout hsplit (Or.inl h) hqueue fun p hp => ?_
      cases hp
      exact List.mem_cons_self
  | seatFails done rest pair t hin htimeout hsplit hfree h hpaired hqueue =>
    -- the pair that fails is itself seated
    refine hpaired.exclusive_iff_kept hs hin htimeout hsplit (Or.inr h) hqueue fun p hp => ?_
    cases done with
    | nil =>
      cases hp
      exact List.mem_cons_self
    | cons first done =>
      cases hp
      exact List.mem_cons_self
  | matched t hin htimeout hnone hpaired hqueue =>
    -- the users of the pairs leave the queue, and the others are in no room
    refine iff_of_true (hpaired.exclusive hs fun entry hentry => ?_) fun hseats => ?_
    · rw [hqueue] at hentry
      obtain ⟨hentry, hunused⟩ := List.mem_filter.mp hentry
      exact ⟨hwaiting hentry, of_decide_eq_true hunused⟩
    · obtain ⟨done, pair, rest, hsplit, hfails⟩ := hseats.2.2.1
      exact hnone done pair rest hsplit hfails

/-- What holds whichever way an event ends holds after the step. -/
theorem step_of_wp (cfg : Config) (env : Env) (s : Server) {P : Server → Prop} (event : Event)
    (h : wp (event.run cfg env) (fun _ => P) (fun _ => P) s) : P (s.step cfg (env, event)) :=
  wp_iff_after.mp h

/-- `play` checks the rooms first. -/
theorem exclusive_play (hs : Exclusive s) (userId : UserId) :
    Exclusive (s.step cfg (env, .play userId)) := by
  refine step_of_wp cfg env s (.play userId) ?_
  change wp (LobbyService.play cfg env userId >>= fun _ => pure ()) _ _ s
  refine wp_call play_maps (fun _ t ht => MapsAre.exclusive hs ⟨ht.2, ht.1⟩) ?_
  rintro _ t ⟨huserRoom, hqueue | ⟨hfree, elo, hqueue⟩⟩
  · exact MapsAre.exclusive hs ⟨hqueue, huserRoom⟩
  · -- the one new entry is of a user in no room
    intro u hu
    rw [huserRoom]
    obtain ⟨entry, hentry, rfl⟩ := isQueued_iff.mp hu
    rw [hqueue] at hentry
    obtain hentry | hentry := List.mem_append.mp hentry
    · exact hs _ (isQueued_iff.mpr ⟨entry, hentry, rfl⟩)
    · rw [List.mem_singleton.mp hentry]
      exact hfree

/-- `create_room` does not look at the queue. -/
theorem exclusive_createRoom_iff (hs : Exclusive s) (userId : UserId) :
    Exclusive (s.step cfg (env, .createRoom userId)) ↔
      ¬ SeatsQueued cfg s (env, .createRoom userId) := by
  have hmaps := step_of_wp cfg env s (.createRoom userId) (wp_bind_of_keeps (wp_tryCatch_of_keeps
    (wp_bind_of_keeps createRoom_maps fun _ => Keeps.pure _)
    fun exn => (onValueError_does exn).mapsAre)
    fun outcome => Keeps.ite (bindPlayers_does (fun _ => trivial) _ _).mapsAre (Keeps.pure _))
  -- a user in a room is refused, and opens none
  split at hmaps
  · next hmapped =>
    refine iff_of_true (hmaps.exclusive hs) fun hqueued => ?_
    rw [Dict.contains, hs userId hqueued] at hmapped
    exact absurd hmapped (by simp)
  · exact hmaps.exclusive_set_iff hs

/-- Nor does `join_room`. -/
theorem exclusive_joinRoom_iff (hs : Exclusive s) (userId : UserId) (roomId : RoomId) :
    Exclusive (s.step cfg (env, .joinRoom userId roomId)) ↔
      ¬ SeatsQueued cfg s (env, .joinRoom userId roomId) := by
  have hbind : Does Action.KeepsMaps (bindPlayer cfg userId roomId) := by
    unfold bindPlayer
    split
    · exact Does.pure _
    · exact Does.aside (fun _ => trivial) fun _ => by rfl
  -- the map changes only if the user is free and the room exists
  have hmaps := step_of_wp cfg env s (.joinRoom userId roomId) (wp_bind_of_keeps
    (wp_tryCatch_of_keeps
      (wp_bind_of_keeps joinRoom_maps fun _ => Keeps.bind Keeps.get fun _ => Keeps.pure _)
      fun exn => (onValueError_does exn).mapsAre)
    fun outcome => Keeps.ite hbind.mapsAre (Keeps.pure _))
  split at hmaps
  · next hjoins =>
    rw [hmaps.exclusive_set_iff hs]
    exact not_congr ⟨fun hqueued => ⟨hqueued, hjoins.2⟩, fun h => h.1⟩
  · next hrefused =>
    refine iff_of_true (hmaps.exclusive hs) fun hqueued => hrefused ⟨?_, hqueued.2⟩
    rw [Dict.contains, hs userId hqueued.1]
    rfl

/-- Nor does a match that arrives. -/
theorem exclusive_createMatch_iff (hs : Exclusive s) (roomId : RoomId)
    (whiteId blackId : UserId) :
    Exclusive (s.step cfg (env, .createMatch roomId whiteId blackId)) ↔
      ¬ SeatsQueued cfg s (env, .createMatch roomId whiteId blackId) := by
  have hmaps := step_of_wp cfg env s (.createMatch roomId whiteId blackId) handleCreateMatch_maps
  have hfree : ∀ {u}, s.userRoom.contains u = false ↔ s.userRoom.get? u = none := by
    intro u
    rw [Dict.contains, Option.isSome_eq_false_iff, Option.isNone_iff_eq_none]
  split at hmaps
  · next hopens =>
    -- the match opens: both players are seated, and neither may wait
    rw [hmaps.exclusive_set_set_iff hs]
    exact not_congr ⟨fun hqueued => ⟨hqueued, hfree.mp hopens.1, hfree.mp hopens.2.1,
      hopens.2.2⟩, fun h => h.1⟩
  · next hrefused =>
    -- the match is refused, and the maps stay
    exact iff_of_true (hmaps.exclusive hs) fun h =>
      hrefused ⟨hfree.mpr h.2.1, hfree.mpr h.2.2.1, h.2.2.2⟩

/-- **One step keeps the exclusion unless it seats a queued user.** -/
theorem exclusive_step_iff (hs : Exclusive s) (event : Env × Event) :
    Exclusive (s.step cfg event) ↔ ¬ SeatsQueued cfg s event := by
  obtain ⟨env, event⟩ := event
  cases event with
  | register | submitMove | reconnect | tickAll | processDisconnectGrace | forceForfeit =>
    -- these events write neither the queue nor the map
    refine iff_of_true (MapsAre.exclusive hs ((s.step_acts cfg (env, _)).mapsAre
      (fun a ha => ?_) ⟨rfl, rfl⟩)) id
    cases a <;> first | trivial | simp [Action.Of] at ha
  | play userId => exact iff_of_true (exclusive_play hs userId) id
  -- whoever searches no more leaves the queue
  | cancelPlay userId =>
    refine iff_of_true (step_of_wp cfg env s (.cancelPlay userId) ?_) id
    change wp ((LobbyService.cancel cfg userId >>= fun _ => pure _) >>= fun _ => pure ()) _ _ s
    rw [wp_bind]
    exact wp_call cancel_shrinks (fun _ _ h => h.exclusive hs) fun _ _ h => h.exclusive hs
  | clientDisconnected userId =>
    refine iff_of_true (step_of_wp cfg env s (.clientDisconnected userId) ?_) id
    exact wp_mono onClientDisconnected_shrinks (fun _ _ h => h.exclusive hs)
      fun _ _ h => h.exclusive hs
  -- the four events that seat users
  | createRoom userId => exact exclusive_createRoom_iff hs userId
  | joinRoom userId roomId => exact exclusive_joinRoom_iff hs userId roomId
  | createMatch roomId whiteId blackId => exact exclusive_createMatch_iff hs roomId whiteId blackId
  | matchmakingTick =>
    refine step_of_wp cfg env s
      (P := fun t => Exclusive t ↔ ¬ SeatsQueued cfg s (env, .matchmakingTick)) .matchmakingTick ?_
    exact wp_mono (matchmakingTick_cases cfg env s) (fun _ _ h => h.exclusive_iff_kept hs)
      fun _ _ h => h.exclusive_iff_kept hs

end Step

/-- **Queued or seated, never both**: a run has the exclusion in every state exactly when no
step of it seats a queued user. -/
theorem exclusive_iff (cfg : Config) (users : Dict UserId User) (games : Dict RoomId GameResult)
    (events : List (Env × Event)) :
    (∀ pre, pre <+: events → Exclusive ((Server.initial users games).play cfg pre)) ↔
      Run.Guarded (Server.step cfg) (fun s event _ => ¬ SeatsQueued cfg s event)
        (Server.initial users games) events := by
  have hstart : Exclusive (Server.initial users games) := fun u _ => rfl
  refine (Run.throughout_iff_prefix _ _).symm.trans (Iff.symm ?_)
  exact Run.guarded_iff_throughout (J := fun _ _ => True) (P := fun s _ => Exclusive s)
    (fun _ _ _ _ => trivial) (fun s event _ _ hs => (exclusive_step_iff hs event).symm) trivial
    hstart

/-- Alice asks for a match and then opens a room of her own. -/
def impatientRun : List (Env × Event) :=
  [.play Small.alice, .createRoom Small.alice].map fun event => (Small.env ["wR bK"], event)

/-- Who opens a room while waiting is queued and seated. -/
theorem not_exclusive_impatientRun :
    ¬ Exclusive (Small.start.play Small.config impatientRun) := by
  intro hexclusive
  have hqueued : isQueued (Small.start.play Small.config impatientRun) Small.alice = true := by
    decide +kernel
  have hseated : (Small.start.play Small.config impatientRun).userRoom.get? Small.alice =
      some Small.room := by decide +kernel
  exact absurd (hseated.symm.trans (hexclusive _ hqueued)) (by simp)

end KungFuChess
