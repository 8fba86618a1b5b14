import KungFuChess.Server.Actions

/-!
# What a matchmaking tick can do

Which pairs a tick seats is decided by the queue alone (`matchPairs`), so the loop of
`_try_match` is a loop over these pairs (`matchLoop_eq`). Seating a pair checks, writes the two
maps, builds the engine and tells both users, in this order: a pair that fails is either turned
away before anything is written (`PairTaken`) or is seated all the same (`SeatFails`).

`MatchmakingOutcome` lists how a tick ends, and `matchmakingTick_cases` proves that it ends in
no other way. The queue is written back only at the end of either half.
-/

namespace KungFuChess

open Effect RoomService MatchmakingService

/-! ### The pairs of a queue -/

/-- The user has waited for the whole timeout. -/
def isExpired (env : Env) (entry : QueueEntry) : Bool :=
  queueTimeoutSeconds ≤ env.now - entry.enqueuedAt

/-- The queue that `_expire_timeouts` leaves. -/
def waiting (env : Env) (queue : List QueueEntry) : List QueueEntry :=
  queue.filter fun entry => !isExpired env entry

/-- The pairs that `_try_match` seats, in order, if nothing raises. -/
def matchPairs : List QueueEntry → List UserId → List (QueueEntry × QueueEntry)
  | [], _ => []
  | a :: later, used =>
    if a.userId ∈ used then matchPairs later used
    else
      match findMatch used a later with
      | none => matchPairs later used
      | some b => (a, b) :: matchPairs later (used ++ [a.userId, b.userId])

/-- The users of the pairs, in the order in which they are marked as used. -/
def pairUsers (pairs : List (QueueEntry × QueueEntry)) : List UserId :=
  pairs.flatMap fun pair => [pair.1.userId, pair.2.userId]

/-- The identifier drawn for the room of a pair. -/
def pairRoom (env : Env) (pair : QueueEntry × QueueEntry) : RoomId := env.tokenHex pair.1.userId

/-- The pairs are made of queue entries. -/
theorem mem_of_mem_matchPairs {queue : List QueueEntry} {pair : QueueEntry × QueueEntry} :
    ∀ {used : List UserId}, pair ∈ matchPairs queue used → pair.1 ∈ queue ∧ pair.2 ∈ queue := by
  induction queue with
  | nil => exact fun h => absurd h List.not_mem_nil
  | cons a later ih =>
    intro used hpair
    unfold matchPairs at hpair
    -- what the rest of the queue gives comes from the queue
    have hlater : ∀ {used}, pair ∈ matchPairs later used →
        pair.1 ∈ a :: later ∧ pair.2 ∈ a :: later := fun h =>
      ⟨List.mem_cons_of_mem _ (ih h).1, List.mem_cons_of_mem _ (ih h).2⟩
    split at hpair
    · exact hlater hpair
    split at hpair
    · exact hlater hpair
    · next b hmatch =>
      obtain rfl | hpair := List.mem_cons.mp hpair
      · exact ⟨List.mem_cons_self, List.mem_cons_of_mem _ (List.mem_of_find?_eq_some hmatch)⟩
      · exact hlater hpair

/-- **The loop of `_try_match` is a loop over the pairs.** -/
theorem matchLoop_eq (env : Env) (queue : List QueueEntry) : ∀ used : List UserId,
    matchLoop env queue used = (do
      (matchPairs queue used).forM fun pair => seatPair env pair.1 pair.2
      return used ++ pairUsers (matchPairs queue used)) := by
  induction queue with
  | nil =>
    intro used
    change pure used = pure (used ++ [])
    rw [List.append_nil]
  | cons a later ih =>
    intro used
    unfold matchLoop matchPairs
    split
    · exact ih used
    · cases findMatch used a later with
      | none => exact ih used
      | some b =>
        -- the pair is seated by either loop, and the rest is the induction
        change (seatPair env a b >>= fun _ => matchLoop env later (used ++ [a.userId, b.userId])) =
          (seatPair env a b >>= fun _ => _) >>= _
        rw [bind_assoc]
        congr 1
        funext _
        rw [ih]
        congr 1
        funext _
        change pure (used ++ [a.userId, b.userId] ++ pairUsers _) =
          pure (used ++ ([a.userId, b.userId] ++ pairUsers _))
        rw [List.append_assoc]

/-! ### Timeouts -/

/-- A user whose time is up cannot be told. -/
def TimeoutFails (env : Env) (s : Server) : Prop :=
  ∃ entry ∈ s.queue, isExpired env entry = true ∧ env.raises (.notify entry.userId) = true

section Notify

variable {env : Env} {s : Server}

/-- A notice is added to the outbox. -/
theorem notifyUser_spec (userId : UserId) (message : Message) :
    wp (notifyUser env userId message)
      (fun _ t => t = { s with outbox := t.outbox } ∧ env.raises (.notify userId) = false)
      (fun _ t => t = { s with outbox := t.outbox } ∧ env.raises (.notify userId) = true) s := by
  unfold notifyUser
  refine wp_call (perform_spec _) ?_ ?_
  · rintro _ t ⟨rfl, hraises⟩
    exact ⟨rfl, hraises⟩
  rintro _ t ⟨rfl, hraises⟩
  rw [wp_bind, wp_modify]
  -- the state of the room is sent along with a match, if the room has an engine
  split
  · rw [wp_bind, wp_get]
    split
    · exact ⟨rfl, hraises⟩
    · exact ⟨rfl, hraises⟩
  · exact ⟨rfl, hraises⟩

/-- The loop over the timeouts keeps who is still waiting, and stops at a notice that raises. -/
theorem expireLoop_spec (queue : List QueueEntry) : ∀ (still : List QueueEntry) (s : Server),
    wp (expireLoop env queue still)
      (fun kept t => kept = still ++ waiting env queue ∧ t = { s with outbox := t.outbox } ∧
        ∀ entry ∈ queue, isExpired env entry = true → env.raises (.notify entry.userId) = false)
      (fun _ t => t = { s with outbox := t.outbox } ∧
        ∃ entry ∈ queue, isExpired env entry = true ∧ env.raises (.notify entry.userId) = true)
      s := by
  induction queue with
  | nil =>
    intro still s
    exact ⟨(List.append_nil still).symm, rfl, fun _ h => absurd h List.not_mem_nil⟩
  | cons entry rest ih =>
    intro still s
    unfold expireLoop
    split
    · next hexpired =>
      -- one notice more, and the rest from the state after it
      have hexpired' : isExpired env entry = true := decide_eq_true hexpired
      have hwaiting : waiting env (entry :: rest) = waiting env rest :=
        List.filter_cons_of_neg (by simp [hexpired'])
      refine wp_call (notifyUser_spec _ _) ?_ ?_
      · rintro _ t ⟨ht, hraises⟩
        exact ⟨ht, entry, List.mem_cons_self, hexpired', hraises⟩
      rintro _ t ⟨ht, hraises⟩
      refine wp_mono (ih still t) ?_ ?_
      · rintro kept u ⟨hkept, hu, hall⟩
        refine ⟨by rw [hkept, hwaiting], by rw [hu, ht], fun e he hexp => ?_⟩
        obtain rfl | he := List.mem_cons.mp he
        · exact hraises
        · exact hall e he hexp
      · rintro _ u ⟨hu, e, he, hexp⟩
        exact ⟨by rw [hu, ht], e, List.mem_cons_of_mem _ he, hexp⟩
    · next hwaits =>
      have hwaits' : isExpired env entry = false := decide_eq_false hwaits
      have hwaiting : waiting env (entry :: rest) = entry :: waiting env rest :=
        List.filter_cons_of_pos (by simp [hwaits'])
      refine wp_mono (ih (still ++ [entry]) s) ?_ ?_
      · rintro kept u ⟨hkept, hu, hall⟩
        refine ⟨by rw [hkept, hwaiting, List.append_assoc]; rfl, hu, fun e he hexp => ?_⟩
        obtain rfl | he := List.mem_cons.mp he
        · exact absurd (hexp.symm.trans hwaits') (by simp)
        · exact hall e he hexp
      · rintro _ u ⟨hu, e, he, hexp⟩
        exact ⟨hu, e, List.mem_cons_of_mem _ he, hexp⟩

/-- The first half of the tick. -/
theorem expireTimeouts_spec :
    wp (expireTimeouts env)
      (fun _ t => t = { s with queue := waiting env s.queue, outbox := t.outbox } ∧
        ¬ TimeoutFails env s)
      (fun _ t => t = { s with outbox := t.outbox } ∧ TimeoutFails env s) s := by
  unfold expireTimeouts
  rw [wp_bind, wp_get]
  -- the queue is written after the loop, and only if nothing has been raised
  refine wp_call (expireLoop_spec s.queue [] s) (fun _ _ h => h) ?_
  rintro kept t ⟨rfl, ht, hall⟩
  rw [wp_modify]
  refine ⟨by rw [ht]; rfl, ?_⟩
  rintro ⟨entry, hentry, hexpired, hraises⟩
  exact absurd ((hall entry hentry hexpired).symm.trans hraises) (by simp)

end Notify

/-! ### Seating a pair -/

/-- One of the two users is in a room, or the identifier drawn is a room's. -/
def Taken (env : Env) (s : Server) (userA userB : UserId) : Prop :=
  s.userRoom.contains userA = true ∨ s.userRoom.contains userB = true ∨
    s.rooms.contains (env.tokenHex userA) = true

/-- The room gets no engine: `input.txt` cannot be read, or its board is malformed. -/
def BoardFails (env : Env) (s : Server) (roomId : RoomId) : Prop :=
  s.engines.contains roomId = false ∧ (env.raises (.readInputTxt roomId) = true ∨
    ∃ error, BoardParser.parseInitialBoard (InputTxtBoardLoader.boardLines false env.inputTxt) =
      .error error)

/-- The pair is seated, and then its room gets no engine or a user cannot be told. -/
def SeatFails (env : Env) (s : Server) (userA userB : UserId) : Prop :=
  BoardFails env s (env.tokenHex userA) ∨ env.raises (.notify userA) = true ∨
    env.raises (.notify userB) = true

/-- A room has been opened for the two users. -/
structure Opened (roomId : RoomId) (userA userB : UserId) (s t : Server) : Prop where
  userRoom : t.userRoom = (s.userRoom.set userA roomId).set userB roomId
  room : t.rooms.contains roomId = true
  others : ∀ r, r ≠ roomId → t.rooms.get? r = s.rooms.get? r ∧ t.engines.get? r = s.engines.get? r
  engines : ∀ r e, t.engines.get? r = some e →
    s.engines.get? r = some e ∨ ∃ board, e = GameEngine.new board
  users : t.users = s.users
  queue : t.queue = s.queue

section Seating

variable {env : Env} {s t u : Server} {roomId : RoomId} {userA userB : UserId}

theorem Opened.outbox (h : Opened roomId userA userB s t)
    (hu : u = { t with outbox := u.outbox }) : Opened roomId userA userB s u := by
  rw [hu]
  exact ⟨h.userRoom, h.room, h.others, h.engines, h.users, h.queue⟩

/-- The room is started. -/
theorem Opened.startGame (h : Opened roomId userA userB s t) :
    Opened roomId userA userB s
      (t.modifyRoom roomId fun room => { room with gameStarted := true }) := by
  refine ⟨h.userRoom, ?_, fun r hr => ?_, h.engines, h.users, h.queue⟩
  · obtain ⟨room, hroom⟩ := Dict.contains_iff.mp h.room
    refine Dict.contains_iff.mpr ⟨{ room with gameStarted := true }, ?_⟩
    rw [Server.get?_modifyRoom, if_pos rfl, hroom, Option.map_some]
  · rw [Server.get?_modifyRoom, if_neg hr]
    exact h.others r hr

/-- The room gets its engine. -/
theorem Opened.setEngine (h : Opened roomId userA userB s t) (board : Board) :
    Opened roomId userA userB s (t.setEngine roomId (GameEngine.new board)) := by
  refine ⟨h.userRoom, h.room, fun r hr => ?_, fun r e he => ?_, h.users, h.queue⟩
  · rw [Server.get?_setEngine, if_neg hr]
    exact h.others r hr
  · rw [Server.get?_setEngine] at he
    split at he
    · exact Or.inr ⟨board, (Option.some.inj he).symm⟩
    · exact h.engines r e he

/-- The two maps are written. -/
theorem opened_openMatchedRoom :
    Opened roomId userA userB s ((Action.openMatchedRoom roomId userA userB).apply s) := by
  refine ⟨rfl, Dict.contains_iff.mpr ⟨_, Dict.get?_set_self _ _ _⟩, fun r hr => ⟨?_, rfl⟩,
    fun _ _ he => Or.inl he, rfl, rfl⟩
  exact Dict.get?_set_of_ne _ _ hr

/-- The hook fails on a malformed board only, and leaves the room open in that case too. -/
theorem onRoomCreated_spec (h : Opened roomId userA userB s t)
    (hengines : t.engines = s.engines) :
    wp (GameService.onRoomCreated env roomId)
      (fun _ u => Opened roomId userA userB s u ∧ ¬ BoardFails env s roomId)
      (fun _ u => Opened roomId userA userB s u ∧ BoardFails env s roomId) t := by
  unfold GameService.onRoomCreated BoardFails
  rw [wp_bind, wp_get, hengines]
  split
  · next hengine => exact ⟨h, fun hfails => absurd (hengine.symm.trans hfails.1) (by simp)⟩
  next hnone =>
  replace hnone : s.engines.contains roomId = false := Bool.eq_false_iff.mpr hnone
  unfold GameService.createEngineForRoom InputTxtBoardLoader.load
  rw [wp_bind]
  refine wp_call (perform_spec _) ?_ ?_
  · rintro _ u ⟨rfl, hraises⟩
    exact ⟨h, hnone, Or.inl hraises⟩
  rintro _ u ⟨rfl, hraises⟩
  -- the file has been read; whether there is an engine is up to the parser
  cases hparse : BoardParser.parseInitialBoard
      (InputTxtBoardLoader.boardLines false env.inputTxt) with
  | ok board =>
    refine ⟨h.setEngine board, ?_⟩
    rintro ⟨-, hread | ⟨error, herror⟩⟩
    · exact absurd (hraises.symm.trans hread) (by simp)
    · cases herror
  | error error => exact ⟨h, hnone, Or.inr ⟨error, rfl⟩⟩

/-- **A room is opened for both, or neither was free.** -/
theorem createMatchedRoom_spec :
    wp (createMatchedRoom env userA userB none)
      (fun r u => r = env.tokenHex userA ∧ Opened (env.tokenHex userA) userA userB s u ∧
        ¬ Taken env s userA userB ∧ ¬ BoardFails env s (env.tokenHex userA))
      (fun _ u => Taken env s userA userB ∧ u = s ∨ ¬ Taken env s userA userB ∧
        BoardFails env s (env.tokenHex userA) ∧ Opened (env.tokenHex userA) userA userB s u)
      s := by
  unfold createMatchedRoom
  rw [wp_bind, wp_get]
  split
  · next hA => exact Or.inl ⟨Or.inl hA, rfl⟩
  next hA =>
  split
  · next hB => exact Or.inl ⟨Or.inr (Or.inl hB), rfl⟩
  next hB =>
  change wp (if s.rooms.contains (env.tokenHex userA) = true then _ else _) _ _ s
  split
  · next hroom => exact Or.inl ⟨Or.inr (Or.inr hroom), rfl⟩
  next hroom =>
  have hfree : ¬ Taken env s userA userB := fun h => h.elim hA fun h => h.elim hB hroom
  rw [wp_bind, wp_modify]
  -- the maps are written before the hook runs, and stay written when it raises
  refine wp_call (onRoomCreated_spec opened_openMatchedRoom rfl) ?_ ?_
  · rintro _ u ⟨hu, hboard⟩
    exact Or.inr ⟨hfree, hboard, hu⟩
  · rintro _ u ⟨hu, hboard⟩
    exact ⟨rfl, hu.startGame, hfree, hboard⟩

/-- A pair is seated, turned away, or seated and then given up. -/
theorem seatPair_spec (a b : QueueEntry) :
    wp (seatPair env a b)
      (fun _ u => Opened (env.tokenHex a.userId) a.userId b.userId s u ∧
        ¬ Taken env s a.userId b.userId ∧ ¬ SeatFails env s a.userId b.userId)
      (fun _ u => Taken env s a.userId b.userId ∧ u = s ∨ ¬ Taken env s a.userId b.userId ∧
        SeatFails env s a.userId b.userId ∧
        Opened (env.tokenHex a.userId) a.userId b.userId s u) s := by
  unfold seatPair
  -- the room
  refine wp_call createMatchedRoom_spec ?_ ?_
  · rintro _ t (htaken | ⟨hfree, hboard, ht⟩)
    · exact Or.inl htaken
    · exact Or.inr ⟨hfree, Or.inl hboard, ht⟩
  rintro r t ⟨-, ht, hfree, hboard⟩
  -- the notice to the first user
  refine wp_call (notifyUser_spec _ _) ?_ ?_
  · rintro _ u ⟨hu, hraises⟩
    exact Or.inr ⟨hfree, Or.inr (Or.inl hraises), ht.outbox hu⟩
  rintro _ u ⟨hu, hnotA⟩
  -- the notice to the second
  refine wp_mono (notifyUser_spec _ _) ?_ ?_
  · rintro _ v ⟨hv, hnotB⟩
    refine ⟨(ht.outbox hu).outbox hv, hfree, ?_⟩
    rintro (hfails | hfails | hfails)
    · exact hboard hfails
    · exact absurd (hnotA.symm.trans hfails) (by simp)
    · exact absurd (hnotB.symm.trans hfails) (by simp)
  · rintro _ v ⟨hv, hraises⟩
    exact Or.inr ⟨hfree, Or.inr (Or.inr hraises), (ht.outbox hu).outbox hv⟩

end Seating

/-! ### The loop over the pairs -/

/-- A split of a list with a last element comes before that element, or is at it. -/
theorem split_append_singleton {α : Type} {l before after : List α} {a b : α}
    (h : l ++ [a] = before ++ b :: after) :
    (∃ after', l = before ++ b :: after') ∨ l = before ∧ a = b := by
  -- the common prefix reaches past the last element or it does not
  obtain ⟨rest, hbefore, hrest⟩ | ⟨rest, hl, hrest⟩ := List.append_eq_append_iff.mp h
  · cases rest with
    | nil =>
      rw [List.append_nil] at hbefore
      exact Or.inr ⟨hbefore.symm, (List.cons.inj hrest).1⟩
    | cons c rest => exact absurd (congrArg List.length hrest) (by simp)
  · cases rest with
    | nil =>
      rw [List.append_nil] at hl
      exact Or.inr ⟨hl, (List.cons.inj hrest).1.symm⟩
    | cons c rest =>
      obtain ⟨rfl, -⟩ := List.cons.inj hrest
      exact Or.inl ⟨rest, hl⟩

/-- The pair is turned away once the pairs `done` have been seated: one of the two users is in a
room, or the identifier drawn is a room's. -/
def PairTaken (env : Env) (s : Server) (done : List (QueueEntry × QueueEntry))
    (pair : QueueEntry × QueueEntry) : Prop :=
  (s.userRoom.contains pair.1.userId = true ∨ pair.1.userId ∈ pairUsers done) ∨
    (s.userRoom.contains pair.2.userId = true ∨ pair.2.userId ∈ pairUsers done) ∨
      (s.rooms.contains (pairRoom env pair) = true ∨ pairRoom env pair ∈ done.map (pairRoom env))

/-- The pair cannot be matched once the pairs `done` have been. -/
def PairFails (env : Env) (s : Server) (done : List (QueueEntry × QueueEntry))
    (pair : QueueEntry × QueueEntry) : Prop :=
  PairTaken env s done pair ∨ SeatFails env s pair.1.userId pair.2.userId

/-- The pairs have been seated, and nothing else has been written but the outbox and the queue. -/
structure Paired (env : Env) (done : List (QueueEntry × QueueEntry)) (s t : Server) : Prop where
  mapped : ∀ u, t.userRoom.contains u = true ↔
    s.userRoom.contains u = true ∨ u ∈ pairUsers done
  rooms : ∀ r, t.rooms.contains r = true ↔
    s.rooms.contains r = true ∨ r ∈ done.map (pairRoom env)
  others : ∀ r, r ∉ done.map (pairRoom env) →
    t.rooms.get? r = s.rooms.get? r ∧ t.engines.get? r = s.engines.get? r
  fresh : ∀ r ∈ done.map (pairRoom env), s.rooms.contains r = false
  engines : ∀ r e, t.engines.get? r = some e →
    s.engines.get? r = some e ∨ ∃ board, e = GameEngine.new board
  users : t.users = s.users

section Pairs

variable {env : Env} {s t u : Server} {done : List (QueueEntry × QueueEntry)}
  {pair : QueueEntry × QueueEntry}

theorem Paired.nil (s : Server) : Paired env [] s s := by
  refine ⟨fun u => ?_, fun r => ?_, fun _ _ => ⟨rfl, rfl⟩, fun r hr => absurd hr List.not_mem_nil,
    fun _ _ he => Or.inl he, rfl⟩
  · simp [pairUsers]
  · simp

theorem Paired.taken_iff (h : Paired env done s t) :
    Taken env t pair.1.userId pair.2.userId ↔ PairTaken env s done pair := by
  unfold Taken PairTaken
  rw [h.mapped, h.mapped, h.rooms]
  rfl

/-- Whether a room gets its engine does not depend on the pairs seated before. -/
theorem Paired.seatFails_iff (h : Paired env done s t) (hfree : ¬ PairTaken env s done pair) :
    SeatFails env t pair.1.userId pair.2.userId ↔ SeatFails env s pair.1.userId pair.2.userId := by
  have hengine : t.engines.contains (pairRoom env pair) = s.engines.contains (pairRoom env pair) := by
    unfold Dict.contains
    rw [(h.others _ fun hmem => hfree (Or.inr (Or.inr (Or.inr hmem)))).2]
  unfold pairRoom at hengine
  unfold SeatFails BoardFails
  rw [hengine]

/-- One more pair has been seated. -/
theorem Paired.snoc (h : Paired env done s t) (hfree : ¬ PairTaken env s done pair)
    (ho : Opened (pairRoom env pair) pair.1.userId pair.2.userId t u) :
    Paired env (done ++ [pair]) s u := by
  have husers : ∀ v, v ∈ pairUsers (done ++ [pair]) ↔
      v ∈ pairUsers done ∨ v = pair.1.userId ∨ v = pair.2.userId := by
    intro v
    unfold pairUsers
    rw [List.flatMap_append, List.mem_append]
    simp
  have hrooms : ∀ r, r ∈ (done ++ [pair]).map (pairRoom env) ↔
      r ∈ done.map (pairRoom env) ∨ r = pairRoom env pair := by
    intro r
    rw [List.map_append, List.mem_append, List.map_singleton, List.mem_singleton]
  refine ⟨fun v => ?_, fun r => ?_, fun r hr => ?_, fun r hr => ?_, fun r e he => ?_,
    ho.users.trans h.users⟩
  · -- who is in a room
    rw [husers, ← or_assoc, ← h.mapped, ho.userRoom, Dict.contains_iff, Dict.contains_iff,
      Dict.get?_set, Dict.get?_set]
    by_cases hB : v = pair.2.userId
    · simp [hB]
    · by_cases hA : v = pair.1.userId
      · simp [hA]
      · simp [hA, hB]
  · -- which rooms there are
    rw [hrooms, ← or_assoc, ← h.rooms]
    by_cases hr : r = pairRoom env pair
    · rw [hr]
      exact iff_of_true ho.room (Or.inr rfl)
    · unfold Dict.contains
      rw [(ho.others r hr).1]
      exact ⟨Or.inl, fun h => h.resolve_right hr⟩
  · -- the rooms that are not the pairs' are as before
    rw [hrooms, not_or] at hr
    exact ⟨(ho.others r hr.2).1.trans (h.others r hr.1).1,
      (ho.others r hr.2).2.trans (h.others r hr.1).2⟩
  · -- the new room was none before
    obtain hr | rfl := (hrooms r).mp hr
    · exact h.fresh r hr
    · exact Bool.eq_false_iff.mpr fun hroom => hfree (Or.inr (Or.inr (Or.inl hroom)))
  · -- and a new engine is a fresh one
    obtain he | hnew := ho.engines r e he
    · exact h.engines r e he
    · exact Or.inr hnew

/-- How the loop of `_try_match` ends. None of the pairs before the one it stops at has failed. -/
theorem matchLoop_ends (queue : List QueueEntry) (s : Server) :
    wp (matchLoop env queue [])
      (fun used t => used = pairUsers (matchPairs queue []) ∧
        Paired env (matchPairs queue []) s t ∧ t.queue = s.queue ∧
        ∀ done pair rest, matchPairs queue [] = done ++ pair :: rest →
          ¬ PairFails env s done pair)
      (fun _ t => t.queue = s.queue ∧ ∃ done pair rest,
        matchPairs queue [] = done ++ pair :: rest ∧
        (∀ before p after, done = before ++ p :: after → ¬ PairFails env s before p) ∧
        (PairTaken env s done pair ∧ Paired env done s t ∨ ¬ PairTaken env s done pair ∧
          SeatFails env s pair.1.userId pair.2.userId ∧ Paired env (done ++ [pair]) s t)) s := by
  rw [matchLoop_eq, wp_bind]
  -- the invariant of the pairs seated so far, none of which has failed
  refine wp_mono (wp_forM_done
    (I := fun done t => Paired env done s t ∧ t.queue = s.queue ∧
      ∀ before pair after, done = before ++ pair :: after → ¬ PairFails env s before pair)
    (E := fun done pair _ t => t.queue = s.queue ∧
      (∀ before p after, done = before ++ p :: after → ¬ PairFails env s before p) ∧
      (PairTaken env s done pair ∧ Paired env done s t ∨ ¬ PairTaken env s done pair ∧
        SeatFails env s pair.1.userId pair.2.userId ∧ Paired env (done ++ [pair]) s t))
    (fun done pair rest t _ ⟨ht, hqueue, hnone⟩ => ?_) ⟨Paired.nil s, rfl, fun before pair after h =>
      absurd h (by simp)⟩) ?_ ?_
  · refine wp_mono (seatPair_spec pair.1 pair.2) ?_ ?_
    · rintro _ u ⟨hopened, hfree, hseat⟩
      have hfree' : ¬ PairTaken env s done pair := fun h => hfree (ht.taken_iff.mpr h)
      have hseat' : ¬ SeatFails env s pair.1.userId pair.2.userId :=
        fun h => hseat ((ht.seatFails_iff hfree').mpr h)
      refine ⟨ht.snoc hfree' hopened, hopened.queue.trans hqueue,
        fun before pair' after hsplit => ?_⟩
      obtain ⟨after', hsplit'⟩ | ⟨hlast, hpair⟩ := split_append_singleton hsplit
      · exact hnone before pair' after' hsplit'
      · rw [← hlast, ← hpair]
        exact fun h => h.elim hfree' hseat'
    · rintro _ u (⟨htaken, rfl⟩ | ⟨hfree, hfails, hopened⟩)
      · exact ⟨hqueue, hnone, Or.inl ⟨ht.taken_iff.mp htaken, ht⟩⟩
      · have hfree' : ¬ PairTaken env s done pair := fun h => hfree (ht.taken_iff.mpr h)
        exact ⟨hopened.queue.trans hqueue, hnone, Or.inr ⟨hfree',
          (ht.seatFails_iff hfree').mp hfails, ht.snoc hfree' hopened⟩⟩
  · rintro _ t ⟨ht, hqueue, hnone⟩
    exact ⟨rfl, ht, hqueue, hnone⟩
  · rintro _ t ⟨done, pair, rest, hsplit, hqueue, hnone, hends⟩
    exact ⟨hqueue, done, pair, rest, hsplit, hnone, hends⟩

/-- **The loop of `_try_match`** seats all pairs, or stops at the first that fails. -/
theorem matchLoop_spec (queue : List QueueEntry) (s : Server) :
    wp (matchLoop env queue [])
      (fun used t => used = pairUsers (matchPairs queue []) ∧
        Paired env (matchPairs queue []) s t ∧ t.queue = s.queue ∧
        ∀ done pair rest, matchPairs queue [] = done ++ pair :: rest →
          ¬ PairFails env s done pair)
      (fun _ t => t.queue = s.queue ∧ ∃ done pair rest,
        matchPairs queue [] = done ++ pair :: rest ∧
        (PairTaken env s done pair ∧ Paired env done s t ∨ ¬ PairTaken env s done pair ∧
          SeatFails env s pair.1.userId pair.2.userId ∧ Paired env (done ++ [pair]) s t)) s := by
  refine wp_mono (matchLoop_ends queue s) (fun _ _ h => h) ?_
  rintro _ t ⟨hqueue, done, pair, rest, hsplit, -, hends⟩
  exact ⟨hqueue, done, pair, rest, hsplit, hends⟩

end Pairs

/-! ### The tick -/

/-- How a matchmaking tick ends; the flag says whether it raises. -/
inductive MatchmakingOutcome (cfg : Config) (env : Env) (s : Server) : Bool → Server → Prop where
  /-- A shard does not match. -/
  | shard (h : cfg.deployment ≠ .inProcess) : MatchmakingOutcome cfg env s false s
  | timeoutFails (t : Server) (hin : cfg.deployment = .inProcess) (h : TimeoutFails env s)
      (ht : t = { s with outbox := t.outbox }) : MatchmakingOutcome cfg env s true t
  | pairTaken (done rest : List (QueueEntry × QueueEntry)) (pair : QueueEntry × QueueEntry)
      (t : Server) (hin : cfg.deployment = .inProcess) (htimeout : ¬ TimeoutFails env s)
      (hsplit : matchPairs (waiting env s.queue) [] = done ++ pair :: rest)
      (h : PairTaken env s done pair) (hpaired : Paired env done s t)
      (hqueue : t.queue = waiting env s.queue) : MatchmakingOutcome cfg env s true t
  | seatFails (done rest : List (QueueEntry × QueueEntry)) (pair : QueueEntry × QueueEntry)
      (t : Server) (hin : cfg.deployment = .inProcess) (htimeout : ¬ TimeoutFails env s)
      (hsplit : matchPairs (waiting env s.queue) [] = done ++ pair :: rest)
      (hfree : ¬ PairTaken env s done pair) (h : SeatFails env s pair.1.userId pair.2.userId)
      (hpaired : Paired env (done ++ [pair]) s t)
      (hqueue : t.queue = waiting env s.queue) : MatchmakingOutcome cfg env s true t
  | matched (t : Server) (hin : cfg.deployment = .inProcess) (htimeout : ¬ TimeoutFails env s)
      (hnone : ∀ done pair rest, matchPairs (waiting env s.queue) [] = done ++ pair :: rest →
        ¬ PairFails env s done pair)
      (hpaired : Paired env (matchPairs (waiting env s.queue) []) s t)
      (hqueue : t.queue = (waiting env s.queue).filter fun entry =>
        entry.userId ∉ pairUsers (matchPairs (waiting env s.queue) [])) :
      MatchmakingOutcome cfg env s false t

/-- **A matchmaking tick ends in one of these ways.** -/
theorem matchmakingTick_cases (cfg : Config) (env : Env) (s : Server) :
    wp (ServerRuntime.matchmakingTick cfg env)
      (fun _ t => MatchmakingOutcome cfg env s false t)
      (fun _ t => MatchmakingOutcome cfg env s true t) s := by
  unfold ServerRuntime.matchmakingTick
  split
  · next hin =>
    unfold tick tryMatch
    refine wp_call expireTimeouts_spec ?_ ?_
    · rintro _ t ⟨ht, hfails⟩
      exact .timeoutFails t hin hfails ht
    rintro _ t ⟨ht, htimeout⟩
    have hqueue : t.queue = waiting env s.queue := by rw [ht]
    -- the expiry changes nothing that a pair depends on
    have hpaired : ∀ {done u}, Paired env done t u → Paired env done s u := by
      intro done u hu
      rw [ht] at hu
      exact ⟨hu.mapped, hu.rooms, hu.others, hu.fresh, hu.engines, hu.users⟩
    have htaken : ∀ {done pair}, PairTaken env t done pair ↔ PairTaken env s done pair := by
      intro done pair
      rw [ht]
      rfl
    have hseat : ∀ {a b}, SeatFails env t a b ↔ SeatFails env s a b := by
      intro a b
      rw [ht]
      rfl
    rw [wp_bind, wp_get, hqueue]
    refine wp_call (matchLoop_spec _ t) ?_ ?_
    · rintro _ u ⟨huqueue, done, pair, rest, hsplit, ⟨h, hu⟩ | ⟨hfree, h, hu⟩⟩
      · exact .pairTaken done rest pair u hin htimeout hsplit (htaken.mp h) (hpaired hu)
          (huqueue.trans hqueue)
      · exact .seatFails done rest pair u hin htimeout hsplit (fun h => hfree (htaken.mpr h))
          (hseat.mp h) (hpaired hu) (huqueue.trans hqueue)
    rintro used u ⟨rfl, hu, huqueue, hnone⟩
    rw [wp_modify]
    have hu' := hpaired hu
    refine .matched _ hin htimeout (fun done pair rest hsplit hfails => ?_)
      ⟨hu'.mapped, hu'.rooms, hu'.others, hu'.fresh, hu'.engines, hu'.users⟩ ?_
    · exact hnone done pair rest hsplit (hfails.imp htaken.mpr hseat.mpr)
    · rw [← hqueue, ← huqueue]
  · next hshard =>
    exact .shard (by rw [hshard]; nofun)

end KungFuChess
