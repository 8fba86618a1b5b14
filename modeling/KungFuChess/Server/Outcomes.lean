import KungFuChess.Server.ServerRuntime

/-!
# What the game service can do

Three programs of the game service call out and may be cut by an exception at many places:
an attempt to apply a result, one pass of the loop of `tick_all`, and a forfeit. For each
the file lists how a call ends (`EloAttempt`, `TickOutcome`, `ForfeitOutcome`) and proves
that it ends in no other way. The guards of an outcome are the answers of the outside world
that lead to it.

`mark_disconnected` and `reconnect` call nobody, but many modules ask what they leave behind:
`MarkOutcome` and `ReconnectOutcome`.

`EloFrame` says what an attempt leaves alone, however it ends: the engines, the members of
every room, the other rooms altogether, and the ratings of everybody but the two players.
-/

namespace KungFuChess

open Effect RoomService GameService

/-! ### Programs that only read -/

section Specs

variable {env : Env} {s : Server}

/-- A call returns or raises, and writes nothing. -/
theorem perform_spec (call : ExternalCall) :
    wp (perform env call) (fun _ t => t = s ∧ env.raises call = false)
      (fun _ t => t = s ∧ env.raises call = true) s := by
  unfold perform
  split
  · next h => exact ⟨rfl, h⟩
  · next h => exact ⟨rfl, Bool.eq_false_iff.mpr h⟩

/-- A user is looked up. -/
theorem getById_spec (lookup : Lookup) (userId : UserId) :
    wp (UserStore.getById env lookup userId)
      (fun user t => t = s ∧ user = s.users.get? userId ∧
        env.raises (.getById lookup userId) = false)
      (fun _ t => t = s ∧ env.raises (.getById lookup userId) = true) s := by
  unfold UserStore.getById
  refine wp_call (perform_spec _) (fun _ _ h => h) ?_
  rintro _ t ⟨rfl, hraises⟩
  exact ⟨rfl, rfl, hraises⟩

/-- The name behind an id, if there is one. -/
def Server.nameOf (s : Server) (userId : Option UserId) : Option String :=
  (userId.bind s.users.get?).map User.username

/-- The name of a seat, if there is somebody in it. -/
theorem usernameOf_spec (lookup : Lookup) (userId : Option UserId) :
    wp (usernameOf env lookup userId)
      (fun name t => t = s ∧ name = s.nameOf userId ∧
        ∀ u, userId = some u → env.raises (.getById lookup u) = false)
      (fun _ t => t = s ∧ ∃ u, userId = some u ∧ env.raises (.getById lookup u) = true) s := by
  cases userId with
  | none => exact ⟨rfl, rfl, fun u hu => absurd hu (by simp)⟩
  | some u =>
    change wp (UserStore.getById env lookup u >>= fun user => pure (user.map User.username)) _ _ s
    refine wp_call (getById_spec lookup u) (fun _ t h => ⟨h.1, u, rfl, h.2⟩) ?_
    rintro _ t ⟨rfl, rfl, hraises⟩
    refine ⟨rfl, rfl, fun u' hu' => ?_⟩
    rw [← Option.some.inj hu']
    exact hraises

/-- The players of a room with their names. -/
def Server.playersOf (s : Server) (roomId : RoomId) : Players :=
  let players := getRoomPlayers s roomId
  ⟨players.1, players.2, s.nameOf players.1, s.nameOf players.2⟩

/-- A name lookup for a player of the room raises. -/
def NameLookupRaises (env : Env) (s : Server) (lookup : Lookup) (roomId : RoomId) : Prop :=
  ∃ u, ((getRoomPlayers s roomId).1 = some u ∨ (getRoomPlayers s roomId).2 = some u) ∧
    env.raises (.getById lookup u) = true

/-- The players of a room with their names. -/
theorem getRoomPlayersForElo_spec (lookup : Lookup) (roomId : RoomId) :
    wp (getRoomPlayersForElo env lookup roomId)
      (fun players t => t = s ∧ players = s.playersOf roomId ∧
        ¬ NameLookupRaises env s lookup roomId)
      (fun _ t => t = s ∧ NameLookupRaises env s lookup roomId) s := by
  unfold getRoomPlayersForElo
  rw [wp_bind, wp_get]
  -- the name of white
  refine wp_call (usernameOf_spec lookup _) ?_ ?_
  · rintro _ t ⟨rfl, u, hu, hraises⟩
    exact ⟨rfl, u, Or.inl hu, hraises⟩
  rintro _ t ⟨rfl, rfl, hwhite⟩
  -- the name of black
  refine wp_call (usernameOf_spec lookup _) ?_ ?_
  · rintro _ t' ⟨rfl, u, hu, hraises⟩
    exact ⟨rfl, u, Or.inr hu, hraises⟩
  rintro _ t' ⟨rfl, rfl, hblack⟩
  refine ⟨rfl, rfl, ?_⟩
  rintro ⟨u, hu | hu, hraises⟩
  · exact absurd ((hwhite u hu).symm.trans hraises) (by simp)
  · exact absurd ((hblack u hu).symm.trans hraises) (by simp)

end Specs

/-- What has both players has both names. -/
theorem Players.both_eq_some {p : Players} {whiteId blackId : UserId}
    {whiteName blackName : String} (h : p.both = some (whiteId, blackId, whiteName, blackName)) :
    p.whiteId = some whiteId ∧ p.blackId = some blackId ∧ p.whiteName = some whiteName ∧
      p.blackName = some blackName := by
  obtain ⟨w, b, wn, bn⟩ := p
  unfold Players.both at h
  split at h
  · next hw hb hwn hbn =>
    obtain ⟨rfl, rfl, rfl, rfl⟩ : _ ∧ _ ∧ _ ∧ _ := by simpa using h
    exact ⟨hw, hb, (Option.filter_eq_some_iff.mp hwn).1, (Option.filter_eq_some_iff.mp hbn).1⟩
  · exact absurd h (by simp)

/-- The two players a result is about, with their rows of the user table. -/
structure Rated (s : Server) (roomId : RoomId) (whiteId blackId : UserId) (white black : User) :
    Prop where
  players : getRoomPlayers s roomId = (some whiteId, some blackId)
  white : s.users.get? whiteId = some white
  black : s.users.get? blackId = some black

/-- A room with two players exists. -/
theorem Rated.room {s : Server} {roomId : RoomId} {whiteId blackId : UserId} {white black : User}
    (h : Rated s roomId whiteId blackId white black) : (s.rooms.get? roomId).isSome := by
  have hplayers := h.players
  unfold getRoomPlayers at hplayers
  split at hplayers
  · exact absurd hplayers (by simp)
  · next hroom => rw [hroom]; rfl

/-- Both players of the room are known: the lookups of their names have succeeded. -/
theorem exists_rated {s : Server} {roomId : RoomId} {whiteId blackId : UserId}
    {whiteName blackName : String}
    (h : (s.playersOf roomId).both = some (whiteId, blackId, whiteName, blackName)) :
    ∃ white black, Rated s roomId whiteId blackId white black := by
  obtain ⟨hwhite, hblack, hwhiteName, hblackName⟩ := Players.both_eq_some h
  have hname : ∀ {seat : Option UserId} {u name}, seat = some u → s.nameOf seat = some name →
      ∃ user, s.users.get? u = some user := by
    rintro seat u name rfl hname
    obtain ⟨user, huser, -⟩ := Option.map_eq_some_iff.mp hname
    exact ⟨user, huser⟩
  obtain ⟨white, hw⟩ := hname hwhite hwhiteName
  obtain ⟨black, hb⟩ := hname hblack hblackName
  exact ⟨white, black, Prod.ext hwhite hblack, hw, hb⟩

/-! ### The writes -/

section Writes

variable {env : Env} {s : Server}

/-- A rating is written, or the write raises. -/
theorem setElo_spec (roomId : RoomId) (userId : UserId) (elo : Int) :
    wp (UserStore.setElo env roomId userId elo)
      (fun _ t => t = s.afterSetElo roomId userId elo false ∧
        env.raises (.setElo roomId userId) = false)
      (fun _ t => t = s.afterSetElo roomId userId elo true ∧
        env.raises (.setElo roomId userId) = true) s := by
  unfold UserStore.setElo
  rw [wp_bind, wp_modify]
  refine wp_mono (perform_spec _) ?_ ?_ <;> (rintro _ t ⟨rfl, hraises⟩; rw [hraises]; exact ⟨rfl, rfl⟩)

/-- The state after a message to a room. -/
def Server.broadcast (s : Server) (roomId : RoomId) (message : Message) : Server :=
  match s.rooms.get? roomId with
  | none => s
  | some room => s.send (some roomId) room.members.keys message

/-- A room is told, if it exists. -/
theorem broadcastRoom_spec (call : ExternalCall) (roomId : RoomId) (message : Message) :
    wp (broadcastRoom env call roomId message)
      (fun _ t => t = s.broadcast roomId message ∧
        ¬ ((s.rooms.get? roomId).isSome ∧ env.raises call = true))
      (fun _ t => t = s ∧ (s.rooms.get? roomId).isSome ∧ env.raises call = true) s := by
  unfold broadcastRoom
  rw [wp_bind, wp_get]
  unfold Server.broadcast
  cases hroom : s.rooms.get? roomId with
  | none => exact ⟨rfl, by simp⟩
  | some room =>
    dsimp only
    refine wp_call (perform_spec call) (fun _ t h => ⟨h.1, rfl, h.2⟩) ?_
    rintro _ t ⟨rfl, hraises⟩
    exact ⟨rfl, by simp [hraises]⟩

end Writes

/-! ### The announcement -/

/-- The announcement of a result writes the history, the allocator and the outbox, and
sends nothing but the end of the game. -/
structure Announced (roomId : RoomId) (s t : Server) : Prop where
  same : t = { s with games := t.games, allocator := t.allocator, outbox := t.outbox }
  sent : ∃ sent, t.outbox = s.outbox ++ sent ∧
    ∀ m ∈ sent, ∃ winner ratings, m.message = .gameOver winner ratings roomId

namespace Announced

variable {roomId : RoomId} {s t u : Server}

/-- No message and nothing else is an announcement. -/
theorem of_outbox_eq (hsame : t = { s with games := t.games, allocator := t.allocator })
    : Announced roomId s t := by
  have houtbox : t.outbox = s.outbox := by rw [hsame]
  refine ⟨?_, [], by rw [houtbox, List.append_nil], fun m hm => absurd hm List.not_mem_nil⟩
  rw [houtbox]
  exact hsame

/-- Announcements follow one another. -/
theorem trans (h : Announced roomId s t) (h' : Announced roomId t u) : Announced roomId s u := by
  obtain ⟨sent, hsent, hall⟩ := h.sent
  obtain ⟨sent', hsent', hall'⟩ := h'.sent
  refine ⟨?_, sent ++ sent', ?_, fun m hm => ?_⟩
  · rw [h'.same, h.same]
  · rw [hsent', hsent, List.append_assoc]
  · exact (List.mem_append.mp hm).elim (hall m) (hall' m)

end Announced

/-- The record, then the message, both inside a `try`. -/
theorem announceResult_spec {cfg : Config} {env : Env} {s : Server} (result : GameResult)
    (ratings : List (String × Int)) (hroom : (s.rooms.get? result.roomId).isSome) :
    wp (announceResult cfg env result ratings)
      (fun _ t => Announced result.roomId s t ∧
        env.raises (.broadcastGameOver result.roomId) = false)
      (fun _ t => Announced result.roomId s t ∧
        env.raises (.broadcastGameOver result.roomId) = true) s := by
  have hrecord : wp (tryCatch (GameHistoryStore.record env result) fun _ => pure ())
      (fun _ => Announced result.roomId s) (fun _ _ => False) s := by
    rw [wp_tryCatch]
    unfold GameHistoryStore.record
    refine wp_call (perform_spec _) ?_ ?_
    · rintro _ t ⟨rfl, -⟩
      exact Announced.of_outbox_eq rfl
    rintro _ t ⟨rfl, -⟩
    rw [wp_modify]
    -- a room already recorded is left as it is
    split
    · exact Announced.of_outbox_eq rfl
    · exact Announced.of_outbox_eq rfl
  have hcallback : ∀ u : Server,
      wp (tryCatch (onGameFinished cfg env result.roomId [result.whiteId, result.blackId])
        fun _ => pure ()) (fun _ => Announced result.roomId u) (fun _ _ => False) u := by
    intro u
    rw [wp_tryCatch]
    unfold onGameFinished
    split
    · exact Announced.of_outbox_eq rfl
    · refine wp_call (perform_spec _) ?_ ?_
      · rintro _ t ⟨rfl, -⟩
        exact Announced.of_outbox_eq rfl
      · rintro _ t ⟨rfl, -⟩
        exact Announced.of_outbox_eq rfl
  unfold announceResult
  refine wp_call hrecord (fun _ _ h => h.elim) (fun _ t ht => ?_)
  have hroom' : (t.rooms.get? result.roomId).isSome := by
    rw [ht.same]
    exact hroom
  -- the broadcast is the one call whose exception is not caught
  refine wp_call (broadcastRoom_spec _ _ _) ?_ ?_
  · rintro _ u ⟨rfl, -, hraises⟩
    exact ⟨ht, hraises⟩
  rintro _ u ⟨rfl, hraises⟩
  have hsilent : env.raises (.broadcastGameOver result.roomId) = false :=
    Bool.eq_false_iff.mpr fun h => hraises ⟨hroom', h⟩
  have hbroadcast : Announced result.roomId t (t.broadcast result.roomId
      (.gameOver result.winner ratings result.roomId)) := by
    obtain ⟨room, hroom'⟩ := Option.isSome_iff_exists.mp hroom'
    unfold Server.broadcast
    rw [hroom']
    refine ⟨rfl, _, rfl, fun m hm => ?_⟩
    rw [List.mem_singleton.mp hm]
    exact ⟨_, _, rfl⟩
  exact wp_mono (hcallback _) (fun _ u hu => ⟨(ht.trans hbroadcast).trans hu, hsilent⟩)
    (fun _ _ h => h.elim)

/-! ### The attempt -/

/-- Everything before the two writes has succeeded, and `new` are the new ratings. -/
structure EloDue (cfg : Config) (env : Env) (roomId : RoomId) (engine : GameEngine) (s : Server)
    (whiteId blackId : UserId) (new : Int × Int) : Prop where
  pending : isEloUpdated s roomId = false
  names : ¬ NameLookupRaises env s .playerName roomId
  known : ∃ whiteName blackName,
    (s.playersOf roomId).both = some (whiteId, blackId, whiteName, blackName)
  ratings : env.raises (.getById .rating whiteId) = false ∧
    env.raises (.getById .rating blackId) = false
  rated : ∃ winner white black, engine.winner = some winner ∧
    Rated s roomId whiteId blackId white black ∧ new = newRatings cfg winner white.elo black.elo

/-- Both ratings are written and the room is marked. -/
def Server.afterRatings (s : Server) (roomId : RoomId) (whiteId blackId : UserId)
    (new : Int × Int) : Server :=
  ((s.afterSetElo roomId whiteId new.1 false).afterSetElo roomId blackId new.2 false).modifyRoom
    roomId fun room => { room with eloUpdated := true }

/-- The ratings write to no room. -/
theorem isSome_afterRatings {s : Server} {roomId : RoomId} {whiteId blackId : UserId}
    {new : Int × Int} (h : (s.rooms.get? roomId).isSome) :
    ((s.afterRatings roomId whiteId blackId new).rooms.get? roomId).isSome := by
  unfold Server.afterRatings
  rw [Server.get?_modifyRoom, if_pos rfl, Option.isSome_map]
  exact h

/-- How an attempt to apply a result ends; the flag says whether it raises. -/
inductive EloAttempt (cfg : Config) (env : Env) (roomId : RoomId) (engine : GameEngine)
    (s : Server) : Bool → Server → Prop where
  /-- The room is marked, nobody has won, or a player is missing. -/
  | idle (h : isEloUpdated s roomId = true ∨ engine.winner = none ∨
      ¬ NameLookupRaises env s .playerName roomId ∧ (s.playersOf roomId).both = none) :
      EloAttempt cfg env roomId engine s false s
  | nameRaises (hpending : isEloUpdated s roomId = false) (hwinner : engine.winner.isSome)
      (h : NameLookupRaises env s .playerName roomId) :
      EloAttempt cfg env roomId engine s true s
  | ratingRaises (whiteId blackId : UserId) (whiteName blackName : String)
      (hpending : isEloUpdated s roomId = false) (hwinner : engine.winner.isSome)
      (hknown : (s.playersOf roomId).both = some (whiteId, blackId, whiteName, blackName))
      (h : env.raises (.getById .rating whiteId) = true ∨
        env.raises (.getById .rating blackId) = true) :
      EloAttempt cfg env roomId engine s true s
  | whiteRaises (whiteId blackId : UserId) (new : Int × Int)
      (hdue : EloDue cfg env roomId engine s whiteId blackId new)
      (hwhite : env.raises (.setElo roomId whiteId) = true) :
      EloAttempt cfg env roomId engine s true (s.afterSetElo roomId whiteId new.1 true)
  | blackRaises (whiteId blackId : UserId) (new : Int × Int)
      (hdue : EloDue cfg env roomId engine s whiteId blackId new)
      (hwhite : env.raises (.setElo roomId whiteId) = false)
      (hblack : env.raises (.setElo roomId blackId) = true) :
      EloAttempt cfg env roomId engine s true
        ((s.afterSetElo roomId whiteId new.1 false).afterSetElo roomId blackId new.2 true)
  | applied (whiteId blackId : UserId) (new : Int × Int) (t : Server)
      (hdue : EloDue cfg env roomId engine s whiteId blackId new)
      (hwhite : env.raises (.setElo roomId whiteId) = false)
      (hblack : env.raises (.setElo roomId blackId) = false)
      (hannounced : Announced roomId (s.afterRatings roomId whiteId blackId new) t) :
      EloAttempt cfg env roomId engine s (env.raises (.broadcastGameOver roomId)) t

/-- **An attempt ends in one of these ways.** -/
theorem applyElo_cases (cfg : Config) (env : Env) (roomId : RoomId) (engine : GameEngine)
    (s : Server) :
    wp (applyElo cfg env roomId engine)
      (fun _ t => EloAttempt cfg env roomId engine s false t)
      (fun _ t => EloAttempt cfg env roomId engine s true t) s := by
  unfold applyElo
  rw [wp_bind, wp_get]
  split
  · next hmarked => exact .idle (Or.inl hmarked)
  next hpending =>
  replace hpending : isEloUpdated s roomId = false := Bool.eq_false_iff.mpr hpending
  cases hwinner : engine.winner with
  | none => exact .idle (Or.inr (Or.inl hwinner))
  | some winner =>
    dsimp only
    have hwinner' : engine.winner.isSome := by rw [hwinner]; rfl
    -- the names of the players
    refine wp_call (getRoomPlayersForElo_spec _ _) ?_ ?_
    · rintro _ t ⟨rfl, hraises⟩
      exact .nameRaises hpending hwinner' hraises
    rintro _ t ⟨rfl, rfl, hnames⟩
    cases hboth : (t.playersOf roomId).both with
    | none => exact .idle (Or.inr (Or.inr ⟨hnames, hboth⟩))
    | some both =>
      obtain ⟨whiteId, blackId, whiteName, blackName⟩ := both
      obtain ⟨white, black, hrated⟩ := exists_rated hboth
      dsimp only
      -- their ratings
      refine wp_call (getById_spec _ _) ?_ ?_
      · rintro _ u ⟨rfl, hraises⟩
        exact .ratingRaises _ _ _ _ hpending hwinner' hboth (Or.inl hraises)
      rintro _ u ⟨rfl, rfl, hwhiteRating⟩
      refine wp_call (getById_spec _ _) ?_ ?_
      · rintro _ v ⟨rfl, hraises⟩
        exact .ratingRaises _ _ _ _ hpending hwinner' hboth (Or.inr hraises)
      rintro _ v ⟨rfl, rfl, hblackRating⟩
      rw [hrated.white, hrated.black]
      dsimp only
      have hdue : EloDue cfg env roomId engine v whiteId blackId
          (newRatings cfg winner white.elo black.elo) :=
        ⟨hpending, hnames, ⟨_, _, hboth⟩, ⟨hwhiteRating, hblackRating⟩,
          winner, white, black, hwinner, hrated, rfl⟩
      -- the two writes; an exception of the second leaves the first in place
      unfold writeRatings
      rw [wp_bind]
      refine wp_call (setElo_spec _ _ _) ?_ ?_
      · rintro _ u ⟨rfl, hraises⟩
        exact .whiteRaises _ _ _ hdue hraises
      rintro _ u ⟨rfl, hwhite⟩
      refine wp_call (setElo_spec _ _ _) ?_ ?_
      · rintro _ u ⟨rfl, hraises⟩
        exact .blackRaises _ _ _ hdue hwhite hraises
      rintro _ u ⟨rfl, hblack⟩
      unfold markEloUpdated
      rw [wp_modify]
      have happlied : ∀ t, Announced roomId (v.afterRatings roomId whiteId blackId _) t →
          EloAttempt cfg env roomId engine v (env.raises (.broadcastGameOver roomId)) t :=
        fun t hannounced => .applied _ _ _ t hdue hwhite hblack hannounced
      refine wp_mono (announceResult_spec _ _ (isSome_afterRatings hrated.room)) ?_ ?_
      · intro _ t ht
        rw [← ht.2]
        exact happlied t ht.1
      · intro _ t ht
        rw [← ht.2]
        exact happlied t ht.1

/-! ### What an attempt leaves alone -/

/-- However an attempt for the room ends, it writes no more than the mark of the room, the
ratings of its two players, and logs. -/
structure EloFrame (roomId : RoomId) (s t : Server) : Prop where
  userRoom : t.userRoom = s.userRoom
  engines : t.engines = s.engines
  rooms : ∀ r, r ≠ roomId → t.rooms.get? r = s.rooms.get? r
  members : ∀ r, (t.rooms.get? r).map Room.members = (s.rooms.get? r).map Room.members
  marked : isEloUpdated s roomId = true → isEloUpdated t roomId = true
  usernames : ∀ u, (t.users.get? u).map User.username = (s.users.get? u).map User.username
  ratings : ∀ u, (getRoomPlayers s roomId).1 ≠ some u → (getRoomPlayers s roomId).2 ≠ some u →
    t.users.get? u = s.users.get? u
  calls : ∃ new, t.setEloCalls = s.setEloCalls ++ new ∧ ∀ call ∈ new, call.roomId = roomId
  sent : ∃ sent, t.outbox = s.outbox ++ sent ∧
    ∀ m ∈ sent, ∃ winner ratings, m.message = .gameOver winner ratings roomId

namespace EloFrame

variable {roomId : RoomId} {s t u : Server}

theorem refl (s : Server) : EloFrame roomId s s :=
  ⟨rfl, rfl, fun _ _ => rfl, fun _ => rfl, fun h => h, fun _ => rfl, fun _ _ _ => rfl,
    ⟨[], (List.append_nil _).symm, fun _ h => absurd h List.not_mem_nil⟩,
    ⟨[], (List.append_nil _).symm, fun _ h => absurd h List.not_mem_nil⟩⟩

/-- The players of a room are read off its members. -/
theorem getRoomPlayers_eq {r : RoomId}
    (h : (t.rooms.get? r).map Room.members = (s.rooms.get? r).map Room.members) :
    getRoomPlayers t r = getRoomPlayers s r := by
  unfold getRoomPlayers
  cases hs : s.rooms.get? r with
  | none =>
    rw [hs, Option.map_none, Option.map_eq_none_iff] at h
    rw [h]
  | some room =>
    rw [hs, Option.map_some] at h
    obtain ⟨room', ht, hmembers⟩ := Option.map_eq_some_iff.mp h
    rw [ht]
    simp only [seatOf, hmembers]

theorem players (h : EloFrame roomId s t) (r : RoomId) :
    getRoomPlayers t r = getRoomPlayers s r := getRoomPlayers_eq (h.members r)

/-- Frames compose: the calls and the messages of both are put after one another. -/
theorem trans (h : EloFrame roomId s t) (h' : EloFrame roomId t u) : EloFrame roomId s u := by
  obtain ⟨new, hnew, hall⟩ := h.calls
  obtain ⟨new', hnew', hall'⟩ := h'.calls
  obtain ⟨sent, hsent, hsall⟩ := h.sent
  obtain ⟨sent', hsent', hsall'⟩ := h'.sent
  refine ⟨h'.userRoom.trans h.userRoom, h'.engines.trans h.engines,
    fun r hr => (h'.rooms r hr).trans (h.rooms r hr),
    fun r => (h'.members r).trans (h.members r), fun hm => h'.marked (h.marked hm),
    -- whose rating changes is read off the players, which the first frame keeps
    fun v => (h'.usernames v).trans (h.usernames v), fun v hw hb => ?_,
    ⟨new ++ new', by rw [hnew', hnew, List.append_assoc], fun c hc => ?_⟩,
    ⟨sent ++ sent', by rw [hsent', hsent, List.append_assoc], fun m hm => ?_⟩⟩
  · rw [← h.players roomId] at hw hb
    rw [h.players roomId] at hw hb
    refine (h'.ratings v ?_ ?_).trans (h.ratings v hw hb) <;> rw [h.players roomId]
    · exact hw
    · exact hb
  · exact (List.mem_append.mp hc).elim (hall c) (hall' c)
  · exact (List.mem_append.mp hm).elim (hsall m) (hsall' m)

/-- A `set_elo` call for one of the two players. -/
theorem afterSetElo {userId : UserId} (elo : Int) (raised : Bool)
    (hplayer : (getRoomPlayers s roomId).1 = some userId ∨
      (getRoomPlayers s roomId).2 = some userId) :
    EloFrame roomId s (s.afterSetElo roomId userId elo raised) := by
  -- a call that raises is recorded, and writes no rating
  have husers : (s.afterSetElo roomId userId elo raised).users = if raised then s.users
      else s.users.modify userId fun user => { user with elo := elo } := rfl
  refine ⟨rfl, rfl, fun _ _ => rfl, fun _ => rfl, fun h => h, fun u => ?_, fun u hw hb => ?_,
    ⟨[⟨roomId, userId, elo, raised⟩], rfl, fun c hc => ?_⟩,
    ⟨[], (List.append_nil _).symm, fun _ h => absurd h List.not_mem_nil⟩⟩
  · rw [husers]
    split
    · rfl
    · rw [Dict.get?_modify]
      split
      · next h => rw [h, Option.map_map]; rfl
      · rfl
  · rw [husers]
    split
    · rfl
    · rw [Dict.get?_modify, if_neg]
      rintro rfl
      exact hplayer.elim hw hb
  · rw [List.mem_singleton.mp hc]

/-- The mark is set. -/
theorem markElo : EloFrame roomId s
    (s.modifyRoom roomId fun room => { room with eloUpdated := true }) := by
  refine ⟨rfl, rfl, fun r hr => ?_, fun r => ?_, fun h => ?_, fun _ => rfl, fun _ _ _ => rfl,
    ⟨[], (List.append_nil _).symm, fun _ h => absurd h List.not_mem_nil⟩,
    ⟨[], (List.append_nil _).symm, fun _ h => absurd h List.not_mem_nil⟩⟩
  · rw [Server.get?_modifyRoom, if_neg hr]
  · exact Server.members_modifyRoom fun _ => by rfl
  · unfold isEloUpdated at h ⊢
    rw [Server.get?_modifyRoom, if_pos rfl]
    cases hroom : s.rooms.get? roomId with
    | none => rw [hroom] at h; exact h
    | some room => rfl

/-- What is announced. -/
theorem announced (h : Announced roomId s t) : EloFrame roomId s t := by
  have hsame := h.same
  refine ⟨by rw [hsame], by rw [hsame], fun _ _ => by rw [hsame], fun _ => by rw [hsame],
    fun hm => ?_, fun _ => by rw [hsame], fun _ _ _ => by rw [hsame], ?_, h.sent⟩
  · unfold isEloUpdated at hm ⊢
    rw [hsame]
    exact hm
  · refine ⟨[], ?_, fun _ h => absurd h List.not_mem_nil⟩
    rw [hsame, List.append_nil]

end EloFrame

/-- The seats an attempt is due for. -/
theorem EloDue.seats {cfg : Config} {env : Env} {roomId : RoomId} {engine : GameEngine}
    {s : Server} {whiteId blackId : UserId} {new : Int × Int}
    (h : EloDue cfg env roomId engine s whiteId blackId new) :
    getRoomPlayers s roomId = (some whiteId, some blackId) := by
  obtain ⟨winner, white, black, -, hrated, -⟩ := h.rated
  exact hrated.players

/-- Both calls of `set_elo` are for players of the room. -/
theorem EloDue.bothFrame {cfg : Config} {env : Env} {roomId : RoomId} {engine : GameEngine}
    {s : Server} {whiteId blackId : UserId} {new : Int × Int}
    (h : EloDue cfg env roomId engine s whiteId blackId new) (raised : Bool) :
    EloFrame roomId s
      ((s.afterSetElo roomId whiteId new.1 false).afterSetElo roomId blackId new.2 raised) := by
  have hwhite : (getRoomPlayers s roomId).1 = some whiteId := by rw [h.seats]
  have hfirst := EloFrame.afterSetElo new.1 false (Or.inl hwhite)
  -- the second call looks the players up again
  have hblack : (getRoomPlayers (s.afterSetElo roomId whiteId new.1 false) roomId).2
      = some blackId := by
    rw [hfirst.players, h.seats]
  exact hfirst.trans (EloFrame.afterSetElo new.2 raised (Or.inr hblack))

/-- **However an attempt ends, it stays within the frame.** -/
theorem EloAttempt.frame {cfg : Config} {env : Env} {roomId : RoomId} {engine : GameEngine}
    {s t : Server} {raised : Bool} (h : EloAttempt cfg env roomId engine s raised t) :
    EloFrame roomId s t := by
  cases h with
  | idle | nameRaises | ratingRaises => exact EloFrame.refl s
  | whiteRaises whiteId blackId new hdue =>
    exact EloFrame.afterSetElo _ _ (Or.inl (by rw [hdue.seats]))
  | blackRaises whiteId blackId new hdue => exact hdue.bothFrame true
  | applied whiteId blackId new t hdue _ _ hannounced =>
    exact ((hdue.bothFrame false).trans EloFrame.markElo).trans (EloFrame.announced hannounced)

/-! ### One pass of the clock loop -/

/-- The state after a tick of the room's engine, and after the state is sent if the last
motion has landed. -/
def Server.afterTick (s : Server) (roomId : RoomId) (engine : GameEngine) : Server :=
  let ticked := engine.updateGameClock tickMs
  let next := s.setEngine roomId ticked
  if finishedNow engine ticked then
    next.broadcast roomId (.state (ticked.snapshotState roomId))
  else next

/-- The state broadcast of a tick raises. -/
def StateBroadcastRaises (env : Env) (s : Server) (roomId : RoomId) (engine : GameEngine) :
    Prop :=
  finishedNow engine (engine.updateGameClock tickMs) = true ∧
    (s.rooms.get? roomId).isSome ∧ env.raises (.broadcastState roomId) = true

/-- How a pass of the loop of `tick_all` ends; the flag says whether it raises. -/
inductive TickOutcome (cfg : Config) (env : Env) (roomId : RoomId) (s : Server) :
    Bool → Server → Prop where
  | absent (hengine : s.engines.get? roomId = none) : TickOutcome cfg env roomId s false s
  | broadcastRaises (engine : GameEngine) (hengine : s.engines.get? roomId = some engine)
      (h : StateBroadcastRaises env s roomId engine) :
      TickOutcome cfg env roomId s true (s.setEngine roomId (engine.updateGameClock tickMs))
  | ticked (engine : GameEngine) (hengine : s.engines.get? roomId = some engine)
      (hsilent : ¬ StateBroadcastRaises env s roomId engine)
      (h : (engine.updateGameClock tickMs).gameOver = false ∨
        isEloUpdated (s.afterTick roomId engine) roomId = true) :
      TickOutcome cfg env roomId s false (s.afterTick roomId engine)
  | attempted (engine : GameEngine) (raised : Bool) (t : Server)
      (hengine : s.engines.get? roomId = some engine)
      (hsilent : ¬ StateBroadcastRaises env s roomId engine)
      (hover : (engine.updateGameClock tickMs).gameOver = true)
      (h : EloAttempt cfg env roomId (engine.updateGameClock tickMs) (s.afterTick roomId engine)
        raised t) :
      TickOutcome cfg env roomId s raised t

/-- **A pass of the clock loop ends in one of these ways.** -/
theorem tickRoom_cases (cfg : Config) (env : Env) (roomId : RoomId) (s : Server) :
    wp (tickRoom cfg env roomId) (fun _ t => TickOutcome cfg env roomId s false t)
      (fun _ t => TickOutcome cfg env roomId s true t) s := by
  unfold tickRoom
  rw [wp_bind, wp_get]
  cases hengine : s.engines.get? roomId with
  | none => exact .absent hengine
  | some engine =>
    dsimp only
    rw [wp_bind, wp_modify]
    -- the state broadcast
    have hbroadcast : wp
        (broadcastFinished env roomId engine (engine.updateGameClock tickMs))
        (fun _ t => t = s.afterTick roomId engine ∧ ¬ StateBroadcastRaises env s roomId engine)
        (fun _ t => t = s.setEngine roomId (engine.updateGameClock tickMs) ∧
          StateBroadcastRaises env s roomId engine)
        (s.setEngine roomId (engine.updateGameClock tickMs)) := by
      unfold broadcastFinished Server.afterTick StateBroadcastRaises
      dsimp only
      split
      · next hfinished =>
        refine wp_mono (broadcastRoom_spec _ _ _) ?_ ?_
        · rintro _ t ⟨rfl, hraises⟩
          exact ⟨rfl, fun h => hraises h.2⟩
        · rintro _ t ⟨rfl, hraises⟩
          exact ⟨rfl, hfinished, hraises⟩
      · next hrunning => exact ⟨rfl, fun h => hrunning h.1⟩
    refine wp_call hbroadcast ?_ ?_
    · rintro _ t ⟨rfl, hraises⟩
      exact .broadcastRaises engine hengine hraises
    rintro _ t ⟨rfl, hsilent⟩
    rw [wp_bind, wp_get]
    split
    · next hdue =>
      refine wp_mono (applyElo_cases _ _ _ _ _) ?_ ?_
      · exact fun _ t ht => .attempted engine false t hengine hsilent hdue.1 ht
      · exact fun _ t ht => .attempted engine true t hengine hsilent hdue.1 ht
    · next hnot =>
      refine .ticked engine hengine hsilent ?_
      by_contra hneither
      push Not at hneither
      exact hnot ⟨Bool.of_not_eq_false hneither.1, Bool.eq_false_iff.mpr hneither.2⟩

/-! ### Forfeits -/

/-- How a forfeit ends; the flag says whether it raises. -/
inductive ForfeitOutcome (cfg : Config) (env : Env) (roomId : RoomId) (loser : UserId)
    (s : Server) : Bool → Server → Prop where
  /-- There is no running game, or the loser plays in none. -/
  | idle : ForfeitOutcome cfg env roomId loser s false s
  | nameRaises : ForfeitOutcome cfg env roomId loser s true s
  | forfeited (engine : GameEngine) (winner : Color) (raised : Bool) (t : Server)
      (hengine : s.engines.get? roomId = some engine) (hrunning : engine.gameOver = false)
      (hnames : ¬ NameLookupRaises env s .forfeitName roomId)
      (hwinner : forfeitWinner (s.playersOf roomId) loser = some winner)
      (h : EloAttempt cfg env roomId (engine.forceForfeit winner)
        (s.setEngine roomId (engine.forceForfeit winner)) raised t) :
      ForfeitOutcome cfg env roomId loser s raised t

/-- **A forfeit ends in one of these ways.** -/
theorem forceForfeit_cases (cfg : Config) (env : Env) (roomId : RoomId) (loser : UserId)
    (s : Server) :
    wp (forceForfeit cfg env roomId loser)
      (fun _ t => ForfeitOutcome cfg env roomId loser s false t)
      (fun _ t => ForfeitOutcome cfg env roomId loser s true t) s := by
  -- a room without an engine, and a game that has ended, are left alone
  unfold GameService.forceForfeit
  rw [wp_bind, wp_get]
  cases hengine : s.engines.get? roomId with
  | none => exact .idle
  | some engine =>
    dsimp only
    split
    · exact .idle
    next hrunning =>
    -- the names are read before the engine is ended
    refine wp_call (getRoomPlayersForElo_spec _ _) ?_ ?_
    · rintro _ t ⟨rfl, -⟩
      exact .nameRaises
    rintro _ t ⟨rfl, rfl, hnames⟩
    cases hwinner : forfeitWinner (t.playersOf roomId) loser with
    | none => exact .idle
    | some winner =>
      dsimp only
      rw [wp_bind, wp_modify]
      refine wp_mono (applyElo_cases _ _ _ _ _) ?_ ?_
      · exact fun _ u hu => .forfeited engine winner false u hengine
          (Bool.eq_false_iff.mpr hrunning) hnames hwinner hu
      · exact fun _ u hu => .forfeited engine winner true u hengine
          (Bool.eq_false_iff.mpr hrunning) hnames hwinner hu

/-! ### Connections -/

/-- How `mark_disconnected` returns. -/
inductive MarkOutcome (env : Env) (userId : UserId) (s : Server) : Option RoomId → Server → Prop where
  | nobody (hmapped : s.userRoom.get? userId = none) : MarkOutcome env userId s none s
  /-- A viewer, or a user whose entry is gone. -/
  | left (roomId : RoomId) (room : Room) (hmapped : s.userRoom.get? userId = some roomId)
      (hroom : s.rooms.get? roomId = some room)
      (hviewer : ∀ member, room.members.get? userId = some member → member.role = .viewer) :
      MarkOutcome env userId s none
        { s.modifyRoom roomId fun room => { room with members := room.members.pop userId }
          with userRoom := s.userRoom.pop userId }
  | marked (roomId : RoomId) (hmapped : s.userRoom.get? userId = some roomId) :
      MarkOutcome env userId s (some roomId)
        (s.modifyMember roomId userId fun member =>
          { member with
            status := .disconnected
            disconnectDeadline := some (env.now + disconnectGraceSeconds) })

/-- **A closed socket is noted in one of these ways**, and a mapping without a room raises. -/
theorem markDisconnected_cases (env : Env) (userId : UserId) (s : Server) :
    wp (markDisconnected env userId) (MarkOutcome env userId s) (fun _ t => t = s) s := by
  -- the viewer is the case that leaves, everybody else is marked
  unfold markDisconnected
  rw [wp_bind, wp_get]
  cases hmapped : s.userRoom.get? userId with
  | none => exact .nobody hmapped
  | some roomId =>
    dsimp only
    cases hroom : s.rooms.get? roomId with
    | none => rfl
    | some room =>
      dsimp only
      split
      · next hviewer =>
        rw [wp_bind, wp_modify, wp_pure]
        refine .left roomId room hmapped hroom fun member hmember => ?_
        rw [hmember] at hviewer
        exact of_decide_eq_true hviewer
      · rw [wp_bind, wp_modify, wp_pure]
        exact .marked roomId hmapped

/-- How `reconnect` returns. -/
inductive ReconnectOutcome (userId : UserId) (s : Server) : Option RoomId → Server → Prop where
  | absent (hentry : ∀ roomId, s.userRoom.get? userId = some roomId →
      ((s.rooms.get? roomId).bind fun room => room.members.get? userId) = none) :
      ReconnectOutcome userId s none s
  | back (roomId : RoomId) (hmapped : s.userRoom.get? userId = some roomId) :
      ReconnectOutcome userId s (some roomId)
        (s.modifyMember roomId userId fun member =>
          { member with status := .connected, disconnectDeadline := none })

/-- **A user is back in one of these ways.** -/
theorem reconnect_cases (userId : UserId) (s : Server) :
    wp (reconnect userId) (ReconnectOutcome userId s) (fun _ _ => False) s := by
  -- a mapping to a room that is gone counts as none
  unfold reconnect
  rw [wp_bind, wp_get]
  cases hmapped : s.userRoom.get? userId with
  | none => exact .absent fun roomId h => absurd (hmapped.symm.trans h) nofun
  | some roomId =>
    dsimp only
    split
    · next hentry =>
      refine .absent fun r hr => ?_
      obtain rfl := Option.some.inj (hmapped.symm.trans hr)
      exact hentry
    · rw [wp_bind, wp_modify, wp_pure]
      exact .back roomId hmapped

end KungFuChess
