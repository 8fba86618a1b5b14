import KungFuChess.Server.EventRule
import KungFuChess.Server.RatingWrites

/-!
# The result of a room is told once

`_apply_elo` is tried again with every tick until it has come through, with stores that may fail
at any point, and it sends the result before it is known whether anybody hears it. Still a room is
told one result at most, however often it is tried: the mark that stops `_apply_elo` is set before
the result is sent. And what is told is what has been stored (`ResultStored`): the winner the engine
has, and the last two ratings written for the room, under the names of the two players. The mark is
lost only when a `create_room` draws the identifier of a room that exists (`Reopens`).
-/

namespace KungFuChess

open Effect RoomService GameService

/-! ### The property -/

/-- The message tells the result of the room. -/
def Outgoing.tellsResult (roomId : RoomId) (m : Outgoing) : Bool :=
  match m.message with
  | .gameOver _ _ r => decide (r = roomId)
  | _ => false

/-- The results of the room that have been told. -/
def resultsOf (s : Server) (roomId : RoomId) : List Outgoing :=
  s.outbox.filter (Outgoing.tellsResult roomId)

/-- The message tells both players what the engine and the user store say. -/
structure ResultStored (s : Server) (roomId : RoomId) (m : Outgoing) (winner : Color)
    (whiteId blackId : UserId) (new : Int × Int) : Prop where
  marked : isEloUpdated s roomId = true
  ended : ∃ e, s.engines.get? roomId = some e ∧ e.gameOver = true ∧ e.winner = some winner
  writes : ∃ before, ratingWrites s roomId =
    before ++ [⟨roomId, whiteId, new.1, false⟩, ⟨roomId, blackId, new.2, false⟩]
  message : ∃ whiteName blackName, s.nameOf (some whiteId) = some whiteName ∧
    s.nameOf (some blackId) = some blackName ∧
    m.message = .gameOver winner [(whiteName, new.1), (blackName, new.2)] roomId
  recipients : whiteId ∈ m.recipients ∧ blackId ∈ m.recipients

/-- No result has been told, or one, and it is the one that is stored. -/
def ToldOnce (s : Server) (roomId : RoomId) : Prop :=
  resultsOf s roomId = [] ∨
    ∃ m winner whiteId blackId new, resultsOf s roomId = [m] ∧
      ResultStored s roomId m winner whiteId blackId new

/-- A `create_room` opens the room again. -/
def Reopens (s : Server) (roomId : RoomId) (event : Env × Event) : Prop :=
  ∃ u, event.2 = .createRoom u ∧ event.1.tokenHex u = roomId ∧ s.userRoom.get? u = none ∧
    (s.rooms.get? roomId).isSome = true

/-- What a run keeps: the result is told once, and it is told if it has been applied, unless
somebody hears nothing (`quiet`). -/
structure ResultInv (quiet : Prop) (roomId : RoomId) (s : Server) : Prop where
  once : ToldOnce s roomId
  told : quiet → isEloUpdated s roomId = true → resultsOf s roomId ≠ []

/-! ### What is left alone -/

section Frames

variable {quiet : Prop} {s t : Server} {roomId : RoomId} {m : Outgoing} {winner : Color}
  {whiteId blackId : UserId} {new : Int × Int}

theorem resultsOf_append {sent : List Outgoing} (h : t.outbox = s.outbox ++ sent) :
    resultsOf t roomId = resultsOf s roomId ++ sent.filter (Outgoing.tellsResult roomId) := by
  unfold resultsOf
  rw [h, List.filter_append]

/-- Passing messages are no results. -/
theorem resultsOf_of_passing {sent : List Outgoing} (h : t.outbox = s.outbox ++ sent)
    (hother : ∀ m ∈ sent, m.tellsResult roomId = false) : resultsOf t roomId = resultsOf s roomId := by
  have hnone : sent.filter (Outgoing.tellsResult roomId) = [] :=
    List.filter_eq_nil_iff.mpr fun m hm => Bool.eq_false_iff.mp (hother m hm)
  rw [resultsOf_append h, hnone, List.append_nil]

/-- Two states are the same for the result of the room. -/
structure SameResult (s t : Server) (roomId : RoomId) : Prop where
  results : resultsOf t roomId = resultsOf s roomId
  marked : isEloUpdated t roomId = isEloUpdated s roomId
  ended : ∀ e, s.engines.get? roomId = some e → e.gameOver = true →
    t.engines.get? roomId = some e
  writes : ratingWrites t roomId = ratingWrites s roomId
  names : ∀ u name, s.nameOf (some u) = some name → t.nameOf (some u) = some name

/-- A stored result stays stored. -/
theorem SameResult.stored (h : SameResult s t roomId)
    (hstored : ResultStored s roomId m winner whiteId blackId new) :
    ResultStored t roomId m winner whiteId blackId new := by
  obtain ⟨e, he, hover, hwinner⟩ := hstored.ended
  obtain ⟨before, hwrites⟩ := hstored.writes
  obtain ⟨whiteName, blackName, hwhite, hblack, hmessage⟩ := hstored.message
  exact ⟨h.marked.trans hstored.marked, ⟨e, h.ended e he hover, hover, hwinner⟩,
    ⟨before, h.writes.trans hwrites⟩,
    ⟨whiteName, blackName, h.names _ _ hwhite, h.names _ _ hblack, hmessage⟩, hstored.recipients⟩

/-- The invariant reads nothing else. -/
theorem ResultInv.of_same (h : ResultInv quiet roomId s) (hsame : SameResult s t roomId) :
    ResultInv quiet roomId t := by
  refine ⟨?_, fun hquiet hmarked => ?_⟩
  · obtain hnone | ⟨m, winner, whiteId, blackId, new, hone, hstored⟩ := h.once
    · exact Or.inl (hsame.results.trans hnone)
    · exact Or.inr ⟨m, winner, whiteId, blackId, new, hsame.results.trans hone,
        hsame.stored hstored⟩
  · rw [hsame.results]
    exact h.told hquiet (hsame.marked.symm.trans hmarked)

/-- Only what the room does not depend on has changed. -/
theorem SameResult.of_eq (houtbox : t.outbox = s.outbox)
    (hrooms : t.rooms.get? roomId = s.rooms.get? roomId)
    (hengines : t.engines.get? roomId = s.engines.get? roomId)
    (hcalls : t.setEloCalls = s.setEloCalls) (husers : t.users = s.users) :
    SameResult s t roomId where
  results := by rw [resultsOf, houtbox, resultsOf]
  marked := isEloUpdated_congr hrooms
  ended := fun e he _ => hengines.trans he
  writes := by rw [ratingWrites, hcalls, ratingWrites]
  names := fun u name hname => by rwa [Server.nameOf, husers]

/-- A write to a room that leaves the mark. -/
theorem SameResult.modifyRoom (r : RoomId) (f : Room → Room)
    (hf : ∀ room, (f room).eloUpdated = room.eloUpdated)
    (hrooms : t.rooms = (s.modifyRoom r f).rooms) (houtbox : t.outbox = s.outbox)
    (hengines : t.engines = s.engines) (hcalls : t.setEloCalls = s.setEloCalls)
    (husers : t.users = s.users) : SameResult s t roomId where
  results := by rw [resultsOf, houtbox, resultsOf]
  marked := by
    -- the mark of the room written, and of the others
    unfold isEloUpdated
    rw [hrooms, Server.get?_modifyRoom]
    split
    · next hr =>
      subst hr
      cases s.rooms.get? roomId with
      | none => rfl
      | some room => exact hf room
    · rfl
  ended := fun e he _ => hengines ▸ he
  writes := by rw [ratingWrites, hcalls, ratingWrites]
  names := fun u name hname => by rwa [Server.nameOf, husers]

/-- A room that is opened where there is none is not marked. -/
theorem SameResult.opened (r : RoomId) (room : Room) (hroom : room.eloUpdated = false)
    (habsent : r = roomId → s.rooms.get? roomId = none) (hrooms : t.rooms = s.rooms.set r room)
    (houtbox : t.outbox = s.outbox) (hengines : t.engines = s.engines)
    (hcalls : t.setEloCalls = s.setEloCalls) (husers : t.users = s.users) :
    SameResult s t roomId where
  results := by rw [resultsOf, houtbox, resultsOf]
  -- an absent room is not marked, and neither is the new one
  marked := by
    unfold isEloUpdated
    rw [hrooms, Dict.get?_set]
    split
    · next hr =>
      rw [habsent hr.symm]
      exact hroom
    · rfl
  ended := fun e he _ => hengines ▸ he
  writes := by rw [ratingWrites, hcalls, ratingWrites]
  names := fun u name hname => by rwa [Server.nameOf, husers]

/-- A plain action. -/
theorem SameResult.apply {a : Action} (hplain : a.Plain) (ha : a.Enabled s)
    (hreopens : ∀ r creator, a = .openRoom r creator → r = roomId → s.rooms.get? roomId = none) :
    SameResult s (a.apply s) roomId := by
  cases a with
  | openRoom r creator =>
    -- the two openings: the id is not that of a room in the tables
    exact .opened r (openedRoom r creator) rfl (hreopens r creator rfl) rfl rfl rfl rfl rfl
  | openMatchedRoom r userA userB =>
    exact .opened r (matchedRoom r userA userB) rfl (fun hr => hr ▸ ha.2.2) rfl rfl rfl rfl rfl
  | createEngine r board =>
    -- an engine is made in a room that has none
    refine ⟨rfl, rfl, fun e he hover => ?_, rfl, fun _ _ hname => hname⟩
    refine (Server.get?_setEngine ..).trans ?_
    rw [if_neg]
    · exact he
    · rintro rfl
      exact absurd (he.symm.trans ha.1) (Option.some_ne_none e)
  | startGame r =>
    exact .modifyRoom r (fun room => { room with gameStarted := true }) (fun _ => rfl)
      rfl rfl rfl rfl rfl
  | join r userId role =>
    exact .modifyRoom r (fun room => { room with
      members := room.members.set userId { userId := userId, role := role } }) (fun _ => rfl)
      rfl rfl rfl rfl rfl
  | leave r userId =>
    exact .modifyRoom r (fun room => { room with members := room.members.pop userId })
      (fun _ => rfl) rfl rfl rfl rfl rfl
  | connection r userId f =>
    exact .modifyRoom r (fun room => { room with members := room.members.modify userId f })
      (fun _ => rfl) rfl rfl rfl rfl rfl
  | engine r before call =>
    refine ⟨rfl, rfl, fun e he hover => ?_, rfl, fun _ _ hname => hname⟩
    refine (Server.get?_setEngine ..).trans ?_
    split
    · next hr =>
      -- a game that is over stays as it is
      subst hr
      obtain rfl : before = e := Option.some.inj (ha.symm.trans he)
      rw [EngineCall.apply_of_gameOver hover]
    · exact he
  | register user =>
    refine ⟨rfl, rfl, fun _ he _ => he, rfl, fun u name hname => ?_⟩
    obtain ⟨user', huser', hname⟩ := Option.map_eq_some_iff.mp hname
    -- the id of a new user is new
    have hne : u ≠ user.userId := by
      rintro rfl
      exact absurd (huser'.symm.trans ha) (Option.some_ne_none user')
    unfold Server.nameOf
    change ((s.users.set user.userId user).get? u).map User.username = some name
    rw [Dict.get?_set_of_ne _ _ hne]
    exact Option.map_eq_some_iff.mpr ⟨user', huser', hname⟩
  | setQueue queue => exact .of_eq rfl rfl rfl rfl rfl
  | aside | setElo | markElo => exact absurd hplain id

/-- An attempt for another room. -/
theorem SameResult.attempt {r : RoomId} (h : EloFrame r s t) (hne : roomId ≠ r) :
    SameResult s t roomId where
  results := by
    obtain ⟨sent, hsent, hall⟩ := h.sent
    refine resultsOf_of_passing hsent fun m hm => ?_
    obtain ⟨winner, ratings, hmessage⟩ := hall m hm
    rw [Outgoing.tellsResult, hmessage]
    exact decide_eq_false hne.symm
  marked := isEloUpdated_congr (h.rooms roomId hne)
  ended := fun e he _ => h.engines ▸ he
  writes := by
    obtain ⟨calls, hcalls, hall⟩ := h.calls
    unfold ratingWrites
    rw [hcalls, List.filter_append, List.append_right_eq_self, List.filter_eq_nil_iff]
    intro call hcall
    simp [hall call hcall, Ne.symm hne]
  names := fun u name hname => by
    unfold Server.nameOf at hname ⊢
    exact (h.usernames u).trans hname

end Frames

/-! ### The attempt -/

/-- How an attempt for a room that is not marked ends: nothing is told, and then the mark is
missing or the broadcast has raised; or the result is told to the members of the room. -/
inductive ResultTold (env : Env) (roomId : RoomId) (e : GameEngine) (s t : Server) : Prop
  | silent (hsent : t.outbox = s.outbox)
      (hmarked : isEloUpdated t roomId = false ∨
        env.raises (.broadcastGameOver roomId) = true)
  | told (winner : Color) (whiteId blackId : UserId) (whiteName blackName : String)
      (new : Int × Int) (hwinner : e.winner = some winner)
      (hboth : (s.playersOf roomId).both = some (whiteId, blackId, whiteName, blackName))
      (hsent : t.outbox = s.outbox ++ [⟨some roomId, memberIds s roomId,
        .gameOver winner [(whiteName, new.1), (blackName, new.2)] roomId⟩])
      (hcalls : t.setEloCalls = s.setEloCalls ++
        [⟨roomId, whiteId, new.1, false⟩, ⟨roomId, blackId, new.2, false⟩])
      (hmarked : isEloUpdated t roomId = true)

section Attempt

variable {cfg : Config} {env : Env} {s : Server} {roomId : RoomId} {e : GameEngine}

/-- Only the history, the keys in Redis and the outbox have changed. -/
def BesideServices (s t : Server) : Prop :=
  t = { s with games := t.games, allocator := t.allocator, outbox := t.outbox }

/-- The result is told once the ratings are written, unless the broadcast raises. -/
theorem announceResult_told (result : GameResult) (ratings : List (String × Int))
    (hroom : (s.rooms.get? result.roomId).isSome) :
    wp (announceResult cfg env result ratings)
      (fun _ t => BesideServices s t ∧ t.outbox = s.outbox ++ [⟨some result.roomId,
        memberIds s result.roomId, .gameOver result.winner ratings result.roomId⟩])
      (fun _ t => BesideServices s t ∧ t.outbox = s.outbox ∧
        env.raises (.broadcastGameOver result.roomId) = true) s := by
  -- the record is stored or the failure is swallowed: no message either way
  have hrecord : wp (tryCatch (GameHistoryStore.record env result) fun _ => pure ())
      (fun _ t => BesideServices s t ∧ t.outbox = s.outbox) (fun _ _ => False) s := by
    rw [wp_tryCatch]
    unfold GameHistoryStore.record
    refine wp_call (perform_spec _) ?_ ?_
    · rintro _ t ⟨rfl, -⟩
      exact ⟨rfl, rfl⟩
    rintro _ t ⟨rfl, -⟩
    rw [wp_modify]
    split
    · exact ⟨rfl, rfl⟩
    · exact ⟨rfl, rfl⟩
  -- so with the callback
  have hcallback : ∀ u : Server,
      wp (tryCatch (onGameFinished cfg env result.roomId [result.whiteId, result.blackId])
        fun _ => pure ()) (fun _ t => BesideServices u t ∧ t.outbox = u.outbox)
        (fun _ _ => False) u := by
    intro u
    rw [wp_tryCatch]
    unfold onGameFinished
    split
    · exact ⟨rfl, rfl⟩
    · refine wp_call (perform_spec _) ?_ ?_
      · rintro _ t ⟨rfl, -⟩
        exact ⟨rfl, rfl⟩
      · rintro _ t ⟨rfl, -⟩
        exact ⟨rfl, rfl⟩
  -- the record first, then the message, then the callback
  unfold announceResult
  refine wp_call hrecord (fun _ _ h => h.elim) ?_
  rintro _ t ⟨hbeside, houtbox⟩
  have hrooms : t.rooms = s.rooms := by rw [hbeside]
  refine wp_call (broadcastRoom_spec _ _ _) ?_ ?_
  · rintro _ u ⟨rfl, -, hraises⟩
    exact ⟨hbeside, houtbox, hraises⟩
  rintro _ u ⟨rfl, -⟩
  refine wp_mono (hcallback _) ?_ fun _ _ h => h.elim
  rintro _ v ⟨hbeside', houtbox'⟩
  obtain ⟨room, hroom⟩ := Option.isSome_iff_exists.mp hroom
  have hsent : t.broadcast result.roomId (.gameOver result.winner ratings result.roomId) =
      t.send (some result.roomId) room.members.keys
        (.gameOver result.winner ratings result.roomId) := by
    unfold Server.broadcast
    rw [hrooms, hroom]
  rw [hsent] at hbeside' houtbox'
  refine ⟨?_, ?_⟩
  · unfold BesideServices at hbeside hbeside' ⊢
    rw [hbeside', Server.send, hbeside]
  · have hmembers : memberIds s result.roomId = room.members.keys := by
      unfold memberIds
      rw [hroom]
      rfl
    rw [houtbox', hmembers]
    exact congrArg (· ++ _) houtbox

/-- **How an attempt ends.** -/
theorem applyElo_told (hpending : isEloUpdated s roomId = false) :
    wp (applyElo cfg env roomId e) (fun _ t => ResultTold env roomId e s t)
      (fun _ t => ResultTold env roomId e s t) s := by
  have hsilent : ResultTold env roomId e s s := .silent rfl (Or.inl hpending)
  unfold applyElo
  rw [wp_bind, wp_get]
  split
  · exact hsilent
  split
  · exact hsilent
  next winner hwinner =>
  refine wp_call (getRoomPlayersForElo_spec _ _) ?_ ?_
  · rintro _ t ⟨rfl, -⟩
    exact hsilent
  rintro _ t ⟨rfl, rfl, -⟩
  -- until the mark is set nothing has been told, so every early end is silent
  split
  · exact hsilent
  next whiteId blackId whiteName blackName hboth =>
  obtain ⟨white, black, hrated⟩ := exists_rated hboth
  refine wp_call (getById_spec _ _) ?_ ?_
  · rintro _ u ⟨rfl, -⟩
    exact hsilent
  rintro _ u ⟨rfl, rfl, -⟩
  refine wp_call (getById_spec _ _) ?_ ?_
  · rintro _ v ⟨rfl, -⟩
    exact hsilent
  rintro _ v ⟨rfl, rfl, -⟩
  rw [hrated.white, hrated.black]
  dsimp only
  generalize newRatings cfg winner white.elo black.elo = new
  -- a write that raises leaves the mark missing
  unfold writeRatings
  rw [wp_bind]
  refine wp_call (setElo_spec _ _ _) ?_ ?_
  · rintro _ u ⟨rfl, -⟩
    exact .silent rfl (Or.inl hpending)
  rintro _ u ⟨rfl, -⟩
  refine wp_call (setElo_spec _ _ _) ?_ ?_
  · rintro _ u ⟨rfl, -⟩
    exact .silent rfl (Or.inl hpending)
  rintro _ u ⟨rfl, -⟩
  unfold markEloUpdated
  rw [wp_modify]
  obtain ⟨room, hroom⟩ := Option.isSome_iff_exists.mp hrated.room
  have hafter : (v.afterRatings roomId whiteId blackId new).rooms.get? roomId =
      some { room with eloUpdated := true } := by
    unfold Server.afterRatings
    rw [Server.get?_modifyRoom, if_pos rfl]
    exact congrArg (Option.map _) hroom
  have hmarked : ∀ t, BesideServices (v.afterRatings roomId whiteId blackId new) t →
      isEloUpdated t roomId = true := by
    intro t hbeside
    have hrooms : t.rooms = (v.afterRatings roomId whiteId blackId new).rooms := by rw [hbeside]
    unfold isEloUpdated
    rw [hrooms, hafter]
    rfl
  have hmembers : memberIds (v.afterRatings roomId whiteId blackId new) roomId =
      memberIds v roomId := by
    unfold memberIds
    rw [hafter, hroom]
    rfl
  refine wp_mono (announceResult_told (s := v.afterRatings roomId whiteId blackId new) _ _ ?_) ?_ ?_
  · rw [hafter]
    rfl
  · rintro _ t ⟨hbeside, hsent⟩
    refine .told winner whiteId blackId whiteName blackName new hwinner hboth ?_ ?_ (hmarked t hbeside)
    · rw [hsent, hmembers]
      rfl
    · rw [hbeside]
      exact List.append_assoc _ _ _
  · rintro _ t ⟨hbeside, hsent, hraises⟩
    exact .silent hsent (Or.inr hraises)

/-- Players are members. -/
theorem mem_memberIds_of_seat {userId : UserId}
    (h : (getRoomPlayers s roomId).1 = some userId ∨ (getRoomPlayers s roomId).2 = some userId) :
    userId ∈ memberIds s roomId := by
  unfold getRoomPlayers at h
  split at h
  · simp at h
  · next room hroom =>
    unfold memberIds
    rw [hroom]
    obtain h | h := h
    · obtain ⟨member, hmember, -⟩ := seatOf_eq_some h
      exact Dict.mem_keys_iff.mpr ⟨member, hmember⟩
    · obtain ⟨member, hmember, -⟩ := seatOf_eq_some h
      exact Dict.mem_keys_iff.mpr ⟨member, hmember⟩

/-- A room that is not marked has told nothing, and an attempt for it tells the result or leaves
it unmarked. -/
theorem ResultInv.of_told {quiet : Prop} {t : Server} (h : ResultInv quiet roomId s)
    (hpending : isEloUpdated s roomId = false) (he : s.engines.get? roomId = some e)
    (hover : e.gameOver = true)
    (hquiet : quiet → env.raises (.broadcastGameOver roomId) = false)
    (hframe : EloFrame roomId s t) (htold : ResultTold env roomId e s t) :
    ResultInv quiet roomId t := by
  -- a result that had been told would have left its mark
  have hnone : resultsOf s roomId = [] := by
    obtain hnone | ⟨m, winner, whiteId, blackId, new, -, hstored⟩ := h.once
    · exact hnone
    · exact absurd (hstored.marked.symm.trans hpending) (by simp)
  cases htold with
  | silent hsent hmarked =>
    refine ⟨Or.inl ?_, fun hq hm => ?_⟩
    · unfold resultsOf at hnone ⊢
      rw [hsent, hnone]
    · obtain hunmarked | hraises := hmarked
      · exact absurd (hm.symm.trans hunmarked) (by simp)
      · exact absurd (hraises.symm.trans (hquiet hq)) (by simp)
  | told winner whiteId blackId whiteName blackName new hwinner hboth hsent hcalls hmarked =>
    have hone : resultsOf t roomId = [⟨some roomId, memberIds s roomId,
        .gameOver winner [(whiteName, new.1), (blackName, new.2)] roomId⟩] := by
      rw [resultsOf_append hsent, hnone, List.nil_append]
      exact List.filter_cons_of_pos (decide_eq_true rfl)
    obtain ⟨hwhite, hblack, hwhiteName, hblackName⟩ := Players.both_eq_some hboth
    have hname : ∀ u, t.nameOf (some u) = s.nameOf (some u) := hframe.usernames
    -- the two writes of the attempt are the last ones for the room
    have hwrites : ratingWrites t roomId = ratingWrites s roomId ++
        [⟨roomId, whiteId, new.1, false⟩, ⟨roomId, blackId, new.2, false⟩] := by
      unfold ratingWrites
      rw [hcalls, List.filter_append]
      congr 1
      exact List.filter_eq_self.mpr fun call hcall => by
        obtain rfl | rfl := List.mem_pair.mp hcall <;> simp
    have hrecipients : whiteId ∈ memberIds s roomId ∧ blackId ∈ memberIds s roomId :=
      ⟨mem_memberIds_of_seat (Or.inl hwhite), mem_memberIds_of_seat (Or.inr hblack)⟩
    have hstored : ResultStored t roomId ⟨some roomId, memberIds s roomId,
        .gameOver winner [(whiteName, new.1), (blackName, new.2)] roomId⟩ winner whiteId blackId new :=
      { marked := hmarked
        ended := ⟨e, hframe.engines ▸ he, hover, hwinner⟩
        writes := ⟨_, hwrites⟩
        message := ⟨whiteName, blackName, (hname _).trans (hwhite ▸ hwhiteName),
          (hname _).trans (hblack ▸ hblackName), rfl⟩
        recipients := hrecipients }
    refine ⟨Or.inr ⟨_, winner, whiteId, blackId, new, hone, hstored⟩, fun _ _ => ?_⟩
    rw [hone]
    exact List.cons_ne_nil _ _

/-- **An attempt**, for this room or another. -/
theorem ResultInv.applyElo {quiet : Prop} {r : RoomId} (h : ResultInv quiet roomId s)
    (he : s.engines.get? r = some e) (hover : e.gameOver = true)
    (hquiet : quiet → env.raises (.broadcastGameOver roomId) = false) :
    wp (applyElo cfg env r e) (fun _ => ResultInv quiet roomId) (fun _ => ResultInv quiet roomId)
      s := by
  -- a room that is marked is not tried again
  by_cases hr : roomId = r
  · subst hr
    cases hmarked : isEloUpdated s roomId with
    | true =>
      unfold GameService.applyElo
      rw [wp_bind, wp_get, if_pos hmarked, wp_pure]
      exact h
    | false =>
      have htold := fun t hframe => h.of_told (t := t) hmarked he hover hquiet hframe
      exact wp_mono (wp_and (applyElo_cases cfg env roomId e s) (applyElo_told hmarked))
        (fun _ t ht => htold t ht.1.frame ht.2) fun _ t ht => htold t ht.1.frame ht.2
  · exact wp_mono (applyElo_cases cfg env r e s)
      (fun _ t ht => h.of_same (SameResult.attempt ht.frame hr))
      fun _ t ht => h.of_same (SameResult.attempt ht.frame hr)

end Attempt

/-! ### Events -/

theorem not_reopens {s : Server} {env : Env} {roomId : RoomId} {event : Event}
    (hevent : ∀ u, event ≠ .createRoom u) : ¬ Reopens s roomId (env, event) :=
  fun ⟨u, hcreate, _⟩ => hevent u hcreate

theorem not_reopens_of_absent {s : Server} {roomId : RoomId} {event : Env × Event}
    (hroom : (s.rooms.get? roomId).isSome = false) : ¬ Reopens s roomId event :=
  fun ⟨_, _, _, _, hexists⟩ => Bool.false_ne_true (hroom.symm.trans hexists)

/-- No room is opened again by what is left of the event. -/
theorem Reopens.not_apply {s : Server} {roomId : RoomId} {event : Env × Event} {a : Action}
    (ha : a.Enabled s) (hof : a.Of event) (h : ¬ Reopens s roomId event) :
    ¬ Reopens (a.apply s) roomId event := by
  obtain ⟨env, event⟩ := event
  rintro ⟨u, rfl, htoken, hfree, hroom⟩
  cases a with
  | openRoom r creator =>
    -- the user who opens the room is mapped now
    obtain ⟨hcreate, -⟩ := hof
    obtain rfl : u = creator := Event.createRoom.inj hcreate
    exact absurd ((Dict.get?_set_self s.userRoom u r).symm.trans hfree) (by simp)
  | createEngine r board => exact h ⟨u, rfl, htoken, hfree, hroom⟩
  | startGame r =>
    refine h ⟨u, rfl, htoken, hfree, ?_⟩
    change ((s.modifyRoom r _).rooms.get? roomId).isSome = true at hroom
    rw [Server.get?_modifyRoom] at hroom
    split at hroom
    · next hr => exact hr ▸ Option.isSome_map.symm.trans hroom
    · exact hroom
  | engine r before call => cases call <;> simp [Action.Of] at hof
  | aside state =>
    change state = _ at ha
    change state.userRoom.get? u = none at hfree
    change (state.rooms.get? roomId).isSome = true at hroom
    rw [ha] at hfree hroom
    exact h ⟨u, rfl, htoken, hfree, hroom⟩
  | _ => simp [Action.Of] at hof

/-- **The rule holds of all events** that do not open the room again. -/
theorem resultInv_rule (cfg : Config) {quiet : Prop} {env : Env} {event : Event} {roomId : RoomId}
    (hquiet : quiet → env.raises (.broadcastGameOver roomId) = false) :
    EventRule cfg env event fun s =>
      ResultInv quiet roomId s ∧ ¬ Reopens s roomId (env, event) where
  act := fun a s hplain hof ha h => by
    -- a room that is there can be opened again only by a creation of the event
    refine ⟨h.1.of_same (SameResult.apply hplain ha ?_), Reopens.not_apply ha hof h.2⟩
    rintro r creator rfl rfl
    obtain ⟨rfl, rfl⟩ : event = .createRoom creator ∧ r = env.tokenHex creator := hof
    by_contra hroom
    exact h.2 ⟨creator, rfl, rfl, ha, Option.isSome_iff_ne_none.mpr hroom⟩
  note := fun s _ _ h => ⟨h.1.of_same (.of_eq rfl rfl rfl rfl rfl), h.2⟩
  passing := fun s recipients message r? hpassing h => by
    refine ⟨h.1.of_same ⟨?_, rfl, fun _ he _ => he, rfl, fun _ _ hname => hname⟩, h.2⟩
    refine resultsOf_of_passing rfl fun m hm => ?_
    rw [List.mem_singleton.mp hm]
    cases message with
    | gameOver => exact absurd hpassing id
    | _ => rfl
  state := fun s recipients r e r? he h => by
    refine ⟨h.1.of_same ⟨?_, rfl, fun _ he _ => he, rfl, fun _ _ hname => hname⟩, h.2⟩
    refine resultsOf_of_passing rfl fun m hm => ?_
    rw [List.mem_singleton.mp hm]
    rfl
  result := fun s r e he hover h => by
    have hopened : ∀ t, EloFrame r s t → ¬ Reopens t roomId (env, event) := by
      rintro t hframe ⟨u, hcreate, htoken, hfree, hroom⟩
      refine h.2 ⟨u, hcreate, htoken, hframe.userRoom ▸ hfree, ?_⟩
      rw [← Option.isSome_map, ← hframe.members roomId, Option.isSome_map]
      exact hroom
    exact wp_mono (wp_and (applyElo_cases cfg env r e s) (h.1.applyElo he hover hquiet))
      (fun _ t ht => ⟨ht.2, hopened t ht.1.frame⟩) fun _ t ht => ⟨ht.2, hopened t ht.1.frame⟩

/-- Every run in which the room is not opened again keeps the invariant. -/
theorem ResultInv.run {cfg : Config} {quiet : Prop} {roomId : RoomId} {events : List (Env × Event)}
    (users : Dict UserId User) (games : Dict RoomId GameResult)
    (hopened : Run.Guarded (Server.step cfg) (fun s event _ => ¬ Reopens s roomId event)
      (Server.initial users games) events)
    (hquiet : quiet → ∀ event ∈ events, event.1.raises (.broadcastGameOver roomId) = false) :
    ResultInv quiet roomId ((Server.initial users games).play cfg events) := by
  have hstart : ResultInv quiet roomId (Server.initial users games) :=
    -- nothing is sent or marked at the start
    ⟨Or.inl rfl, fun _ hmarked => absurd hmarked (by simp [Server.initial, isEloUpdated])⟩
  have hall := hopened.invariant
    (P := fun (s : Server) (is : List (Env × Event)) => ResultInv quiet roomId s ∧
      (quiet → ∀ event ∈ is, event.1.raises (.broadcastGameOver roomId) = false))
    (fun s event is h hok => ?_) ⟨hstart, hquiet⟩
  · exact hall.1
  · -- the step keeps the invariant, as it does not open the room again
    have hrule : EventRule cfg event.1 event.2 fun s =>
        ResultInv quiet roomId s ∧ ¬ Reopens s roomId event :=
      resultInv_rule cfg fun hq => h.2 hq event List.mem_cons_self
    exact ⟨(hrule.step ⟨h.1, hok⟩).1, fun hq e he => h.2 hq e (List.mem_cons_of_mem _ he)⟩

/-- **The result is told once.** In every run of the server in which the room is not opened again,
whatever the stores and the broadcasts do, its result has been told once at most, to both players
and as it is stored; and if it has been applied and no broadcast of it has raised, it has been
told. -/
theorem toldOnce_run (cfg : Config) (users : Dict UserId User) (games : Dict RoomId GameResult)
    (roomId : RoomId) (events : List (Env × Event))
    (hopened : Run.Guarded (Server.step cfg) (fun s event _ => ¬ Reopens s roomId event)
      (Server.initial users games) events) :
    ToldOnce ((Server.initial users games).play cfg events) roomId ∧
      ((∀ event ∈ events, event.1.raises (.broadcastGameOver roomId) = false) →
        isEloUpdated ((Server.initial users games).play cfg events) roomId = true →
        resultsOf ((Server.initial users games).play cfg events) roomId ≠ []) :=
  ⟨(ResultInv.run users games hopened False.elim).once,
    fun hquiet => (ResultInv.run users games hopened fun _ : True => hquiet).told trivial⟩

/-- Bob forfeits while the ratings cannot be written, and the result is told with the next tick. -/
theorem toldOnce_run_retriedRun :
    ToldOnce (Small.start.play Small.config (pairedRun ++ retriedRun)) Small.room ∧
      resultsOf (Small.start.play Small.config (pairedRun ++ retriedRun)) Small.room ≠ [] := by
  have hfirst : ¬ Reopens Small.start Small.room (Small.env ["wR bK"], .createRoom Small.alice) :=
    not_reopens_of_absent rfl
  obtain ⟨honce, htold⟩ := toldOnce_run Small.config _ _ Small.room (pairedRun ++ retriedRun)
    ⟨hfirst, not_reopens fun _ => Event.noConfusion, not_reopens fun _ => Event.noConfusion,
      not_reopens fun _ => Event.noConfusion, trivial⟩
  refine ⟨honce, htold (fun event hevent => ?_) (by decide +kernel)⟩
  simp only [pairedRun, retriedRun, List.map_cons, List.map_nil, List.cons_append, List.nil_append,
    List.mem_cons, List.not_mem_nil, or_false] at hevent
  obtain rfl | rfl | rfl | rfl := hevent <;> rfl

end KungFuChess
