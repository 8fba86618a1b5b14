import KungFuChess.Server.Members

/-!
# What a member of a room is told

A member of a room hears of its game through the messages that are addressed to him. `Heard` puts
the engine of the room and these messages side by side: the clock ticks, and the tick that lands
the last motion is followed by the state; a forfeit ends the game and is followed by nothing; all
other messages are about something else (`Message.Aside`).

The moves of the players are left out here. Whatever else happens to the server, the member stays in
the room and is told in this way (`heard_step`), with three exceptions: his own socket is closed,
the identifier of his room is drawn a second time, or the state cannot be sent.
-/

namespace KungFuChess

open Effect RoomService GameService

/-! ### Messages -/

/-- The messages that are addressed to the user. -/
def messagesTo (userId : UserId) (sent : List Outgoing) : List Message :=
  (sent.filter fun m => userId ∈ m.recipients).map Outgoing.message

/-- The message neither carries the state of a game nor brings the user into a room. -/
def Message.Aside : Message → Prop
  | .state _ | .roomCreated _ _ _ | .roomJoined _ _ _ _ | .matchFound _ _ _ _ => False
  | _ => True

/-- What the tick of an engine has a member told. -/
def tickNews (roomId : RoomId) (e : GameEngine) : List Message :=
  if finishedNow e (e.updateGameClock tickMs) then
    [.state ((e.updateGameClock tickMs).snapshotState roomId)]
  else []

/-- From the first engine to the last with these messages on the way. -/
inductive Heard (roomId : RoomId) (e : GameEngine) : List Message → GameEngine → Prop
  | start : Heard roomId e [] e
  | aside {news : List Message} {e' : GameEngine} (m : Message) (hm : m.Aside)
      (h : Heard roomId e news e') : Heard roomId e (news ++ [m]) e'
  | tick {news : List Message} {e' : GameEngine} (h : Heard roomId e news e') :
      Heard roomId e (news ++ tickNews roomId e') (e'.updateGameClock tickMs)
  | forfeit {news : List Message} {e' : GameEngine} (winner : Color) (h : Heard roomId e news e') :
      Heard roomId e news (e'.forceForfeit winner)

section Messages

variable {userId : UserId} {roomId : RoomId} {e e' : GameEngine} {news : List Message}
  {sent : List Outgoing}

theorem messagesTo_append (sent sent' : List Outgoing) :
    messagesTo userId (sent ++ sent') = messagesTo userId sent ++ messagesTo userId sent' := by
  unfold messagesTo
  rw [List.filter_append, List.map_append]

theorem mem_messagesTo {message : Message} :
    message ∈ messagesTo userId sent ↔ ∃ m ∈ sent, userId ∈ m.recipients ∧ m.message = message := by
  unfold messagesTo
  simp [and_assoc]

/-- Asides may follow anything. -/
theorem Heard.asides (h : Heard roomId e news e') {more : List Message}
    (hmore : ∀ m ∈ more, m.Aside) : Heard roomId e (news ++ more) e' := by
  induction more using List.reverseRecOn with
  | nil => rwa [List.append_nil]
  | append_singleton more m ih =>
    rw [← List.append_assoc]
    exact .aside m (hmore m (List.mem_append_right _ List.mem_cons_self))
      (ih fun m' hm' => hmore m' (List.mem_append_left _ hm'))

end Messages

/-! ### The member -/

/-- The user is a member of the room and of no other, and mapped to it. -/
structure Server.Sits (s : Server) (roomId : RoomId) (userId : UserId) : Prop where
  mapped : s.userRoom.get? userId = some roomId
  member : ∀ r, (s.memberOf r userId).isSome = true ↔ r = roomId

/-- Since `s` the user has stayed in the room, and has been told of its engine. -/
structure Told (userId : UserId) (roomId : RoomId) (s t : Server) : Prop where
  sits : t.Sits roomId userId
  heard : ∃ e e' sent, s.engines.get? roomId = some e ∧ t.engines.get? roomId = some e' ∧
    t.outbox = s.outbox ++ sent ∧ Heard roomId e (messagesTo userId sent) e'

/-- The action takes nobody's chair away, leaves the engine of the room, and sends nothing. -/
def Action.Still (roomId : RoomId) (userId : UserId) : Action → Prop
  | .aside _ => False
  | .openRoom r _ => r ≠ roomId
  | .leave _ u => u ≠ userId
  | .engine r _ _ => r ≠ roomId
  | _ => True

section Told

variable {userId : UserId} {roomId : RoomId} {s t v : Server} {e e' : GameEngine}

/-- A member of a room sits in it and in no other. -/
theorem RoomInv.sits (h : RoomInv s) (hmember : (s.memberOf roomId userId).isSome = true) :
    s.Sits roomId userId := by
  have hmapped : ∀ r, (s.memberOf r userId).isSome = true → s.userRoom.get? userId = some r := by
    intro r hr
    obtain ⟨member, hr⟩ := Option.isSome_iff_exists.mp hr
    obtain ⟨room, hroom, hentry⟩ := Option.bind_eq_some_iff.mp hr
    exact h.mapped hroom hentry
  refine ⟨hmapped roomId hmember, fun r => ⟨fun hr => ?_, ?_⟩⟩
  · exact Option.some.inj ((hmapped r hr).symm.trans (hmapped roomId hmember))
  · rintro rfl
    exact hmember

/-- The user is addressed with a room exactly if it is his own. -/
theorem Server.Sits.mem_keys (h : s.Sits roomId userId) {r : RoomId} {room : Room}
    (hroom : s.rooms.get? r = some room) : userId ∈ room.members.keys ↔ r = roomId := by
  rw [← h.member r, Dict.mem_keys_iff, Server.memberOf, hroom]
  exact Option.isSome_iff_exists.symm

theorem Server.Sits.room (h : s.Sits roomId userId) : ∃ room, s.rooms.get? roomId = some room := by
  obtain ⟨member, hmember⟩ := Option.isSome_iff_exists.mp ((h.member roomId).mpr rfl)
  obtain ⟨room, hroom, -⟩ := Option.bind_eq_some_iff.mp hmember
  exact ⟨room, hroom⟩

/-- Sitting is read off the two maps. -/
theorem Server.Sits.of_eq (h : t.Sits roomId userId) (hmapped : v.userRoom = t.userRoom)
    (hmember : ∀ r, v.memberOf r userId = t.memberOf r userId) : v.Sits roomId userId := by
  refine ⟨?_, fun r => ?_⟩
  · rw [hmapped]
    exact h.mapped
  · rw [hmember]
    exact h.member r

theorem Told.refl (h : s.Sits roomId userId) (he : s.engines.get? roomId = some e) :
    Told userId roomId s s :=
  ⟨h, e, e, [], he, he, (List.append_nil _).symm, .start⟩

/-- Messages that are about something else. -/
theorem Told.asides (h : Told userId roomId s t) (hmapped : v.userRoom = t.userRoom)
    (hmember : ∀ r, v.memberOf r userId = t.memberOf r userId)
    (hengine : v.engines.get? roomId = t.engines.get? roomId) {sent : List Outgoing}
    (hsent : v.outbox = t.outbox ++ sent)
    (haside : ∀ m ∈ sent, userId ∈ m.recipients → m.message.Aside) : Told userId roomId s v := by
  obtain ⟨e, e', before, he, he', hbefore, hheard⟩ := h.heard
  refine ⟨h.sits.of_eq hmapped hmember, e, e', before ++ sent, he, hengine.trans he', ?_, ?_⟩
  · rw [hsent, hbefore, List.append_assoc]
  · rw [messagesTo_append]
    refine hheard.asides fun message hmessage => ?_
    obtain ⟨m, hm, hto, rfl⟩ := mem_messagesTo.mp hmessage
    exact haside m hm hto

/-- Nothing that concerns the member. -/
theorem Told.of_eq (h : Told userId roomId s t) (hmapped : v.userRoom = t.userRoom)
    (hmember : ∀ r, v.memberOf r userId = t.memberOf r userId)
    (hengine : v.engines.get? roomId = t.engines.get? roomId) (houtbox : v.outbox = t.outbox) :
    Told userId roomId s v := by
  have hsent : v.outbox = t.outbox ++ [] := by rw [houtbox, List.append_nil]
  exact h.asides hmapped hmember hengine hsent fun _ hm => absurd hm List.not_mem_nil

/-- Ratings, the mark of a room and the end of a game. -/
theorem Told.eloFrame (h : Told userId roomId s t) {r : RoomId} (hframe : EloFrame r t v) :
    Told userId roomId s v := by
  obtain ⟨sent, hsent, hall⟩ := hframe.sent
  refine h.asides hframe.userRoom (fun r => memberOf_of_members (hframe.members r))
    (by rw [hframe.engines]) hsent fun m hm _ => ?_
  obtain ⟨winner, ratings, hmessage⟩ := hall m hm
  rw [hmessage]
  trivial

/-- The user stays where he is. -/
theorem Server.Sits.apply (h : s.Sits roomId userId) {a : Action} (ha : a.Enabled s)
    (hstill : a.Still roomId userId) : (a.apply s).Sits roomId userId := by
  -- the user is not free, so a seat that is given is somebody else's
  have hother : ∀ u, s.userRoom.get? u = none → userId ≠ u := by
    rintro u hfree rfl
    exact Option.some_ne_none _ (h.mapped.symm.trans hfree)
  cases a with
  | openRoom r' creator =>
    have hne := hother creator ha
    refine ⟨(Dict.get?_set_of_ne _ _ hne).trans h.mapped, fun r => ?_⟩
    rw [memberOf_set (s := s) r' (openedRoom r' creator) rfl]
    split
    · next heq =>
      have hnone : (openedRoom r' creator).members.get? userId = none :=
        Dict.get?_set_of_ne _ _ hne
      rw [hnone, heq]
      exact iff_of_false Bool.false_ne_true hstill
    · exact h.member r
  | openMatchedRoom r' userA userB =>
    have hneA := hother userA ha.1
    have hneB := hother userB ha.2.1
    refine ⟨?_, fun r => ?_⟩
    · exact (Dict.get?_set_of_ne _ _ hneB).trans ((Dict.get?_set_of_ne _ _ hneA).trans h.mapped)
    · rw [memberOf_set (s := s) r' (matchedRoom r' userA userB) rfl]
      split
      · next heq =>
        have hnone : (matchedRoom r' userA userB).members.get? userId = none :=
          (Dict.get?_set_of_ne _ _ hneB).trans (Dict.get?_set_of_ne _ _ hneA)
        rw [hnone, heq]
        refine iff_of_false Bool.false_ne_true ?_
        -- the room of the user is there already
        rintro rfl
        obtain ⟨room, hroom⟩ := h.room
        exact Option.some_ne_none _ (hroom.symm.trans ha.2.2)
      · exact h.member r
  | join r' u role =>
    have hne := hother u ha.1
    refine ⟨(Dict.get?_set_of_ne _ _ hne).trans h.mapped, fun r => ?_⟩
    rw [memberOf_modifyRoom (s := s) r' (fun room => { room with
      members := room.members.set u { userId := u, role := role } }) rfl, ← h.member r]
    unfold Server.memberOf
    split
    · next heq =>
      subst heq
      cases s.rooms.get? r with
      | none => exact Iff.rfl
      | some room =>
        change ((room.members.set u _).get? userId).isSome = true ↔ _
        rw [Dict.get?_set_of_ne _ _ hne]
        exact Iff.rfl
    · exact Iff.rfl
  | leave r' u =>
    refine ⟨(Dict.get?_pop_of_ne _ (Ne.symm hstill)).trans h.mapped, fun r => ?_⟩
    have hleft : ((Action.leave r' u).apply s).memberOf r userId =
        if r = r' ∧ userId = u then none else s.memberOf r userId := memberOf_left
    rw [hleft, if_neg fun heq => hstill heq.2.symm]
    exact h.member r
  | connection r' u f =>
    refine ⟨h.mapped, fun r => ?_⟩
    have hmodify : ((Action.connection r' u f).apply s).memberOf r userId =
        if r = r' ∧ userId = u then (s.memberOf r' u).map f else s.memberOf r userId :=
      memberOf_modifyMember
    rw [hmodify, ← h.member r]
    split
    · next heq => rw [Option.isSome_map, heq.1, heq.2]
    · exact Iff.rfl
  | startGame r' =>
    exact h.of_eq rfl fun r => memberOf_of_members (Server.members_modifyRoom fun _ => rfl)
  | markElo r' =>
    exact h.of_eq rfl fun r => memberOf_of_members (Server.members_modifyRoom fun _ => rfl)
  | aside state => exact absurd hstill id
  | createEngine | engine | setElo | register | setQueue => exact h.of_eq rfl fun _ => rfl

/-- **Step lemma** for actions that send nothing. -/
theorem Told.apply (h : Told userId roomId s t) {a : Action} (ha : a.Enabled t)
    (hstill : a.Still roomId userId) : Told userId roomId s (a.apply t) := by
  -- no action writes to the outbox, and the engine can change by a call only
  obtain ⟨e, e', sent, he, he', hsent, hheard⟩ := h.heard
  have hengine : (a.apply t).engines.get? roomId = some e' := by
    cases a with
    | createEngine r board =>
      change (t.setEngine r _).engines.get? roomId = _
      rw [Server.get?_setEngine, if_neg]
      · exact he'
      · -- a room that has an engine is not given another
        rintro rfl
        exact absurd (ha.1.symm.trans he') nofun
    | engine r before call =>
      change (t.setEngine r _).engines.get? roomId = _
      rw [Server.get?_setEngine, if_neg (Ne.symm hstill)]
      exact he'
    | aside state => exact absurd hstill id
    | _ => exact he'
  have houtbox : (a.apply t).outbox = t.outbox := by
    cases a with
    | aside state => exact absurd hstill id
    | _ => rfl
  exact ⟨h.sits.apply ha hstill, e, e', sent, he, hengine, houtbox.trans hsent, hheard⟩

end Told

/-! ### Programs -/

section Programs

variable {cfg : Config} {env : Env} {userId : UserId} {roomId : RoomId} {s t : Server}

/-- A program of actions that send nothing. -/
theorem keeps_told_of_does {α : Type} {x : ServerM α} (hx : Does (Action.Still roomId userId) x) :
    Keeps (Told userId roomId s) x := by
  intro t ht
  have hacts : ∀ v, Acts (Action.Still roomId userId) t v → Told userId roomId s v := fun v h =>
    h.invariant (P := Told userId roomId s) (fun a u hstill ha hu => hu.apply ha hstill) ht
  exact wp_mono (hx.wp t) (fun _ v h => hacts v h) (fun _ v h => hacts v h)

theorem keeps_perform {P : Server → Prop} (call : ExternalCall) : Keeps P (perform env call) :=
  Keeps.ite (Keeps.throw _) (Keeps.pure _)

/-- A message that is for others, or aside. -/
theorem Told.send (h : Told userId roomId s t) {r? : Option RoomId} {recipients : List UserId}
    {message : Message} (haside : userId ∈ recipients → message.Aside) :
    Told userId roomId s (t.send r? recipients message) := by
  refine h.asides rfl (fun _ => rfl) rfl rfl fun m hm hto => ?_
  obtain rfl := List.mem_singleton.mp hm
  exact haside hto

/-- A countdown is aside. -/
theorem keeps_told_broadcastCountdown (r : RoomId) (u : UserId) (secondsLeft : Int) :
    Keeps (Told userId roomId s) (ServerRuntime.broadcastCountdown env r u secondsLeft) := by
  unfold ServerRuntime.broadcastCountdown
  refine Keeps.bind Keeps.get fun t => ?_
  split
  · exact Keeps.pure _
  · exact (keeps_perform _).bind fun _ => keeps_modify fun v hv => hv.send fun _ => trivial

theorem keeps_told_notifyUser (u : UserId) (message : Message) (hother : u = userId → message.Aside) :
    Keeps (Told userId roomId s) (MatchmakingService.notifyUser env u message) := by
  have hto : ∀ message : Message, (u = userId → message.Aside) → ∀ v, Told userId roomId s v →
      Told userId roomId s (v.send none [u] message) := by
    intro message haside v hv
    exact hv.send fun hmem => haside (List.mem_singleton.mp hmem).symm
  unfold MatchmakingService.notifyUser
  refine (keeps_perform _).bind fun _ => Keeps.bind (keeps_modify (hto message hother)) fun _ => ?_
  split
  · refine Keeps.bind Keeps.get fun v => ?_
    split
    · exact Keeps.pure _
    · -- a notice of a match is for somebody else, and so is the state that follows it
      exact keeps_modify (hto _ fun heq => absurd (hother heq) id)
  · exact Keeps.pure _

theorem keeps_told_publishOutbound (call : ExternalCall) (recipients : List UserId)
    (message : Message) (hother : userId ∉ recipients) :
    Keeps (Told userId roomId s) (publishOutbound env call recipients message) :=
  (keeps_perform _).bind fun _ => keeps_modify fun _ hv => hv.send fun hto => absurd hto hother

/-- The keys of the allocator. -/
theorem keeps_told_bindPlayers (r : RoomId) (userIds : List UserId) :
    Keeps (Told userId roomId s) (bindPlayers cfg r userIds) := by
  unfold bindPlayers
  split
  · exact Keeps.pure _
  · exact keeps_modify fun v hv => hv.of_eq rfl (fun _ => rfl) rfl rfl

/-! ### Matches -/

/-- Both players of a new match were free. -/
theorem createMatchedRoom_free (userA userB : UserId) (roomId? : Option RoomId) (s : Server) :
    wp (RoomService.createMatchedRoom env userA userB roomId?)
      (fun _ _ => s.userRoom.get? userA = none ∧ s.userRoom.get? userB = none) (fun _ _ => True)
      s := by
  unfold RoomService.createMatchedRoom
  rw [wp_bind, wp_get]
  split
  · trivial
  next hfreeA =>
  split
  · trivial
  next hfreeB =>
  exact wp_of_forall (fun _ _ => ⟨contains_eq_false hfreeA, contains_eq_false hfreeB⟩)
    fun _ _ => trivial

/-- What follows a new match is told to its players only. -/
theorem keeps_told_createMatchedRoom {α : Type} (userA userB : UserId) (roomId? : Option RoomId)
    {k : RoomId → ServerM α}
    (hk : ∀ r, userA ≠ userId → userB ≠ userId → Keeps (Told userId roomId s) (k r)) :
    Keeps (Told userId roomId s)
      (RoomService.createMatchedRoom env userA userB roomId? >>= k) := by
  intro t ht
  have hseated : Keeps (Told userId roomId s)
      (RoomService.createMatchedRoom env userA userB roomId?) :=
    keeps_told_of_does (createMatchedRoom_does trivial (fun _ _ => trivial) fun _ => trivial)
  refine wp_call (wp_and (hseated t ht) (createMatchedRoom_free userA userB roomId? t))
    (fun _ _ h => h.1) ?_
  rintro r v ⟨hv, hfreeA, hfreeB⟩
  have hmapped := ht.sits.mapped
  -- the member is mapped already, so the two users of the new match are others
  refine hk r ?_ ?_ v hv
  · rintro rfl
    exact absurd (hfreeA.symm.trans hmapped) nofun
  · rintro rfl
    exact absurd (hfreeB.symm.trans hmapped) nofun

/-- Expiry sends notices only. -/
theorem keeps_told_expireLoop (queue : List QueueEntry) : ∀ still : List QueueEntry,
    Keeps (Told userId roomId s) (MatchmakingService.expireLoop env queue still) := by
  induction queue with
  | nil => exact fun still => Keeps.pure still
  | cons entry rest ih =>
    intro still
    unfold MatchmakingService.expireLoop
    refine Keeps.ite ?_ (ih _)
    have hnotice : Message.Aside (.matchTimeout "no opponent within 60 seconds") := trivial
    exact (keeps_told_notifyUser _ _ fun _ => hnotice).bind fun _ => ih still

/-- The matching loop, by induction on the queue. -/
theorem keeps_told_matchLoop (queue : List QueueEntry) : ∀ used : List UserId,
    Keeps (Told userId roomId s) (MatchmakingService.matchLoop env queue used) := by
  induction queue with
  | nil => exact fun used => Keeps.pure used
  | cons a later ih =>
    intro used
    unfold MatchmakingService.matchLoop
    refine Keeps.ite (ih used) ?_
    split
    · exact ih used
    · next b _ =>
      -- the pair is seated in a room of others, whom the notices name
      refine Keeps.bind ?_ fun _ => ih _
      unfold MatchmakingService.seatPair
      refine keeps_told_createMatchedRoom _ _ _ fun r hneA hneB => ?_
      exact (keeps_told_notifyUser _ _ fun heq => absurd heq hneA).bind fun _ =>
        keeps_told_notifyUser _ _ fun heq => absurd heq hneB

/-- Either half of the matchmaking tick. -/
theorem keeps_told_matchmakingTick :
    Keeps (Told userId roomId s) (ServerRuntime.matchmakingTick cfg env) := by
  have hqueue : ∀ queue : Server → List QueueEntry,
      Keeps (Told userId roomId s) (modify fun s => { s with queue := queue s } : ServerM Unit) :=
    fun queue => keeps_modify fun v hv => hv.of_eq rfl (fun _ => rfl) rfl rfl
  unfold ServerRuntime.matchmakingTick
  split
  · unfold MatchmakingService.tick MatchmakingService.expireTimeouts MatchmakingService.tryMatch
    refine Keeps.bind (Keeps.bind Keeps.get fun v => ?_) fun _ => Keeps.bind Keeps.get fun v => ?_
    · exact (keeps_told_expireLoop _ _).bind fun still => hqueue fun _ => still
    · exact (keeps_told_matchLoop _ _).bind fun used => hqueue fun s =>
        s.queue.filter fun entry => entry.userId ∉ used
  · exact Keeps.pure _

/-- A match that arrives from the matchmaker. -/
theorem keeps_told_handleCreateMatch (r : RoomId) (whiteId blackId : UserId) :
    Keeps (Told userId roomId s) (handleCreateMatch cfg env r whiteId blackId) := by
  unfold handleCreateMatch
  refine keeps_told_createMatchedRoom _ _ _ fun _ hneA hneB => ?_
  refine (keeps_told_bindPlayers _ _).bind fun _ => ?_
  refine (keeps_told_publishOutbound _ _ _ (by simp [Ne.symm hneA])).bind fun _ => ?_
  refine (keeps_told_publishOutbound _ _ _ (by simp [Ne.symm hneB])).bind fun _ => ?_
  refine Keeps.bind Keeps.get fun v => ?_
  split
  · exact Keeps.pure _
  · exact keeps_told_publishOutbound _ _ _ (by simp [Ne.symm hneA, Ne.symm hneB])

/-! ### The clock and forfeits -/

/-- The clock of the room ticks. -/
theorem Told.afterTick (h : Told userId roomId s t) {e : GameEngine}
    (he : t.engines.get? roomId = some e) : Told userId roomId s (t.afterTick roomId e) := by
  obtain ⟨e₀, e', sent, he₀, he', hsent, hheard⟩ := h.heard
  obtain rfl : e' = e := Option.some.inj (he'.symm.trans he)
  obtain ⟨room, hroom⟩ := h.sits.room
  have hkeys : userId ∈ room.members.keys := (h.sits.mem_keys hroom).mpr rfl
  have hengine : (t.afterTick roomId e').engines.get? roomId = some (e'.updateGameClock tickMs) := by
    rw [get?_afterTick, if_pos rfl]
  have hticked := hheard.tick
  unfold tickNews at hticked
  unfold Server.afterTick at hengine ⊢
  dsimp only at hengine ⊢
  split
  · next hfinished =>
    -- the state goes to all members
    rw [if_pos hfinished] at hticked hengine
    have hroom' : (t.setEngine roomId (e'.updateGameClock tickMs)).rooms.get? roomId = some room :=
      hroom
    unfold Server.broadcast at hengine ⊢
    rw [hroom'] at hengine ⊢
    refine ⟨h.sits.of_eq rfl fun _ => rfl, e₀, _, sent ++ [⟨some roomId, room.members.keys,
      .state ((e'.updateGameClock tickMs).snapshotState roomId)⟩], he₀, hengine, ?_, ?_⟩
    · change t.outbox ++ _ = _
      rw [hsent, List.append_assoc]
    · rw [messagesTo_append]
      unfold messagesTo at hticked ⊢
      rw [List.filter_cons_of_pos (by simpa using hkeys)]
      exact hticked
  · next hfinished =>
    rw [if_neg hfinished] at hticked hengine
    rw [List.append_nil] at hticked
    exact ⟨h.sits.of_eq rfl fun _ => rfl, e₀, _, sent, he₀, hengine, hsent, hticked⟩

/-- The clock of another room ticks. -/
theorem Told.afterTick_of_ne (h : Told userId roomId s t) {r : RoomId} (hne : r ≠ roomId)
    (e : GameEngine) : Told userId roomId s (t.afterTick r e) := by
  -- the other room's message has the other room's members for its recipients
  have hengine : (t.afterTick r e).engines.get? roomId = t.engines.get? roomId := by
    rw [get?_afterTick, if_neg (Ne.symm hne)]
  unfold Server.afterTick Server.broadcast at hengine ⊢
  dsimp only at hengine ⊢
  have hticked : Told userId roomId s (t.setEngine r (e.updateGameClock tickMs)) := by
    refine h.of_eq rfl (fun _ => rfl) ?_ rfl
    rw [Server.get?_setEngine, if_neg (Ne.symm hne)]
  split
  · split
    · exact hticked
    · next room hroom =>
      exact hticked.send fun hto => absurd ((h.sits.mem_keys hroom).mp hto) hne
  · exact hticked

/-- The tick of any room. -/
theorem keeps_told_tickRoom (hsends : env.raises (.broadcastState roomId) = false) (r : RoomId) :
    Keeps (Told userId roomId s) (tickRoom cfg env r) := by
  have hafter : ∀ t e, t.engines.get? r = some e → Told userId roomId s t →
      Told userId roomId s (t.afterTick r e) := by
    intro t e he ht
    by_cases hr : r = roomId
    · subst hr
      exact ht.afterTick he
    · exact ht.afterTick_of_ne hr e
  have houtcome : ∀ {t raised v}, TickOutcome cfg env r t raised v → Told userId roomId s t →
      Told userId roomId s v := by
    intro t raised v h ht
    cases h with
    | absent => exact ht
    | broadcastRaises e he hraises =>
      -- the broadcast that fails is not that of the room
      have hr : roomId ≠ r := by
        rintro rfl
        exact absurd (hsends.symm.trans hraises.2.2) nofun
      refine ht.of_eq rfl (fun _ => rfl) ?_ rfl
      rw [Server.get?_setEngine, if_neg hr]
    | ticked e he => exact hafter t e he ht
    | attempted e raised v he _ _ h => exact (hafter t e he ht).eloFrame h.frame
  exact fun t ht => wp_mono (tickRoom_cases cfg env r t) (fun _ _ h => houtcome h ht)
    fun _ _ h => houtcome h ht

/-- A forfeit of any room. -/
theorem keeps_told_forceForfeit (r : RoomId) (loser : UserId) :
    Keeps (Told userId roomId s) (forceForfeit cfg env r loser) := by
  have houtcome : ∀ {t raised v}, ForfeitOutcome cfg env r loser t raised v →
      Told userId roomId s t → Told userId roomId s v := by
    intro t raised v h ht
    -- what the attempt sends is covered by its frame; the engine is ended before it
    cases h with
    | idle | nameRaises => exact ht
    | forfeited e winner raised v he _ _ _ h =>
      refine Told.eloFrame ?_ h.frame
      by_cases hr : r = roomId
      · subst hr
        obtain ⟨e₀, e', sent, he₀, he', hsent, hheard⟩ := ht.heard
        obtain rfl : e' = e := Option.some.inj (he'.symm.trans he)
        refine ⟨ht.sits.of_eq rfl fun _ => rfl, e₀, _, sent, he₀, ?_, hsent,
          hheard.forfeit winner⟩
        rw [Server.get?_setEngine, if_pos rfl]
      · refine ht.of_eq rfl (fun _ => rfl) ?_ rfl
        rw [Server.get?_setEngine, if_neg (Ne.symm hr)]
  exact fun t ht => wp_mono (forceForfeit_cases cfg env r loser t) (fun _ _ h => houtcome h ht)
    fun _ _ h => houtcome h ht

/-- The grace: countdowns, and the forfeits of any rooms. -/
theorem keeps_told_processDisconnectGrace :
    Keeps (Told userId roomId s) (ServerRuntime.processDisconnectGrace cfg env) := by
  refine processDisconnectGrace_keeps (fun entry => ?_) fun entry => ?_
  · unfold ServerRuntime.sendCountdown
    refine Keeps.bind Keeps.get fun v => ?_
    refine Keeps.ite (Keeps.pure _) ?_
    exact (keeps_modify fun v hv => hv.of_eq rfl (fun _ => rfl) rfl rfl).bind fun _ =>
      keeps_told_broadcastCountdown _ _ _
  · unfold ServerRuntime.forfeitExpired
    refine (keeps_told_forceForfeit _ _).bind fun _ => ?_
    have hclear : Keeps (Told userId roomId s) (clearDisconnectDeadline entry.1 entry.2) :=
      keeps_told_of_does (connection_does trivial fun _ => rfl)
    exact hclear.bind fun _ => keeps_modify fun v hv => hv.of_eq rfl (fun _ => rfl) rfl rfl

end Programs

/-! ### Moves -/

/-- What a call returns, if it raises nothing. -/
def result? {α : Type} (x : ServerM α) (s : Server) : Option α :=
  match x s with
  | .ok a _ => some a
  | .error _ _ => none

/-- The outcomes of moves that are sent to the user, as an `ack`: an accepted move goes to all
members of the room. -/
def Event.acks (userId : UserId) (s : Server) : Event → List MoveOutcome
  | .submitMove u startPos endPos =>
    (result? (GameService.submitMove u startPos endPos) s).toList.filter fun outcome =>
      outcome.ok && decide (userId ∈ outcome.memberIds)
  | _ => []

/-- The outcome of a move that is accepted in the room. -/
def acceptedMove (s : Server) (roomId : RoomId) (startPos endPos : Position) : MoveOutcome where
  ok := true
  roomId := roomId
  startPos := startPos
  endPos := endPos
  memberIds := memberIds s roomId

/-- How a move ends. -/
inductive MoveResult (s : Server) (startPos endPos : Position) (outcome : MoveOutcome) (t : Server) :
    Prop
  | refused (hok : outcome.ok = false) (hengines : ∀ r, t.engines.get? r = s.engines.get? r)
  | accepted (r : RoomId) (e : GameEngine) (color : Color) (hengine : s.engines.get? r = some e)
      (hok : (e.tryPlayerMove color startPos endPos).2.1 = true)
      (houtcome : outcome = acceptedMove s r startPos endPos)
      (hengines : t.engines = s.engines.set r (e.tryPlayerMove color startPos endPos).1)

/-- A refused move leaves the engine as it is. -/
theorem GameEngine.tryPlayerMove_refused {e : GameEngine} {color : Color} {startPos endPos : Position}
    (h : (e.tryPlayerMove color startPos endPos).2.1 = false) :
    (e.tryPlayerMove color startPos endPos).1 = e := by
  -- both refusals of the request, and those before it, return the engine itself
  have hrequest : ∀ durationMs, (e.handleMoveRequest startPos endPos durationMs).2 = false →
      (e.handleMoveRequest startPos endPos durationMs).1 = e := by
    intro durationMs hrefused
    unfold handleMoveRequest at hrefused ⊢
    split
    · rfl
    · next ref hlaunchable =>
      rw [hlaunchable] at hrefused
      dsimp only at hrefused
      split
      · next hlegal =>
        rw [if_pos hlegal] at hrefused
        cases hrefused
      · rfl
  unfold tryPlayerMove at h ⊢
  split
  · rfl
  next hrunning =>
  rw [if_neg hrunning] at h
  split
  · rfl
  next ref hpiece =>
  rw [hpiece] at h
  dsimp only at h ⊢
  split
  · rfl
  next hcolor =>
  rw [if_neg hcolor] at h
  split
  · next hok =>
    rw [if_pos hok] at h
    cases h
  · next hok => exact hrequest _ (Bool.eq_false_iff.mpr hok)

/-- What a command to move comes to. -/
theorem submitMove_result (userId : UserId) (startPos endPos : Position) (s : Server) :
    wp (submitMove userId startPos endPos)
      (fun outcome t => t = { s with engines := t.engines } ∧
        MoveResult s startPos endPos outcome t)
      (fun _ _ => False) s := by
  unfold submitMove
  rw [wp_bind, wp_get]
  split
  · exact ⟨rfl, .refused rfl fun _ => rfl⟩
  next roomId hroom =>
  split
  · exact ⟨rfl, .refused rfl fun _ => rfl⟩
  next color _ =>
  unfold handleMove
  rw [wp_bind, wp_bind, wp_get]
  cases hengine : s.engines.get? roomId with
  | none => exact ⟨rfl, .refused rfl fun _ => rfl⟩
  | some e =>
    dsimp only
    rw [wp_bind, wp_modify, wp_pure]
    cases hok : (e.tryPlayerMove color startPos endPos).2.1 with
    | true =>
      rw [if_pos rfl, wp_bind, wp_get]
      exact ⟨rfl, .accepted roomId e color hengine hok rfl rfl⟩
    | false =>
      rw [if_neg nofun]
      refine ⟨rfl, .refused rfl fun r => ?_⟩
      -- the engine is written back as it was
      rw [GameEngine.tryPlayerMove_refused hok, Server.get?_setEngine]
      split
      · next hr => rw [hr, hengine]
      · rfl

/-! ### Events -/

/-- The event does not keep the user from being told of the game. -/
def Event.Undisturbed (roomId : RoomId) (userId : UserId) (env : Env) : Event → Prop
  | .createRoom u => env.tokenHex u ≠ roomId
  | .clientDisconnected u => u ≠ userId
  | .tickAll => env.raises (.broadcastState roomId) = false
  | _ => True

/-- What the user is told of the engine by an event: the news of `Heard`, or a move that has been
accepted. -/
inductive News (userId : UserId) (roomId : RoomId) (s t : Server) (event : Event) : Prop
  | heard (e e' : GameEngine) (sent : List Outgoing) (hbefore : s.engines.get? roomId = some e)
      (hafter : t.engines.get? roomId = some e') (hsent : t.outbox = s.outbox ++ sent)
      (hacks : event.acks userId s = []) (h : Heard roomId e (messagesTo userId sent) e')
  | moved (e : GameEngine) (color : Color) (startPos endPos : Position)
      (hbefore : s.engines.get? roomId = some e)
      (hok : (e.tryPlayerMove color startPos endPos).2.1 = true)
      (hafter : t.engines.get? roomId = some (e.tryPlayerMove color startPos endPos).1)
      (hsent : t.outbox = s.outbox)
      (hacks : event.acks userId s = [acceptedMove s roomId startPos endPos])

section Events

variable {cfg : Config} {env : Env} {userId : UserId} {roomId : RoomId} {s : Server}

/-- All events but the moves. -/
theorem keeps_told_run {event : Event} (h : event.Undisturbed roomId userId env)
    (hmove : ∀ u startPos endPos, event ≠ .submitMove u startPos endPos) :
    Keeps (Told userId roomId s) (event.run cfg env) := by
  cases event with
  | register u username => exact keeps_told_of_does (register_does fun _ => trivial)
  | play u =>
    have hplay : Does (Action.Still roomId userId) (Event.run cfg env (.play u)) :=
      (play_does (fun _ => trivial) u).bind fun _ => Does.pure _
    exact keeps_told_of_does hplay
  | cancelPlay u =>
    have hcancel : Does (Action.Still roomId userId) (Event.run cfg env (.cancelPlay u)) :=
      ((cancel_does (fun _ => trivial) u).bind fun _ => Does.pure _).bind fun _ => Does.pure _
    exact keeps_told_of_does hcancel
  | createRoom u =>
    have hcreate : Does (Action.Still roomId userId) (LobbyService.createRoom env u) :=
      createRoom_command_does h (fun _ _ => trivial) fun _ => trivial
    -- the binding of the players sends nothing
    exact (keeps_told_of_does hcreate).bind fun outcome =>
      Keeps.ite (keeps_told_bindPlayers _ _) (Keeps.pure _)
  | joinRoom u r =>
    have hjoin : Does (Action.Still roomId userId) (LobbyService.joinRoom env u r) :=
      joinRoom_command_does (fun _ => trivial) (fun _ _ => trivial) fun _ => trivial
    refine (keeps_told_of_does hjoin).bind fun outcome => Keeps.ite ?_ (Keeps.pure _)
    unfold bindPlayer
    split
    · exact Keeps.pure _
    · exact keeps_modify fun v hv => hv.of_eq rfl (fun _ => rfl) rfl rfl
  | createMatch r whiteId blackId => exact keeps_told_handleCreateMatch r whiteId blackId
  -- a request is the one event that is treated apart
  | submitMove u startPos endPos => exact absurd rfl (hmove u startPos endPos)
  | reconnect u =>
    have hreconnect : Does (Action.Still roomId userId) (Event.run cfg env (.reconnect u)) :=
      (reconnect_does fun _ _ => trivial).bind fun _ => Does.pure _
    exact keeps_told_of_does hreconnect
  | clientDisconnected u =>
    -- the user leaves the queue, is marked, and the countdown is told
    change Keeps _ (ServerRuntime.onClientDisconnected cfg env u)
    unfold ServerRuntime.onClientDisconnected
    refine (keeps_told_of_does (cancel_does (fun _ => trivial) u)).bind fun _ => ?_
    have hmark : Does (Action.Still roomId userId) (markDisconnected env u) :=
      markDisconnected_does (fun _ => h) fun _ _ => trivial
    refine (keeps_told_of_does hmark).bind fun r? => ?_
    split
    · exact Keeps.pure _
    · exact keeps_told_broadcastCountdown _ _ _
  | matchmakingTick => exact keeps_told_matchmakingTick
  | tickAll => exact Keeps.bind Keeps.get fun v => Keeps.forM (keeps_told_tickRoom h) _
  | processDisconnectGrace => exact keeps_told_processDisconnectGrace
  | forceForfeit r loser => exact keeps_told_forceForfeit r loser

/-- **What a member is told by an event.** -/
theorem heard_step (h : s.Sits roomId userId) {e : GameEngine}
    (hengine : s.engines.get? roomId = some e) {event : Event}
    (hevent : event.Undisturbed roomId userId env) :
    (s.step cfg (env, event)).Sits roomId userId ∧
      News userId roomId s (s.step cfg (env, event)) event := by
  by_cases hmove : ∃ u startPos endPos, event = .submitMove u startPos endPos
  · obtain ⟨u, startPos, endPos, rfl⟩ := hmove
    -- a move never raises, so the run ends with its outcome
    have hresult := submitMove_result u startPos endPos s
    have hafter : s.step cfg (env, .submitMove u startPos endPos) =
        after (submitMove u startPos endPos) s := after_bind_pure _ _
    rw [hafter]
    unfold wp at hresult
    unfold after
    cases hrun : submitMove u startPos endPos s with
    | error exn t =>
      rw [hrun] at hresult
      exact absurd hresult id
    | ok outcome t =>
      rw [hrun] at hresult
      obtain ⟨hsame, hresult⟩ := hresult
      have hrooms : t.rooms = s.rooms := by rw [hsame]
      have houtbox : t.outbox = s.outbox := by rw [hsame]
      have hacks : Event.acks userId s (.submitMove u startPos endPos) =
          [outcome].filter fun outcome => outcome.ok && decide (userId ∈ outcome.memberIds) := by
        have hreturns : result? (submitMove u startPos endPos) s = some outcome := by
          unfold result?
          rw [hrun]
        change (result? (submitMove u startPos endPos) s).toList.filter _ = _
        rw [hreturns]
        rfl
      refine ⟨h.of_eq (by rw [hsame]) fun r => memberOf_of_rooms hrooms, ?_⟩
      -- a move in another room changes nothing here, and its `ack` goes there
      have hquiet : t.engines.get? roomId = s.engines.get? roomId →
          Event.acks userId s (.submitMove u startPos endPos) = [] →
            News userId roomId s t (.submitMove u startPos endPos) := fun hsame hnone =>
        .heard e e [] hengine (hsame.trans hengine) (by rw [houtbox, List.append_nil]) hnone .start
      cases hresult with
      | refused hok hengines =>
        refine hquiet (hengines roomId) ?_
        rw [hacks, List.filter_cons_of_neg (by simp [hok]), List.filter_nil]
      | accepted r engine color hr hok houtcome hengines =>
        subst houtcome
        by_cases hroom : r = roomId
        · subst hroom
          refine .moved engine color startPos endPos hr hok ?_ houtbox ?_
          · rw [hengines, Dict.get?_set_self]
          · have hmem : userId ∈ memberIds s r := by
              obtain ⟨room, hroom⟩ := h.room
              unfold memberIds
              rw [hroom]
              exact (h.mem_keys hroom).mpr rfl
            rw [hacks]
            exact List.filter_cons_of_pos (decide_eq_true hmem)
        · refine hquiet ?_ ?_
          · rw [hengines, Dict.get?_set_of_ne _ _ (Ne.symm hroom)]
          · have hmem : userId ∉ memberIds s r := by
              intro hmem
              unfold memberIds at hmem
              cases hget : s.rooms.get? r with
              | none =>
                rw [hget] at hmem
                exact absurd hmem List.not_mem_nil
              | some room =>
                rw [hget] at hmem
                exact hroom ((h.mem_keys hget).mp hmem)
            rw [hacks]
            exact List.filter_cons_of_neg (Bool.eq_false_iff.mp (decide_eq_false hmem))
  · -- any other event is told message by message
    push Not at hmove
    have htold : Told userId roomId s (s.step cfg (env, event)) :=
      wp_iff_after.mp (keeps_told_run hevent hmove s (.refl h hengine))
    obtain ⟨e₀, e', sent, he₀, he', hsent, hheard⟩ := htold.heard
    refine ⟨htold.sits, .heard e₀ e' sent he₀ he' hsent ?_ hheard⟩
    cases event with
    | submitMove u startPos endPos => exact absurd rfl (hmove u startPos endPos)
    | _ => rfl

end Events

end KungFuChess
