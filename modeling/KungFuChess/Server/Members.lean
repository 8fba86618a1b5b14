import KungFuChess.Server.Seated

/-!
# Members of rooms

`Server.memberOf` reads the entry of a user in a room. An action leaves an entry alone, removes
it, or writes it anew for a user who takes a seat; only a change of a connection does something
else to it (`action_member`).

`Server.standing` is the part of an entry that says who somebody is: the role and the status.
Only three kinds of calls bring a standing that was not there. A call that seats somebody
brings a CONNECTED one (`standing_step`); `mark_disconnected` and `reconnect` write the status
of the one entry their user has, as a player (`SetsStatus`). The clocks and the grace bring
none (`NoNews`).
-/

namespace KungFuChess

open Effect RoomService GameService

/-- The entry of a user in a room. -/
def Server.memberOf (s : Server) (roomId : RoomId) (userId : UserId) : Option RoomMember :=
  (s.rooms.get? roomId).bind fun room => room.members.get? userId

section Members

variable {s t : Server} {r : RoomId} {u : UserId}

/-- Entries are read off the members. -/
theorem memberOf_of_members (h : (t.rooms.get? r).map Room.members =
    (s.rooms.get? r).map Room.members) : t.memberOf r u = s.memberOf r u := by
  have hread : ∀ room? : Option Room, (room?.bind fun room => room.members.get? u) =
      (room?.map Room.members).bind fun members => members.get? u := by
    intro room?
    cases room? <;> rfl
  unfold Server.memberOf
  rw [hread, hread, h]

theorem memberOf_of_rooms (h : t.rooms = s.rooms) : t.memberOf r u = s.memberOf r u := by
  unfold Server.memberOf
  rw [h]

/-- A room that is set. -/
theorem memberOf_set (roomId : RoomId) (room : Room) (h : t.rooms = s.rooms.set roomId room) :
    t.memberOf r u = if r = roomId then room.members.get? u else s.memberOf r u := by
  unfold Server.memberOf
  rw [h, Dict.get?_set]
  split <;> rfl

/-- A room that is changed. -/
theorem memberOf_modifyRoom (roomId : RoomId) (f : Room → Room)
    (h : t.rooms = s.rooms.modify roomId f) :
    t.memberOf r u =
      if r = roomId then (s.rooms.get? roomId).bind fun room => (f room).members.get? u
      else s.memberOf r u := by
  unfold Server.memberOf
  rw [h, Dict.get?_modify]
  split
  · cases s.rooms.get? roomId <;> rfl
  · rfl

/-- A member who leaves. -/
theorem memberOf_left {roomId : RoomId} {userId : UserId} {userRoom : Dict UserId RoomId} :
    Server.memberOf { s.modifyRoom roomId fun room => { room with
        members := room.members.pop userId } with userRoom := userRoom } r u =
      if r = roomId ∧ u = userId then none else s.memberOf r u := by
  rw [memberOf_modifyRoom (s := s) roomId (fun room => { room with
    members := room.members.pop userId }) rfl]
  by_cases hr : r = roomId
  · rw [if_pos hr]
    unfold Server.memberOf
    subst hr
    cases s.rooms.get? r with
    | none => simp
    | some room => simp [Dict.get?_pop]
  · rw [if_neg hr, if_neg fun h => hr h.1]

/-- A member whose entry is changed. -/
theorem memberOf_modifyMember {roomId : RoomId} {userId : UserId} {f : RoomMember → RoomMember} :
    (s.modifyMember roomId userId f).memberOf r u =
      if r = roomId ∧ u = userId then (s.memberOf roomId userId).map f else s.memberOf r u := by
  rw [memberOf_modifyRoom (s := s) roomId (fun room =>
    { room with members := room.members.modify userId f }) rfl]
  unfold Server.memberOf
  -- another room is not touched; in this one the entry is that of the dictionary
  by_cases hr : r = roomId
  · subst hr
    rw [if_pos rfl]
    cases s.rooms.get? r with
    | none => simp
    | some room =>
      simp only [Option.bind_some, true_and]
      exact Dict.get?_modify _ _ _ _
  · rw [if_neg hr, if_neg (fun h => hr h.1)]

/-- The seats an action gives to users. -/
def Action.places : Action → List (RoomId × UserId)
  | .openRoom roomId creator => [(roomId, creator)]
  | .openMatchedRoom roomId userA userB => [(roomId, userA), (roomId, userB)]
  | .join roomId userId _ => [(roomId, userId)]
  | _ => []

/-- An action other than a change of a connection leaves an entry alone, removes it, or writes
it anew for a user who takes a seat. -/
theorem action_member {a : Action} (henabled : a.Enabled s)
    (hconnection : ∀ roomId userId f, a ≠ .connection roomId userId f) :
    (a.apply s).memberOf r u = s.memberOf r u ∨ (a.apply s).memberOf r u = none ∨
      (r, u) ∈ a.places ∧
        ∃ m, (a.apply s).memberOf r u = some m ∧ m.status = .connected := by
  -- a seat that is written is the entry asked for, or another one
  have hseat : ∀ (d : Dict UserId RoomMember) (v : UserId) (m : RoomMember),
      (d.set v m).get? u = d.get? u ∨ u = v ∧ (d.set v m).get? u = some m := by
    intro d v m
    rw [Dict.get?_set]
    split
    · next hu => exact Or.inr ⟨hu, rfl⟩
    · exact Or.inl rfl
  cases a with
  | openRoom roomId creator =>
    rw [memberOf_set (s := s) roomId (openedRoom roomId creator) rfl]
    split
    · next hr =>
      subst hr
      obtain hempty | ⟨rfl, hset⟩ := hseat .empty creator { userId := creator, role := .white }
      · exact Or.inr (Or.inl hempty)
      · exact Or.inr (Or.inr ⟨List.mem_singleton.mpr rfl, _, hset, rfl⟩)
    · exact Or.inl rfl
  | openMatchedRoom roomId userA userB =>
    rw [memberOf_set (s := s) roomId (matchedRoom roomId userA userB) rfl]
    split
    · next hr =>
      subst hr
      -- the entry of Black is written last
      obtain hfirst | ⟨rfl, hset⟩ := hseat
        (Dict.empty.set userA { userId := userA, role := .white }) userB
        { userId := userB, role := .black }
      · obtain hempty | ⟨rfl, hset⟩ := hseat .empty userA { userId := userA, role := .white }
        · exact Or.inr (Or.inl (hfirst.trans hempty))
        · exact Or.inr (Or.inr ⟨List.mem_cons_self, _, hfirst.trans hset, rfl⟩)
      · exact Or.inr (Or.inr ⟨List.mem_cons_of_mem _ (List.mem_singleton.mpr rfl), _, hset, rfl⟩)
    · exact Or.inl rfl
  | join roomId userId role =>
    rw [memberOf_modifyRoom (s := s) roomId (fun room => { room with
      members := room.members.set userId { userId := userId, role := role } }) rfl]
    unfold Server.memberOf
    split
    · next hr =>
      subst hr
      cases s.rooms.get? r with
      | none => exact Or.inl rfl
      | some room =>
        obtain hsame | ⟨rfl, hset⟩ := hseat room.members userId { userId := userId, role := role }
        · exact Or.inl hsame
        · exact Or.inr (Or.inr ⟨List.mem_singleton.mpr rfl, _, hset, rfl⟩)
    · exact Or.inl rfl
  | leave roomId userId =>
    have hleft : ((Action.leave roomId userId).apply s).memberOf r u =
        if r = roomId ∧ u = userId then none else s.memberOf r u := memberOf_left
    rw [hleft]
    split
    · exact Or.inr (Or.inl rfl)
    · exact Or.inl rfl
  | connection roomId userId f => exact absurd rfl (hconnection roomId userId f)
  | startGame roomId => exact Or.inl (memberOf_of_members (Server.members_modifyRoom fun _ => rfl))
  | markElo roomId => exact Or.inl (memberOf_of_members (Server.members_modifyRoom fun _ => rfl))
  | aside state =>
    refine Or.inl (memberOf_of_rooms ?_)
    change state.rooms = s.rooms
    rw [show state = _ from henabled]
  | _ => exact Or.inl rfl

/-- A program whose actions do not touch the rooms. -/
theorem keeps_rooms {α : Type} {allowed : Action → Prop} {x : ServerM α} (hx : Does allowed x)
    (hrooms : ∀ (a : Action) u, allowed a → a.Enabled u → (a.apply u).rooms = u.rooms) :
    wp x (fun _ t => t.rooms = s.rooms) (fun _ t => t.rooms = s.rooms) s := by
  have hacts : ∀ t, Acts allowed s t → t.rooms = s.rooms := fun t h =>
    h.invariant (P := fun t => t.rooms = s.rooms)
      (fun a u hallowed henabled hu => (hrooms a u hallowed henabled).trans hu) rfl
  exact wp_mono (hx.wp s) (fun _ t h => hacts t h) (fun _ t h => hacts t h)

/-- What is aside touches no room. -/
theorem rooms_aside {a : Action} {u : Server} (ha : ∃ state, a = .aside state)
    (henabled : a.Enabled u) : (a.apply u).rooms = u.rooms := by
  obtain ⟨state, rfl⟩ := ha
  change state.rooms = u.rooms
  rw [show state = _ from henabled]

end Members

/-! ### Standings -/

/-- The role and the status of a member. -/
def Server.standing (s : Server) (roomId : RoomId) (userId : UserId) :
    Option (PlayerRole × ConnectionStatus) :=
  (s.memberOf roomId userId).map fun member => (member.role, member.status)

/-- Who has a standing has had it. -/
def NoNews (s t : Server) : Prop := ∀ r u p, t.standing r u = some p → s.standing r u = some p

/-- Who has a standing has had it, or is CONNECTED now and was in no room. -/
def Newcomers (s t : Server) : Prop :=
  ∀ r u p, t.standing r u = some p →
    s.standing r u = some p ∨ p.2 = .connected ∧ s.userRoom.get? u = none

/-- As a player the user now has the status, and nobody else has a new standing as a player. -/
def SetsStatus (userId : UserId) (status : ConnectionStatus) (s t : Server) : Prop :=
  ∀ r u role status', t.standing r u = some (role, status') → role ≠ .viewer →
    if u = userId then status' = status ∧ ∃ old, s.standing r u = some (role, old)
    else s.standing r u = some (role, status')

/-- The actions that keep away from members. -/
def Action.Aloof (a : Action) : Prop := a.places = [] ∧ ∀ r u f, a ≠ .connection r u f

section Standings

variable {s t v : Server} {r : RoomId} {u : UserId} {role : PlayerRole}
  {status : ConnectionStatus} {p : PlayerRole × ConnectionStatus} {a : Action}

theorem memberRole_of_standing (h : s.standing r u = some (role, status)) :
    memberRole s r u = some role := by
  obtain ⟨member, hmember, heq⟩ := Option.map_eq_some_iff.mp h
  cases heq
  exact Option.map_eq_some_iff.mpr ⟨member, hmember, rfl⟩

/-- Who has a standing is mapped to the room. -/
theorem RoomInv.standing_mapped (hinv : RoomInv s) (h : s.standing r u = some p) :
    s.userRoom.get? u = some r := by
  obtain ⟨member, hmember, -⟩ := Option.map_eq_some_iff.mp h
  obtain ⟨room, hroom, hmember⟩ := Option.bind_eq_some_iff.mp hmember
  exact hinv.mapped hroom hmember

theorem standing_of_memberOf (h : t.memberOf r u = s.memberOf r u) :
    t.standing r u = s.standing r u := by
  unfold Server.standing
  rw [h]

theorem standing_of_rooms (h : t.rooms = s.rooms) : t.standing r u = s.standing r u :=
  standing_of_memberOf (memberOf_of_rooms h)

theorem NoNews.refl (s : Server) : NoNews s s := fun _ _ _ h => h

theorem NoNews.trans (h : NoNews s t) (h' : NoNews t v) : NoNews s v :=
  fun r u p hp => h r u p (h' r u p hp)

/-- A seat is given to somebody who is in no room. -/
theorem places_free (ha : a.Enabled s) (h : (r, u) ∈ a.places) : s.userRoom.get? u = none := by
  cases a with
  | openRoom roomId creator =>
    cases List.mem_singleton.mp h
    exact ha
  | openMatchedRoom roomId userA userB =>
    rcases List.mem_cons.mp h with heq | hmem
    · cases heq
      exact ha.1
    · cases List.mem_singleton.mp hmem
      exact ha.2.1
  | join roomId userId role =>
    cases List.mem_singleton.mp h
    exact ha.1
  | _ => cases h

/-- The standings after an action other than a change of a connection. -/
theorem standing_apply (ha : a.Enabled s) (hconnection : ∀ r u f, a ≠ .connection r u f)
    (h : (a.apply s).standing r u = some p) :
    s.standing r u = some p ∨ p.2 = .connected ∧ (r, u) ∈ a.places := by
  rcases action_member (r := r) (u := u) ha hconnection with
    hsame | hnone | ⟨hmem, m, hnew, hstatus⟩
  · exact Or.inl (standing_of_memberOf hsame ▸ h)
  · unfold Server.standing at h
    rw [hnone] at h
    cases h
  · unfold Server.standing at h
    rw [hnew] at h
    cases h
    exact Or.inr ⟨hstatus, hmem⟩

/-- A sequence of aloof writes brings no news. -/
theorem acts_noNews {allowed : Action → Prop} (h : Acts allowed s t)
    (hallowed : ∀ a, allowed a → a.Aloof) : NoNews s t := by
  refine h.invariant (P := NoNews s) (fun a t ha henabled ht => ht.trans fun r u p hp => ?_)
    (NoNews.refl s)
  obtain ⟨hplaces, hconnection⟩ := hallowed a ha
  rcases standing_apply henabled hconnection hp with hold | ⟨-, hmem⟩
  · exact hold
  · rw [hplaces] at hmem
    cases hmem

/-! ### Calls that seat, and calls that do not -/

/-- **Step lemma.** -/
theorem Newcomers.apply {env : Env} {event : Event} (h : Newcomers s t)
    (hsince : SeatsSince s env event t) (hof : Action.Of (env, event) a) (ha : a.Enabled t)
    (hconnection : ∀ r u f, ¬ Action.Of (env, event) (.connection r u f)) :
    Newcomers s (a.apply t) := by
  intro r u p hp
  have hne : ∀ r u f, a ≠ .connection r u f := fun r u f heq => hconnection r u f (heq ▸ hof)
  rcases standing_apply ha hne hp with hold | ⟨hstatus, hmem⟩
  · exact h r u p hold
  · refine Or.inr ⟨hstatus, ?_⟩
    -- who is in a room stays in it, unless he closes his socket
    by_contra hroom
    refine hsince.mapped u ?_ hroom (places_free ha hmem)
    rintro rfl
    exact hconnection r u id trivial

/-- **Who has a new standing after an event** that does not change connections is seated by the
event, and CONNECTED. -/
theorem standing_step {cfg : Config} {env : Env} {event : Event} (hinv : RoomInv s)
    (hconnection : ∀ r u f, ¬ Action.Of (env, event) (.connection r u f))
    (htick : event ≠ .matchmakingTick)
    (h : (s.step cfg (env, event)).standing r u = some (role, status))
    (hrunning : Running (s.step cfg (env, event)) r) :
    s.standing r u = some (role, status) ∨ status = .connected ∧ Seats s env r u role event := by
  have hnew : SeatsSince s env event (s.step cfg (env, event)) ∧
      Newcomers s (s.step cfg (env, event)) :=
    (s.step_acts cfg (env, event)).invariant
      (P := fun t => SeatsSince s env event t ∧ Newcomers s t)
      (fun a t hof ha ht => ⟨ht.1.apply hof htick ha, ht.2.apply ht.1 hof ha hconnection⟩)
      ⟨SeatsSince.refl s env event, fun _ _ _ hp => Or.inl hp⟩
  rcases hnew.2 r u (role, status) h with hold | ⟨hstatus, hfree⟩
  · exact Or.inl hold
  · refine Or.inr ⟨hstatus, ?_⟩
    obtain hmember | hseats := hnew.1.seated r u role (memberRole_of_standing h) hrunning
    · -- a member would have been mapped
      obtain ⟨member, hmember, hrole⟩ := Option.map_eq_some_iff.mp hmember
      have hstanding : s.standing r u = some (role, member.status) :=
        Option.map_eq_some_iff.mpr ⟨member, hmember, by rw [hrole]⟩
      exact absurd ((hinv.standing_mapped hstanding).symm.trans hfree) nofun
    · exact hseats

/-- The clocks bring no news. -/
theorem tickAll_noNews (cfg : Config) (env : Env) (s : Server) :
    NoNews s (s.step cfg (env, .tickAll)) := by
  refine acts_noNews (s.step_acts cfg (env, .tickAll)) fun a ha => ⟨?_, ?_⟩
  · cases a with
    | openRoom => cases ha.1
    | openMatchedRoom => exact absurd ha (by simp [Action.Of])
    | join => cases ha
    | _ => rfl
  · rintro r u f rfl
    exact ha

/-- A program of actions that keep away from members. -/
theorem keeps_noNews {α : Type} {x : ServerM α} (hx : Does Action.Aloof x) (s : Server) :
    Keeps (NoNews s) x := fun t ht =>
  wp_mono (hx.wp t) (fun _ _ h => ht.trans (acts_noNews h fun _ ha => ha))
    fun _ _ h => ht.trans (acts_noNews h fun _ ha => ha)

/-- The grace forfeits games and clears deadlines, and leaves everybody the status. -/
theorem processDisconnectGrace_noNews (cfg : Config) (env : Env) (s : Server) :
    NoNews s (s.step cfg (env, .processDisconnectGrace)) := by
  have haloof : ∀ {a : Action}, a.places = [] → (∀ r u f, a ≠ .connection r u f) → a.Aloof :=
    fun hplaces hconnection => ⟨hplaces, hconnection⟩
  have haside : ∀ t, (Action.aside t).Aloof := fun _ => haloof rfl nofun
  -- a countdown is a message, and a forfeit ends with the deadline dropped
  have hcountdown : ∀ entry, Keeps (NoNews s) (ServerRuntime.sendCountdown env entry) := fun entry =>
    keeps_noNews (sendCountdown_does haside entry) s
  have hexpired : ∀ entry, Keeps (NoNews s) (ServerRuntime.forfeitExpired cfg env entry) := by
    intro entry
    unfold ServerRuntime.forfeitExpired clearDisconnectDeadline
    refine Keeps.bind (keeps_noNews (forceForfeit_does haside (fun _ _ => haloof rfl nofun)
      (fun _ _ _ => haloof rfl nofun) (haloof rfl nofun)) s) fun _ => ?_
    refine Keeps.bind (keeps_modify fun t ht => ht.trans fun r u p hp => ?_) fun _ =>
      keeps_noNews (Does.aside haside fun _ => by rfl) s
    unfold Server.standing at hp ⊢
    rw [memberOf_modifyMember] at hp
    split at hp
    · next hentry =>
      obtain ⟨rfl, rfl⟩ := hentry
      rwa [Option.map_map] at hp
    · exact hp
  change NoNews s (after (ServerRuntime.processDisconnectGrace cfg env) s)
  exact wp_iff_after.mp (processDisconnectGrace_keeps hcountdown hexpired s (NoNews.refl s))

/-! ### Calls that change a connection -/

/-- Nothing has happened to a user who has no seat. -/
theorem SetsStatus.of_noNews {userId : UserId} (h : NoNews s t)
    (hnone : ∀ r p, t.standing r userId ≠ some p) : SetsStatus userId status s t := by
  intro r u role status' hstanding _
  split
  · next hu =>
    subst hu
    exact absurd hstanding (hnone r _)
  · exact h r u _ hstanding

/-- The status of the user is written in the room he is mapped to. -/
theorem setsStatus_modifyMember (hinv : RoomInv s) {userId : UserId} {roomId : RoomId}
    (hroom : s.userRoom.get? userId = some roomId) {f : RoomMember → RoomMember}
    (hstatus : ∀ m, (f m).status = status) (hrole : ∀ m, (f m).role = m.role) :
    SetsStatus userId status s (s.modifyMember roomId userId f) := by
  intro r u role status' hstanding _
  unfold Server.standing at hstanding
  rw [memberOf_modifyMember] at hstanding
  split
  · next hu =>
    subst hu
    split at hstanding
    · next hentry =>
      obtain ⟨rfl, -⟩ := hentry
      rw [Option.map_map] at hstanding
      obtain ⟨m, hm, heq⟩ := Option.map_eq_some_iff.mp hstanding
      cases heq
      exact ⟨hstatus m, m.status, Option.map_eq_some_iff.mpr ⟨m, hm, by simp [hrole]⟩⟩
    · next hentry =>
      -- whoever stands in a room is mapped to it
      have hr := (hinv.standing_mapped (r := r) (u := u) hstanding).symm.trans hroom
      exact absurd ⟨Option.some.inj hr, rfl⟩ hentry
  · next hu =>
    rw [if_neg fun h => hu h.2] at hstanding
    exact hstanding

/-- `mark_disconnected` writes the status of the one player, or lets a viewer go. -/
theorem markDisconnected_setsStatus (hinv : RoomInv s) (env : Env) (userId : UserId) :
    wp (markDisconnected env userId) (fun _ => SetsStatus userId .disconnected s)
      (fun _ _ => True) s := by
  refine wp_mono (markDisconnected_cases env userId s) (fun _ t ht => ?_) fun _ _ _ => trivial
  cases ht with
  | nobody hmapped =>
    refine SetsStatus.of_noNews (NoNews.refl s) fun r p hp => ?_
    exact absurd ((hinv.standing_mapped hp).symm.trans hmapped) nofun
  | left roomId _ hmapped =>
    -- a viewer leaves the room he is mapped to
    intro r u role status' hstanding hplayer
    unfold Server.standing at hstanding
    rw [memberOf_left] at hstanding
    split at hstanding
    · cases hstanding
    next hne =>
    split
    · next hu =>
      subst hu
      exact absurd ⟨Option.some.inj ((hinv.standing_mapped hstanding).symm.trans hmapped), rfl⟩ hne
    · exact hstanding
  | marked roomId hmapped =>
    exact setsStatus_modifyMember hinv hmapped (fun _ => rfl) fun _ => rfl

/-- `reconnect` writes the status of the one player. -/
theorem reconnect_setsStatus (hinv : RoomInv s) (userId : UserId) :
    SetsStatus userId .connected s (after (reconnect userId) s) := by
  refine wp_iff_after.mp (wp_mono (reconnect_cases userId s) (fun _ t ht => ?_) nofun)
  cases ht with
  | absent hentry =>
    refine SetsStatus.of_noNews (NoNews.refl s) fun r p hp => ?_
    obtain ⟨member, hmember, -⟩ := Option.map_eq_some_iff.mp hp
    exact absurd (hmember.symm.trans (hentry r (hinv.standing_mapped hp))) nofun
  | back roomId hmapped =>
    exact setsStatus_modifyMember hinv hmapped (fun _ => rfl) fun _ => rfl

/-- A closed socket. Of the three calls only `mark_disconnected` writes to the rooms. -/
theorem onClientDisconnected_setsStatus (hinv : RoomInv s) (cfg : Config) (env : Env)
    (userId : UserId) :
    wp (ServerRuntime.onClientDisconnected cfg env userId)
      (fun _ => SetsStatus userId .disconnected s) (fun _ _ => True) s := by
  have hcancel : Does (fun a => ∃ queue, a = .setQueue queue) (LobbyService.cancel cfg userId) :=
    cancel_does (fun queue => ⟨queue, rfl⟩) userId
  have hbroadcast : ∀ roomId, Does (fun a => ∃ state, a = .aside state)
      (ServerRuntime.broadcastCountdown env roomId userId 20) := fun roomId =>
    broadcastCountdown_does (fun state => ⟨state, rfl⟩) _ _ _
  unfold ServerRuntime.onClientDisconnected
  have hqueue : wp (LobbyService.cancel cfg userId) (fun _ t => RoomInv t ∧ t.rooms = s.rooms)
      (fun _ _ => True) s := by
    refine wp_mono (wp_and (hcancel.wp s) (keeps_rooms hcancel ?_)) ?_ fun _ _ _ => trivial
    · rintro _ t ⟨queue, rfl⟩ -
      rfl
    · exact fun _ t ht => ⟨hinv.of_acts ht.1, ht.2⟩
  -- the search first, then the entry, and the countdown last
  refine wp_call hqueue (fun _ _ _ => trivial) fun _ t ht => ?_
  refine wp_call (markDisconnected_setsStatus ht.1 env userId) (fun _ _ _ => trivial)
    fun roomId? t' ht' => ?_
  have hsets : ∀ {v}, v.rooms = t'.rooms → SetsStatus userId .disconnected s v := by
    intro v hv r u role status' hstanding hplayer
    rw [standing_of_rooms hv] at hstanding
    have h := ht' r u role status' hstanding hplayer
    rwa [standing_of_rooms ht.2] at h
  split
  · exact hsets rfl
  · next roomId =>
    exact wp_mono (keeps_rooms (hbroadcast roomId) fun a u => rooms_aside)
      (fun _ _ hv => hsets hv) fun _ _ _ => trivial

end Standings

end KungFuChess
