import KungFuChess.Library.Run
import KungFuChess.Server.Members

/-!
# The disconnect grace at its await points

`_process_disconnect_grace` computes the list of the members whose grace has expired and then
forfeits them one after the other. `force_forfeit` awaits when it has a result to announce, and
before the loop goes on to the next entry, sockets may close, users may log in, and players may
move. The loop is a machine that stops after every forfeit: `Phase` holds the entry whose
forfeit is awaited and the entries behind it. Up to the first await the list and the forfeit of
its first entry are one step, and so are the clearing of a deadline and the next forfeit.

What the runtime does in the rest of its loop, the matchmaking tick, the clocks and the
countdowns, is cut into single writes (`Input.loop`): between two of its awaits it makes some of
them, each enabled when it is made (`segment_run`), and here anything may happen between any
two. When nobody calls in between, the machine does what the loop of the service does
(`undisturbed_grace`).

## Who is forfeited

`since` watches the member entries from outside: when a member became DISCONNECTED and has not
ceased to be so. A forfeit is `Due` if the loser has been DISCONNECTED for the whole grace and
the winner is the other colour. `OverdueInv` ties the deadlines to `since`, so an entry is due
when it is put on the list. The loop does not look again: a user who comes back while the
forfeit of an earlier entry is awaited is forfeited all the same (`not_due_backInTime`). With
`NotBack`, which forbids just this, all forfeits of all runs are due (`forfeits_due`).
-/

namespace KungFuChess

open Effect RoomService GameService

/-- The user is a member of the room with status DISCONNECTED. -/
def Server.isGone (s : Server) (roomId : RoomId) (userId : UserId) : Bool :=
  (s.memberOf roomId userId).any fun member => member.status = .disconnected

namespace AwaitedGrace

/-! ### The machine -/

/-- Where the coroutine of the runtime is. -/
inductive Phase where
  /-- Not in the loop over the expired members. -/
  | elsewhere
  /-- The forfeit of `entry` is awaited, with `rest` still to come. -/
  | forfeiting (entry : RoomId × UserId) (rest : List (RoomId × UserId))
deriving DecidableEq, Repr

/-- A winner set by `force_forfeit`, with what was true at that moment. -/
structure Forfeit where
  roomId : RoomId
  loser : UserId
  winner : Color
  member : Option RoomMember
  since : Option ℚ
  time : ℚ
deriving DecidableEq, Repr

/-- The server, where its loop stands, and what an observer has noted. -/
structure Runtime where
  server : Server
  phase : Phase := .elsewhere
  /-- The last time that was read. -/
  now : ℚ
  /-- Since when a member has been DISCONNECTED. The code does not keep it. -/
  since : RoomId → UserId → Option ℚ := fun _ _ => none
  /-- The entries of users who have come back since the list was computed. Nor this. -/
  returned : List (RoomId × UserId) := []
  /-- The forfeits so far. Nor these. -/
  forfeits : List Forfeit := []

/-- What may happen at an await, and how the loop goes on. -/
inductive Input where
  /-- A call of a handler. -/
  | outside (env : Env) (event : Event)
  /-- A write of the matchmaking tick, the clocks or the countdowns. -/
  | loop (action : Action)
  /-- The runtime comes to the loop over the expired members. -/
  | grace (env : Env)
  /-- The forfeit that is awaited returns. -/
  | resume (env : Env)

/-- A step of some coroutine, watched from outside. -/
def observe (s : Runtime) (now : ℚ) (t : Server) : Runtime :=
  { s with
    server := t
    now := now
    since := fun r u =>
      if t.isGone r u then if s.server.isGone r u then s.since r u else some now else none }

/-- The forfeit of an entry that leads to `t`, if it has set a winner. -/
def forfeitOf (s : Runtime) (env : Env) (entry : RoomId × UserId) (t : Server) : Option Forfeit :=
  match s.server.engines.get? entry.1, t.engines.get? entry.1 with
  | some before, some ended =>
    if before.gameOver = false ∧ ended.gameOver then
      ended.winner.map fun winner =>
        ⟨entry.1, entry.2, winner, s.server.memberOf entry.1 entry.2, s.since entry.1 entry.2,
          env.now⟩
    else none
  | _, _ => none

/-- The forfeit of an entry has been played. -/
def forfeited (s : Runtime) (env : Env) (entry : RoomId × UserId) (t : Server) : Runtime :=
  { observe s env.now t with forfeits := s.forfeits ++ (forfeitOf s env entry t).toList }

/-- The loop over the expired members, up to the next await. -/
def turn (cfg : Config) (env : Env) (s : Runtime) : List (RoomId × UserId) → Runtime
  | [] => { s with phase := .elsewhere, now := env.now }
  | entry :: rest =>
    match forceForfeit cfg env entry.1 entry.2 s.server with
    | .ok _ t => { forfeited s env entry t with phase := .forfeiting entry rest }
    -- the exception leaves the loop
    | .error _ t => { forfeited s env entry t with phase := .elsewhere }

/-- What the loop does when a forfeit has returned. -/
def cleared (s : Server) (entry : RoomId × UserId) : Server :=
  { s.modifyMember entry.1 entry.2 fun member => { member with disconnectDeadline := none } with
    lastCountdownSent := s.lastCountdownSent.pop entry }

/-- The entries that the event may turn to CONNECTED: the room a login finds the user in, or the
room in which the user takes a seat. -/
def comesBack (s : Server) (env : Env) : Event → List (RoomId × UserId)
  | .reconnect userId => (s.userRoom.get? userId).toList.map fun roomId => (roomId, userId)
  | .joinRoom userId roomId => [(roomId, userId)]
  | .createRoom userId => [(env.tokenHex userId, userId)]
  | _ => []

/-- The member is there and CONNECTED. -/
def isBack (s : Server) (entry : RoomId × UserId) : Bool :=
  (s.memberOf entry.1 entry.2).any fun member => member.status = .connected

/-- One input. The loop over the entries starts only when it is not on, and resumes only when it is.
-/
def step (cfg : Config) (s : Runtime) : Input → Runtime
  | .outside env event =>
    let t := s.server.step cfg (env, event)
    { observe s env.now t with
      returned := s.returned ++ (comesBack s.server env event).filter fun entry => isBack t entry }
  | .loop action => observe s s.now (action.apply s.server)
  | .grace env =>
    match s.phase with
    | .elsewhere =>
      turn cfg env { s with returned := [] } (expiredDisconnects s.server env.now)
    | .forfeiting _ _ => s
  | .resume env =>
    match s.phase with
    | .elsewhere => s
    | .forfeiting entry rest => turn cfg env (observe s env.now (cleared s.server entry)) rest

/-- A started process at a time. -/
def start (users : Dict UserId User) (games : Dict RoomId GameResult) (now : ℚ) : Runtime where
  server := .initial users games
  now := now

/-- The events of the handlers and of a closed socket. -/
def Outside : Event → Prop
  | .register _ _ | .play _ | .cancelPlay _ | .createRoom _ | .joinRoom _ _ | .submitMove _ _ _
  | .reconnect _ | .clientDisconnected _ => True
  | _ => False

/-- The writes of the matchmaking tick, the clocks and the countdowns. -/
def LoopWrite : Action → Prop
  | .openMatchedRoom _ _ _ | .createEngine _ _ | .startGame _ | .engine _ _ .tick
  | .setElo _ _ _ _ | .markElo _ | .setQueue _ | .aside _ => True
  | _ => False

/-- What may happen in a state; the clock does not go back. -/
def Possible (s : Runtime) : Input → Prop
  | .outside env event => s.now ≤ env.now ∧ Outside event
  | .loop action => s.phase = .elsewhere ∧ LoopWrite action ∧ action.Enabled s.server
  | .grace env | .resume env => s.now ≤ env.now

/-- The room has an engine whose game is not over. -/
def isRunning (s : Server) (roomId : RoomId) : Bool :=
  (s.engines.get? roomId).any fun engine => !engine.gameOver

/-- The loop comes to no entry of a running game whose user has come back since the list was
computed. -/
def NotBack (s : Runtime) : Input → Prop
  | .resume _ =>
    match s.phase with
    | .forfeiting _ (entry :: _) => isRunning s.server entry.1 → entry ∉ s.returned
    | _ => True
  | _ => True

/-! ### What is promised -/

/-- The colour that wins when a player of the role leaves. -/
def opponentColor : PlayerRole → Option Color
  | .white => some .b
  | .black => some .w
  | .viewer => none

/-- The loser is DISCONNECTED and has been for the whole grace, and the other side has won. -/
structure Forfeit.Due (f : Forfeit) : Prop where
  gone : ∃ member, f.member = some member ∧ member.status = .disconnected ∧
    opponentColor member.role = some f.winner
  grace : ∃ time, f.since = some time ∧ time + disconnectGraceSeconds ≤ f.time

/-! ### What happens to a member -/

/-- The change of an entry in one step; `back` says whether the step may leave it CONNECTED. -/
inductive MemberChange (now : ℚ) (back : Prop) : Option RoomMember → Option RoomMember → Prop where
  | kept (m : Option RoomMember) : MemberChange now back m m
  | removed (m : Option RoomMember) : MemberChange now back m none
  | marked (m : RoomMember) :
      MemberChange now back (some m)
        (some { m with status := .disconnected
                       disconnectDeadline := some (now + disconnectGraceSeconds) })
  | cleared (m : RoomMember) :
      MemberChange now back (some m) (some { m with disconnectDeadline := none })
  | connected (m : Option RoomMember) (m' : RoomMember) (hback : back)
      (hstatus : m'.status = .connected) : MemberChange now back m (some m')

/-- No entry is changed but those listed, and these are left CONNECTED. -/
def MembersChange (now : ℚ) (back : RoomId → UserId → Prop) (s t : Server) : Prop :=
  ∀ r u, MemberChange now (back r u) (s.memberOf r u) (t.memberOf r u)

section Members

variable {s t : Server} {r : RoomId} {u : UserId} {now : ℚ} {back : RoomId → UserId → Prop}

/-- Writes that seat only those who may come back. -/
theorem acts_membersChange {allowed : Action → Prop} (h : Acts allowed s t)
    (hconnection : ∀ roomId userId f, ¬ allowed (.connection roomId userId f))
    (hplaces : ∀ a, allowed a → ∀ e ∈ a.places, back e.1 e.2) : MembersChange now back s t := by
  refine h.invariant (P := MembersChange now back s) ?_ fun r u => .kept _
  intro a t hallowed henabled ht r u
  have hcases := action_member (r := r) (u := u) henabled fun roomId userId f heq =>
    hconnection roomId userId f (heq ▸ hallowed)
  rcases hcases with hsame | hnone | ⟨hmem, m, hnew, hstatus⟩
  · rw [hsame]
    exact ht r u
  · rw [hnone]
    exact .removed _
  · rw [hnew]
    exact .connected _ m (hplaces a hallowed (r, u) hmem) hstatus

/-- A player is marked, and a viewer leaves. -/
theorem markDisconnected_membersChange (env : Env) (userId : UserId) (hrooms : t.rooms = s.rooms) :
    wp (markDisconnected env userId) (fun _ => MembersChange env.now back s)
      (fun _ => MembersChange env.now back s) t := by
  have hkept : MembersChange env.now back s t := fun r u => by
    rw [memberOf_of_rooms hrooms]
    exact .kept _
  -- in each outcome the one entry that changes is the user's
  refine wp_mono (markDisconnected_cases env userId t) (fun _ t' ht' => ?_) ?_
  · cases ht' with
    | nobody => exact hkept
    | left =>
      intro r u
      rw [memberOf_left, memberOf_of_rooms hrooms]
      split
      · exact .removed _
      · exact .kept _
    | marked roomId =>
      intro r u
      rw [memberOf_modifyMember, memberOf_of_rooms hrooms, memberOf_of_rooms hrooms]
      split
      · next h =>
        obtain ⟨rfl, rfl⟩ := h
        cases s.memberOf r u with
        | none => exact .kept _
        | some m => exact .marked m
      · exact .kept _
  · rintro _ _ rfl
    exact hkept

/-- A socket that closes. -/
theorem clientDisconnected_membersChange (cfg : Config) (env : Env) (userId : UserId)
    (s : Server) :
    MembersChange env.now back s (after (ServerRuntime.onClientDisconnected cfg env userId) s) := by
  refine wp_iff_after.mp ?_
  unfold ServerRuntime.onClientDisconnected
  -- only the middle call writes to the rooms
  have hcancel : Does (fun a => ∃ queue, a = .setQueue queue) (LobbyService.cancel cfg userId) :=
    cancel_does (fun queue => ⟨queue, rfl⟩) userId
  refine wp_call (keeps_rooms hcancel ?_) ?_ ?_
  · rintro _ u ⟨queue, rfl⟩ -
    rfl
  · intro _ t hrooms r u
    rw [memberOf_of_rooms hrooms]
    exact .kept _
  intro _ t hrooms
  refine wp_call (markDisconnected_membersChange env userId hrooms) (fun _ _ h => h) ?_
  intro roomId? t ht
  split
  · exact ht
  · next roomId =>
    have hbroadcast : Does (fun a => ∃ state, a = .aside state)
        (ServerRuntime.broadcastCountdown env roomId userId 20) :=
      broadcastCountdown_does (fun state => ⟨state, rfl⟩) _ _ _
    refine wp_mono (keeps_rooms hbroadcast fun a u => rooms_aside) ?_ ?_
    · intro _ u hu r v
      rw [memberOf_of_rooms hu]
      exact ht r v
    · intro _ u hu r v
      rw [memberOf_of_rooms hu]
      exact ht r v

/-- A user who comes back. -/
theorem reconnect_membersChange (env : Env) (userId : UserId) (s : Server) :
    MembersChange env.now (fun r u => (r, u) ∈ comesBack s env (.reconnect userId)) s
      (after (reconnect userId) s) := by
  refine wp_iff_after.mp (wp_mono (reconnect_cases userId s) (fun _ t ht => ?_) nofun)
  cases ht with
  | absent => exact fun _ _ => .kept _
  | back roomId hmapped =>
    -- the one membership that is written is that of the user, in its room
    intro r u
    rw [memberOf_modifyMember]
    split
    · next h =>
      obtain ⟨rfl, rfl⟩ := h
      cases s.memberOf r u with
      | none => exact .kept _
      | some m =>
        refine .connected _ _ ?_ rfl
        simp [comesBack, hmapped]
    · exact .kept _

/-- The seats that a call of a handler gives. -/
theorem seated_of {env : Env} {event : Event} (houtside : Outside event) {a : Action}
    (h : Action.Of (env, event) a) {e : RoomId × UserId} (he : e ∈ a.places) :
    e ∈ comesBack s env event := by
  cases a with
  | openRoom roomId creator =>
    obtain ⟨rfl, rfl⟩ := h
    exact he
  | openMatchedRoom roomId userA userB =>
    rcases h with ⟨rfl, -⟩ | rfl
    · exact houtside.elim
    · exact houtside.elim
  | join roomId userId role =>
    obtain rfl : event = .joinRoom userId roomId := h
    exact he
  | _ => cases he

/-- Any call of a handler. -/
theorem outside_membersChange (cfg : Config) (env : Env) {event : Event} (h : Outside event)
    (s : Server) :
    MembersChange env.now (fun r u => (r, u) ∈ comesBack s env event) s
      (s.step cfg (env, event)) := by
  have hacts : (∀ roomId userId f, ¬ Action.Of (env, event) (.connection roomId userId f)) →
      MembersChange env.now (fun r u => (r, u) ∈ comesBack s env event) s
        (s.step cfg (env, event)) := fun hconnection =>
    acts_membersChange (s.step_acts cfg (env, event)) hconnection
      fun a ha e he => seated_of h ha he
  -- two kinds of calls write to a connection, the others may only give seats
  cases event with
  | reconnect userId =>
    have hafter : s.step cfg (env, .reconnect userId) = after (reconnect userId) s :=
      after_bind_pure _ _
    rw [hafter]
    exact reconnect_membersChange env userId s
  | clientDisconnected userId => exact clientDisconnected_membersChange cfg env userId s
  | register userId username => exact hacts fun _ _ _ h => h
  | play userId => exact hacts fun _ _ _ h => h
  | cancelPlay userId => exact hacts fun _ _ _ h => h
  | createRoom userId => exact hacts fun _ _ _ h => h
  | joinRoom userId roomId => exact hacts fun _ _ _ h => h
  | submitMove userId startPos endPos => exact hacts fun _ _ _ h => h
  | createMatch roomId whiteId blackId => exact h.elim
  | matchmakingTick => exact h.elim
  | tickAll => exact h.elim
  | processDisconnectGrace => exact h.elim
  | forceForfeit roomId loser => exact h.elim

/-- A forfeit changes no entry, and neither does an attempt to apply the result. -/
theorem forfeit_memberOf {cfg : Config} {env : Env} {roomId : RoomId} {loser : UserId}
    {raised : Bool} (h : ForfeitOutcome cfg env roomId loser s raised t) :
    t.memberOf r u = s.memberOf r u := by
  cases h with
  | idle | nameRaises => rfl
  | forfeited engine winner raised t _ _ _ _ h =>
    exact memberOf_of_members (h.frame.members r)

/-- Who loses by leaving is a player of the room. -/
theorem member_of_forfeitWinner {winner : Color}
    (h : forfeitWinner (s.playersOf r) u = some winner) :
    ∃ m, s.memberOf r u = some m ∧ opponentColor m.role = some winner := by
  have hseat : ∀ {role : PlayerRole} {room : Room}, s.rooms.get? r = some room →
      seatOf room role = some u → ∃ m, s.memberOf r u = some m ∧ m.role = role := by
    intro role room hroom hseat
    obtain ⟨m, hm, hrole⟩ := seatOf_eq_some hseat
    refine ⟨m, ?_, hrole⟩
    unfold Server.memberOf
    rw [hroom]
    exact hm
  -- the loser is the White or the Black that the room service finds
  unfold forfeitWinner Server.playersOf getRoomPlayers at h
  cases hroom : s.rooms.get? r with
  | none => simp [hroom] at h
  | some room =>
    rw [hroom] at h
    dsimp only at h
    split at h
    · next hwhite =>
      obtain ⟨m, hm, hrole⟩ := hseat hroom hwhite
      exact ⟨m, hm, by rw [hrole]; exact h⟩
    · split at h
      · next hblack =>
        obtain ⟨m, hm, hrole⟩ := hseat hroom hblack
        exact ⟨m, hm, by rw [hrole]; exact h⟩
      · cases h

end Members

/-! ### Deadlines and absences -/

/-- A member who is DISCONNECTED has been so since a known time, and the deadline leaves the
whole grace. -/
def SinceInv (s : Runtime) : Prop :=
  ∀ r u m, s.server.memberOf r u = some m → m.status = .disconnected →
    ∃ time, s.since r u = some time ∧ time ≤ s.now ∧
      ∀ deadline, m.disconnectDeadline = some deadline → time + disconnectGraceSeconds ≤ deadline

/-- If the entry is still there, its user has been gone for the whole grace at time `now`. -/
def Overdue (s : Runtime) (now : ℚ) (e : RoomId × UserId) : Prop :=
  ∀ m, s.server.memberOf e.1 e.2 = some m → m.status = .disconnected ∧
    ∃ time, s.since e.1 e.2 = some time ∧ time + disconnectGraceSeconds ≤ now

/-- What holds at every await. -/
structure OverdueInv (s : Runtime) : Prop where
  since : SinceInv s
  pending : ∀ entry rest, s.phase = .forfeiting entry rest →
    ∀ e ∈ rest, e ∉ s.returned → Overdue s s.now e
  due : ∀ f ∈ s.forfeits, f.Due

section Invariant

variable {cfg : Config} {env : Env} {s : Runtime} {t : Server} {r : RoomId} {u : UserId}
  {m : RoomMember} {now : ℚ} {back : RoomId → UserId → Prop}

theorem isGone_of_member (hm : t.memberOf r u = some m) (hstatus : m.status = .disconnected) :
    t.isGone r u = true := by
  unfold Server.isGone
  rw [hm]
  exact decide_eq_true hstatus

/-- Who stays DISCONNECTED keeps the time. -/
theorem since_observe_kept {m₀ : RoomMember} (hm₀ : s.server.memberOf r u = some m₀)
    (hstatus₀ : m₀.status = .disconnected) (hm : t.memberOf r u = some m)
    (hstatus : m.status = .disconnected) : (observe s now t).since r u = s.since r u := by
  change (if t.isGone r u then if s.server.isGone r u then s.since r u else some now else none) = _
  rw [if_pos (isGone_of_member hm hstatus), if_pos (isGone_of_member hm₀ hstatus₀)]

/-- What is since when stays true of the entries that stay. -/
theorem SinceInv.observe (h : SinceInv s) (hnow : s.now ≤ now)
    (hchange : MembersChange now back s.server t) : SinceInv (observe s now t) := by
  -- one case for each change an entry can undergo
  intro r u m hm hstatus
  have hc := hchange r u
  change t.memberOf r u = some m at hm
  rw [hm] at hc
  generalize hm₀ : s.server.memberOf r u = m₀ at hc
  cases hc with
  | kept =>
    obtain ⟨time, hsince, hle, hdeadline⟩ := h r u m hm₀ hstatus
    exact ⟨time, (since_observe_kept hm₀ hstatus hm hstatus).trans hsince, hle.trans hnow, hdeadline⟩
  | marked m₀ =>
    by_cases hstatus₀ : m₀.status = .disconnected
    · -- marked again: the absence is older than the deadline says
      obtain ⟨time, hsince, hle, -⟩ := h r u m₀ hm₀ hstatus₀
      refine ⟨time, (since_observe_kept hm₀ hstatus₀ hm rfl).trans hsince, hle.trans hnow, ?_⟩
      rintro _ ⟨⟩
      linarith
    · have hpresent : s.server.isGone r u = false := by
        unfold Server.isGone
        rw [hm₀]
        exact decide_eq_false hstatus₀
      -- a member who was present is noted from now on
      refine ⟨now, ?_, le_refl _, ?_⟩
      · change (if t.isGone r u then if s.server.isGone r u then s.since r u else some now
          else none) = _
        rw [if_pos (isGone_of_member hm rfl), hpresent]
        rfl
      · rintro _ ⟨⟩
        exact le_refl _
  | cleared m₀ =>
    obtain ⟨time, hsince, hle, -⟩ := h r u m₀ hm₀ hstatus
    exact ⟨time, (since_observe_kept hm₀ hstatus hm hstatus).trans hsince, hle.trans hnow, nofun⟩
  | connected _ _ _ hconnected => exact absurd (hstatus.symm.trans hconnected) nofun

/-- An entry that is overdue stays so unless its user comes back. -/
theorem Overdue.observe {e : RoomId × UserId} (h : Overdue s now e)
    {time : ℚ} {mayBack : Prop} (hle : now ≤ time)
    (hc : MemberChange time mayBack (s.server.memberOf e.1 e.2) (t.memberOf e.1 e.2))
    (hback : mayBack → isBack t e = false) : Overdue (observe s time t) time e := by
  intro m hm
  change t.memberOf e.1 e.2 = some m at hm
  have hkept : ∀ m₀, s.server.memberOf e.1 e.2 = some m₀ → m.status = .disconnected →
      ∃ since, (AwaitedGrace.observe s time t).since e.1 e.2 = some since ∧
        since + disconnectGraceSeconds ≤ time := by
    intro m₀ hm₀ hstatus
    obtain ⟨hstatus₀, since, hsince, hgrace⟩ := h m₀ hm₀
    exact ⟨since, (since_observe_kept hm₀ hstatus₀ hm hstatus).trans hsince, hgrace.trans hle⟩
  rw [hm] at hc
  generalize hm₀ : s.server.memberOf e.1 e.2 = m₀ at hc
  -- a second mark does not change since when he is away
  cases hc with
  | kept =>
    have hstatus := (h m hm₀).1
    exact ⟨hstatus, hkept m hm₀ hstatus⟩
  | marked m₀ => exact ⟨rfl, hkept m₀ hm₀ rfl⟩
  | cleared m₀ =>
    have hstatus := (h m₀ hm₀).1
    exact ⟨hstatus, hkept m₀ hm₀ hstatus⟩
  | connected _ _ hmay hconnected =>
    have hnot := hback hmay
    unfold isBack at hnot
    rw [hm, Option.any_some, decide_eq_false_iff_not] at hnot
    exact absurd hconnected hnot

/-- The entries of the list are due when it is computed. -/
theorem overdue_of_expired (h : SinceInv s) {e : RoomId × UserId}
    (he : e ∈ expiredDisconnects s.server now) : Overdue s now e := by
  obtain ⟨⟨roomId, room⟩, hroom, hmem⟩ := List.mem_flatMap.mp he
  obtain ⟨⟨userId, member⟩, hmember, rfl⟩ := List.mem_map.mp hmem
  obtain ⟨hentry, hexpired⟩ := List.mem_filter.mp hmember
  obtain ⟨hstatus, hdeadline, -⟩ := of_decide_eq_true hexpired
  have hlookup : s.server.memberOf roomId userId = some member := by
    unfold Server.memberOf
    rw [Dict.mem_entries_iff.mp hroom]
    exact Dict.mem_entries_iff.mp hentry
  -- the entry was read off the deadline, which was set when the member went
  intro m hm
  obtain rfl : member = m := Option.some.inj (hlookup.symm.trans hm)
  obtain ⟨time, hsince, -, hgrace⟩ := h roomId userId member hlookup hstatus
  obtain ⟨deadline, hsome, hpast⟩ := (Option.any_eq_true _ _).mp hdeadline
  exact ⟨hstatus, time, hsince, (hgrace deadline hsome).trans (of_decide_eq_true hpast)⟩

/-! ### Forfeits are due -/

/-- The forfeit of an overdue entry is due. -/
theorem forfeitOf_due {entry : RoomId × UserId} {raised : Bool}
    (h : ForfeitOutcome cfg env entry.1 entry.2 s.server raised t)
    (hoverdue : isRunning s.server entry.1 → Overdue s env.now entry) :
    ∀ f ∈ forfeitOf s env entry t, f.Due := by
  intro f hf
  unfold forfeitOf at hf
  split at hf
  · next before ended hbefore hended =>
    split at hf
    · next hover =>
      obtain ⟨winner, hwinner, rfl⟩ := Option.map_eq_some_iff.mp hf
      cases h with
      | idle | nameRaises =>
        obtain rfl : before = ended := Option.some.inj (hbefore.symm.trans hended)
        exact absurd (hover.1.symm.trans hover.2) nofun
      | forfeited engine won raised t hengine hrunning _ hwon h =>
        obtain rfl : engine = before := Option.some.inj (hengine.symm.trans hbefore)
        -- the attempt to apply the result leaves the engine as the forfeit has made it
        have hended' : t.engines.get? entry.1 = some (engine.forceForfeit won) := by
          rw [h.frame.engines]
          exact Dict.get?_set_self _ _ _
        obtain rfl : ended = engine.forceForfeit won :=
          Option.some.inj (hended.symm.trans hended')
        have hwinner' : (engine.forceForfeit won).winner = some won := by
          unfold GameEngine.forceForfeit
          rw [hrunning]
          rfl
        obtain rfl : winner = won := Option.some.inj (hwinner.symm.trans hwinner')
        obtain ⟨m, hm, hrole⟩ := member_of_forfeitWinner hwon
        have hrunning' : isRunning s.server entry.1 = true := by
          unfold isRunning
          rw [hbefore, Option.any_some, hrunning]
          rfl
        obtain ⟨hstatus, hgrace⟩ := hoverdue hrunning' m hm
        exact ⟨⟨m, hm, hstatus, hrole⟩, hgrace⟩
    · cases hf
  · cases hf

/-- The loop from a list whose entries are due unless the user has come back. -/
theorem inv_turn (hsince : SinceInv s) (hdue : ∀ f ∈ s.forfeits, f.Due) (hnow : s.now ≤ env.now)
    {entries : List (RoomId × UserId)}
    (hpending : ∀ e ∈ entries, e ∉ s.returned → Overdue s env.now e)
    (hhead : ∀ e rest, entries = e :: rest → isRunning s.server e.1 → e ∉ s.returned) :
    OverdueInv (turn cfg env s entries) := by
  cases entries with
  | nil =>
    refine ⟨fun r u m hm hstatus => ?_, nofun, hdue⟩
    obtain ⟨time, htime, hle, hdeadline⟩ := hsince r u m hm hstatus
    exact ⟨time, htime, hle.trans hnow, hdeadline⟩
  | cons entry rest =>
    have hoverdue : isRunning s.server entry.1 → Overdue s env.now entry := fun hrunning =>
      hpending entry List.mem_cons_self (hhead entry rest rfl hrunning)
    have hspec := forceForfeit_cases cfg env entry.1 entry.2 s.server
    have hforfeits : ∀ {t : Server} {raised : Bool},
        ForfeitOutcome cfg env entry.1 entry.2 s.server raised t →
        ∀ f ∈ (forfeited s env entry t).forfeits, f.Due := by
      intro t raised h f hf
      rcases List.mem_append.mp hf with hold | hnew
      · exact hdue f hold
      · exact forfeitOf_due h hoverdue f (Option.mem_toList.mp hnew)
    have hchange : ∀ {t : Server} {raised : Bool},
        ForfeitOutcome cfg env entry.1 entry.2 s.server raised t →
        MembersChange env.now (fun _ _ => False) s.server t := by
      intro t raised h r u
      rw [forfeit_memberOf h]
      exact .kept _
    -- a forfeit that returns is followed by an await, one that raises ends the loop
    unfold wp at hspec
    rw [turn]
    split
    · next t hrun =>
      rw [hrun] at hspec
      refine ⟨hsince.observe hnow (hchange hspec), ?_, hforfeits hspec⟩
      rintro _ _ ⟨⟩ e he hreturned
      exact (hpending e (List.mem_cons_of_mem _ he) hreturned).observe (le_refl _)
        (hchange hspec e.1 e.2) nofun
    · next t hrun =>
      rw [hrun] at hspec
      exact ⟨hsince.observe hnow (hchange hspec), nofun, hforfeits hspec⟩

/-- What holds at every await is kept by every step, if the loop comes to nobody who is back. -/
theorem inv_step (h : OverdueInv s) {i : Input} (hpossible : Possible s i) (hnotBack : NotBack s i) :
    OverdueInv (step cfg s i) := by
  cases i with
  | outside env event =>
    obtain ⟨hnow, houtside⟩ := hpossible
    have hchange := outside_membersChange cfg env houtside s.server
    refine ⟨h.since.observe hnow hchange, fun entry rest hphase e he hreturned => ?_, h.due⟩
    have hold : e ∉ s.returned := fun hmem => hreturned (List.mem_append_left _ hmem)
    refine (h.pending entry rest hphase e he hold).observe hnow (hchange e.1 e.2) fun hback => ?_
    -- an entry that is CONNECTED now is among those that have come back
    by_contra hisBack
    rw [Bool.not_eq_false] at hisBack
    exact hreturned (List.mem_append_right _ (List.mem_filter.mpr ⟨hback, hisBack⟩))
  | loop action =>
    obtain ⟨hphase, hwrite, henabled⟩ := hpossible
    have hchange : MembersChange s.now (fun _ _ => True) s.server (action.apply s.server) := by
      have hacts : Acts (fun a => a = action) s.server (action.apply s.server) :=
        Acts.single rfl henabled
      refine acts_membersChange hacts ?_ fun _ _ _ _ => trivial
      rintro roomId userId f rfl
      exact hwrite
    refine ⟨h.since.observe (le_refl _) hchange, fun entry rest hforfeiting => ?_, h.due⟩
    exact absurd (hphase.symm.trans hforfeiting) nofun
  | grace env =>
    unfold step
    cases hphase : s.phase with
    | elsewhere =>
      exact inv_turn (s := { s with returned := [] }) h.since h.due hpossible
        (fun e he _ => overdue_of_expired (s := { s with returned := [] }) h.since he)
        (fun _ _ _ _ => List.not_mem_nil)
    | forfeiting entry rest => exact h
  | resume env =>
    unfold step
    cases hphase : s.phase with
    | elsewhere => exact h
    | forfeiting entry rest =>
      -- the deadline of the entry that was forfeited is dropped before the next one
      have hchange : MembersChange env.now (fun _ _ => False) s.server (cleared s.server entry) := by
        intro r u
        have hread : (cleared s.server entry).memberOf r u =
            (s.server.modifyMember entry.1 entry.2 fun member =>
              { member with disconnectDeadline := none }).memberOf r u := memberOf_of_rooms rfl
        rw [hread, memberOf_modifyMember]
        split
        · next hentry =>
          obtain ⟨rfl, rfl⟩ := hentry
          cases s.server.memberOf entry.1 entry.2 with
          | none => exact .kept _
          | some m => exact .cleared m
        · exact .kept _
      refine inv_turn (h.since.observe hpossible hchange) h.due (le_refl _) ?_ ?_
      · intro e he hreturned
        exact (h.pending entry rest hphase e he hreturned).observe hpossible (hchange e.1 e.2) nofun
      · rintro e rest' rfl hrunning
        unfold NotBack at hnotBack
        rw [hphase] at hnotBack
        exact hnotBack hrunning

theorem inv_start (users : Dict UserId User) (games : Dict RoomId GameResult) (now : ℚ) :
    OverdueInv (start users games now) :=
  ⟨fun _ _ _ => nofun, nofun, fun _ => nofun⟩

/-- **A player who is back is never forfeited**, as long as the loop comes to no entry whose user
has come back since the list was computed. -/
theorem forfeits_due (cfg : Config) (users : Dict UserId User) (games : Dict RoomId GameResult)
    (now : ℚ) {inputs : List Input}
    (hrun : Run.Guarded (step cfg) (fun s i _ => Possible s i ∧ NotBack s i)
      (start users games now) inputs) :
    ∀ f ∈ (inputs.foldl (step cfg) (start users games now)).forfeits, f.Due := by
  have hinv := Run.Guarded.invariant (P := fun s _ => OverdueInv s)
    (fun s i _ h hok => inv_step h hok.1 hok.2) hrun (inv_start users games now)
  exact hinv.due

end Invariant

/-! ### Two runs

Alice and Bob play in one room and Carla waits in another. When Alice has been away for the
grace, so has Carla, or nearly. -/

/-- A third user, who waits in a room of her own. -/
def carla : UserId := { text := "carla" }

/-- Her room. -/
def carlasRoom : RoomId := { text := "b7c8d9" }

/-- The outside world at a time of its own. -/
def envAt (now : ℚ) : Env :=
  { Small.env ["wR bK"] with
    now := now
    tokenHex := fun userId => if userId = carla then carlasRoom else Small.room }

/-- The server, with the three users registered. -/
def threeUsers : Runtime :=
  start (Small.start.users.set carla ⟨carla, "Carla", 1200⟩) Dict.empty 0

/-- Alice leaves at time 0 and Carla at time 1. -/
def bothLeave : List Input :=
  [.outside (envAt 0) (.createRoom Small.alice),
    .outside (envAt 0) (.joinRoom Small.bob Small.room),
    .outside (envAt 0) (.createRoom carla),
    .outside (envAt 0) (.clientDisconnected Small.alice),
    .outside (envAt 1) (.clientDisconnected carla)]

/-- At time 20 Alice is on the list and Carla is not. -/
def aliceForfeited : List Input := bothLeave ++ [.grace (envAt 20)]

/-- Alice stays away, and her forfeit is due. -/
theorem forfeits_due_alice :
    (∀ f ∈ (aliceForfeited.foldl (step Small.config) threeUsers).forfeits, f.Due) ∧
      (aliceForfeited.foldl (step Small.config) threeUsers).forfeits.map Forfeit.loser =
        [Small.alice] := by
  refine ⟨forfeits_due Small.config _ _ _ ?_, by decide +kernel⟩
  exact ⟨⟨⟨by decide +kernel, trivial⟩, trivial⟩,
    ⟨⟨by decide +kernel, trivial⟩, trivial⟩,
    ⟨⟨by decide +kernel, trivial⟩, trivial⟩,
    ⟨⟨by decide +kernel, trivial⟩, trivial⟩,
    ⟨⟨by decide +kernel, trivial⟩, trivial⟩,
    ⟨show _ ≤ _ from by decide +kernel, trivial⟩, trivial⟩

/-- At time 21 both are on the list. While the forfeit of Alice is awaited, Carla logs in. -/
def backInTime : List Input :=
  bothLeave ++ [.grace (envAt 21), .outside (envAt 22) (.reconnect carla), .resume (envAt 22)]

/-- Carla comes back while Alice's forfeit is awaited, and is forfeited though she is there. -/
theorem not_due_backInTime :
    Run.Guarded (step Small.config) (fun s i _ => Possible s i) threeUsers backInTime ∧
      ¬ ∀ f ∈ (backInTime.foldl (step Small.config) threeUsers).forfeits, f.Due := by
  constructor
  · exact ⟨⟨by decide +kernel, trivial⟩, ⟨by decide +kernel, trivial⟩,
      ⟨by decide +kernel, trivial⟩, ⟨by decide +kernel, trivial⟩,
      ⟨by decide +kernel, trivial⟩, show _ ≤ _ from by decide +kernel,
      ⟨by decide +kernel, trivial⟩, show _ ≤ _ from by decide +kernel, trivial⟩
  · -- Carla's forfeit is of a member who is connected
    intro hdue
    have hconnected : ∃ f ∈ (backInTime.foldl (step Small.config) threeUsers).forfeits,
        f.loser = carla ∧ f.member.map RoomMember.status = some .connected := by decide +kernel
    obtain ⟨f, hf, -, hstatus⟩ := hconnected
    obtain ⟨member, hmember, hgone, -⟩ := (hdue f hf).gone
    rw [hmember, Option.map_some, hgone] at hstatus
    exact absurd hstatus (by decide)

/-! ### The machine and the loop of the service -/

section Loop

variable {cfg : Config} {env : Env}

/-- A piece of the loop between two awaits, made of such writes, is a run of the machine. -/
theorem segment_run {α : Type} {x : ServerM α} (hx : Does LoopWrite x) (s : Runtime)
    (hphase : s.phase = .elsewhere) :
    ∃ inputs, Run.Guarded (step cfg) (fun s i _ => Possible s i) s inputs ∧
      (inputs.foldl (step cfg) s).server = after x s.server := by
  have hacts : Acts LoopWrite s.server (after x s.server) := wp_iff_after.mp (hx.wp s.server)
  generalize after x s.server = t at hacts ⊢
  generalize hserver : s.server = s₀ at hacts
  induction hacts using Relation.ReflTransGen.head_induction_on generalizing s with
  | refl => exact ⟨[], trivial, hserver⟩
  | head hstep _ ih =>
    obtain ⟨a, hwrite, henabled, rfl⟩ := hstep
    subst hserver
    obtain ⟨inputs, hrun, hend⟩ := ih (step cfg s (.loop a)) hphase rfl
    exact ⟨.loop a :: inputs, ⟨⟨hphase, hwrite, henabled⟩, hrun⟩, hend⟩

/-- The three pieces of the loop between two awaits are made of such writes. -/
theorem matchmakingTick_loopWrite : Does LoopWrite (ServerRuntime.matchmakingTick cfg env) :=
  matchmakingTick_does (fun _ => trivial) (fun _ => trivial) (fun _ _ => trivial)
    (fun _ _ => trivial) fun _ => trivial

theorem tickRoom_loopWrite (roomId : RoomId) : Does LoopWrite (tickRoom cfg env roomId) :=
  tickRoom_does (fun _ => trivial) (fun _ => trivial) (fun _ _ _ => trivial) trivial

theorem sendCountdown_loopWrite (entry : RoomId × UserId × Int) :
    Does LoopWrite (ServerRuntime.sendCountdown env entry) :=
  sendCountdown_does (fun _ => trivial) entry

/-- A loop that an exception has left does nothing more. -/
theorem foldl_resume_elsewhere {s : Runtime} (hphase : s.phase = .elsewhere) (n : ℕ) :
    (List.replicate n (Input.resume env)).foldl (step cfg) s = s := by
  have hstep : step cfg s (.resume env) = s := by
    unfold step
    rw [hphase]
  induction n with
  | zero => rfl
  | succ n ih =>
    rw [List.replicate_succ, List.foldl_cons, hstep]
    exact ih

/-- From a list on, the machine forfeits one entry after the other, as the loop does. -/
theorem foldl_turn (entries : List (RoomId × UserId)) (s : Runtime) :
    ((List.replicate entries.length (.resume env)).foldl (step cfg) (turn cfg env s entries)).server =
      after (entries.forM (ServerRuntime.forfeitExpired cfg env)) s.server := by
  induction entries generalizing s with
  | nil => rfl
  | cons entry rest ih =>
    change _ = after (ServerRuntime.forfeitExpired cfg env entry >>= fun _ =>
      rest.forM (ServerRuntime.forfeitExpired cfg env)) s.server
    rw [turn]
    split
    · next t hrun =>
      -- both go on without the deadline of the entry
      have hpass : after (ServerRuntime.forfeitExpired cfg env entry >>= fun _ =>
          rest.forM (ServerRuntime.forfeitExpired cfg env)) s.server =
          after (rest.forM (ServerRuntime.forfeitExpired cfg env)) (cleared t entry) := by
        unfold ServerRuntime.forfeitExpired after
        simp only [bind, EStateM.bind, hrun]
        rfl
      rw [hpass]
      exact ih (observe _ env.now (cleared t entry))
    · next t hrun =>
      have hpass : after (ServerRuntime.forfeitExpired cfg env entry >>= fun _ =>
          rest.forM (ServerRuntime.forfeitExpired cfg env)) s.server = t := by
        unfold ServerRuntime.forfeitExpired after
        simp only [bind, EStateM.bind, hrun]
      -- the loop has been left
      rw [hpass, foldl_resume_elsewhere rfl]
      rfl

/-- **Nobody calls in between:** the machine leaves the state that the loop of
`_process_disconnect_grace` leaves. -/
theorem undisturbed_grace {s : Runtime} (hphase : s.phase = .elsewhere) :
    ((Input.grace env :: List.replicate (expiredDisconnects s.server env.now).length (.resume env)).foldl
        (step cfg) s).server =
      after ((expiredDisconnects s.server env.now).forM (ServerRuntime.forfeitExpired cfg env))
        s.server := by
  have hstep : step cfg s (.grace env) =
      turn cfg env { s with returned := [] } (expiredDisconnects s.server env.now) := by
    unfold step
    rw [hphase]
  rw [List.foldl_cons, hstep]
  exact foldl_turn _ { s with returned := [] }

end Loop

end AwaitedGrace

end KungFuChess
