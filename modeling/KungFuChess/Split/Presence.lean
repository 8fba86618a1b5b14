import KungFuChess.Library.Run
import KungFuChess.Split.Gateway
import KungFuChess.Split.StatusCalls

/-!
# Who is connected, and what the shards think

A shard should have a player CONNECTED exactly when the gateway has a connection bound to the
user, as soon as nothing is in flight (`Gateway.Agrees`). A status is `Due` if it is the true
one, or the command that tells the other one is on its way; when every status is due, the
shards agree with the registry in every quiet state. `InStep` says which steps keep it so:

* an `auth` does not take a socket over from another user;
* the look-ups of `on_disconnect` and `reconnect` lead to every shard that has to be told;
* a shard writes a status, or gives a seat, when that status is due.

The code ensures none of the three. `on_disconnect` sends nothing when the directory has no
shard for the user, and a match seats its two users whenever the event is taken
(`not_agrees_gone`); and the worker thread may push a `player_disconnected` after the
`player_reconnect` of a user who is back.
-/

namespace KungFuChess

open Cluster

namespace Gateway

/-! ### What is due -/

/-- A `login` or an `auth` of the user has been accepted and waits for the shard. -/
def LoggingIn (g : Gateway) (userId : UserId) : Prop :=
  ∃ ws session requestId, g.task = .session ws session requestId ∧ session.userId = userId

/-- The user is connected, or about to be. -/
def Here (g : Gateway) (userId : UserId) : Prop := g.Present userId ∨ g.LoggingIn userId

/-- This is the true status of the user. -/
def Stands (g : Gateway) (userId : UserId) : ConnectionStatus → Prop
  | .connected => g.Here userId
  | .disconnected => ¬ g.Here userId

/-- The status is the true one, or the shard may still be told the other. -/
def Due (g : Gateway) (shardId : String) (userId : UserId) (status : ConnectionStatus) : Prop :=
  g.Stands userId status ∨ g.cluster.Coming (.telling userId status.other) shardId

/-- The step keeps what the shards know in step with the registry. -/
structure InStep (cfg : ClusterConfig) (g : Gateway) (i : Input) : Prop where
  own : ∀ ws session, i = .auth ws session →
    ∀ owner, g.registry.userOf ws = some owner → owner = session.userId
  /-- A look-up about a user leads to every shard where he is a player with the other status,
  unless the command is in the queue of that shard already. -/
  finds : ∀ n u status phase, i = .cluster (.advance n) →
    g.cluster.calls[n]? = some ⟨.telling u (ConnectionStatus.other status), phase⟩ →
      ∀ id ∈ cfg.shards.shardIds, ∀ r role, g.cluster.HasSeat id r u role status →
        g.cluster.LeadsTo u id phase ∨
          ∃ m, (m, (Request.telling u status.other).command) ∈ (g.cluster.shards id).commands
  writes : ∀ input, i = .cluster input → ∀ id ∈ cfg.shards.shardIds, ∀ r u status,
    g.cluster.Writes input id r u status → g.Due id u status

/-! ### The registry -/

/-- The registry is consistent, and the socket of a session is still free for its user. -/
structure SocketInv (g : Gateway) : Prop where
  wellFormed : g.registry.WellFormed
  consistent : g.registry.Consistent
  session : ∀ ws session requestId, g.task = .session ws session requestId →
    ws ∈ g.registry.byWs ∧ ∀ owner, g.registry.userOf ws = some owner → owner = session.userId

section Sockets

variable {cfg : ClusterConfig} {g : Gateway} {i : Input} {u : UserId} {ws : WebSocket}

/-- In a consistent registry the map of the users says who is connected. -/
theorem present_iff (h : g.registry.Consistent) :
    g.Present u ↔ g.registry.byUser.get? u ≠ none := by
  rw [Option.ne_none_iff_exists']
  exact exists_congr fun ws => (h.entry_iff u ws).symm

theorem socketInv_start (users : Dict UserId User) (games : Dict RoomId GameResult) :
    SocketInv (start users games) :=
  ⟨nofun, ConnectionRegistry.consistent_empty, nofun⟩

/-- A session begins on a socket that is free for its user. -/
theorem SocketInv.beginSession (h : SocketInv g) {session : Session} (hws : ws ∈ g.registry.byWs)
    (hfree : ∀ owner, g.registry.userOf ws = some owner → owner = session.userId) :
    SocketInv (g.beginSession cfg ws session) := by
  refine ⟨h.wellFormed, h.consistent, ?_⟩
  rintro ws' session' requestId ⟨⟩
  exact ⟨hws, hfree⟩

/-- A socket that closes loses its entry, and its user with it. -/
theorem SocketInv.closed (h : SocketInv g) (hidle : g.task = .idle) :
    SocketInv (g.closed cfg ws) := by
  have hremove : (g.registry.remove ws).WellFormed :=
    ConnectionRegistry.wellFormed_step h.wellFormed (.close ws)
  unfold Gateway.closed
  split
  · refine ⟨hremove, h.consistent.remove, ?_⟩
    intro ws' session requestId htask
    exact absurd (hidle.symm.trans htask) nofun
  · exact ⟨hremove, h.consistent.remove, nofun⟩

/-- A session that goes on leaves the tables consistent. -/
theorem SocketInv.resumed (h : SocketInv g) : SocketInv g.resumed := by
  unfold Gateway.resumed
  split
  · next ws session requestId htask =>
    obtain ⟨hws, hfree⟩ := h.session ws session requestId htask
    refine ⟨ConnectionRegistry.wellFormed_applySession h.wellFormed, ?_, nofun⟩
    change (g.registry.applySession ws session.outcome).Consistent
    rw [session.applySession]
    exact (ConnectionRegistry.consistent_bindUser_iff h.consistent hws
      (h.wellFormed ws hws)).mpr hfree
  · exact ⟨h.wellFormed, h.consistent, nofun⟩
  · exact ⟨h.wellFormed, h.consistent, nofun⟩

/-- **The registry stays consistent.** -/
theorem socketInv_step (h : SocketInv g) (hstep : InStep cfg g i) :
    SocketInv (g.step cfg i) := by
  have houtcome := step_outcome cfg g i
  generalize g.step cfg i = g' at houtcome ⊢
  cases houtcome with
  | ignored => exact h
  | accepted hidle =>
    refine ⟨ConnectionRegistry.wellFormed_step h.wellFormed .accept, h.consistent.add, ?_⟩
    intro ws session requestId htask
    exact absurd (hidle.symm.trans htask) nofun
  | loggedIn ws session _ hws hfree =>
    -- the socket of a login is bound to nobody
    refine h.beginSession hws fun owner howner => ?_
    unfold ConnectionRegistry.authenticated at hfree
    rw [howner] at hfree
    cases hfree
  | authed ws session _ hws => exact h.beginSession hws (hstep.own ws session rfl)
  | requested => exact ⟨h.wellFormed, h.consistent, nofun⟩
  | closed ws hidle => exact h.closed hidle
  | resumed => exact h.resumed
  | stepped => exact ⟨h.wellFormed, h.consistent, h.session⟩

end Sockets

/-! ### Who comes and who goes -/

/-- Who leaves is reported to every shard that the look-ups may lead to, and so is who comes. -/
structure Reported (g g' : Gateway) (u : UserId) : Prop where
  leaves : g.Here u → g'.Here u ∨ ∀ id, g'.cluster.Coming (.onDisconnect u) id
  comes : g'.Here u → g.Here u ∨ ∀ id, g'.cluster.Coming (.reconnect u) id

section Reports

variable {cfg : ClusterConfig} {g g' : Gateway} {i : Input} {u : UserId} {ws : WebSocket}
  {id : String} {r : RoomId} {role : PlayerRole} {status : ConnectionStatus}

theorem Reported.of_iff (h : g'.Here u ↔ g.Here u) : Reported g g' u :=
  ⟨fun hhere => Or.inl (h.mpr hhere), fun hhere => Or.inl (h.mp hhere)⟩

/-- A status that stands goes on standing, or the other is on its way to every shard. -/
theorem Reported.stands (h : Reported g g' u) (hstands : g.Stands u status) :
    g'.Stands u status ∨ ∀ id, g'.cluster.Coming (.telling u status.other) id := by
  cases status with
  | connected => exact h.leaves hstands
  | disconnected =>
    by_cases hhere : g'.Here u
    · exact Or.inr ((h.comes hhere).resolve_left hstands)
    · exact Or.inl hhere

theorem noLogin_of_idle (h : g.task = .idle) : g.NoLogin := by
  intro ws session requestId htask
  exact absurd (h.symm.trans htask) nofun

theorem noLogin_of_handler {requestId : Nat} (h : g.task = .handler requestId) : g.NoLogin := by
  intro ws session requestId htask
  exact absurd (h.symm.trans htask) nofun

/-- Nobody is being let in. -/
theorem here_iff (h : g.NoLogin) : g.Here u ↔ g.Present u := by
  refine ⟨fun hhere => hhere.resolve_right ?_, Or.inl⟩
  rintro ⟨ws, session, requestId, htask, -⟩
  exact h ws session requestId htask

/-- The loop at rest, where somebody is depends on the registry and the task only. -/
theorem here_of_registry (hregistry : g'.registry = g.registry) (htask : g'.task = g.task) :
    g'.Here u ↔ g.Here u := by
  unfold Here Present LoggingIn
  rw [hregistry, htask]

/-- Who begins to log in is here from now on, and the shard will be told. -/
theorem reported_beginSession (hidle : g.task = .idle) (session : Session) :
    Reported g (g.beginSession cfg ws session) u where
  leaves hhere := by
    have hpresent : g.Present u := (here_iff (noLogin_of_idle hidle)).mp hhere
    exact Or.inl (Or.inl hpresent)
  comes hhere := by
    rcases hhere with hpresent | ⟨_, _, _, htask, rfl⟩
    · exact Or.inl (Or.inl hpresent)
    · cases htask
      exact Or.inr (coming_call cfg g.cluster (.reconnect session.userId))

/-- Removing a socket takes the entry of its user away, if the entry is the socket's own. -/
theorem byUser_remove (reg : ConnectionRegistry) (ws : WebSocket) :
    (reg.remove ws).byUser.get? u =
      if ws ∈ reg.byWs ∧ reg.entryOf ws = some u then none else reg.byUser.get? u := by
  unfold ConnectionRegistry.remove
  by_cases hws : ws ∈ reg.byWs
  · rw [if_pos hws]
    cases hentry : reg.entryOf ws with
    | none => simp
    | some owner =>
      dsimp only
      rw [Dict.get?_pop]
      -- only the user whose entry the socket holds is dropped
      by_cases hu : u = owner
      · rw [if_pos hu, if_pos ⟨hws, congrArg some hu.symm⟩]
      · rw [if_neg hu, if_neg fun h => hu (Option.some.inj h.2).symm]
  · rw [if_neg hws, if_neg fun h => hws h.1]

/-- **Who closes their socket is reported.** -/
theorem reported_closed (h : SocketInv g) (hidle : g.task = .idle) :
    Reported g (g.closed cfg ws) u := by
  have hnone : g.NoLogin := noLogin_of_idle hidle
  have hnone' : (g.closed cfg ws).NoLogin := by
    unfold closed
    split
    · exact hnone
    · exact noLogin_of_handler rfl
  have hregistry : (g.closed cfg ws).registry = g.registry.remove ws := by
    unfold closed
    split <;> rfl
  have hconsistent : (g.closed cfg ws).registry.Consistent := by
    rw [hregistry]
    exact h.consistent.remove
  have hpresent : (g.closed cfg ws).Here u ↔
      (if ws ∈ g.registry.byWs ∧ g.registry.entryOf ws = some u then none
        else g.registry.byUser.get? u) ≠ none := by
    rw [here_iff hnone', present_iff hconsistent, hregistry, byUser_remove]
  refine ⟨fun hhere => ?_, fun hhere => Or.inl ?_⟩
  · rw [here_iff hnone, present_iff h.consistent] at hhere
    rw [hpresent]
    split
    · next hentry =>
      -- the socket of the user: the loop calls `on_disconnect`
      obtain ⟨howner, -⟩ := Option.filter_eq_some_iff.mp hentry.2
      have hclosed : (g.closed cfg ws).cluster =
          (g.cluster.step cfg (.matchmaker (.cancel u))).step cfg (.call (.onDisconnect u)) := by
        unfold closed
        rw [howner]
        rfl
      rw [hclosed]
      exact Or.inr (coming_call cfg _ (.onDisconnect u))
    · exact Or.inl hhere
  · rw [here_iff hnone, present_iff h.consistent]
    rw [hpresent] at hhere
    split at hhere
    · exact absurd rfl hhere
    · exact hhere

/-- Who has been let in was here already, while the loop waited. -/
theorem reported_resumed (h : SocketInv g) : Reported g g.resumed u := by
  refine .of_iff ?_
  have hconsistent := h.resumed.consistent
  cases htask : g.task with
  | session ws session requestId =>
    have hresumed : g.resumed =
        { g with registry := g.registry.applySession ws session.outcome, task := .idle } := by
      unfold resumed
      rw [htask]
    have hlogging : g.LoggingIn u ↔ u = session.userId := by
      unfold LoggingIn
      rw [htask]
      constructor
      · rintro ⟨_, _, _, ⟨⟩, rfl⟩
        rfl
      · -- what is awaited is the session of this user and of no other
        rintro rfl
        exact ⟨ws, session, requestId, rfl, rfl⟩
    rw [here_iff (noLogin_of_idle (by rw [hresumed])), present_iff hconsistent, hresumed]
    unfold Here
    rw [hlogging, present_iff h.consistent]
    dsimp only
    rw [session.applySession, ConnectionRegistry.byUser_bindUser]
    -- who was being let in is bound now, and nobody else
    by_cases hu : u = session.userId <;> simp [hu]
  | idle =>
    rw [here_iff (noLogin_of_idle htask),
      here_iff (noLogin_of_idle (by unfold resumed; rw [htask]))]
    unfold resumed
    rw [htask]
    rfl
  | handler =>
    rw [here_iff (noLogin_of_handler htask),
      here_iff (noLogin_of_idle (by unfold resumed; rw [htask]))]
    unfold resumed
    rw [htask]
    rfl

/-- **Who comes or goes is reported.** -/
theorem reported_step (h : SocketInv g) (u : UserId) : Reported g (g.step cfg i) u := by
  have houtcome := step_outcome cfg g i
  generalize g.step cfg i = g' at houtcome ⊢
  -- only an event of the loop changes who is here
  cases houtcome with
  | ignored => exact .of_iff Iff.rfl
  | accepted hidle =>
    have hadd : ({ g with registry := g.registry.add } : Gateway).NoLogin :=
      noLogin_of_idle hidle
    refine .of_iff ?_
    rw [here_iff hadd, here_iff (noLogin_of_idle hidle), present_iff h.consistent.add,
      present_iff h.consistent]
    rfl
  | loggedIn ws session hidle => exact reported_beginSession hidle session
  | authed ws session hidle => exact reported_beginSession hidle session
  -- another message leaves the sockets as they are
  | requested ws request hidle =>
    refine .of_iff ?_
    rw [here_iff (noLogin_of_handler rfl), here_iff (noLogin_of_idle hidle)]
    rfl
  | closed ws hidle => exact reported_closed h hidle
  | resumed => exact reported_resumed h
  | stepped => exact .of_iff (here_of_registry rfl rfl)

/-! ### Commands and seats -/

/-- A step that the event loop itself makes: it begins a call, or writes to the queue of the
matchmaker. -/
def ByLoop (input : KungFuChess.Input) : Prop := input.shardId? = none ∧ ∀ n, input ≠ .advance n

/-- What an input does to the deployment: a step of another process or of a call that goes on,
or some steps of the event loop. -/
theorem cluster_step (cfg : ClusterConfig) (g : Gateway) (i : Input) :
    (∃ input, i = .cluster input ∧ (g.step cfg i).cluster = g.cluster.step cfg input) ∨
      (∀ id env, i ≠ .cluster (.execute id env)) ∧
        ∃ inputs : List KungFuChess.Input, (∀ input ∈ inputs, ByLoop input) ∧
          (g.step cfg i).cluster = inputs.foldl (Cluster.step cfg) g.cluster := by
  have hkept : ∃ inputs : List KungFuChess.Input, (∀ input ∈ inputs, ByLoop input) ∧
      g.cluster = inputs.foldl (Cluster.step cfg) g.cluster := ⟨[], nofun, rfl⟩
  have hcall : ∀ request : Request, ∃ inputs : List KungFuChess.Input,
      (∀ input ∈ inputs, ByLoop input) ∧
        -- most inputs begin at most one call
        g.cluster.step cfg (.call request) = inputs.foldl (Cluster.step cfg) g.cluster := by
    refine fun request => ⟨[.call request], ?_, rfl⟩
    intro input hinput
    cases List.mem_singleton.mp hinput
    exact ⟨rfl, nofun⟩
  have houtcome := step_outcome cfg g i
  generalize g.step cfg i = g' at houtcome ⊢
  cases houtcome with
  | ignored _ hcluster =>
    refine Or.inr ⟨?_, hkept⟩
    rintro id env rfl
    obtain ⟨request, hrequest⟩ := hcluster _ rfl
    cases hrequest
  | accepted => exact Or.inr ⟨nofun, hkept⟩
  | loggedIn => exact Or.inr ⟨nofun, hcall _⟩
  | authed => exact Or.inr ⟨nofun, hcall _⟩
  | requested => exact Or.inr ⟨nofun, hcall _⟩
  | closed ws =>
    unfold closed
    split
    · exact Or.inr ⟨nofun, hkept⟩
    · next userId _ =>
      -- the search is cancelled, and `on_disconnect` begins
      refine Or.inr ⟨nofun, [.matchmaker (.cancel userId), .call (.onDisconnect userId)], ?_, rfl⟩
      intro input hinput
      rcases List.mem_cons.mp hinput with rfl | hinput
      · exact ⟨rfl, nofun⟩
      · cases List.mem_singleton.mp hinput
        exact ⟨rfl, nofun⟩
  | resumed =>
    unfold resumed
    split <;> exact Or.inr ⟨nofun, hkept⟩
  | stepped input => exact Or.inl ⟨input, rfl, rfl⟩

/-- Steps of the loop let a command come. -/
theorem coming_foldl {c : Cluster} (inputs : List KungFuChess.Input)
    (hinputs : ∀ input ∈ inputs, ByLoop input) (h : c.Coming (.telling u status) id) :
    (inputs.foldl (Cluster.step cfg) c).Coming (.telling u status) id := by
  induction inputs generalizing c with
  | nil => exact h
  | cons input rest ih =>
    obtain ⟨hhandler, hadvance⟩ := hinputs input List.mem_cons_self
    exact ih (fun input hinput => hinputs input (List.mem_cons_of_mem _ hinput))
      (h.of_step hadvance hhandler)

/-- Steps of the loop write no seat. -/
theorem hasSeat_foldl {c : Cluster} (inputs : List KungFuChess.Input)
    (hinputs : ∀ input ∈ inputs, ByLoop input)
    (h : HasSeat (inputs.foldl (Cluster.step cfg) c) id r u role status) :
    HasSeat c id r u role status := by
  induction inputs generalizing c with
  | nil => exact h
  | cons input rest ih =>
    exact (ih (fun input hinput => hinputs input (List.mem_cons_of_mem _ hinput)) h).of_step
      (hinputs input List.mem_cons_self).1

/-- Every shard keeps its invariant of rooms. -/
theorem rooms_step (h : ∀ id, RoomInv (g.cluster.load id)) (id : String) :
    RoomInv ((g.step cfg i).cluster.load id) := by
  obtain ⟨input, -, hcluster⟩ | ⟨-, inputs, -, hcluster⟩ := cluster_step cfg g i
  · rw [hcluster]
    exact roomInv_step input h id
  · rw [hcluster]
    exact Run.stable (P := fun c => ∀ id, RoomInv (Cluster.load c id))
      (fun c input hc => roomInv_step input hc) h id

/-- A status that is due stays due until the shard is told the other, if the look-ups lead to the
shard. -/
theorem due_step (h : SocketInv g) (hdue : g.Due id u status)
    (hlook : ∀ n phase, i = .cluster (.advance n) →
      g.cluster.calls[n]? = some ⟨.telling u status.other, phase⟩ →
        g.cluster.LeadsTo u id phase ∨
          ∃ m, (m, (Request.telling u status.other).command) ∈ (g.cluster.shards id).commands) :
    (g.step cfg i).Due id u status ∨
      ∃ input, i = .cluster input ∧ g.cluster.Tells input id u status.other := by
  -- the status stands: either it goes on standing, or the other is reported
  rcases hdue with hstands | hcoming
  · have hreported : Reported g (g.step cfg i) u := reported_step h u
    rcases hreported.stands hstands with hstands | hcoming
    · exact Or.inl (Or.inl hstands)
    · exact Or.inl (Or.inr (hcoming id))
  · -- the command is on its way: it stays there, or the shard takes it
    obtain ⟨input, rfl, hcluster⟩ | ⟨-, inputs, hinputs, hcluster⟩ := cluster_step cfg g i
    · rcases coming_step cfg (i := input) hcoming fun n phase hi => hlook n phase (hi ▸ rfl) with
        hcoming | htells
      · rw [← hcluster] at hcoming
        exact Or.inl (Or.inr hcoming)
      · exact Or.inr ⟨input, rfl, htells⟩
    · refine Or.inl (Or.inr ?_)
      rw [hcluster]
      exact coming_foldl inputs hinputs hcoming

/-- The seats after an input. -/
theorem seat_step (hinv : RoomInv (g.cluster.load id))
    (h : HasSeat (g.step cfg i).cluster id r u role status) :
    HasSeat g.cluster id r u role status ∧
        (∀ input, i = .cluster input → ¬ g.cluster.Tells input id u status.other) ∨
      ∃ input, i = .cluster input ∧ g.cluster.Writes input id r u status := by
  obtain ⟨input, rfl, hcluster⟩ | ⟨hi, inputs, hinputs, hcluster⟩ := cluster_step cfg g i
  · -- a step of the cluster itself
    rw [hcluster] at h
    rcases hasSeat_step hinv h with ⟨hseat, huntold⟩ | hwrites
    · refine Or.inl ⟨hseat, ?_⟩
      rintro _ ⟨⟩
      exact huntold
    · exact Or.inr ⟨input, rfl, hwrites⟩
  · -- a tick of a service, which seats nobody
    rw [hcluster] at h
    refine Or.inl ⟨hasSeat_foldl inputs hinputs h, ?_⟩
    rintro input rfl ⟨env, n, rfl, -⟩
    exact hi id env rfl

end Reports

/-! ### The invariant -/

/-- The status of every player is due. -/
structure PresenceInv (cfg : ClusterConfig) (g : Gateway) : Prop where
  rooms : ∀ id, RoomInv (g.cluster.load id)
  sockets : SocketInv g
  due : ∀ id ∈ cfg.shards.shardIds, ∀ r u role status,
    HasSeat g.cluster id r u role status → g.Due id u status

section Invariant

variable {cfg : ClusterConfig} {g : Gateway} {i : Input} {id : String} {u : UserId}
  {status : ConnectionStatus}

/-- At the start no shard has a seat. -/
theorem presenceInv_start (cfg : ClusterConfig) (users : Dict UserId User)
    (games : Dict RoomId GameResult) : PresenceInv cfg (start users games) where
  rooms := roomInv_start users games
  sockets := socketInv_start users games
  due id _ r u role status h := by
    have hmapped := (roomInv_start users games id).standing_mapped h.standing
    exact absurd hmapped nofun

/-- **The invariant goes on** over a step that keeps in step. -/
theorem presenceInv_step (h : PresenceInv cfg g) (hstep : InStep cfg g i) :
    PresenceInv cfg (g.step cfg i) where
  rooms := rooms_step h.rooms
  sockets := socketInv_step h.sockets hstep
  due id hid r u role status hseat := by
    obtain ⟨hold, huntold⟩ | ⟨input, rfl, hwrites⟩ := seat_step (h.rooms id) hseat
    · -- the status is what it was, and the shard is not told the other
      have hlook := fun n phase hi hcall =>
        hstep.finds n u status phase hi hcall id hid r role hold
      refine (due_step h.sockets (h.due id hid r u role status hold) hlook).resolve_right ?_
      rintro ⟨input, hi, htells⟩
      exact huntold input hi htells
    · -- the status is written, and was due
      have hdue := hstep.writes input rfl id hid r u status hwrites
      refine (due_step h.sockets hdue ?_).resolve_right ?_
      · rintro n phase ⟨⟩
        exact absurd rfl (hwrites.not_advance n)
      · rintro ⟨_, ⟨⟩, htells⟩
        exact hwrites.not_tells_other htells

/-- In a quiet state no command is on its way. -/
theorem Quiet.not_coming (h : g.Quiet cfg) (hid : id ∈ cfg.shards.shardIds) (request : Request) :
    ¬ g.cluster.Coming request id := by
  rintro (⟨n, phase, hcall, hreach⟩ | ⟨n, hqueued⟩)
  · have hsent := h.calls _ (List.mem_of_getElem? hcall)
    cases phase with
    | begun | located | addressed => exact hsent
    | waiting | refused | returned => exact hreach
  · rw [h.commands id hid] at hqueued
    cases hqueued

/-- What is due in a quiet state is true. -/
theorem Quiet.stands (h : g.Quiet cfg) (hid : id ∈ cfg.shards.shardIds) (hdue : g.Due id u status) :
    status = .connected ↔ g.Present u := by
  have hstands := hdue.resolve_right (h.not_coming hid _)
  rw [← here_iff h.logins]
  cases status with
  | connected => exact iff_of_true rfl hstands
  | disconnected => exact iff_of_false nofun hstands

/-- **The shards agree with the registry in every quiet state** of a run whose steps keep in
step. -/
theorem agrees_of_inStep (cfg : ClusterConfig) (users : Dict UserId User)
    (games : Dict RoomId GameResult) {inputs : List Input}
    (hrun : Run.Guarded (step cfg) (fun g i _ => InStep cfg g i) (start users games) inputs) :
    (inputs.foldl (step cfg) (start users games)).Quiet cfg →
      (inputs.foldl (step cfg) (start users games)).Agrees cfg := by
  have hinv := Run.Guarded.invariant (P := fun g _ => PresenceInv cfg g)
    (fun g i _ h hstep => presenceInv_step h hstep) hrun (presenceInv_start cfg users games)
  intro hquiet id hid halive r u member hmember hplayer hrunning
  have hstanding := congrArg (Option.map fun member : RoomMember => (member.role, member.status))
    hmember
  exact hquiet.stands hid (hinv.due id hid r u member.role member.status
    ⟨halive, hstanding, hplayer, hrunning⟩)

end Invariant

/-! ### Two runs -/

section Runs

variable {cfg : ClusterConfig} {g : Gateway} {i : Input} {id : String} {env : Env} {n : Nat}

/-- A step that is no `auth`, no look-up and no handler of a shard. -/
theorem inStep_of_aside (hauth : ∀ ws session, i ≠ .auth ws session)
    (hadvance : ∀ n, i ≠ .cluster (.advance n))
    (hhandler : ∀ input, i = .cluster input → input.shardId? = none) : InStep cfg g i where
  own ws session hi := absurd hi (hauth ws session)
  finds n _ _ _ hi := absurd hi (hadvance n)
  writes input hi id _ r u status hwrites := by
    cases (hhandler input hi).symm.trans hwrites.shardId_eq

/-- A call that is about no user's connection goes on. -/
theorem inStep_of_otherCall (request : Request) (hne : ∀ u status, request ≠ .telling u status)
    (hcall : (g.cluster.calls[n]?).map GatewayCall.request = some request) :
    InStep cfg g (.cluster (.advance n)) where
  own := nofun
  finds m u status phase hi hcall' := by
    cases hi
    rw [hcall'] at hcall
    exact absurd (Option.some.inj hcall).symm (hne u status.other)
  writes input hi id _ r u status hwrites := by
    cases hi
    exact absurd rfl (hwrites.not_advance n)

/-- A call about a connection goes on, and finds every shard that has a room. -/
theorem inStep_of_lookup (u : UserId) (status : ConnectionStatus) (phase : CallPhase)
    (hcall : g.cluster.calls[n]? = some ⟨.telling u status, phase⟩)
    (hleads : ∀ id ∈ cfg.shards.shardIds, (g.cluster.load id).rooms.entries.isEmpty = false →
      g.cluster.LeadsTo u id phase) : InStep cfg g (.cluster (.advance n)) where
  own := nofun
  finds m v status' phase' hi hcall' id hid r role hseat := by
    cases hi
    obtain ⟨hrequest, rfl⟩ := GatewayCall.mk.inj (Option.some.inj (hcall.symm.trans hcall'))
    obtain ⟨rfl, -⟩ := Request.telling_injective (congrArg Request.command hrequest)
    refine Or.inl (hleads id hid ?_)
    -- a seat is in a room
    obtain ⟨member, hmember, -⟩ := Option.map_eq_some_iff.mp hseat.standing
    obtain ⟨room, hroom, -⟩ := Option.bind_eq_some_iff.mp hmember
    rw [List.isEmpty_eq_false_iff]
    exact List.ne_nil_of_mem (Dict.mem_entries_iff.mpr hroom)
  writes input hi id _ r u status hwrites := by
    cases hi
    exact absurd rfl (hwrites.not_advance n)

/-- The shard is told a status that is due. -/
theorem inStep_of_told (u : UserId) (status : ConnectionStatus)
    (hfirst : (g.cluster.shards id).commands.head?.map Prod.snd =
      some (Request.telling u status).command)
    (hdue : g.Due id u status) : InStep cfg g (.cluster (.execute id env)) where
  own := nofun
  finds m _ _ _ hi := by cases hi
  writes input hi id' _ r v status' hwrites := by
    cases hi
    cases hwrites with
    | told _ _ _ _ htells =>
      obtain ⟨_, m, hexecute, htells⟩ := htells
      cases hexecute
      rw [htells.first] at hfirst
      obtain ⟨rfl, rfl⟩ := Request.telling_injective (Option.some.inj hfirst)
      exact hdue
    | seated _ _ _ _ hseats =>
      have hseated := hseats.seats
      cases hseats.handles with
      | command _ _ _ _ _ _ hcommands hevent =>
        -- the command that is executed gives no seat
        rw [hcommands] at hfirst
        cases Option.some.inj hfirst
        cases status <;> cases hevent <;> exact hseated.elim

/-- A room is created for a user who is here. -/
theorem inStep_of_roomCreate (u : UserId)
    (hfirst : (g.cluster.shards id).commands.head?.map Prod.snd = some (.roomCreate u))
    (hhere : g.Here u) : InStep cfg g (.cluster (.execute id env)) where
  own := nofun
  finds m _ _ _ hi := by cases hi
  writes input hi id' _ r v status' hwrites := by
    cases hi
    -- the handler writes the status it is told, or seats somebody
    cases hwrites with
    | told _ _ _ _ htells =>
      obtain ⟨_, m, hexecute, htells⟩ := htells
      cases hexecute
      rw [htells.first] at hfirst
      cases status' <;> cases hfirst
    -- the only seat that is given is the creator's
    | seated _ _ _ _ hseats =>
      have hseated := hseats.seats
      cases hseats.handles with
      | command _ _ _ _ _ _ hcommands hevent =>
        rw [hcommands] at hfirst
        cases Option.some.inj hfirst
        cases hevent
        obtain ⟨rfl, -⟩ := hseated
        exact Or.inl hhere

/-- Alice and Bob may log in. -/
def aliceSession : Session where
  userId := Small.alice
  username := "Alice"
  elo := 1200
  token := "token of Alice"

/-- What `AuthService` answers for Bob. -/
def bobSession : Session where
  userId := Small.bob
  username := "Bob"
  elo := 1200
  token := "token of Bob"

/-- On a new socket a user logs in who is in no room. -/
def letIn (ws : WebSocket) (session : Session) (requestId : Nat) : List Input :=
  [.accept, .login ws session, .cluster (.advance requestId), .resume]

/-- The deployment before anybody has come. -/
def empty : Gateway := start Small.start.users Dict.empty

/-- Alice asks for a room, and the shard gives her one. -/
def playing : List Input :=
  letIn 0 aliceSession 0 ++
    ([.request 0 (.createRoom Small.alice), .cluster (.advance 1), .cluster (.advance 1)] ++
      [.cluster (.execute "game-server-1" (Small.env ["wK . bK"])),
        .cluster (.reply "game-server-1"), .cluster (.advance 1), .resume])

/-- She closes the socket, and the shard is told. -/
def leaving : List Input :=
  playing ++ ([.close 0, .cluster (.advance 2), .cluster (.advance 2), .resume,
    .cluster (.advance 2)] ++ [.cluster (.execute "game-server-1" (Small.env []))])

/-- Alice logs in and opens a room, and every step of it keeps in step. -/
theorem inStep_playing :
    Run.Guarded (step Small.cluster) (fun g i _ => InStep Small.cluster g i) empty playing := by
  have haside : ∀ {g : Gateway} {i : Input}, (∀ ws session, i ≠ .auth ws session) →
      (∀ n, i ≠ .cluster (.advance n)) →
      (∀ input, i = .cluster input → input.shardId? = none) → InStep Small.cluster g i :=
    inStep_of_aside
  have hreply : ∀ input, Input.cluster (.reply "game-server-1") = .cluster input →
      input.shardId? = none := by
    rintro _ ⟨⟩
    rfl
  -- the login, the call of `create_room`, its execution, and the reply
  unfold playing
  rw [Run.guarded_append, Run.guarded_append]
  refine ⟨⟨haside nofun nofun nofun, haside nofun nofun nofun,
      inStep_of_lookup Small.alice .connected .begun (by decide +kernel) ?_,
      haside nofun nofun nofun, trivial⟩,
    ⟨haside nofun nofun nofun,
      inStep_of_otherCall (.createRoom Small.alice) ?_ (by decide +kernel),
      inStep_of_otherCall (.createRoom Small.alice) ?_ (by decide +kernel), trivial⟩,
    inStep_of_roomCreate Small.alice (by decide +kernel) ?_,
    haside nofun nofun hreply,
    inStep_of_otherCall (.createRoom Small.alice) ?_ (by decide +kernel),
    haside nofun nofun nofun, trivial⟩
  · intro id hid hrooms
    exact absurd hrooms (by revert id; decide +kernel)
  · exact fun _ status => by cases status <;> nofun
  · exact fun _ status => by cases status <;> nofun
  · exact Or.inl ⟨0, by decide +kernel⟩
  · exact fun _ status => by cases status <;> nofun

/-- Alice leaves, and this too keeps in step. -/
theorem inStep_leaving :
    Run.Guarded (step Small.cluster) (fun g i _ => InStep Small.cluster g i) empty leaving := by
  unfold leaving
  rw [Run.guarded_append, Run.guarded_append]
  refine ⟨inStep_playing, ⟨inStep_of_aside nofun nofun nofun,
      inStep_of_lookup Small.alice .disconnected .begun (by decide +kernel) ?_,
      inStep_of_lookup Small.alice .disconnected (.located Small.room) (by decide +kernel) ?_,
      inStep_of_aside nofun nofun nofun,
      inStep_of_lookup Small.alice .disconnected (.addressed "game-server-1")
        (by decide +kernel) ?_,
      trivial⟩,
    inStep_of_told Small.alice .disconnected (by decide +kernel) ?_, trivial⟩
  · exact fun _ _ _ => ⟨Small.room, by decide +kernel⟩
  · intro id hid hrooms
    -- the second shard has no room
    have hfirst : id = "game-server-1" := by
      revert id
      decide +kernel
    rw [hfirst]
    unfold LeadsTo
    decide +kernel
  · exact fun _ _ _ => trivial
  · -- no socket is open
    refine Or.inl fun hhere => ?_
    obtain ⟨ws, -, hws⟩ := (here_iff (noLogin_of_idle (by decide +kernel))).mp hhere
    exact List.eq_nil_iff_forall_not_mem.mp (by decide +kernel) ws hws

/-- Alice is away, and the shard knows it. -/
theorem agrees_of_inStep_leaving :
    let g := leaving.foldl (step Small.cluster) empty
    g.Quiet Small.cluster ∧ g.Agrees Small.cluster ∧
      (g.cluster.load "game-server-1").standing Small.room Small.alice =
        some (.white, .disconnected) := by
  have hquiet : (leaving.foldl (step Small.cluster) empty).Quiet Small.cluster :=
    ⟨noLogin_of_idle (by decide +kernel), by decide +kernel, by decide +kernel, by decide +kernel⟩
  exact ⟨hquiet, agrees_of_inStep Small.cluster Small.start.users Dict.empty inStep_leaving hquiet,
    by decide +kernel⟩

/-- Alice and Bob are paired. Alice closes the socket before the shard has taken the match, and
the directory has no shard for her yet. -/
def gone : List Input :=
  letIn 0 aliceSession 0 ++ letIn 1 bobSession 1 ++
    [.cluster (.matchmaker (.enqueue Small.alice 1200)),
      .cluster (.matchmaker (.write Small.alice 1200 0)),
      .cluster (.matchmaker (.enqueue Small.bob 1200)),
      .cluster (.matchmaker (.write Small.bob 1200 1)), .cluster (.matchmaker (.tick 2))] ++
    List.replicate 7 (.cluster (.matchmaker (.work Small.room))) ++
    [.close 0, .cluster (.advance 2), .resume,
      .cluster (.deliver "game-server-1" (Small.env ["wR bK"])),
      .cluster (.deliver "game-server-2" (Small.env []))]

/-- Alice is CONNECTED on the shard and has no connection, with nothing in flight. -/
theorem not_agrees_gone :
    let g := gone.foldl (step Small.cluster) empty
    g.Quiet Small.cluster ∧ ¬ g.Agrees Small.cluster := by
  -- Alice has a seat in a running game on the first shard
  constructor
  · exact ⟨noLogin_of_idle (by decide +kernel), by decide +kernel, by decide +kernel,
      by decide +kernel⟩
  · intro hagrees
    have hmember : ((gone.foldl (step Small.cluster) empty).cluster.load
        "game-server-1").memberOf Small.room Small.alice =
          some { userId := Small.alice, role := .white } := by decide +kernel
    have hrunning : Running ((gone.foldl (step Small.cluster) empty).cluster.load "game-server-1")
        Small.room := by
      intro engine hengine
      have hall : (((gone.foldl (step Small.cluster) empty).cluster.load
          "game-server-1").engines.get? Small.room).all
            (fun engine => !engine.gameOver) = true := by
        decide +kernel
      -- so the shards would have to know that she is gone
      rw [hengine] at hall
      simpa using hall
    obtain ⟨ws, hbound⟩ := (hagrees "game-server-1" (by decide) (by decide +kernel) _ _ _ hmember
      (by decide) hrunning).mp rfl
    -- the only socket that is left is Bob's
    obtain rfl : ws = 1 := by
      have hsockets : (gone.foldl (step Small.cluster) empty).registry.byWs = [1] := by
        decide +kernel
      have hws := hbound.2
      rw [hsockets] at hws
      exact List.mem_singleton.mp hws
    exact absurd hbound (by decide +kernel)

end Runs

end Gateway

end KungFuChess
