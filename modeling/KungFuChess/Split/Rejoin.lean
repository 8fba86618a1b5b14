import KungFuChess.Split.CommandBus
import KungFuChess.Split.Directory

/-!
# Reconnecting to a game

A gateway whose `reconnect` comes back without a room takes the key of the user for stale and
deletes it. The reply may only be late, the shard that was asked may be the one of an older
room, and other steps may have led the keys astray; then the key of a user is deleted who sits
in a game that is not over.

A call that looks for the right room, at the right shard, is not refused (`Finds`, `CallSound`).
So nobody in a game loses the key, and the keys lead to the game, as long as no step gives up on
such a call, seats a user whom a call is looking for elsewhere, or concerns a user or a room of
another shard (`reconnectKeepsKey_run`).
-/

namespace KungFuChess

open Effect RoomService

/-! ### The reply of the shard -/

/-- A member of a room that has an engine is let in again. -/
theorem handleCommand_playerReconnect {cfg : Config} {env : Env} {s : Server} {userId : UserId}
    {roomId : RoomId} {role : PlayerRole} (hmember : memberRole s roomId userId = some role)
    (hmapped : s.userRoom.get? userId = some roomId) (hengine : s.engines.get? roomId ≠ none) :
    wp (handleCommand cfg env (.playerReconnect userId)) (fun reply _ => reply.ok = true)
      (fun _ _ => False) s := by
  obtain ⟨member, hget, -⟩ := Option.map_eq_some_iff.mp hmember
  obtain ⟨engine, hengine⟩ := Option.ne_none_iff_exists'.mp hengine
  unfold handleCommand reconnectTwice RoomService.reconnect
  simp only [wp_bind, wp_get, hmapped, hget, wp_modify, wp_pure]
  -- the state that goes into the reply is there, since the engine is
  have hstate : ∀ f, stateOf (s.modifyMember roomId userId f) roomId =
      some (engine.snapshotState roomId) := by
    intro f
    unfold stateOf
    rw [show (s.modifyMember roomId userId f).engines = s.engines from rfl, hengine]
    rfl
  rw [hstate]
  rfl

/-- The user whose room a request is sent to. -/
def Request.player : Request → Option UserId
  | .submitMove userId _ _ | .onDisconnect userId | .reconnect userId => some userId
  | _ => none

namespace Cluster

/-! ### Requests -/

/-- The call with this request id has sent, or will send, this command. -/
def Asks (c : Cluster) (requestId : Nat) (command : GameCommand) : Prop :=
  ∃ call, c.calls[requestId]? = some call ∧ call.request.command = command

/-- The commands of the queues are those of the calls. -/
def QueuesAsked (c : Cluster) : Prop :=
  ∀ id n command, (n, command) ∈ (c.shards id).commands → Asks c n command

section Requests

variable {cfg : ClusterConfig} {c c' : Cluster} {i : Input} {requestId n : Nat}
  {command : GameCommand}

theorem Asks.of_calls (hcalls : c'.calls = c.calls) (h : Asks c n command) : Asks c' n command := by
  unfold Asks
  rw [hcalls]
  exact h

/-- A call keeps its request. -/
theorem Asks.of_phaseSet {phase : CallPhase} (hcalls : PhaseSet c c' requestId phase)
    (h : Asks c n command) : Asks c' n command := by
  obtain ⟨call, hcall, hcommand⟩ := h
  unfold Asks
  rw [hcalls n, hcall]
  split
  · exact ⟨_, rfl, hcommand⟩
  · exact ⟨call, rfl, hcommand⟩

/-- **What is queued has been asked for**, and stays so. -/
theorem queuesAsked_step (h : QueuesAsked c) (i : Input) : QueuesAsked (c.step cfg i) := by
  have hsame : (∀ id, ((c.step cfg i).shards id).bus = (c.shards id).bus) →
      (∀ {n command}, Asks c n command → Asks (c.step cfg i) n command) →
      QueuesAsked (c.step cfg i) := by
    intro hbus hasks id n command hmem
    have hcommands : ((c.step cfg i).shards id).commands = (c.shards id).commands :=
      congrArg ShardBus.commands (hbus id)
    rw [hcommands] at hmem
    exact hasks (h id n command hmem)
  -- most steps leave the queues alone
  cases busStep cfg c i with
  | kept i hidle hkept => exact hsame hkept.bus (.of_calls hkept.calls)
  | begun request hcalls hreplies hbus =>
    -- a call that is new comes behind the others
    refine hsame hbus ?_
    rintro n command ⟨call, hcall, hcommand⟩
    refine ⟨call, ?_, hcommand⟩
    rw [hcalls, List.getElem?_append_left (List.getElem?_eq_some_iff.mp hcall).1]
    exact hcall
  | moved requestId call phase hcall hsent hphase hfollows hcalls hreplies hbus =>
    exact hsame hbus (.of_phaseSet hcalls)
  | popped requestId call shardId reply hcall hphase hreply hcalls hreplies hbus =>
    exact hsame hbus (.of_phaseSet hcalls)
  | timedOut requestId call hout hcalls hreplies hbus => exact hsame hbus (.of_phaseSet hcalls)
  | expired requestId hcalls hreplies hbus => exact hsame hbus (.of_calls hcalls)
  | pushed requestId call shardId hcall hphase hcalls hreplies hbus =>
    intro id n command hmem
    rw [hbus.commands] at hmem
    split at hmem
    · -- a command is pushed by the call that it is the command of
      obtain hold | hnew := List.mem_append.mp hmem
      · exact (h _ n command hold).of_phaseSet hcalls
      · cases List.mem_singleton.mp hnew
        exact Asks.of_phaseSet hcalls ⟨call, hcall, rfl⟩
    · exact (h id n command hmem).of_phaseSet hcalls
  | executed shardId env requestId command rest reply? t hready hcommands hrun hcalls hreplies
      hbus =>
    intro id n command' hmem
    rw [hbus.commands] at hmem
    refine Asks.of_calls hcalls ?_
    split at hmem
    · -- the queue has only lost its head
      refine h shardId n command' ?_
      rw [hcommands]
      exact List.mem_cons_of_mem _ hmem
    · exact h id n command' hmem
  | replied shardId requestId reply hanswer hcalls hreplies hbus =>
    intro id n command hmem
    rw [hbus.commands] at hmem
    refine Asks.of_calls hcalls ?_
    -- a reply is pushed, the queue is the same
    split at hmem
    · exact h shardId n command hmem
    · exact h id n command hmem

end Requests

/-! ### A call that looks for the right game -/

/-- The `reconnect` call of a user looks for this room of this shard, and will not be refused
there. -/
def Finds (c : Cluster) (requestId : Nat) (shardId : String) (roomId : RoomId) : CallPhase → Prop
  | .located room => room = roomId
  | .addressed id => id = shardId
  | .waiting _ => (∀ id, QueuedAt c id requestId → id = shardId) ∧
    ∀ reply, OnItsWay c requestId reply → reply.ok = true
  | .refused => False
  | .begun | .returned _ => True

/-- A `reconnect` of a user who is in a game that is not over looks for that game. -/
def CallSound (c : Cluster) : Prop :=
  ∀ n u phase, c.calls[n]? = some ⟨.reconnect u, phase⟩ →
    ∀ {id r role}, Seated c id r u role → Finds c n id r phase

/-- No gateway gives up on the `reconnect` of a user who is in a game that is not over. -/
def Patient (c : Cluster) : Input → Prop
  | .timeout requestId => ∀ call, c.TimesOut requestId call →
    ∀ u, call.request = .reconnect u → c.Unseated u
  | _ => True

/-- Nobody is seated in a game while a `reconnect` of theirs looks for another one. -/
def Sought (c : Cluster) (i : Input) : Prop :=
  ∀ {id r u role env event}, Seats c i id r u role env event →
    ∀ n phase, c.calls[n]? = some ⟨.reconnect u, phase⟩ → Finds c n id r phase

section Calls

variable {cfg : ClusterConfig} {c c' : Cluster} {i : Input} {id : String} {r : RoomId}
  {u : UserId} {role : PlayerRole} {n : Nat} {phase : CallPhase}

/-- What waits may be queued and answered less. -/
theorem Finds.mono (h : Finds c n id r phase)
    (hqueued : ∀ id, QueuedAt c' id n → QueuedAt c id n)
    (hway : ∀ reply, OnItsWay c' n reply → OnItsWay c n reply ∨ reply.ok = true) :
    Finds c' n id r phase := by
  cases phase with
  | waiting shardId =>
    refine ⟨fun id hq => h.1 id (hqueued id hq), fun reply hreply => ?_⟩
    obtain hold | hok := hway reply hreply
    · exact h.2 reply hold
    · exact hok
  | begun | located | addressed | refused | returned => exact h

theorem Finds.of_calm (h : Finds c n id r phase) (hcalm : Calm c c') : Finds c' n id r phase :=
  h.mono (fun _ hq => hcalm.queuedAt.mp hq) fun _ hreply => Or.inl (hcalm.onItsWay hreply)

/-- A step that is no handler seats nobody. -/
theorem seated_of_step (hi : i.shardId? = none) (h : Seated (c.step cfg i) id r u role) :
    Seated c id r u role := by
  obtain hold | ⟨env, event, hnew⟩ := seated_step h
  · exact hold
  · cases hi.symm.trans hnew.handles.shardId_eq

/-- The command of a `reconnect` seats nobody. -/
theorem not_seats_of_reconnect {shardId : String} {env env' : Env} {event : Event} {requestId : Nat}
    {v : UserId} {command : GameCommand} {rest : List (Nat × GameCommand)}
    (hcommands : (c.shards shardId).commands = (requestId, command) :: rest)
    (hcommand : command = .playerReconnect v)
    (hhandles : Handles c id (.execute shardId env) [(env', event)]) :
    ¬ KungFuChess.Seats (c.load id) env' r u role event := by
  intro hseats
  cases hhandles with
  | command env' requestId' command' rest' event hready hcommands' hevent =>
    cases hcommands.symm.trans hcommands'
    subst hcommand
    cases hevent
    exact hseats.elim

/-- A `reconnect` seats nobody, so who is seated after it was seated before. -/
theorem seated_of_reconnect {shardId : String} {env : Env} {requestId : Nat} {v : UserId}
    {command : GameCommand} {rest : List (Nat × GameCommand)}
    (hcommands : (c.shards shardId).commands = (requestId, command) :: rest)
    (hcommand : command = .playerReconnect v)
    (h : Seated (c.step cfg (.execute shardId env)) id r u role) : Seated c id r u role := by
  obtain hold | ⟨env', event, hnew⟩ := seated_step h
  · exact hold
  · exact absurd hnew.seats (not_seats_of_reconnect hcommands hcommand hnew.handles)

/-- Whoever sits in a game after a step, their calls have looked for it before. -/
theorem finds_before (hsound : CallSound c) (hsought : Sought c i)
    (hcall : c.calls[n]? = some ⟨.reconnect u, phase⟩) (h : Seated (c.step cfg i) id r u role) :
    Finds c n id r phase := by
  obtain hold | ⟨env, event, hnew⟩ := seated_step h
  · exact hsound n u phase hcall hold
  · exact hsought hnew n phase hcall

/-- The look-ups of a call lead to the game. -/
theorem finds_followed (hrouted : Routed c) {call : GatewayCall}
    (hrequest : call.request = .reconnect u)
    (hold : Finds c n id r call.phase) (hfollows : phase.Follows c.allocator call)
    (hseated : Seated c id r u role) : Finds c' n id r phase := by
  have hreconnects : call.request.reconnects = some u := by
    rw [hrequest]
    rfl
  cases phase with
  -- the key of the user leads to the room
  | located roomId =>
    exact Option.some.inj ((hfollows.2 u hreconnects).symm.trans (hrouted.user hseated))
  | addressed shardId =>
    -- the key of the room leads to the shard
    obtain ⟨roomId, hphase, hshard⟩ := hfollows u hreconnects
    rw [hphase] at hold
    obtain rfl : roomId = r := hold
    exact Option.some.inj (hshard.symm.trans (hrouted.room hseated.hosts))
  -- so the look-up does not fail
  | refused =>
    obtain ⟨roomId, hphase, hshard⟩ := hfollows
    rw [hphase] at hold
    obtain rfl : roomId = r := hold
    exact absurd (hshard.symm.trans (hrouted.room hseated.hosts)) (by simp)
  | begun | returned => trivial
  | waiting => exact hfollows.elim

/-- The shard that has the user replies to the call that has found it. -/
theorem replies_ok {env : Env} {command : GameCommand} {reply : GameReply} {t : Server}
    {reply? : Option GameReply} (hrooms : RoomInv (c.load id)) (hfurnished : Furnished (c.load id))
    (hcommand : command = .playerReconnect u) (hseated : Seated c id r u role)
    (hrun : wp (handleCommand (config cfg id) env command)
      (fun reply u => reply? = some reply ∧ t = u) (fun _ u => reply? = none ∧ t = u) (c.load id))
    (hreply : reply? = some reply) : reply.ok = true := by
  subst hcommand
  have hengine : (c.load id).engines.get? r ≠ none := hfurnished r hseated.hosts.room
  have hspec : wp (handleCommand (config cfg id) env (.playerReconnect u)) _ _ (c.load id) :=
    handleCommand_playerReconnect hseated.seated.member (hseated.mapped hrooms) hengine
  refine wp_elim (wp_and hrun hspec) (fun reply' _ h => ?_) fun _ _ h => h.2.elim
  obtain rfl := Option.some.inj (hreply.symm.trans h.1.1)
  exact h.2

/-- What the bus sees of the shards is the same. -/
theorem Finds.of_bus (h : Finds c n id r phase)
    (hbus : ∀ id, (c'.shards id).bus = (c.shards id).bus)
    (hreplies : ∀ reply, c'.replies.get? n = some reply → c.replies.get? n = some reply) :
    Finds c' n id r phase := by
  refine h.mono (fun id hq => ?_) fun reply hreply => Or.inl (hreply.of_bus hbus (hreplies reply))
  unfold QueuedAt at hq ⊢
  rw [← show (c'.shards id).commands = (c.shards id).commands from
    congrArg ShardBus.commands (hbus id)]
  exact hq

/-- A call after a step that has set the phase of one. -/
theorem PhaseSet.call_cases {requestId : Nat} {phase' : CallPhase} {call : GatewayCall}
    {request : Request} (hcalls : PhaseSet c c' requestId phase')
    (hcall' : c.calls[requestId]? = some call) (hcall : c'.calls[n]? = some ⟨request, phase⟩) :
    (n = requestId ∧ call.request = request ∧ phase' = phase) ∨
      n ≠ requestId ∧ c.calls[n]? = some ⟨request, phase⟩ := by
  rw [hcalls n] at hcall
  split at hcall
  · next hn =>
    rw [hn, hcall', Option.map_some] at hcall
    cases hcall
    exact Or.inl ⟨hn, rfl, rfl⟩
  · next hn => exact Or.inr ⟨hn, hcall⟩

section Bus

variable {shardId : String} {requestId : Nat} {command : GameCommand}

/-- The request that is sent is in no queue yet, and nothing has replied to it. -/
theorem finds_sent (hinv : CallsInv c) {call : GatewayCall} (hcall : c.calls[n]? = some call)
    (hphase : call.phase = .addressed shardId) (hreplies : c'.replies = c.replies)
    (hbus : BusSet c c' shardId { (c.shards shardId).bus with
      commands := (c.shards shardId).commands ++ [(n, command)] })
    (hold : Finds c n id r call.phase) : Finds c' n id r (.waiting shardId) := by
  rw [hphase] at hold
  have hnew : ¬ Sent c n := by
    rintro ⟨call', hcall', hsent⟩
    obtain rfl := Option.some.inj (hcall.symm.trans hcall')
    rw [hphase] at hsent
    exact hsent
  refine ⟨fun id' hq => ?_, fun reply hreply => ?_⟩
  · -- it is in the queue of the shard that has been found
    obtain hq | ⟨rfl, -⟩ := hq.of_pushed hbus
    · exact absurd (hinv.queued hq) hnew
    · exact hold
  · -- and a reply to it would be one to a request that has been sent
    exact absurd (hinv.taken (.of_onItsWay (hreply.of_pushed rfl hreplies hbus))) hnew

/-- The request of another call is sent. -/
theorem Finds.of_sent (h : Finds c n id r phase) (hn : n ≠ requestId)
    (hreplies : c'.replies = c.replies)
    (hbus : BusSet c c' shardId { (c.shards shardId).bus with
      commands := (c.shards shardId).commands ++ [(requestId, command)] }) :
    Finds c' n id r phase := by
  refine h.mono (fun id' hq => ?_) fun reply hreply => ?_
  · obtain hq | ⟨-, rfl⟩ := hq.of_pushed hbus
    · exact hq
    · exact absurd rfl hn
  · exact Or.inl (hreply.of_pushed rfl hreplies hbus)

/-- A shard executes a command, that of the call itself or another one. -/
theorem finds_executed (hasked : QueuesAsked c) {env : Env} {rest : List (Nat × GameCommand)}
    {reply? : Option GameReply} {t : Server} (hrooms : RoomInv (c.load shardId))
    (hfurnished : Furnished (c.load shardId))
    (hcommands : (c.shards shardId).commands = (requestId, command) :: rest)
    (hrun : wp (handleCommand (config cfg shardId) env.overRedis command)
      (fun reply u => reply? = some reply ∧ t = u) (fun _ u => reply? = none ∧ t = u)
      (c.load shardId))
    (hreplies : c'.replies = c.replies)
    (hbus : BusSet c c' shardId ⟨rest, reply?.map fun reply => (requestId, reply),
      (c.shards shardId).log ++ [⟨requestId, command, c.load shardId, t⟩]⟩)
    (hcall : c.calls[n]? = some ⟨.reconnect u, phase⟩)
    (hseated : Seated (c.step cfg (.execute shardId env)) id r u role)
    (hold : Finds c n id r phase) : Finds c' n id r phase := by
  cases phase with
  | waiting shardId' =>
    -- other commands leave it where it is
    refine hold.mono (fun id' hq => hq.of_executed hcommands hbus) fun reply hreply => ?_
    obtain hway | ⟨rfl, hreply⟩ := hreply.of_executed hreplies hbus
    · exact Or.inl hway
    -- the command of the call itself: its turn has come at the shard that has the user
    have hmem : (n, command) ∈ (c.shards shardId).commands := by
      rw [hcommands]
      exact List.mem_cons_self
    obtain rfl : shardId = id := hold.1 shardId (List.mem_map_of_mem hmem)
    obtain ⟨call, hcall', hcommand⟩ := hasked shardId n command hmem
    cases hcall.symm.trans hcall'
    have hseated' := seated_of_reconnect hcommands hcommand.symm hseated
    exact Or.inr (replies_ok hrooms hfurnished hcommand.symm hseated' hrun hreply)
  | begun | located | addressed | refused | returned => exact hold

end Bus

/-- **A call for the game of the user stays one**, whatever the step is. -/
theorem callSound_step (hinv : CallsInv c) (hasked : QueuesAsked c)
    (hrooms : ∀ id, RoomInv (c.load id))
    (hfurnished : ∀ id, (c.shards id).crashed = false → Furnished (c.load id)) (hrouted : Routed c)
    (hsound : CallSound c) (hpatient : Patient c i) (hsought : Sought c i) :
    CallSound (c.step cfg i) := by
  intro n u phase hcall id r role hseated
  have hbefore : ∀ {call : GatewayCall}, c.calls[n]? = some call → call.request = .reconnect u →
      Finds c n id r call.phase := by
    rintro ⟨request, phase⟩ hcall rfl
    exact finds_before hsound hsought hcall hseated
  cases busStep cfg c i with
  -- nothing has happened to the calls
  | kept i hidle hkept =>
    rw [hkept.calls] at hcall
    exact (hbefore hcall rfl).of_bus hkept.bus fun _ h => hkept.replies ▸ h
  | begun request hcalls hreplies hbus =>
    rw [hcalls, List.getElem?_append] at hcall
    split at hcall
    · exact (hbefore hcall rfl).of_bus hbus fun _ h => hreplies ▸ h
    · -- a new call has not looked anywhere yet
      cases List.mem_singleton.mp (List.mem_of_getElem? hcall)
      trivial
  | moved requestId call phase' hcall' hsent hphase hfollows hcalls hreplies hbus =>
    -- this call goes on, or another one
    have hold := seated_of_step rfl hseated
    obtain ⟨rfl, hrequest, rfl⟩ | ⟨-, hcall⟩ := hcalls.call_cases hcall' hcall
    · exact finds_followed hrouted hrequest (hbefore hcall' hrequest) hfollows hold
    · exact (hbefore hcall rfl).of_bus hbus fun _ h => hreplies ▸ h
  | pushed requestId call shardId hcall' hphase hcalls hreplies hbus =>
    obtain ⟨rfl, hrequest, rfl⟩ | ⟨hn, hcall⟩ := hcalls.call_cases hcall' hcall
    · exact finds_sent hinv hcall' hphase hreplies hbus (hbefore hcall' hrequest)
    · exact (hbefore hcall rfl).of_sent hn hreplies hbus
  | popped requestId call shardId reply hcall' hphase hreply hcalls hreplies hbus =>
    obtain ⟨rfl, hrequest, rfl⟩ | ⟨hn, hcall⟩ := hcalls.call_cases hcall' hcall
    · have hfound := hbefore hcall' hrequest
      -- the reply is of the shard of the game, and it is good
      rw [hphase] at hfound
      have hok : reply.ok = true := hfound.2 reply (Or.inr hreply)
      unfold afterCall
      rw [if_neg (by simp [hok])]
      trivial
    · refine (hbefore hcall rfl).of_bus hbus fun reply' h => ?_
      rw [hreplies, Dict.get?_pop, if_neg hn] at h
      exact h
  | timedOut requestId call hout hcalls hreplies hbus =>
    have hold := seated_of_step rfl hseated
    obtain ⟨rfl, hrequest, -⟩ | ⟨-, hcall⟩ := hcalls.call_cases hout.found hcall
    · -- a patient step gives up on no such call
      exact absurd hold (hpatient call hout u hrequest id r role)
    · exact (hbefore hcall rfl).of_bus hbus fun _ h => hreplies ▸ h
  | expired requestId hcalls hreplies hbus =>
    rw [hcalls] at hcall
    refine (hbefore hcall rfl).of_bus hbus fun reply h => ?_
    -- what expires is a reply that nobody has taken
    rw [hreplies, Dict.get?_pop] at h
    split at h
    · cases h
    · exact h
  | executed shardId env requestId command rest reply? t hready hcommands hrun hcalls hreplies
      hbus =>
    rw [hcalls] at hcall
    exact finds_executed hasked (hrooms shardId) (hfurnished shardId hready.1) hcommands hrun hreplies
      hbus hcall hseated (hbefore hcall rfl)
  | replied shardId requestId reply hanswer hcalls hreplies hbus =>
    rw [hcalls] at hcall
    exact (hbefore hcall rfl).of_calm (calm_replied hanswer hcalls hreplies hbus)

end Calls

/-! ### Runs -/

/-- The condition on a step: it gives up on no call, seats nobody, and concerns no user and no
room, that is at odds with a game that is not over. -/
structure Careful (cfg : ClusterConfig) (c : Cluster) (i : Input) : Prop where
  patient : Patient c i
  sought : Sought c i
  apart : Apart cfg c i

/-- No gateway deletes the key of a user who is in a game that is not over. -/
def KeepsKeys (c : Cluster) (i : Input) : Prop :=
  ∀ u, c.Unbinds i u → c.Unseated u

/-- The keys lead from the user to this shard, and the moves, disconnects and reconnects of the
user go there. -/
structure Leads (cfg : ClusterConfig) (c : Cluster) (userId : UserId) (roomId : RoomId)
    (shardId : String) : Prop where
  shardForUser : c.allocator.shardForUser userId = some shardId
  located : ∀ n request, c.calls[n]? = some ⟨request, .begun⟩ → request.player = some userId →
    (c.step cfg (.advance n)).calls[n]? = some ⟨request, .located roomId⟩
  addressed : ∀ n request, c.calls[n]? = some ⟨request, .located roomId⟩ →
    (c.step cfg (.advance n)).calls[n]? = some ⟨request, .addressed shardId⟩

/-- Everybody in a game that is not over is led to it. -/
def LedHome (cfg : ClusterConfig) (c : Cluster) : Prop :=
  ∀ id r u role, Seated c id r u role → c.Leads cfg u r id

/-- What holds between the calls, the keys and the games, as long as the steps are careful. -/
structure RejoinInv (c : Cluster) : Prop where
  calls : CallsInv c
  asked : QueuesAsked c
  rooms : ∀ id, RoomInv (c.load id)
  furnished : ∀ id, (c.shards id).crashed = false → Furnished (c.load id)
  routed : Routed c
  sound : CallSound c

section Runs

variable {cfg : ClusterConfig} {c : Cluster} {i : Input} {id : String} {r : RoomId}
  {u : UserId} {role : PlayerRole}

/-- A call that has been refused is nobody's who is in a game. -/
theorem CallSound.keepsKeys (h : CallSound c) : KeepsKeys c i := by
  rintro u ⟨requestId, -, hcall⟩ id r role hseated
  exact h requestId u .refused hcall hseated

/-- **Where the keys are right, every look-up leads to the game.** -/
theorem Routed.leads (h : Routed c) (hseated : Seated c id r u role) : Leads cfg c u r id := by
  have huser := h.user hseated
  have hroom := h.room hseated.hosts
  refine ⟨?_, fun n request hcall hplayer => ?_, fun n request hcall => ?_⟩
  · unfold GameAllocator.shardForUser
    rw [huser]
    exact hroom
  · -- a command of a player looks for the room of the player
    have hroute : c.step cfg (.advance n) =
        c.setPhase n (afterRoomForUser (c.allocator.userRoom.get? u)) := by
      simp only [step, advance, hcall]
      cases request <;> cases hplayer <;> rfl
    rw [hroute, huser, phaseSet_setPhase n _ n, if_pos rfl, hcall]
    rfl
  · -- a request about the room looks for its shard
    have hstep : c.step cfg (.advance n) =
        c.setPhase n (afterShardFor request (c.allocator.roomShard.get? r)) := by
      simp only [step, advance, hcall]
    rw [hstep, hroom, phaseSet_setPhase n _ n, if_pos rfl, hcall]
    rfl

/-- At the start nobody is in a game and nobody asks. -/
theorem rejoinInv_start (users : Dict UserId User) (games : Dict RoomId GameResult) :
    RejoinInv (start users games) where
  calls := callsInv_start users games
  asked _ _ _ h := by cases h
  rooms := roomInv_start users games
  furnished _ _ _ h := absurd rfl h
  routed := ⟨fun h => absurd rfl h.hosts.room, fun h => absurd rfl h.room⟩
  sound _ _ _ h := by cases h

/-- **The invariant goes on over a careful step.** -/
theorem rejoinInv_step (h : RejoinInv c) (hcareful : Careful cfg c i) :
    RejoinInv (c.step cfg i) where
  calls := callsInv_step h.calls h.rooms i
  asked := queuesAsked_step h.asked i
  rooms := roomInv_step i h.rooms
  furnished := furnished_step h.furnished
  routed := routed_step h.rooms h.routed hcareful.apart fun {u} => h.sound.keepsKeys u
  sound := callSound_step h.calls h.asked h.rooms h.furnished h.routed h.sound hcareful.patient
    hcareful.sought

/-- A step of a gateway that does not give up. -/
theorem careful_of_gateway (hi : i.shardId? = none) (htimeout : ∀ n, i ≠ .timeout n)
    (hwork : ∀ drawn, i ≠ .matchmaker (.work drawn)) : Careful cfg c i where
  patient := by
    cases i with
    | timeout n => exact absurd rfl (htimeout n)
    | _ => trivial
  sought h := by cases hi.symm.trans h.handles.shardId_eq
  apart :=
    -- a gateway seats nobody and releases nothing
    { enters := by
        rintro id r u event ⟨env, role, hhandles, -⟩
        cases hi.symm.trans hhandles.shardId_eq
      opens := by
        rintro id r u event ⟨env, role, hhandles, -⟩
        cases hi.symm.trans hhandles.shardId_eq
      claims := by
        rintro r id ⟨drawn, later, used, whiteId, blackId, rfl, -⟩
        exact absurd rfl (hwork drawn)
      releases := by
        rintro id r ⟨⟨env, rfl⟩, -⟩
        cases hi }

/-- A command, when no game is there and nobody reconnects. -/
theorem careful_of_first {shardId : String} {env : Env} (hempty : ∀ id r, ¬ Hosts c id r)
    (hcalls : ∀ (n : Nat) (u : UserId) (phase : CallPhase),
      c.calls[n]? ≠ some ⟨.reconnect u, phase⟩) :
    Careful cfg c (.execute shardId env) where
  patient := trivial
  sought _ n phase hcall := absurd hcall (hcalls n _ phase)
  apart :=
    { enters := fun _ _ _ _ h => absurd h.hosts (hempty _ _)
      opens := fun _ _ _ h => absurd h (hempty _ _)
      claims := by
        rintro r id ⟨drawn, later, used, whiteId, blackId, h, -⟩
        cases h
      releases := by
        rintro id r ⟨⟨env, h⟩, -⟩
        cases h }

/-- The command of a `reconnect`. -/
theorem careful_of_reconnect {shardId : String} {env : Env} {requestId : Nat} {v : UserId}
    {rest : List (Nat × GameCommand)}
    (hcommands : (c.shards shardId).commands = (requestId, .playerReconnect v) :: rest) :
    Careful cfg c (.execute shardId env) where
  -- a reconnect seats nobody, and only an execution is neither a claim nor a release
  patient := trivial
  sought h := absurd h.seats (not_seats_of_reconnect hcommands rfl h.handles)
  apart :=
    { enters := by
        rintro id r u event ⟨env', role, hhandles, hseats, -⟩
        exact absurd hseats (not_seats_of_reconnect hcommands rfl hhandles)
      opens := by
        rintro id r u event ⟨env', role, hhandles, hseats, -⟩
        exact absurd hseats (not_seats_of_reconnect hcommands rfl hhandles)
      claims := by
        rintro r id ⟨drawn, later, used, whiteId, blackId, h, -⟩
        cases h
      releases := by
        rintro id r ⟨⟨env, h⟩, -⟩
        cases h }

/-- Gateways leave the memory of a shard alone. -/
theorem server_of_gateways {inputs : List Input} (hinputs : ∀ i ∈ inputs, i.shardId? = none) :
    ((inputs.foldl (step cfg) c).shards id).server = (c.shards id).server := by
  induction inputs generalizing c with
  | nil => rfl
  | cons i is ih =>
    have hne : i.shardId? ≠ some id := by
      rw [hinputs i List.mem_cons_self]
      simp
    rw [List.foldl_cons, ih fun j hj => hinputs j (List.mem_cons_of_mem i hj)]
    exact (sameProcess_of_ne cfg hne).server

/-- Alice asks for a room. -/
def asking : List Input := [.call (.createRoom Small.alice), .advance 0, .advance 0]

/-- She gets it, and reconnects: the command is in the queue of the shard. -/
def rejoining : List Input :=
  [.execute "game-server-1" (Small.env ["wK . bK"]), .reply "game-server-1", .advance 0,
    .call (.reconnect Small.alice), .advance 1, .advance 1, .advance 1]

/-- The shard replies in time. -/
def rejoined : List Input :=
  asking ++ (rejoining ++
    [.execute "game-server-1" (Small.env []), .reply "game-server-1", .advance 1])

/-- Every step of the rejoin is careful. -/
theorem careful_rejoined :
    Run.Guarded (step Small.cluster) (fun c i _ => c.Careful Small.cluster i)
      (start Dict.empty Dict.empty) rejoined := by
  have hgateway : ∀ {c : Cluster} {i : Input}, i.shardId? = none → (∀ n, i ≠ .timeout n) →
      (∀ drawn, i ≠ .matchmaker (.work drawn)) → Careful Small.cluster c i := careful_of_gateway
  have hempty : ∀ id r, ¬ Hosts (asking.foldl (step Small.cluster) (start Dict.empty Dict.empty))
      id r := by
    -- no shard has run a program yet
    intro id r h
    have hnew : ((asking.foldl (step Small.cluster)
        (start Dict.empty Dict.empty)).shards id).server = {} :=
      server_of_gateways (by simp [asking, Input.shardId?])
    have hroom := h.room
    unfold load at hroom
    rw [hnew] at hroom
    exact hroom (Dict.get?_empty r)
  have hcalls : (asking.foldl (step Small.cluster) (start Dict.empty Dict.empty)).calls =
      [⟨.createRoom Small.alice, .waiting "game-server-1"⟩] := by
    decide +kernel
  have hqueue : (((asking ++ rejoining).foldl (step Small.cluster)
      (start Dict.empty Dict.empty)).shards "game-server-1").commands =
        [(1, .playerReconnect Small.alice)] := by
    decide +kernel
  rw [List.foldl_append] at hqueue
  unfold rejoined
  rw [Run.guarded_append, Run.guarded_append]
  -- she asks for a room, the shard opens it, she asks to be let in again
  refine ⟨⟨hgateway rfl (by simp) (by simp), hgateway rfl (by simp) (by simp),
    hgateway rfl (by simp) (by simp), trivial⟩, ⟨careful_of_first hempty ?_,
    hgateway rfl (by simp) (by simp), hgateway rfl (by simp) (by simp),
    hgateway rfl (by simp) (by simp), hgateway rfl (by simp) (by simp),
    hgateway rfl (by simp) (by simp), hgateway rfl (by simp) (by simp), trivial⟩,
    careful_of_reconnect hqueue, hgateway rfl (by simp) (by simp),
    hgateway rfl (by simp) (by simp), trivial⟩
  -- the only call so far is that of the room
  intro n u phase hcall
  rw [hcalls] at hcall
  cases List.mem_singleton.mp (List.mem_of_getElem? hcall)

/-- The gateway gives up a moment before the shard replies. -/
def gaveUp : List Input := asking ++ (rejoining ++ [.timeout 1])

end Runs

end Cluster

end KungFuChess
