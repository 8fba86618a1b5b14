import KungFuChess.Split.CommandBus

/-!
# Commands that are reported as failed

A gateway waits a few seconds for a reply and then tells its caller that the call has
failed. The command is not taken back: a shard that is slow executes it all the same, or has
executed it and not replied yet. So a failed command may open a room, take a seat or move a piece.

What a shard itself refuses has changed nothing. Hence a failed command leaves rooms,
members and engines alone exactly as long as no wait ends for a command that a shard has
accepted, and no shard accepts a command whose call has failed (`failedUnchanged_run`).
-/

namespace KungFuChess

open Effect

namespace Cluster

/-- `GameCommandBus.call` has returned a reply that is not ok. -/
def Failed (c : Cluster) (requestId : Nat) : Prop :=
  ∃ call reply, c.calls[requestId]? = some call ∧ call.phase.Returned reply ∧ reply.ok = false

/-- What a failed call has sent has changed no room, no member and no engine. -/
def FailedUnchanged (c : Cluster) : Prop :=
  ∀ {id x}, Logged c id x → x.command.Plays → Failed c x.requestId → SameGames x.before x.after

/-- A wait ends only for a command that has not been executed or was refused, and a command
whose call has failed is refused when its turn comes. -/
def InTime (c : Cluster) : Input → Prop
  | .timeout requestId => ∀ call, c.TimesOut requestId call → call.request.reconnects = none →
    ∀ {id x}, Logged c id x → x.requestId = requestId → x.command.Plays →
      Refuses x.before x.command
  | .execute shardId _ => ∀ {requestId command}, c.Executes shardId requestId command →
    command.Plays → Failed c requestId → Refuses (c.load shardId) command
  | _ => True

section Steps

variable {cfg : ClusterConfig} {c c' : Cluster} {requestId : Nat} {phase : CallPhase}
  {call : GatewayCall}

/-- A call that goes on has failed if it has returned a refusal. -/
theorem failed_phaseSet (hcalls : PhaseSet c c' requestId phase)
    (hcall : c.calls[requestId]? = some call) {n : Nat} :
    Failed c' n ↔ if n = requestId then ∃ reply, phase.Returned reply ∧ reply.ok = false
      else Failed c n := by
  unfold Failed
  rw [hcalls n]
  split
  · next hn =>
    -- the call whose phase is set
    subst hn
    rw [hcall, Option.map_some]
    constructor
    · rintro ⟨call', reply, hcall', hphase, hok⟩
      cases hcall'
      exact ⟨reply, hphase, hok⟩
    · rintro ⟨reply, hphase, hok⟩
      exact ⟨_, reply, rfl, hphase, hok⟩
  · -- the others stay as they are
    rfl

theorem Failed.of_calls (hcalls : c'.calls = c.calls) {n : Nat} (h : Failed c' n) : Failed c n := by
  unfold Failed at h ⊢
  rw [← hcalls]
  exact h

/-- The reply of the bus is the one the call returns, but to `reconnect`. -/
theorem returned_afterCall {request : Request} {reply reply' : GameReply}
    (h : (afterCall request reply).Returned reply') : reply = reply' := by
  unfold afterCall CallPhase.Returned at h
  split at h
  · cases h
  · cases h
    rfl

theorem afterCall_of_reconnects {request : Request} (h : request.reconnects = none)
    (reply : GameReply) : afterCall request reply = .returned (some reply) := by
  unfold afterCall
  rw [h, if_neg (by simp)]

/-- A refused `reconnect` has not returned yet. -/
theorem not_returned_of_reconnects {request : Request} (h : request.reconnects ≠ none)
    {reply reply' : GameReply} (hok : reply.ok = false) :
    ¬ (afterCall request reply).Returned reply' := by
  unfold afterCall CallPhase.Returned
  rw [if_pos ⟨Option.isSome_iff_ne_none.mpr h, hok⟩]
  simp

/-- No execution, and no failure that has not been there. -/
theorem FailedUnchanged.of_kept (h : FailedUnchanged c)
    (hlogged : ∀ {id x}, Logged c' id x → Logged c id x)
    (hfailed : ∀ {n}, Failed c' n → Failed c n) : FailedUnchanged c' :=
  fun hx hplays hf => h (hlogged hx) hplays (hfailed hf)

/-- The logs are part of the bus. -/
theorem logged_of_bus (hbus : ∀ id, (c'.shards id).bus = (c.shards id).bus) {id : String}
    {x : Execution} (h : Logged c' id x) : Logged c id x := by
  unfold Logged at h ⊢
  rw [← show (c'.shards id).log = (c.shards id).log from congrArg ShardBus.log (hbus id)]
  exact h

/-- The end of a wait. -/
theorem failedUnchanged_timedOut (hinv : CallsInv c) (h : FailedUnchanged c)
    (hout : c.TimesOut requestId call)
    (hcalls : PhaseSet c c' requestId
      (afterCall call.request { ok := false, error := "game server timeout" }))
    (hbus : ∀ id, (c'.shards id).bus = (c.shards id).bus) :
    c.InTime (.timeout requestId) ↔ FailedUnchanged c' := by
  have hlogged : ∀ {id x}, Logged c id x → Logged c' id x :=
    logged_of_bus fun id => (hbus id).symm
  by_cases hreconnects : call.request.reconnects = none
  · -- a `reconnect` that times out has not returned yet, and sends no command that plays
    rw [afterCall_of_reconnects hreconnects] at hcalls
    constructor
    · -- a shard that has executed it has refused it, by the guard
      intro hguard id x hx hplays hfailed
      rw [failed_phaseSet hcalls hout.found] at hfailed
      split at hfailed
      · next hn =>
        have hx := logged_of_bus hbus hx
        exact (hinv.refused hx hplays).mpr (hguard call hout hreconnects hx hn hplays)
      · exact h (logged_of_bus hbus hx) hplays hfailed
    · -- and the other way round, what it has executed has changed nothing
      intro hP call' hout' hreconnects' id x hx hn hplays
      refine (hinv.refused hx hplays).mp (hP (hlogged hx) hplays ?_)
      rw [failed_phaseSet hcalls hout.found, if_pos hn]
      exact ⟨_, rfl, rfl⟩
  · refine iff_of_true (fun call' hout' hno => ?_) (h.of_kept (logged_of_bus hbus) fun {n} hf => ?_)
    · obtain rfl : call = call' := Option.some.inj (hout.found.symm.trans hout'.found)
      exact absurd hno hreconnects
    · rw [failed_phaseSet hcalls hout.found] at hf
      split at hf
      · obtain ⟨reply, hreturned, -⟩ := hf
        exact absurd hreturned (not_returned_of_reconnects hreconnects rfl)
      · exact hf

/-- A command that is executed. -/
theorem failedUnchanged_executed {shardId : String} {env : Env} {command : GameCommand}
    {rest : List (Nat × GameCommand)} {reply? : Option GameReply} {t : Server}
    (hrooms : RoomInv (c.load shardId)) (h : FailedUnchanged c)
    (hready : (c.shards shardId).Ready)
    (hcommands : (c.shards shardId).commands = (requestId, command) :: rest)
    (hrun : wp (handleCommand (config cfg shardId) env.overRedis command)
      (fun reply u => reply? = some reply ∧ t = u) (fun _ u => reply? = none ∧ t = u)
      (c.load shardId))
    (hcalls : c'.calls = c.calls)
    (hbus : BusSet c c' shardId ⟨rest, reply?.map fun reply => (requestId, reply),
      (c.shards shardId).log ++ [⟨requestId, command, c.load shardId, t⟩]⟩) :
    c.InTime (.execute shardId env) ↔ FailedUnchanged c' := by
  have hfirst : (c.shards shardId).commands.head? = some (requestId, command) := by
    rw [hcommands]
    rfl
  constructor
  · -- what the log has gained is this command
    intro hguard id x hx hplays hfailed
    have hfailed := hfailed.of_calls hcalls
    unfold Logged at hx
    rw [hbus.log] at hx
    split at hx
    · next hid =>
      subst hid
      obtain hx | hx := List.mem_append.mp hx
      · exact h hx hplays hfailed
      · obtain rfl := List.mem_singleton.mp hx
        exact (executed_plays hrooms hrun hplays).1.mpr
          (hguard ⟨hready, hfirst⟩ hplays hfailed)
    · exact h hx hplays hfailed
  · -- the command is in the log now, and its call has failed
    intro hP requestId' command' hturn hplays hfailed
    obtain ⟨rfl, rfl⟩ := Prod.mk.inj (Option.some.inj (hfirst.symm.trans hturn.first))
    have hlogged : Logged c' shardId ⟨requestId, command, c.load shardId, t⟩ := by
      unfold Logged
      rw [hbus.log, if_pos rfl]
      exact List.mem_append_right _ (List.mem_singleton_self _)
    exact (executed_plays hrooms hrun hplays).1.mp
      (hP hlogged hplays (hfailed.of_calls hcalls.symm))

/-- **The guard is exact, step by step.** -/
theorem inTime_iff (hinv : CallsInv c) (hrooms : ∀ id, RoomInv (c.load id)) (h : FailedUnchanged c)
    (i : Input) : c.InTime i ↔ FailedUnchanged (c.step cfg i) := by
  cases busStep cfg c i with
  | kept i hidle hsame =>
    refine iff_of_true ?_ (h.of_kept (logged_of_bus hsame.bus) fun hf => hf.of_calls hsame.calls)
    -- the guard is about a wait that ends and a command that is executed
    cases i with
    | timeout requestId => exact fun call hout => absurd hout (hidle call)
    | execute shardId env => exact fun hturn => absurd hturn (hidle _ _)
    | _ => trivial
  | begun request hcalls hreplies hbus =>
    -- a call that has just begun has not failed
    refine iff_of_true trivial (h.of_kept (logged_of_bus hbus) ?_)
    rintro n ⟨call, reply, hcall, hreturned, hok⟩
    refine ⟨call, reply, ?_, hreturned, hok⟩
    rw [hcalls, List.getElem?_append] at hcall
    split at hcall
    · exact hcall
    · obtain rfl := List.mem_singleton.mp (List.mem_of_getElem? hcall)
      cases hreturned
  | moved requestId call phase hcall hsent hphase hfollows hcalls hreplies hbus =>
    -- a look-up returns nothing
    refine iff_of_true trivial (h.of_kept (logged_of_bus hbus) fun {n} hf => ?_)
    rw [failed_phaseSet hcalls hcall] at hf
    split at hf
    · obtain ⟨reply, hreturned, -⟩ := hf
      exact absurd hreturned (hphase reply)
    · exact hf
  | pushed requestId call shardId hcall hphase hcalls hreplies hbus =>
    -- nor does a command that is sent
    refine iff_of_true trivial (h.of_kept (fun {id x} hx => ?_) fun {n} hf => ?_)
    · unfold Logged at hx ⊢
      rw [← hbus.log_same id rfl]
      exact hx
    · rw [failed_phaseSet hcalls hcall] at hf
      split at hf
      · obtain ⟨reply, hreturned, -⟩ := hf
        cases hreturned
      · exact hf
  | popped requestId call shardId reply hcall hphase hreply hcalls hreplies hbus =>
    refine iff_of_true trivial fun {id x} hx hplays hf => ?_
    have hx := logged_of_bus hbus hx
    rw [failed_phaseSet hcalls hcall] at hf
    split at hf
    · next hn =>
      -- the refusal has come from a shard
      obtain ⟨reply', hreturned, hok⟩ := hf
      obtain rfl := returned_afterCall hreturned
      exact (hinv.refused hx hplays).mpr
        (hinv.refusal (Or.inr hreply) hok hx hn hplays)
    · exact h hx hplays hf
  | timedOut requestId call hout hcalls hreplies hbus =>
    exact failedUnchanged_timedOut hinv h hout hcalls hbus
  | expired requestId hcalls hreplies hbus =>
    -- a reply that expires was of nobody
    exact iff_of_true trivial (h.of_kept (logged_of_bus hbus) fun hf => hf.of_calls hcalls)
  | executed shardId env requestId command rest reply? t hready hcommands hrun hcalls hreplies
      hbus =>
    exact failedUnchanged_executed (hrooms shardId) h hready hcommands hrun hcalls hbus
  | replied shardId requestId reply hanswer hcalls hreplies hbus =>
    -- a reply that is pushed is only on its way
    refine iff_of_true trivial (h.of_kept (fun {id x} hx => ?_) fun hf => hf.of_calls hcalls)
    unfold Logged at hx ⊢
    rw [← hbus.log_same id rfl]
    exact hx

/-- **A failed command changes nothing, exactly as long as calls fail in time.** -/
theorem failedUnchanged_run (cfg : ClusterConfig) (users : Dict UserId User)
    (games : Dict RoomId GameResult) (inputs : List Input) :
    Run.Guarded (step cfg) (fun c i _ => c.InTime i) (start users games) inputs ↔
      Run.Throughout (step cfg) (fun c _ => c.FailedUnchanged) (start users games) inputs := by
  refine Run.guarded_iff_throughout
    (J := fun c _ => CallsInv c ∧ ∀ id, RoomInv (c.load id))
    (fun c i _ h => ⟨callsInv_step h.1 h.2 i, roomInv_step i h.2⟩)
    (fun c i _ h hP => inTime_iff h.1 h.2 hP i)
    ⟨callsInv_start users games, roomInv_start users games⟩ ?_
  intro id x hx
  cases hx

/-- A gateway gives up on a slow shard. -/
def slowShard : List Input :=
  [.call (.createRoom Small.alice), .advance 0, .advance 0, .timeout 0,
    .execute "game-server-1" (Small.env ["wK . bK"])]

/-- The shard opens the room all the same. -/
theorem failedUnchanged_run_openedLate :
    ¬ FailedUnchanged (slowShard.foldl (step Small.cluster) (start Dict.empty Dict.empty)) := by
  -- the call has returned the timeout, and the shard has executed the command
  intro h
  have hcalls : (slowShard.foldl (step Small.cluster) (start Dict.empty Dict.empty)).calls[0]? =
      some ⟨.createRoom Small.alice,
        .returned (some { ok := false, error := "game server timeout" })⟩ := by
    decide +kernel
  have hlog : ∃ x ∈ ((slowShard.foldl (step Small.cluster)
        (start Dict.empty Dict.empty)).shards "game-server-1").log,
      (x.requestId = 0 ∧ x.command = .roomCreate Small.alice) ∧
        x.before.rooms.contains Small.room = false ∧ x.after.rooms.contains Small.room = true := by
    decide +kernel
  obtain ⟨x, hx, ⟨hid, hcommand⟩, hbefore, hafter⟩ := hlog
  have hplays : x.command.Plays := by
    rw [hcommand]
    trivial
  have hfailed : Failed (slowShard.foldl (step Small.cluster) (start Dict.empty Dict.empty)) 0 :=
    ⟨_, _, hcalls, rfl, rfl⟩
  have hrooms := (h hx hplays (hid ▸ hfailed)).rooms Small.room
  unfold Dict.contains at hbefore hafter
  rw [hrooms, hbefore] at hafter
  cases hafter

end Steps

end Cluster

end KungFuChess
