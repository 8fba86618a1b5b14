import KungFuChess.Server.Members
import KungFuChess.Split.CommandBus
import KungFuChess.Transport.ConnectionRegistry

/-!
# The gateway and its sockets

`Cluster` takes the calls of a gateway as they come. Here they come from the one event loop that
serves the sockets: it accepts them, lets users in, passes their requests on, and reports a
socket that has closed (`on_disconnect`). The loop runs one coroutine at a time, and almost
every Redis command blocks it. A call holds the loop until it has returned, but for a move and
for `on_disconnect` only the look-ups do, since their `GameCommandBus.call` runs in a worker
thread (`GatewayCall.blocks`). Everything else in the deployment may go on in the meantime.

`play` and `cancel_play` need no shard; what they do to the queue of the matchmaker is a step
of the deployment, and so is the row of a new user.
-/

namespace KungFuChess

/-- What `SessionService` knows of a user whom it lets in. -/
structure Session where
  userId : UserId
  username : String
  elo : Int
  token : String
  token_ne : ¬ token = "" := by decide
deriving DecidableEq, Repr

/-- `_finalize`, as far as the registry goes. -/
def Session.outcome (session : Session) : SessionOutcome where
  ok := true
  userId := session.userId
  username := session.username
  elo := session.elo
  token := session.token

/-- A session passes the assertions of `_apply_session`. -/
theorem Session.applySession (session : Session) (reg : ConnectionRegistry) (ws : WebSocket) :
    reg.applySession ws session.outcome =
      reg.bindUser ws session.userId session.username session.elo session.token := by
  have htoken : (some session.token).filter (· ≠ "") = some session.token := by
    simp [session.token_ne]
  have hfields : session.outcome.fields =
      some (session.userId, session.username, session.elo, session.token) := by
    unfold Session.outcome SessionOutcome.fields
    dsimp only
    rw [htoken]
  unfold ConnectionRegistry.applySession
  rw [if_pos (show session.outcome.ok = true from rfl), hfields]

/-! ### What holds the event loop -/

namespace CallPhase

/-- The call does not know its shard yet. -/
def LooksUp : CallPhase → Prop
  | .begun | .located _ => True
  | _ => False

/-- The call has returned, with a reply or with none. -/
def Over : CallPhase → Prop
  | .returned _ => True
  | _ => False

/-- Where a call stands is read off its phase. -/
instance : (phase : CallPhase) → Decidable phase.LooksUp
  | .begun | .located _ => .isTrue trivial
  | .addressed _ | .waiting _ | .refused | .returned _ => .isFalse id

/-- Whether a command has been sent, too. -/
instance : (phase : CallPhase) → Decidable phase.Sent
  | .begun | .located _ | .addressed _ => .isFalse id
  | .waiting _ | .refused | .returned _ => .isTrue trivial

/-- And whether a call has returned. -/
instance : (phase : CallPhase) → Decidable phase.Over
  | .returned _ => .isTrue trivial
  | .begun | .located _ | .addressed _ | .waiting _ | .refused => .isFalse id

end CallPhase

/-- The shard a match is for. -/
def MatchmakerEvent.shardId? : MatchmakerEvent → Option String
  | .createMatch _ _ _ shardId => some shardId
  | .matchTimeout _ _ => none

/-- The event loop waits for the call. -/
def GatewayCall.blocks (call : GatewayCall) : Bool :=
  match call.request with
  | .submitMove _ _ _ | .onDisconnect _ => call.phase.LooksUp
  | _ => ¬ call.phase.Over

/-- The requests that the handlers of a user's messages make. -/
def Request.sentBy (userId : UserId) : Request → Bool
  | .createRoom user | .joinRoom user _ | .submitMove user _ _ => user = userId
  | .buildStateDict _ => true
  | .onDisconnect _ | .reconnect _ => false

/-! ### The machine -/

/-- What the event loop is doing. -/
inductive Task where
  | idle
  /-- `login` or `auth` on a socket waits for `reconnect`. -/
  | session (ws : WebSocket) (session : Session) (requestId : Nat)
  /-- Another handler, or a coroutine whose socket has closed, waits for a call. -/
  | handler (requestId : Nat)
deriving DecidableEq, Repr

/-- The call the loop waits for. -/
def Task.requestId? : Task → Option Nat
  | .idle => none
  | .session _ _ requestId | .handler requestId => some requestId

/-- The deployment with the sockets of its gateway. -/
structure Gateway where
  cluster : Cluster := {}
  registry : ConnectionRegistry := {}
  task : Task := .idle

namespace Gateway

/-- What may happen next at the gateway. -/
inductive Input where
  /-- A socket connects. -/
  | accept
  /-- A `login` message that `AuthService` accepts. -/
  | login (ws : WebSocket) (session : Session)
  /-- An `auth` message with a valid token. -/
  | auth (ws : WebSocket) (session : Session)
  /-- Any other message that needs a shard. -/
  | request (ws : WebSocket) (request : Request)
  /-- The browser closes the socket. -/
  | close (ws : WebSocket)
  /-- The event loop goes on, if it need not wait any longer. -/
  | resume
  /-- A step of the deployment other than the begin of a call. -/
  | cluster (input : KungFuChess.Input)

variable (cfg : ClusterConfig) (g : Gateway)

/-- The call that the event loop waits for. -/
def awaited : Option GatewayCall :=
  g.task.requestId?.bind fun requestId => g.cluster.calls[requestId]?

/-- The event loop makes a call. -/
def call (request : Request) (task : Nat → Task) : Gateway :=
  { g with
    cluster := g.cluster.step cfg (.call request)
    task := task g.cluster.calls.length }

/-- `SessionService` calls `reconnect`. -/
def beginSession (ws : WebSocket) (session : Session) : Gateway :=
  g.call cfg (.reconnect session.userId) (.session ws session)

/-- The `finally` of `handle_client`, with `on_disconnect` up to its look-ups. -/
def closed (ws : WebSocket) : Gateway :=
  match g.registry.userOf ws with
  | none => { g with registry := g.registry.remove ws }
  | some userId =>
    { g with
      registry := g.registry.remove ws
      cluster := g.cluster.step cfg (.matchmaker (.cancel userId)) }.call cfg
      (.onDisconnect userId) .handler

/-- What the event loop waited for has come. -/
def resumed : Gateway :=
  match g.task with
  | .session ws session _ =>
    { g with registry := g.registry.applySession ws session.outcome, task := .idle }
  | .idle | .handler _ => { g with task := .idle }

/-- **A step of the gateway.** The loop takes an event only when it is idle. -/
def step : Input → Gateway
  | .accept => if g.task = .idle then { g with registry := g.registry.add } else g
  | .login ws session =>
    -- a socket that is logged in already may not log in again
    if g.task = .idle ∧ ws ∈ g.registry.byWs ∧ g.registry.authenticated ws = false then
      g.beginSession cfg ws session
    else g
  | .auth ws session =>
    -- `auth` is taken from every socket
    if g.task = .idle ∧ ws ∈ g.registry.byWs then g.beginSession cfg ws session else g
  | .request ws request =>
    -- a request is passed on for the user of the socket only
    if g.task = .idle ∧ ws ∈ g.registry.byWs ∧
        (g.registry.userOf ws).any (fun userId => request.sentBy userId) then
      g.call cfg request .handler
    else g
  | .close ws => if g.task = .idle ∧ ws ∈ g.registry.byWs then g.closed cfg ws else g
  -- the loop waits as long as the call blocks it
  | .resume => if g.awaited.any GatewayCall.blocks then g else g.resumed
  | .cluster (.call _) => g
  | .cluster input => { g with cluster := g.cluster.step cfg input }

/-- A gateway without sockets, over a database as it is. -/
def start (users : Dict UserId User) (games : Dict RoomId GameResult) : Gateway where
  cluster := Cluster.start users games

/-- What an input does, with what the event loop has checked. -/
inductive StepOutcome : Input → Gateway → Prop where
  | ignored (i : Input) (hcluster : ∀ input, i = .cluster input → ∃ request, input = .call request) :
      StepOutcome i g
  | accepted (hidle : g.task = .idle) : StepOutcome .accept { g with registry := g.registry.add }
  | loggedIn (ws : WebSocket) (session : Session) (hidle : g.task = .idle)
      (hws : ws ∈ g.registry.byWs) (hfree : g.registry.authenticated ws = false) :
      StepOutcome (.login ws session) (g.beginSession cfg ws session)
  | authed (ws : WebSocket) (session : Session) (hidle : g.task = .idle)
      (hws : ws ∈ g.registry.byWs) : StepOutcome (.auth ws session) (g.beginSession cfg ws session)
  | requested (ws : WebSocket) (request : Request) (hidle : g.task = .idle) :
      StepOutcome (.request ws request) (g.call cfg request .handler)
  | closed (ws : WebSocket) (hidle : g.task = .idle) : StepOutcome (.close ws) (g.closed cfg ws)
  | resumed : StepOutcome .resume g.resumed
  | stepped (input : KungFuChess.Input) :
      StepOutcome (.cluster input) { g with cluster := g.cluster.step cfg input }

/-- **What a step of the gateway does, by the input.** -/
theorem step_outcome (i : Input) : StepOutcome cfg g i (g.step cfg i) := by
  cases i with
  | accept =>
    simp only [step]
    split
    · next hidle => exact .accepted hidle
    · exact .ignored _ nofun
  | login ws session =>
    simp only [step]
    split
    · next hlogin => exact .loggedIn ws session hlogin.1 hlogin.2.1 hlogin.2.2
    · exact .ignored _ nofun
  | auth ws session =>
    simp only [step]
    split
    · next hauth => exact .authed ws session hauth.1 hauth.2
    · exact .ignored _ nofun
  | request ws request =>
    simp only [step]
    split
    · next hrequest => exact .requested ws request hrequest.1
    · exact .ignored _ nofun
  | close ws =>
    simp only [step]
    split
    · next hclose => exact .closed ws hclose.1
    · exact .ignored _ nofun
  | resume =>
    simp only [step]
    split
    · exact .ignored _ nofun
    · exact .resumed
  | cluster input =>
    cases input with
    | call request =>
      -- calls are begun by the event loop only
      refine .ignored _ ?_
      rintro _ ⟨⟩
      exact ⟨request, rfl⟩
    | _ => exact .stepped _

/-! ### Who is connected -/

/-- The registry has an open connection that is bound to the user. -/
def Present (userId : UserId) : Prop := ∃ ws, g.registry.BoundTo ws userId

/-- No `login` and no `auth` waits for the shard. -/
def NoLogin : Prop := ∀ ws session requestId, g.task ≠ .session ws session requestId

/-- No command and no event is in flight, and nobody is just being let in. -/
structure Quiet : Prop where
  logins : g.NoLogin
  calls : ∀ call ∈ g.cluster.calls, call.phase.Sent
  commands : ∀ id ∈ cfg.shards.shardIds, (g.cluster.shards id).commands = []
  events : ∀ id ∈ cfg.shards.shardIds,
    ∀ event ∈ g.cluster.matchmaker.events.drop (g.cluster.shards id).seen,
      event.shardId? ≠ some id

/-- **Every shard that is up knows which of its players are connected.** -/
def Agrees : Prop :=
  ∀ id ∈ cfg.shards.shardIds, (g.cluster.shards id).crashed = false →
    ∀ roomId userId member, (g.cluster.load id).memberOf roomId userId = some member →
      member.role ≠ .viewer → Running (g.cluster.load id) roomId →
        (member.status = .connected ↔ g.Present userId)

end Gateway

end KungFuChess
