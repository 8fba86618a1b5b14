import KungFuChess.Library.Run
import KungFuChess.Server.Domain

/-!
# The connection registry

`ConnectionRegistry` keeps one `ConnectionContext` for each accepted socket and knows for
each user the context the user is bound to. Contexts are mutable objects, shared by the two
maps and by the coroutine that serves the socket, which keeps its context also after the
registry has forgotten it. They live here in one list; sockets are numbered in the order in
which they are accepted, and the context of a socket is found under its number.

## What the registry is for

`ConnectionRegistry.Consistent` says that the map of the users and the contexts agree:
`_by_user` leads a user to a context exactly when that context carries the user and its
socket is still registered. `add` and `remove` keep this, and `bind_user` keeps it as long
as the context it writes does not belong to somebody else (`consistent_bindUser_iff`): the
entry of the user whose context is taken over would stay where it is.

`_on_login` never gets that far, because it refuses a socket that is authenticated;
`_on_auth` has no such check. So a run is consistent throughout exactly when no `auth`
message is accepted on a socket that is bound to another user
(`guarded_iff_consistent`).
-/

namespace KungFuChess

/-- A socket: how many were accepted before it. -/
abbrev WebSocket := ℕ

/-- What is known of a socket. -/
structure ConnectionContext where
  /-- Who is logged in on it, if anybody. -/
  userId : Option UserId := none
  username : Option String := none
  elo : Option Int := none
  token : Option String := none
deriving DecidableEq, Repr

/-- The registry, with the two maps of the source. -/
structure ConnectionRegistry where
  /-- The contexts of all sockets accepted so far. -/
  contexts : List ConnectionContext := []
  /-- The keys of `_by_ws`; the value under a socket is the context of that socket. -/
  byWs : List WebSocket := []
  /-- `_by_user`, with a context given by its socket. -/
  byUser : Dict UserId WebSocket := Dict.empty

/-- What `SessionService` answers. -/
structure SessionOutcome where
  ok : Bool
  reason : String := ""
  userId : Option UserId := none
  username : Option String := none
  elo : Option Int := none
  token : Option String := none
  rejoinRoomId : Option RoomId := none
  rejoinColor : Option PlayerRole := none
deriving DecidableEq, Repr

/-- The fields of a session, if the answer passes the two assertions of `_apply_session`. -/
def SessionOutcome.fields (outcome : SessionOutcome) : Option (UserId × String × Int × String) :=
  match outcome.userId, outcome.username, outcome.elo, outcome.token.filter (· ≠ "") with
  | some userId, some username, some elo, some token => some (userId, username, elo, token)
  | _, _, _, _ => none

namespace ConnectionRegistry

/-- `ctx.user_id` of the context of a socket. -/
def userOf (reg : ConnectionRegistry) (ws : WebSocket) : Option UserId :=
  reg.contexts[ws]?.bind ConnectionContext.userId

/-- `ConnectionContext.authenticated`. -/
def authenticated (reg : ConnectionRegistry) (ws : WebSocket) : Bool := (reg.userOf ws).isSome

/-- Mutate the context of a socket. -/
def modifyContext (reg : ConnectionRegistry) (ws : WebSocket)
    (f : ConnectionContext → ConnectionContext) : ConnectionRegistry :=
  { reg with contexts := reg.contexts.modify ws f }

/-! ### The operations -/

/-- `add`, for the next socket that is accepted. -/
def add (reg : ConnectionRegistry) : ConnectionRegistry :=
  { reg with
    contexts := reg.contexts ++ [{}]
    byWs := reg.byWs ++ [reg.contexts.length] }

/-- The first statements of `bind_user`: the previous socket of the user loses the user. -/
def dropPrevious (reg : ConnectionRegistry) (ws : WebSocket) (userId : UserId) :
    ConnectionRegistry :=
  match reg.byUser.get? userId with
  | some old =>
    if old ≠ ws then reg.modifyContext old fun ctx => { ctx with userId := none } else reg
  | none => reg

/-- `bind_user`: the socket belongs to the user now, and no other one does. -/
def bindUser (reg : ConnectionRegistry) (ws : WebSocket) (userId : UserId) (username : String)
    (elo : Int) (token : String) : ConnectionRegistry :=
  let bound := (reg.dropPrevious ws userId).modifyContext ws fun ctx =>
    { ctx with userId := some userId, username := some username, elo := some elo
               token := some token }
  { bound with byUser := bound.byUser.set userId ws }

/-- The entry that `remove` deletes: that of the context's user, if it leads to the context. -/
def entryOf (reg : ConnectionRegistry) (ws : WebSocket) : Option UserId :=
  (reg.userOf ws).filter fun userId => reg.byUser.get? userId = some ws

/-- `remove`: the socket is forgotten, and its user with it. -/
def remove (reg : ConnectionRegistry) (ws : WebSocket) : ConnectionRegistry :=
  if ws ∈ reg.byWs then
    { reg with
      byWs := reg.byWs.filter (· ≠ ws)
      -- the entry is deleted only if it leads to this socket
      byUser := match reg.entryOf ws with
        | some userId => reg.byUser.pop userId
        | none => reg.byUser }
  else reg

/-- `get_by_user`. -/
def getByUser (reg : ConnectionRegistry) (userId : UserId) : Option WebSocket :=
  reg.byUser.get? userId

/-- The frames `send_to_user` sends. A failure to send is logged and forgotten. -/
def sendToUser {Frame : Type} (reg : ConnectionRegistry) (userId : UserId) (message : Frame) :
    List (WebSocket × Frame) :=
  ((reg.byUser.get? userId).map fun ws => (ws, message)).toList

/-- `broadcast_users`: each user with a socket gets the message once. -/
def broadcastUsers {Frame : Type} (reg : ConnectionRegistry) (userIds : List UserId)
    (message : Frame) : List (WebSocket × Frame) :=
  userIds.flatMap fun userId => reg.sendToUser userId message

/-- What `_apply_session` does to the registry. -/
def applySession (reg : ConnectionRegistry) (ws : WebSocket) (outcome : SessionOutcome) :
    ConnectionRegistry :=
  if outcome.ok then
    match outcome.fields with
    | some (userId, username, elo, token) => reg.bindUser ws userId username elo token
    | none => reg
  else reg

/-! ### What the operations change -/

section Effects

variable {reg : ConnectionRegistry} {ws ws' : WebSocket} {userId userId' : UserId}
  {username : String} {elo : Int} {token : String}

/-- Whose a socket is after a change of one context. -/
theorem userOf_modifyContext (f : ConnectionContext → ConnectionContext) :
    (reg.modifyContext ws f).userOf ws' =
      if ws' = ws then (reg.contexts[ws]?.map f).bind ConnectionContext.userId
      else reg.userOf ws' := by
  unfold userOf modifyContext
  rw [List.getElem?_modify]
  by_cases h : ws' = ws
  · subst h
    simp
  · simp [h, Ne.symm h]

/-- A new socket is nobody's. -/
theorem userOf_add :
    reg.add.userOf ws = if ws = reg.contexts.length then none else reg.userOf ws := by
  unfold userOf add
  by_cases h : ws = reg.contexts.length
  · subst h
    simp
  · rw [if_neg h]
    rcases Nat.lt_or_gt_of_ne h with hlt | hgt
    · rw [List.getElem?_append_left hlt]
    · rw [List.getElem?_eq_none (by simp; omega), List.getElem?_eq_none (by omega)]

/-- The socket the user had before is nobody's. -/
theorem userOf_dropPrevious :
    (reg.dropPrevious ws userId).userOf ws' =
      if reg.byUser.get? userId = some ws' ∧ ws' ≠ ws then none else reg.userOf ws' := by
  unfold dropPrevious
  split
  · next old hold =>
    -- a user who is bound to the same socket again does not lose it
    by_cases hws : old = ws
    · subst hws
      rw [if_neg (by simp), if_neg]
      rintro ⟨heq, hne⟩
      exact hne (Option.some.inj (heq.symm.trans hold))
    · rw [if_pos hws, userOf_modifyContext]
      by_cases h : ws' = old
      · subst h
        rw [if_pos rfl, if_pos ⟨hold, hws⟩]
        cases reg.contexts[ws']? <;> rfl
      · rw [if_neg h, if_neg]
        rintro ⟨heq, -⟩
        exact h (Option.some.inj (heq.symm.trans hold))
  · next hnone => simp [hnone]

/-- Dropping changes contexts and adds none. -/
theorem length_dropPrevious :
    (reg.dropPrevious ws userId).contexts.length = reg.contexts.length := by
  unfold dropPrevious
  split
  · split
    · exact List.length_modify _ _ _
    · rfl
  · rfl

/-- It closes no socket. -/
theorem byWs_dropPrevious : (reg.dropPrevious ws userId).byWs = reg.byWs := by
  unfold dropPrevious
  split
  · split <;> rfl
  · rfl

/-- It leaves the map of the users alone. -/
theorem byUser_dropPrevious : (reg.dropPrevious ws userId).byUser = reg.byUser := by
  unfold dropPrevious
  split
  · split <;> rfl
  · rfl

/-- The bound socket carries the user, and no other socket the registry knows of does. -/
theorem userOf_bindUser (hws : ws < reg.contexts.length) :
    (reg.bindUser ws userId username elo token).userOf ws' =
      if ws' = ws then some userId
      else if reg.byUser.get? userId = some ws' then none else reg.userOf ws' := by
  have hctx : ((reg.dropPrevious ws userId).contexts[ws]?).isSome := by
    rw [isSome_getElem?, length_dropPrevious]
    exact hws
  obtain ⟨ctx, hctx⟩ := Option.isSome_iff_exists.mp hctx
  refine (userOf_modifyContext _).trans ?_
  split
  · rw [hctx]
    rfl
  · next hne =>
    rw [userOf_dropPrevious]
    simp [hne]

/-- Binding closes no socket. -/
theorem byWs_bindUser : (reg.bindUser ws userId username elo token).byWs = reg.byWs :=
  byWs_dropPrevious

/-- The entry of the user leads to the socket. -/
theorem byUser_bindUser :
    (reg.bindUser ws userId username elo token).byUser.get? userId' =
      if userId' = userId then some ws else reg.byUser.get? userId' := by
  refine (Dict.get?_set _ _ _ _).trans ?_
  rw [show ((reg.dropPrevious ws userId).modifyContext ws _).byUser = reg.byUser from
    byUser_dropPrevious]

/-- Binding adds no context. -/
theorem length_bindUser :
    (reg.bindUser ws userId username elo token).contexts.length = reg.contexts.length :=
  (List.length_modify _ _ _).trans length_dropPrevious

end Effects

/-! ### Consistency -/

/-- The socket is registered, and its context carries the user. -/
def BoundTo (reg : ConnectionRegistry) (ws : WebSocket) (userId : UserId) : Prop :=
  reg.userOf ws = some userId ∧ ws ∈ reg.byWs

/-- Whether a socket is bound to a user is decided by looking. -/
instance (reg : ConnectionRegistry) (ws : WebSocket) (userId : UserId) :
    Decidable (reg.BoundTo ws userId) := inferInstanceAs (Decidable (_ ∧ _))

/-- **The registry is consistent.** -/
structure Consistent (reg : ConnectionRegistry) : Prop where
  entry_iff : ∀ userId ws, reg.byUser.get? userId = some ws ↔ reg.BoundTo ws userId
  one_socket : ∀ userId ws ws', reg.BoundTo ws userId → reg.BoundTo ws' userId → ws = ws'
  delivered : ∀ {Frame : Type} (userId : UserId) (message : Frame),
    ∀ frame ∈ reg.sendToUser userId message, reg.BoundTo frame.1 userId
  no_entry : ∀ userId ws, ws ∉ reg.byWs → reg.getByUser userId ≠ some ws
  closed : ∀ userId ws, reg.BoundTo ws userId → (reg.remove ws).getByUser userId = none

section Consistency

variable {reg : ConnectionRegistry} {ws : WebSocket} {userId : UserId} {username : String}
  {elo : Int} {token : String}

/-- Everything else follows from the agreement of the two sides. -/
theorem consistent_of_entry_iff
    (h : ∀ userId ws, reg.byUser.get? userId = some ws ↔ reg.BoundTo ws userId) :
    reg.Consistent where
  entry_iff := h
  one_socket userId ws ws' hws hws' := by
    have heq := ((h userId ws).mpr hws).symm.trans ((h userId ws').mpr hws')
    exact Option.some.inj heq
  delivered userId message frame hframe := by
    unfold sendToUser at hframe
    rw [Option.mem_toList, Option.map_eq_some_iff] at hframe
    obtain ⟨ws, hentry, rfl⟩ := hframe
    exact (h userId ws).mp hentry
  no_entry userId ws hws hentry := hws ((h userId ws).mp hentry).2
  closed userId ws hbound := by
    -- `remove` finds the entry by the user of the context
    have hentry := (h userId ws).mpr hbound
    have hentryOf : reg.entryOf ws = some userId := by
      unfold entryOf
      rw [hbound.1]
      simpa using hentry
    unfold getByUser remove
    rw [if_pos hbound.2, hentryOf]
    exact Dict.get?_pop_self _ _

/-- The empty registry is consistent. -/
theorem consistent_empty : ({} : ConnectionRegistry).Consistent :=
  consistent_of_entry_iff fun _ _ => iff_of_false nofun nofun

/-- A broadcast reaches bound sockets of the listed users only. -/
theorem Consistent.broadcast {Frame : Type} (h : reg.Consistent) {userIds : List UserId}
    {message : Frame} {frame : WebSocket × Frame}
    (hframe : frame ∈ reg.broadcastUsers userIds message) :
    ∃ userId ∈ userIds, reg.BoundTo frame.1 userId := by
  obtain ⟨userId, hmem, hsent⟩ := List.mem_flatMap.mp hframe
  exact ⟨userId, hmem, h.delivered userId message frame hsent⟩

/-- **A new socket keeps the registry consistent.** -/
theorem Consistent.add (h : reg.Consistent) : reg.add.Consistent := by
  refine consistent_of_entry_iff fun userId ws => ?_
  refine (h.entry_iff userId ws).trans ?_
  unfold BoundTo
  rw [userOf_add]
  -- the new one is bound to nobody, and in no entry
  by_cases hnew : ws = reg.contexts.length
  · subst hnew
    have hnone : reg.userOf reg.contexts.length = none := by
      unfold userOf
      rw [List.getElem?_eq_none (le_refl _)]
      rfl
    simp [hnone]
  · simp [ConnectionRegistry.add, hnew]

/-- **Closing a socket keeps the registry consistent.** -/
theorem Consistent.remove (h : reg.Consistent) : (reg.remove ws).Consistent := by
  by_cases hws : ws ∈ reg.byWs
  · refine consistent_of_entry_iff fun userId ws' => ?_
    have hbound : (reg.remove ws).BoundTo ws' userId ↔ reg.BoundTo ws' userId ∧ ws' ≠ ws := by
      unfold ConnectionRegistry.remove
      rw [if_pos hws]
      unfold BoundTo
      rw [List.mem_filter, and_assoc]
      simp [userOf]
    rw [hbound, ← h.entry_iff]
    unfold ConnectionRegistry.remove
    rw [if_pos hws]
    split
    · next userId' hentry =>
      have hentry' : reg.byUser.get? userId' = some ws := by
        simpa using (Option.filter_eq_some_iff.mp hentry).2
      -- the entry that is removed led to the closed socket
      rw [Dict.get?_pop]
      split
      · next heq =>
        subst heq
        rw [hentry']
        refine iff_of_false (Option.some_ne_none _).symm ?_
        rintro ⟨heq, hne⟩
        exact hne (Option.some.inj heq).symm
      · next hne =>
        refine ⟨fun hget => ⟨hget, ?_⟩, And.left⟩
        -- two users would have the closed socket
        rintro rfl
        have huser := (((h.entry_iff userId ws').mp hget).1).symm.trans
          ((h.entry_iff userId' ws').mp hentry').1
        exact hne (Option.some.inj huser)
    · next hentry =>
      -- the socket has no entry that leads to it, and none is deleted
      refine ⟨fun hget => ⟨hget, ?_⟩, And.left⟩
      rintro rfl
      unfold entryOf at hentry
      rw [((h.entry_iff userId ws').mp hget).1] at hentry
      simp [hget] at hentry
  · unfold ConnectionRegistry.remove
    rwa [if_neg hws]

/-- `bind_user` keeps the registry consistent unless it takes a context over from a user. -/
theorem consistent_bindUser_iff (h : reg.Consistent) (hws : ws ∈ reg.byWs)
    (hlt : ws < reg.contexts.length) :
    (reg.bindUser ws userId username elo token).Consistent ↔
      ∀ owner, reg.userOf ws = some owner → owner = userId := by
  constructor
  · intro hbound owner howner
    -- the entry of a previous owner would stay
    by_contra hne
    have hentry : (reg.bindUser ws userId username elo token).byUser.get? owner = some ws := by
      rw [byUser_bindUser, if_neg hne]
      exact (h.entry_iff owner ws).mpr ⟨howner, hws⟩
    have huser := ((hbound.entry_iff owner ws).mp hentry).1
    rw [userOf_bindUser hlt, if_pos rfl] at huser
    exact hne (Option.some.inj huser).symm
  · -- the other way round, the four cases of the socket and the user
    intro hfree
    refine consistent_of_entry_iff fun userId' ws' => ?_
    unfold BoundTo
    rw [byUser_bindUser, userOf_bindUser hlt, byWs_bindUser]
    by_cases hsock : ws' = ws
    · subst hsock
      rw [if_pos rfl]
      by_cases huser : userId' = userId
      · subst huser
        simp [hws]
      · -- another user has no entry to this socket, since it was free or the user's own
        rw [if_neg huser, h.entry_iff]
        refine iff_of_false (fun hold => huser (hfree userId' hold.1)) ?_
        rintro ⟨heq, -⟩
        exact huser (Option.some.inj heq).symm
    · rw [if_neg hsock]
      by_cases huser : userId' = userId
      · subst huser
        rw [if_pos rfl]
        refine iff_of_false (fun heq => hsock (Option.some.inj heq).symm) ?_
        rintro ⟨heq, hmem⟩
        -- the previous socket has lost the user
        split at heq
        · cases heq
        · next hprev => exact hprev ((h.entry_iff userId' ws').mpr ⟨heq, hmem⟩)
      · -- another socket of another user
        rw [if_neg huser, h.entry_iff]
        by_cases hprev : reg.byUser.get? userId = some ws'
        · have howner := ((h.entry_iff userId ws').mp hprev).1
          rw [if_pos hprev]
          refine iff_of_false ?_ fun hnone => (Option.some_ne_none _).symm hnone.1
          rintro ⟨heq, -⟩
          exact huser (Option.some.inj (heq.symm.trans howner))
        · rw [if_neg hprev]
          rfl

end Consistency

/-! ### Runs -/

/-- The handlers of `MessageRouter` that bind a socket, by what they do to the registry. -/
def onLogin (reg : ConnectionRegistry) (ws : WebSocket) (outcome : SessionOutcome) :
    ConnectionRegistry :=
  if reg.authenticated ws then reg else reg.applySession ws outcome

/-- `_on_auth` past its parser: no check of who is on the socket. -/
def onAuth (reg : ConnectionRegistry) (ws : WebSocket) (outcome : SessionOutcome) :
    ConnectionRegistry :=
  reg.applySession ws outcome

/-- What happens to the registry. A `login` or an `auth` comes with the answer of the session
service; the coroutine of a socket handles messages as long as the socket is registered. -/
inductive Event where
  | accept
  | login (ws : WebSocket) (outcome : SessionOutcome)
  | auth (ws : WebSocket) (outcome : SessionOutcome)
  | close (ws : WebSocket)
deriving Repr

/-- **A step of the registry.** A message on a socket that is closed does nothing. -/
def step (reg : ConnectionRegistry) : Event → ConnectionRegistry
  | .accept => reg.add
  | .login ws outcome => if ws ∈ reg.byWs then reg.onLogin ws outcome else reg
  | .auth ws outcome => if ws ∈ reg.byWs then reg.onAuth ws outcome else reg
  | .close ws => reg.remove ws

/-- The socket of an accepted `auth` is not bound to another user. -/
def AuthOwn (reg : ConnectionRegistry) : Event → Prop
  | .auth ws outcome =>
    ws ∈ reg.byWs → outcome.ok → ∀ userId username elo token,
      outcome.fields = some (userId, username, elo, token) →
        ∀ owner, reg.userOf ws = some owner → owner = userId
  | _ => True

/-- Registered sockets have a context. -/
def WellFormed (reg : ConnectionRegistry) : Prop := ∀ ws ∈ reg.byWs, ws < reg.contexts.length

section Runs

variable {reg : ConnectionRegistry} {ws : WebSocket} {outcome : SessionOutcome}

/-- An answer keeps the registry well formed. -/
theorem wellFormed_applySession (h : reg.WellFormed) : (reg.applySession ws outcome).WellFormed := by
  unfold applySession
  split
  · split
    · intro ws' hws'
      rw [length_bindUser]
      exact h ws' (by rwa [byWs_bindUser] at hws')
    · exact h
  · exact h

/-- Every step keeps it well formed. -/
theorem wellFormed_step (h : reg.WellFormed) (event : Event) : (reg.step event).WellFormed := by
  cases event with
  | accept =>
    intro ws hws
    simp only [step, add, List.mem_append, List.mem_singleton, List.length_append,
      List.length_singleton] at hws ⊢
    -- an old socket, or the one that was accepted
    rcases hws with hold | rfl
    · exact Nat.lt_succ_of_lt (h ws hold)
    · exact Nat.lt_succ_self _
  | login ws outcome =>
    unfold step onLogin
    dsimp only
    split
    · -- a login that is refused changes nothing
      split
      · exact h
      · exact wellFormed_applySession h
    · exact h
  | auth ws outcome =>
    unfold step onAuth
    dsimp only
    split
    · exact wellFormed_applySession h
    · exact h
  | close ws =>
    unfold step remove
    dsimp only
    -- the sockets left are among those before
    split
    · exact fun ws' hws' => h ws' (List.mem_of_mem_filter hws')
    · exact h

/-- What an answer does to a consistent registry. -/
theorem consistent_applySession_iff (hwf : reg.WellFormed) (h : reg.Consistent)
    (hws : ws ∈ reg.byWs) :
    (reg.applySession ws outcome).Consistent ↔
      (outcome.ok → ∀ userId username elo token,
        outcome.fields = some (userId, username, elo, token) →
          ∀ owner, reg.userOf ws = some owner → owner = userId) := by
  unfold applySession
  by_cases hok : outcome.ok
  · rw [if_pos hok]
    cases hfields : outcome.fields with
    | none => exact iff_of_true h fun _ _ _ _ _ => nofun
    | some fields =>
      -- the answer is good and complete, so the socket is bound
      obtain ⟨userId, username, elo, token⟩ := fields
      refine (consistent_bindUser_iff h hws (hwf ws hws)).trans ?_
      constructor
      · rintro hown - _ _ _ _ ⟨⟩
        exact hown
      · exact fun hown => hown hok userId username elo token rfl
  · -- an answer that is not good binds nobody
    rw [if_neg hok]
    exact iff_of_true h fun hok' => absurd hok' hok

/-- A step keeps the registry consistent exactly when it is not an `auth` that takes a
context over. -/
theorem consistent_step_iff (hwf : reg.WellFormed) (h : reg.Consistent) (event : Event) :
    (reg.step event).Consistent ↔ reg.AuthOwn event := by
  cases event with
  -- only an `auth` can take a socket over
  | accept => exact iff_of_true h.add trivial
  | login ws outcome =>
    refine iff_of_true ?_ trivial
    unfold step onLogin
    dsimp only
    split
    · next hws =>
      split
      · exact h
      · next hfree =>
        -- a login is refused on a socket that is bound
        refine (consistent_applySession_iff hwf h hws).mpr fun _ _ _ _ _ _ owner howner => ?_
        exact absurd (Option.isSome_iff_exists.mpr ⟨owner, howner⟩) hfree
    · exact h
  | auth ws outcome =>
    unfold step onAuth AuthOwn
    dsimp only
    by_cases hws : ws ∈ reg.byWs
    · rw [if_pos hws, consistent_applySession_iff hwf h hws]
      exact ⟨fun hown _ => hown, fun hown => hown hws⟩
    · rw [if_neg hws]
      exact iff_of_true h fun hws' => absurd hws' hws
  | close ws => exact iff_of_true h.remove trivial

/-- **The registry is consistent in every state of a run** exactly when no `auth` of the run is
accepted on a socket that is bound to another user. -/
theorem guarded_iff_consistent (events : List Event) :
    Run.Guarded step (fun reg event _ => reg.AuthOwn event) {} events ↔
      Run.Throughout step (fun reg _ => reg.Consistent) {} events :=
  Run.guarded_iff_throughout (J := fun reg _ => reg.WellFormed)
    (fun _ event _ h => wellFormed_step h event)
    (fun _ event _ hwf h => (consistent_step_iff hwf h event).symm)
    (nofun : ({} : ConnectionRegistry).WellFormed) consistent_empty

/-- A session of a user who has just logged in. -/
def freshSession (userId : UserId) : SessionOutcome where
  ok := true
  userId := some userId
  username := some userId.text
  elo := some 1200
  token := some "token"

/-- A user with a socket. -/
def carol : UserId := ⟨"carol", by decide⟩

/-- Another user, on the same one. -/
def dave : UserId := ⟨"dave", by decide⟩

/-- Carol logs in, and the same socket then presents the token of Dave. -/
def tokenOfAnother : List Event :=
  [.accept, .login 0 (freshSession carol), .auth 0 (freshSession dave)]

/-- Her entry leads to a socket that is no longer hers. -/
theorem not_consistent_tokenOfAnother : ¬ (tokenOfAnother.foldl step {}).Consistent := by
  intro h
  have hentry : (tokenOfAnother.foldl step {}).byUser.get? carol = some 0 := by decide
  have hbound := (h.entry_iff carol 0).mp hentry
  exact absurd hbound.1 (by decide)

/-- A message for Carol then goes to the socket of Dave, and her entry outlives the socket. -/
example : (tokenOfAnother.foldl step {}).userOf 0 = some dave ∧
    (tokenOfAnother.foldl step {}).sendToUser carol "hello" = [(0, "hello")] ∧
    (((tokenOfAnother ++ [Event.close 0]).foldl step {}).getByUser carol = some 0) := by
  decide

end Runs

end ConnectionRegistry

end KungFuChess
