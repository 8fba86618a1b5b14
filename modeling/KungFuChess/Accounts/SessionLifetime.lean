import KungFuChess.Accounts.Logins

/-!
# The lifetime of a session

A login answers a token, and for as long as a session lasts the token is accepted, whatever else
runs in between: the row of the session stays, because no other login draws the token and nobody
who presents it finds the row expired. What clocks show to requests with another token does not
matter: only the request that has found a row expired deletes it.

`Lasts` is what the other requests keep, and also the login itself once its session is made; until
then it relies on the others not to make one (`Untouched`).
-/

namespace KungFuChess

open Threads

variable {ι : Type} {hashPassword : String → String} {requests : ι → AuthRequest}
  {token : String} {start : ℚ} {t t' t'' : Tables}

/-- No session of the token expires within the lifetime. -/
def Tables.Fresh (t : Tables) (token : String) (start : ℚ) : Prop :=
  ∀ row, t.sessions.get? token = some row →
    start + SessionRepository.defaultTtlSeconds ≤ row.expiresAt

/-- The accounts are kept, and the session of the token as well. -/
structure Tables.Lasts (t : Tables) (token : String) (start : ℚ) (t' : Tables) : Prop where
  known : ∀ {userId username passwordHash}, t.KnownAs userId username passwordHash →
    t'.KnownAs userId username passwordHash
  fresh : t.Fresh token start → t'.Fresh token start
  session : t.Fresh token start → ∀ row, t.sessions.get? token = some row →
    t'.sessions.get? token = some row

/-- The accounts are kept, and the session of the token is left alone, also if there is none. -/
structure Tables.Untouched (t : Tables) (token : String) (start : ℚ) (t' : Tables) : Prop where
  known : ∀ {userId username passwordHash}, t.KnownAs userId username passwordHash →
    t'.KnownAs userId username passwordHash
  session : t.Fresh token start → t'.sessions.get? token = t.sessions.get? token

namespace Tables.Untouched

theorem refl (t : Tables) : t.Untouched token start t := ⟨id, fun _ => rfl⟩

theorem fresh (h : t.Untouched token start t') (hfresh : t.Fresh token start) :
    t'.Fresh token start := fun row hrow => hfresh row (h.session hfresh ▸ hrow)

theorem trans (h : t.Untouched token start t') (h' : t'.Untouched token start t'') :
    t.Untouched token start t'' :=
  ⟨fun hknown => h'.known (h.known hknown), fun hfresh =>
    (h'.session (h.fresh hfresh)).trans (h.session hfresh)⟩

theorem lasts (h : t.Untouched token start t') : t.Lasts token start t' :=
  ⟨h.known, h.fresh, fun hfresh _ hrow => (h.session hfresh).trans hrow⟩

theorem users {users : UsersTable} (hknown : ∀ {userId username passwordHash},
      t.KnownAs userId username passwordHash →
        ({ t with users := users } : Tables).KnownAs userId username passwordHash) :
    t.Untouched token start { t with users := users } := ⟨hknown, fun _ => rfl⟩

/-- A session of another token. -/
theorem create {token' : String} (hne : token' ≠ token) (row : SessionRow) :
    t.Untouched token start { t with sessions := t.sessions.set token' row } :=
  ⟨id, fun _ => Dict.get?_set_of_ne _ _ hne.symm⟩

theorem delete {token' : String} (hne : token' ≠ token) :
    t.Untouched token start { t with sessions := t.sessions.pop token' } :=
  ⟨id, fun _ => Dict.get?_pop_of_ne _ hne.symm⟩

end Tables.Untouched

namespace Tables.Lasts

theorem refl (t : Tables) : t.Lasts token start t := (Untouched.refl t).lasts

theorem trans (h : t.Lasts token start t') (h' : t'.Lasts token start t'') :
    t.Lasts token start t'' :=
  ⟨fun hknown => h'.known (h.known hknown), fun hfresh => h'.fresh (h.fresh hfresh),
    fun hfresh row hrow => h'.session (h.fresh hfresh) row (h.session hfresh row hrow)⟩

end Tables.Lasts

/-! ### Contracts -/

/-- A session made at `start` or later has not expired. -/
def Within (start now : ℚ) : Prop := now ≤ start + SessionRepository.defaultTtlSeconds

/-- The token of an answered login has its session. -/
def SessionMade (token : String) (start : ℚ) (answer : AuthAnswer) (t : Tables) : Prop :=
  ∀ result user, answer = .login result → result.user = some user →
    t.Fresh token start ∧ (∃ passwordHash, t.KnownAs user.userId user.username passwordHash) ∧
      ∃ expiresAt, t.sessions.get? token = some ⟨user.userId, expiresAt⟩

/-- The user is found under a new rating at most. -/
def AnswersUser (user : User) (answer : AuthAnswer) : Prop :=
  ∃ elo, answer = .authenticate (some { user with elo := elo })

/-- The terms of a part of the login that draws the token. -/
def makerTerms {A : Type} (token : String) (start : ℚ) (Q : A → Tables → Prop) :
    Contract Tables DbError A where
  Rely t t' := t.Untouched token start t'
  Guar t t' := t.Lasts token start t'
  Answers := Q
  Raises _ _ := True

/-- The terms of a part of any other request. -/
def otherTerms {A : Type} (token : String) (start : ℚ) (Q : A → Tables → Prop) (X : Prop) :
    Contract Tables DbError A where
  Rely t t' := t.Lasts token start t'
  Guar t t' := t.Untouched token start t'
  Answers := Q
  Raises _ _ := X

/-- The terms of the login `i` that draws the token, and of all others. -/
def sessionContract [DecidableEq ι] (i : ι) (token : String) (start : ℚ) (Q : ι → AuthAnswer → Prop)
    (X : ι → Prop) (k : ι) : Contract Tables DbError AuthAnswer :=
  if k = i then makerTerms token start (SessionMade token start)
  else otherTerms token start (fun answer _ => Q k answer) (X k)

section Contracts

variable [DecidableEq ι] {i k : ι} {Q : ι → AuthAnswer → Prop} {X : ι → Prop}

/-- A session that is made stays made. -/
theorem SessionMade.stable {answer : AuthAnswer} (h : SessionMade token start answer t)
    (hkept : t.Untouched token start t') : SessionMade token start answer t' := by
  intro result user hresult huser
  obtain ⟨hfresh, ⟨passwordHash, hknown⟩, expiresAt, hsession⟩ := h result user hresult huser
  exact ⟨hkept.fresh hfresh, ⟨passwordHash, hkept.known hknown⟩, expiresAt,
    (hkept.session hfresh).trans hsession⟩

/-- The login and the others fit together. -/
theorem sessionContract_fit : Pool.Fit (sessionContract i token start Q X) := by
  refine ⟨fun k => ?_, fun k k' hne {s s'} hguar => ?_⟩
  · unfold sessionContract
    split
    · exact ⟨Tables.Untouched.refl, Tables.Untouched.trans, fun hkept h => SessionMade.stable h hkept,
        fun _ _ => trivial⟩
    · exact ⟨Tables.Lasts.refl, Tables.Lasts.trans, fun _ h => h, fun _ h => h⟩
  · -- what one thread does is what another lets it do
    unfold sessionContract at hguar ⊢
    split at hguar
    · next hlogin =>
      rw [if_neg fun hk => hne (hk.trans hlogin.symm)]
      exact hguar
    · split
      · exact hguar
      · exact Tables.Untouched.lasts hguar

end Contracts

/-! ### The programs -/

section Programs

variable {newId userId : UserId} {username password : String}

theorem makerTerms_keepsAccounts {A : Type} {Q : A → Tables → Prop} :
    KeepsAccounts (makerTerms token start Q) :=
  ⟨Tables.Lasts.refl, fun hkept => hkept.known, fun hknown => (Tables.Untouched.users hknown).lasts⟩

theorem otherTerms_keepsAccounts {A : Type} {Q : A → Tables → Prop} {X : Prop} :
    KeepsAccounts (otherTerms token start Q X) :=
  ⟨Tables.Untouched.refl, fun hkept => hkept.known, Tables.Untouched.users⟩

/-- The login makes the session of its token. -/
theorem login_makes (hnone : t.sessions.get? token = none) :
    (AuthRequest.program hashPassword (.login newId token username password)).Meets (start ≤ ·)
      (makerTerms token start (SessionMade token start)) t := by
  let NoSession : Tables → Prop := fun t => t.sessions.get? token = none
  have hfresh : ∀ {t}, NoSession t → t.Fresh token start := fun h row hrow =>
    absurd (h.symm.trans hrow) (by simp)
  have hkeeps : ∀ {t t' : Tables}, t.Untouched token start t' → NoSession t → NoSession t' :=
    fun hkept h => (hkept.session (hfresh h)).trans h
  let Made : LoginResult → Tables → Prop := fun result t => SessionMade token start (.login result) t
  have hlogin : (AuthService.login hashPassword newId token username password).Meets (start ≤ ·)
      (makerTerms token start Made) t := by
    let Registered : Bool × String × Option User → Tables → Prop := fun answer t =>
      RegisterAnswered hashPassword username password answer t ∧ NoSession t
    have hterms := @makerTerms_keepsAccounts token start LoginResult Made
    refine Prog.Meets.bind (Q := Registered) (registerOrLogin_meets hterms hkeeps (fun h => h)
      (fun _ _ _ _ _ _ => trivial) hnone) fun answer t' hanswer => ?_
    -- a wrong password makes no session
    cases hanswer.1 with
    | rejected userId passwordHash =>
      intro result user hresult huser
      obtain rfl := AuthAnswer.login.inj hresult
      exact absurd huser (by simp)
    | accepted reason user hname hknown =>
      let Ready : Tables → Prop := fun t =>
        NoSession t ∧ t.KnownAs user.userId username (hashPassword password)
      let Stored : SessionRepository.Session → Tables → Prop := fun _ t => t.Fresh token start ∧
        t.KnownAs user.userId username (hashPassword password) ∧
          ∃ expiresAt, t.sessions.get? token = some ⟨user.userId, expiresAt⟩
      refine Prog.Meets.bind (Q := Stored) (create_meets (P := Ready) Tables.Lasts.refl
        (fun hkept h => ⟨hkeeps hkept h.1, hkept.known h.2⟩) (fun s now hnow hs => ?_)
        ⟨hanswer.2, hknown⟩) fun _ s hs => ?_
      · -- the new session lasts for the whole lifetime
        have hlasting : ({ s with sessions := s.sessions.set token ⟨user.userId, now +
            SessionRepository.defaultTtlSeconds⟩ } : Tables).Fresh token start := by
          intro row hrow
          dsimp only at hrow
          rw [Dict.get?_set_self] at hrow
          obtain rfl := Option.some.inj hrow
          exact add_le_add_left hnow _
        exact ⟨⟨id, fun _ => hlasting, fun _ row hrow => absurd (hs.1.symm.trans hrow) (by simp)⟩,
          hlasting, hs.2, _, Dict.get?_set_self _ _ _⟩
      · -- the answer names the user of the session
        intro result user' hresult huser
        obtain rfl := AuthAnswer.login.inj hresult
        obtain rfl := Option.some.inj huser
        exact ⟨hs.1, ⟨_, hname ▸ hs.2.1⟩, hs.2.2⟩
  exact Prog.Meets.bind hlogin fun _ _ hmade => hmade

/-- A session that has not expired is not deleted. -/
theorem getValid_leaves {token' : String} {Q : Option SessionRepository.Session → Tables → Prop}
    {X : Prop}
    (hfresh : t.Fresh token start)
    (hnone : ∀ t', t.Lasts token start t' → t'.sessions.get? token' = none → Q none t')
    (hvalid : ∀ t' row, t.Lasts token start t' → t'.sessions.get? token' = some row →
      Q (some ⟨token', row.userId, row.expiresAt⟩) t')
    (hexpired : token' ≠ token → ∀ t', Q none t') :
    (SessionRepository.getValid token').Meets (fun now => token' = token → Within start now)
      (otherTerms token start Q X) t := by
  refine getValid_meets (P := fun t' => t.Lasts token start t') Tables.Untouched.refl
    (fun hkept h => h.trans hkept) hnone (fun s now row _ hs hrow _ => hvalid s row hs hrow)
    (fun s s' now row hnow hs hrow hlate _ => ?_) (Tables.Lasts.refl t)
  -- the row that is deleted is that of another token
  have hne : token' ≠ token := by
    rintro rfl
    have hlasts := hs.fresh hfresh row hrow
    exact absurd hlate (not_lt.mpr ((hnow rfl).trans hlasts))
  exact ⟨Tables.Untouched.delete hne, hexpired hne _⟩

/-- A request that does not draw the token leaves its session alone. -/
theorem program_leaves {request : AuthRequest} (hfresh : t.Fresh token start)
    (hother : ∀ newId username password, request ≠ .login newId token username password) :
    (request.program hashPassword).Meets
      (fun now => request = .authenticate token → Within start now)
      (otherTerms token start (fun _ _ => True) True) t := by
  cases request with
  | login newId token' username password =>
    have hne : token' ≠ token := fun heq => hother newId username password (heq ▸ rfl)
    have hlogin : (AuthService.login hashPassword newId token' username password).Meets
        (fun _ => True) (otherTerms token start (fun _ _ => True) True) t := by
      have hterms := @otherTerms_keepsAccounts token start LoginResult (fun _ _ => True) True
      let Registered : Bool × String × Option User → Tables → Prop := fun answer t =>
        RegisterAnswered hashPassword username password answer t ∧ True
      refine Prog.Meets.bind (Q := Registered) (registerOrLogin_meets hterms (fun _ h => h)
        (fun h => h) (fun _ _ _ _ _ _ => trivial) trivial) fun answer t' hanswer => ?_
      cases hanswer.1 with
      | rejected => exact trivial
      -- the token it draws is another one
      | accepted reason user =>
        exact Prog.Meets.bind (Q := fun _ _ => True) (create_meets (P := fun _ => True)
          Tables.Untouched.refl (fun _ h => h)
          (fun _ _ _ _ => ⟨Tables.Untouched.create hne _, trivial⟩) trivial) fun _ _ _ => trivial
    have hprogram : (AuthRequest.program hashPassword (.login newId token' username password)).Meets
        (fun _ => True) (otherTerms token start (fun _ _ => True) True) t :=
      Prog.Meets.bind hlogin fun _ _ _ => trivial
    exact hprogram.anti fun _ _ => trivial
  | authenticate token' =>
    -- a row that is read is left, unless it is another token's and has expired
    have hvalid := @getValid_leaves token start t token' (fun _ _ => True) True hfresh
      (fun _ _ _ => trivial) (fun _ _ _ _ => trivial) fun _ _ => trivial
    have hauth : (AuthService.authenticate token').Meets
        (fun now => token' = token → Within start now)
        (otherTerms token start (fun _ _ => True) True) t := by
      refine Prog.Meets.bind hvalid fun session? s _ => ?_
      cases session? with
      | none => exact trivial
      | some session => exact Prog.meets_read Tables.Untouched.refl fun _ _ => trivial
    have hprogram : (AuthRequest.program hashPassword (.authenticate token')).Meets
        (fun now => token' = token → Within start now)
        (otherTerms token start (fun _ _ => True) True) t :=
      Prog.Meets.bind hauth fun _ _ _ => trivial
    exact hprogram.anti fun _ hnow heq => hnow (congrArg AuthRequest.authenticate heq)
  | setElo userId elo =>
    -- a rating is no account and no session
    have hset : (UserRepository.setElo userId elo).Meets (fun _ => True)
        (otherTerms token start (fun _ _ => True) True) t :=
      setElo_meets otherTerms_keepsAccounts fun _ => trivial
    have hprogram : (AuthRequest.program hashPassword (.setElo userId elo)).Meets (fun _ => True)
        (otherTerms token start (fun _ _ => True) True) t :=
      Prog.Meets.bind hset fun _ _ _ => trivial
    exact hprogram.anti fun _ _ => trivial

/-- With the session in the table, the token is accepted. -/
theorem authenticate_accepts {user : User} {passwordHash : String} {expiresAt : ℚ}
    (hfresh : t.Fresh token start) (hknown : t.KnownAs user.userId user.username passwordHash)
    (hsession : t.sessions.get? token = some ⟨user.userId, expiresAt⟩) :
    (AuthRequest.program hashPassword (.authenticate token)).Meets (Within start)
      (otherTerms token start (fun answer _ => AnswersUser user answer) False) t := by
  let Found : Option SessionRepository.Session → Tables → Prop := fun session? t' =>
    session? = some ⟨token, user.userId, expiresAt⟩ ∧ t.Lasts token start t'
  have hvalid := @getValid_leaves token start t token Found False hfresh
    (fun t' hlasts hnone => absurd ((hlasts.session hfresh _ hsession).symm.trans hnone) (by simp))
    (fun t' row hlasts hrow => by
      obtain rfl := Option.some.inj ((hlasts.session hfresh _ hsession).symm.trans hrow)
      exact ⟨rfl, hlasts⟩)
    fun hne => absurd rfl hne
  have hvalid := hvalid.anti fun _ (hnow : Within start _) _ => hnow
  have hauth : (AuthService.authenticate token).Meets (Within start)
      (otherTerms token start
        (fun user? _ => ∃ elo, user? = some { user with elo := elo }) False) t := by
    refine Prog.Meets.bind hvalid fun session? s hfound => ?_
    obtain ⟨rfl, hlasts⟩ := hfound
    refine Prog.meets_read Tables.Untouched.refl fun s' hs' => ?_
    -- the account of the session is still there, under the same name
    obtain ⟨row, hrow, hname, -⟩ := hs'.known (hlasts.known hknown)
    have hid : row.user.userId = user.userId := s'.users.keyed _ _ hrow
    refine ⟨row.user.elo, ?_⟩
    rw [hrow, Option.map_some, Option.some.injEq]
    obtain ⟨⟨userId, username, elo⟩, hash⟩ := row
    simp only [User.mk.injEq]
    exact ⟨hid, hname, trivial⟩
  exact Prog.Meets.bind hauth fun user? _ hanswer => by
    obtain ⟨elo, rfl⟩ := hanswer
    exact ⟨elo, rfl⟩

end Programs

/-! ### Runs -/

variable [DecidableEq ι]

/-- What the clocks may show to request `k`: no time before `start` to the login, and to whoever
presents its token no time after the lifetime of a session from then on. -/
def sessionClock (requests : ι → AuthRequest) (i : ι) (token : String) (start : ℚ) (k : ι)
    (now : ℚ) : Prop :=
  (k = i → start ≤ now) ∧ (requests k = .authenticate token → Within start now)

/-- **Up to the answer of the login**: the login makes its session, and the others leave it. -/
theorem authPool_meets_pre {t₀ : Tables} {pre : List (ι × ℚ)} {i : ι} {newId : UserId}
    {username password : String} (hi : requests i = .login newId token username password)
    (hdrawn : ∀ k newId username password, requests k = .login newId token username password → k = i)
    (hnew : t₀.sessions.get? token = none)
    (hclock : ∀ turn ∈ pre, sessionClock requests i token start turn.1 turn.2) :
    ((authPool hashPassword requests t₀).run pre).Meets (sessionClock requests i token start)
      (sessionContract i token start (fun _ _ => True) fun _ => True) := by
  have hfresh : t₀.Fresh token start := fun row hrow => absurd (hnew.symm.trans hrow) (by simp)
  have hbegin : (authPool hashPassword requests t₀).Meets (sessionClock requests i token start)
      (sessionContract i token start (fun _ _ => True) fun _ => True) := by
    -- before the first statement, thread by thread
    intro k
    change ((requests k).program hashPassword).Meets _ _ t₀
    unfold sessionContract
    split
    · next heq =>
      rw [heq, hi]
      exact (login_makes hnew).anti fun _ hnow => hnow.1 rfl
    · next hother =>
      have hleaves := @program_leaves hashPassword token start t₀ (requests k) hfresh
        fun newId username password hk => hother (hdrawn k newId username password hk)
      exact hleaves.anti fun _ hnow => hnow.2
  exact (Pool.meets_run (P := fun _ => True) sessionContract_fit (fun _ _ _ _ h => h) hbegin
    trivial hclock).1

/-- **A token that a login has answered is accepted** by every `authenticate` that begins after the
answer, as long as no clock under which the token is presented has run past the lifetime of a
session that counts from `start`, a time that the clock of the login does not fall before. -/
theorem accepted_run {t₀ : Tables} {pre post : List (ι × ℚ)} {i j : ι} {newId : UserId}
    {username password : String} {result : LoginResult} {user : User}
    (hstart : ∀ turn ∈ pre, turn.1 = i → start ≤ turn.2)
    (hclock : ∀ turn ∈ pre ++ post, requests turn.1 = .authenticate token → Within start turn.2)
    (hi : requests i = .login newId token username password)
    (hdrawn : ∀ k newId username password, requests k = .login newId token username password → k = i)
    (hnew : t₀.sessions.get? token = none)
    (hanswer : ((authPool hashPassword requests t₀).run pre).threads i = .done (.login result))
    (huser : result.user = some user) (hj : requests j = .authenticate token)
    (hlater : ∀ turn ∈ pre, turn.1 ≠ j) :
    (∀ answer, ((authPool hashPassword requests t₀).run (pre ++ post)).threads j = .done answer →
        AnswersUser user answer) ∧
      ∀ err, ((authPool hashPassword requests t₀).run (pre ++ post)).threads j ≠ .raised err := by
  -- the request has not begun when the login answers
  have hbegins : ((authPool hashPassword requests t₀).run pre).threads j =
      (requests j).program hashPassword := Pool.threads_run hlater
  have hne : j ≠ i := by
    rintro rfl
    rw [hi] at hj
    exact absurd hj (by simp)
  have hpre : ((authPool hashPassword requests t₀).run pre).Meets
      (sessionClock requests i token start)
      (sessionContract i token start (fun _ _ => True) fun _ => True) :=
    authPool_meets_pre hi hdrawn hnew fun turn hturn =>
      ⟨hstart turn hturn, hclock turn (List.mem_append_left post hturn)⟩
  have hmade := hpre i
  rw [hanswer, sessionContract, if_pos rfl] at hmade
  obtain ⟨hfresh, ⟨passwordHash, hknown⟩, expiresAt, hsession⟩ := hmade result user rfl huser
  -- from there on the login has ended, and its clock does not count
  have hmeets : ((authPool hashPassword requests t₀).run pre).Meets
      (fun k now => requests k = .authenticate token → Within start now)
      (sessionContract i token start (fun k answer => k = j → AnswersUser user answer)
        fun k => k ≠ j) := by
    -- the authentication, the login itself, and all the others
    intro k
    by_cases hk : k = j
    · subst hk
      rw [sessionContract, if_neg hne, hbegins, hj]
      exact ((authenticate_accepts hfresh hknown hsession).imp (fun _ _ h _ => h)
        fun _ _ h => h.elim).anti fun _ hnow => hnow hj
    · by_cases heq : k = i
      · subst heq
        rw [hanswer, sessionContract, if_pos rfl]
        exact hmade
      · have hother := hpre k
        rw [sessionContract, if_neg heq] at hother ⊢
        exact (hother.imp (fun _ _ _ h => absurd h hk) fun _ _ _ => hk).anti fun _ hnow =>
          ⟨fun h => absurd h heq, hnow⟩
  have hpost := (Pool.meets_run (P := fun _ => True) sessionContract_fit (fun _ _ _ _ h => h) hmeets
    trivial fun turn hturn => hclock turn (List.mem_append_right pre hturn)).1 j
  rw [← Pool.run_append, sessionContract, if_neg hne] at hpost
  refine ⟨fun answer hdone => ?_, fun err hraised => ?_⟩
  · rw [hdone] at hpost
    exact hpost rfl
  · rw [hraised] at hpost
    exact hpost rfl

/-- Ada logs in and comes back with her token; somebody else presents another one. -/
def adaAgain (k : Fin 3) : AuthRequest :=
  if k.val = 0 then .login ⟨"u7", by decide⟩ "tok" "ada" "secret"
  else if k.val = 1 then .authenticate "tok" else .authenticate "other"

/-- What happens until Ada has her token. -/
def adaBefore : List (Fin 3 × ℚ) := [(2, 0), (0, 0), (0, 0), (0, 5), (0, 5)]

/-- And a day later. -/
def adaAfter : List (Fin 3 × ℚ) := [(1, 86400), (2, 90000), (1, 86400), (2, 90000), (1, 86400)]

/-- A day after the login Ada is still accepted, although another clock is already further on. -/
theorem accepted_run_ada :
    (∀ answer, ((authPool id adaAgain Tables.empty).run (adaBefore ++ adaAfter)).threads 1 =
        .done answer → AnswersUser ⟨⟨"u7", by decide⟩, "ada", 1200⟩ answer) ∧
      ∀ err, ((authPool id adaAgain Tables.empty).run (adaBefore ++ adaAfter)).threads 1 ≠
        .raised err := by
  have hcases : ∀ k : Fin 3, k = 0 ∨ k = 1 ∨ k = 2 := by decide
  have hstart : ∀ turn ∈ adaBefore, turn.1 = 0 → (0 : ℚ) ≤ turn.2 := by decide +kernel
  have hclock : ∀ turn ∈ adaBefore ++ adaAfter, adaAgain turn.1 = .authenticate "tok" →
      Within 0 turn.2 := by
    unfold Within
    decide +kernel
  have hdrawn : ∀ k newId username password,
      adaAgain k = .login newId "tok" username password → k = 0 := by
    intro k newId username password hk
    obtain rfl | rfl | rfl := hcases k
    · rfl
    · exact absurd hk (by simp [adaAgain])
    · exact absurd hk (by simp [adaAgain])
  -- the answer of the login is evaluated
  have hanswer : ((authPool id adaAgain Tables.empty).run adaBefore).threads 0 = .done (.login
      { ok := true, reason := "registered", user := some ⟨⟨"u7", by decide⟩, "ada", 1200⟩
        token := some "tok" }) := Prog.answer?_eq_some_iff.mp (by decide +kernel)
  exact accepted_run hstart hclock rfl hdrawn rfl hanswer rfl rfl (by decide)

end KungFuChess
