import KungFuChess.Accounts.AuthService

/-!
# Logins in any order

The requests of a pool run statement by statement in any order over one pair of tables. A name has
one account: logins with the name, however they overlap, are given the same user if they present the
password of the account, and are turned away if they do not (`oneAccount_run`). Where two of them
find the name free, the table takes one row, and the other call raises.

A token stands for the user it was issued to: whoever is authenticated by a token has logged in with
the right password and drawn that token, or has a session from before that has not expired
(`authenticated_run`). In turn, a token that a login has answered is accepted for as long as a
session lasts (`accepted_run`).

All three rest on one relation between the tables before and after a statement, `Tables.Kept`: no
account is lost or changed in what identifies it, and no session appears that is not genuine.
-/

namespace KungFuChess

open Threads

variable {ι : Type} {hashPassword : String → String} {requests : ι → AuthRequest}
  {t₀ t t' t'' : Tables}

/-- There is an account with this identifier, name and password hash. -/
def Tables.KnownAs (t : Tables) (userId : UserId) (username passwordHash : String) : Prop :=
  ∃ row, t.users.selectById userId = some row ∧ row.user.username = username ∧
    row.passwordHash = passwordHash

/-- The session is from before, or was made by a login of the pool with the right password. -/
def Tables.IssuedTo (t : Tables) (hashPassword : String → String) (requests : ι → AuthRequest)
    (t₀ : Tables) (token : String) (userId : UserId) (expiresAt : ℚ) : Prop :=
  t₀.sessions.get? token = some ⟨userId, expiresAt⟩ ∨
    ∃ i newId username password, requests i = .login newId token username password ∧
      t.KnownAs userId username (hashPassword password)

/-- Every session was issued to its user. -/
def Tables.Genuine (t : Tables) (hashPassword : String → String) (requests : ι → AuthRequest)
    (t₀ : Tables) : Prop :=
  ∀ token row, t.sessions.get? token = some row →
    t.IssuedTo hashPassword requests t₀ token row.userId row.expiresAt

/-- What every statement keeps. -/
structure Tables.Kept (t : Tables) (hashPassword : String → String) (requests : ι → AuthRequest)
    (t₀ t' : Tables) : Prop where
  known : ∀ {userId username passwordHash}, t.KnownAs userId username passwordHash →
    t'.KnownAs userId username passwordHash
  genuine : t.Genuine hashPassword requests t₀ → t'.Genuine hashPassword requests t₀

/-! ### Accounts -/

namespace Tables.KnownAs

variable {userId userId' : UserId} {username username' passwordHash passwordHash' : String}

/-- An identifier stands for one account. -/
theorem same (h : t.KnownAs userId username passwordHash)
    (h' : t.KnownAs userId username' passwordHash') :
    username = username' ∧ passwordHash = passwordHash' := by
  obtain ⟨row, hrow, rfl, rfl⟩ := h
  obtain ⟨row', hrow', rfl, rfl⟩ := h'
  obtain rfl := Option.some.inj (hrow.symm.trans hrow')
  exact ⟨rfl, rfl⟩

/-- So does a name. -/
theorem sameName (h : t.KnownAs userId username passwordHash)
    (h' : t.KnownAs userId' username passwordHash') : userId = userId' := by
  obtain ⟨row, hrow, hname, -⟩ := h
  obtain ⟨row', hrow', hname', -⟩ := h'
  exact t.users.unique _ _ _ _ hrow hrow' (hname.trans hname'.symm)

/-- A row found by a name is an account with the name. -/
theorem of_selectByUsername {row : UserRow}
    (h : t.users.selectByUsername username = some row) :
    t.KnownAs row.user.userId username row.passwordHash := by
  obtain ⟨hrow, hname⟩ := UsersTable.selectByUsername_eq_some_iff.mp h
  exact ⟨row, hrow, hname, rfl⟩

/-- A new row adds an account and touches no other. -/
theorem insert {users : UsersTable} {row : UserRow} (hinsert : t.users.insert row = .ok users)
    (h : t.KnownAs userId username passwordHash) :
    ({ t with users := users } : Tables).KnownAs userId username passwordHash := by
  obtain ⟨row', hrow', hname, hhash⟩ := h
  unfold UsersTable.insert at hinsert
  split at hinsert
  · next hfree =>
    obtain rfl := Except.ok.inj hinsert
    refine ⟨row', ?_, hname, hhash⟩
    change (t.users.rows.set row.user.userId row).get? userId = some row'
    rw [Dict.get?_set, if_neg]
    · exact hrow'
    · rintro rfl
      exact absurd (hfree.1.symm.trans hrow') (by simp)
  · exact absurd hinsert (by simp)

/-- A row that has been inserted is an account. -/
theorem inserted {users : UsersTable} {row : UserRow} (hinsert : t.users.insert row = .ok users) :
    ({ t with users := users } : Tables).KnownAs row.user.userId row.user.username
      row.passwordHash := by
  unfold UsersTable.insert at hinsert
  split at hinsert
  · obtain rfl := Except.ok.inj hinsert
    refine ⟨row, ?_, rfl, rfl⟩
    change (t.users.rows.set row.user.userId row).get? row.user.userId = some row
    exact Dict.get?_set_self _ _ _
  · exact absurd hinsert (by simp)

/-- A refused row has its identifier or its name in the table. -/
theorem refused {row : UserRow} {err : DbError} (hinsert : t.users.insert row = .error err) :
    (∃ username passwordHash, t.KnownAs row.user.userId username passwordHash) ∨
      ∃ userId passwordHash, t.KnownAs userId row.user.username passwordHash := by
  unfold UsersTable.insert at hinsert
  split at hinsert
  · exact absurd hinsert (by simp)
  · next htaken =>
    by_cases hid : t.users.selectById row.user.userId = none
    · obtain ⟨row', hrow'⟩ := Option.ne_none_iff_exists'.mp fun hname => htaken ⟨hid, hname⟩
      exact Or.inr ⟨_, _, of_selectByUsername hrow'⟩
    · obtain ⟨row', hrow'⟩ := Option.ne_none_iff_exists'.mp hid
      exact Or.inl ⟨_, _, row', hrow', rfl, rfl⟩

/-- A new rating changes no account. -/
theorem updateElo (h : t.KnownAs userId username passwordHash) (ratedId : UserId) (elo : Int) :
    ({ t with users := t.users.updateElo ratedId elo } : Tables).KnownAs userId username
      passwordHash := by
  obtain ⟨row, hrow, rfl, rfl⟩ := h
  unfold Tables.KnownAs UsersTable.selectById UsersTable.updateElo
  dsimp only
  by_cases hid : userId = ratedId
  · refine ⟨{ row with user := { row.user with elo := elo } }, ?_, rfl, rfl⟩
    rw [hid, Dict.get?_modify_self, ← hid, show t.users.rows.get? userId = some row from hrow]
    rfl
  · refine ⟨row, ?_, rfl, rfl⟩
    rw [Dict.get?_modify_of_ne _ _ hid]
    exact hrow

end Tables.KnownAs

/-! ### The programs -/

/-- The terms do not let accounts get lost. -/
structure KeepsAccounts {A : Type} (c : Contract Tables DbError A) : Prop where
  refl : ∀ t, c.Guar t t
  known : ∀ {t t' userId username passwordHash}, c.Rely t t' →
    t.KnownAs userId username passwordHash → t'.KnownAs userId username passwordHash
  users : ∀ {t users}, (∀ {userId username passwordHash}, t.KnownAs userId username passwordHash →
      ({ t with users := users } : Tables).KnownAs userId username passwordHash) →
    c.Guar t { t with users := users }

section Programs

variable {ok : ℚ → Prop} {newId userId : UserId} {token username password : String}

/-- What `register_or_login` answers. -/
inductive RegisterAnswered (hashPassword : String → String) (username password : String) :
    Bool × String × Option User → Tables → Prop where
  | accepted {t : Tables} (reason : String) (user : User) (hname : user.username = username)
      (hknown : t.KnownAs user.userId username (hashPassword password)) :
      RegisterAnswered hashPassword username password (true, reason, some user) t
  | rejected {t : Tables} (userId : UserId) (passwordHash : String)
      (hknown : t.KnownAs userId username passwordHash) (hne : passwordHash ≠ hashPassword password) :
      RegisterAnswered hashPassword username password (false, "wrong password", none) t

/-- `P` is what the others keep, and the writing of accounts as well. -/
theorem registerOrLogin_meets {A : Type} {c : Contract Tables DbError A} {P : Tables → Prop}
    (hc : KeepsAccounts c) (hP : ∀ {t t'}, c.Rely t t' → P t → P t')
    (husers : ∀ {t users}, P t → P { t with users := users })
    (hraises : ∀ t row err, row.user.userId = newId → row.user.username = username →
      t.users.insert row = .error err → c.Raises err t) (h : P t) :
    (UserRepository.registerOrLogin hashPassword newId username password).Meets ok
      { c with Answers := fun answer t =>
          RegisterAnswered hashPassword username password answer t ∧ P t } t := by
  let Selected : Option UserRow → Tables → Prop := fun row? t => P t ∧ ∀ row, row? = some row →
    row.user.username = username ∧ t.KnownAs row.user.userId username row.passwordHash
  refine Prog.Meets.bind (Q := Selected)
    (Prog.meets_read hc.refl fun t' ht' => ⟨hP ht' h, fun row hrow => ?_⟩)
    fun row? t' hselected => ?_
  · exact ⟨(UsersTable.selectByUsername_eq_some_iff.mp hrow).2,
      Tables.KnownAs.of_selectByUsername hrow⟩
  · cases row? with
    | none =>
      -- the name was free, and may be taken by now
      let Inserted : Unit → Tables → Prop := fun _ t =>
        t.KnownAs newId username (hashPassword password) ∧ P t
      refine Prog.Meets.bind (Q := Inserted)
        (Prog.meets_attempt hc.refl (fun s s' hs hinsert => ?_) fun s err _ hinsert => ?_)
        fun _ s hinserted => ⟨.accepted _ _ rfl hinserted.1, hinserted.2⟩
      · obtain ⟨users, hnew, rfl⟩ := Tables.insertUser_ok hinsert
        exact ⟨hc.users (Tables.KnownAs.insert hnew), Tables.KnownAs.inserted hnew,
          husers (hP hs hselected.1)⟩
      · exact hraises s _ err rfl rfl (Tables.insertUser_error hinsert)
    | some row =>
      obtain ⟨hname, hknown⟩ := hselected.2 row rfl
      by_cases hhash : row.passwordHash ≠ hashPassword password
      · dsimp only
        rw [if_pos hhash]
        exact ⟨.rejected _ _ hknown hhash, hselected.1⟩
      · dsimp only
        rw [if_neg hhash]
        rw [not_not.mp hhash] at hknown
        exact ⟨.accepted _ _ hname hknown, hselected.1⟩

/-- `P` is what the others keep until the session is made. -/
theorem create_meets {c : Contract Tables DbError SessionRepository.Session} {P : Tables → Prop}
    (hrefl : ∀ t, c.Guar t t) (hP : ∀ {t t'}, c.Rely t t' → P t → P t')
    (hcreate : ∀ t now, ok now → P t →
      c.Guar t { t with
          sessions := t.sessions.set token ⟨userId, now + SessionRepository.defaultTtlSeconds⟩ } ∧
        c.Answers ⟨token, userId, now + SessionRepository.defaultTtlSeconds⟩ { t with
          sessions := t.sessions.set token ⟨userId, now + SessionRepository.defaultTtlSeconds⟩ })
    (h : P t) : (SessionRepository.create token userId).Meets ok c t := by
  let Now : ℚ → Tables → Prop := fun now t => ok now ∧ P t
  refine Prog.Meets.bind (Q := Now) (Prog.meets_input hrefl fun s hs now hnow => ⟨hnow, hP hs h⟩)
    fun now s hnow => ?_
  refine Prog.Meets.bind
    (Q := fun _ t => c.Answers ⟨token, userId, now + SessionRepository.defaultTtlSeconds⟩ t)
    (Prog.meets_write fun s' hs' => ?_) fun _ _ hanswered => hanswered
  exact hcreate s' now hnow.1 (hP hs' hnow.2)

/-- `P` is what the others keep until the session is read; they run again before an expired one is
deleted. -/
theorem getValid_meets {c : Contract Tables DbError (Option SessionRepository.Session)}
    {P : Tables → Prop}
    (hrefl : ∀ t, c.Guar t t) (hP : ∀ {t t'}, c.Rely t t' → P t → P t')
    (hnone : ∀ t, P t → t.sessions.get? token = none → c.Answers none t)
    (hvalid : ∀ t now row, ok now → P t → t.sessions.get? token = some row → now ≤ row.expiresAt →
      c.Answers (some ⟨token, row.userId, row.expiresAt⟩) t)
    (hexpired : ∀ t t' now row, ok now → P t → t.sessions.get? token = some row →
      row.expiresAt < now → c.Rely t t' →
        c.Guar t' { t' with sessions := t'.sessions.pop token } ∧
          c.Answers none { t' with sessions := t'.sessions.pop token })
    (h : P t) : (SessionRepository.getValid token).Meets ok c t := by
  -- the clock shows `now`, and the others run again before the row is read
  let Now : ℚ → Tables → Prop := fun now t => ok now ∧ P t
  refine Prog.Meets.bind (Q := Now) (Prog.meets_input hrefl fun s hs now hnow => ⟨hnow, hP hs h⟩)
    fun now s hnow => ?_
  let Selected : Option SessionRow → Tables → Prop := fun row? t =>
    P t ∧ t.sessions.get? token = row?
  refine Prog.Meets.bind (Q := Selected) (Prog.meets_read hrefl fun s' hs' =>
    ⟨hP hs' hnow.2, rfl⟩) fun row? s' hselected => ?_
  cases row? with
  | none => exact hnone s' hselected.1 hselected.2
  | some row =>
    dsimp only
    split
    · next hlate =>
      -- the row has expired, and is deleted in a statement of its own
      exact Prog.Meets.bind (Q := fun _ t => c.Answers none t)
        (Prog.meets_write fun s'' hs'' =>
          hexpired s' s'' now row hnow.1 hselected.1 hselected.2 hlate hs'')
        fun _ _ hanswered => hanswered
    -- it has not
    · next hearly => exact hvalid s' now row hnow.1 hselected.1 hselected.2 (not_lt.mp hearly)

/-- Whoever is found under an identifier is known by it. -/
theorem known_of_selectById {user : User}
    (h : (t.users.selectById userId).map UserRow.user = some user) :
    user.userId = userId ∧ ∃ passwordHash, t.KnownAs userId user.username passwordHash := by
  obtain ⟨row, hrow, rfl⟩ := Option.map_eq_some_iff.mp h
  exact ⟨t.users.keyed _ _ hrow, row.passwordHash, row, hrow, rfl, rfl⟩

theorem setElo_meets {c : Contract Tables DbError Unit} {elo : Int} (hc : KeepsAccounts c)
    (hanswers : ∀ t, c.Answers () t) : (UserRepository.setElo userId elo).Meets ok c t :=
  Prog.meets_write fun _ _ => ⟨hc.users fun hknown => hknown.updateElo userId elo, hanswers _⟩

end Programs

/-! ### What is kept -/

namespace Tables.Kept

theorem refl (t : Tables) : t.Kept hashPassword requests t₀ t := ⟨id, id⟩

theorem trans (h : t.Kept hashPassword requests t₀ t') (h' : t'.Kept hashPassword requests t₀ t'') :
    t.Kept hashPassword requests t₀ t'' :=
  ⟨fun hknown => h'.known (h.known hknown), fun hgenuine => h'.genuine (h.genuine hgenuine)⟩

/-- What was issued stays issued where the accounts are kept. -/
theorem issued (hknown : ∀ {userId username passwordHash},
      t.KnownAs userId username passwordHash → t'.KnownAs userId username passwordHash)
    {token : String} {userId : UserId} {expiresAt : ℚ}
    (h : t.IssuedTo hashPassword requests t₀ token userId expiresAt) :
    t'.IssuedTo hashPassword requests t₀ token userId expiresAt :=
  h.imp_right fun ⟨i, newId, username, password, hi, hrow⟩ =>
    ⟨i, newId, username, password, hi, hknown hrow⟩

/-- A statement that writes accounts. -/
theorem users {users : UsersTable} (hknown : ∀ {userId username passwordHash},
      t.KnownAs userId username passwordHash →
        ({ t with users := users } : Tables).KnownAs userId username passwordHash) :
    t.Kept hashPassword requests t₀ { t with users := users } :=
  ⟨hknown, fun hgenuine token row hrow => issued hknown (hgenuine token row hrow)⟩

/-- A session is deleted. -/
theorem delete (token : String) :
    t.Kept hashPassword requests t₀ { t with sessions := t.sessions.pop token } := by
  refine ⟨id, fun hgenuine token' row hrow => ?_⟩
  dsimp only at hrow
  rw [Dict.get?_pop] at hrow
  split at hrow
  · exact absurd hrow (by simp)
  · exact hgenuine token' row hrow

/-- A session is made by a login that knows the password. -/
theorem create {i : ι} {newId userId : UserId} {token username password : String} {expiresAt : ℚ}
    (hi : requests i = .login newId token username password)
    (hknown : t.KnownAs userId username (hashPassword password)) :
    t.Kept hashPassword requests t₀
      { t with sessions := t.sessions.set token ⟨userId, expiresAt⟩ } := by
  refine ⟨id, fun hgenuine token' row hrow => ?_⟩
  dsimp only at hrow
  rw [Dict.get?_set] at hrow
  split at hrow
  · next heq =>
    obtain rfl := Option.some.inj hrow
    exact Or.inr ⟨i, newId, username, password, heq ▸ hi, hknown⟩
  · exact hgenuine token' row hrow

end Tables.Kept

/-! ### Contracts -/

/-- The clock shows at least this. -/
def NotBefore (start now : ℚ) : Prop := start ≤ now

/-- What a login answers, in terms of the tables. -/
structure LoginAnswered (hashPassword : String → String) (token username password : String)
    (result : LoginResult) (t : Tables) : Prop where
  accepted : result.ok = true → ∃ user, result.user = some user ∧ user.username = username ∧
    result.token = some token ∧ t.KnownAs user.userId username (hashPassword password)
  rejected : result.ok = false → result.user = none ∧ result.reason = "wrong password" ∧
    ∃ userId passwordHash, t.KnownAs userId username passwordHash ∧
      passwordHash ≠ hashPassword password

/-- Whom a token stands for. -/
def Authenticated (hashPassword : String → String) (requests : ι → AuthRequest) (t₀ : Tables)
    (start : ℚ) (token : String) (user : User) (t : Tables) : Prop :=
  ∃ passwordHash, t.KnownAs user.userId user.username passwordHash ∧
    ∃ expiresAt, start ≤ expiresAt ∧
      t.IssuedTo hashPassword requests t₀ token user.userId expiresAt

/-- What is true of an answer when it comes. -/
def AuthRequest.Answered (hashPassword : String → String) (requests : ι → AuthRequest) (t₀ : Tables)
    (start : ℚ) : AuthRequest → AuthAnswer → Tables → Prop
  | .login _ token username password, .login result, t =>
    LoginAnswered hashPassword token username password result t
  | .authenticate token, .authenticate user?, t =>
    ∀ user, user? = some user → Authenticated hashPassword requests t₀ start token user t
  | .setElo _ _, .setElo, _ => True
  | _, _, _ => False

/-- A login raises when its row is refused; nothing else raises. -/
def AuthRequest.Raised : AuthRequest → DbError → Tables → Prop
  | .login newId _ username _, _, t =>
    (∃ username passwordHash, t.KnownAs newId username passwordHash) ∨
      ∃ userId passwordHash, t.KnownAs userId username passwordHash
  | _, _, _ => False

/-- The terms on which the part of a request runs that answers `Q`. -/
def authTerms {A : Type} (hashPassword : String → String) (requests : ι → AuthRequest) (t₀ : Tables)
    (request : AuthRequest) (Q : A → Tables → Prop) : Contract Tables DbError A where
  Rely t t' := t.Kept hashPassword requests t₀ t'
  Guar t t' := t.Kept hashPassword requests t₀ t'
  Answers := Q
  Raises := request.Raised

/-- The terms of a request among the others. -/
def authContract (hashPassword : String → String) (requests : ι → AuthRequest) (t₀ : Tables)
    (start : ℚ) (i : ι) : Contract Tables DbError AuthAnswer :=
  authTerms hashPassword requests t₀ (requests i)
    ((requests i).Answered hashPassword requests t₀ start)

section Stable

variable {start : ℚ}

/-- An answer to a login stays true. -/
theorem LoginAnswered.mono {token username password : String} {result : LoginResult}
    (h : LoginAnswered hashPassword token username password result t)
    (hkept : t.Kept hashPassword requests t₀ t') :
    LoginAnswered hashPassword token username password result t' := by
  refine ⟨fun hok => ?_, fun hok => ?_⟩
  · obtain ⟨user, huser, hname, htoken, hknown⟩ := h.accepted hok
    exact ⟨user, huser, hname, htoken, hkept.known hknown⟩
  · obtain ⟨hnone, hreason, userId, passwordHash, hknown, hne⟩ := h.rejected hok
    exact ⟨hnone, hreason, userId, passwordHash, hkept.known hknown, hne⟩

/-- Answers and exceptions stay true while the others keep what they have to. -/
theorem authContract_stable (i : ι) : (authContract hashPassword requests t₀ start i).Stable := by
  refine ⟨Tables.Kept.refl, Tables.Kept.trans, fun {a s s'} hkept ha => ?_,
    fun {e s s'} hkept he => ?_⟩
  · -- the answer speaks of accounts and of tokens, and both are kept
    change (requests i).Answered hashPassword requests t₀ start a s at ha
    change (requests i).Answered hashPassword requests t₀ start a s'
    cases hrequest : requests i with
    | login newId token username password =>
      rw [hrequest] at ha
      cases a with
      | login result => exact LoginAnswered.mono ha hkept
      | authenticate | setElo => exact ha
    | authenticate token =>
      rw [hrequest] at ha
      cases a with
      | authenticate user? =>
        intro user huser
        obtain ⟨passwordHash, hknown, expiresAt, hstart, hissued⟩ := ha user huser
        exact ⟨passwordHash, hkept.known hknown, expiresAt, hstart,
          Tables.Kept.issued hkept.known hissued⟩
      | login | setElo => exact ha
    | setElo userId elo =>
      rw [hrequest] at ha
      cases a <;> exact ha
  · -- an exception speaks of the account that is in its way
    change (requests i).Raised e s at he
    change (requests i).Raised e s'
    cases hrequest : requests i with
    | login newId token username password =>
      rw [hrequest] at he
      obtain ⟨name, passwordHash, hknown⟩ | ⟨userId, passwordHash, hknown⟩ := he
      · exact Or.inl ⟨name, passwordHash, hkept.known hknown⟩
      · exact Or.inr ⟨userId, passwordHash, hkept.known hknown⟩
    | authenticate token =>
      rw [hrequest] at he
      exact he
    | setElo userId elo =>
      rw [hrequest] at he
      exact he

/-- The requests fit together: what one guarantees is what the others rely on. -/
theorem authContract_fit : Pool.Fit (authContract hashPassword requests t₀ start) :=
  ⟨authContract_stable, fun _ _ _ _ _ hguar => hguar⟩

end Stable

/-! ### The requests -/

section Requests

variable {start : ℚ} {i : ι} {newId : UserId} {token username password : String}

theorem authTerms_keepsAccounts {A : Type} {request : AuthRequest} {Q : A → Tables → Prop} :
    KeepsAccounts (authTerms hashPassword requests t₀ request Q) :=
  ⟨Tables.Kept.refl, fun hkept => hkept.known, Tables.Kept.users⟩

/-- **A login keeps to its terms.** -/
theorem login_meets (hi : requests i = .login newId token username password) (ok : ℚ → Prop) :
    (AuthService.login hashPassword newId token username password).Meets ok
      (authTerms hashPassword requests t₀ (.login newId token username password)
        (LoginAnswered hashPassword token username password)) t := by
  let Registered : Bool × String × Option User → Tables → Prop := fun answer t =>
    RegisterAnswered hashPassword username password answer t ∧ True
  have hterms := @authTerms_keepsAccounts ι hashPassword requests t₀ LoginResult
    (.login newId token username password) (LoginAnswered hashPassword token username password)
  refine Prog.Meets.bind (Q := Registered) (registerOrLogin_meets hterms (fun _ h => h)
    (fun h => h) (fun _ _ _ hid hname hrefused => ?_) trivial) fun answer t' hanswer => ?_
  · -- the row has been refused, since the key or the name is taken
    rw [← hid, ← hname]
    exact Tables.KnownAs.refused hrefused
  · -- a wrong password draws no token, a right one draws it and stores it
    cases hanswer.1 with
    | rejected userId passwordHash hknown hne =>
      exact ⟨fun hok => absurd hok Bool.false_ne_true, fun _ => ⟨rfl, rfl, _, _, hknown, hne⟩⟩
    | accepted reason user hname hknown =>
      let Known : Tables → Prop := fun t => t.KnownAs user.userId username (hashPassword password)
      refine Prog.Meets.bind (Q := fun _ t => Known t) (create_meets (P := Known) Tables.Kept.refl
        (fun hkept => hkept.known) (fun s now _ hs => ⟨Tables.Kept.create hi hs, hs⟩) hknown)
        fun _ s hs => ?_
      exact ⟨fun _ => ⟨user, rfl, hname, rfl, hs⟩, fun hok => absurd hok.symm Bool.false_ne_true⟩

/-- **So does an authentication**, if every session is genuine. -/
theorem authenticate_meets (hgenuine : t.Genuine hashPassword requests t₀) :
    (AuthService.authenticate token).Meets (NotBefore start)
      (authTerms hashPassword requests t₀ (.authenticate token) fun user? t =>
        ∀ user, user? = some user →
          Authenticated hashPassword requests t₀ start token user t) t := by
  let Issued : Option SessionRepository.Session → Tables → Prop := fun session? t =>
    ∀ session, session? = some session → start ≤ session.expiresAt ∧
      t.IssuedTo hashPassword requests t₀ token session.userId session.expiresAt
  refine Prog.Meets.bind (Q := Issued) (getValid_meets
    (P := fun t => t.Genuine hashPassword requests t₀) Tables.Kept.refl (fun hkept => hkept.genuine)
    (fun _ _ _ _ h => absurd h (by simp)) (fun s now row hnow hs hrow hvalid session hsession => ?_)
    (fun s s' now row _ _ _ _ _ => ⟨Tables.Kept.delete token, fun _ h => absurd h (by simp)⟩)
    hgenuine) fun session? s hsession => ?_
  · -- the session is valid at the time of the clock, so it has not expired before the start
    obtain rfl := Option.some.inj hsession
    exact ⟨hnow.trans hvalid, hs token row hrow⟩
  · cases session? with
    | none => exact fun _ h => absurd h (by simp)
    | some session =>
      obtain ⟨hstart, hissued⟩ := hsession session rfl
      refine Prog.meets_read Tables.Kept.refl fun s' hs' user huser => ?_
      obtain ⟨hid, passwordHash, hknown⟩ := known_of_selectById huser
      refine ⟨passwordHash, hid.symm ▸ hknown, session.expiresAt, hstart, ?_⟩
      rw [hid]
      exact Tables.Kept.issued hs'.known hissued

/-- **Every request meets its contract.** -/
theorem program_meets (hgenuine : t.Genuine hashPassword requests t₀) (i : ι) :
    ((requests i).program hashPassword).Meets (NotBefore start)
      (authContract hashPassword requests t₀ start i) t := by
  unfold authContract
  cases hi : requests i with
  | login newId token username password =>
    exact Prog.Meets.bind (login_meets hi _) fun _ _ hanswered => hanswered
  | authenticate token =>
    exact Prog.Meets.bind (authenticate_meets hgenuine) fun _ _ hanswered => hanswered
  | setElo userId elo =>
    have hset : (UserRepository.setElo userId elo).Meets (NotBefore start)
        (authTerms hashPassword requests t₀ (.setElo userId elo) fun _ _ => True) t :=
      setElo_meets authTerms_keepsAccounts fun _ => trivial
    exact Prog.Meets.bind hset fun _ _ _ => trivial

end Requests

/-! ### Pools of requests -/

/-- The clock of a schedule has a first reading. -/
theorem exists_start (schedule : List (ι × ℚ)) : ∃ start, ∀ turn ∈ schedule, start ≤ turn.2 := by
  induction schedule with
  | nil => exact ⟨0, fun _ h => absurd h List.not_mem_nil⟩
  | cons turn schedule ih =>
    obtain ⟨start, hstart⟩ := ih
    refine ⟨min turn.2 start, fun turn' hturn => ?_⟩
    obtain rfl | hturn := List.mem_cons.mp hturn
    · exact min_le_left _ _
    · exact (min_le_right _ _).trans (hstart turn' hturn)

variable [DecidableEq ι]

/-- The requests, none of which has begun. -/
def authPool (hashPassword : String → String) (requests : ι → AuthRequest) (t₀ : Tables) :
    Pool ι Tables ℚ DbError AuthAnswer where
  shared := t₀
  threads i := (requests i).program hashPassword

/-- **Contracts are met in any order.** -/
theorem authPool_meets (hashPassword : String → String) (requests : ι → AuthRequest) (t₀ : Tables)
    {schedule : List (ι × ℚ)} {start : ℚ} (hclock : ∀ turn ∈ schedule, start ≤ turn.2) :
    ((authPool hashPassword requests t₀).run schedule).Meets (fun _ => NotBefore start)
        (authContract hashPassword requests t₀ start) ∧
      t₀.Kept hashPassword requests t₀ ((authPool hashPassword requests t₀).run schedule).shared := by
  have hgenuine : t₀.Genuine hashPassword requests t₀ := fun _ _ hrow => Or.inl hrow
  exact Pool.meets_run (P := fun t => t₀.Kept hashPassword requests t₀ t) authContract_fit
    (fun _ _ _ hguar hkept => hkept.trans hguar) (fun i => program_meets hgenuine i)
    (Tables.Kept.refl t₀) hclock

/-- A name has one account, whatever the order. -/
structure OneAccount (hashPassword : String → String) (requests : ι → AuthRequest) (t₀ : Tables)
    (p : Pool ι Tables ℚ DbError AuthAnswer) : Prop where
  /-- No account gets lost. -/
  kept : ∀ {userId username passwordHash}, t₀.KnownAs userId username passwordHash →
    p.shared.KnownAs userId username passwordHash
  answered : ∀ {i newId token username password result},
    requests i = .login newId token username password → p.threads i = .done (.login result) →
      LoginAnswered hashPassword token username password result p.shared
  /-- Logins with one name that are let in get one user, and have one password. -/
  sameUser : ∀ {i j newId newId' token token' username password password' result result' user user'},
    requests i = .login newId token username password →
    requests j = .login newId' token' username password' →
    p.threads i = .done (.login result) → p.threads j = .done (.login result') →
    result.user = some user → result'.user = some user' →
      user.userId = user'.userId ∧ hashPassword password = hashPassword password'
  /-- Logins with two names get two users. -/
  otherUser : ∀ {i j newId newId' token token' username username' password password' result result'
      user user'},
    requests i = .login newId token username password →
    requests j = .login newId' token' username' password' → username ≠ username' →
    p.threads i = .done (.login result) → p.threads j = .done (.login result') →
    result.user = some user → result'.user = some user' → user.userId ≠ user'.userId
  /-- Who is turned away does not know the password of those who are let in. -/
  turnedAway : ∀ {i j newId newId' token token' username password password' result result' user},
    requests i = .login newId token username password →
    requests j = .login newId' token' username password' →
    p.threads i = .done (.login result) → p.threads j = .done (.login result') →
    result.user = some user → result'.ok = false → hashPassword password ≠ hashPassword password'
  /-- What raises is a login whose row is refused. -/
  raised : ∀ {i err}, p.threads i = .raised err →
    ∃ newId token username password, requests i = .login newId token username password ∧
      ((∃ username passwordHash, p.shared.KnownAs newId username passwordHash) ∨
        ∃ userId passwordHash, p.shared.KnownAs userId username passwordHash)

/-- A login with a user has been let in. -/
theorem LoginAnswered.known {token username password : String} {result : LoginResult} {user : User}
    (h : LoginAnswered hashPassword token username password result t)
    (huser : result.user = some user) : t.KnownAs user.userId username (hashPassword password) := by
  cases hok : result.ok with
  | true =>
    obtain ⟨user', huser', -, -, hknown⟩ := h.accepted hok
    obtain rfl := Option.some.inj (huser.symm.trans huser')
    exact hknown
  | false => exact absurd (huser.symm.trans (h.rejected hok).1) (by simp)

/-- **A token authenticates the user it was issued to**, in any order: by a login of the pool with
the right password, or before, if the session has not expired. -/
theorem authenticated_run {schedule : List (ι × ℚ)} {start : ℚ}
    (hclock : ∀ turn ∈ schedule, start ≤ turn.2) {j : ι} {token : String} {user : User}
    (hj : requests j = .authenticate token)
    (hanswer : ((authPool hashPassword requests t₀).run schedule).threads j =
      .done (.authenticate (some user))) :
    (∃ expiresAt, start ≤ expiresAt ∧
        t₀.sessions.get? token = some ⟨user.userId, expiresAt⟩) ∨
      ∃ i newId password, requests i = .login newId token user.username password ∧
        ((authPool hashPassword requests t₀).run schedule).shared.KnownAs user.userId user.username
          (hashPassword password) := by
  -- what the answers of a pool promise holds of this one
  have hmeets := (authPool_meets hashPassword requests t₀ hclock).1 j
  rw [hanswer] at hmeets
  change (requests j).Answered hashPassword requests t₀ start _ _ at hmeets
  rw [hj] at hmeets
  obtain ⟨passwordHash, hknown, expiresAt, hstart, hbefore | ⟨i, newId, username, password, hi, hrow⟩⟩ :=
    hmeets user rfl
  · exact Or.inl ⟨expiresAt, hstart, hbefore⟩
  · -- the row of the login and the row of the user are one
    obtain ⟨rfl, -⟩ := hknown.same hrow
    exact Or.inr ⟨i, newId, password, hi, hrow⟩

/-- No users and no sessions. -/
def Tables.empty : Tables where
  users :=
    { keyed := fun _ _ h => absurd h (by simp)
      unique := fun _ _ _ _ h => absurd h (by simp) }

/-- Ada logs in, and comes back with her token. -/
def adaRequests : Fin 2 → AuthRequest
  | 0 => .login ⟨"u1", by decide⟩ "tok" "ada" "secret"
  | 1 => .authenticate "tok"

/-- Ada has logged in with her password. -/
theorem authenticated_run_ada :
    (∃ expiresAt : ℚ, 0 ≤ expiresAt ∧
        Tables.empty.sessions.get? "tok" = some ⟨⟨"u1", by decide⟩, expiresAt⟩) ∨
      ∃ i newId password, adaRequests i = .login newId "tok" "ada" password ∧
        ((authPool id adaRequests Tables.empty).run
          [(0, 0), (0, 0), (0, 5), (0, 5), (1, 100), (1, 100), (1, 100)]).shared.KnownAs
            ⟨"u1", by decide⟩ "ada" (id password) := by
  have hanswer : ((authPool id adaRequests Tables.empty).run
      [(0, 0), (0, 0), (0, 5), (0, 5), (1, 100), (1, 100), (1, 100)]).threads 1 =
        .done (.authenticate (some ⟨⟨"u1", by decide⟩, "ada", 1200⟩)) :=
    Prog.answer?_eq_some_iff.mp (by decide +kernel)
  have hclock : ∀ turn ∈ [((0 : Fin 2), (0 : ℚ)), (0, 0), (0, 5), (0, 5), (1, 100), (1, 100), (1, 100)],
      0 ≤ turn.2 := by decide +kernel
  exact authenticated_run hclock rfl hanswer

end KungFuChess
