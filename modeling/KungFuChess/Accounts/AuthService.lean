import KungFuChess.Library.Threads
import KungFuChess.Transport.MessageRouter

/-!
# Accounts and sessions

`AuthService` over the stores `UserRepository` and `SessionRepository`. The stores keep two tables
of one database, which the gateway, the HTTP API and the game servers share; the HTTP API serves
each request in a thread of its own. Each statement of SQL is atomic, and between two statements of
a call the others run: `register_or_login` selects the name first and inserts the row later.

A request is a program over the tables whose input is the clock. What it draws, the identifier of a
new user and the token of a new session, is part of the request.
-/

namespace KungFuChess

open Threads

/-! ### The tables -/

/-- A row of `users`. -/
structure UserRow where
  user : User
  passwordHash : String
deriving DecidableEq, Repr

/-- The table `users`, by its primary key; names are unique. -/
structure UsersTable where
  rows : Dict UserId UserRow := Dict.empty
  keyed : ∀ userId row, rows.get? userId = some row → row.user.userId = userId
  unique : ∀ userId userId' row row', rows.get? userId = some row → rows.get? userId' = some row' →
    row.user.username = row'.user.username → userId = userId'

/-- A row of `sessions`, whose key is the token. -/
structure SessionRow where
  userId : UserId
  expiresAt : ℚ
deriving DecidableEq, Repr

/-- The database, as far as accounts and sessions go. -/
structure Tables where
  users : UsersTable
  sessions : Dict String SessionRow := Dict.empty

/-- What `sqlite3` raises: a key or a name is taken. -/
inductive DbError where
  | integrityError
deriving DecidableEq, Repr

namespace UsersTable

/-- `SELECT ... WHERE user_id = ?`. -/
def selectById (t : UsersTable) (userId : UserId) : Option UserRow := t.rows.get? userId

/-- `SELECT ... WHERE username = ?`, which finds one row at most. -/
def selectByUsername (t : UsersTable) (username : String) : Option UserRow :=
  t.rows.values.find? fun row => row.user.username = username

/-- A row is found by its name exactly if it is in the table with that name. -/
theorem selectByUsername_eq_some_iff {t : UsersTable} {username : String} {row : UserRow} :
    t.selectByUsername username = some row ↔
      t.selectById row.user.userId = some row ∧ row.user.username = username := by
  unfold selectByUsername selectById
  constructor
  · intro h
    obtain ⟨entry, hentry, rfl⟩ := List.mem_map.mp (List.mem_of_find?_eq_some h)
    have hget : t.rows.get? entry.1 = some entry.2 := Dict.mem_entries_iff.mp hentry
    refine ⟨?_, by simpa using List.find?_some h⟩
    rw [t.keyed _ _ hget]
    exact hget
  · rintro ⟨hget, hname⟩
    have hmem : row ∈ t.rows.values :=
      List.mem_map.mpr ⟨(row.user.userId, row), Dict.mem_entries_iff.mpr hget, rfl⟩
    cases hfind : t.rows.values.find? fun row => row.user.username = username with
    | none => exact absurd (List.find?_eq_none.mp hfind row hmem) (by simpa using hname)
    | some row' =>
      -- the name is unique
      obtain ⟨entry, hentry, rfl⟩ := List.mem_map.mp (List.mem_of_find?_eq_some hfind)
      have hget' : t.rows.get? entry.1 = some entry.2 := Dict.mem_entries_iff.mp hentry
      have hname' : entry.2.user.username = username := by simpa using List.find?_some hfind
      have hid := t.unique _ _ _ _ hget' hget (hname'.trans hname.symm)
      rw [hid, hget] at hget'
      exact hget'.symm

/-- A name is found nowhere exactly if no row has it. -/
theorem selectByUsername_eq_none_iff {t : UsersTable} {username : String} :
    t.selectByUsername username = none ↔
      ∀ userId row, t.selectById userId = some row → row.user.username ≠ username := by
  unfold selectByUsername selectById
  rw [List.find?_eq_none]
  constructor
  · intro h userId row hget
    have hmem : row ∈ t.rows.values :=
      List.mem_map.mpr ⟨(userId, row), Dict.mem_entries_iff.mpr hget, rfl⟩
    simpa using h row hmem
  · intro h row hrow
    obtain ⟨entry, hentry, rfl⟩ := List.mem_map.mp hrow
    simpa using h _ _ (Dict.mem_entries_iff.mp hentry)

/-- `INSERT`: neither the key nor the name may be taken. -/
def insert (t : UsersTable) (row : UserRow) : Except DbError UsersTable :=
  if hfree : t.selectById row.user.userId = none ∧ t.selectByUsername row.user.username = none then
    .ok
      { rows := t.rows.set row.user.userId row
        keyed := by
          intro userId row' h
          rw [Dict.get?_set] at h
          split at h
          · next heq =>
            rw [← Option.some.inj h, heq]
          · exact t.keyed userId row' h
        unique := by
          have hname := selectByUsername_eq_none_iff.mp hfree.2
          intro userId userId' row₁ row₂ h h' heq
          rw [Dict.get?_set] at h h'
          split at h <;> split at h'
          -- of two rows, one is new: its name has been free
          · next hid hid' => rw [hid, hid']
          · next hid hid' =>
            rw [← Option.some.inj h] at heq
            exact absurd heq.symm (hname _ _ h')
          · next hid hid' =>
            rw [← Option.some.inj h'] at heq
            exact absurd heq (hname _ _ h)
          · exact t.unique _ _ _ _ h h' heq }
  else .error .integrityError

/-- `UPDATE users SET elo = ? WHERE user_id = ?`. -/
def updateElo (t : UsersTable) (userId : UserId) (elo : Int) : UsersTable where
  rows := t.rows.modify userId fun row => { row with user := { row.user with elo := elo } }
  keyed := by
    intro userId' row h
    rw [Dict.get?_modify] at h
    split at h
    · next heq =>
      obtain ⟨row', hrow', rfl⟩ := Option.map_eq_some_iff.mp h
      rw [heq]
      exact t.keyed userId row' hrow'
    · exact t.keyed userId' row h
  unique := by
    -- an update leaves the names alone
    have hold : ∀ {userId' row}, (t.rows.modify userId fun row =>
          ({ row with user := { row.user with elo := elo } } : UserRow)).get? userId' = some row →
        ∃ row', t.rows.get? userId' = some row' ∧ row'.user.username = row.user.username := by
      intro userId' row h
      rw [Dict.get?_modify] at h
      split at h
      · next heq =>
        obtain ⟨row', hrow', rfl⟩ := Option.map_eq_some_iff.mp h
        exact ⟨row', heq ▸ hrow', rfl⟩
      · exact ⟨row, h, rfl⟩
    intro userId₁ userId₂ row₁ row₂ h₁ h₂ heq
    obtain ⟨row₁', h₁', hname₁⟩ := hold h₁
    obtain ⟨row₂', h₂', hname₂⟩ := hold h₂
    exact t.unique _ _ _ _ h₁' h₂' (hname₁.trans (heq.trans hname₂.symm))

end UsersTable

namespace Tables

/-- `INSERT INTO users`. -/
def insertUser (t : Tables) (row : UserRow) : Except DbError Tables :=
  (t.users.insert row).map fun users => { t with users := users }

variable {t t' : Tables} {row : UserRow} {err : DbError}

/-- An insert that succeeds has written the table of users. -/
theorem insertUser_ok (h : t.insertUser row = .ok t') :
    ∃ users, t.users.insert row = .ok users ∧ { t with users := users } = t' := by
  unfold insertUser at h
  cases hinsert : t.users.insert row with
  | ok users =>
    rw [hinsert] at h
    exact ⟨users, rfl, Except.ok.inj h⟩
  | error err =>
    rw [hinsert] at h
    exact absurd h (by simp [Except.map])

/-- An insert that fails is that of the table. -/
theorem insertUser_error (h : t.insertUser row = .error err) : t.users.insert row = .error err := by
  unfold insertUser at h
  cases hinsert : t.users.insert row with
  | ok users =>
    rw [hinsert] at h
    exact absurd h (by simp [Except.map])
  | error err' => rfl

end Tables

/-! ### The stores -/

/-- A program over the database: its input is the clock, and a statement may fail. -/
abbrev DbM := Prog Tables ℚ DbError

variable (hashPassword : String → String)

namespace UserRepository

/-- `START_ELO`. -/
def startElo : Int := 1200

/-- `register_or_login`; `newId` is the `uuid4` of a new user. -/
def registerOrLogin (newId : UserId) (username password : String) :
    DbM (Bool × String × Option User) := do
  let passwordHash := hashPassword password
  let row? ← Prog.read fun t => t.users.selectByUsername username
  match row? with
  | none => do
    let user : User := ⟨newId, username, startElo⟩
    Prog.attempt fun t => t.insertUser { user := user, passwordHash := passwordHash }
    return (true, "registered", some user)
  | some row =>
    if row.passwordHash ≠ passwordHash then return (false, "wrong password", none)
    else return (true, "logged_in", some row.user)

/-- `get_by_id`. -/
def getById (userId : UserId) : DbM (Option User) :=
  Prog.read fun t => (t.users.selectById userId).map UserRow.user

/-- `set_elo`. -/
def setElo (userId : UserId) (elo : Int) : DbM Unit :=
  Prog.write fun t => { t with users := t.users.updateElo userId elo }

end UserRepository

namespace SessionRepository

/-- A session, as `SessionRepository` returns it. -/
structure Session where
  token : String
  userId : UserId
  expiresAt : ℚ
deriving DecidableEq, Repr

/-- `DEFAULT_TTL_SECONDS`. -/
def defaultTtlSeconds : ℚ := 60 * 60 * 24

/-- `INSERT OR REPLACE`. -/
def create (token : String) (userId : UserId) : DbM Session := do
  let now ← Prog.input
  let expiresAt := now + defaultTtlSeconds
  Prog.write fun t => { t with sessions := t.sessions.set token ⟨userId, expiresAt⟩ }
  return ⟨token, userId, expiresAt⟩

/-- `delete`. -/
def delete (token : String) : DbM Unit :=
  Prog.write fun t => { t with sessions := t.sessions.pop token }

/-- `get_valid`. A session that has expired is deleted by whoever asks for it. -/
def getValid (token : String) : DbM (Option Session) := do
  -- the clock is read before the row
  let now ← Prog.input
  let row? ← Prog.read fun t => t.sessions.get? token
  match row? with
  | none => return none
  | some row =>
    if row.expiresAt < now then do
      delete token
      return none
    else return some ⟨token, row.userId, row.expiresAt⟩

end SessionRepository

/-! ### The service -/

namespace AuthService

/-- `login`; `token` is what `secrets.token_urlsafe` draws. -/
def login (newId : UserId) (token username password : String) : DbM LoginResult := do
  let (ok, reason, user?) ← UserRepository.registerOrLogin hashPassword newId username password
  match ok, user? with
  | true, some user => do
    let _ ← SessionRepository.create token user.userId
    return { ok := true, reason := reason, user := some user, token := some token }
  | _, _ => return { ok := false, reason := reason }

/-- `authenticate`: the user of a session that is still valid. -/
def authenticate (token : String) : DbM (Option User) := do
  let session? ← SessionRepository.getValid token
  match session? with
  | none => return none
  | some session => UserRepository.getById session.userId

end AuthService

/-- A call of a process that uses the tables. -/
inductive AuthRequest where
  | login (newId : UserId) (token username password : String)
  | authenticate (token : String)
  | setElo (userId : UserId) (elo : Int)
deriving DecidableEq, Repr

/-- What the request returns. -/
inductive AuthAnswer where
  | login (result : LoginResult)
  | authenticate (user : Option User)
  | setElo
deriving DecidableEq, Repr

/-- The request as a program. -/
def AuthRequest.program : AuthRequest → DbM AuthAnswer
  | .login newId token username password => do
    return .login (← AuthService.login hashPassword newId token username password)
  | .authenticate token => do
    return .authenticate (← AuthService.authenticate token)
  | .setElo userId elo => do
    UserRepository.setElo userId elo
    return .setElo

end KungFuChess
