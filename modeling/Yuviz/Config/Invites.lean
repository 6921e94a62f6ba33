import Mathlib.Data.Int.Notation
import Yuviz.Python.Dict
import Yuviz.System

/-!
# Invites

`services/config/invites.py`: the four operations on `user_invites`, each a
transaction of a few statements at the isolation level of the pool, READ
COMMITTED. A statement sees what has been committed when it starts; what a
transaction has written, and the row locks it holds, last until it ends. A
`SELECT … FOR UPDATE` finds its row first, then waits for the lock of it, and
then reads the row again.

A label is one statement of one call, with the Python code up to the next
`await`; or a failure of the database, which rolls the transaction back; or a
change to the users and to the tenants by the rest of the service; or the
passing of time. A `COMMIT` takes effect or raises, not both.
-/

namespace Yuviz.Config

open Python (Dict)

/-- What the code has from its language, its database and its libraries. -/
class Platform where
  /-- `str.lower`. -/
  lower : String → String
  lower_lower : ∀ s, lower (lower s) = lower s
  /-- `lower` of the database. -/
  sqlLower : String → String
  /-- `hashlib.sha256(s.encode()).hexdigest()`. -/
  sha256 : String → String
  /-- The text of a `uuid` column set to a string, if the string is one. -/
  uuid : String → Option String

inductive Role
  | superadmin | admin | supervisor | agent | viewer
  deriving DecidableEq

inductive InviteStatus
  | pending | accepted | revoked
  deriving DecidableEq

/-! ## The tables -/

structure Tenant where
  slug : String
  deleted : Bool

structure User where
  email : String
  passwordHash : String
  role : Role
  tenantId : Option String
  team : Option String
  deleted : Bool

/-- A row of `user_invites`. Times are in microseconds. -/
structure Invite where
  tenantId : Option String
  email : String
  role : Role
  team : Option String
  tokenHash : String
  status : InviteStatus
  expiresAt : ℤ
  invitedBy : Option ℕ
  acceptedAt : Option ℤ
  acceptedUserId : Option ℕ
  lastSentAt : Option ℤ

/-- The tables, by primary key. -/
structure Db where
  tenants : Dict String Tenant
  users : Dict ℕ User
  invites : Dict ℕ Invite

/-- What a transaction has written: the new version of the row it has locked,
    and the rows it has inserted. -/
structure Writes where
  update : Option (ℕ × Invite)
  insert : Option (ℕ × Invite)
  user : Option (ℕ × User)

def Writes.none : Writes := ⟨.none, .none, .none⟩

def Db.write (db : Db) (w : Writes) : Db where
  tenants := db.tenants
  users := w.user.elim db.users fun e => db.users.set e.1 e.2
  invites :=
    let updated := w.update.elim db.invites fun e => db.invites.set e.1 e.2
    w.insert.elim updated fun e => updated.set e.1 e.2

/-! ## The permission matrix -/

/-- `_same_tenant`. The identifiers are their texts here. -/
def sameTenant (a b : Option String) : Bool := a = b

def mayInvite (actorRole : Role) (actorTenantId : Option String) (targetRole : Role)
    (targetTenantId : Option String) : Bool :=
  match actorRole with
  | .superadmin => true
  | .admin =>
    if targetRole = .superadmin then false
    else if actorTenantId = none then false
    else sameTenant actorTenantId targetTenantId
  | _ => false

/-- The user a request is made by, as their access token has it. -/
structure CurrentUser where
  id : ℕ
  role : Role
  tenantId : Option String

def CurrentUser.mayInvite (actor : CurrentUser) (role : Role) (tenantId : Option String) : Bool :=
  Config.mayInvite actor.role actor.tenantId role tenantId

def Db.tenantLive (db : Db) (invite : Invite) : Bool :=
  match invite.tenantId with
  | none => true
  | some t => ((db.tenants.get? t).map fun tenant => !tenant.deleted).getD false

/-- The row of the inviter allows the grant. -/
def Db.inviterAllows (db : Db) (invite : Invite) : Bool :=
  match invite.invitedBy.bind db.users.get? with
  | none => false
  | some inviter =>
    !inviter.deleted && mayInvite inviter.role inviter.tenantId invite.role invite.tenantId

/-! ## Calls -/

structure InviteCreate where
  email : String
  role : Role
  tenantId : Option String
  team : Option String

inductive Request
  | create (body : InviteCreate) (actor : CurrentUser)
  | resend (inviteId : ℕ) (actor : CurrentUser)
  | revoke (inviteId : ℕ) (actor : CurrentUser)
  | accept (rawToken : String) (password : String)

/-- The exceptions. `lookup` is `LookupError`, `database` one of the driver's. -/
inductive InviteError
  | permissionDenied
  | inviteNotPending
  | emailConflict (tenantName : Option String)
  | pendingInviteConflict
  | inviteExpired
  | inviteRevoked
  | inviteUsed
  | emailTaken
  | resendCooldown (remainingSeconds : ℤ)
  | inviteContextGone
  | lookup
  | database

/-- What a call is about to do. -/
inductive Pc
  /-- `create_invite`: `get_user_by_email`, -/
  | getUserByEmail
  /-- and `_conflict_tenant_name` of the account it has found. -/
  | conflict (tenantId : Option String)
  | begin
  /-- `SELECT … FOR UPDATE`: find the row, -/
  | select
  /-- and lock it. -/
  | lock (id : ℕ)
  /-- `create_invite`: the slot's row has been read. -/
  | reclaim (slot : Option (ℕ × Invite))
  | insertInvite
  /-- `resend_invite` and `revoke_invite`: the `UPDATE`. -/
  | rotate (id : ℕ) (invite : Invite)
  | revoke (id : ℕ) (invite : Invite)
  /-- `accept_invite`: the two statements of `_check_context_live`, -/
  | checkTenant (id : ℕ) (invite : Invite)
  | checkInviter (id : ℕ) (invite : Invite)
  /-- the conditional `UPDATE`, -/
  | claim (id : ℕ) (invite : Invite)
  /-- `_insert_user`, -/
  | insertUser (id : ℕ) (invite : Invite)
  /-- and the `UPDATE` of `accepted_user_id`. -/
  | setAcceptedUser (id : ℕ) (invite : Invite) (userId : ℕ)
  | commit
  | done (result : Except InviteError Writes)

/-- A call. -/
structure Proc where
  request : Request
  /-- `now()` in its transaction: when the transaction began. -/
  started : ℤ
  /-- The row it has locked. -/
  lock : Option ℕ
  /-- The token it has drawn. -/
  token : Option String
  writes : Writes
  pc : Pc

def Proc.goto (proc : Proc) (pc : Pc) : Proc := { proc with pc := pc }

/-- An exception leaves the transaction, which is rolled back. -/
def Proc.raise (proc : Proc) (e : InviteError) : Proc :=
  { proc with
    lock := none
    writes := .none
    pc := .done (.error e) }

/-- What a statement finds outside the database: the clock of the process, a new
    token, a new identifier and a salted hash of the password. -/
structure Input where
  clock : ℤ
  token : String
  id : ℕ
  passwordHash : String

/-- A transaction that has been committed: by which call, to which tables, and
    what it has written. -/
structure Commit where
  pid : ℕ
  db : Db
  writes : Writes

structure State where
  now : ℤ
  db : Db
  procs : List Proc
  /-- The transactions committed so far. -/
  log : List Commit

variable [Platform]

open Platform

/-- `INVITE_TTL`: seven days. -/
def inviteTTL : ℤ := 7 * 24 * 3600 * 1000000

/-- `RESEND_COOLDOWN_SECONDS`. -/
def resendCooldownSeconds : ℤ := 60

/-! ## The statements -/

def User.hasEmail (user : User) (email : String) : Bool :=
  !user.deleted && sqlLower user.email = sqlLower email

/-- The tenant column for the request's `tenant_id`, if it is a `uuid`. -/
def InviteCreate.tenant? (body : InviteCreate) : Option (Option String) :=
  match body.tenantId with
  | none => some none
  | some t => (uuid t).map some

/-- `COALESCE(tenant_id, …)`, the tenant of a slot. -/
def slotTenant (tenantId : Option String) : String :=
  tenantId.getD "00000000-0000-0000-0000-000000000000"

/-- Two rows have one slot of `user_invites_pending_email_idx`. -/
def Invite.sameSlot (a b : Invite) : Bool :=
  slotTenant a.tenantId = slotTenant b.tenantId && sqlLower a.email = sqlLower b.email

/-- The `WHERE` of the `SELECT … FOR UPDATE` of a call. -/
def Request.selects (request : Request) (id : ℕ) (invite : Invite) : Bool :=
  match request with
  | .create body _ =>
    invite.status = .pending && slotTenant invite.tenantId = slotTenant body.tenant?.join &&
      sqlLower invite.email = lower body.email
  | .resend inviteId _ | .revoke inviteId _ => id = inviteId
  | .accept rawToken _ => invite.tokenHash = sha256 rawToken

/-- `_conflict_tenant_name`. -/
def Db.conflictTenantName (db : Db) (tenantId : Option String) (actor : CurrentUser) :
    Option String :=
  if actor.role ≠ .superadmin then none
  else
    match tenantId with
    | none => some "platform"
    | some t => (db.tenants.get? t).bind fun tenant => if tenant.deleted then none else tenant.slug

/-- The call of `create_invite`, up to its first `await`. -/
def Proc.create (proc : Proc) (body : InviteCreate) (actor : CurrentUser) : Proc :=
  if actor.mayInvite body.role body.tenantId then proc.goto .getUserByEmail
  else proc.raise .permissionDenied

def Proc.call (request : Request) : Proc :=
  let proc : Proc := ⟨request, 0, none, none, .none, .begin⟩
  match request with
  | .create body actor => proc.create body actor
  | _ => proc

/-- `get_user_by_email` in `create_invite`. -/
def Proc.getUserByEmail (proc : Proc) (db : Db) (body : InviteCreate) : Proc :=
  match db.users.find? fun e => e.2.hasEmail (lower body.email) with
  | some e => proc.goto (.conflict e.2.tenantId)
  | none => proc.goto .begin

/-- `resend_invite` and `revoke_invite`, after the `SELECT`. -/
def Proc.authorised (proc : Proc) (actor : CurrentUser) (invite : Invite) (next : Proc) : Proc :=
  if !actor.mayInvite invite.role invite.tenantId then proc.raise .permissionDenied
  else if invite.status ≠ .pending then proc.raise .inviteNotPending
  else next

def Proc.resend (proc : Proc) (id : ℕ) (invite : Invite) (clock : ℤ) : Proc :=
  match invite.lastSentAt with
  | none => proc.goto (.rotate id invite)
  | some lastSentAt =>
    let elapsed := clock - lastSentAt
    if elapsed < resendCooldownSeconds * 1000000 then
      proc.raise (.resendCooldown
        ((resendCooldownSeconds * 1000000 - elapsed).tdiv 1000000 + 1))
    else proc.goto (.rotate id invite)

/-- `accept_invite`, after the `SELECT`. -/
def Proc.classify (proc : Proc) (id : ℕ) (invite : Invite) (clock : ℤ) : Proc :=
  if invite.status = .revoked then proc.raise .inviteRevoked
  else if invite.status = .accepted then proc.raise .inviteUsed
  else if invite.expiresAt < clock then proc.raise .inviteExpired
  else if invite.tenantId = none then proc.goto (.checkInviter id invite)
  else proc.goto (.checkTenant id invite)

/-- What follows the `SELECT … FOR UPDATE` that has found no row, -/
def Proc.notFound (proc : Proc) : Proc :=
  match proc.request with
  | .create _ _ => proc.goto (.reclaim none)
  | _ => proc.raise .lookup

/-- and the one that has locked a row. -/
def Proc.found (proc : Proc) (id : ℕ) (invite : Invite) (clock : ℤ) : Proc :=
  match proc.request with
  | .create _ _ => proc.goto (.reclaim (some (id, invite)))
  | .resend _ actor => proc.authorised actor invite (proc.resend id invite clock)
  | .revoke _ actor => proc.authorised actor invite (proc.goto (.revoke id invite))
  | .accept _ _ => proc.classify id invite clock

/-- The row the statement sees. An identifier that is no `uuid` is an error of the driver. -/
def Proc.select (proc : Proc) (db : Db) : Proc :=
  let found :=
    match db.invites.find? fun e => proc.request.selects e.1 e.2 with
    | some e => proc.goto (.lock e.1)
    | none => proc.notFound
  match proc.request with
  | .create body _ => if body.tenant?.isNone then proc.raise .database else found
  | _ => found

/-- The row once it is locked, if the `WHERE` holds of what it has become. -/
def Proc.locked (proc : Proc) (db : Db) (id : ℕ) (clock : ℤ) : Proc :=
  match db.invites.get? id with
  | some invite =>
    if proc.request.selects id invite then { proc with lock := some id }.found id invite clock
    else proc.notFound
  | none => proc.notFound

def Invite.revoke (invite : Invite) : Invite := { invite with status := .revoked }

/-- `create_invite` with the slot's row: an expired one the actor could revoke is revoked. -/
def Proc.reclaim (proc : Proc) (actor : CurrentUser) (slot : Option (ℕ × Invite)) (clock : ℤ) :
    Proc :=
  match slot with
  | some (id, invite) =>
    if invite.expiresAt ≤ clock ∧ actor.mayInvite invite.role invite.tenantId then
      { proc with
        writes := { proc.writes with update := some (id, invite.revoke) }
        pc := .insertInvite }
    else proc.goto .insertInvite
  | none => proc.goto .insertInvite

def InviteCreate.row (body : InviteCreate) (actor : CurrentUser) (token : String) (now : ℤ) :
    Invite where
  tenantId := body.tenant?.join
  email := lower body.email
  role := body.role
  team := body.team
  tokenHash := sha256 token
  status := .pending
  expiresAt := now + inviteTTL
  invitedBy := some actor.id
  acceptedAt := none
  acceptedUserId := none
  lastSentAt := some now

def Invite.rotate (invite : Invite) (token : String) (now : ℤ) : Invite :=
  { invite with
    tokenHash := sha256 token
    lastSentAt := some now
    expiresAt := now + inviteTTL }

def Invite.accept (invite : Invite) (now : ℤ) : Invite :=
  { invite with
    status := .accepted
    acceptedAt := some now }

/-- The row of `_insert_user` in `accept_invite`. -/
def Invite.user (invite : Invite) (passwordHash : String) : User where
  email := lower invite.email
  passwordHash := passwordHash
  role := invite.role
  tenantId := invite.tenantId
  team := invite.team
  deleted := false

namespace State

variable (s : State)

/-- Another call than `p` has written what meets `c`, and not ended yet. -/
def othersWrote (p : ℕ) (c : Writes → Bool) : Bool :=
  (s.procs.zipIdx.any fun e => e.2 ≠ p && c e.1.writes)

/-- The lock of a row is held. -/
def isLocked (id : ℕ) : Bool := s.procs.any (·.lock = some id)

/-- `_new_token`: 256 random bits, the hash of which no token drawn before has. -/
def isNewToken (token : String) : Bool :=
  s.procs.all fun proc => proc.token.all fun t => sha256 t ≠ sha256 token

/-- The `INSERT` of `create_invite`: it waits for the transactions that have
    written a row of the slot, and raises if there is one pending. -/
def insertInvite (p : ℕ) (proc : Proc) (body : InviteCreate) (actor : CurrentUser) (i : Input) :
    Option Proc :=
  let invite := body.row actor i.token proc.started
  let conflicts (e : ℕ × Invite) := e.1 = i.id || e.2.sameSlot invite
  if !s.isNewToken i.token ||
      s.othersWrote p (fun w => w.update.any conflicts || w.insert.any conflicts) then none
  else if s.db.invites.any fun e => e.1 = i.id || (e.2.status = .pending && e.2.sameSlot invite &&
      proc.writes.update.all (·.1 ≠ e.1)) then
    some (proc.raise .pendingInviteConflict)
  else if invite.tenantId.any (fun t => (s.db.tenants.get? t).isNone) ||
      (s.db.users.get? actor.id).isNone then some (proc.raise .database)
  else some
    { proc with
      token := some i.token
      writes := { proc.writes with insert := some (i.id, invite) }
      pc := .commit }

/-- The `UPDATE` of `resend_invite`. -/
def rotate (proc : Proc) (id : ℕ) (invite : Invite) (token : String) : Option Proc :=
  if !s.isNewToken token then none
  else some
    { proc with
      token := some token
      writes := { proc.writes with update := some (id, invite.rotate token proc.started) }
      pc := .commit }

/-- The conditional `UPDATE` of `accept_invite`. -/
def claim (proc : Proc) (id : ℕ) (invite : Invite) : Proc :=
  match s.db.invites.get? id with
  | some row =>
    if row.status = .pending ∧ row.expiresAt > proc.started then
      { proc with
        writes := { proc.writes with update := some (id, row.accept proc.started) }
        pc := .insertUser id invite }
    else proc.raise .inviteUsed
  | none => proc.raise .inviteUsed

/-- An `INSERT` into `users` waits for the transactions that have inserted the
    same address. -/
def waitsForUser (p id : ℕ) (user : User) : Bool :=
  s.othersWrote p fun w => w.user.any fun e => e.1 = id || e.2.hasEmail user.email

/-- There is such a user. -/
def hasUser (id : ℕ) (user : User) : Bool :=
  s.db.users.any fun e => e.1 = id || e.2.hasEmail user.email

/-- `_insert_user` in `accept_invite`. -/
def insertUser (p : ℕ) (proc : Proc) (id : ℕ) (invite : Invite) (i : Input) : Option Proc :=
  let user := invite.user i.passwordHash
  if s.waitsForUser p i.id user then none
  else if s.hasUser i.id user then some (proc.raise .emailTaken)
  else some
    { proc with
      writes := { proc.writes with user := some (i.id, user) }
      pc := .setAcceptedUser id invite i.id }

/-- `UPDATE user_invites SET accepted_user_id`, of the row as the transaction has written it. -/
def setAcceptedUser (proc : Proc) (userId : ℕ) : Proc :=
  { proc with
    writes := { proc.writes with
      update := proc.writes.update.map fun e => (e.1, { e.2 with acceptedUserId := some userId }) }
    pc := .commit }

/-- What the next statement of a call makes of it, if it does not wait. -/
def next (p : ℕ) (proc : Proc) (i : Input) : Option Proc :=
  match proc.pc with
  | .getUserByEmail =>
    match proc.request with
    | .create body _ => some (proc.getUserByEmail s.db body)
    | _ => none
  | .conflict tenantId =>
    match proc.request with
    | .create _ actor =>
      some (proc.raise (.emailConflict (s.db.conflictTenantName tenantId actor)))
    | _ => none
  | .begin => some
      { proc with
        started := s.now
        pc := .select }
  | .select => some (proc.select s.db)
  | .lock id => if s.isLocked id then none else some (proc.locked s.db id i.clock)
  | .reclaim slot =>
    match proc.request with
    | .create _ actor => some (proc.reclaim actor slot i.clock)
    | _ => none
  | .insertInvite =>
    match proc.request with
    | .create body actor => s.insertInvite p proc body actor i
    | _ => none
  | .rotate id invite => s.rotate proc id invite i.token
  | .revoke id invite => some
      { proc with
        writes := { proc.writes with update := some (id, invite.revoke) }
        pc := .commit }
  | .checkTenant id invite => some <|
      if s.db.tenantLive invite then proc.goto (.checkInviter id invite)
      else proc.raise .inviteContextGone
  | .checkInviter id invite => some <|
      if s.db.inviterAllows invite then proc.goto (.claim id invite)
      else proc.raise .inviteContextGone
  | .claim id invite => some (s.claim proc id invite)
  | .insertUser id invite => s.insertUser p proc id invite i
  | .setAcceptedUser _ _ userId => some (setAcceptedUser proc userId)
  | .commit | .done _ => none

def setProc (p : ℕ) (proc : Proc) : State := { s with procs := s.procs.set p proc }

def commit (p : ℕ) (proc : Proc) : State :=
  { s with
    db := s.db.write proc.writes
    log := s.log ++ [⟨p, s.db, proc.writes⟩]
    procs := s.procs.set p
      { proc with
        lock := none
        writes := .none
        pc := .done (.ok proc.writes) } }

end State

/-! ## The system -/

inductive Label
  | call (request : Request)
  /-- The next statement of a call. -/
  | run (p : ℕ) (i : Input)
  | commit (p : ℕ)
  /-- A statement, or the connection, fails. -/
  | fail (p : ℕ)
  /-- `create_user`, `bootstrap_first_superadmin`. -/
  | addUser (id : ℕ) (user : User)
  /-- `update_user`. -/
  | updateUser (id : ℕ) (role : Role) (tenantId : Option String)
  /-- `soft_delete_user`. -/
  | deleteUser (id : ℕ)
  | addTenant (id : String) (tenant : Tenant)
  /-- `soft_delete_tenant`. -/
  | deleteTenant (id : String)
  | wait (d : ℕ)

def State.step (s : State) : Label → Option State
  | .call request => some { s with procs := s.procs ++ [Proc.call request] }
  | .run p i => do
    let proc ← s.procs[p]?
    return s.setProc p (← s.next p proc i)
  | .commit p => do
    let proc ← s.procs[p]?
    match proc.pc with
    | .commit => some (s.commit p proc)
    | _ => none
  | .fail p => do
    let proc ← s.procs[p]?
    match proc.pc with
    | .done _ => none
    | _ => some (s.setProc p (proc.raise .database))
  | .addUser id user =>
    if s.waitsForUser s.procs.length id user || s.hasUser id user then none
    else some { s with db.users := s.db.users.set id user }
  | .updateUser id role tenantId => do
    let user ← s.db.users.get? id
    return { s with db.users := s.db.users.set id { user with role := role, tenantId := tenantId } }
  | .deleteUser id => do
    let user ← s.db.users.get? id
    return { s with db.users := s.db.users.set id { user with deleted := true } }
  | .addTenant id tenant =>
    if (s.db.tenants.get? id).isSome then none
    else some { s with db.tenants := s.db.tenants.set id tenant }
  | .deleteTenant id => do
    let tenant ← s.db.tenants.get? id
    return { s with db.tenants := s.db.tenants.set id { tenant with deleted := true } }
  | .wait d => some { s with now := s.now + d }

/-- The service on a database without invites. -/
def Invites.system (tenants : Dict String Tenant) (users : Dict ℕ User) : System State Label where
  init := ⟨0, ⟨tenants, users, []⟩, [], []⟩
  step := State.step

end Yuviz.Config
