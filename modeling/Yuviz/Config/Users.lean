import Yuviz.Config.Invites.Lifecycle
import Yuviz.Distinct

/-!
# First-time setup

The requests that change who is a superadmin, each in a transaction of its own: the public
`POST /auth/bootstrap`, whose check and insert share an advisory lock, the updates and
deletions of users, which lock the row, and the invites that are accepted. A label is a
statement of one of them with the Python code up to the next `await`. What a transaction has
written is not seen before its `COMMIT`, which is taken together with its one write.

A bootstrap succeeds once, and a superadmin is left from then on (`Once`), if no superadmin is
demoted or deleted who is the last one (`KeepsSuperadmin`). Nothing in the code sees to that.
-/

namespace Yuviz.Config.Users

open Python (Dict)

/-- A row of `users`. -/
structure Account extends User where
  isServiceAccount : Bool

def Account.isSuperadmin (account : Account) : Bool :=
  account.role = .superadmin && !account.deleted

/-- `_SUPERADMIN_EXISTS`. -/
def superadminExists (users : Dict ℕ Account) : Bool := users.any (·.2.isSuperadmin)

/-- The fields of `UserUpdate` that are set. The password is hashed. -/
structure UserUpdate where
  role : Option (Option Role)
  tenantId : Option (Option String)
  passwordHash : Option String
  deriving DecidableEq

def UserUpdate.apply (fields : UserUpdate) (account : Account) : Account :=
  { account with
    role := (fields.role.bind id).getD account.role
    tenantId := fields.tenantId.getD account.tenantId
    passwordHash := fields.passwordHash.getD account.passwordHash }

/-- What is granted by an invite. -/
structure Grant where
  email : String
  role : Role
  tenantId : Option String
  team : Option String

inductive Request
  | bootstrap (email passwordHash : String)
  | updateUser (userId : ℕ) (fields : UserUpdate)
  | softDeleteUser (userId : ℕ)
  | acceptInvite (grant : Grant) (passwordHash : String)

/-- What a call is about to do. -/
inductive Pc
  | begin
  /-- The advisory lock is held: `_SUPERADMIN_EXISTS`, -/
  | check
  /-- and `_insert_user`. -/
  | insert
  /-- The row is locked: the `UPDATE` of it. -/
  | write
  | done
  deriving DecidableEq

structure Call where
  request : Request
  pc : Pc

/-- The row that a call has locked. -/
def Call.locks (call : Call) : Option ℕ :=
  match call.request, call.pc with
  | .updateUser userId _, .write | .softDeleteUser userId, .write => some userId
  | _, _ => none

def Call.holdsLock (call : Call) : Bool := call.pc = .check || call.pc = .insert

structure State where
  users : Dict ℕ Account
  calls : List Call
  /-- Whose the advisory lock is. -/
  lock : Option ℕ
  /-- The users that bootstraps have created, the last one first. -/
  bootstrapped : List ℕ

namespace State

variable (s : State) (i : ℕ) (call : Call)

def goto (pc : Pc) : State := { s with calls := s.calls.set i { call with pc := pc } }

/-- The transaction ends, and its locks are released. -/
def finish : State :=
  { s.goto i call .done with lock := if s.lock = some i then none else s.lock }

/-- The unique index on the emails of users that are not deleted. -/
def emailTaken [Platform] (email : String) : Bool :=
  s.users.any fun e => !e.2.deleted && Platform.sqlLower e.2.email = Platform.sqlLower email

/-- `_insert_user` and the `COMMIT`, under a new id. Nothing is written if the email is taken. -/
def insertUser [Platform] (userId : ℕ) (grant : Grant) (passwordHash : String) : Option State :=
  let email := Platform.lower grant.email
  if (s.users.get? userId).isSome then none
  else if s.emailTaken email then some (s.finish i call)
  else some { s.finish i call with
    users := s.users.set userId
      { email := email, passwordHash := passwordHash, role := grant.role,
        tenantId := grant.tenantId, team := grant.team, deleted := false,
        isServiceAccount := false } }

/-- `SELECT … FOR UPDATE`, which waits for the lock of the row. Service accounts are left
    alone. -/
def lockUser (userId : ℕ) : Option State :=
  if s.calls.any (·.locks = some userId) then none
  else match s.users.get? userId with
    | none => some (s.finish i call)
    | some account =>
      if account.isServiceAccount then some (s.finish i call) else some (s.goto i call .write)

/-- `UPDATE` and `COMMIT`. -/
def writeUser (userId : ℕ) (f : Account → Account) : Option State :=
  (s.users.get? userId).map fun account =>
    { s.finish i call with users := s.users.set userId (f account) }

/-- `bootstrap_first_superadmin`. -/
def bootstrap [Platform] (email passwordHash : String) (userId : ℕ) : Option State :=
  match call.pc with
  | .begin =>
    -- `pg_advisory_xact_lock` waits
    if s.lock.isSome then none else some { s.goto i call .check with lock := some i }
  | .check =>
    if superadminExists s.users then some (s.finish i call) else some (s.goto i call .insert)
  | .insert =>
    (s.insertUser i call userId ⟨email, .superadmin, none, none⟩ passwordHash).map fun s' =>
      if (s'.users.get? userId).isSome then { s' with bootstrapped := userId :: s.bootstrapped }
      else s'
  | _ => none

/-- `update_user`. A role that is null violates a constraint. -/
def updateUser (userId : ℕ) (fields : UserUpdate) : Option State :=
  match call.pc with
  | .begin =>
    if fields = ⟨none, none, none⟩ then some (s.finish i call) else s.lockUser i call userId
  | .write =>
    if fields.role = some none then some (s.finish i call)
    else s.writeUser i call userId fields.apply
  | _ => none

/-- `soft_delete_user`. -/
def softDeleteUser (userId : ℕ) : Option State :=
  match call.pc with
  | .begin => s.lockUser i call userId
  | .write => s.writeUser i call userId fun account => { account with deleted := true }
  | _ => none

/-- `accept_invite`, of an invite that may be accepted. -/
def acceptInvite [Platform] (grant : Grant) (passwordHash : String) (userId : ℕ) : Option State :=
  match call.pc with
  | .begin => s.insertUser i call userId grant passwordHash
  | _ => none

def advance [Platform] (userId : ℕ) : Option State :=
  match call.request with
  | .bootstrap email passwordHash => s.bootstrap i call email passwordHash userId
  | .updateUser userId fields => s.updateUser i call userId fields
  | .softDeleteUser userId => s.softDeleteUser i call userId
  | .acceptInvite grant passwordHash => s.acceptInvite i call grant passwordHash userId

end State

inductive Label
  | call (request : Request)
  /-- The call goes on. A user that it inserts has the id. -/
  | advance (i : ℕ) (userId : ℕ)
  /-- The transaction fails and is rolled back. -/
  | fail (i : ℕ)

variable [Platform]

def State.step (s : State) : Label → Option State
  | .call request => some { s with calls := s.calls ++ [⟨request, .begin⟩] }
  | .advance i userId => s.calls[i]?.bind fun call => s.advance i call userId
  | .fail i => s.calls[i]?.bind fun call =>
    if call.pc = .done then none else some (s.finish i call)

/-- The requests, on some table of users. -/
def system (users : Dict ℕ Account) : System State Label where
  init := ⟨users, [], none, []⟩
  step := State.step

/-- At most one bootstrap has created a user, and a superadmin is left. -/
structure Once (s : State) : Prop where
  once : s.bootstrapped.length ≤ 1
  left : s.bootstrapped ≠ [] → superadminExists s.users

/-- The user whose rights, or who, is taken away. -/
def Request.takesAway : Request → Option ℕ
  | .updateUser userId fields =>
    match fields.role with
    | some (some role) => if role = .superadmin then none else some userId
    | _ => none
  | .softDeleteUser userId => some userId
  | _ => none

/-- Once there is a bootstrapped user, the last superadmin is not demoted and not deleted. -/
def KeepsSuperadmin (s : State) : Label → Prop
  | .advance i _ => s.bootstrapped ≠ [] → ∀ call ∈ s.calls[i]?, call.pc = .write →
    ∀ userId ∈ call.request.takesAway,
      (s.users.get? userId).any Account.isSuperadmin →
        s.users.any fun e => e.1 ≠ userId && e.2.isSuperadmin
  | _ => True

instance (s : State) (l : Label) : Decidable (KeepsSuperadmin s l) := by
  cases l <;> unfold KeepsSuperadmin <;> infer_instance

/-! ### The superadmins -/

section Superadmins

omit [Platform]

variable {users : Dict ℕ Account} {userId : ℕ} {account account' : Account}

theorem superadminExists_iff :
    superadminExists users ↔ ∃ e ∈ users, e.2.isSuperadmin := by
  rw [superadminExists, List.any_eq_true]

/-- One is left if another is, or if the row that changes was none, or stays one. -/
theorem superadminExists_set (hkeys : (users.map Prod.fst).Nodup) (h : superadminExists users)
    (haccount : ∀ account ∈ users.get? userId, account.isSuperadmin →
      account'.isSuperadmin ∨ ∃ e ∈ users, e.1 ≠ userId ∧ e.2.isSuperadmin) :
    superadminExists (users.set userId account') := by
  rw [superadminExists_iff] at h ⊢
  obtain ⟨e, he, hsuper⟩ := h
  rcases eq_or_ne e.1 userId with rfl | hne
  · rcases haccount e.2 (Dict.get?_eq_some_of_mem hkeys he) hsuper with
      hstays | ⟨e', he', hne, hother⟩
    · exact ⟨_, Dict.mem_set_self, hstays⟩
    · exact ⟨e', Dict.mem_set_of_ne he' hne, hother⟩
  · exact ⟨e, Dict.mem_set_of_ne he hne, hsuper⟩

/-- An update that does not take the role away keeps a superadmin one. -/
theorem isSuperadmin_apply {fields : UserUpdate}
    (h : (Request.updateUser userId fields).takesAway = none) (haccount : account.isSuperadmin)
    (hrole : fields.role ≠ some none) : (fields.apply account).isSuperadmin := by
  rw [Account.isSuperadmin, Bool.and_eq_true, decide_eq_true_eq] at haccount ⊢
  obtain ⟨hsuper, hlive⟩ := haccount
  refine ⟨?_, hlive⟩
  rw [UserUpdate.apply]
  cases hfield : fields.role with
  | none => exact hsuper
  | some role =>
    cases role with
    | none => exact absurd hfield hrole
    | some role =>
      rw [Request.takesAway, hfield] at h
      dsimp only at h
      split_ifs at h with hsame
      exact hsame

theorem eq_of_takesAway {fields : UserUpdate} {userId' : ℕ}
    (h : (Request.updateUser userId fields).takesAway = some userId') : userId' = userId := by
  rw [Request.takesAway] at h
  split at h
  · next role _ =>
    split_ifs at h
    exact (Option.some.inj h).symm
  · cases h

end Superadmins

/-! ### The invariant -/

structure Inv (s : State) : Prop where
  keys : (s.users.map Prod.fst).Nodup
  holder : ∀ (i : ℕ) (call : Call), s.calls[i]? = some call → call.holdsLock → s.lock = some i
  /-- Setup is not over while it is under way. -/
  inserting : ∀ (i : ℕ) (call : Call), s.calls[i]? = some call → call.pc = .insert →
    s.bootstrapped = []
  once : Once s

section Steps

omit [Platform]

variable {s s' : State} {i : ℕ} {call : Call} {userId : ℕ}

/-- A call goes on that does not hold the advisory lock. -/
theorem Inv.goto (h : Inv s) (i : ℕ) (call : Call) {pc : Pc} (hpc : pc ≠ .check ∧ pc ≠ .insert) :
    Inv (s.goto i call pc) := by
  refine ⟨h.keys, fun j c hc hholds => ?_, fun j c hc hinsert => ?_, { h.once with }⟩
  · rcases getElem?_set_eq_some hc with ⟨-, rfl⟩ | ⟨-, hc⟩
    · simp [Call.holdsLock, hpc] at hholds
    · exact h.holder j c hc hholds
  · rcases getElem?_set_eq_some hc with ⟨-, rfl⟩ | ⟨-, hc⟩
    · exact absurd hinsert hpc.2
    · exact h.inserting j c hc hinsert

theorem Inv.finish (h : Inv s) (i : ℕ) (call : Call) : Inv (s.finish i call) := by
  have hgoto : Inv (s.goto i call .done) := h.goto i call (by decide)
  refine ⟨h.keys, fun j c hc hholds => ?_, hgoto.inserting, { h.once with }⟩
  have hlock := hgoto.holder j c hc hholds
  rcases getElem?_set_eq_some hc with ⟨-, rfl⟩ | ⟨hne, -⟩
  · cases hholds
  · change (if s.lock = some i then none else s.lock) = some j
    change s.lock = some j at hlock
    rw [hlock, if_neg (by simpa using hne)]

/-- The users change, and a superadmin is left if there was one. -/
theorem Inv.users (h : Inv s) {account : Account}
    (hleft : superadminExists s.users → superadminExists (s.users.set userId account)) :
    Inv { s with users := s.users.set userId account } :=
  ⟨Dict.nodup_keys_set h.keys, h.holder, h.inserting, h.once.once,
    fun hsome => hleft (h.once.left hsome)⟩

theorem Inv.lockUser (h : Inv s) (hst : s.lockUser i call userId = some s') : Inv s' := by
  rw [State.lockUser] at hst
  split_ifs at hst
  split at hst
  · obtain rfl := Option.some.inj hst
    exact h.finish _ _
  · split_ifs at hst
    · obtain rfl := Option.some.inj hst
      exact h.finish _ _
    · obtain rfl := Option.some.inj hst
      exact h.goto i call (by decide)

theorem Inv.writeUser (h : Inv s) {f : Account → Account}
    (hst : s.writeUser i call userId f = some s')
    (hf : s.bootstrapped ≠ [] → ∀ account ∈ s.users.get? userId, account.isSuperadmin →
      (f account).isSuperadmin ∨ ∃ e ∈ s.users, e.1 ≠ userId ∧ e.2.isSuperadmin) :
    Inv s' := by
  obtain ⟨account, haccount, rfl⟩ := Option.map_eq_some_iff.1 hst
  have hfinish := h.finish i call
  refine ⟨Dict.nodup_keys_set h.keys, hfinish.holder, hfinish.inserting, h.once.once,
    fun hsome => ?_⟩
  refine superadminExists_set h.keys (h.once.left hsome) fun account' haccount' hsuper => ?_
  obtain rfl := Option.some.inj (haccount.symm.trans haccount')
  exact hf hsome account haccount hsuper

/-- Whoever is taken away leaves another superadmin. -/
theorem KeepsSuperadmin.other {newId : ℕ} {account : Account}
    (hg : KeepsSuperadmin s (.advance i newId)) (hsome : s.bootstrapped ≠ [])
    (hcall : s.calls[i]? = some call) (hpc : call.pc = .write)
    (htakes : call.request.takesAway = some userId) (haccount : s.users.get? userId = some account)
    (hsuper : account.isSuperadmin) : ∃ e ∈ s.users, e.1 ≠ userId ∧ e.2.isSuperadmin := by
  have hany := hg hsome call hcall hpc userId htakes (by rwa [haccount, Option.any_some])
  simpa using hany

theorem Inv.updateUser (h : Inv s) {fields : UserUpdate} (hcall : s.calls[i]? = some call)
    (hrequest : call.request = .updateUser userId fields) {newId : ℕ}
    (hg : KeepsSuperadmin s (.advance i newId))
    (hst : s.updateUser i call userId fields = some s') : Inv s' := by
  rw [State.updateUser] at hst
  split at hst
  · split_ifs at hst
    · obtain rfl := Option.some.inj hst
      exact h.finish _ _
    · exact h.lockUser hst
  · next hpc =>
    split_ifs at hst with hnull
    · obtain rfl := Option.some.inj hst
      exact h.finish _ _
    · refine h.writeUser hst fun hsome account haccount hsuper => ?_
      cases htakes : (Request.updateUser userId fields).takesAway with
      | none => exact .inl (isSuperadmin_apply htakes hsuper hnull)
      | some userId' =>
        obtain rfl := eq_of_takesAway htakes
        exact .inr (hg.other hsome hcall hpc (hrequest ▸ htakes) haccount hsuper)
  · cases hst

theorem Inv.softDeleteUser (h : Inv s) (hcall : s.calls[i]? = some call)
    (hrequest : call.request = .softDeleteUser userId) {newId : ℕ}
    (hg : KeepsSuperadmin s (.advance i newId))
    (hst : s.softDeleteUser i call userId = some s') : Inv s' := by
  rw [State.softDeleteUser] at hst
  split at hst
  · exact h.lockUser hst
  · next hpc =>
    refine h.writeUser hst fun hsome account haccount hsuper => .inr ?_
    exact hg.other hsome hcall hpc (by rw [hrequest]; rfl) haccount hsuper
  · cases hst

end Steps

section Inserts

variable {s s' : State} {i : ℕ} {call : Call} {userId : ℕ} {passwordHash : String}

/-- A user is inserted under a new id, or none is. -/
theorem insertUser_cases {grant : Grant}
    (hst : s.insertUser i call userId grant passwordHash = some s') :
    s.users.get? userId = none ∧ (s' = s.finish i call ∨ ∃ account : Account,
      account.role = grant.role ∧ account.deleted = false ∧
        s' = { s.finish i call with users := s.users.set userId account }) := by
  rw [State.insertUser] at hst
  dsimp only at hst
  split_ifs at hst with hid
  · obtain rfl := Option.some.inj hst
    exact ⟨Option.not_isSome_iff_eq_none.1 hid, .inl rfl⟩
  · obtain rfl := Option.some.inj hst
    exact ⟨Option.not_isSome_iff_eq_none.1 hid, .inr ⟨_, rfl, rfl, rfl⟩⟩

theorem Inv.acceptInvite (h : Inv s) {grant : Grant}
    (hst : s.acceptInvite i call grant passwordHash userId = some s') : Inv s' := by
  rw [State.acceptInvite] at hst
  split at hst
  · obtain ⟨hnew, rfl | ⟨account, -, -, rfl⟩⟩ := insertUser_cases hst
    · exact h.finish _ _
    · refine (h.finish i call).users fun hleft => ?_
      exact superadminExists_set h.keys hleft fun account' haccount' => by
        cases hnew.symm.trans haccount'
  · cases hst

theorem Inv.bootstrap (h : Inv s) {email : String} (hcall : s.calls[i]? = some call)
    (hst : s.bootstrap i call email passwordHash userId = some s') : Inv s' := by
  rw [State.bootstrap] at hst
  split at hst
  · -- nobody held the lock
    split_ifs at hst with hlock
    obtain rfl := Option.some.inj hst
    have hfree : ∀ (j : ℕ) (c : Call), s.calls[j]? = some c → ¬ c.holdsLock := fun j c hc hholds =>
      hlock (by rw [h.holder j c hc hholds]; rfl)
    refine ⟨h.keys, fun j c hc _ => ?_, fun j c hc hinsert => ?_, { h.once with }⟩
    · rcases getElem?_set_eq_some hc with ⟨rfl, -⟩ | ⟨-, hc⟩
      · rfl
      · exact absurd ‹c.holdsLock› (hfree j c hc)
    · rcases getElem?_set_eq_some hc with ⟨-, rfl⟩ | ⟨-, hc⟩
      · cases hinsert
      · exact absurd (by simp [Call.holdsLock, hinsert]) (hfree j c hc)
  · next hpc =>
    have hheld : s.lock = some i := h.holder i call hcall (by simp [Call.holdsLock, hpc])
    split_ifs at hst with hexists
    · obtain rfl := Option.some.inj hst
      exact h.finish _ _
    · obtain rfl := Option.some.inj hst
      -- no superadmin is left, so that no bootstrap has succeeded
      have hnone : s.bootstrapped = [] := by
        by_contra hsome
        exact hexists (h.once.left hsome)
      refine ⟨h.keys, fun j c hc hholds => ?_, fun _ _ _ _ => hnone, { h.once with }⟩
      rcases getElem?_set_eq_some hc with ⟨rfl, -⟩ | ⟨-, hc⟩
      · exact hheld
      · exact h.holder j c hc hholds
  · next hpc =>
    have hnone := h.inserting i call hcall hpc
    have hheld : s.lock = some i := h.holder i call hcall (by simp [Call.holdsLock, hpc])
    obtain ⟨s₁, hinsert, rfl⟩ := Option.map_eq_some_iff.1 hst
    obtain ⟨hnew, rfl | ⟨account, hrole, hlive, rfl⟩⟩ := insertUser_cases hinsert
    · rw [if_neg (by simp [State.finish, State.goto, hnew])]
      exact h.finish _ _
    · have hfinish := h.finish i call
      rw [if_pos (by simp [Dict.get?_set])]
      refine ⟨Dict.nodup_keys_set h.keys, hfinish.holder, fun j c hc hpc' => ?_, ?_, fun _ => ?_⟩
      · -- whoever else were to insert would hold the lock, too
        rcases getElem?_set_eq_some hc with ⟨-, rfl⟩ | ⟨hne, hc⟩
        · cases hpc'
        · have hheld' := h.holder j c hc (by simp [Call.holdsLock, hpc'])
          exact absurd (Option.some.inj (hheld'.symm.trans hheld)) hne
      · rw [hnone]
        exact Nat.le_refl _
      · exact superadminExists_iff.2
          ⟨_, Dict.mem_set_self, by simp [Account.isSuperadmin, hrole, hlive]⟩
  · cases hst

theorem Inv.step {l : Label} (h : Inv s) (hg : KeepsSuperadmin s l) (hst : s.step l = some s') :
    Inv s' := by
  cases l with
  | call request =>
    obtain rfl := Option.some.inj hst
    refine ⟨h.keys, fun j c hc hholds => ?_, fun j c hc hinsert => ?_, { h.once with }⟩
    · rcases getElem?_concat_eq_some hc with rfl | hc
      · cases hholds
      · exact h.holder j c hc hholds
    · rcases getElem?_concat_eq_some hc with rfl | hc
      · cases hinsert
      · exact h.inserting j c hc hinsert
  | advance i userId =>
    obtain ⟨call, hcall, hst⟩ := Option.bind_eq_some_iff.1 hst
    rw [State.advance] at hst
    split at hst
    · exact h.bootstrap hcall hst
    · next hrequest => exact h.updateUser hcall hrequest hg hst
    · next hrequest => exact h.softDeleteUser hcall hrequest hg hst
    · exact h.acceptInvite hst
  | fail i =>
    obtain ⟨call, -, hst⟩ := Option.bind_eq_some_iff.1 hst
    split_ifs at hst
    obtain rfl := Option.some.inj hst
    exact h.finish _ _

end Inserts

/-! ### Runs -/

theorem once_of_keepsSuperadmin {users : Dict ℕ Account} (hkeys : (users.map Prod.fst).Nodup)
    {s : State} (hs : (system users).ReachableIf KeepsSuperadmin s) : Once s :=
  (hs.invariant ⟨hkeys, by simp [system], by simp [system],
    ⟨Nat.zero_le _, fun hsome => absurd rfl hsome⟩⟩ fun _ _ _ h hg hst => h.step hg hst :
    Inv s).once

omit [Platform]

/-- What `init.sh` creates before anyone opens the console. -/
def serviceAccount : Account :=
  { email := "conversation-service@internal.yuviz.ai", passwordHash := "$2b$12$hash",
    role := .viewer, tenantId := none, team := none, deleted := false, isServiceAccount := true }

def setup : System State Label := @system Platform.ascii [(1, serviceAccount)]

/-- Of two bootstraps one succeeds, and the superadmin invites another and leaves. -/
theorem once_of_setup : ∃ s, setup.ReachableIf KeepsSuperadmin s ∧ s.bootstrapped = [2] ∧
    s.users.map (·.2.deleted) = [false, true, false] ∧ Once s := by
  have hrun : ((setup.execIf KeepsSuperadmin setup.init
      ([.call (.bootstrap "first@example.com" "$2b$12$hash"),
        .call (.bootstrap "second@example.com" "$2b$12$hash"),
        .advance 0 2, .advance 0 2, .advance 0 2, .advance 1 3, .advance 1 3,
        .call (.acceptInvite ⟨"third@example.com", .superadmin, none, none⟩ "$2b$12$hash"),
        .advance 2 4, .call (.softDeleteUser 2), .advance 3 0, .advance 3 0] : List Label)).map
      fun s => (s.bootstrapped, s.users.map (·.2.deleted))) =
      some ([2], [false, true, false]) := by
    decide
  obtain ⟨s, hs, hresult⟩ := Option.map_eq_some_iff.1 hrun
  obtain ⟨hbootstrapped, hdeleted⟩ := Prod.mk.injEq .. ▸ hresult
  have hreach := System.ReachableIf.init.execIf hs
  exact ⟨s, hreach, hbootstrapped, hdeleted,
    @once_of_keepsSuperadmin Platform.ascii _ (by decide) s hreach⟩

/-- The superadmin deletes their own account, and setup is open to anyone again. -/
theorem not_once : ¬ ∀ (platform : Platform) (users : Dict ℕ Account),
    (users.map Prod.fst).Nodup → ∀ s, (@system platform users).Reachable s → Once s := by
  intro h
  have hrun : ((setup.exec setup.init
      ([.call (.bootstrap "first@example.com" "$2b$12$hash"),
        .advance 0 2, .advance 0 2, .advance 0 2, .call (.softDeleteUser 2),
        .advance 1 0, .advance 1 0, .call (.bootstrap "second@example.com" "$2b$12$hash"),
        .advance 2 3, .advance 2 3, .advance 2 3] : List Label)).map
      fun s => s.bootstrapped) = some [3, 2] := by
    decide
  obtain ⟨s, hs, hbootstrapped⟩ := Option.map_eq_some_iff.1 hrun
  have honce := (h Platform.ascii _ (by decide) s (System.Reachable.exec .init hs)).once
  rw [hbootstrapped] at honce
  exact absurd honce (by decide)

end Yuviz.Config.Users
