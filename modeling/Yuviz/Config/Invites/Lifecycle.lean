import Yuviz.Config.Invites.Frame

/-!
# The lifecycle of an invite

In every run of the service: an invite creates at most one user; a token that
has been revoked, rotated away or used creates none, and neither does one whose
invite had expired when the acceptance began; the user is as the invite says;
and before the user was created the call has read, holding the lock of the row,
that the tenant is live and that the inviter could make the grant
(`Lifecycle`). These are two statements, so two states: there need not be one
in which both are the case (`not_seenAtOnce`).

The tokens are what keeps the log in order (`Inv`): a token is drawn by one
call, so a row that a commit gives a token has a hash which no row has had
before.
-/

namespace Yuviz.Config

open Python (Dict)

variable [Platform]

open Platform

/-! ## What is committed -/

/-- The commit ends the token of the row it has updated. -/
def Commit.Ends (e : Commit) (h : String) : Prop :=
  ∃ id invite row, e.writes.update = some (id, row) ∧ e.db.invites.get? id = some invite ∧
    invite.tokenHash = h ∧ (row.status ≠ .pending ∨ row.tokenHash ≠ h)

/-- The commit accepts the invite, which creates the user. -/
def Commit.Accepts (e : Commit) (id : ℕ) (invite : Invite) (user : User) : Prop :=
  ∃ row userId, e.writes.update = some (id, row) ∧ e.writes.user = some (userId, user) ∧
    e.db.invites.get? id = some invite

section Committing

variable {s : State} {past : List State} {p : ℕ} {proc : Proc}

/-- The row that is updated is the one that is locked. It gets a new token or
    stops being pending. -/
theorem Committing.update (h : Committing s past p proc) {e : ℕ × Invite}
    (he : proc.writes.update = some e) : ∃ invite, Locked s proc e.1 invite ∧
      e.2.email = invite.email ∧ (e.2.status ≠ .pending ∧ e.2.tokenHash = invite.tokenHash ∨
        proc.newHash = some e.2.tokenHash ∧ proc.writes.insert = none) := by
  cases h with
  | create body actor token id hreq htok hrec hins =>
    obtain ⟨invite, hlocked, -, hrow⟩ := hrec.update e he
    refine ⟨invite, hlocked, ?_, .inl ⟨?_, ?_⟩⟩ <;> simp [hrow, Invite.revoke]
  | resend token id invite htok hlocked hauth hw =>
    rw [hw] at he
    cases he
    exact ⟨invite, hlocked, rfl, .inr ⟨by simp [Proc.newHash, htok, Invite.rotate], by rw [hw]⟩⟩
  | revoke id invite htok hlocked hauth hw =>
    rw [hw] at he
    cases he
    exact ⟨invite, hlocked, rfl, .inl ⟨by simp [Invite.revoke], rfl⟩⟩
  | accept id invite userId hash hlive hunexp hw =>
    rw [hw] at he
    cases he
    exact ⟨invite, hlive.locked, rfl, .inl ⟨by simp [Invite.accept], rfl⟩⟩

theorem Committing.insert (h : Committing s past p proc) {e : ℕ × Invite}
    (he : proc.writes.insert = some e) :
    proc.newHash = some e.2.tokenHash ∧ lower e.2.email = e.2.email := by
  cases h with
  | create body actor token id hreq htok hrec hins =>
    rw [hins] at he
    cases he
    exact ⟨by simp [Proc.newHash, htok, InviteCreate.row], lower_lower _⟩
  | resend token id invite htok hlocked hauth hw => simp [hw] at he
  | revoke id invite htok hlocked hauth hw => simp [hw] at he
  | accept id invite userId hash hlive hunexp hw => simp [hw] at he

theorem Committing.user (h : Committing s past p proc) {e : ℕ × User}
    (he : proc.writes.user = some e) : ∃ id invite passwordHash,
      Live s past p proc id invite ∧ proc.started < invite.expiresAt ∧
        e.2 = invite.user passwordHash ∧ proc.writes.update =
          some (id, { invite.accept proc.started with acceptedUserId := some e.1 }) := by
  cases h with
  | create body actor token id hreq htok hrec hins => simp [hrec.user] at he
  | resend token id invite htok hlocked hauth hw => simp [hw] at he
  | revoke id invite htok hlocked hauth hw => simp [hw] at he
  | accept id invite userId hash hlive hunexp hw =>
    rw [hw] at he
    cases he
    exact ⟨id, invite, hash, hlive, hunexp, rfl, by rw [hw]⟩

end Committing

/-! ## The lifecycle -/

/-- The call has been committed. -/
def Proc.Committed (proc : Proc) : Prop := ∃ writes, proc.pc = .done (.ok writes)

/-- A commit that creates a user accepts an invite, which is pending and carries
    the token presented, and had not expired when the transaction began. -/
structure Accepted (s : State) (past : List State) (e : Commit) (user : User) (id : ℕ)
    (invite : Invite) : Prop where
  accepts : e.Accepts id invite user
  pending : invite.status = .pending
  role : user.role = invite.role
  tenantId : user.tenantId = invite.tenantId
  email : user.email = invite.email
  token : ∃ proc rawToken password, s.procs[e.pid]? = some proc ∧ proc.Committed ∧
    proc.request = .accept rawToken password ∧ invite.tokenHash = sha256 rawToken ∧
    proc.started < invite.expiresAt
  /-- It has read the tenant as live, -/
  tenant : Seen past e.pid id fun db => db.tenantLive invite
  /-- and the inviter as one who could make the grant. -/
  inviter : Seen past e.pid id fun db => db.inviterAllows invite

structure Lifecycle (s : State) (past : List State) : Prop where
  accepted : ∀ e ∈ s.log, ∀ userId user, e.writes.user = some (userId, user) →
    ∃ id invite, Accepted s past e user id invite
  /-- An invite creates one user at most, -/
  once : s.log.Pairwise fun e e' =>
    ∀ id invite invite' user user', e.Accepts id invite user → ¬ e'.Accepts id invite' user'
  /-- and a token that has been ended none. -/
  ended : s.log.Pairwise fun e e' =>
    ∀ h id invite user, e.Ends h → e'.Accepts id invite user → invite.tokenHash ≠ h
  /-- Of a call, only the `COMMIT` of the transaction changes the tables, -/
  steps : ∀ p i s', s.step (.run p i) = some s' ∨ s.step (.fail p) = some s' → s'.db = s.db
  /-- and a call that has failed has made none. -/
  failed : ∀ (p : ℕ) proc error, s.procs[p]? = some proc → proc.pc = .done (.error error) →
    ∀ e ∈ s.log, e.pid ≠ p

/-! ## The invariant -/

/-- A call has drawn the token and committed it. -/
def State.Issued (s : State) (h : String) : Prop :=
  ∃ (p : ℕ) (proc : Proc), s.procs[p]? = some proc ∧ proc.newHash = some h ∧ proc.Committed

structure Inv (s : State) (past : List State) : Prop where
  valid : ∀ (p : ℕ) proc, s.procs[p]? = some proc → proc.Valid s past p
  locks : Distinct s.procs Proc.lock
  lockedRow : ∀ (p : ℕ) proc id, s.procs[p]? = some proc → proc.lock = some id →
    ∃ invite, s.db.invites.get? id = some invite
  inserts : Distinct s.procs Proc.newInvite
  insertedRow : ∀ (p : ℕ) proc id, s.procs[p]? = some proc → proc.newInvite = some id →
    s.db.invites.get? id = none
  users : Distinct s.procs Proc.newUser
  userRow : ∀ (p : ℕ) proc id, s.procs[p]? = some proc → proc.newUser = some id →
    s.db.users.get? id = none
  hashes : Distinct s.procs Proc.newHash
  issued : ∀ id invite, s.db.invites.get? id = some invite → s.Issued invite.tokenHash
  unique : ∀ id id' invite invite', s.db.invites.get? id = some invite →
    s.db.invites.get? id' = some invite' → invite.tokenHash = invite'.tokenHash → id = id'
  lowered : ∀ id invite, s.db.invites.get? id = some invite → lower invite.email = invite.email
  ended : ∀ e ∈ s.log, ∀ h, e.Ends h → s.Issued h ∧
    ∀ id invite, s.db.invites.get? id = some invite → invite.tokenHash = h →
      invite.status ≠ .pending
  used : ∀ e ∈ s.log, ∀ id invite user, e.Accepts id invite user →
    ∃ row, s.db.invites.get? id = some row ∧ row.status ≠ .pending
  committed : ∀ e ∈ s.log, ∃ proc, s.procs[e.pid]? = some proc ∧ proc.Committed
  accepted : ∀ e ∈ s.log, ∀ userId user, e.writes.user = some (userId, user) →
    ∃ id invite, Accepted s past e user id invite
  once : s.log.Pairwise fun e e' =>
    ∀ id invite invite' user user', e.Accepts id invite user → ¬ e'.Accepts id invite' user'
  spent : s.log.Pairwise fun e e' =>
    ∀ h id invite user, e.Ends h → e'.Accepts id invite user → invite.tokenHash ≠ h

section Keep

variable {s s' : State} {past : List State} {p : ℕ} {proc proc' : Proc}

omit [Platform] in
/-- A committed call stays as it is when another call, or one not committed, moves. -/
theorem getElem?_set_of_committed {q : ℕ} {other : Proc} (hp : s.procs[p]? = some proc)
    (hpc : ¬ proc.Committed) (hq : s.procs[q]? = some other) (hother : other.Committed) :
    (s.procs.set p proc')[q]? = some other := by
  have hne : p ≠ q := by
    rintro rfl
    obtain rfl := Option.some.inj (hp.symm.trans hq)
    exact hpc hother
  rwa [List.getElem?_set_ne hne]

/-- What the log says of the calls it is about outlasts a step that keeps them. -/
theorem Accepted.mono {e : Commit} {user : User} {id : ℕ} {invite : Invite}
    (h : Accepted s past e user id invite)
    (hprocs : ∀ (q : ℕ) other, s.procs[q]? = some other → other.Committed →
      s'.procs[q]? = some other) : Accepted s' (s :: past) e user id invite := by
  obtain ⟨haccepts, hpending, hrole, htenantId, hemail, htoken, htenant, hinviter⟩ := h
  obtain ⟨proc, rawToken, password, hp, hcommitted, htoken⟩ := htoken
  have hpast : past ⊆ s :: past := List.subset_cons_self _ _
  exact ⟨haccepts, hpending, hrole, htenantId, hemail,
    ⟨proc, rawToken, password, hprocs _ _ hp hcommitted, hcommitted, htoken⟩,
    htenant.mono hpast, hinviter.mono hpast⟩

omit [Platform] in
theorem not_committed_of_pc (h : ∀ result, proc.pc ≠ .done result) : ¬ proc.Committed := by
  rintro ⟨writes, hpc⟩
  exact h _ hpc

/-- A call that moves, but for its `COMMIT`. -/
theorem Inv.setProc (h : Inv s past) (hp : s.procs[p]? = some proc)
    (hpc : ∀ result, proc.pc ≠ .done result) (hframe : Frame s p proc proc')
    (hvalid : proc'.Valid s (s :: past) p) : Inv (s.setProc p proc') (s :: past) := by
  have hpast : past ⊆ s :: past := List.subset_cons_self _ _
  have hkeep (q : ℕ) (other : Proc) (hq : s.procs[q]? = some other) (hc : other.Committed) :
      (s.setProc p proc').procs[q]? = some other :=
    getElem?_set_of_committed hp (not_committed_of_pc hpc) hq hc
  have hissued (hash : String) (hi : s.Issued hash) : (s.setProc p proc').Issued hash := by
    obtain ⟨q, other, hq, hhash, hc⟩ := hi
    exact ⟨q, other, hkeep q other hq hc, hhash, hc⟩
  refine
    { h with
      valid := fun q other hq => ?_
      locks := h.locks.set hp hframe.lock
      lockedRow := fun q other id hq hid => ?_
      inserts := h.inserts.set hp hframe.insert
      insertedRow := fun q other id hq hid => ?_
      users := h.users.set hp hframe.user
      userRow := fun q other id hq hid => ?_
      hashes := h.hashes.set hp hframe.hash
      issued := fun id invite hrow => hissued _ (h.issued id invite hrow)
      ended := fun e he hash hends => (h.ended e he hash hends).imp_left (hissued hash)
      committed := fun e he => ?_
      accepted := fun e he userId user huser => ?_ }
  · rcases getElem?_set_eq_some hq with ⟨rfl, rfl⟩ | ⟨-, hq⟩
    · exact hvalid.mono (fun _ _ => rfl) (List.Subset.refl _)
    · exact (h.valid q other hq).mono (fun _ _ => rfl) hpast
  · rcases getElem?_set_eq_some hq with ⟨rfl, rfl⟩ | ⟨-, hq⟩
    · exact (hframe.lockedRow id hid).elim (fun hid => h.lockedRow q proc id hp hid) fun h => h
    · exact h.lockedRow q other id hq hid
  · rcases getElem?_set_eq_some hq with ⟨rfl, rfl⟩ | ⟨-, hq⟩
    · exact (hframe.insertedRow id hid).elim (fun hid => h.insertedRow q proc id hp hid) fun h => h
    · exact h.insertedRow q other id hq hid
  · rcases getElem?_set_eq_some hq with ⟨rfl, rfl⟩ | ⟨-, hq⟩
    · exact (hframe.userRow id hid).elim (fun hid => h.userRow q proc id hp hid) fun h => h
    · exact h.userRow q other id hq hid
  · obtain ⟨other, hq, hc⟩ := h.committed e he
    exact ⟨other, hkeep _ other hq hc, hc⟩
  · obtain ⟨id, invite, hacc⟩ := h.accepted e he userId user huser
    exact ⟨id, invite, hacc.mono hkeep⟩

omit [Platform] in
theorem Proc.call_eq (request : Request) : (Proc.call request).lock = none ∧
    (Proc.call request).token = none ∧ (Proc.call request).writes = .none := by
  unfold Proc.call
  cases request with
  | create body actor =>
    simp only [Proc.create]
    split_ifs
    · exact ⟨rfl, rfl, rfl⟩
    · exact ⟨rfl, rfl, rfl⟩
  | resend | revoke | accept => exact ⟨rfl, rfl, rfl⟩

theorem Proc.valid_call (request : Request) : (Proc.call request).Valid s past p := by
  unfold Proc.call
  cases request with
  | create body actor =>
    simp only [Proc.create]
    split_ifs
    · exact ⟨rfl, rfl, rfl⟩
    · exact Proc.valid_raise _
  | resend | revoke | accept => exact ⟨rfl, rfl, rfl⟩

omit [Platform] in
theorem getElem?_concat_of_eq_some {q : ℕ} {other : Proc} (h : s.procs[q]? = some other) :
    (s.procs ++ [proc])[q]? = some other := by
  rwa [List.getElem?_append_left (List.getElem?_eq_some_iff.1 h).1]

theorem Inv.call (h : Inv s past) (request : Request) :
    Inv { s with procs := s.procs ++ [Proc.call request] } (s :: past) := by
  have hpast : past ⊆ s :: past := List.subset_cons_self _ _
  have hissued (hash : String) (hi : s.Issued hash) :
      State.Issued { s with procs := s.procs ++ [Proc.call request] } hash := by
    obtain ⟨q, other, hq, hhash⟩ := hi
    exact ⟨q, other, getElem?_concat_of_eq_some hq, hhash⟩
  obtain ⟨hlock, htok, hw⟩ := Proc.call_eq request
  have hnew : (Proc.call request).newInvite = none := by rw [Proc.newInvite, hw]; rfl
  have huser : (Proc.call request).newUser = none := by rw [Proc.newUser, hw]; rfl
  refine
    { h with
      valid := fun q other hq => ?_
      locks := h.locks.append hlock
      lockedRow := fun q other id hq hid => ?_
      inserts := h.inserts.append hnew
      insertedRow := fun q other id hq hid => ?_
      users := h.users.append huser
      userRow := fun q other id hq hid => ?_
      hashes := h.hashes.append (by rw [Proc.newHash, htok]; rfl)
      issued := fun id invite hrow => hissued _ (h.issued id invite hrow)
      ended := fun e he hash hends => (h.ended e he hash hends).imp_left (hissued hash)
      committed := fun e he => ?_
      accepted := fun e he userId user huser => ?_ }
  · rcases getElem?_concat_eq_some hq with rfl | hq
    · exact Proc.valid_call request
    · exact (h.valid q other hq).mono (fun _ _ => rfl) hpast
  · rcases getElem?_concat_eq_some hq with rfl | hq
    · exact absurd (hlock.symm.trans hid) nofun
    · exact h.lockedRow q other id hq hid
  · rcases getElem?_concat_eq_some hq with rfl | hq
    · exact absurd (hnew.symm.trans hid) nofun
    · exact h.insertedRow q other id hq hid
  · rcases getElem?_concat_eq_some hq with rfl | hq
    · exact absurd (huser.symm.trans hid) nofun
    · exact h.userRow q other id hq hid
  · obtain ⟨other, hq, hc⟩ := h.committed e he
    exact ⟨other, getElem?_concat_of_eq_some hq, hc⟩
  · obtain ⟨id, invite, hacc⟩ := h.accepted e he userId user huser
    exact ⟨id, invite, hacc.mono fun q other hq _ => getElem?_concat_of_eq_some hq⟩

/-- The rest of the service. -/
theorem Inv.other (h : Inv s past) (hprocs : s'.procs = s.procs) (hlog : s'.log = s.log)
    (hinvites : s'.db.invites = s.db.invites)
    (husers : ∀ (p : ℕ) proc id, s.procs[p]? = some proc → proc.newUser = some id →
      s.db.users.get? id = none → s'.db.users.get? id = none) : Inv s' (s :: past) := by
  have hissued (hash : String) (hi : s.Issued hash) : s'.Issued hash := by
    rwa [State.Issued, hprocs]
  constructor
  case valid =>
    intro p proc hp
    rw [hprocs] at hp
    exact (h.valid p proc hp).mono (fun _ _ => by rw [hinvites]) (List.subset_cons_self _ _)
  case locks => exact hprocs ▸ h.locks
  case lockedRow => exact hprocs ▸ hinvites ▸ h.lockedRow
  case inserts => exact hprocs ▸ h.inserts
  case insertedRow => exact hprocs ▸ hinvites ▸ h.insertedRow
  case users => exact hprocs ▸ h.users
  case userRow =>
    intro p proc id hp hid
    rw [hprocs] at hp
    exact husers p proc id hp hid (h.userRow p proc id hp hid)
  case hashes => exact hprocs ▸ h.hashes
  case issued =>
    rw [hinvites]
    exact fun id invite hrow => hissued _ (h.issued id invite hrow)
  case unique => exact hinvites ▸ h.unique
  case lowered => exact hinvites ▸ h.lowered
  case ended =>
    rw [hlog, hinvites]
    exact fun e he hash hends => (h.ended e he hash hends).imp_left (hissued hash)
  case used => exact hlog ▸ hinvites ▸ h.used
  case committed => exact hlog ▸ hprocs ▸ h.committed
  case accepted =>
    rw [hlog]
    intro e he userId user huser
    obtain ⟨id, invite, hacc⟩ := h.accepted e he userId user huser
    exact ⟨id, invite, hacc.mono fun q other hq _ => hprocs ▸ hq⟩
  case once => exact hlog ▸ h.once
  case spent => exact hlog ▸ h.spent

end Keep

/-! ## The commit -/

section Commit

variable {s : State} {past : List State} {p : ℕ} {proc : Proc}

/-- A row after a commit: the one that has got the call's token, or one that was
    there, with its token, which the commit has left alone if it is pending. -/
theorem row_commit (h : Committing s past p proc) {id : ℕ} {row : Invite}
    (hrow : (s.db.write proc.writes).invites.get? id = some row) :
    (proc.newHash = some row.tokenHash ∧ (proc.writes.insert = some (id, row) ∨
      proc.writes.insert = none ∧ proc.writes.update = some (id, row))) ∨
    ∃ invite, s.db.invites.get? id = some invite ∧ invite.tokenHash = row.tokenHash ∧
      (row.status = .pending → row = invite ∧ ∀ e, proc.writes.update = some e → e.1 ≠ id) := by
  rcases Db.get?_write_eq_some hrow with hins | hupd | ⟨hne, hrow⟩
  · exact .inl ⟨(h.insert hins).1, .inl hins⟩
  · obtain ⟨invite, hlocked, -, ⟨hstatus, hhash⟩ | ⟨hhash, hins⟩⟩ := h.update hupd
    · exact .inr ⟨invite, hlocked.row, hhash.symm, fun hp => absurd hp hstatus⟩
    · exact .inl ⟨hhash, .inr ⟨hins, hupd⟩⟩
  · exact .inr ⟨row, hrow, rfl, fun _ => ⟨rfl, hne⟩⟩

/-- A row that is not pending is there to stay. -/
theorem get?_write_of_not_pending (h : Inv s past) (hp : s.procs[p]? = some proc)
    (hc : Committing s past p proc) {id : ℕ} {row : Invite}
    (hrow : s.db.invites.get? id = some row) (hstatus : row.status ≠ .pending) :
    (s.db.write proc.writes).invites.get? id = some row := by
  rw [Db.get?_write_of_ne, hrow]
  · rintro e he rfl
    obtain ⟨invite, hlocked, -⟩ := hc.update he
    obtain rfl := Option.some.inj (hrow.symm.trans hlocked.row)
    exact hstatus hlocked.pending
  · rintro e he rfl
    have hnone := h.insertedRow p proc e.1 hp (by rw [Proc.newInvite, he]; rfl)
    exact absurd (hnone.symm.trans hrow) nofun

/-- A commit leaves the rows alone that other calls have locked. -/
theorem get?_write_of_locked (h : Inv s past) (hp : s.procs[p]? = some proc)
    (hc : Committing s past p proc) {q : ℕ} {other : Proc} (hq : s.procs[q]? = some other)
    (hne : q ≠ p) {id : ℕ} (hid : other.lock = some id) :
    (s.db.write proc.writes).invites.get? id = s.db.invites.get? id := by
  refine Db.get?_write_of_ne ?_ ?_
  · rintro e he rfl
    obtain ⟨invite, hlocked, -⟩ := hc.update he
    exact hne (h.locks q p other proc e.1 hq hp hid hlocked.lock)
  · rintro e he rfl
    have hnone := h.insertedRow p proc e.1 hp (by rw [Proc.newInvite, he]; rfl)
    obtain ⟨invite, hrow⟩ := h.lockedRow q other e.1 hq hid
    exact absurd (hnone.symm.trans hrow) nofun

/-- What is new in the log. -/
theorem accepted_commit (h : Inv s past) (hp : s.procs[p]? = some proc)
    (hc : Committing s past p proc) {userId : ℕ} {user : User}
    (huser : proc.writes.user = some (userId, user)) :
    ∃ id invite, Accepted (s.commit p proc) (s :: past) ⟨p, s.db, proc.writes⟩ user id invite := by
  obtain ⟨id, invite, hash, hlive, hunexp, rfl, hupd⟩ := hc.user huser
  obtain ⟨rawToken, password, hreq, htoken⟩ := hlive.request
  have hpast : past ⊆ s :: past := List.subset_cons_self _ _
  have hself : (s.commit p proc).procs[p]? = some _ :=
    List.getElem?_set_self (List.getElem?_eq_some_iff.1 hp).1
  exact ⟨id, invite, ⟨_, userId, hupd, huser, hlive.locked.row⟩, hlive.locked.pending, rfl, rfl,
    h.lowered id invite hlive.locked.row, ⟨_, rawToken, password, hself, ⟨proc.writes, rfl⟩, hreq,
    htoken, hunexp⟩, hlive.tenant.mono hpast, hlive.inviter.mono hpast⟩

theorem Inv.commit (h : Inv s past) (hp : s.procs[p]? = some proc) (hpc : proc.pc = .commit) :
    Inv (s.commit p proc) (s :: past) := by
  have hpast : past ⊆ s :: past := List.subset_cons_self _ _
  have hc : Committing s past p proc := by
    have := h.valid p proc hp
    rwa [Proc.Valid, hpc] at this
  have hnot : ¬ proc.Committed := by
    rintro ⟨writes, heq⟩
    exact absurd (hpc.symm.trans heq) nofun
  have hlt := (List.getElem?_eq_some_iff.1 hp).1
  have hkeep (q : ℕ) (other : Proc) (hq : s.procs[q]? = some other) (hcom : other.Committed) :
      (s.commit p proc).procs[q]? = some other :=
    getElem?_set_of_committed hp hnot hq hcom
  have hself : (s.commit p proc).procs[p]? = some _ := List.getElem?_set_self hlt
  have hissued (hash : String) (hi : s.Issued hash) : (s.commit p proc).Issued hash := by
    obtain ⟨q, other, hq, hhash, hcom⟩ := hi
    exact ⟨q, other, hkeep q other hq hcom, hhash, hcom⟩
  have hnew {hash : String} (hh : proc.newHash = some hash) : (s.commit p proc).Issued hash :=
    ⟨p, _, hself, hh, proc.writes, rfl⟩
  -- The token of the call is not one that has been committed before.
  have hfresh {hash : String} (hh : proc.newHash = some hash) : ¬ s.Issued hash := by
    rintro ⟨q, other, hq, hhash, hcom⟩
    obtain rfl := h.hashes p q proc other hash hp hq hh hhash
    obtain rfl := Option.some.inj (hp.symm.trans hq)
    exact hnot hcom
  have hends {hash : String} (hends : (⟨p, s.db, proc.writes⟩ : Yuviz.Config.Commit).Ends hash) :
      s.Issued hash ∧ ∃ e invite, proc.writes.update = some e ∧
        s.db.invites.get? e.1 = some invite ∧ invite.tokenHash = hash := by
    obtain ⟨id, invite, row, hupd, hrow, hhash, -⟩ := hends
    exact ⟨hhash ▸ h.issued id invite hrow, (id, row), invite, hupd, hrow, hhash⟩
  have haccepts {id : ℕ} {invite : Invite} {user : User}
      (ha : (⟨p, s.db, proc.writes⟩ : Yuviz.Config.Commit).Accepts id invite user) :
      Locked s proc id invite ∧ ∃ row, proc.writes.update = some (id, row) ∧
        row.status ≠ .pending := by
    obtain ⟨row, userId, hupd, huser, hrow⟩ := ha
    obtain ⟨id', invite', hash, hlive, -, -, hupd'⟩ := hc.user huser
    obtain ⟨rfl, rfl⟩ := Prod.mk.inj (Option.some.inj (hupd.symm.trans hupd'))
    obtain rfl := Option.some.inj (hrow.symm.trans hlive.locked.row)
    exact ⟨hlive.locked, _, hupd, by simp [Invite.accept]⟩
  constructor
  case valid =>
    intro q other hq
    rcases getElem?_set_eq_some hq with ⟨rfl, rfl⟩ | ⟨hne, hq⟩
    · exact ⟨rfl, rfl⟩
    · exact (h.valid q other hq).mono (fun id hid => get?_write_of_locked h hp hc hq hne hid) hpast
  case locks => exact h.locks.set hp (.of_eq_none rfl)
  case lockedRow =>
    intro q other id hq hid
    rcases getElem?_set_eq_some hq with ⟨rfl, rfl⟩ | ⟨hne, hq⟩
    · exact absurd hid nofun
    · obtain ⟨invite, hrow⟩ := h.lockedRow q other id hq hid
      exact ⟨invite, (get?_write_of_locked h hp hc hq hne hid).trans hrow⟩
  case inserts => exact h.inserts.set hp (.of_eq_none rfl)
  case insertedRow =>
    intro q other id hq hid
    rcases getElem?_set_eq_some hq with ⟨rfl, rfl⟩ | ⟨hne, hq⟩
    · exact absurd hid nofun
    · have hnone := h.insertedRow q other id hq hid
      refine (Db.get?_write_of_ne ?_ ?_).trans hnone
      · rintro e he rfl
        obtain ⟨invite, hlocked, -⟩ := hc.update he
        exact absurd (hnone.symm.trans hlocked.row) nofun
      · rintro e he rfl
        exact hne (h.inserts q p other proc e.1 hq hp hid (by rw [Proc.newInvite, he]; rfl))
  case users => exact h.users.set hp (.of_eq_none rfl)
  case userRow =>
    intro q other id hq hid
    rcases getElem?_set_eq_some hq with ⟨rfl, rfl⟩ | ⟨hne, hq⟩
    · exact absurd hid nofun
    · refine (get?_elim_set_of_ne ?_).trans (h.userRow q other id hq hid)
      rintro e he rfl
      exact hne (h.users q p other proc e.1 hq hp hid (by rw [Proc.newUser, he]; rfl))
  case hashes => exact h.hashes.set hp (.of_eq rfl)
  case issued =>
    intro id row hrow
    rcases row_commit hc hrow with ⟨hh, -⟩ | ⟨invite, hinvite, hhash, -⟩
    · exact hnew hh
    · exact hhash ▸ hissued _ (h.issued id invite hinvite)
  case unique =>
    intro id id' row row' hrow hrow' heq
    rcases row_commit hc hrow with ⟨hh, hid⟩ | ⟨invite, hinvite, hhash, -⟩ <;>
      rcases row_commit hc hrow' with ⟨hh', hid'⟩ | ⟨invite', hinvite', hhash', -⟩
    · rcases hid with hid | ⟨hnone, hid⟩ <;> rcases hid' with hid' | ⟨hnone', hid'⟩
      · exact congrArg Prod.fst (Option.some.inj (hid.symm.trans hid'))
      · exact absurd (hid.symm.trans hnone') nofun
      · exact absurd (hid'.symm.trans hnone) nofun
      · exact congrArg Prod.fst (Option.some.inj (hid.symm.trans hid'))
    · exact absurd (h.issued id' invite' hinvite') (hhash' ▸ heq ▸ hfresh hh)
    · exact absurd (h.issued id invite hinvite) (hhash ▸ heq ▸ hfresh hh')
    · exact h.unique id id' invite invite' hinvite hinvite' (hhash.trans (heq.trans hhash'.symm))
  case lowered =>
    intro id row hrow
    rcases Db.get?_write_eq_some hrow with hins | hupd | ⟨-, hrow⟩
    · exact (hc.insert hins).2
    · obtain ⟨invite, hlocked, hemail, -⟩ := hc.update hupd
      have hemail : row.email = invite.email := hemail
      rw [hemail]
      exact h.lowered id invite hlocked.row
    · exact h.lowered id row hrow
  case ended =>
    intro e he hash hend
    rcases List.mem_append.1 he with he | he
    · obtain ⟨hi, hold⟩ := h.ended e he hash hend
      refine ⟨hissued hash hi, fun id row hrow hrowhash hpending => ?_⟩
      rcases row_commit hc hrow with ⟨hh, -⟩ | ⟨invite, hinvite, hhash, hsame⟩
      · exact hfresh hh (hrowhash ▸ hi)
      · obtain ⟨rfl, -⟩ := hsame hpending
        exact hold id row hinvite hrowhash hpending
    · obtain rfl := List.mem_singleton.1 he
      obtain ⟨hi, e, invite, hupd, hinvite, hhash⟩ := hends hend
      refine ⟨hissued hash hi, fun id row hrow hrowhash hpending => ?_⟩
      rcases row_commit hc hrow with ⟨hh, -⟩ | ⟨invite', hinvite', hhash', hsame⟩
      · exact hfresh hh (hrowhash ▸ hi)
      · -- The only row with the token is the one that has been updated.
        obtain ⟨-, hne⟩ := hsame hpending
        exact hne e hupd
          (h.unique e.1 id invite invite' hinvite hinvite' (by rw [hhash, hhash', hrowhash]))
  case used =>
    intro e he id invite user ha
    rcases List.mem_append.1 he with he | he
    · obtain ⟨row, hrow, hstatus⟩ := h.used e he id invite user ha
      exact ⟨row, get?_write_of_not_pending h hp hc hrow hstatus, hstatus⟩
    · obtain rfl := List.mem_singleton.1 he
      obtain ⟨hlocked, row, hupd, hstatus⟩ := haccepts ha
      refine ⟨row, ?_, hstatus⟩
      have hins : ∀ e, proc.writes.insert = some e → e.1 ≠ id := by
        rintro e he rfl
        have hnone := h.insertedRow p proc e.1 hp (by rw [Proc.newInvite, he]; rfl)
        exact absurd (hnone.symm.trans hlocked.row) nofun
      exact (get?_elim_set_of_ne hins).trans (get?_elim_set_of_eq hupd)
  case committed =>
    intro e he
    rcases List.mem_append.1 he with he | he
    · obtain ⟨other, hq, hcom⟩ := h.committed e he
      exact ⟨other, hkeep _ other hq hcom, hcom⟩
    · obtain rfl := List.mem_singleton.1 he
      exact ⟨_, hself, proc.writes, rfl⟩
  case accepted =>
    intro e he userId user huser
    rcases List.mem_append.1 he with he | he
    · obtain ⟨id, invite, hacc⟩ := h.accepted e he userId user huser
      exact ⟨id, invite, hacc.mono hkeep⟩
    · obtain rfl := List.mem_singleton.1 he
      exact accepted_commit h hp hc huser
  case once =>
    refine List.pairwise_append.2 ⟨h.once, List.pairwise_singleton _ _, fun e he e' he' => ?_⟩
    obtain rfl := List.mem_singleton.1 he'
    intro id invite invite' user user' ha ha'
    obtain ⟨row, hrow, hstatus⟩ := h.used e he id invite user ha
    obtain ⟨hlocked, -⟩ := haccepts ha'
    obtain rfl := Option.some.inj (hrow.symm.trans hlocked.row)
    exact hstatus hlocked.pending
  case spent =>
    refine List.pairwise_append.2 ⟨h.spent, List.pairwise_singleton _ _, fun e he e' he' => ?_⟩
    obtain rfl := List.mem_singleton.1 he'
    intro hash id invite user hend ha heq
    obtain ⟨hlocked, -⟩ := haccepts ha
    exact (h.ended e he hash hend).2 id invite hlocked.row heq hlocked.pending

end Commit

theorem Inv.step {s s' : State} {past : List State} {l : Label} (h : Inv s past)
    (hst : s.step l = some s') : Inv s' (s :: past) := by
  cases State.step_cases hst with
  | call request => exact h.call request
  | run p i proc proc' hp hn =>
    exact h.setProc hp (fun _ => next_ne_done hn) (next_frame hn) ((h.valid p proc hp).next hp hn)
  | fail p proc hp hpc => exact h.setProc hp hpc (.raise _) (Proc.valid_raise _)
  | commit p proc hp hpc => exact h.commit hp hpc
  | other _ _ hprocs hlog hinvites husers => exact h.other hprocs hlog hinvites husers

theorem Inv.init (tenants : Dict String Tenant) (users : Dict ℕ User) :
    Inv (Invites.system tenants users).init [] := by
  constructor <;> simp [Invites.system, Distinct.nil, Dict.get?]

theorem inv_of_reachable {tenants : Dict String Tenant} {users : Dict ℕ User} {s : State}
    {past : List State} (h : (Invites.system tenants users).history.Reachable (s, past)) :
    Inv s past :=
  System.ReachableIf.history_invariant (g := fun _ _ => True) (.init tenants users)
    (fun _ _ _ _ hI _ hst => hI.step hst) h

/-- The lifecycle of an invite, in every state of every run. -/
theorem lifecycle {tenants : Dict String Tenant} {users : Dict ℕ User} {s : State}
    {past : List State} (h : (Invites.system tenants users).history.Reachable (s, past)) :
    Lifecycle s past where
  accepted := (inv_of_reachable h).accepted
  once := (inv_of_reachable h).once
  ended := (inv_of_reachable h).spent
  steps p i s' hst := by
    rcases hst with hst | hst
    · cases State.step_cases hst with
      | run => rfl
      | other _ _ _ _ _ _ hl => exact absurd rfl (hl.1 p i)
    · cases State.step_cases hst with
      | fail => rfl
      | other _ _ _ _ _ _ hl => exact absurd rfl (hl.2 p).1
  failed p proc error hp hpc e he heq := by
    obtain ⟨other, hq, writes, hcom⟩ := (inv_of_reachable h).committed e he
    obtain rfl := Option.some.inj (hp.symm.trans (heq ▸ hq))
    exact absurd (hpc.symm.trans hcom) nofun

end Yuviz.Config

namespace Yuviz.Config

open Python (Dict)

/-! ## Two reads -/

theorem toLower_toLower (c : Char) : c.toLower.toLower = c.toLower := by
  unfold Char.toLower
  grind

/-- A platform that knows the ASCII letters, the hash of one token, and the
    identifiers as they are printed. -/
@[reducible] def Platform.ascii : Platform where
  lower s := String.ofList (s.toList.map Char.toLower)
  lower_lower s := by
    rw [String.toList_ofList, List.map_map]
    exact congrArg String.ofList (List.map_congr_left fun c _ => toLower_toLower c)
  sqlLower s := String.ofList (s.toList.map Char.toLower)
  sha256 s :=
    if s = "token" then "3c469e9d6c5875d37a43f353d4f88e61fcf812c66eee3457465a40b0da4153e0" else s
  uuid s := some s

def tenant : String := "0b1f8ed4-58a3-4fd0-9a3e-0d5e1c8f7a21"

def viewerInvite : InviteCreate := ⟨"Viewer@example.com", .viewer, some tenant, none⟩

def Input.ofId (id : ℕ) : Input := ⟨0, "token", id, "$2b$12$hash"⟩

/-- A tenant and its admin. -/
def tenancy : System State Label :=
  @Invites.system Platform.ascii [(tenant, ⟨"acme", false⟩)]
    [(1, ⟨"admin@example.com", "$2b$12$hash", .admin, some tenant, none, false⟩)]

/-- The admin of a tenant invites a viewer of it, who accepts. -/
def invitation : List Label :=
  .call (.create viewerInvite ⟨1, .admin, some tenant⟩) ::
    (List.replicate 5 (.run 0 (Input.ofId 7)) ++ [.commit 0, .call (.accept "token" "password")])

/-- While the viewer accepts, the admin is no admin until the tenant is deleted. -/
def interleaving : List Label :=
  invitation ++ ([.updateUser 1 .viewer (some tenant)] : List Label) ++
    (List.replicate 4 (.run 1 (Input.ofId 8)) : List Label) ++
    ([.deleteTenant tenant, .updateUser 1 .admin (some tenant)] : List Label) ++
    (List.replicate 4 (.run 1 (Input.ofId 8)) : List Label) ++ ([.commit 1] : List Label)

/-- The commit has created a user without a state in the past in which the call
    held the lock of the invite, the tenant was live and the inviter could make
    the grant. -/
def neverAtOnce (past : List State) (e : Commit) : Bool :=
  e.writes.user.isSome && e.writes.update.any fun row =>
    (e.db.invites.get? row.1).any fun invite => past.all fun s =>
      !(((s.procs[e.pid]?).any fun proc => proc.lock = some row.1) &&
        (s.db.tenantLive invite && s.db.inviterAllows invite))

theorem exec_interleaving : ∃ s past, tenancy.history.Reachable (s, past) ∧
    ∃ e ∈ s.log, neverAtOnce past e = true := by
  have hexec : (tenancy.history.exec tenancy.history.init interleaving).any
      (fun x => x.1.log.any (neverAtOnce x.2)) = true := by
    decide
  obtain ⟨⟨s, past⟩, hrun, hlog⟩ := (Option.any_eq_true _ _).1 hexec
  exact ⟨s, past, System.Reachable.exec .init hrun, List.any_eq_true.1 hlog⟩

theorem lifecycle_interleaving : ∃ s past, @Lifecycle Platform.ascii s past ∧
    ∃ e ∈ s.log, e.writes.user.isSome := by
  obtain ⟨s, past, hs, e, he, hnever⟩ := exec_interleaving
  exact ⟨s, past, @lifecycle Platform.ascii _ _ s past hs, e, he,
    (Bool.and_eq_true_iff.1 hnever).1⟩

/-- The tenant and the inviter are not read at once. -/
theorem not_seenAtOnce : ¬ ∀ s past, tenancy.history.Reachable (s, past) → ∀ e ∈ s.log,
    ∀ id invite user, e.Accepts id invite user →
      Seen past e.pid id fun db => db.tenantLive invite && db.inviterAllows invite := by
  intro h
  obtain ⟨s, past, hs, e, he, hnever⟩ := exec_interleaving
  obtain ⟨huser, hupdate⟩ := Bool.and_eq_true_iff.1 hnever
  obtain ⟨⟨userId, user⟩, huser⟩ := Option.isSome_iff_exists.1 huser
  rcases hu : e.writes.update with _ | ⟨id, row⟩
  · simp [hu] at hupdate
  rcases hi : e.db.invites.get? id with _ | invite
  · simp [hu, hi] at hupdate
  obtain ⟨s₁, hmem, ⟨proc, hp, hlock⟩, hlive⟩ :=
    h s past hs e he id invite user ⟨row, userId, hu, huser, hi⟩
  simp only [hu, hi, Option.any_some, List.all_eq_true] at hupdate
  have := hupdate s₁ hmem
  simp [hp, hlock, hlive] at this

end Yuviz.Config
