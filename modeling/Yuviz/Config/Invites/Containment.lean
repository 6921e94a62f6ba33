import Mathlib
import Yuviz.Config.Invites.Lifecycle

/-!
# Containment of privileges

While the roles and tenants of the users are not otherwise changed
(`KeepsRoles`), what an admin of a tenant starts stays in it: everyone they
have invited, directly or through others, is of the tenant and no superadmin;
and the operations of the admin leave the invites of other tenants, and those of
superadmins, alone (`Contained`).

An acceptance has read the inviter in a state of the past, as one who could make
the grant; the role and tenant read then are the ones the inviter still has.
-/

namespace Yuviz.Config

open Python (Dict)

/-- The user `u` has accepted an invite of the user `v`. -/
def Invited (db : Db) (v u : ℕ) : Prop :=
  ∃ id invite, db.invites.get? id = some invite ∧ invite.invitedBy = some v ∧
    invite.acceptedUserId = some u

/-- The actors are users with the role and tenant of their rows, and no update
    of a user changes these. -/
def KeepsRoles (s : State) : Label → Prop
  | .call request => ∀ actor, request.actor? = some actor →
    ∃ user, s.db.users.get? actor.id = some user ∧ user.role = actor.role ∧
      user.tenantId = actor.tenantId
  | .updateUser id role tenantId => ∀ user, s.db.users.get? id = some user →
    role = user.role ∧ tenantId = user.tenantId
  | _ => True

instance : ∀ s l, Decidable (KeepsRoles s l)
  | s, .call request =>
    decidable_of_iff (request.actor?.all fun actor => (s.db.users.get? actor.id).any fun user =>
      user.role = actor.role && user.tenantId = actor.tenantId)
      (by simp [KeepsRoles, Option.all_eq_true, Option.any_eq_true])
  | s, .updateUser id role tenantId =>
    decidable_of_iff ((s.db.users.get? id).all fun user =>
      role = user.role && tenantId = user.tenantId)
      (by simp [KeepsRoles, Option.all_eq_true])
  | _, .run _ _ | _, .commit _ | _, .fail _ | _, .addUser _ _ | _, .deleteUser _
  | _, .addTenant _ _ | _, .deleteTenant _ | _, .wait _ => isTrue trivial

/-- The call a step is of. -/
def Label.pid? : Label → Option ℕ
  | .run p _ | .commit p | .fail p => some p
  | _ => none

variable [Platform]

structure Contained (s : State) : Prop where
  /-- Whoever has an admin of a tenant in the chain of their inviters is of the
      tenant, and no superadmin. -/
  chain : ∀ v u admin T, Relation.TransGen (Invited s.db) v u → s.db.users.get? v = some admin →
    admin.role = .admin → admin.tenantId = some T →
    ∃ user, s.db.users.get? u = some user ∧ user.tenantId = some T ∧ user.role ≠ .superadmin
  /-- Only superadmins and admins invite. -/
  inviter : ∀ id invite v, s.db.invites.get? id = some invite → invite.invitedBy = some v →
    ∃ user, s.db.users.get? v = some user ∧ (user.role = .superadmin ∨ user.role = .admin)
  /-- An operation of an admin changes the invites of their tenant only, and no
      superadmin's. -/
  operation : ∀ p proc actor T l s', s.procs[p]? = some proc → proc.request.actor? = some actor →
    actor.role = .admin → actor.tenantId = some T → l.pid? = some p → s.step l = some s' →
    ∀ id invite, s.db.invites.get? id = some invite → s'.db.invites.get? id ≠ some invite →
      invite.tenantId = some T ∧ invite.role ≠ .superadmin

/-! ## The matrix -/

section Matrix

variable {actorRole targetRole : Role} {actorTenantId targetTenantId : Option String}

omit [Platform] in
theorem role_of_mayInvite (h : mayInvite actorRole actorTenantId targetRole targetTenantId = true) :
    actorRole = .superadmin ∨ actorRole = .admin := by
  cases actorRole with
  | superadmin => exact .inl rfl
  | admin => exact .inr rfl
  | supervisor | agent | viewer => cases h

omit [Platform] in
theorem target_of_mayInvite {T : String} (hrole : actorRole ≠ .superadmin)
    (htenant : actorTenantId = some T)
    (h : mayInvite actorRole actorTenantId targetRole targetTenantId = true) :
    targetTenantId = some T ∧ targetRole ≠ .superadmin := by
  obtain rfl := (role_of_mayInvite h).resolve_left hrole
  simp only [mayInvite] at h
  split_ifs at h with hsuper hnone
  rw [sameTenant, decide_eq_true_eq] at h
  exact ⟨h.symm.trans htenant, hsuper⟩

omit [Platform] in
theorem Db.exists_of_inviterAllows {db : Db} {invite : Invite} (h : db.inviterAllows invite = true) :
    ∃ v inviter, invite.invitedBy = some v ∧ db.users.get? v = some inviter ∧
      mayInvite inviter.role inviter.tenantId invite.role invite.tenantId = true := by
  unfold Db.inviterAllows at h
  split at h
  · cases h
  · rename_i inviter hbind
    obtain ⟨v, hv, hget⟩ := Option.bind_eq_some_iff.1 hbind
    exact ⟨v, inviter, hv, hget, (Bool.and_eq_true_iff.1 h).2⟩

end Matrix

/-! ## The roles last -/

/-- The users of `db` are in `db'`, with their roles and tenants. -/
def Db.RolesIn (db db' : Db) : Prop :=
  ∀ id user, db.users.get? id = some user → ∃ user', db'.users.get? id = some user' ∧
    user'.role = user.role ∧ user'.tenantId = user.tenantId

omit [Platform] in
theorem Db.RolesIn.refl (db : Db) : db.RolesIn db := fun _ user h => ⟨user, h, rfl, rfl⟩

omit [Platform] in
theorem Db.RolesIn.trans {db db' db'' : Db} (h : db.RolesIn db') (h' : db'.RolesIn db'') :
    db.RolesIn db'' := by
  intro id user huser
  obtain ⟨user', huser', hrole, htenant⟩ := h id user huser
  obtain ⟨user'', huser'', hrole', htenant'⟩ := h' id user' huser'
  exact ⟨user'', huser'', hrole'.trans hrole, htenant'.trans htenant⟩

omit [Platform] in
/-- A row is set that is new, or has the role and tenant of the one it replaces. -/
theorem rolesIn_set {db db' : Db} {id : ℕ} {row : User} (hdb : db'.users = db.users.set id row)
    (h : ∀ user, db.users.get? id = some user → row.role = user.role ∧
      row.tenantId = user.tenantId) : db.RolesIn db' := by
  intro k user huser
  rcases eq_or_ne k id with rfl | hne
  · exact ⟨row, by rw [hdb, Dict.get?_set, if_pos rfl], h user huser⟩
  · exact ⟨user, by rw [hdb, Dict.get?_set, if_neg hne, huser], rfl, rfl⟩

theorem rolesIn_step {s s' : State} {past : List State} {l : Label} (h : Inv s past)
    (hg : KeepsRoles s l) (hst : s.step l = some s') : s.db.RolesIn s'.db := by
  cases l with
  | commit p =>
    cases State.step_cases hst with
    | commit _ proc hp hpc =>
      rcases huser : proc.writes.user with _ | ⟨id, user⟩
      · intro k user hk
        exact ⟨user, by rwa [State.commit, Db.write, huser, Option.elim_none], rfl, rfl⟩
      · -- The identifier of the new user is no other's.
        have hset : (s.commit p proc).db.users = s.db.users.set id user := by
          simp [State.commit, Db.write, huser]
        refine rolesIn_set hset fun user' hold => ?_
        have hnone := h.userRow p proc id hp (by rw [Proc.newUser, huser]; rfl)
        exact absurd (hnone.symm.trans hold) (by simp)
    | other _ _ _ _ _ _ hl => exact absurd rfl (hl.2 p).2
  | run p i =>
    cases State.step_cases hst with
    | run => exact .refl _
    | other _ _ _ _ _ _ hl => exact absurd rfl (hl.1 p i)
  | fail p =>
    cases State.step_cases hst with
    | fail => exact .refl _
    | other _ _ _ _ _ _ hl => exact absurd rfl (hl.2 p).1
  | call request =>
    obtain rfl := Option.some.inj hst
    exact .refl _
  | addUser id user =>
    simp only [State.step] at hst
    split_ifs at hst with hfree
    obtain rfl := Option.some.inj hst
    refine rolesIn_set rfl fun user' hold => ?_
    simp only [Bool.or_eq_true, not_or] at hfree
    exact absurd ((get?_eq_none_of_not_hasUser hfree.2).symm.trans hold) (by simp)
  | updateUser id role tenantId =>
    obtain ⟨user, huser, hst⟩ := Option.bind_eq_some_iff.1 hst
    obtain rfl := Option.some.inj hst
    refine rolesIn_set rfl fun user' hold => ?_
    obtain rfl := Option.some.inj (huser.symm.trans hold)
    exact hg user huser
  | deleteUser id =>
    obtain ⟨user, huser, hst⟩ := Option.bind_eq_some_iff.1 hst
    obtain rfl := Option.some.inj hst
    refine rolesIn_set rfl fun user' hold => ?_
    obtain rfl := Option.some.inj (huser.symm.trans hold)
    exact ⟨rfl, rfl⟩
  | addTenant id tenant =>
    simp only [State.step] at hst
    split_ifs at hst
    obtain rfl := Option.some.inj hst
    exact .refl _
  | deleteTenant id =>
    obtain ⟨tenant, htenant, hst⟩ := Option.bind_eq_some_iff.1 hst
    obtain rfl := Option.some.inj hst
    exact .refl _
  | wait d =>
    obtain rfl := Option.some.inj hst
    exact .refl _

/-! ## The invariant -/

/-- The call is made by a user, who may make it or is refused. -/
def Proc.Permitted (db : Db) (proc : Proc) : Prop :=
  (∃ error, proc.pc = .done (.error error)) ∨
    ∀ body actor, proc.request = .create body actor →
      ∃ user, db.users.get? actor.id = some user ∧ (user.role = .superadmin ∨ user.role = .admin)

/-- The inviter of an accepted invite may make the grant the user has. -/
def Db.Granted (db : Db) : Prop :=
  ∀ id invite u, db.invites.get? id = some invite → invite.acceptedUserId = some u →
    ∃ v inviter user, invite.invitedBy = some v ∧ db.users.get? v = some inviter ∧
      db.users.get? u = some user ∧
      mayInvite inviter.role inviter.tenantId user.role user.tenantId = true

def Db.Inviters (db : Db) : Prop :=
  ∀ id invite v, db.invites.get? id = some invite → invite.invitedBy = some v →
    ∃ user, db.users.get? v = some user ∧ (user.role = .superadmin ∨ user.role = .admin)

structure Roles (s : State) (past : List State) : Prop where
  inv : Inv s past
  past : ∀ s₁ ∈ past, s₁.db.RolesIn s.db
  permitted : ∀ (p : ℕ) proc, s.procs[p]? = some proc → proc.Permitted s.db
  granted : s.db.Granted
  inviters : s.db.Inviters

section Step

variable {s s' : State} {past : List State} {p : ℕ} {proc proc' : Proc}

omit [Platform] in
theorem Proc.Permitted.mono {db db' : Db} (h : proc.Permitted db) (hroles : db.RolesIn db') :
    proc.Permitted db' := by
  refine h.imp_right fun h body actor hreq => ?_
  obtain ⟨user, huser, hrole⟩ := h body actor hreq
  obtain ⟨user', huser', hrole', -⟩ := hroles _ user huser
  exact ⟨user', huser', hrole'.symm ▸ hrole⟩

omit [Platform] in
theorem permitted_call {request : Request} (hg : KeepsRoles s (.call request)) :
    (Proc.call request).Permitted s.db := by
  unfold Proc.call
  cases request with
  | create body actor =>
    simp only [Proc.create]
    split_ifs with hmay
    · refine .inr ?_
      rintro _ _ ⟨⟩
      obtain ⟨user, huser, hrole, -⟩ := hg actor rfl
      exact ⟨user, huser, hrole.symm ▸ role_of_mayInvite hmay⟩
    · exact .inl ⟨_, rfl⟩
  | resend | revoke | accept => exact .inr (by simp)

omit [Platform] in
/-- Rows that have an old one behind them keep what the old one says. -/
theorem Db.Granted.mono {db db' : Db} (h : db.Granted) (hroles : db.RolesIn db')
    (hrows : ∀ id invite u, db'.invites.get? id = some invite → invite.acceptedUserId = some u →
      (∃ old, db.invites.get? id = some old ∧ old.acceptedUserId = some u ∧
        old.invitedBy = invite.invitedBy) ∨
      ∃ v inviter user, invite.invitedBy = some v ∧ db'.users.get? v = some inviter ∧
        db'.users.get? u = some user ∧
        mayInvite inviter.role inviter.tenantId user.role user.tenantId = true) :
    db'.Granted := by
  intro id invite u hinvite hu
  rcases hrows id invite u hinvite hu with ⟨old, hold, hou, hby⟩ | hnew
  · obtain ⟨v, inviter, user, hv, hinviter, huser, hmay⟩ := h id old u hold hou
    obtain ⟨inviter', hinviter', hrole, htenant⟩ := hroles v inviter hinviter
    obtain ⟨user', huser', hrole', htenant'⟩ := hroles u user huser
    exact ⟨v, inviter', user', hby ▸ hv, hinviter', huser', by
      rwa [hrole, htenant, hrole', htenant']⟩
  · exact hnew

omit [Platform] in
theorem Db.Inviters.mono {db db' : Db} (h : db.Inviters) (hroles : db.RolesIn db')
    (hrows : ∀ id invite v, db'.invites.get? id = some invite → invite.invitedBy = some v →
      (∃ old, db.invites.get? id = some old ∧ old.invitedBy = some v) ∨
      ∃ user, db'.users.get? v = some user ∧ (user.role = .superadmin ∨ user.role = .admin)) :
    db'.Inviters := by
  intro id invite v hinvite hv
  rcases hrows id invite v hinvite hv with ⟨old, hold, hov⟩ | hnew
  · obtain ⟨user, huser, hrole⟩ := h id old v hold hov
    obtain ⟨user', huser', hrole', -⟩ := hroles v user huser
    exact ⟨user', huser', hrole'.symm ▸ hrole⟩
  · exact hnew

/-- The row a commit updates keeps its inviter, and gets an accepting user only
    from the one it inserts. -/
theorem Committing.update_by (h : Committing s past p proc) {id : ℕ} {row : Invite}
    (hupd : proc.writes.update = some (id, row)) : ∃ old, s.db.invites.get? id = some old ∧
      row.invitedBy = old.invitedBy ∧ (row.acceptedUserId = old.acceptedUserId ∨
        ∃ userId hash, row.acceptedUserId = some userId ∧
          proc.writes.user = some (userId, old.user hash) ∧ Live s past p proc id old) := by
  cases h with
  | create body actor token id' hreq htok hrec hins =>
    obtain ⟨old, hlocked, -, hrow⟩ := hrec.update _ hupd
    have hrow : row = old.revoke := hrow
    exact ⟨old, hlocked.row, by rw [hrow, Invite.revoke], .inl (by rw [hrow, Invite.revoke])⟩
  | resend token id' invite htok hlocked hauth hw =>
    rw [hw] at hupd
    cases hupd
    exact ⟨invite, hlocked.row, rfl, .inl rfl⟩
  | revoke id' invite htok hlocked hauth hw =>
    rw [hw] at hupd
    cases hupd
    exact ⟨invite, hlocked.row, rfl, .inl rfl⟩
  | accept id' invite userId hash hlive hunexp hw =>
    rw [hw] at hupd
    cases hupd
    exact ⟨invite, hlive.locked.row, rfl, .inr ⟨userId, hash, rfl, by rw [hw], hlive⟩⟩

/-- The row a commit inserts is of the call's actor. -/
theorem Committing.insert_by (h : Committing s past p proc) {id : ℕ} {row : Invite}
    (hins : proc.writes.insert = some (id, row)) : row.acceptedUserId = none ∧
      ∃ body actor, proc.request = .create body actor ∧ row.invitedBy = some actor.id := by
  cases h with
  | create body actor token id' hreq htok hrec hins' =>
    rw [hins'] at hins
    cases hins
    exact ⟨rfl, body, actor, hreq, rfl⟩
  | resend token id' invite htok hlocked hauth hw => simp [hw] at hins
  | revoke id' invite htok hlocked hauth hw => simp [hw] at hins
  | accept id' invite userId hash hlive hunexp hw => simp [hw] at hins

theorem Roles.committing (h : Roles s past) (hp : s.procs[p]? = some proc)
    (hpc : proc.pc = .commit) : Committing s past p proc := by
  have := h.inv.valid p proc hp
  rwa [Proc.Valid, hpc] at this

/-- The inviter has been read as one who could make the grant, and still could. -/
theorem granted_of_live (h : Roles s past) (hroles : s.db.RolesIn s'.db) {id userId : ℕ}
    {invite : Invite} {hash : String} (hlive : Live s past p proc id invite)
    (huser : s'.db.users.get? userId = some (invite.user hash)) :
    ∃ v inviter user, invite.invitedBy = some v ∧ s'.db.users.get? v = some inviter ∧
      s'.db.users.get? userId = some user ∧
      mayInvite inviter.role inviter.tenantId user.role user.tenantId = true := by
  obtain ⟨s₁, hs₁, -, hallows⟩ := hlive.inviter
  obtain ⟨v, inviter, hv, hinviter, hmay⟩ := Db.exists_of_inviterAllows hallows
  obtain ⟨inviter', hinviter', hrole, htenant⟩ := (h.past s₁ hs₁).trans hroles v inviter hinviter
  exact ⟨v, inviter', _, hv, hinviter', huser, by rwa [hrole, htenant]⟩

theorem Roles.granted_commit (h : Roles s past) (hp : s.procs[p]? = some proc)
    (hpc : proc.pc = .commit) (hroles : s.db.RolesIn (s.commit p proc).db) :
    (s.commit p proc).db.Granted := by
  have hc := h.committing hp hpc
  refine h.granted.mono hroles fun id row u hrow hu => ?_
  rcases Db.get?_write_eq_some hrow with hins | hupd | ⟨-, hrow⟩
  · exact absurd ((hc.insert_by hins).1.symm.trans hu) nofun
  · obtain ⟨old, hold, hby, hsame | ⟨userId, hash, hacc, huser, hlive⟩⟩ := hc.update_by hupd
    · exact .inl ⟨old, hold, hsame ▸ hu, hby.symm⟩
    · obtain rfl := Option.some.inj (hacc.symm.trans hu)
      rw [hby]
      exact .inr (granted_of_live h hroles hlive (get?_elim_set_of_eq huser))
  · exact .inl ⟨row, hrow, hu, rfl⟩

theorem Roles.inviters_commit (h : Roles s past) (hp : s.procs[p]? = some proc)
    (hpc : proc.pc = .commit) (hroles : s.db.RolesIn (s.commit p proc).db) :
    (s.commit p proc).db.Inviters := by
  have hc := h.committing hp hpc
  refine h.inviters.mono hroles fun id row v hrow hv => ?_
  rcases Db.get?_write_eq_some hrow with hins | hupd | ⟨-, hrow⟩
  · obtain ⟨-, body, actor, hreq, hby⟩ := hc.insert_by hins
    obtain rfl := Option.some.inj (hby.symm.trans hv)
    rcases h.permitted p proc hp with ⟨error, hpc'⟩ | hpermitted
    · exact absurd (hpc.symm.trans hpc') nofun
    · obtain ⟨user, huser, hrole⟩ := hpermitted body actor hreq
      obtain ⟨user', huser', hrole', -⟩ := hroles _ user huser
      exact .inr ⟨user', huser', hrole'.symm ▸ hrole⟩
  · obtain ⟨old, hold, hby, -⟩ := hc.update_by hupd
    exact .inl ⟨old, hold, hby ▸ hv⟩
  · exact .inl ⟨row, hrow, hv⟩

theorem Roles.step {l : Label} (h : Roles s past) (hg : KeepsRoles s l)
    (hst : s.step l = some s') : Roles s' (s :: past) := by
  have hroles := rolesIn_step h.inv hg hst
  have hpast : ∀ s₁ ∈ s :: past, s₁.db.RolesIn s'.db := by
    intro s₁ hs₁
    rcases List.mem_cons.1 hs₁ with rfl | hs₁
    · exact hroles
    · exact (h.past s₁ hs₁).trans hroles
  -- A step that leaves the invites alone keeps what they say.
  have hgranted (heq : s'.db.invites = s.db.invites) : s'.db.Granted :=
    h.granted.mono hroles fun id row u hrow hu => .inl ⟨row, heq ▸ hrow, hu, rfl⟩
  have hinviters (heq : s'.db.invites = s.db.invites) : s'.db.Inviters :=
    h.inviters.mono hroles fun id row v hrow hv => .inl ⟨row, heq ▸ hrow, hv⟩
  have hinv := h.inv.step hst
  cases State.step_cases hst with
  | call request =>
    refine ⟨hinv, hpast, fun q other hq => ?_, hgranted rfl, hinviters rfl⟩
    rcases getElem?_concat_eq_some hq with rfl | hq
    · exact permitted_call hg
    · exact h.permitted q other hq
  | run p i proc proc' hp hn =>
    refine ⟨hinv, hpast, fun q other hq => ?_, hgranted rfl, hinviters rfl⟩
    rcases getElem?_set_eq_some hq with ⟨rfl, rfl⟩ | ⟨-, hq⟩
    · rcases h.permitted q proc hp with ⟨error, hpc⟩ | hpermitted
      · exact absurd hpc (next_ne_done hn)
      · rw [Proc.Permitted, (next_frame hn).request]
        exact .inr hpermitted
    · exact h.permitted q other hq
  | fail p proc hp hpc =>
    refine ⟨hinv, hpast, fun q other hq => ?_, hgranted rfl, hinviters rfl⟩
    rcases getElem?_set_eq_some hq with ⟨rfl, rfl⟩ | ⟨-, hq⟩
    · exact .inl ⟨.database, rfl⟩
    · exact h.permitted q other hq
  | commit p proc hp hpc =>
    refine ⟨hinv, hpast, fun q other hq => ?_, h.granted_commit hp hpc hroles,
      h.inviters_commit hp hpc hroles⟩
    rcases getElem?_set_eq_some hq with ⟨rfl, rfl⟩ | ⟨-, hq⟩
    · rcases h.permitted q proc hp with ⟨error, hpc'⟩ | hpermitted
      · exact absurd (hpc.symm.trans hpc') nofun
      · exact Proc.Permitted.mono (.inr hpermitted) hroles
    · exact (h.permitted q other hq).mono hroles
  | other _ _ hprocs hlog hinvites husers =>
    refine ⟨hinv, hpast, fun q other hq => ?_, hgranted hinvites, hinviters hinvites⟩
    exact (h.permitted q other (hprocs ▸ hq)).mono hroles

end Step

theorem roles_of_reachable {tenants : Dict String Tenant} {users : Dict ℕ User} {s : State}
    {past : List State}
    (h : (Invites.system tenants users).history.ReachableIf (fun s l => KeepsRoles s.1 l)
      (s, past)) : Roles s past := by
  refine System.ReachableIf.history_invariant (g := KeepsRoles) ?_ ?_ h
  · refine ⟨.init tenants users, ?_, ?_, ?_, ?_⟩ <;>
      simp [Invites.system, Db.Granted, Db.Inviters, Dict.get?]
  · exact fun s past l s' hI hg hst => hI.step hg hst

/-! ## Containment -/

omit [Platform] in
/-- Of a chain of inviters, what the first may grant bounds what the last has. -/
theorem chain_of_granted {db : Db} (h : db.Granted) {v u : ℕ} {admin : User} {T : String}
    (hchain : Relation.TransGen (Invited db) v u) (hadmin : db.users.get? v = some admin)
    (hrole : admin.role = .admin) (htenant : admin.tenantId = some T) :
    ∃ user, db.users.get? u = some user ∧ user.tenantId = some T ∧ user.role ≠ .superadmin := by
  -- One link: who is of the tenant and no superadmin grants nothing else.
  have hlink {w u : ℕ} {inviter : User} (hlink : Invited db w u)
      (hw : db.users.get? w = some inviter) (ht : inviter.tenantId = some T)
      (hr : inviter.role ≠ .superadmin) :
      ∃ user, db.users.get? u = some user ∧ user.tenantId = some T ∧ user.role ≠ .superadmin := by
    obtain ⟨id, invite, hinvite, hby, hacc⟩ := hlink
    obtain ⟨w', inviter', user, hby', hinviter, huser, hmay⟩ := h id invite u hinvite hacc
    obtain rfl := Option.some.inj (hby.symm.trans hby')
    obtain rfl := Option.some.inj (hw.symm.trans hinviter)
    exact ⟨user, huser, target_of_mayInvite hr ht hmay⟩
  induction hchain with
  | single h => exact hlink h hadmin htenant (by simp [hrole])
  | tail _ h ih =>
    obtain ⟨inviter, hinviter, ht, hr⟩ := ih
    exact hlink h hinviter ht hr

/-- Only the commit of a call changes invites, and of those there are only the one
    its actor has been authorised for. -/
theorem authorised_of_changed {s s' : State} {past : List State} {p : ℕ} {proc : Proc} {l : Label}
    {actor : CurrentUser} (h : Inv s past) (hp : s.procs[p]? = some proc)
    (hactor : proc.request.actor? = some actor) (hl : l.pid? = some p) (hst : s.step l = some s')
    {id : ℕ} {invite : Invite} (hold : s.db.invites.get? id = some invite)
    (hnew : s'.db.invites.get? id ≠ some invite) :
    actor.mayInvite invite.role invite.tenantId = true := by
  cases State.step_cases hst with
  | call | run | fail => exact absurd hold hnew
  | other _ _ _ _ hinvites => exact absurd (hinvites ▸ hold) hnew
  | commit q proc' hq hpc =>
    obtain rfl : q = p := Option.some.inj hl
    obtain rfl := Option.some.inj (hp.symm.trans hq)
    have hc : Committing s past q proc := by
      have := h.valid q proc hp
      rwa [Proc.Valid, hpc] at this
    have hauth : ∀ e, proc.writes.update = some e → ∃ row, s.db.invites.get? e.1 = some row ∧
        proc.Authorised row := by
      intro e he
      cases hc with
      | create body actor token id hreq htok hrec hins =>
        obtain ⟨row, hlocked, hauth, -⟩ := hrec.update e he
        exact ⟨row, hlocked.row, hauth⟩
      | resend token id invite htok hlocked hauth hw =>
        rw [hw] at he
        cases he
        exact ⟨invite, hlocked.row, hauth⟩
      | revoke id invite htok hlocked hauth hw =>
        rw [hw] at he
        cases he
        exact ⟨invite, hlocked.row, hauth⟩
      | accept id invite userId hash hlive hunexp hw =>
        obtain ⟨rawToken, password, hreq, -⟩ := hlive.request
        rw [hreq] at hactor
        cases hactor
    by_contra hnot
    refine hnew ((Db.get?_write_of_ne ?_ ?_).trans hold)
    · rintro e he rfl
      obtain ⟨row, hrow, actor', hactor', hmay⟩ := hauth e he
      obtain rfl := Option.some.inj (hold.symm.trans hrow)
      obtain rfl := Option.some.inj (hactor.symm.trans hactor')
      exact hnot hmay
    · rintro e he rfl
      have hnone := h.insertedRow q proc e.1 hp (by rw [Proc.newInvite, he]; rfl)
      exact absurd (hnone.symm.trans hold) (by simp)

theorem contained {tenants : Dict String Tenant} {users : Dict ℕ User} {s : State}
    (h : (Invites.system tenants users).ReachableIf KeepsRoles s) : Contained s := by
  obtain ⟨past, h⟩ := h.monitored [] fun past s _ => s :: past
  have hroles := roles_of_reachable h
  exact
    { chain := fun _ _ _ _ => chain_of_granted hroles.granted
      inviter := hroles.inviters
      operation := fun _ _ _ _ _ _ hp hactor hrole htenant hl hst _ _ hold hnew =>
        target_of_mayInvite (by simp [hrole]) htenant
          (authorised_of_changed hroles.inv hp hactor hl hst hold hnew) }

end Yuviz.Config

namespace Yuviz.Config

theorem contained_invitation : ∃ s, @Contained Platform.ascii s ∧ Invited s.db 1 8 := by
  have hexec : (tenancy.execIf KeepsRoles tenancy.init
      (invitation ++ (List.replicate 8 (.run 1 (Input.ofId 8)) : List Label) ++
        ([.commit 1] : List Label))).any
      (fun s => s.db.invites.any fun e => s.db.invites.get? e.1 |>.any fun invite =>
        invite.invitedBy = some 1 && invite.acceptedUserId = some 8) = true := by
    decide
  obtain ⟨s, hrun, hrow⟩ := (Option.any_eq_true _ _).1 hexec
  obtain ⟨e, -, hrow⟩ := List.any_eq_true.1 hrow
  obtain ⟨invite, hget, hinvite⟩ := (Option.any_eq_true _ _).1 hrow
  rw [Bool.and_eq_true, decide_eq_true_eq, decide_eq_true_eq] at hinvite
  exact ⟨s, @contained Platform.ascii _ _ s (System.ReachableIf.execIf .init hrun), e.1, invite,
    hget, hinvite⟩

end Yuviz.Config
