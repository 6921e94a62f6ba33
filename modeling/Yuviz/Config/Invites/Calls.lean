import Mathlib
import Yuviz.Config.Invites

/-!
# What a call holds

What is known of a call at each of its statements (`Proc.Valid`): the row it has
locked is as it was when it was read, and pending; it has drawn no token before
the statement that stores one; what it has written is the row it has read, with
the changes of the operation. Of an `accept_invite` that has passed
`_check_context_live`, the past has a state for each of the two reads, in which
the call held the lock of the row (`Seen`).
-/

namespace Yuviz.Config

open Python (Dict)

/-! ## What the statements read and write -/

section Writes

variable {ν : Type*} {d : Dict ℕ ν} {o : Option (ℕ × ν)} {id : ℕ} {row : ν}

theorem get?_elim_set_of_ne (h : ∀ e, o = some e → e.1 ≠ id) :
    (o.elim d fun e => d.set e.1 e.2).get? id = d.get? id := by
  rcases o with _ | e
  · rfl
  · rw [Option.elim_some, Dict.get?_set, if_neg (h e rfl).symm]

theorem get?_elim_set_of_eq (h : o = some (id, row)) :
    (o.elim d fun e => d.set e.1 e.2).get? id = some row := by
  rw [h, Option.elim_some, Dict.get?_set, if_pos rfl]

/-- A row is what was written, or what was there. -/
theorem get?_elim_set_eq_some (h : (o.elim d fun e => d.set e.1 e.2).get? id = some row) :
    o = some (id, row) ∨ (∀ e, o = some e → e.1 ≠ id) ∧ d.get? id = some row := by
  rcases o with _ | e
  · exact .inr ⟨nofun, h⟩
  · rw [Option.elim_some, Dict.get?_set] at h
    split_ifs at h with hid
    · rw [hid, ← Option.some.inj h]
      exact .inl rfl
    · refine .inr ⟨?_, h⟩
      rintro _ ⟨⟩
      exact Ne.symm hid

end Writes

/-- A `COMMIT` leaves the other rows alone, -/
theorem Db.get?_write_of_ne {db : Db} {w : Writes} {id : ℕ}
    (hu : ∀ e, w.update = some e → e.1 ≠ id) (hi : ∀ e, w.insert = some e → e.1 ≠ id) :
    (db.write w).invites.get? id = db.invites.get? id := by
  rw [Db.write, get?_elim_set_of_ne hi, get?_elim_set_of_ne hu]

/-- and a row it leaves is inserted, updated or as it was. -/
theorem Db.get?_write_eq_some {db : Db} {w : Writes} {id : ℕ} {row : Invite}
    (h : (db.write w).invites.get? id = some row) :
    w.insert = some (id, row) ∨ w.update = some (id, row) ∨
      (∀ e, w.update = some e → e.1 ≠ id) ∧ db.invites.get? id = some row := by
  rcases get?_elim_set_eq_some h with h | ⟨-, h⟩
  · exact .inl h
  · exact .inr (get?_elim_set_eq_some h)

theorem State.isLocked_eq_false_iff {s : State} {id : ℕ} :
    s.isLocked id = false ↔ ∀ (p : ℕ) proc, s.procs[p]? = some proc → proc.lock ≠ some id := by
  simp only [State.isLocked, List.any_eq_false, decide_eq_true_eq]
  constructor
  · intro h p proc hp
    exact h proc (List.mem_of_getElem? hp)
  · intro h proc hmem
    obtain ⟨p, hp⟩ := List.mem_iff_getElem?.1 hmem
    exact h p proc hp

theorem State.othersWrote_eq_false_iff {s : State} {p : ℕ} {c : Writes → Bool} :
    s.othersWrote p c = false ↔
      ∀ (q : ℕ) proc, s.procs[q]? = some proc → q ≠ p → c proc.writes = false := by
  simp only [State.othersWrote, List.any_eq_false, Bool.and_eq_true, decide_eq_true_eq, not_and,
    Bool.not_eq_true]
  constructor
  · intro h q proc hq hne
    exact h (proc, q) (List.mem_zipIdx_iff_getElem?.2 hq) hne
  · rintro h ⟨proc, q⟩ hmem hne
    exact h q proc (List.mem_zipIdx_iff_getElem?.1 hmem) hne

variable [Platform]

open Platform

theorem State.isNewToken_iff {s : State} {token : String} :
    s.isNewToken token = true ↔ ∀ (p : ℕ) proc t, s.procs[p]? = some proc → proc.token = some t →
      sha256 t ≠ sha256 token := by
  simp only [State.isNewToken, List.all_eq_true, Option.all_eq_true, decide_eq_true_eq]
  constructor
  · intro h p proc t hp ht
    exact h proc (List.mem_of_getElem? hp) t ht
  · intro h proc hmem t ht
    obtain ⟨p, hp⟩ := List.mem_iff_getElem?.1 hmem
    exact h p proc t hp ht

/-! ## The row a call has locked -/

/-- The call has locked the row, which is as it was read, and pending. -/
structure Locked (s : State) (proc : Proc) (id : ℕ) (invite : Invite) : Prop where
  lock : proc.lock = some id
  row : s.db.invites.get? id = some invite
  pending : invite.status = .pending

def State.HoldsLock (s : State) (p id : ℕ) : Prop :=
  ∃ proc, s.procs[p]? = some proc ∧ proc.lock = some id

/-- There has been a state in which the call held the lock of the row and `c`
    was the case of the tables. -/
def Seen (past : List State) (p id : ℕ) (c : Db → Bool) : Prop :=
  ∃ s ∈ past, s.HoldsLock p id ∧ c s.db = true

/-- The request's actor, who has one. -/
def Request.actor? : Request → Option CurrentUser
  | .create _ actor | .resend _ actor | .revoke _ actor => some actor
  | .accept _ _ => none

/-- The actor of the call may grant what the invite grants. -/
def Proc.Authorised (proc : Proc) (invite : Invite) : Prop :=
  ∃ actor, proc.request.actor? = some actor ∧
    actor.mayInvite invite.role invite.tenantId = true

/-- The call has locked nothing, written nothing and drawn no token. -/
structure Idle (proc : Proc) : Prop where
  lock : proc.lock = none
  token : proc.token = none
  writes : proc.writes = .none

/-- An `accept_invite` with the row of its token. -/
structure Accepting (s : State) (proc : Proc) (id : ℕ) (invite : Invite) : Prop where
  locked : Locked s proc id invite
  token : proc.token = none
  request : ∃ rawToken password, proc.request = .accept rawToken password ∧
    invite.tokenHash = sha256 rawToken

/-- It has passed `_check_context_live`. -/
structure Live (s : State) (past : List State) (p : ℕ) (proc : Proc) (id : ℕ) (invite : Invite) :
    Prop extends Accepting s proc id invite where
  tenant : Seen past p id fun db => db.tenantLive invite
  inviter : Seen past p id fun db => db.inviterAllows invite

/-- `create_invite` is about to insert its row: it may have revoked another. -/
structure Reclaimed (s : State) (proc : Proc) : Prop where
  update : ∀ e, proc.writes.update = some e → ∃ invite,
    Locked s proc e.1 invite ∧ proc.Authorised invite ∧ e.2 = invite.revoke
  user : proc.writes.user = none

/-- What a transaction is about to commit. -/
inductive Committing (s : State) (past : List State) (p : ℕ) (proc : Proc) : Prop
  | create (body : InviteCreate) (actor : CurrentUser) (token : String) (id : ℕ)
      (request : proc.request = .create body actor) (drawn : proc.token = some token)
      (reclaimed : Reclaimed s proc)
      (insert : proc.writes.insert = some (id, body.row actor token proc.started))
  | resend (token : String) (id : ℕ) (invite : Invite) (drawn : proc.token = some token)
      (locked : Locked s proc id invite) (authorised : proc.Authorised invite)
      (writes : proc.writes = ⟨some (id, invite.rotate token proc.started), none, none⟩)
  | revoke (id : ℕ) (invite : Invite) (drawn : proc.token = none)
      (locked : Locked s proc id invite) (authorised : proc.Authorised invite)
      (writes : proc.writes = ⟨some (id, invite.revoke), none, none⟩)
  | accept (id : ℕ) (invite : Invite) (userId : ℕ) (passwordHash : String)
      (live : Live s past p proc id invite) (unexpired : proc.started < invite.expiresAt)
      (writes : proc.writes =
        ⟨some (id, { invite.accept proc.started with acceptedUserId := some userId }), none,
          some (userId, invite.user passwordHash)⟩)

/-- What is known of a call at each of its statements. -/
def Proc.Valid (s : State) (past : List State) (p : ℕ) (proc : Proc) : Prop :=
  match proc.pc with
  | .getUserByEmail | .conflict _ | .begin | .select | .lock _ | .reclaim none => Idle proc
  | .reclaim (some (id, invite)) =>
    proc.token = none ∧ proc.writes = .none ∧ Locked s proc id invite
  | .insertInvite => proc.token = none ∧ proc.writes.insert = none ∧ Reclaimed s proc
  | .rotate id invite | .revoke id invite =>
    proc.token = none ∧ proc.writes = .none ∧ Locked s proc id invite ∧ proc.Authorised invite
  | .checkTenant id invite => proc.writes = .none ∧ Accepting s proc id invite
  | .checkInviter id invite =>
    proc.writes = .none ∧ Accepting s proc id invite ∧
      (invite.tenantId = none ∨ Seen past p id fun db => db.tenantLive invite)
  | .claim id invite => proc.writes = .none ∧ Live s past p proc id invite
  | .insertUser id invite =>
    Live s past p proc id invite ∧ proc.started < invite.expiresAt ∧
      proc.writes = ⟨some (id, invite.accept proc.started), none, none⟩
  | .setAcceptedUser id invite userId =>
    Live s past p proc id invite ∧ proc.started < invite.expiresAt ∧ ∃ passwordHash, proc.writes =
      ⟨some (id, invite.accept proc.started), none, some (userId, invite.user passwordHash)⟩
  | .commit => Committing s past p proc
  | .done _ => proc.lock = none ∧ proc.writes = .none

/-! ## The others do not get in the way -/

section Mono

variable {s s' : State} {past past' : List State} {p id : ℕ} {proc : Proc} {invite : Invite}

omit [Platform] in
theorem Seen.mono {c : Db → Bool} (h : Seen past p id c) (hpast : past ⊆ past') :
    Seen past' p id c :=
  h.imp fun _ h => h.imp_left fun h => hpast h

omit [Platform] in
/-- What a call knows of the row that it has locked stays true. -/
theorem Locked.mono (h : Locked s proc id invite)
    (hrow : ∀ id, proc.lock = some id → s'.db.invites.get? id = s.db.invites.get? id) :
    Locked s' proc id invite :=
  ⟨h.lock, (hrow id h.lock).trans h.row, h.pending⟩

theorem Accepting.mono (h : Accepting s proc id invite)
    (hrow : ∀ id, proc.lock = some id → s'.db.invites.get? id = s.db.invites.get? id) :
    Accepting s' proc id invite :=
  ⟨h.locked.mono hrow, h.token, h.request⟩

/-- What it knows of the past does so, too. -/
theorem Live.mono (h : Live s past p proc id invite)
    (hrow : ∀ id, proc.lock = some id → s'.db.invites.get? id = s.db.invites.get? id)
    (hpast : past ⊆ past') : Live s' past' p proc id invite :=
  ⟨h.toAccepting.mono hrow, h.tenant.mono hpast, h.inviter.mono hpast⟩

omit [Platform] in
theorem Reclaimed.mono (h : Reclaimed s proc)
    (hrow : ∀ id, proc.lock = some id → s'.db.invites.get? id = s.db.invites.get? id) :
    Reclaimed s' proc :=
  ⟨fun e he => (h.update e he).imp fun _ h => h.imp_left fun h => h.mono hrow, h.user⟩

theorem Committing.mono (h : Committing s past p proc)
    (hrow : ∀ id, proc.lock = some id → s'.db.invites.get? id = s.db.invites.get? id)
    (hpast : past ⊆ past') : Committing s' past' p proc := by
  cases h with
  | create body actor token id hreq htok hrec hins =>
    exact .create body actor token id hreq htok (hrec.mono hrow) hins
  | resend token id invite htok hlock hauth hw =>
    exact .resend token id invite htok (hlock.mono hrow) hauth hw
  | revoke id invite htok hlock hauth hw =>
    exact .revoke id invite htok (hlock.mono hrow) hauth hw
  | accept id invite userId hash hlive hunexp hw =>
    exact .accept id invite userId hash (hlive.mono hrow hpast) hunexp hw

/-- What is known of a call lasts while the row it has locked does not change. -/
theorem Proc.Valid.mono (h : proc.Valid s past p)
    (hrow : ∀ id, proc.lock = some id → s'.db.invites.get? id = s.db.invites.get? id)
    (hpast : past ⊆ past') : proc.Valid s' past' p := by
  unfold Proc.Valid at h ⊢
  split at h
  · exact h
  · exact h
  · exact h
  · exact h
  · exact h
  · exact h
  · exact ⟨h.1, h.2.1, h.2.2.mono hrow⟩
  · exact ⟨h.1, h.2.1, h.2.2.mono hrow⟩
  · exact ⟨h.1, h.2.1, h.2.2.1.mono hrow, h.2.2.2⟩
  · exact ⟨h.1, h.2.1, h.2.2.1.mono hrow, h.2.2.2⟩
  · exact ⟨h.1, h.2.mono hrow⟩
  · exact ⟨h.1, h.2.1.mono hrow, h.2.2.imp_right fun h => h.mono hpast⟩
  · exact ⟨h.1, h.2.mono hrow hpast⟩
  · exact ⟨h.1.mono hrow hpast, h.2⟩
  · exact ⟨h.1.mono hrow hpast, h.2⟩
  · exact Committing.mono h hrow hpast
  · exact h

theorem Proc.valid_raise (e : InviteError) : (proc.raise e).Valid s past p := ⟨rfl, rfl⟩

end Mono

/-! ## Every statement keeps what is known -/

section Next

variable {s : State} {past : List State} {p id : ℕ} {proc : Proc} {invite : Invite} {clock : ℤ}

/-- There is nothing to commit if the row is not found, -/
theorem valid_notFound (h : Idle proc) : proc.notFound.Valid s past p := by
  unfold Proc.notFound
  split
  · exact ⟨h.lock, h.token, h.writes⟩
  · exact Proc.valid_raise _

/-- and nothing if the actor may not invite. -/
theorem valid_authorised {actor : CurrentUser} {next : Proc}
    (h : actor.mayInvite invite.role invite.tenantId = true → invite.status = .pending →
      next.Valid s past p) : (proc.authorised actor invite next).Valid s past p := by
  unfold Proc.authorised
  split_ifs with hmay hpending
  · exact Proc.valid_raise _
  · exact Proc.valid_raise _
  · exact h (by simpa using hmay) (not_not.1 hpending)

theorem valid_resend (h : (proc.goto (.rotate id invite)).Valid s past p) :
    (proc.resend id invite clock).Valid s past p := by
  unfold Proc.resend
  split
  · exact h
  · simp only
    split_ifs
    · exact Proc.valid_raise _
    · exact h

/-- Only an invite that is pending is accepted. -/
theorem valid_classify (hw : proc.writes = .none)
    (h : invite.status = .pending → Accepting s proc id invite) :
    (proc.classify id invite clock).Valid s past p := by
  unfold Proc.classify
  split_ifs with hrevoked haccepted hexpired htenant
  · exact Proc.valid_raise _
  · exact Proc.valid_raise _
  · exact Proc.valid_raise _
  all_goals
    have hpending : invite.status = .pending := by
      rcases hs : invite.status
      · rfl
      · exact absurd hs haccepted
      · exact absurd hs hrevoked
    obtain ⟨⟨hlock, hrow, -⟩, htok, hreq⟩ := h hpending
  · exact ⟨hw, ⟨⟨hlock, hrow, hpending⟩, htok, hreq⟩, .inl htenant⟩
  · exact ⟨hw, ⟨hlock, hrow, hpending⟩, htok, hreq⟩

/-- The row has been locked as it is, so the checks that follow are of what is there. -/
theorem valid_found (htok : proc.token = none) (hw : proc.writes = .none)
    (hlock : proc.lock = some id) (hrow : s.db.invites.get? id = some invite)
    (hsel : proc.request.selects id invite = true) :
    (proc.found id invite clock).Valid s past p := by
  have hlocked (hpending : invite.status = .pending) : Locked s proc id invite :=
    ⟨hlock, hrow, hpending⟩
  unfold Proc.found
  split
  · rename_i hreq
    simp only [hreq, Request.selects, Bool.and_eq_true, decide_eq_true_eq] at hsel
    obtain ⟨hlock, hrow, hpending⟩ := hlocked hsel.1.1
    exact ⟨htok, hw, hlock, hrow, hpending⟩
  · rename_i actor hreq
    refine valid_authorised fun hmay hpending => valid_resend ?_
    obtain ⟨hlock, hrow, hpending⟩ := hlocked hpending
    exact ⟨htok, hw, ⟨hlock, hrow, hpending⟩, actor, congrArg Request.actor? hreq, hmay⟩
  · rename_i actor hreq
    refine valid_authorised fun hmay hpending => ?_
    obtain ⟨hlock, hrow, hpending⟩ := hlocked hpending
    exact ⟨htok, hw, ⟨hlock, hrow, hpending⟩, actor, congrArg Request.actor? hreq, hmay⟩
  · rename_i rawToken password hreq
    simp only [hreq, Request.selects, decide_eq_true_eq] at hsel
    exact valid_classify hw fun hpending => ⟨hlocked hpending, htok, rawToken, password, hreq, hsel⟩

/-- Once it is locked, the row is what its call takes it for. -/
theorem valid_locked (h : Idle proc) : (proc.locked s.db id clock).Valid s past p := by
  unfold Proc.locked
  split
  · rename_i hrow
    split_ifs with hsel
    · exact valid_found h.token h.writes rfl hrow hsel
    · exact valid_notFound h
  · exact valid_notFound h

theorem valid_select (h : Idle proc) : (proc.select s.db).Valid s past p := by
  have hlock (id : ℕ) : (proc.goto (.lock id)).Valid s past p := ⟨h.lock, h.token, h.writes⟩
  unfold Proc.select
  simp only
  split
  · split_ifs
    · exact Proc.valid_raise _
    · split
      · exact hlock _
      · exact valid_notFound h
  · split
    · exact hlock _
    · exact valid_notFound h

theorem valid_getUserByEmail {body : InviteCreate} (h : Idle proc) :
    (proc.getUserByEmail s.db body).Valid s past p := by
  unfold Proc.getUserByEmail
  split
  · exact ⟨h.lock, h.token, h.writes⟩
  · exact ⟨h.lock, h.token, h.writes⟩

/-- The row that an expired invite is reclaimed from is locked. -/
theorem valid_reclaim {body : InviteCreate} {actor : CurrentUser} {slot : Option (ℕ × Invite)}
    (hreq : proc.request = .create body actor) (htok : proc.token = none)
    (hw : proc.writes = .none) (hslot : ∀ e : ℕ × Invite, slot = some e → Locked s proc e.1 e.2) :
    (proc.reclaim actor slot clock).Valid s past p := by
  have hnone : (proc.goto .insertInvite).Valid s past p :=
    ⟨htok, congrArg Writes.insert hw, by simp [Proc.goto, hw, Writes.none],
      congrArg Writes.user hw⟩
  unfold Proc.reclaim
  split
  · rename_i id invite
    split_ifs with hmay
    · -- The row is the one that is locked, and the actor may revoke it.
      refine ⟨htok, congrArg Writes.insert hw, ?_, congrArg Writes.user hw⟩
      rintro e ⟨⟩
      obtain ⟨hlock, hrow, hpending⟩ := hslot _ rfl
      exact ⟨invite, ⟨hlock, hrow, hpending⟩, ⟨actor, congrArg Request.actor? hreq, hmay.2⟩, rfl⟩
    · exact hnone
  · exact hnone

/-- The new invite is committed with the old one reclaimed. -/
theorem valid_insertInvite {body : InviteCreate} {actor : CurrentUser} {i : Input} {proc' : Proc}
    (hreq : proc.request = .create body actor) (hrec : Reclaimed s proc)
    (h : s.insertInvite p proc body actor i = some proc') : proc'.Valid s past p := by
  unfold State.insertInvite at h
  simp only at h
  split_ifs at h
  · exact Option.some.inj h ▸ Proc.valid_raise _
  · exact Option.some.inj h ▸ Proc.valid_raise _
  · obtain rfl := Option.some.inj h
    refine .create body actor i.token i.id hreq rfl ⟨fun e he => ?_, hrec.user⟩ rfl
    obtain ⟨invite, ⟨hlock, hrow, hpending⟩, hauth, heq⟩ := hrec.update e he
    exact ⟨invite, ⟨hlock, hrow, hpending⟩, hauth, heq⟩

/-- The token of an invite that is locked is replaced. -/
theorem valid_rotate {token : String} {proc' : Proc} (hw : proc.writes = .none)
    (hlocked : Locked s proc id invite) (hauth : proc.Authorised invite)
    (h : s.rotate proc id invite token = some proc') : proc'.Valid s past p := by
  unfold State.rotate at h
  split_ifs at h
  obtain rfl := Option.some.inj h
  obtain ⟨hlock, hrow, hpending⟩ := hlocked
  exact .resend token id invite rfl ⟨hlock, hrow, hpending⟩ hauth (by rw [hw, Writes.none])

/-- An invite is accepted that is live when it is locked. -/
theorem valid_claim (hw : proc.writes = .none) (h : Live s past p proc id invite) :
    (s.claim proc id invite).Valid s past p := by
  unfold State.claim
  rw [h.locked.row]
  simp only
  split_ifs with hrow
  · obtain ⟨⟨⟨hlock, hget, hpending⟩, htok, hreq⟩, htenant, hinviter⟩ := h
    exact ⟨⟨⟨⟨hlock, hget, hpending⟩, htok, hreq⟩, htenant, hinviter⟩, hrow.2,
      by rw [hw, Writes.none]⟩
  · exact Proc.valid_raise _

/-- Its user is committed with it. -/
theorem valid_insertUser {i : Input} {proc' : Proc} (h : Live s past p proc id invite)
    (hunexp : proc.started < invite.expiresAt)
    (hw : proc.writes = ⟨some (id, invite.accept proc.started), none, none⟩)
    (hn : s.insertUser p proc id invite i = some proc') : proc'.Valid s past p := by
  unfold State.insertUser at hn
  simp only at hn
  split_ifs at hn
  · exact Option.some.inj hn ▸ Proc.valid_raise _
  · obtain rfl := Option.some.inj hn
    obtain ⟨⟨⟨hlock, hget, hpending⟩, htok, hreq⟩, htenant, hinviter⟩ := h
    exact ⟨⟨⟨⟨hlock, hget, hpending⟩, htok, hreq⟩, htenant, hinviter⟩, hunexp, i.passwordHash,
      by rw [hw]⟩

/-- What a statement makes of a call is as it is known to be. -/
theorem Proc.Valid.next {i : Input} {proc' : Proc} (h : proc.Valid s past p)
    (hp : s.procs[p]? = some proc) (hn : s.next p proc i = some proc') :
    proc'.Valid s (s :: past) p := by
  have hpast : past ⊆ s :: past := List.subset_cons_self _ _
  unfold Proc.Valid at h
  unfold State.next at hn
  split at hn <;> rename_i hpc <;> simp only [hpc] at h
  · -- `get_user_by_email`
    split at hn
    · exact Option.some.inj hn ▸ valid_getUserByEmail h
    · cases hn
  · -- `_conflict_tenant_name`
    split at hn
    · exact Option.some.inj hn ▸ Proc.valid_raise _
    · cases hn
  · -- `BEGIN`
    obtain rfl := Option.some.inj hn
    exact ⟨h.lock, h.token, h.writes⟩
  · -- `SELECT … FOR UPDATE` finds the row
    exact Option.some.inj hn ▸ valid_select h
  · -- and locks it.
    split_ifs at hn
    exact Option.some.inj hn ▸ valid_locked h
  · -- the slot of `create_invite`
    split at hn
    · rename_i slot _ body actor hreq
      obtain rfl := Option.some.inj hn
      rcases slot with _ | ⟨id, invite⟩
      · have hidle : Idle proc := h
        exact valid_reclaim hreq hidle.token hidle.writes fun e he => by cases he
      · obtain ⟨htok, hw, hlocked⟩ := h
        refine valid_reclaim hreq htok hw fun e he => ?_
        cases he
        exact hlocked
    · cases hn
  · split at hn
    · rename_i body actor hreq
      exact valid_insertInvite hreq h.2.2 hn
    · cases hn
  · exact valid_rotate h.2.1 h.2.2.1 h.2.2.2 hn
  · -- the `UPDATE` of `revoke_invite`
    obtain rfl := Option.some.inj hn
    obtain ⟨htok, hw, ⟨hlock, hrow, hpending⟩, hauth⟩ := h
    exact .revoke _ _ htok ⟨hlock, hrow, hpending⟩ hauth (by rw [hw, Writes.none])
  · -- The first read of `_check_context_live`: this is the state in which the tenant was live.
    obtain rfl := Option.some.inj hn
    obtain ⟨hw, ⟨hlock, hrow, hpending⟩, htok, hreq⟩ := h
    split_ifs with hlive
    · exact ⟨hw, ⟨⟨hlock, hrow, hpending⟩, htok, hreq⟩,
        .inr ⟨s, List.mem_cons_self, ⟨proc, hp, hlock⟩, hlive⟩⟩
    · exact Proc.valid_raise _
  · -- The second: this is the state in which the inviter could make the grant.
    rename_i id invite
    obtain rfl := Option.some.inj hn
    obtain ⟨hw, ⟨⟨hlock, hrow, hpending⟩, htok, hreq⟩, htenant⟩ := h
    split_ifs with hlive
    · have hhere (c : Db → Bool) (hc : c s.db = true) : Seen (s :: past) p id c :=
        ⟨s, List.mem_cons_self, ⟨proc, hp, hlock⟩, hc⟩
      refine ⟨hw, ⟨⟨hlock, hrow, hpending⟩, htok, hreq⟩, ?_, hhere _ hlive⟩
      rcases htenant with hnone | hseen
      · exact hhere _ (by simp [Db.tenantLive, hnone])
      · exact hseen.mono hpast
    · exact Proc.valid_raise _
  · obtain rfl := Option.some.inj hn
    exact valid_claim h.1 (h.2.mono (fun _ _ => rfl) hpast)
  · exact valid_insertUser (h.1.mono (fun _ _ => rfl) hpast) h.2.1 h.2.2 hn
  · -- the `UPDATE` of `accepted_user_id`
    rename_i id invite userId
    obtain rfl := Option.some.inj hn
    obtain ⟨hlive, hunexp, hash, hw⟩ := h
    obtain ⟨⟨⟨hlock, hget, hpending⟩, htok, hreq⟩, htenant, hinviter⟩ :=
      hlive.mono (fun _ _ => rfl) hpast
    exact .accept id invite userId hash ⟨⟨⟨hlock, hget, hpending⟩, htok, hreq⟩, htenant, hinviter⟩ hunexp
      (by simp [State.setAcceptedUser, hw])
  · cases hn
  · cases hn

end Next

end Yuviz.Config
