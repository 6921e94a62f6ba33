import Mathlib
import Yuviz.Config.Invites.Calls
import Yuviz.Distinct

/-!
# What a call takes

A statement takes a lock, an identifier or a token only if no other call has it
(`Frame`), and the identifier only if no row does. The other steps of the
service, but for a `COMMIT`, leave the calls and the invites alone
(`State.step_cases`).
-/

namespace Yuviz.Config

open Python (Dict)

/-- The identifiers of the rows a call has inserted, until it ends. -/
def Proc.newInvite (proc : Proc) : Option ℕ := proc.writes.insert.map Prod.fst

def Proc.newUser (proc : Proc) : Option ℕ := proc.writes.user.map Prod.fst

variable [Platform]

open Platform

def Proc.newHash (proc : Proc) : Option String := proc.token.map sha256

/-- What a statement takes is free. -/
structure Frame (s : State) (p : ℕ) (proc proc' : Proc) : Prop where
  request : proc'.request = proc.request
  lock : Claims s.procs Proc.lock p proc proc'
  lockedRow : ∀ id, proc'.lock = some id → proc.lock = some id ∨
    ∃ invite, s.db.invites.get? id = some invite
  hash : Claims s.procs Proc.newHash p proc proc'
  insert : Claims s.procs Proc.newInvite p proc proc'
  insertedRow : ∀ id, proc'.newInvite = some id → proc.newInvite = some id ∨
    s.db.invites.get? id = none
  user : Claims s.procs Proc.newUser p proc proc'
  userRow : ∀ id, proc'.newUser = some id → proc.newUser = some id ∨ s.db.users.get? id = none

section Statements

variable {s : State} {p id : ℕ} {proc proc' : Proc} {invite : Invite} {clock : ℤ}

/-- A statement that takes nothing. -/
theorem Frame.keep (hreq : proc'.request = proc.request) (hlock : proc'.lock = proc.lock)
    (htok : proc'.token = proc.token) (hins : proc'.newInvite = proc.newInvite)
    (huser : proc'.newUser = proc.newUser) : Frame s p proc proc' where
  request := hreq
  lock := .of_eq hlock
  lockedRow _ h := .inl (hlock ▸ h)
  hash := .of_eq (congrArg (Option.map sha256) htok)
  insert := .of_eq hins
  insertedRow _ h := .inl (hins ▸ h)
  user := .of_eq huser
  userRow _ h := .inl (huser ▸ h)

/-- An exception rolls back, and so gives back what the call has taken. -/
theorem Frame.raise (e : InviteError) : Frame s p proc (proc.raise e) where
  request := rfl
  lock := .of_eq_none rfl
  lockedRow := nofun
  hash := .of_eq rfl
  insert := .of_eq_none rfl
  insertedRow := nofun
  user := .of_eq_none rfl
  userRow := nofun

theorem Frame.goto (pc : Pc) : Frame s p proc (proc.goto pc) := .keep rfl rfl rfl rfl rfl

theorem frame_notFound : Frame s p proc proc.notFound := by
  unfold Proc.notFound
  split
  · exact .goto _
  · exact .raise _

theorem frame_authorised {actor : CurrentUser} (h : Frame s p proc proc') :
    Frame s p proc (proc.authorised actor invite proc') := by
  unfold Proc.authorised
  split_ifs
  · exact .raise _
  · exact .raise _
  · exact h

/-- Nothing is taken once the row is there and locked. -/
theorem frame_found : Frame s p proc (proc.found id invite clock) := by
  unfold Proc.found
  split
  · exact .goto _
  · refine frame_authorised ?_
    unfold Proc.resend
    split
    · exact .goto _
    · simp only
      split_ifs
      · exact .raise _
      · exact .goto _
  · exact frame_authorised (.goto _)
  · unfold Proc.classify
    split_ifs
    · exact .raise _
    · exact .raise _
    · exact .raise _
    · exact .goto _
    · exact .goto _

/-- The lock of a row is taken, if no other call has it. -/
theorem frame_locked (hfree : s.isLocked id = false) :
    Frame s p proc (proc.locked s.db id clock) := by
  unfold Proc.locked
  split
  · rename_i invite hrow
    split_ifs
    · -- The lock is taken, and the rest of the step takes nothing.
      have hfound : Frame s p { proc with lock := some id }
          ({ proc with lock := some id }.found id invite clock) := frame_found
      obtain ⟨hreq, hlock, hlocked, hhash, hins, hinserted, huser, huserRow⟩ := hfound
      refine ⟨hreq, fun k hk => .inr ?_, fun k hk => .inr ?_, hhash, hins, hinserted, huser,
        huserRow⟩
      · intro q other hq hne
        rcases hlock k hk with h | h
        · obtain rfl : id = k := Option.some.inj h
          exact State.isLocked_eq_false_iff.1 hfree q other hq
        · exact h q other hq hne
      · rcases hlocked k hk with h | h
        · obtain rfl : id = k := Option.some.inj h
          exact ⟨invite, hrow⟩
        · exact h
    · exact frame_notFound
  · exact frame_notFound

theorem frame_select : Frame s p proc (proc.select s.db) := by
  unfold Proc.select
  simp only
  split
  · split_ifs
    · exact .raise _
    · split
      · exact .goto _
      · exact frame_notFound
  · split
    · exact .goto _
    · exact frame_notFound

theorem frame_reclaim {actor : CurrentUser} {slot : Option (ℕ × Invite)} :
    Frame s p proc (proc.reclaim actor slot clock) := by
  unfold Proc.reclaim
  split
  · split_ifs
    · exact .keep rfl rfl rfl rfl rfl
    · exact .goto _
  · exact .goto _

/-- No call has drawn the token that is drawn next. -/
theorem newToken_fresh {token : String} (h : s.isNewToken token = true) (q : ℕ) (other : Proc)
    (hq : s.procs[q]? = some other) : other.newHash ≠ some (sha256 token) := by
  intro heq
  obtain ⟨t, ht, hhash⟩ := Option.map_eq_some_iff.1 heq
  exact State.isNewToken_iff.1 h q other t hq ht hhash

/-- An invite is inserted with an identifier and a token of its own. -/
theorem frame_insertInvite {body : InviteCreate} {actor : CurrentUser} {i : Input}
    (h : s.insertInvite p proc body actor i = some proc') : Frame s p proc proc' := by
  unfold State.insertInvite at h
  simp only at h
  split_ifs at h with hwait hconflict
  · exact Option.some.inj h ▸ .raise _
  · exact Option.some.inj h ▸ .raise _
  · obtain rfl := Option.some.inj h
    simp only [Bool.not_eq_true, Bool.or_eq_false_iff, Bool.not_eq_eq_eq_not, Bool.not_false]
      at hwait
    obtain ⟨hnew, hothers⟩ := hwait
    refine ⟨rfl, .of_eq rfl, fun _ h => .inl h, ?_, ?_, ?_, .of_eq rfl, fun _ h => .inl h⟩
    · rintro _ ⟨⟩
      exact .inr fun q other hq _ => newToken_fresh hnew q other hq
    · -- A call that had inserted the identifier would have been waited for.
      rintro _ ⟨⟩
      refine .inr fun q other hq hne heq => ?_
      obtain ⟨e, he, hid⟩ := Option.map_eq_some_iff.1 heq
      have := State.othersWrote_eq_false_iff.1 hothers q other hq hne
      simp [he, hid] at this
    · rintro _ ⟨⟩
      refine .inr (Dict.get?_eq_none_iff.2 fun hmem => ?_)
      obtain ⟨e, he, hid⟩ := List.mem_map.1 hmem
      exact hconflict (List.any_eq_true.2 ⟨e, he, by simp [hid]⟩)

theorem frame_rotate {token : String} (h : s.rotate proc id invite token = some proc') :
    Frame s p proc proc' := by
  unfold State.rotate at h
  split_ifs at h with hnew
  obtain rfl := Option.some.inj h
  refine ⟨rfl, .of_eq rfl, fun _ h => .inl h, ?_, .of_eq rfl, fun _ h => .inl h, .of_eq rfl,
    fun _ h => .inl h⟩
  rintro _ ⟨⟩
  exact .inr fun q other hq _ => newToken_fresh (by simpa using hnew) q other hq

theorem frame_claim : Frame s p proc (s.claim proc id invite) := by
  unfold State.claim
  split
  · split_ifs
    · exact .keep rfl rfl rfl rfl rfl
    · exact .raise _
  · exact .raise _

/-- A call that need not wait has the identifier of its user to itself. -/
theorem userFree_of_not_waits {user : User} (h : ¬ s.waitsForUser p id user = true) (q : ℕ)
    (other : Proc) (hq : s.procs[q]? = some other) (hne : q ≠ p) : other.newUser ≠ some id := by
  intro heq
  obtain ⟨e, he, hid⟩ := Option.map_eq_some_iff.1 heq
  have := State.othersWrote_eq_false_iff.1 (Bool.not_eq_true _ ▸ h) q other hq hne
  simp [he, hid] at this

theorem get?_eq_none_of_not_hasUser {user : User} (h : ¬ s.hasUser id user = true) :
    s.db.users.get? id = none := by
  refine Dict.get?_eq_none_iff.2 fun hmem => ?_
  obtain ⟨e, he, hid⟩ := List.mem_map.1 hmem
  exact h (List.any_eq_true.2 ⟨e, he, by simp [hid]⟩)

/-- A user is inserted with an identifier of its own. -/
theorem frame_insertUser {i : Input} (h : s.insertUser p proc id invite i = some proc') :
    Frame s p proc proc' := by
  unfold State.insertUser at h
  simp only at h
  split_ifs at h with hwait hconflict
  · exact Option.some.inj h ▸ .raise _
  · obtain rfl := Option.some.inj h
    refine ⟨rfl, .of_eq rfl, fun _ h => .inl h, .of_eq rfl, .of_eq rfl, fun _ h => .inl h, ?_, ?_⟩
    · rintro _ ⟨⟩
      exact .inr fun q other hq hne => userFree_of_not_waits hwait q other hq hne
    · rintro _ ⟨⟩
      exact .inr (get?_eq_none_of_not_hasUser hconflict)

/-- Whatever the next statement of a call is, what it takes is free. -/
theorem next_frame {i : Input} (h : s.next p proc i = some proc') : Frame s p proc proc' := by
  unfold State.next at h
  split at h
  · split at h
    · obtain rfl := Option.some.inj h
      unfold Proc.getUserByEmail
      split
      · exact .goto _
      · exact .goto _
    · cases h
  · split at h
    · exact Option.some.inj h ▸ .raise _
    · cases h
  · exact Option.some.inj h ▸ .keep rfl rfl rfl rfl rfl
  · exact Option.some.inj h ▸ frame_select
  · split_ifs at h with hfree
    exact Option.some.inj h ▸ frame_locked (by simpa using hfree)
  · split at h
    · exact Option.some.inj h ▸ frame_reclaim
    · cases h
  · split at h
    · exact frame_insertInvite h
    · cases h
  · exact frame_rotate h
  · exact Option.some.inj h ▸ .keep rfl rfl rfl rfl rfl
  · obtain rfl := Option.some.inj h
    split_ifs
    · exact .goto _
    · exact .raise _
  · obtain rfl := Option.some.inj h
    split_ifs
    · exact .goto _
    · exact .raise _
  · exact Option.some.inj h ▸ frame_claim
  · exact frame_insertUser h
  · exact Option.some.inj h ▸ .keep rfl rfl rfl rfl rfl
  · cases h
  · cases h

/-- A call that is over has no next statement. -/
theorem next_ne_done {i : Input} {result : Except InviteError Writes}
    (h : s.next p proc i = some proc') : proc.pc ≠ .done result := by
  intro hpc
  simp [State.next, hpc] at h

end Statements

omit [Platform] in
theorem get?_set_of_present {users : Dict ℕ User} {id k : ℕ} {user user' : User}
    (huser : users.get? id = some user) (hnone : users.get? k = none) :
    (users.set id user').get? k = none := by
  have hne : k ≠ id := by
    rintro rfl
    exact absurd (hnone.symm.trans huser) (by simp)
  rw [Dict.get?_set, if_neg hne, hnone]

/-- What a step does. Every step of a call but its `COMMIT` changes the call only. -/
inductive Step (s : State) : Label → State → Prop
  | call (request : Request) :
    Step s (.call request) { s with procs := s.procs ++ [Proc.call request] }
  | run (p : ℕ) (i : Input) (proc proc' : Proc) (hp : s.procs[p]? = some proc)
      (hn : s.next p proc i = some proc') : Step s (.run p i) (s.setProc p proc')
  | fail (p : ℕ) (proc : Proc) (hp : s.procs[p]? = some proc)
      (hpc : ∀ result, proc.pc ≠ .done result) :
    Step s (.fail p) (s.setProc p (proc.raise .database))
  | commit (p : ℕ) (proc : Proc) (hp : s.procs[p]? = some proc) (hpc : proc.pc = .commit) :
    Step s (.commit p) (s.commit p proc)
  /-- The rest of the service. -/
  | other (l : Label) (s' : State) (hprocs : s'.procs = s.procs) (hlog : s'.log = s.log)
      (hinvites : s'.db.invites = s.db.invites)
      (husers : ∀ (p : ℕ) proc id, s.procs[p]? = some proc → proc.newUser = some id →
        s.db.users.get? id = none → s'.db.users.get? id = none)
      (hl : (∀ p i, l ≠ .run p i) ∧ ∀ p, l ≠ .fail p ∧ l ≠ .commit p) : Step s l s'

/-- Whatever happens is one of the steps. -/
theorem State.step_cases {s s' : State} {l : Label} (h : s.step l = some s') : Step s l s' := by
  cases l with
  | call request =>
    obtain rfl := Option.some.inj h
    exact .call request
  | run p i =>
    obtain ⟨proc, hp, h⟩ := Option.bind_eq_some_iff.1 h
    obtain ⟨proc', hn, h⟩ := Option.bind_eq_some_iff.1 h
    obtain rfl := Option.some.inj h
    exact .run p i proc proc' hp hn
  | commit p =>
    obtain ⟨proc, hp, h⟩ := Option.bind_eq_some_iff.1 h
    split at h
    · rename_i hpc
      obtain rfl := Option.some.inj h
      exact .commit p proc hp hpc
    · cases h
  | fail p =>
    obtain ⟨proc, hp, h⟩ := Option.bind_eq_some_iff.1 h
    split at h
    · cases h
    · rename_i hpc
      obtain rfl := Option.some.inj h
      exact .fail p proc hp hpc
  | addUser id user =>
    simp only [State.step] at h
    split_ifs at h with hfree
    obtain rfl := Option.some.inj h
    simp only [Bool.or_eq_true, not_or] at hfree
    refine .other _ _ rfl rfl rfl (fun p proc k hp hk hnone => ?_) (by simp)
    have hne : k ≠ id := by
      rintro rfl
      have hlt := (List.getElem?_eq_some_iff.1 hp).1
      exact userFree_of_not_waits hfree.1 p proc hp (Nat.ne_of_lt hlt) hk
    exact (Dict.get?_set.trans (if_neg hne)).trans hnone
  | updateUser id role tenantId =>
    obtain ⟨user, huser, h⟩ := Option.bind_eq_some_iff.1 h
    obtain rfl := Option.some.inj h
    exact .other _ _ rfl rfl rfl (fun _ _ _ _ _ hnone => get?_set_of_present huser hnone) (by simp)
  | deleteUser id =>
    obtain ⟨user, huser, h⟩ := Option.bind_eq_some_iff.1 h
    obtain rfl := Option.some.inj h
    exact .other _ _ rfl rfl rfl (fun _ _ _ _ _ hnone => get?_set_of_present huser hnone) (by simp)
  | addTenant id tenant =>
    simp only [State.step] at h
    split_ifs at h
    obtain rfl := Option.some.inj h
    exact .other _ _ rfl rfl rfl (fun _ _ _ _ _ h => h) (by simp)
  | deleteTenant id =>
    obtain ⟨tenant, htenant, h⟩ := Option.bind_eq_some_iff.1 h
    obtain rfl := Option.some.inj h
    exact .other _ _ rfl rfl rfl (fun _ _ _ _ _ h => h) (by simp)
  | wait d =>
    obtain rfl := Option.some.inj h
    exact .other _ _ rfl rfl rfl (fun _ _ _ _ _ h => h) (by simp)

end Yuviz.Config
