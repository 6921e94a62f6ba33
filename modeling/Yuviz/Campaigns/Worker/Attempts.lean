import Mathlib
import Yuviz.Campaigns.Worker.Steps

/-!
# The attempts of a contact

In every run, whatever fails: a contact is `calling` while an attempt to reach
it is open, and only its last attempt can be (`Tables`); and an open attempt is
held by one tick, by the map of jobs or by the listener, not by two
(`Holders`). So an attempt is closed once at most, and a contact is claimed
again only when its attempts are closed.
-/

namespace Yuviz.Campaigns

open Python (Dict)

variable {campaigns : ℕ → Campaign}

/-! ## Rows and attempts -/

structure Tables (campaigns : ℕ → Campaign) (contacts : List ContactRow) (attempts : List Attempt) :
    Prop where
  calling : ∀ (k : ℕ) contact, contacts[k]? = some contact → (contact.status = .calling ↔
    ∃ (j : ℕ) (a : Attempt), attempts[j]? = some a ∧ a.closed = false ∧ a.entry.contactId = k)
  last : ∀ (i j : ℕ) a b, attempts[i]? = some a → attempts[j]? = some b → i < j →
    a.entry.contactId = b.entry.contactId → a.closed = true
  rows : ∀ (j : ℕ) a, attempts[j]? = some a → ∃ contact,
    contacts[a.entry.contactId]? = some contact ∧ contact.campaignId = a.entry.campaignId ∧
    (a.closed = false → contact.attemptCount = a.entry.attemptCount)
  maxAttempts : ∀ (j : ℕ) a, attempts[j]? = some a →
    a.entry.maxAttempts = (campaigns a.entry.campaignId).maxAttempts
  counts : ∀ (k : ℕ) contact, contacts[k]? = some contact →
    attempts.countP (fun a => a.entry.contactId = k) = contact.attemptCount

/-- A status with which an attempt may be closed. -/
def Entry.MayBecome (e : Entry) (status : ContactStatus) : Prop :=
  status ≠ .calling ∧ (status = .pending → e.attemptCount < e.maxAttempts)

theorem Entry.mayBecome_blocked (e : Entry) : e.MayBecome .blocked := ⟨nofun, nofun⟩

theorem Entry.mayBecome_retry (e : Entry) {status : ContactStatus} (h : status ≠ .calling)
    (hp : status ≠ .pending) : e.MayBecome (e.retry status) := by
  rw [Entry.retry]
  split_ifs with hlt
  · exact ⟨nofun, fun _ => hlt⟩
  · exact ⟨h, fun heq => absurd heq hp⟩

theorem Entry.mayBecome_resolution (e : Entry) (succeeded : Bool) (detail : String) :
    e.MayBecome (e.resolution succeeded detail) := by
  rw [Entry.resolution]
  split_ifs
  · exact ⟨nofun, nofun⟩
  · exact e.mayBecome_retry nofun nofun
  · exact e.mayBecome_retry nofun nofun

section Tables

variable {contacts : List ContactRow} {attempts : List Attempt} {j k : ℕ} {a : Attempt}
  {contact : ContactRow}

/-- The contact of an open attempt is `calling`. -/
theorem Tables.calling_of_open (h : Tables campaigns contacts attempts)
    (ha : attempts[j]? = some a) (hopen : a.closed = false)
    (hk : contacts[a.entry.contactId]? = some contact) : contact.status = .calling :=
  (h.calling _ contact hk).2 ⟨j, a, ha, hopen, rfl⟩

/-- Two open attempts are of two contacts. -/
theorem Tables.eq_of_open (h : Tables campaigns contacts attempts) {i : ℕ} {b : Attempt}
    (ha : attempts[j]? = some a) (hb : attempts[i]? = some b) (hopen : a.closed = false)
    (hopen' : b.closed = false) (heq : a.entry.contactId = b.entry.contactId) : j = i := by
  rcases lt_trichotomy j i with hlt | rfl | hlt
  · exact absurd ((h.last j i a b ha hb hlt heq).symm.trans hopen) nofun
  · rfl
  · exact absurd ((h.last i j b a hb ha hlt heq.symm).symm.trans hopen') nofun

theorem Tables.nil : Tables campaigns [] [] := by
  constructor <;> simp

theorem Tables.upload (h : Tables campaigns contacts attempts) (c : ℕ) (phones : List String) :
    Tables campaigns (contacts ++ phones.map (ContactRow.ofUpload c)) attempts := by
  -- A row is an old one, or one that no attempt is of.
  have hrow {k : ℕ} {contact : ContactRow}
      (hk : (contacts ++ phones.map (ContactRow.ofUpload c))[k]? = some contact) :
      contacts[k]? = some contact ∨
        contacts[k]? = none ∧ ∃ phone, contact = ContactRow.ofUpload c phone := by
    rcases Nat.lt_or_ge k contacts.length with hlt | hge
    · exact .inl (by rwa [List.getElem?_append_left hlt] at hk)
    · rw [List.getElem?_append_right hge] at hk
      obtain ⟨phone, -, heq⟩ := List.mem_map.1 (List.mem_of_getElem? hk)
      exact .inr ⟨List.getElem?_eq_none hge, phone, heq.symm⟩
  have hold {k : ℕ} {contact : ContactRow} (hk : contacts[k]? = some contact) :
      (contacts ++ phones.map (ContactRow.ofUpload c))[k]? = some contact := by
    rwa [List.getElem?_append_left (List.getElem?_eq_some_iff.1 hk).1]
  have hnone {k : ℕ} (hk : contacts[k]? = none) (j : ℕ) (a : Attempt)
      (ha : attempts[j]? = some a) : a.entry.contactId ≠ k := by
    rintro rfl
    obtain ⟨contact, hcontact, -⟩ := h.rows j a ha
    exact absurd (hk.symm.trans hcontact) nofun
  refine { h with calling := ?_, rows := ?_, counts := ?_ }
  · intro k contact hk
    rcases hrow hk with hk | ⟨hnew, phone, rfl⟩
    · exact h.calling k contact hk
    · refine ⟨nofun, ?_⟩
      rintro ⟨j, a, ha, -, heq⟩
      exact absurd heq (hnone hnew j a ha)
  · intro j a ha
    obtain ⟨contact, hcontact, hrest⟩ := h.rows j a ha
    exact ⟨contact, hold hcontact, hrest⟩
  · intro k contact hk
    rcases hrow hk with hk | ⟨hnew, phone, rfl⟩
    · exact h.counts k contact hk
    · refine List.countP_eq_zero.2 fun a ha => ?_
      obtain ⟨j, hj⟩ := List.mem_iff_getElem?.1 ha
      simpa using hnone hnew j a hj

/-- The last entry of a longer list of attempts is the new one. -/
theorem getElem?_concat_attempt {e : Entry} {b : Attempt}
    (hb : (attempts ++ [⟨e, none, false⟩])[j]? = some b) :
    j = attempts.length ∧ b = ⟨e, none, false⟩ ∨ attempts[j]? = some b := by
  rcases Nat.lt_or_ge j attempts.length with hlt | hge
  · exact .inr (by rwa [List.getElem?_append_left hlt] at hb)
  · have hlen := (List.getElem?_eq_some_iff.1 hb).1
    rw [List.length_append, List.length_singleton] at hlen
    obtain rfl : j = attempts.length := by omega
    rw [List.getElem?_concat_length] at hb
    exact .inl ⟨rfl, (Option.some.inj hb).symm⟩

theorem Tables.claim (h : Tables campaigns contacts attempts) {c : ℕ}
    (hk : contacts[k]? = some contact) (hpending : contact.status = .pending)
    (hc : contact.campaignId = c) :
    Tables campaigns (contacts.set k contact.claim)
      (attempts ++ [⟨⟨c, k, (campaigns c).maxAttempts, contact.attemptCount + 1⟩, none, false⟩]) := by
  have hlt := (List.getElem?_eq_some_iff.1 hk).1
  -- The attempts so far to reach the contact are closed.
  have hclosed (j : ℕ) (a : Attempt) (ha : attempts[j]? = some a) (heq : a.entry.contactId = k) :
      a.closed = true := by
    by_contra hopen
    rw [Bool.not_eq_true] at hopen
    have := (h.calling k contact hk).2 ⟨j, a, ha, hopen, heq⟩
    exact absurd (hpending.symm.trans this) nofun
  have hold {j : ℕ} {a : Attempt} (ha : attempts[j]? = some a) (e : Entry) :
      (attempts ++ [⟨e, none, false⟩])[j]? = some a := by
    rwa [List.getElem?_append_left (List.getElem?_eq_some_iff.1 ha).1]
  constructor
  case calling =>
    intro i row hrow
    rcases getElem?_set_eq_some hrow with ⟨rfl, rfl⟩ | ⟨hne, hrow⟩
    · exact ⟨fun _ => ⟨attempts.length, _, List.getElem?_concat_length, rfl, rfl⟩, fun _ => rfl⟩
    · rw [h.calling i row hrow]
      constructor
      · rintro ⟨j, a, ha, hopen, heq⟩
        exact ⟨j, a, hold ha _, hopen, heq⟩
      · rintro ⟨j, a, ha, hopen, heq⟩
        rcases getElem?_concat_attempt ha with ⟨-, rfl⟩ | ha
        · exact absurd heq.symm hne
        · exact ⟨j, a, ha, hopen, heq⟩
  case last =>
    intro i j a b ha hb hij heq
    rcases getElem?_concat_attempt ha with ⟨rfl, rfl⟩ | ha
    · have hlen := (List.getElem?_eq_some_iff.1 hb).1
      rw [List.length_append, List.length_singleton] at hlen
      omega
    · rcases getElem?_concat_attempt hb with ⟨-, rfl⟩ | hb
      · exact hclosed i a ha heq
      · exact h.last i j a b ha hb hij heq
  case rows =>
    intro j a ha
    rcases getElem?_concat_attempt ha with ⟨-, rfl⟩ | ha
    · exact ⟨contact.claim, List.getElem?_set_self hlt, hc, fun _ => rfl⟩
    · obtain ⟨row, hrow, hcampaign, hcount⟩ := h.rows j a ha
      rcases eq_or_ne a.entry.contactId k with heq | hne
      · obtain rfl := Option.some.inj (hk.symm.trans (heq ▸ hrow))
        have hset : (contacts.set k contact.claim)[a.entry.contactId]? = some contact.claim := by
          rw [heq, List.getElem?_set_self hlt]
        refine ⟨contact.claim, hset, hcampaign, fun hopen => ?_⟩
        exact absurd ((hclosed j a ha heq).symm.trans hopen) nofun
      · exact ⟨row, (List.getElem?_set_ne hne.symm).trans hrow, hcampaign, hcount⟩
  case maxAttempts =>
    intro j a ha
    rcases getElem?_concat_attempt ha with ⟨-, rfl⟩ | ha
    · rfl
    · exact h.maxAttempts j a ha
  case counts =>
    intro i row hrow
    rw [List.countP_append, List.countP_singleton]
    rcases getElem?_set_eq_some hrow with ⟨rfl, rfl⟩ | ⟨hne, hrow⟩
    · rw [h.counts i contact hk]
      simp [ContactRow.claim]
    · rw [h.counts i row hrow]
      simp [Ne.symm hne]

theorem Tables.setCall (h : Tables campaigns contacts attempts) (ha : attempts[j]? = some a)
    (call : Call) : Tables campaigns contacts (attempts.set j { a with call := some call }) := by
  have hlt := (List.getElem?_eq_some_iff.1 ha).1
  -- Nothing but the call of an attempt has changed.
  have hback {i : ℕ} {b : Attempt}
      (hb : (attempts.set j { a with call := some call })[i]? = some b) :
      ∃ b', attempts[i]? = some b' ∧ b'.entry = b.entry ∧ b'.closed = b.closed := by
    rcases getElem?_set_eq_some hb with ⟨rfl, rfl⟩ | ⟨-, hb⟩
    · exact ⟨a, ha, rfl, rfl⟩
    · exact ⟨b, hb, rfl, rfl⟩
  constructor
  case calling =>
    intro k contact hk
    rw [h.calling k contact hk]
    constructor
    · rintro ⟨i, b, hb, hopen, heq⟩
      rcases eq_or_ne i j with rfl | hne
      · obtain rfl := Option.some.inj (ha.symm.trans hb)
        exact ⟨i, _, List.getElem?_set_self hlt, hopen, heq⟩
      · exact ⟨i, b, (List.getElem?_set_ne hne.symm).trans hb, hopen, heq⟩
    · rintro ⟨i, b, hb, hopen, heq⟩
      obtain ⟨b', hb', hentry, hclosed⟩ := hback hb
      exact ⟨i, b', hb', hclosed.trans hopen, by rw [hentry, heq]⟩
  case last =>
    intro i i' b b' hb hb' hlt heq
    obtain ⟨c, hc, hentry, hclosed⟩ := hback hb
    obtain ⟨c', hc', hentry', -⟩ := hback hb'
    exact hclosed ▸ h.last i i' c c' hc hc' hlt (by rw [hentry, hentry', heq])
  case rows =>
    intro i b hb
    obtain ⟨b', hb', hentry, hclosed⟩ := hback hb
    exact hentry ▸ hclosed ▸ h.rows i b' hb'
  case maxAttempts =>
    intro i b hb
    obtain ⟨b', hb', hentry, -⟩ := hback hb
    exact hentry ▸ h.maxAttempts i b' hb'
  case counts =>
    intro k contact hk
    rw [← h.counts k contact hk]
    exact countP_set_of_eq ha rfl

theorem Tables.mark (h : Tables campaigns contacts attempts) {sid : Option String}
    {status : ContactStatus} (ha : attempts[j]? = some a) (hopen : a.closed = false)
    (hk : contacts[a.entry.contactId]? = some contact) (hstatus : status ≠ .calling) :
    Tables campaigns (contacts.set a.entry.contactId (contact.mark status sid))
      (attempts.set j { a with closed := true }) := by
  have hlt := (List.getElem?_eq_some_iff.1 hk).1
  have hltj := (List.getElem?_eq_some_iff.1 ha).1
  have hback {i : ℕ} {b : Attempt} (hb : (attempts.set j { a with closed := true })[i]? = some b) :
      ∃ b', attempts[i]? = some b' ∧ b'.entry = b.entry ∧
        (b.closed = false → b'.closed = false ∧ i ≠ j) ∧ (b'.closed = true → b.closed = true) := by
    rcases getElem?_set_eq_some hb with ⟨rfl, rfl⟩ | ⟨hne, hb⟩
    · exact ⟨a, ha, rfl, nofun, fun _ => rfl⟩
    · exact ⟨b, hb, rfl, fun hopen => ⟨hopen, hne⟩, fun h => h⟩
  constructor
  case calling =>
    intro i row hrow
    rcases getElem?_set_eq_some hrow with ⟨rfl, rfl⟩ | ⟨hne, hrow⟩
    · -- The attempt that is closed was the contact's only open one.
      refine ⟨fun heq => absurd heq hstatus, ?_⟩
      rintro ⟨i, b, hb, hb', heq⟩
      obtain ⟨b', hb'', hentry, hopen', -⟩ := hback hb
      obtain ⟨hopen', hne⟩ := hopen' hb'
      exact absurd (h.eq_of_open hb'' ha hopen' hopen (by rw [hentry, heq])) hne
    · rw [h.calling i row hrow]
      constructor
      · rintro ⟨i', b, hb, hb', heq⟩
        have hne' : i' ≠ j := by
          rintro rfl
          obtain rfl := Option.some.inj (ha.symm.trans hb)
          exact hne heq.symm
        exact ⟨i', b, (List.getElem?_set_ne hne'.symm).trans hb, hb', heq⟩
      · rintro ⟨i', b, hb, hb', heq⟩
        obtain ⟨b', hb'', hentry, hopen', -⟩ := hback hb
        exact ⟨i', b', hb'', (hopen' hb').1, by rw [hentry, heq]⟩
  case last =>
    intro i i' b b' hb hb' hlt heq
    obtain ⟨c, hc, hentry, -, hclosed⟩ := hback hb
    obtain ⟨c', hc', hentry', -⟩ := hback hb'
    exact hclosed (h.last i i' c c' hc hc' hlt (by rw [hentry, hentry', heq]))
  case rows =>
    intro i b hb
    obtain ⟨b', hb', hentry, hopen', -⟩ := hback hb
    obtain ⟨row, hrow, hcampaign, hcount⟩ := h.rows i b' hb'
    rw [hentry] at hrow hcampaign hcount
    rcases eq_or_ne b.entry.contactId a.entry.contactId with heq | hne
    · obtain rfl := Option.some.inj (hk.symm.trans (heq ▸ hrow))
      exact ⟨contact.mark status sid, by rw [heq, List.getElem?_set_self hlt], hcampaign,
        fun hb => hcount (hopen' hb).1⟩
    · exact ⟨row, (List.getElem?_set_ne hne.symm).trans hrow, hcampaign,
        fun hb => hcount (hopen' hb).1⟩
  case maxAttempts =>
    intro i b hb
    obtain ⟨b', hb', hentry, -⟩ := hback hb
    exact hentry ▸ h.maxAttempts i b' hb'
  case counts =>
    intro i row hrow
    have hcount : (attempts.set j { a with closed := true }).countP
        (fun a => a.entry.contactId = i) = attempts.countP fun a => a.entry.contactId = i :=
      countP_set_of_eq ha rfl
    rw [hcount]
    rcases getElem?_set_eq_some hrow with ⟨rfl, rfl⟩ | ⟨-, hrow⟩
    · exact h.counts _ contact hk
    · exact h.counts i row hrow

end Tables

/-! ## Who holds an attempt -/

/-- The attempt a tick is at, and whether it has taken a slot. -/
def Pc.attempt? : Pc → Option (ℕ × Entry × Bool)
  | .isBlocked _ _ j e | .block j e => some (j, e, false)
  | .originate j e | .reply j e | .resolve j e _ => some (j, e, true)
  | _ => none

def Pc.lock? : Pc → Option ℕ
  | .claim _ _ k => some k
  | _ => none

def Task.job? (task : Task) : Option ℕ := task.pc.attempt?.map Prod.fst

def Task.lock? (task : Task) : Option ℕ := task.pc.lock?

/-- The attempt is open. -/
def State.Open (s : State) (j : ℕ) (e : Entry) (dialled : Bool) : Prop :=
  ∃ a, s.attempts[j]? = some a ∧ a.entry = e ∧ a.closed = false ∧ a.call.isSome = dialled

structure Holders (s : State) : Prop where
  tasks : ∀ (t : ℕ) task j e b, s.tasks[t]? = some task → task.pc.attempt? = some (j, e, b) →
    s.Open j e b ∧ e.campaignId = task.campaignId
  resolving : ∀ (t : ℕ) task j e status, s.tasks[t]? = some task →
    task.pc = .resolve j e status → e.MayBecome status
  taskJobs : Distinct s.tasks Task.job?
  jobs : ∀ j e, s.jobToContact.get? j = some e → s.Open j e true ∧
    ∀ (t : ℕ) task, s.tasks[t]? = some task → task.job? ≠ some j
  listener : ∀ j e status sid, s.listener = .resolve j e status sid → s.Open j e true ∧
    e.MayBecome status ∧ s.jobToContact.get? j = none ∧
    ∀ (t : ℕ) task, s.tasks[t]? = some task → task.job? ≠ some j
  locks : Distinct s.tasks Task.lock?
  locked : ∀ (t : ℕ) task k, s.tasks[t]? = some task → task.lock? = some k →
    s.isPending task.campaignId k = true

structure Wf (campaigns : ℕ → Campaign) (s : State) : Prop
    extends Tables campaigns s.contacts s.attempts, Holders s

section Holders

variable {s s' : State} {t : ℕ} {task : Task} {pc : Pc}

theorem job?_eq_some {j : ℕ} : task.job? = some j ↔ ∃ e b, task.pc.attempt? = some (j, e, b) := by
  rw [Task.job?, Option.map_eq_some_iff]
  constructor
  · rintro ⟨⟨_, e, b⟩, h, rfl⟩
    exact ⟨e, b, h⟩
  · rintro ⟨e, b, h⟩
    exact ⟨_, h, rfl⟩

theorem Task.lock?_eq_some {k : ℕ} : task.lock? = some k ↔ ∃ n now, task.pc = .claim n now k := by
  rw [Task.lock?]
  cases task.pc <;> simp [Pc.lock?]

theorem State.isLocked_eq_true {k : ℕ} : s.isLocked k = true ↔
    ∃ (t : ℕ) (task : Task), s.tasks[t]? = some task ∧ task.lock? = some k := by
  rw [State.isLocked, List.any_eq_true]
  constructor
  · rintro ⟨task, hmem, h⟩
    obtain ⟨t, ht⟩ := List.mem_iff_getElem?.1 hmem
    refine ⟨t, task, ht, Task.lock?_eq_some.2 ?_⟩
    split at h
    · rename_i n now i hpc
      exact ⟨n, now, of_decide_eq_true h ▸ hpc⟩
    · exact absurd h nofun
  · rintro ⟨t, task, ht, hlock⟩
    obtain ⟨n, now, hpc⟩ := Task.lock?_eq_some.1 hlock
    exact ⟨task, List.mem_of_getElem? ht, by simp [hpc]⟩

theorem State.isLocked_eq_false_iff {k : ℕ} : s.isLocked k = false ↔
    ∀ (t : ℕ) task, s.tasks[t]? = some task → task.lock? ≠ some k := by
  rw [← Bool.not_eq_true, State.isLocked_eq_true]
  exact ⟨fun h t task ht hk => h ⟨t, task, ht, hk⟩, fun h ⟨t, task, ht, hk⟩ => h t task ht hk⟩

/-- The task `t` goes on with the attempt it is at, with a new one, or with none,
    and the attempts of the others stay open. -/
theorem Holders.move (h : Holders s) (ht : s.tasks[t]? = some task)
    (htasks : s'.tasks = s.tasks.set t { task with pc := pc })
    (hjobs : s'.jobToContact = s.jobToContact) (hlistener : s'.listener = s.listener)
    (hopen : ∀ i e b, task.job? ≠ some i → s.Open i e b → s'.Open i e b)
    (hpending : ∀ c k, s.isPending c k = true → task.lock? ≠ some k → s'.isPending c k = true)
    (hpc : ∀ i e b, pc.attempt? = some (i, e, b) →
      (task.job? = some i ∨ s.attempts[i]? = none) ∧ s'.Open i e b ∧ e.campaignId = task.campaignId)
    (hresolve : ∀ i e status, pc = .resolve i e status → e.MayBecome status)
    (hlock : ∀ k, pc.lock? = some k → s.isLocked k = false ∧
      s'.isPending task.campaignId k = true) : Holders s' := by
  -- Who holds an attempt keeps a new one from being it.
  have hfresh {i : ℕ} {e : Entry} {b : Bool} (hi : s.Open i e b) : s.attempts[i]? ≠ none := by
    obtain ⟨a, ha, -⟩ := hi
    rw [ha]
    exact nofun
  have hother {u : ℕ} {other : Task} {i : ℕ} {e : Entry} {b : Bool} (hu : s.tasks[u]? = some other)
      (hne : u ≠ t) (ho : other.pc.attempt? = some (i, e, b)) : task.job? ≠ some i :=
    fun heq => hne (h.taskJobs u t other task i hu ht (job?_eq_some.2 ⟨e, b, ho⟩) heq)
  have hnotask {i : ℕ} {e : Entry} {b : Bool} (hi : s.Open i e b)
      (hnone : ∀ (u : ℕ) other, s.tasks[u]? = some other → other.job? ≠ some i) (u : ℕ)
      (other : Task) (hu : s'.tasks[u]? = some other) : other.job? ≠ some i := by
    rw [htasks] at hu
    rcases getElem?_set_eq_some hu with ⟨rfl, rfl⟩ | ⟨-, hu⟩
    · intro heq
      obtain ⟨e', b', hatt⟩ := job?_eq_some.1 heq
      exact (hpc i e' b' hatt).1.elim (hnone u task ht) (hfresh hi)
    · exact hnone u other hu
  constructor
  case tasks =>
    intro u other i e b hu ho
    rw [htasks] at hu
    rcases getElem?_set_eq_some hu with ⟨rfl, rfl⟩ | ⟨hne, hu⟩
    · exact (hpc i e b ho).2
    · obtain ⟨hi, hc⟩ := h.tasks u other i e b hu ho
      exact ⟨hopen i e b (hother hu hne ho) hi, hc⟩
  case resolving =>
    intro u other i e status hu ho
    rw [htasks] at hu
    rcases getElem?_set_eq_some hu with ⟨rfl, rfl⟩ | ⟨hne, hu⟩
    · exact hresolve i e status ho
    · exact h.resolving u other i e status hu ho
  case taskJobs =>
    rw [htasks]
    refine h.taskJobs.set ht fun i hi => ?_
    obtain ⟨e, b, hatt⟩ := job?_eq_some.1 hi
    refine (hpc i e b hatt).1.imp id fun hnew u other hu hne heq => ?_
    obtain ⟨e', b', ho⟩ := job?_eq_some.1 heq
    exact hfresh (h.tasks u other i e' b' hu ho).1 hnew
  case jobs =>
    intro i e hi
    obtain ⟨hi, hnone⟩ := h.jobs i e (hjobs ▸ hi)
    exact ⟨hopen i e true (hnone t task ht) hi, hnotask hi hnone⟩
  case listener =>
    intro i e status sid hl
    obtain ⟨hi, hstatus, hget, hnone⟩ := h.listener i e status sid (hlistener ▸ hl)
    exact ⟨hopen i e true (hnone t task ht) hi, hstatus, hjobs ▸ hget, hnotask hi hnone⟩
  case locks =>
    rw [htasks]
    refine h.locks.set ht fun k hk => .inr fun u other hu _ => ?_
    exact State.isLocked_eq_false_iff.1 (hlock k hk).1 u other hu
  case locked =>
    intro u other k hu hk
    rw [htasks] at hu
    rcases getElem?_set_eq_some hu with ⟨rfl, rfl⟩ | ⟨hne, hu⟩
    · exact (hlock k hk).2
    · refine hpending _ k (h.locked u other k hu hk) fun heq => ?_
      exact hne (h.locks u t other task k hu ht hk heq)

/-- The tasks stay as they are. -/
theorem Holders.keep (h : Holders s) (htasks : s'.tasks = s.tasks)
    (hopen : ∀ (t : ℕ) task i e b, s.tasks[t]? = some task → task.pc.attempt? = some (i, e, b) →
      s.Open i e b → s'.Open i e b)
    (hjobs : ∀ i e, s'.jobToContact.get? i = some e → s'.Open i e true ∧
      ∀ (t : ℕ) task, s.tasks[t]? = some task → task.job? ≠ some i)
    (hlistener : ∀ i e status sid, s'.listener = .resolve i e status sid → s'.Open i e true ∧
      e.MayBecome status ∧ s'.jobToContact.get? i = none ∧
      ∀ (t : ℕ) task, s.tasks[t]? = some task → task.job? ≠ some i)
    (hpending : ∀ c k, s.isPending c k = true → s'.isPending c k = true) : Holders s' where
  tasks t task j e b ht hatt := by
    rw [htasks] at ht
    obtain ⟨hj, hc⟩ := h.tasks t task j e b ht hatt
    exact ⟨hopen t task j e b ht hatt hj, hc⟩
  resolving := htasks ▸ h.resolving
  taskJobs := htasks ▸ h.taskJobs
  jobs i e hi := htasks ▸ hjobs i e hi
  listener i e status sid hl := htasks ▸ hlistener i e status sid hl
  locks := htasks ▸ h.locks
  locked t task k ht hk := hpending _ k (h.locked t task k (htasks ▸ ht) hk)

end Holders

/-! ## The steps -/

section Step

variable {s s' : State} {t j : ℕ} {task : Task} {e : Entry}

theorem State.mark_eq {a : Attempt} {contact : ContactRow} {status : ContactStatus}
    {sid : Option String} (ha : s.attempts[j]? = some a)
    (hk : s.contacts[e.contactId]? = some contact) :
    s.mark j e status sid =
      { s with
        contacts := s.contacts.set e.contactId (contact.mark status sid)
        attempts := s.attempts.set j { a with closed := true } } := by
  rw [State.mark, modify_eq_set ha, modify_eq_set hk]

theorem open_set_of_ne {a : Attempt} {i : ℕ} {e' : Entry} {b : Bool}
    (hattempts : s'.attempts = s.attempts.set j a) (hne : i ≠ j) (h : s.Open i e' b) :
    s'.Open i e' b := by
  obtain ⟨x, hx, hrest⟩ := h
  exact ⟨x, by rw [hattempts, List.getElem?_set_ne hne.symm, hx], hrest⟩

theorem open_setCall {a : Attempt} {call : Call} {i : ℕ} {e' : Entry} {b : Bool}
    (ha : s.attempts[j]? = some a) (hsome : a.call.isSome = true)
    (hattempts : s'.attempts = s.attempts.set j { a with call := some call })
    (h : s.Open i e' b) : s'.Open i e' b := by
  rcases eq_or_ne i j with rfl | hne
  · obtain ⟨x, hx, hentry, hopen, hcall⟩ := h
    obtain rfl := Option.some.inj (ha.symm.trans hx)
    refine ⟨{ a with call := some call }, ?_, hentry, hopen, hsome.symm.trans hcall⟩
    rw [hattempts, List.getElem?_set_self (List.getElem?_eq_some_iff.1 ha).1]
  · exact open_set_of_ne hattempts hne h

theorem isPending_eq_true {c k : ℕ} : s.isPending c k = true ↔ ∃ contact,
    s.contacts[k]? = some contact ∧ contact.campaignId = c ∧ contact.status = .pending := by
  simp [State.isPending, Option.any_eq_true]

theorem isPending_set_of_ne {c i k : ℕ} {contact : ContactRow}
    (hcontacts : s'.contacts = s.contacts.set i contact) (hne : k ≠ i)
    (h : s.isPending c k = true) : s'.isPending c k = true := by
  rw [isPending_eq_true] at h ⊢
  rwa [hcontacts, List.getElem?_set_ne hne.symm]

/-- What closing an open attempt needs and gives. -/
structure Closing (campaigns : ℕ → Campaign) (s s' : State) (j : ℕ) (e : Entry) : Prop where
  tables : Tables campaigns s'.contacts s'.attempts
  others : ∀ i e' b, i ≠ j → s.Open i e' b → s'.Open i e' b
  pending : ∀ c k, s.isPending c k = true → s'.isPending c k = true

theorem Wf.closing (h : Wf campaigns s) {b : Bool} {status : ContactStatus} {sid : Option String}
    (hj : s.Open j e b) (hstatus : status ≠ .calling)
    (hcontacts : s'.contacts = (s.mark j e status sid).contacts)
    (hattempts : s'.attempts = (s.mark j e status sid).attempts) : Closing campaigns s s' j e := by
  obtain ⟨a, ha, rfl, hopen, -⟩ := hj
  obtain ⟨contact, hk, -⟩ := h.rows j a ha
  rw [State.mark_eq ha hk] at hcontacts hattempts
  refine ⟨?_, fun i e' b hne hi => open_set_of_ne hattempts hne hi, fun c k hpending => ?_⟩
  · rw [hcontacts, hattempts]
    exact h.mark ha hopen hk hstatus
  · -- The contact of the attempt is `calling`, so a pending one is another.
    refine isPending_set_of_ne hcontacts ?_ hpending
    rintro rfl
    obtain ⟨contact', hk', -, hp⟩ := isPending_eq_true.1 hpending
    exact absurd (hp.symm.trans (h.calling_of_open ha hopen hk')) nofun

/-- What a step of a tick that changes neither the rows nor the attempts does. -/
theorem Moves.holders {l : Label} {pc : Pc} (hm : Moves campaigns s t task l pc) (h : Holders s)
    (ht : s.tasks[t]? = some task) : Holders (s.goto t task pc) := by
  refine h.move ht rfl rfl rfl (fun _ _ _ _ h => h) (fun _ _ h _ => h) ?_ ?_ ?_
  · intro i e' b hatt
    cases hm with
    | blocked n now j e hpc =>
      obtain ⟨rfl, rfl, rfl⟩ := hatt
      have hatt : task.pc.attempt? = some (i, e', false) := by rw [hpc, Pc.attempt?]
      exact ⟨.inl (job?_eq_some.2 ⟨_, _, hatt⟩), h.tasks t task i e' false ht hatt⟩
    | failed j e r hpc hr =>
      obtain ⟨rfl, rfl, rfl⟩ := hatt
      have hatt : task.pc.attempt? = some (i, e', true) := by rw [hpc, Pc.attempt?]
      exact ⟨.inl (job?_eq_some.2 ⟨_, _, hatt⟩), h.tasks t task i e' true ht hatt⟩
    | _ => exact absurd hatt nofun
  · intro i e' status heq
    cases hm with
    | failed j e r hpc hr =>
      obtain ⟨rfl, rfl, rfl⟩ := heq
      exact e'.mayBecome_retry nofun nofun
    | _ => exact absurd heq nofun
  · intro k hlock
    cases hm with
    | found n now k' hpc hpending hfree =>
      obtain rfl := Option.some.inj hlock
      exact ⟨hfree, hpending⟩
    | _ => exact absurd hlock nofun

theorem Holders.fetch (h : Holders s) (c : ℕ) :
    Holders { s with tasks := s.tasks ++ [⟨c, .fetched⟩] } := by
  have hnew {u : ℕ} {other : Task} (hu : (s.tasks ++ [⟨c, .fetched⟩])[u]? = some other) :
      other = ⟨c, .fetched⟩ ∨ s.tasks[u]? = some other := getElem?_concat_eq_some hu
  have hnone {i : ℕ} (hi : ∀ (u : ℕ) other, s.tasks[u]? = some other → other.job? ≠ some i)
      (u : ℕ) (other : Task) (hu : (s.tasks ++ [⟨c, .fetched⟩])[u]? = some other) :
      other.job? ≠ some i := by
    rcases hnew hu with rfl | hu
    · exact nofun
    · exact hi u other hu
  constructor
  case tasks =>
    intro u other i e' b hu hatt
    rcases hnew hu with rfl | hu
    · exact absurd hatt nofun
    · exact h.tasks u other i e' b hu hatt
  case resolving =>
    intro u other i e' status hu heq
    rcases hnew hu with rfl | hu
    · exact absurd heq nofun
    · exact h.resolving u other i e' status hu heq
  case taskJobs => exact h.taskJobs.append rfl
  case jobs =>
    intro i e' hi
    exact ⟨(h.jobs i e' hi).1, hnone (h.jobs i e' hi).2⟩
  case listener =>
    intro i e' status sid hl
    obtain ⟨hi, hstatus, hget, hno⟩ := h.listener i e' status sid hl
    exact ⟨hi, hstatus, hget, hnone hno⟩
  case locks => exact h.locks.append rfl
  case locked =>
    intro u other k hu hk
    rcases hnew hu with rfl | hu
    · exact absurd hk nofun
    · exact h.locked u other k hu hk

/-- A task dials, or has dialled, the attempt it is at. -/
theorem Holders.setCall (h : Holders s) (ht : s.tasks[t]? = some task) {b : Bool}
    (hatt : task.pc.attempt? = some (j, e, b)) {pc : Pc} (hpc : pc.attempt? = some (j, e, true))
    (hresolve : ∀ i e' status, pc ≠ .resolve i e' status) (hlock : pc.lock? = none) {a : Attempt}
    {call : Call} (ha : s.attempts[j]? = some a) (hentry : a.entry = e) (hopen : a.closed = false)
    (htasks : s'.tasks = s.tasks.set t { task with pc := pc })
    (hjobs : s'.jobToContact = s.jobToContact) (hlistener : s'.listener = s.listener)
    (hcontacts : s'.contacts = s.contacts)
    (hattempts : s'.attempts = s.attempts.set j { a with call := some call }) : Holders s' := by
  have hjob : task.job? = some j := job?_eq_some.2 ⟨e, b, hatt⟩
  have hlt := (List.getElem?_eq_some_iff.1 ha).1
  refine h.move ht htasks hjobs hlistener ?_ ?_ ?_ ?_ ?_
  · intro i e' b' hne hi
    exact open_set_of_ne hattempts (fun heq => hne (heq ▸ hjob)) hi
  · intro c k hk _
    rwa [State.isPending, hcontacts]
  · intro i e' b' heq
    obtain ⟨rfl, rfl, rfl⟩ := Option.some.inj (hpc.symm.trans heq)
    refine ⟨.inl hjob, ⟨{ a with call := some call }, ?_, hentry, hopen, rfl⟩,
      (h.tasks t task j e b ht hatt).2⟩
    rw [hattempts, List.getElem?_set_self hlt]
  · exact fun i e' status heq => absurd heq (hresolve i e' status)
  · exact fun k heq => absurd (hlock.symm.trans heq) nofun

/-- A task closes the attempt it is at. -/
theorem Closing.holders (hcl : Closing campaigns s s' j e) (h : Holders s)
    (ht : s.tasks[t]? = some task) (hjob : task.job? = some j)
    (htasks : s'.tasks = s.tasks.set t { task with pc := .done })
    (hjobs : s'.jobToContact = s.jobToContact) (hlistener : s'.listener = s.listener) :
    Holders s' :=
  h.move ht htasks hjobs hlistener
    (fun i e' b hne hi => hcl.others i e' b (fun heq => hne (heq ▸ hjob)) hi)
    (fun c k hk _ => hcl.pending c k hk) nofun nofun nofun

/-- The map gets the attempt the task was at. -/
theorem Holders.reply (h : Holders s) (ht : s.tasks[t]? = some task) (hpc : task.pc = .reply j e) :
    Holders { s.goto t task .done with jobToContact := s.jobToContact.set j e } := by
  have hatt : task.pc.attempt? = some (j, e, true) := by rw [hpc, Pc.attempt?]
  have hjob : task.job? = some j := job?_eq_some.2 ⟨e, true, hatt⟩
  have hgoto : Holders (s.goto t task .done) :=
    h.move ht rfl rfl rfl (fun _ _ _ _ h => h) (fun _ _ h _ => h) (by rintro _ _ _ ⟨⟩) (by simp)
      (by rintro _ ⟨⟩)
  refine hgoto.keep rfl (fun _ _ _ _ _ _ _ h => h) ?_ ?_ fun _ _ h => h
  · intro i e' hi
    rw [Dict.get?_set] at hi
    split_ifs at hi with heq
    · obtain rfl := Option.some.inj hi
      subst heq
      refine ⟨(h.tasks t task i e true ht hatt).1, fun u other hu hother => ?_⟩
      rcases getElem?_set_eq_some hu with ⟨rfl, rfl⟩ | ⟨hne, hu⟩
      · exact absurd hother (by rintro ⟨⟩)
      · exact hne (h.taskJobs u t other task i hu ht hother hjob)
    · exact hgoto.jobs i e' hi
  · intro i e' status sid hl
    obtain ⟨hi, hstatus, hget, hnone⟩ := hgoto.listener i e' status sid hl
    refine ⟨hi, hstatus, ?_, hnone⟩
    have hne : i ≠ j := by
      rintro rfl
      exact (h.listener i e' status sid hl).2.2.2 t task ht hjob
    rw [Dict.get?_set, if_neg hne]
    exact hget

theorem Wf.nil : Wf campaigns (Worker.system campaigns).init where
  toTables := Tables.nil
  tasks := by simp [Worker.system]
  resolving := by simp [Worker.system]
  taskJobs := Distinct.nil
  jobs := by simp [Worker.system, Dict.get?]
  listener := by simp [Worker.system]
  locks := Distinct.nil
  locked := by simp [Worker.system]

theorem Wf.step (h : Wf campaigns s) {l : Label} (hst : Step campaigns s l s') :
    Wf campaigns s' := by
  cases hst with
  | fetch c hrunning => exact ⟨h.toTables, h.toHolders.fetch c⟩
  | move l t task pc ht hm => exact ⟨h.toTables, hm.holders h.toHolders ht⟩
  | claim t task n now k contact e ht hpc hk he =>
    have hlock : task.lock? = some k := Task.lock?_eq_some.2 ⟨n, now, hpc⟩
    obtain ⟨contact', hk', hcampaign, hpending⟩ :=
      isPending_eq_true.1 (h.locked t task k ht hlock)
    obtain rfl := Option.some.inj (hk.symm.trans hk')
    subst he
    refine ⟨h.claim hk hpending hcampaign, ?_⟩
    refine h.toHolders.move ht rfl rfl rfl ?_ ?_ ?_ nofun nofun
    · rintro i e' b - ⟨a, ha, hrest⟩
      exact ⟨a, (List.getElem?_append_left (List.getElem?_eq_some_iff.1 ha).1).trans ha, hrest⟩
    · intro c k' hp hne
      exact isPending_set_of_ne rfl (fun heq => hne (heq ▸ hlock)) hp
    · intro i e' b heq
      obtain ⟨rfl, rfl, rfl⟩ := heq
      exact ⟨.inr (List.getElem?_eq_none le_rfl), ⟨_, List.getElem?_concat_length, rfl, rfl, rfl⟩,
        rfl⟩
  | complete t task ht hpc =>
    refine ⟨h.toTables, h.toHolders.move ht rfl rfl rfl (fun _ _ _ _ h => h) (fun _ _ h _ => h)
      nofun nofun nofun⟩
  | dial t task n now j e ht hpc =>
    have hatt : task.pc.attempt? = some (j, e, false) := by rw [hpc, Pc.attempt?]
    obtain ⟨a, ha, hentry, hopen, -⟩ := (h.tasks t task j e false ht hatt).1
    have hattempts : (s.setCall j .unplaced).attempts =
        s.attempts.set j { a with call := some .unplaced } := modify_eq_set ha
    refine ⟨hattempts ▸ h.toTables.setCall ha .unplaced, ?_⟩
    refine h.toHolders.setCall ht hatt rfl ?_ rfl ha hentry hopen rfl rfl rfl rfl hattempts
    exact fun _ _ _ => nofun
  | block t task j e ht hpc =>
    have hatt : task.pc.attempt? = some (j, e, false) := by rw [hpc, Pc.attempt?]
    have hcl : Closing campaigns s ((s.mark j e .blocked none).goto t task .done) j e :=
      h.closing (h.tasks t task j e false ht hatt).1 e.mayBecome_blocked.1 rfl rfl
    exact ⟨hcl.tables, hcl.holders h.toHolders ht (job?_eq_some.2 ⟨_, _, hatt⟩) rfl rfl rfl⟩
  | originate t task j e accepted ht hpc =>
    have hatt : task.pc.attempt? = some (j, e, true) := by rw [hpc, Pc.attempt?]
    obtain ⟨a, ha, hentry, hopen, -⟩ := (h.tasks t task j e true ht hatt).1
    have hattempts : (s.setCall j (if accepted then .up else .unplaced)).attempts =
        s.attempts.set j { a with call := some (if accepted then .up else .unplaced) } :=
      modify_eq_set ha
    refine ⟨hattempts ▸ h.toTables.setCall ha _, ?_⟩
    refine h.toHolders.setCall ht hatt rfl ?_ rfl ha hentry hopen rfl rfl rfl rfl hattempts
    exact fun _ _ _ => nofun
  | reply t task j e ht hpc hplaced => exact ⟨h.toTables, h.toHolders.reply ht hpc⟩
  | resolve t task j e status ht hpc =>
    have hatt : task.pc.attempt? = some (j, e, true) := by rw [hpc, Pc.attempt?]
    have hcl : Closing campaigns s
        (((s.mark j e status none).release e.campaignId).goto t task .done) j e :=
      h.closing (h.tasks t task j e true ht hatt).1 (h.resolving t task j e status ht hpc).1 rfl rfl
    exact ⟨hcl.tables, hcl.holders h.toHolders ht (job?_eq_some.2 ⟨_, _, hatt⟩) rfl rfl rfl⟩
  | ignore ev events hl he hnone =>
    exact ⟨h.toTables, h.toHolders.keep rfl (fun _ _ _ _ _ _ _ h => h) h.jobs h.listener
      fun _ _ h => h⟩
  | event ev events entry hl he hentry =>
    refine ⟨h.toTables, h.toHolders.keep rfl (fun _ _ _ _ _ _ _ h => h) ?_ ?_ fun _ _ h => h⟩
    · exact fun i e' hi => h.jobs i e' (Dict.get?_del_eq_some hi).2
    · intro i e' status sid heq
      obtain ⟨rfl, rfl, rfl, rfl⟩ := heq
      obtain ⟨hi, hnone⟩ := h.jobs _ _ hentry
      exact ⟨hi, entry.mayBecome_resolution _ _, Dict.get?_del_self, hnone⟩
  | eventDone j e status sid hl =>
    obtain ⟨hj, hstatus, hget, hnone⟩ := h.listener j e status sid hl
    have hcl : Closing campaigns s
        { (s.mark j e status sid).release e.campaignId with listener := .idle } j e :=
      h.closing hj hstatus.1 rfl rfl
    refine ⟨hcl.tables, h.toHolders.keep rfl ?_ ?_ nofun hcl.pending⟩
    · intro t task i e' b ht hatt hi
      refine hcl.others i e' b ?_ hi
      rintro rfl
      exact hnone t task ht (job?_eq_some.2 ⟨e', b, hatt⟩)
    · intro i e' hi
      have hne : i ≠ j := by
        rintro rfl
        exact absurd (hget.symm.trans hi) nofun
      exact ⟨hcl.others i e' true hne (h.jobs i e' hi).1, (h.jobs i e' hi).2⟩
  | drop hl =>
    exact ⟨h.toTables, h.toHolders.keep rfl (fun _ _ _ _ _ _ _ h => h) h.jobs nofun
      fun _ _ h => h⟩
  | endOfStream hl =>
    exact ⟨h.toTables, h.toHolders.keep rfl (fun _ _ _ _ _ _ _ h => h) h.jobs nofun
      fun _ _ h => h⟩
  | reconnect hl =>
    exact ⟨h.toTables, h.toHolders.keep rfl (fun _ _ _ _ _ _ _ h => h) h.jobs nofun
      fun _ _ h => h⟩
  | hangup j succeeded detail a ha hup =>
    have hattempts : (s.setCall j (.ended succeeded)).attempts =
        s.attempts.set j { a with call := some (.ended succeeded) } := modify_eq_set ha
    have hsome : a.call.isSome = true := by rw [hup]; rfl
    refine ⟨hattempts ▸ h.toTables.setCall ha _, h.toHolders.keep rfl
      (fun _ _ _ _ _ _ _ hi => open_setCall ha hsome hattempts hi) ?_ ?_ fun _ _ h => h⟩
    · intro i e' hi
      obtain ⟨hi, hnone⟩ := h.jobs i e' hi
      exact ⟨open_setCall ha hsome hattempts hi, hnone⟩
    · intro i e' status sid hl
      obtain ⟨hi, hrest⟩ := h.listener i e' status sid hl
      exact ⟨open_setCall ha hsome hattempts hi, hrest⟩
  | upload c phoneNumbers =>
    refine ⟨h.toTables.upload c phoneNumbers, h.toHolders.keep rfl
      (fun _ _ _ _ _ _ _ h => h) h.jobs h.listener fun c' k hk => ?_⟩
    obtain ⟨contact, hcontact, hrest⟩ := isPending_eq_true.1 hk
    exact isPending_eq_true.2 ⟨contact,
      (List.getElem?_append_left (List.getElem?_eq_some_iff.1 hcontact).1).trans hcontact, hrest⟩
  | setStatus c status =>
    exact ⟨h.toTables, h.toHolders.keep rfl (fun _ _ _ _ _ _ _ h => h) h.jobs h.listener
      fun _ _ h => h⟩
  | restart => exact ⟨h.toTables, by simp, by simp, Distinct.nil, by simp [Dict.get?], nofun,
      Distinct.nil, by simp⟩

theorem wf (hs : (Worker.system campaigns).Reachable s) : Wf campaigns s :=
  hs.invariant Wf.nil fun _ _ _ h hst => h.step (State.step_cases hst)

end Step

end Yuviz.Campaigns
