import Mathlib
import Yuviz.Campaigns.Worker.Attempts

/-!
# One dial of a contact after another

A contact is dialled `max_attempts` times at most, whatever happens
(`Bounded`). It is dialled again only when its last call has ended, and not at
all after a call that was answered, as long as a tick requeues no contact whose
call it has lost track of (`dialledInTurn`).
-/

namespace Yuviz.Campaigns

open Python (Dict)

variable {campaigns : ℕ → Campaign} {s s' : State} {i j k : ℕ}

/-! ## The bound -/

/-- How many times the contact has been dialled. -/
def State.dials (s : State) (k : ℕ) : ℕ :=
  s.attempts.countP fun a => a.call.isSome && decide (a.entry.contactId = k)

/-- A contact that can be claimed has an attempt left. -/
def Bounded (campaigns : ℕ → Campaign) (s : State) : Prop :=
  ∀ (k : ℕ) contact, s.contacts[k]? = some contact →
    contact.attemptCount ≤ (campaigns contact.campaignId).maxAttempts ∧
    (contact.status = .pending →
      contact.attemptCount < (campaigns contact.campaignId).maxAttempts)

/-- No contact is dialled more often than it was claimed, -/
theorem Wf.dials_le (h : Wf campaigns s) {contact : ContactRow}
    (hk : s.contacts[k]? = some contact) : s.dials k ≤ contact.attemptCount := by
  rw [← h.counts k contact hk]
  refine List.countP_mono_left fun a _ ha => ?_
  exact (Bool.and_eq_true_iff.1 ha).2

theorem Wf.bounded_mark (h : Wf campaigns s) (hb : Bounded campaigns s) {e : Entry} {b : Bool}
    {status : ContactStatus} {sid : Option String} (hj : s.Open j e b) (he : e.MayBecome status)
    (hcontacts : s'.contacts = (s.mark j e status sid).contacts) : Bounded campaigns s' := by
  obtain ⟨a, ha, rfl, hopen, -⟩ := hj
  obtain ⟨contact, hcontact, hcampaign, hcount⟩ := h.rows j a ha
  intro k row hrow
  rw [hcontacts, State.mark_eq ha hcontact] at hrow
  rcases getElem?_set_eq_some hrow with ⟨rfl, rfl⟩ | ⟨-, hrow⟩
  · refine ⟨(hb _ contact hcontact).1, fun hpending => ?_⟩
    have hlt := he.2 hpending
    rw [h.maxAttempts j a ha, ← hcampaign, ← hcount hopen] at hlt
    exact hlt
  · exact hb k row hrow

/-- and none is claimed when its attempts are spent. -/
theorem Bounded.step (hmax : ∀ c, 1 ≤ (campaigns c).maxAttempts) (h : Wf campaigns s)
    (hb : Bounded campaigns s) {l : Label} (hst : Step campaigns s l s') : Bounded campaigns s' := by
  cases hst with
  | claim t task n now k contact e ht hpc hk he =>
    obtain ⟨contact', hk', -, hpending⟩ :=
      isPending_eq_true.1 (h.locked t task k ht (Task.lock?_eq_some.2 ⟨n, now, hpc⟩))
    obtain rfl := Option.some.inj (hk.symm.trans hk')
    intro i row hrow
    rcases getElem?_set_eq_some hrow with ⟨rfl, rfl⟩ | ⟨-, hrow⟩
    · exact ⟨(hb i contact hk).2 hpending, nofun⟩
    · exact hb i row hrow
  | block t task j e ht hpc =>
    have hopen := (h.tasks t task j e false ht (by rw [hpc, Pc.attempt?])).1
    exact h.bounded_mark hb hopen e.mayBecome_blocked rfl
  | resolve t task j e status ht hpc =>
    have hopen := (h.tasks t task j e true ht (by rw [hpc, Pc.attempt?])).1
    exact h.bounded_mark hb hopen (h.resolving t task j e status ht hpc) rfl
  | eventDone j e status sid hl =>
    obtain ⟨hopen, hstatus, -⟩ := h.listener j e status sid hl
    exact h.bounded_mark hb hopen hstatus rfl
  | upload c phoneNumbers =>
    intro i row hrow
    rcases List.mem_append.1 (List.mem_of_getElem? hrow) with hmem | hmem
    · obtain ⟨i', hi'⟩ := List.mem_iff_getElem?.1 hmem
      exact hb i' row hi'
    · obtain ⟨phone, -, rfl⟩ := List.mem_map.1 hmem
      exact ⟨Nat.zero_le _, fun _ => hmax c⟩
  | _ => exact hb

theorem bounded (hmax : ∀ c, 1 ≤ (campaigns c).maxAttempts)
    (hs : (Worker.system campaigns).Reachable s) : Bounded campaigns s := by
  refine (hs.invariant (I := fun s => Wf campaigns s ∧ Bounded campaigns s)
    ⟨Wf.nil, by simp [Bounded, Worker.system]⟩ fun s l s' h hst => ?_).2
  have hst := State.step_cases hst
  exact ⟨h.1.step hst, h.2.step hmax h.1 hst⟩

/-! ## What has become of a call -/

/-- The call of an attempt. -/
def State.call (s : State) (j : ℕ) : Option Call := (s.attempts[j]?).bind Attempt.call

/-- An attempt that is open has a call if and only if it has been dialled. -/
theorem State.call_eq_of_open {e : Entry} {b : Bool} (h : s.Open j e b) :
    (s.call j).isSome = b := by
  obtain ⟨a, ha, -, -, hcall⟩ := h
  rwa [State.call, ha]

theorem call_append {a : Attempt} (ha : a.call = none)
    (hattempts : s'.attempts = s.attempts ++ [a]) : s'.call i = s.call i := by
  rw [State.call, State.call, hattempts]
  rcases Nat.lt_or_ge i s.attempts.length with hlt | hge
  · rw [List.getElem?_append_left hlt]
  · rw [List.getElem?_append_right hge, List.getElem?_eq_none hge]
    cases i - s.attempts.length <;> simp [ha]

/-- To close an attempt leaves its call alone. -/
theorem call_mark (hattempts : s'.attempts =
      s.attempts.modify j fun attempt => { attempt with closed := true }) :
    s'.call i = s.call i := by
  rw [State.call, State.call, hattempts, List.getElem?_modify]
  cases s.attempts[i]? <;> simp
  split <;> rfl

theorem call_setCall {c : Call} (hj : s.attempts[j]? ≠ none)
    (hattempts : s'.attempts = (s.setCall j c).attempts) :
    s'.call i = if i = j then some c else s.call i := by
  rw [State.call, State.call, hattempts, State.setCall, List.getElem?_modify]
  rcases eq_or_ne i j with rfl | hne
  · obtain ⟨a, ha⟩ := Option.ne_none_iff_exists'.1 hj
    rw [ha]
    simp
  · cases s.attempts[i]? <;> simp [hne, hne.symm]

/-- What the ticks, the events and the listener know of the calls. -/
structure Tracked (s : State) : Prop where
  originating : ∀ (t : ℕ) task j e, s.tasks[t]? = some task → task.pc = .originate j e →
    s.call j = some .unplaced
  retried : ∀ (t : ℕ) task j e status, s.tasks[t]? = some task → task.pc = .resolve j e status →
    status = e.retry .failed
  events : ∀ ev ∈ s.events, s.call ev.job = some (.ended ev.succeeded)
  resolving : ∀ j e status sid, s.listener = .resolve j e status sid →
    ∃ succeeded detail, s.call j = some (.ended succeeded) ∧ status = e.resolution succeeded detail

/-- A tick goes on, and what it changes is at most the call of the attempt it is
    at, which has not ended. -/
theorem Tracked.move (hk : Tracked s) (h : Holders s) {t : ℕ} {task : Task} {pc : Pc}
    (ht : s.tasks[t]? = some task) (htasks : s'.tasks = s.tasks.set t { task with pc := pc })
    (hevents : s'.events = s.events) (hlistener : s'.listener = s.listener)
    (hother : ∀ i, task.job? ≠ some i → s'.call i = s.call i)
    (hended : ∀ i b, s.call i = some (.ended b) → s'.call i = some (.ended b))
    (hdial : ∀ j e, pc = .originate j e → s'.call j = some .unplaced)
    (hretry : ∀ j e status, pc = .resolve j e status → status = e.retry .failed) : Tracked s' where
  originating u other i e hu ho := by
    rw [htasks] at hu
    rcases getElem?_set_eq_some hu with ⟨rfl, rfl⟩ | ⟨hne, hu⟩
    · exact hdial i e ho
    · rw [hother i, hk.originating u other i e hu ho]
      exact fun heq => hne (h.taskJobs u t other task i hu ht
        (job?_eq_some.2 ⟨e, true, by rw [ho, Pc.attempt?]⟩) heq)
  retried u other i e status hu ho := by
    rw [htasks] at hu
    rcases getElem?_set_eq_some hu with ⟨rfl, rfl⟩ | ⟨hne, hu⟩
    · exact hretry i e status ho
    · exact hk.retried u other i e status hu ho
  events ev hev := hended _ _ (hk.events ev (hevents ▸ hev))
  resolving i e status sid hl := by
    obtain ⟨b, detail, hcall, hstatus⟩ := hk.resolving i e status sid (hlistener ▸ hl)
    exact ⟨b, detail, hended i b hcall, hstatus⟩

/-- The ticks stay as they are, or there are fewer, or one more that begins. -/
theorem Tracked.keep (hk : Tracked s)
    (htasks : ∀ (u : ℕ) other, s'.tasks[u]? = some other →
      other.pc = .fetched ∨ s.tasks[u]? = some other)
    (hunplaced : ∀ i, s.call i = some .unplaced → s'.call i = some .unplaced)
    (hevents : ∀ ev ∈ s'.events, s'.call ev.job = some (.ended ev.succeeded))
    (hresolving : ∀ j e status sid, s'.listener = .resolve j e status sid →
      ∃ succeeded detail, s'.call j = some (.ended succeeded) ∧
        status = e.resolution succeeded detail) : Tracked s' where
  originating u other i e hu ho := by
    rcases htasks u other hu with hpc | hu
    · exact absurd (hpc.symm.trans ho) nofun
    · exact hunplaced i (hk.originating u other i e hu ho)
  retried u other i e status hu ho := by
    rcases htasks u other hu with hpc | hu
    · exact absurd (hpc.symm.trans ho) nofun
    · exact hk.retried u other i e status hu ho
  events := hevents
  resolving := hresolving

theorem Holders.attempts_ne_none (h : Holders s) {t : ℕ} {task : Task} {e : Entry} {b : Bool}
    (ht : s.tasks[t]? = some task) (hatt : task.pc.attempt? = some (j, e, b)) :
    s.attempts[j]? ≠ none := by
  obtain ⟨a, ha, -⟩ := (h.tasks t task j e b ht hatt).1
  exact Option.ne_none_iff_exists'.2 ⟨a, ha⟩

theorem Tracked.step (hk : Tracked s) (h : Wf campaigns s) {l : Label}
    (hst : Step campaigns s l s') : Tracked s' := by
  cases hst with
  | fetch c hrunning =>
    refine hk.keep (fun u other hu => ?_) (fun _ h => h) hk.events hk.resolving
    exact (getElem?_concat_eq_some hu).imp_left fun heq => by rw [heq]
  | move l t task pc ht hm =>
    refine hk.move h.toHolders ht rfl rfl rfl (fun _ _ => rfl) (fun _ _ h => h) ?_ ?_
    · cases hm <;> exact (by simp)
    · intro j e status heq
      cases hm with
      | failed j e r hpc hr =>
        obtain ⟨rfl, rfl, rfl⟩ := heq
        rfl
      | _ => exact absurd heq (by simp)
  | claim t task n now k contact e ht hpc hk' he =>
    exact hk.move h.toHolders ht rfl rfl rfl (fun _ _ => call_append rfl rfl)
      (fun _ _ h => Eq.trans (call_append rfl rfl) h) (by simp) (by simp)
  | complete t task ht hpc =>
    exact hk.move h.toHolders ht rfl rfl rfl (fun _ _ => rfl) (fun _ _ h => h) (by simp) (by simp)
  | dial t task n now j e ht hpc =>
    have hatt : task.pc.attempt? = some (j, e, false) := by rw [hpc, Pc.attempt?]
    have hj := h.attempts_ne_none ht hatt
    refine hk.move h.toHolders ht rfl rfl rfl ?_ ?_ ?_ (by simp)
    · intro i hi
      refine Eq.trans (call_setCall hj rfl) (if_neg ?_)
      rintro rfl
      exact hi (job?_eq_some.2 ⟨_, _, hatt⟩)
    · intro i b hi
      refine Eq.trans (call_setCall hj rfl) ((if_neg ?_).trans hi)
      rintro rfl
      have := State.call_eq_of_open (h.tasks t task i e false ht hatt).1
      rw [hi] at this
      exact absurd this (by simp)
    · intro i e' heq
      obtain ⟨rfl, rfl⟩ := heq
      exact Eq.trans (call_setCall hj rfl) (if_pos rfl)
  | block t task j e ht hpc =>
    exact hk.move h.toHolders ht rfl rfl rfl (fun _ _ => call_mark rfl)
      (fun _ _ h => Eq.trans (call_mark rfl) h) (by simp) (by simp)
  | originate t task j e accepted ht hpc =>
    have hatt : task.pc.attempt? = some (j, e, true) := by rw [hpc, Pc.attempt?]
    have hj := h.attempts_ne_none ht hatt
    refine hk.move h.toHolders ht rfl rfl rfl ?_ ?_ (by simp) (by simp)
    · intro i hi
      refine Eq.trans (call_setCall hj rfl) (if_neg ?_)
      rintro rfl
      exact hi (job?_eq_some.2 ⟨_, _, hatt⟩)
    · intro i b hi
      refine Eq.trans (call_setCall hj rfl) ((if_neg ?_).trans hi)
      rintro rfl
      exact absurd ((hk.originating t task i e ht hpc).symm.trans hi) (by simp)
  | reply t task j e ht hpc hplaced =>
    exact hk.move h.toHolders ht rfl rfl rfl (fun _ _ => rfl) (fun _ _ h => h) (by simp) (by simp)
  | resolve t task j e status ht hpc =>
    exact hk.move h.toHolders ht rfl rfl rfl (fun _ _ => call_mark rfl)
      (fun _ _ h => Eq.trans (call_mark rfl) h) (by simp) (by simp)
  | ignore ev events hl he hnone =>
    refine hk.keep (fun _ _ hu => .inr hu) (fun _ h => h) (fun ev' hev => ?_) hk.resolving
    exact hk.events ev' (he ▸ List.mem_cons_of_mem _ hev)
  | event ev events entry hl he hentry =>
    refine hk.keep (fun _ _ hu => .inr hu) (fun _ h => h) (fun ev' hev => ?_) ?_
    · exact hk.events ev' (he ▸ List.mem_cons_of_mem _ hev)
    · intro i e' status sid heq
      obtain ⟨rfl, rfl, rfl, rfl⟩ := heq
      exact ⟨_, _, hk.events ev (he ▸ List.mem_cons_self), rfl⟩
  | eventDone j e status sid hl =>
    exact hk.keep (fun _ _ hu => .inr hu) (fun _ h => Eq.trans (call_mark rfl) h)
      (fun ev hev => Eq.trans (call_mark rfl) (hk.events ev hev)) (by simp)
  | drop hl => exact hk.keep (fun _ _ hu => .inr hu) (fun _ h => h) (by simp) (by simp)
  | endOfStream hl => exact hk.keep (fun _ _ hu => .inr hu) (fun _ h => h) (by simp) (by simp)
  | reconnect hl => exact hk.keep (fun _ _ hu => .inr hu) (fun _ h => h) hk.events (by simp)
  | hangup j succeeded detail a ha hup =>
    have hup : s.call j = some .up := by rw [State.call, ha, ← hup]; rfl
    have hj : s.attempts[j]? ≠ none := Option.ne_none_iff_exists'.2 ⟨a, ha⟩
    -- The call that ends was up, so it is neither unplaced nor one that has ended.
    have hkeep {i : ℕ} {c : Call} (hi : s.call i = some c) (hc : c ≠ .up) :
        (if i = j then some (.ended succeeded) else s.call i) = some c := by
      rw [if_neg, hi]
      rintro rfl
      exact hc (Option.some.inj (hi.symm.trans hup))
    refine hk.keep (fun _ _ hu => .inr hu) ?_ ?_ ?_
    · exact fun i hi => Eq.trans (call_setCall hj rfl) (hkeep hi (by simp))
    · intro ev hev
      have hev : ev ∈ s.events ∨ ev = ⟨j, succeeded, detail⟩ := by
        dsimp only at hev
        split_ifs at hev
        · exact (List.mem_append.1 hev).imp_right List.mem_singleton.1
        · exact .inl hev
      refine Eq.trans (call_setCall hj rfl) ?_
      rcases hev with hev | rfl
      · exact hkeep (hk.events ev hev) (by simp)
      · exact if_pos rfl
    · intro i e' status sid hl
      obtain ⟨b, detail', hcall', hstatus⟩ := hk.resolving i e' status sid hl
      exact ⟨b, detail', Eq.trans (call_setCall hj rfl) (hkeep hcall' (by simp)), hstatus⟩
  | upload c phoneNumbers =>
    exact hk.keep (fun _ _ hu => .inr hu) (fun _ h => h) hk.events hk.resolving
  | setStatus c status =>
    exact hk.keep (fun _ _ hu => .inr hu) (fun _ h => h) hk.events hk.resolving
  | restart => exact hk.keep (by simp) (fun _ h => h) (by simp) (by simp)

theorem tracked (hs : (Worker.system campaigns).Reachable s) : Wf campaigns s ∧ Tracked s := by
  refine hs.invariant (I := fun s => Wf campaigns s ∧ Tracked s) ⟨Wf.nil, ?_⟩ fun s l s' h hst => ?_
  · constructor <;> simp [Worker.system]
  · have hst := State.step_cases hst
    exact ⟨h.1.step hst, h.2.step h.1 hst⟩

/-! ## The next attempt -/

/-- A call is not, and has not been, connected to the contact; or it is none. -/
def Over (call : Option Call) : Prop := call ≠ some .up ∧ call ≠ some (.ended true)

instance : DecidablePred Over := fun call => inferInstanceAs (Decidable (call ≠ _ ∧ call ≠ _))

structure Sequential (s : State) : Prop where
  ended : ∀ (i j : ℕ) a b, s.attempts[i]? = some a → s.attempts[j]? = some b → i < j →
    a.entry.contactId = b.entry.contactId → Over a.call
  pending : ∀ c k, s.isPending c k = true → ∀ (i : ℕ) a, s.attempts[i]? = some a →
    a.entry.contactId = k → Over a.call

/-- A contact that is pending has no call that is not over. -/
theorem Sequential.claim (hq : Sequential s) {c : ℕ} {contact : ContactRow} {e : Entry}
    (hk : s.contacts[k]? = some contact) (hpending : s.isPending c k = true) (he : e.contactId = k)
    (hcontacts : s'.contacts = s.contacts.set k contact.claim)
    (hattempts : s'.attempts = s.attempts ++ [⟨e, none, false⟩]) : Sequential s' where
  ended i j a b ha hb hlt heq := by
    rw [hattempts] at ha hb
    rcases getElem?_concat_attempt ha with ⟨rfl, rfl⟩ | ha
    · exact ⟨nofun, nofun⟩
    · rcases getElem?_concat_attempt hb with ⟨-, rfl⟩ | hb
      · exact hq.pending c k hpending i a ha (heq.trans he)
      · exact hq.ended i j a b ha hb hlt heq
  pending c' k' hp i a ha heq := by
    rw [hattempts] at ha
    rcases getElem?_concat_attempt ha with ⟨-, rfl⟩ | ha
    · exact ⟨nofun, nofun⟩
    · obtain ⟨row, hrow, hcampaign, hstatus⟩ := isPending_eq_true.1 hp
      rw [hcontacts] at hrow
      rcases getElem?_set_eq_some hrow with ⟨rfl, rfl⟩ | ⟨-, hrow⟩
      · exact absurd hstatus nofun
      · exact hq.pending c' k' (isPending_eq_true.2 ⟨row, hrow, hcampaign, hstatus⟩) i a ha heq

/-- The call of an attempt changes that is the contact's last one. -/
theorem Sequential.setCall (hq : Sequential s) (h : Wf campaigns s) {a : Attempt} {c : Call}
    (ha : s.attempts[j]? = some a) (hlast : a.closed = false ∨ ¬ Over a.call)
    (hcontacts : s'.contacts = s.contacts)
    (hattempts : s'.attempts = s.attempts.set j { a with call := some c }) : Sequential s' where
  ended i i' b b' hb hb' hlt heq := by
    rw [hattempts] at hb hb'
    obtain ⟨b₀, hb₀, hentry⟩ : ∃ b₀, s.attempts[i']? = some b₀ ∧ b₀.entry = b'.entry := by
      rcases getElem?_set_eq_some hb' with ⟨rfl, rfl⟩ | ⟨-, hb'⟩
      · exact ⟨a, ha, rfl⟩
      · exact ⟨b', hb', rfl⟩
    rw [← hentry] at heq
    rcases getElem?_set_eq_some hb with ⟨rfl, rfl⟩ | ⟨-, hb⟩
    · rcases hlast with hopen | hnot
      · exact absurd ((h.last i i' a b₀ ha hb₀ hlt heq).symm.trans hopen) (by simp)
      · exact absurd (hq.ended i i' a b₀ ha hb₀ hlt heq) hnot
    · exact hq.ended i i' b b₀ hb hb₀ hlt heq
  pending c' k hp i b hb heq := by
    rw [State.isPending, hcontacts] at hp
    rw [hattempts] at hb
    rcases getElem?_set_eq_some hb with ⟨rfl, rfl⟩ | ⟨-, hb⟩
    · rcases hlast with hopen | hnot
      · obtain ⟨contact, hk, -, hstatus⟩ := isPending_eq_true.1 hp
        subst heq
        exact absurd (hstatus.symm.trans (h.calling_of_open ha hopen hk)) (by simp)
      · exact absurd (hq.pending c' k hp i a ha heq) hnot
    · exact hq.pending c' k hp i b hb heq

/-- One that is pending again has none either. -/
theorem Sequential.mark (hq : Sequential s) (h : Wf campaigns s) {e : Entry} {b : Bool}
    {status : ContactStatus} {sid : Option String} (hj : s.Open j e b)
    (hover : status = .pending → Over (s.call j))
    (hcontacts : s'.contacts = (s.mark j e status sid).contacts)
    (hattempts : s'.attempts = (s.mark j e status sid).attempts) : Sequential s' := by
  obtain ⟨a, ha, rfl, hopen, -⟩ := hj
  obtain ⟨contact, hk, -⟩ := h.rows j a ha
  rw [State.mark_eq ha hk] at hcontacts hattempts
  have hback {i : ℕ} {x : Attempt} (hx : s'.attempts[i]? = some x) :
      ∃ y, s.attempts[i]? = some y ∧ y.entry = x.entry ∧ y.call = x.call := by
    rw [hattempts] at hx
    rcases getElem?_set_eq_some hx with ⟨rfl, rfl⟩ | ⟨-, hx⟩
    · exact ⟨a, ha, rfl, rfl⟩
    · exact ⟨x, hx, rfl, rfl⟩
  constructor
  case ended =>
    intro i i' x x' hx hx' hlt heq
    obtain ⟨y, hy, hentry, hcall⟩ := hback hx
    obtain ⟨y', hy', hentry', -⟩ := hback hx'
    exact hcall ▸ hq.ended i i' y y' hy hy' hlt (by rw [hentry, hentry', heq])
  case pending =>
    intro c k hp i x hx heq
    obtain ⟨y, hy, hentry, hcall⟩ := hback hx
    rw [← hcall]
    rw [← hentry] at heq
    obtain ⟨row, hrow, hcampaign, hstatus⟩ := isPending_eq_true.1 hp
    rw [hcontacts] at hrow
    rcases getElem?_set_eq_some hrow with ⟨rfl, rfl⟩ | ⟨-, hrow⟩
    · -- The contact that is requeued: its last attempt is `j`.
      rcases lt_trichotomy i j with hlt | rfl | hlt
      · exact hq.ended i j y a hy ha hlt heq
      · obtain rfl := Option.some.inj (ha.symm.trans hy)
        have := hover hstatus
        rwa [State.call, ha] at this
      · exact absurd ((h.last j i a y ha hy hlt heq.symm).symm.trans hopen) nofun
    · exact hq.pending c k (isPending_eq_true.2 ⟨row, hrow, hcampaign, hstatus⟩) i y hy heq

/-- The attempt whose contact is requeued by a tick, which has no job to follow. -/
def State.requeues (s : State) : Label → Option ℕ
  | .resolve t => (s.tasks[t]?).bind fun task =>
    match task.pc with
    | .resolve j _ .pending => some j
    | _ => none
  | _ => none

/-- A tick requeues no contact it is, or has been, connected to. -/
def State.RequeuesOver (s : State) (l : Label) : Prop := ∀ j ∈ s.requeues l, Over (s.call j)

instance (s : State) : DecidablePred s.RequeuesOver :=
  fun l => inferInstanceAs (Decidable (∀ j ∈ s.requeues l, Over (s.call j)))

/-- A resolution that makes a contact pending is of a call that has ended. -/
theorem over_of_resolution {e : Entry} {succeeded : Bool} {detail : String}
    (h : e.resolution succeeded detail = .pending) : Over (some (.ended succeeded)) := by
  refine ⟨nofun, fun heq => ?_⟩
  obtain rfl : succeeded = true := by simpa using heq
  exact absurd h nofun

theorem Sequential.step (hq : Sequential s) (h : Wf campaigns s) (hk : Tracked s) {l : Label}
    (hl : s.RequeuesOver l) (hst : Step campaigns s l s') : Sequential s' := by
  cases hst with
  | claim t task n now k contact e ht hpc hrow he =>
    have hlock : task.lock? = some k := Task.lock?_eq_some.2 ⟨n, now, hpc⟩
    exact hq.claim hrow (h.locked t task k ht hlock) (congrArg Entry.contactId he) rfl rfl
  | dial t task n now j e ht hpc =>
    obtain ⟨a, ha, -, hopen, -⟩ := (h.tasks t task j e false ht (by rw [hpc, Pc.attempt?])).1
    exact hq.setCall h ha (.inl hopen) rfl (modify_eq_set ha)
  | block t task j e ht hpc =>
    refine hq.mark h (h.tasks t task j e false ht (by rw [hpc, Pc.attempt?])).1 ?_ rfl rfl
    exact fun heq : ContactStatus.blocked = .pending => absurd (heq) (by simp)
  | originate t task j e accepted ht hpc =>
    obtain ⟨a, ha, -, hopen, -⟩ := (h.tasks t task j e true ht (by rw [hpc, Pc.attempt?])).1
    exact hq.setCall h ha (.inl hopen) rfl (modify_eq_set ha)
  | resolve t task j e status ht hpc =>
    refine hq.mark h (h.tasks t task j e true ht (by rw [hpc, Pc.attempt?])).1 ?_ rfl rfl
    rintro rfl
    exact hl j (by simp [State.requeues, ht, hpc])
  | eventDone j e status sid hresolve =>
    refine hq.mark h (h.listener j e status sid hresolve).1 ?_ rfl rfl
    rintro rfl
    obtain ⟨succeeded, detail, hcall, hstatus⟩ := hk.resolving j e .pending sid hresolve
    exact hcall ▸ over_of_resolution hstatus.symm
  | hangup j succeeded detail a ha hup =>
    exact hq.setCall h ha (.inr fun hover => hover.1 hup) rfl (modify_eq_set ha)
  | upload c phoneNumbers =>
    refine ⟨hq.ended, fun c' k hp i a ha heq => ?_⟩
    -- The contact of an attempt is no new one.
    obtain ⟨contact, hcontact, -⟩ := h.rows i a ha
    obtain ⟨row, hrow, hcampaign, hstatus⟩ := isPending_eq_true.1 hp
    have hlt := (List.getElem?_eq_some_iff.1 (heq ▸ hcontact)).1
    rw [List.getElem?_append_left hlt] at hrow
    exact hq.pending c' k (isPending_eq_true.2 ⟨row, hrow, hcampaign, hstatus⟩) i a ha heq
  | _ => exact ⟨hq.ended, hq.pending⟩

/-- A contact is dialled when the calls to it have ended, and none succeeded. -/
def State.InTurn (s : State) : Prop :=
  ∀ (i j : ℕ) a b, s.attempts[i]? = some a → s.attempts[j]? = some b → i < j →
    a.entry.contactId = b.entry.contactId → b.call ≠ none → Over a.call

theorem sequential (hs : (Worker.system campaigns).ReachableIf State.RequeuesOver s) :
    Sequential s := by
  refine (hs.invariant (I := fun s => (Wf campaigns s ∧ Tracked s) ∧ Sequential s)
    ⟨tracked .init, ⟨by simp [Worker.system], by simp [Worker.system]⟩⟩
    fun s l s' h hl hst => ?_).2
  have hst := State.step_cases hst
  exact ⟨⟨h.1.1.step hst, h.1.2.step h.1.1 hst⟩, h.2.step h.1.1 h.1.2 hl hst⟩

theorem dialledInTurn (hmax : ∀ c, 1 ≤ (campaigns c).maxAttempts) :
    (∀ s, (Worker.system campaigns).Reachable s → ∀ (k : ℕ) contact,
      s.contacts[k]? = some contact →
        s.dials k ≤ (campaigns contact.campaignId).maxAttempts) ∧
    ∀ s, (Worker.system campaigns).ReachableIf State.RequeuesOver s → s.InTurn := by
  refine ⟨fun s hs k contact hk => ?_, fun s hs => ?_⟩
  · exact ((tracked hs).1.dials_le hk).trans (bounded hmax hs k contact hk).1
  · exact fun i j a b ha hb hlt heq _ => (sequential hs).ended i j a b ha hb hlt heq

/-! ### A lost reply -/

/-- Two attempts for each contact, and one call at a time. -/
def Campaign.retrying : Campaign := ⟨some "5006", 1, 0, 2⟩

/-- The first contact of campaign 0 is claimed by the tick `t`. -/
def Label.claimFirst (t : ℕ) : List Label :=
  [.fetch 0, .start t 0 true, .select t (some 0), .claim t]

/-- The connection is lost when FreeSWITCH has accepted the command, and the
    contact is dialled again while the first call is up. -/
theorem not_dialledInTurn : ¬ ∀ campaigns : ℕ → Campaign, (∀ c, 1 ≤ (campaigns c).maxAttempts) →
    ∀ s, (Worker.system campaigns).Reachable s → s.InTurn := by
  intro h
  have hrun : ((Worker.system fun _ => .retrying).exec (Worker.system fun _ => .retrying).init
      (([.upload 0 ["+14155550101"], .setStatus 0 .running] : List Label) ++
        Label.claimFirst 0 ++
        ([.isBlocked 0 false, .originate 0 true, .reply 0 .error, .resolve 0] : List Label) ++
        Label.claimFirst 1 ++ ([.isBlocked 1 false] : List Label))).map
      (fun s => s.attempts.map fun a => (a.entry, a.call)) =
        some [(⟨0, 0, 2, 1⟩, some .up), (⟨0, 0, 2, 2⟩, some .unplaced)] := by
    decide
  obtain ⟨s, hs, hattempts⟩ := Option.map_eq_some_iff.1 hrun
  have hget (i : ℕ) : (s.attempts[i]?).map (fun a => (a.entry, a.call)) =
      [(⟨0, 0, 2, 1⟩, some .up), (⟨0, 0, 2, 2⟩, some .unplaced)][i]? := by
    rw [← hattempts, List.getElem?_map]
  obtain ⟨a, ha, heq⟩ := Option.map_eq_some_iff.1 (hget 0)
  obtain ⟨b, hb, heq'⟩ := Option.map_eq_some_iff.1 (hget 1)
  rw [Prod.mk.injEq] at heq heq'
  have hmax : ∀ _ : ℕ, 1 ≤ Campaign.retrying.maxAttempts := fun _ => by decide
  have hreachable : (Worker.system fun _ => .retrying).Reachable s :=
    System.Reachable.exec .init hs
  have hover := h _ hmax s hreachable 0 1 a b ha hb Nat.zero_lt_one (by rw [heq.1, heq'.1])
    (by rw [heq'.2]; exact nofun)
  exact hover.1 heq.2

/-- The first call of a contact is not answered, and the second one is. -/
theorem dialledInTurn_answered : ∃ s, (Worker.system fun _ => .retrying).ReachableIf
    State.RequeuesOver s ∧ s.InTurn ∧
      s.dials 0 = 2 ∧ s.dials 0 ≤ Campaign.retrying.maxAttempts := by
  have hrun : ((Worker.system fun _ => .retrying).execIf State.RequeuesOver
      (Worker.system fun _ => .retrying).init
      (([.upload 0 ["+14155550101"], .setStatus 0 .running, .reconnect] : List Label) ++
        Label.claimFirst 0 ++ ([.isBlocked 0 false, .originate 0 true, .reply 0 .jobUuid,
          .hangup 0 false "-ERR NO_ANSWER", .event, .eventDone] : List Label) ++
        Label.claimFirst 1 ++ ([.isBlocked 1 false, .originate 1 true, .reply 1 .jobUuid,
          .hangup 1 true "+OK 5a1c", .event, .eventDone] : List Label))).map
      (fun s => (s.dials 0, s.contacts.map ContactRow.campaignId)) = some (2, [0]) := by
    decide
  obtain ⟨s, hs, hdials⟩ := Option.map_eq_some_iff.1 hrun
  rw [Prod.mk.injEq] at hdials
  have hreachable := System.ReachableIf.init.execIf hs
  have hmax : ∀ _ : ℕ, 1 ≤ Campaign.retrying.maxAttempts := fun _ => by decide
  obtain ⟨hbound, hturn⟩ := dialledInTurn hmax
  obtain ⟨contact, hcontact, heq⟩ : ∃ contact, s.contacts[0]? = some contact ∧
      contact.campaignId = 0 := by
    rw [← Option.map_eq_some_iff, ← List.getElem?_map, hdials.2]
    rfl
  exact ⟨s, hreachable, hturn s hreachable, hdials.1,
    hbound s hreachable.reachable 0 contact hcontact⟩

end Yuviz.Campaigns
