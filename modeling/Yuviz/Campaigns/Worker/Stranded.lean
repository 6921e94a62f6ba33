import Mathlib
import Yuviz.Campaigns.Worker.Held

/-!
# Contacts that are left behind

A contact that is `calling` has an attempt that is held, and a campaign is set
to `completed` when none of its contacts is pending or `calling` (`onCourse`):
in every run in which no step loses an attempt, and nothing is pending when
`get_progress` finds nothing `calling`, or is uploaded between the two.
-/

namespace Yuviz.Campaigns

open Python (Dict)

variable {campaigns : ℕ → Campaign} {s s' : State} {t i j k : ℕ} {task : Task} {e : Entry}
  {l : Label}

/-- The campaign has no contact that is pending or `calling`. -/
def State.Finished (s : State) (c : ℕ) : Prop :=
  ∀ (k : ℕ) contact, s.contacts[k]? = some contact → contact.campaignId = c →
    contact.status ≠ .pending ∧ contact.status ≠ .calling

structure State.OnCourse (s : State) : Prop where
  calling : ∀ (k : ℕ) contact, s.contacts[k]? = some contact → contact.status = .calling →
    ∃ j e b, s.Open j e b ∧ e.contactId = k ∧ s.Held j
  complete : ∀ (t : ℕ) task, s.task? t = some task → task.pc = .complete →
    s.Finished task.campaignId

/-! ## When a campaign is completed -/

/-- How many contacts of the campaign are pending. -/
def State.pending (s : State) (c : ℕ) : ℕ :=
  s.contacts.countP fun contact => contact.campaignId = c && contact.status = .pending

/-- The campaign is about to be completed. -/
def State.isCompleting (s : State) (c : ℕ) : Bool :=
  s.tasks.any fun task => task.campaignId = c &&
    match task.pc with
    | .complete => true
    | _ => false

/-- `get_progress` finds nothing `calling` only when nothing is pending, and no
    contact is uploaded after that. -/
def State.CompletesFinished (s : State) : Label → Prop
  | .progress t => ∀ task ∈ s.tasks[t]?, s.calling task.campaignId = 0 →
      s.pending task.campaignId = 0
  | .upload c phoneNumbers => phoneNumbers = [] ∨ s.isCompleting c = false
  | _ => True

theorem State.Finished.of_counts {c : ℕ} (hpending : s.pending c = 0)
    (hcalling : s.calling c = 0) : s.Finished c := by
  intro k contact hk hc
  have hmem := List.mem_of_getElem? hk
  have hpending := List.countP_eq_zero.1 hpending contact hmem
  have hcalling := List.countP_eq_zero.1 hcalling contact hmem
  simp only [hc, decide_true, Bool.true_and, decide_eq_true_eq] at hpending hcalling
  exact ⟨hpending, hcalling⟩

theorem isCompleting_of_complete (ht : s.tasks[t]? = some task) (hpc : task.pc = .complete) :
    s.isCompleting task.campaignId = true := by
  rw [State.isCompleting, List.any_eq_true]
  exact ⟨task, List.mem_of_getElem? ht, by simp [hpc]⟩

/-- A tick that is about to complete its campaign has a finished one. -/
def Completes (s : State) : Prop :=
  ∀ (t : ℕ) task, s.tasks[t]? = some task → task.pc = .complete → s.Finished task.campaignId

/-- A finished campaign stays finished when another contact changes. -/
theorem State.Finished.set {c : ℕ} {contact row : ContactRow} (h : s.Finished c)
    (hk : s.contacts[k]? = some contact) (hcontacts : s'.contacts = s.contacts.set k row)
    (hrow : row.campaignId = contact.campaignId)
    (hstatus : contact.status = .pending ∨ contact.status = .calling) : s'.Finished c := by
  intro i other hi hc
  rw [hcontacts] at hi
  rcases getElem?_set_eq_some hi with ⟨rfl, rfl⟩ | ⟨-, hi⟩
  · obtain ⟨hpending, hcalling⟩ := h i contact hk (hrow.symm.trans hc)
    exact (hstatus.elim hpending hcalling).elim
  · exact h i other hi hc

theorem Wf.finished_mark (h : Wf campaigns s) {b : Bool} {status : ContactStatus}
    {sid : Option String} {c : ℕ} (hf : s.Finished c) (hj : s.Open j e b)
    (hcontacts : s'.contacts = (s.mark j e status sid).contacts) : s'.Finished c := by
  obtain ⟨a, ha, rfl, hopen, -⟩ := hj
  obtain ⟨contact, hk, -⟩ := h.rows j a ha
  rw [State.mark_eq ha hk] at hcontacts
  exact hf.set hk hcontacts rfl (.inr (h.calling_of_open ha hopen hk))

theorem Completes.goto {pc : Pc} (h : Completes s)
    (htasks : s'.tasks = s.tasks.set t { task with pc := pc })
    (hpc : pc = .complete → s'.Finished task.campaignId)
    (hfinished : ∀ c, s.Finished c → s'.Finished c) : Completes s' := by
  intro u other hu hcomplete
  rw [htasks] at hu
  rcases getElem?_set_eq_some hu with ⟨rfl, rfl⟩ | ⟨-, hu⟩
  · exact hpc hcomplete
  · exact hfinished _ (h u other hu hcomplete)

theorem Completes.step (h : Completes s) (hwf : Wf campaigns s) (hl : s.CompletesFinished l)
    (hst : Step campaigns s l s') : Completes s' := by
  cases hst with
  | fetch c hrunning =>
    intro u other hu hcomplete
    rcases getElem?_concat_eq_some hu with rfl | hu
    · exact absurd hcomplete (by simp)
    · exact h u other hu hcomplete
  | move l t task pc ht hm =>
    refine h.goto rfl (fun hpc => ?_) fun _ hf => hf
    cases hm with
    | allDone _ hcalling => exact .of_counts (hl task ht hcalling) hcalling
    | _ => exact absurd hpc (by simp)
  | claim t task n now k contact e ht hpc hk he =>
    obtain ⟨contact', hk', -, hpending⟩ :=
      isPending_eq_true.1 (hwf.locked t task k ht (Task.lock?_eq_some.2 ⟨n, now, hpc⟩))
    obtain rfl := Option.some.inj (hk.symm.trans hk')
    exact h.goto rfl (by simp) fun c hf => hf.set hk rfl rfl (.inl hpending)
  | block t task j e ht hpc =>
    have hopen := (hwf.tasks t task j e false ht (by rw [hpc, Pc.attempt?])).1
    exact h.goto rfl (by simp) fun c hf => hwf.finished_mark hf hopen rfl
  | resolve t task j e status ht hpc =>
    have hopen := (hwf.tasks t task j e true ht (by rw [hpc, Pc.attempt?])).1
    exact h.goto rfl (by simp) fun c hf => hwf.finished_mark hf hopen rfl
  | eventDone j e status sid hresolve =>
    have hopen := (hwf.listener j e status sid hresolve).1
    exact fun u other hu hcomplete => hwf.finished_mark (h u other hu hcomplete) hopen rfl
  | complete | dial | originate | reply => exact h.goto rfl (by simp) fun _ hf => hf
  | upload c phoneNumbers =>
    intro u other hu hcomplete k contact hk hc
    rcases List.mem_append.1 (List.mem_of_getElem? hk) with hmem | hmem
    · obtain ⟨i, hi⟩ := List.mem_iff_getElem?.1 hmem
      exact h u other hu hcomplete i contact hi hc
    · -- No contact is uploaded to a campaign that is about to be completed.
      obtain ⟨phone, hphone, rfl⟩ := List.mem_map.1 hmem
      rcases hl with rfl | hnot
      · cases hphone
      · have hcompleting := isCompleting_of_complete hu hcomplete
        rw [← hc] at hcompleting
        exact absurd (hnot.symm.trans hcompleting) (by simp)
  | restart => simp [Completes]
  | _ => exact h

/-! ## The runs -/

def State.isOpen (s : State) (j : ℕ) : Bool := (s.attempts[j]?).any fun a => !a.closed

/-- No attempt is lost, and no campaign is completed that is not finished. -/
def State.KeepsAll (s : State) (l : Label) : Prop :=
  s.CompletesFinished l ∧ ∀ j < s.attempts.length, s.isOpen j = true → s.Keeps j l

instance (s : State) : DecidablePred s.CompletesFinished
  | .progress t => inferInstanceAs (Decidable (∀ task ∈ s.tasks[t]?, _ = 0 → _ = 0))
  | .upload _ phoneNumbers => inferInstanceAs (Decidable (phoneNumbers = [] ∨ _ = false))
  | .fetch _ | .start _ _ _ | .select _ _ | .claim _ | .complete _ | .isBlocked _ _ | .block _
  | .originate _ _ | .reply _ _ | .resolve _ | .fail _ | .event | .eventDone | .drop | .endOfStream
  | .reconnect | .hangup _ _ _ | .setStatus _ _ | .restart => inferInstanceAs (Decidable True)

instance (s : State) : DecidablePred s.KeepsAll := fun l =>
  inferInstanceAs (Decidable (s.CompletesFinished l ∧ ∀ j < s.attempts.length, _ → s.Keeps j l))

theorem State.KeepsAll.keeps (hl : s.KeepsAll l) {b : Bool} (hj : s.Open j e b) :
    s.Keeps j l := by
  obtain ⟨a, ha, -, hclosed, -⟩ := hj
  refine hl.2 j (List.getElem?_eq_some_iff.1 ha).1 ?_
  rw [State.isOpen, ha, Option.any_some, hclosed]
  rfl

theorem onCourse (hs : (Worker.system campaigns).ReachableIf State.KeepsAll s) : s.OnCourse := by
  have hall := hs.invariant
    (I := fun s => (Wf campaigns s ∧ Tracked s) ∧ Completes s ∧ ∀ j e b, s.Open j e b → s.Held j)
    ⟨tracked .init, by simp [Completes, Worker.system], by simp [State.Open, Worker.system]⟩
    fun s l s' ⟨⟨hwf, hk⟩, hc, hheld⟩ hl hst => by
      have hst := State.step_cases hst
      refine ⟨⟨hwf.step hst, hk.step hwf hst⟩, hc.step hwf hl.1 hst, fun j e b hopen => ?_⟩
      exact held_step (P := fun _ => True) (fun j e b _ => hheld j e b) hwf hk hst
        (fun j e b _ hj => hl.keeps hj) trivial hopen
  obtain ⟨⟨hwf, -⟩, hc, hheld⟩ := hall
  refine ⟨fun k contact hk hcalling => ?_, fun t task ht hpc => ?_⟩
  · obtain ⟨j, a, ha, hopen, heq⟩ := (hwf.calling k contact hk).1 hcalling
    have hj : s.Open j a.entry a.call.isSome := ⟨a, ha, rfl, hopen, rfl⟩
    exact ⟨j, a.entry, a.call.isSome, hj, heq, hheld j _ _ hj⟩
  · exact hc t task (State.getElem?_of_task? ht) hpc

/-! ### An early event -/

/-- The job ends, and its event is read, before the reply with its Job-UUID is. -/
theorem not_onCourse : ¬ ∀ campaigns s, (Worker.system campaigns).Reachable s → s.OnCourse := by
  intro h
  have hrun : ((Worker.system fun _ => .retrying).exec (Worker.system fun _ => .retrying).init
      (([.upload 0 ["+14155550101"], .setStatus 0 .running, .reconnect] : List Label) ++
        Label.claimFirst 0 ++ ([.isBlocked 0 false, .originate 0 true,
          .hangup 0 false "-ERR USER_BUSY", .event, .reply 0 .jobUuid] : List Label))).map
      (fun s => ((s.contacts.map ContactRow.status, s.tasks.map Task.job?), s.listener.job?,
        s.attempts.map Attempt.call, s.events.map Event.job)) =
        some (([.calling], [none]), none, [some (.ended false)], []) := by
    decide
  obtain ⟨s, hs, heq⟩ := Option.map_eq_some_iff.1 hrun
  simp only [Prod.mk.injEq] at heq
  obtain ⟨⟨hcontacts, htasks⟩, hlistener, hattempts, hevents⟩ := heq
  have hreachable : (Worker.system fun _ => .retrying).Reachable s :=
    System.Reachable.exec .init hs
  have hget : (s.contacts[0]?).map ContactRow.status = some .calling := by
    rw [← List.getElem?_map, hcontacts]
    rfl
  obtain ⟨contact, hcontact, hcalling⟩ := Option.map_eq_some_iff.1 hget
  obtain ⟨j, e, b, ⟨a, ha, -⟩, -, hheld⟩ :=
    (h (fun _ => .retrying) s hreachable).calling 0 contact hcontact hcalling
  have hcall : s.call j = some (.ended false) := by
    have hmem : a.call ∈ s.attempts.map Attempt.call := List.mem_map_of_mem (List.mem_of_getElem? ha)
    rw [hattempts, List.mem_singleton] at hmem
    rw [State.call, ha]
    exact hmem
  rcases hheld.held with ⟨t, ht⟩ | hl | ⟨-, hup | ⟨ev, hev, -⟩⟩
  · obtain ⟨task, ht, hjob⟩ := jobAt_eq_some.1 ht
    have hmem : task.job? ∈ s.tasks.map Task.job? := List.mem_map_of_mem (List.mem_of_getElem? ht)
    rw [htasks, List.mem_singleton, hjob] at hmem
    exact absurd hmem (by simp)
  · exact absurd (hlistener.symm.trans hl) (by simp)
  · exact absurd (hcall.symm.trans hup) (by simp)
  · have hmem : ev.job ∈ s.events.map Event.job := List.mem_map_of_mem hev
    rw [hevents] at hmem
    exact absurd hmem (by simp)

/-- The same call, when the reply is read before the event is; the second
    attempt is answered, and the campaign is completed. -/
theorem onCourse_completed : ∃ s, (Worker.system fun _ => .retrying).ReachableIf State.KeepsAll s ∧
    s.OnCourse ∧ s.status.get? 0 = some .completed := by
  have hrun : ((Worker.system fun _ => .retrying).execIf State.KeepsAll
      (Worker.system fun _ => .retrying).init
      (([.upload 0 ["+14155550101"], .setStatus 0 .running, .reconnect] : List Label) ++
        Label.claimFirst 0 ++ ([.isBlocked 0 false, .originate 0 true,
          .hangup 0 false "-ERR USER_BUSY", .reply 0 .jobUuid, .event, .eventDone] : List Label) ++
        Label.claimFirst 1 ++ ([.isBlocked 1 false, .originate 1 true, .reply 1 .jobUuid,
          .hangup 1 true "+OK 5a1c", .event, .eventDone, .fetch 0, .start 2 1 true, .select 2 none,
          .progress 2, .complete 2] : List Label))).map
      (fun s => s.status.get? 0) = some (some .completed) := by
    decide
  obtain ⟨s, hs, hstatus⟩ := Option.map_eq_some_iff.1 hrun
  have hreachable := System.ReachableIf.init.execIf hs
  exact ⟨s, hreachable, onCourse hreachable, hstatus⟩

end Yuviz.Campaigns
