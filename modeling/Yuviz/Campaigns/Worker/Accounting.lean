import Mathlib
import Yuviz.Campaigns.Worker.Held

/-!
# The slots of a campaign

`_in_flight[c]` is how many dials of the campaign have been started and not
resolved, so that no more calls than `max_concurrent_calls` are up, and every
slot that is taken is held by what will give it back (`accounted`): in every
run in which no dial is started with a counter that has changed since the tick
has read it, and no step loses a dial.
-/

namespace Yuviz.Campaigns

open Python (Dict)

variable {campaigns : ℕ → Campaign} {s s' : State} {t i j : ℕ} {task : Task} {pc : Pc} {e : Entry}
  {l : Label}

/-- The dial has been started, and not resolved. -/
def Attempt.isStarted (a : Attempt) : Bool := a.call.isSome && !a.closed

/-- How many dials of the campaign have been started, and not resolved. -/
def State.started (s : State) (c : ℕ) : ℕ :=
  s.attempts.countP fun a => a.isStarted && decide (a.entry.campaignId = c)

/-- How many calls of the campaign are up. -/
def State.calls (s : State) (c : ℕ) : ℕ :=
  s.attempts.countP fun a => decide (a.call = some .up) && decide (a.entry.campaignId = c)

structure State.Accounted (s : State) (campaigns : ℕ → Campaign) : Prop where
  inFlight : ∀ c, (s.inFlight.get? c).getD 0 = s.started c
  calls : ∀ c, s.calls c ≤ (campaigns c).maxConcurrentCalls
  held : ∀ j e, s.Open j e true → s.Held j

/-! ## What a tick has read -/

/-- The counter as the tick has read it. -/
def Pc.read? : Pc → Option ℕ
  | .select n _ | .claim n _ _ | .isBlocked n _ _ _ => some n
  | _ => none

/-- A tick goes on below the cap. -/
def BelowCap (campaigns : ℕ → Campaign) (s : State) : Prop :=
  ∀ (t : ℕ) task n, s.tasks[t]? = some task → task.pc.read? = some n →
    n < (campaigns task.campaignId).maxConcurrentCalls

theorem BelowCap.set (h : BelowCap campaigns s)
    (htasks : s'.tasks = s.tasks.set t { task with pc := pc })
    (hpc : ∀ n, pc.read? = some n → n < (campaigns task.campaignId).maxConcurrentCalls) :
    BelowCap campaigns s' := by
  intro u other n hu hread
  rw [htasks] at hu
  rcases getElem?_set_eq_some hu with ⟨rfl, rfl⟩ | ⟨-, hu⟩
  · exact hpc n hread
  · exact h u other n hu hread

/-- A counter that a tick has read, or reads now, is below the cap, -/
theorem Moves.below (hm : Moves campaigns s t task l pc) (h : BelowCap campaigns s)
    (ht : s.tasks[t]? = some task) {n : ℕ} (hread : pc.read? = some n) :
    n < (campaigns task.campaignId).maxConcurrentCalls := by
  cases hm with
  | start now withinHours hpc hcap => exact Option.some.inj hread ▸ hcap
  | found m now k hpc hpending hfree =>
    obtain rfl := Option.some.inj hread
    exact h t task m ht (by rw [hpc, Pc.read?])
  | _ => exact absurd hread nofun

/-- and stays so for the tick. -/
theorem BelowCap.step (h : BelowCap campaigns s) (hst : Step campaigns s l s') :
    BelowCap campaigns s' := by
  cases hst with
  | fetch c hrunning =>
    intro u other n hu hread
    rcases getElem?_concat_eq_some hu with rfl | hu
    · exact absurd hread nofun
    · exact h u other n hu hread
  | move l t task pc ht hm => exact h.set rfl fun n hread => hm.below h ht hread
  | claim t task n now k contact e ht hpc hk he =>
    refine h.set rfl fun m hread => ?_
    obtain rfl := Option.some.inj hread
    exact h t task n ht (by rw [hpc, Pc.read?])
  | complete | dial | block | originate | reply | resolve => exact h.set rfl nofun
  | restart => simp [BelowCap]
  | _ => exact h

/-! ## The steps -/

/-- The counter is as the tick has read it. -/
def State.IsFresh (s : State) (t : ℕ) : Prop :=
  ∀ task ∈ s.tasks[t]?, ∀ n ∈ task.pc.read?, (s.inFlight.get? task.campaignId).getD 0 = n

def State.isStarted (s : State) (j : ℕ) : Bool := (s.attempts[j]?).any Attempt.isStarted

/-- A dial is started with a counter that is up to date, and no tick gives up a
    call that is up. -/
def State.Counts (s : State) : Label → Prop
  | .isBlocked t false => s.IsFresh t
  | .resolve t => ∀ j ∈ s.jobAt t, s.call j ≠ some .up
  | _ => True

/-- And a dial that has been started is not lost. -/
def State.Tallies (s : State) (l : Label) : Prop :=
  s.Counts l ∧ ∀ j < s.attempts.length, s.isStarted j = true → s.Keeps j l

instance (s : State) (t : ℕ) : Decidable (s.IsFresh t) :=
  inferInstanceAs (Decidable (∀ task ∈ s.tasks[t]?, ∀ n ∈ task.pc.read?, _ = n))

instance (s : State) : DecidablePred s.Counts
  | .isBlocked t false => inferInstanceAs (Decidable (s.IsFresh t))
  | .resolve t => inferInstanceAs (Decidable (∀ j ∈ s.jobAt t, s.call j ≠ some .up))
  | .fetch _ | .start _ _ _ | .select _ _ | .claim _ | .progress _ | .complete _
  | .isBlocked _ true | .block _ | .originate _ _ | .reply _ _ | .fail _ | .event
  | .eventDone | .drop | .endOfStream | .reconnect | .hangup _ _ _ | .upload _ _ | .setStatus _ _
  | .restart => inferInstanceAs (Decidable True)

instance (s : State) : DecidablePred s.Tallies :=
  fun l => inferInstanceAs (Decidable (s.Counts l ∧ ∀ j < s.attempts.length, _ → s.Keeps j l))

theorem State.isStarted_eq_true : s.isStarted j = true ↔ ∃ e, s.Open j e true := by
  rw [State.isStarted, Option.any_eq_true]
  constructor
  · rintro ⟨a, ha, hstarted⟩
    rw [Attempt.isStarted, Bool.and_eq_true, Bool.not_eq_true'] at hstarted
    exact ⟨a.entry, a, ha, rfl, hstarted.2, hstarted.1⟩
  · rintro ⟨e, a, ha, -, hclosed, hcall⟩
    exact ⟨a, ha, by rw [Attempt.isStarted, hclosed, hcall]; rfl⟩

theorem State.Tallies.keeps (hl : s.Tallies l) (hj : s.Open j e true) : s.Keeps j l := by
  obtain ⟨a, ha, -⟩ := id hj
  exact hl.2 j (List.getElem?_eq_some_iff.1 ha).1 (State.isStarted_eq_true.2 ⟨e, hj⟩)

/-- The counter counts, and an attempt with a call that is up is open. -/
structure Tally (campaigns : ℕ → Campaign) (s : State) : Prop where
  inFlight : ∀ c, (s.inFlight.get? c).getD 0 = s.started c
  started : ∀ c, s.started c ≤ (campaigns c).maxConcurrentCalls
  up : ∀ (j : ℕ) a, s.attempts[j]? = some a → a.call = some .up → a.closed = false

/-- The counter is at least the calls, and it is not above the cap. -/
theorem Tally.calls_le (h : Tally campaigns s) (c : ℕ) :
    s.calls c ≤ (campaigns c).maxConcurrentCalls := by
  refine le_trans (List.countP_mono_left fun a ha hup => ?_) (h.started c)
  obtain ⟨j, hj⟩ := List.mem_iff_getElem?.1 ha
  rw [Bool.and_eq_true] at hup ⊢
  refine ⟨?_, hup.2⟩
  rw [Attempt.isStarted, of_decide_eq_true hup.1, h.up j a hj (of_decide_eq_true hup.1)]
  rfl

/-- An attempt changes, and is started, or not, as before. -/
theorem Tally.keep (h : Tally campaigns s) {a a' : Attempt} (ha : s.attempts[j]? = some a)
    (hattempts : s'.attempts = s.attempts.set j a') (hentry : a'.entry = a.entry)
    (hstarted : a'.isStarted = a.isStarted) (hup : a'.call = some .up → a'.closed = false)
    (hinFlight : s'.inFlight = s.inFlight) : Tally campaigns s' := by
  have hcount (c : ℕ) : s'.started c = s.started c := by
    rw [State.started, hattempts]
    exact countP_set_of_eq ha (by rw [hentry, hstarted])
  refine ⟨fun c => ?_, fun c => ?_, fun i b hb hcall => ?_⟩
  · rw [hinFlight, hcount]
    exact h.inFlight c
  · rw [hcount]
    exact h.started c
  · rw [hattempts] at hb
    rcases getElem?_set_eq_some hb with ⟨rfl, rfl⟩ | ⟨-, hb⟩
    · exact hup hcall
    · exact h.up i b hb hcall

/-- A call that is dialled is counted once more, -/
theorem Tally.dial (h : Tally campaigns s) {n : ℕ} {a a' : Attempt} (ha : s.attempts[j]? = some a)
    (hattempts : s'.attempts = s.attempts.set j a') (hentry : a'.entry = a.entry)
    (hstarted : a.isStarted = false)
    (hstarted' : a'.isStarted = true) (hup : a'.call = some .up → a'.closed = false)
    (hfresh : (s.inFlight.get? a.entry.campaignId).getD 0 = n)
    (hlt : n < (campaigns a.entry.campaignId).maxConcurrentCalls)
    (hinFlight : s'.inFlight = s.inFlight.set a.entry.campaignId (n + 1)) :
    Tally campaigns s' := by
  have hself : s'.started a.entry.campaignId = n + 1 := by
    rw [State.started, hattempts, countP_set_of_true ha (by simp [hstarted])
      (by simp [hstarted', hentry]), ← hfresh]
    exact congrArg (· + 1) (h.inFlight _).symm
  have hother {c : ℕ} (hne : c ≠ a.entry.campaignId) : s'.started c = s.started c := by
    rw [State.started, hattempts]
    exact countP_set_of_eq ha (by simp [hentry, hne.symm])
  refine ⟨fun c => ?_, fun c => ?_, fun i b hb hcall => ?_⟩
  · rw [hinFlight, Dict.get?_set]
    split_ifs with heq
    · rw [heq, hself]
      rfl
    · rw [hother heq]
      exact h.inFlight c
  · rcases eq_or_ne c a.entry.campaignId with rfl | hne
    · rw [hself]
      exact hlt
    · rw [hother hne]
      exact h.started c
  · rw [hattempts] at hb
    rcases getElem?_set_eq_some hb with ⟨rfl, rfl⟩ | ⟨-, hb⟩
    · exact hup hcall
    · exact h.up i b hb hcall

/-- and one that is over once less. -/
theorem Tally.release (h : Tally campaigns s) {a : Attempt} (ha : s.attempts[j]? = some a)
    (hstarted : a.isStarted = true) (hup : a.call ≠ some .up)
    (hinFlight : s'.inFlight = (s.release a.entry.campaignId).inFlight)
    (hattempts : s'.attempts = s.attempts.set j { a with closed := true }) :
    Tally campaigns s' := by
  have hself : s'.started a.entry.campaignId + 1 = s.started a.entry.campaignId := by
    rw [State.started, hattempts]
    exact countP_set_of_false ha (by simp [hstarted]) (by simp [Attempt.isStarted])
  have hother {c : ℕ} (hne : c ≠ a.entry.campaignId) : s'.started c = s.started c := by
    rw [State.started, hattempts]
    exact countP_set_of_eq ha (by simp [hne.symm])
  -- The slot has been counted, so the default of `get` is not used.
  have hget : s.inFlight.get? a.entry.campaignId = some (s.started a.entry.campaignId) := by
    have hcount := h.inFlight a.entry.campaignId
    cases hget : s.inFlight.get? a.entry.campaignId with
    | none =>
      rw [hget, ← hself] at hcount
      exact absurd hcount.symm (Nat.succ_ne_zero _)
    | some n => rw [← hcount, hget, Option.getD_some]
  refine ⟨fun c => ?_, fun c => ?_, fun i b hb hcall => ?_⟩
  · rw [hinFlight, State.release, Dict.get?_set, hget]
    split_ifs with heq
    · rw [heq, Option.getD_some, Option.getD_some, ← hself, Nat.add_sub_cancel]
    · rw [hother heq]
      exact h.inFlight c
  · rcases eq_or_ne c a.entry.campaignId with rfl | hne
    · exact (Nat.le_of_succ_le hself.le).trans (h.started _)
    · rw [hother hne]
      exact h.started c
  · rw [hattempts] at hb
    rcases getElem?_set_eq_some hb with ⟨rfl, rfl⟩ | ⟨-, hb⟩
    · exact absurd hcall hup
    · exact h.up i b hb hcall

theorem Tally.step (h : Tally campaigns s) (hwf : Wf campaigns s) (hk : Tracked s)
    (hb : BelowCap campaigns s) (hl : s.Tallies l) (hst : Step campaigns s l s') :
    Tally campaigns s' := by
  cases hst with
  | claim t task n now k contact e ht hpc hrow he =>
    have hcount (c : ℕ) : (s.attempts ++ [(⟨e, none, false⟩ : Attempt)]).countP
        (fun a => a.isStarted && decide (a.entry.campaignId = c)) = s.started c := by
      rw [List.countP_append, List.countP_singleton]
      rfl
    refine ⟨fun c => (h.inFlight c).trans (hcount c).symm,
      fun c => (hcount c).le.trans (h.started c), fun i a ha hup => ?_⟩
    rcases getElem?_concat_attempt ha with ⟨-, rfl⟩ | ha
    · rfl
    · exact h.up i a ha hup
  | dial t task n now j e ht hpc =>
    obtain ⟨⟨a, ha, rfl, hopen, hcall⟩, hcampaign⟩ :=
      hwf.tasks t task j e false ht (by rw [hpc, Pc.attempt?])
    have hread : task.pc.read? = some n := by rw [hpc, Pc.read?]
    have hfresh := hl.1 task ht n hread
    have hlt := hb t task n ht hread
    rw [← hcampaign] at hfresh hlt ⊢
    exact h.dial ha (modify_eq_set ha) rfl (by simp [Attempt.isStarted, hcall])
      (by simp [Attempt.isStarted, hopen]) (fun _ => hopen) hfresh hlt rfl
  | block t task j e ht hpc =>
    obtain ⟨⟨a, ha, rfl, hopen, hcall⟩, -⟩ :=
      hwf.tasks t task j e false ht (by rw [hpc, Pc.attempt?])
    exact h.keep ha (modify_eq_set ha) rfl (by simp [Attempt.isStarted, hcall])
      (fun hup : a.call = some .up => by simp [hup] at hcall) rfl
  | originate t task j e accepted ht hpc =>
    obtain ⟨⟨a, ha, rfl, hopen, hcall⟩, -⟩ :=
      hwf.tasks t task j e true ht (by rw [hpc, Pc.attempt?])
    exact h.keep ha (modify_eq_set ha) rfl (by simp [Attempt.isStarted, hcall]) (fun _ => hopen) rfl
  | resolve t task j e status ht hpc =>
    obtain ⟨⟨a, ha, rfl, hopen, hcall⟩, -⟩ :=
      hwf.tasks t task j e true ht (by rw [hpc, Pc.attempt?])
    have hup := hl.1 j (jobAt_eq_some.2 ⟨task, ht, by rw [Task.job?, hpc]; rfl⟩)
    rw [State.call, ha] at hup
    exact h.release ha (by simp [Attempt.isStarted, hcall, hopen]) hup rfl (modify_eq_set ha)
  | eventDone j e status sid hresolve =>
    obtain ⟨⟨a, ha, rfl, hopen, hcall⟩, -⟩ := hwf.listener j e status sid hresolve
    obtain ⟨succeeded, detail, hended, -⟩ := hk.resolving j a.entry status sid hresolve
    have hup : a.call ≠ some .up := by
      rw [State.call, ha] at hended
      exact fun heq => absurd (heq.symm.trans hended) (by simp)
    exact h.release ha (by simp [Attempt.isStarted, hcall, hopen]) hup rfl (modify_eq_set ha)
  | hangup j succeeded detail a ha hup =>
    exact h.keep ha (modify_eq_set ha) rfl (by simp [Attempt.isStarted, hup])
      (fun _ => h.up j a ha hup) rfl
  | restart =>
    -- No dial is in progress, so the new process is right to begin with no count.
    have hnone (c : ℕ) : s.started c = 0 := by
      refine List.countP_eq_zero.2 fun a ha hstarted => ?_
      obtain ⟨j, hj⟩ := List.mem_iff_getElem?.1 ha
      have hj' : s.isStarted j = true := by
        rw [State.isStarted, hj]
        exact (Bool.and_eq_true_iff.1 hstarted).1
      exact hl.2 j (List.getElem?_eq_some_iff.1 hj).1 hj'
    exact ⟨fun c => (hnone c).symm, h.started, h.up⟩
  | _ => exact ⟨h.inFlight, h.started, h.up⟩

theorem accounted (hs : (Worker.system campaigns).ReachableIf State.Tallies s) :
    s.Accounted campaigns := by
  have hinit : Tally campaigns (Worker.system campaigns).init ∧
      ∀ j e, (Worker.system campaigns).init.Open j e true →
        (Worker.system campaigns).init.Held j := by
    refine ⟨⟨fun _ => rfl, fun _ => Nat.zero_le _, by simp [Worker.system]⟩, ?_⟩
    rintro j e ⟨a, ha, -⟩
    simp [Worker.system] at ha
  have hall := hs.invariant
    (I := fun s => (Wf campaigns s ∧ Tracked s) ∧ BelowCap campaigns s ∧ Tally campaigns s ∧
      ∀ j e, s.Open j e true → s.Held j)
    ⟨tracked .init, by simp [BelowCap, Worker.system], hinit⟩
    fun s l s' hI hl hst => by
      obtain ⟨⟨hwf, hk⟩, hb, ht, hheld⟩ := hI
      have hst := State.step_cases hst
      refine ⟨⟨hwf.step hst, hk.step hwf hst⟩, hb.step hst, ht.step hwf hk hb hl hst, ?_⟩
      intro j e hopen
      exact held_step (P := (· = true)) (fun j e b hb hj => hheld j e (hb ▸ hj)) hwf hk hst
        (fun j e b hb hj => hl.keeps (hb ▸ hj)) rfl hopen
  exact ⟨hall.2.2.1.inFlight, hall.2.2.1.calls_le, hall.2.2.2⟩

/-! ### A counter that has changed -/

/-- Two calls at a time. -/
def Campaign.pair : Campaign := ⟨some "5006", 2, 0, 1⟩

/-- Two contacts are uploaded, and the first one is dialled. -/
def Label.dialFirst : List Label :=
  ([.upload 0 ["+14155550101", "+14155550102"], .setStatus 0 .running, .reconnect] : List Label) ++
    Label.claimFirst 0 ++
    ([.isBlocked 0 false, .originate 0 true, .reply 0 .jobUuid] : List Label)

/-- The second tick is between the claim of its contact and the dial. -/
def Label.claimSecond : List Label :=
  [.fetch 0, .start 1 1 true, .select 1 (some 1), .claim 1]

/-- The first call ends while the second tick looks up its contact. -/
theorem not_accounted : ¬ ∀ campaigns s, (Worker.system campaigns).Reachable s →
    s.Accounted campaigns := by
  intro h
  have hrun : ((Worker.system fun _ => .pair).exec (Worker.system fun _ => .pair).init
      (Label.dialFirst ++ Label.claimSecond ++
        ([.hangup 0 true "+OK 5a1c", .event, .eventDone, .isBlocked 1 false] : List Label))).map
      (fun s => ((s.inFlight.get? 0).getD 0, s.started 0)) = some (2, 1) := by
    decide
  obtain ⟨s, hs, heq⟩ := Option.map_eq_some_iff.1 hrun
  rw [Prod.mk.injEq] at heq
  have hreachable : (Worker.system fun _ => .pair).Reachable s := System.Reachable.exec .init hs
  have hcount := (h (fun _ => .pair) s hreachable).inFlight 0
  rw [heq.1, heq.2] at hcount
  exact absurd hcount (by decide)

/-- The same calls, when the first one ends after the second one is dialled. -/
theorem accounted_pair : ∃ s, (Worker.system fun _ => .pair).ReachableIf State.Tallies s ∧
    s.Accounted (fun _ => .pair) ∧ s.started 0 = 1 := by
  have hrun : ((Worker.system fun _ => .pair).execIf State.Tallies
      (Worker.system fun _ => .pair).init
      (Label.dialFirst ++ Label.claimSecond ++
        ([.isBlocked 1 false, .hangup 0 true "+OK 5a1c", .event, .eventDone, .originate 1 true,
          .reply 1 .jobUuid] : List Label))).map
      (fun s => s.started 0) = some 1 := by
    decide
  obtain ⟨s, hs, hstarted⟩ := Option.map_eq_some_iff.1 hrun
  have hreachable := System.ReachableIf.init.execIf hs
  exact ⟨s, hreachable, accounted hreachable, hstarted⟩

end Yuviz.Campaigns
