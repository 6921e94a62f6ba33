import Mathlib
import Yuviz.Campaigns.Worker

/-!
# The steps of the worker

What each label does (`Step`). Most steps of a tick change nothing but what the
tick is about to do (`Moves`).
-/

namespace Yuviz.Campaigns

open Python (Dict)

variable (campaigns : ℕ → Campaign)

/-- A tick goes on, and nothing else happens. -/
inductive Moves (s : State) (t : ℕ) (task : Task) : Label → Pc → Prop
  | skip (now : ℤ) (withinHours : Bool) (hpc : task.pc = .fetched) :
    Moves s t task (.start t now withinHours) .done
  /-- The counter is read, and below the cap. -/
  | start (now : ℤ) (withinHours : Bool) (hpc : task.pc = .fetched)
      (hcap : (s.inFlight.get? task.campaignId).getD 0 <
        (campaigns task.campaignId).maxConcurrentCalls) :
    Moves s t task (.start t now withinHours)
      (.select ((s.inFlight.get? task.campaignId).getD 0) now)
  | found (n : ℕ) (now : ℤ) (k : ℕ) (hpc : task.pc = .select n now)
      (hpending : s.isPending task.campaignId k = true) (hfree : s.isLocked k = false) :
    Moves s t task (.select t (some k)) (.claim n now k)
  | notFound (n : ℕ) (now : ℤ) (hpc : task.pc = .select n now)
      (hnone : ∀ k, s.isPending task.campaignId k = true → s.isLocked k = true) :
    Moves s t task (.select t none) .progress
  | allDone (hpc : task.pc = .progress) (hcalling : s.calling task.campaignId = 0) :
    Moves s t task (.progress t) .complete
  | notDone (hpc : task.pc = .progress) : Moves s t task (.progress t) .done
  | blocked (n : ℕ) (now : ℤ) (j : ℕ) (e : Entry) (hpc : task.pc = .isBlocked n now j e) :
    Moves s t task (.isBlocked t true) (.block j e)
  | failed (j : ℕ) (e : Entry) (r : Reply) (hpc : task.pc = .reply j e) (hr : r ≠ .jobUuid) :
    Moves s t task (.reply t r) (.resolve j e (e.retry .failed))
  | raise (hpc : task.pc ≠ .done) : Moves s t task (.fail t) .done

inductive Step (s : State) : Label → State → Prop
  | fetch (c : ℕ) (hrunning : s.status.get? c = some .running) :
    Step s (.fetch c) { s with tasks := s.tasks ++ [⟨c, .fetched⟩] }
  | move (l : Label) (t : ℕ) (task : Task) (pc : Pc) (ht : s.tasks[t]? = some task)
      (hm : Moves campaigns s t task l pc) : Step s l (s.goto t task pc)
  | claim (t : ℕ) (task : Task) (n : ℕ) (now : ℤ) (k : ℕ) (contact : ContactRow) (e : Entry)
      (ht : s.tasks[t]? = some task) (hpc : task.pc = .claim n now k)
      (hk : s.contacts[k]? = some contact)
      (he : e = ⟨task.campaignId, k, (campaigns task.campaignId).maxAttempts,
        contact.attemptCount + 1⟩) :
    Step s (.claim t)
      { s.goto t task (.isBlocked n now s.attempts.length e) with
        contacts := s.contacts.set k contact.claim
        attempts := s.attempts ++ [⟨e, none, false⟩] }
  | complete (t : ℕ) (task : Task) (ht : s.tasks[t]? = some task) (hpc : task.pc = .complete) :
    Step s (.complete t)
      { s.goto t task .done with status := s.status.set task.campaignId .completed }
  | dial (t : ℕ) (task : Task) (n : ℕ) (now : ℤ) (j : ℕ) (e : Entry) (ht : s.tasks[t]? = some task)
      (hpc : task.pc = .isBlocked n now j e) :
    Step s (.isBlocked t false)
      { (s.setCall j .unplaced).goto t task (.originate j e) with
        lastAttemptAt := s.lastAttemptAt.set task.campaignId now
        inFlight := s.inFlight.set task.campaignId (n + 1) }
  | block (t : ℕ) (task : Task) (j : ℕ) (e : Entry) (ht : s.tasks[t]? = some task)
      (hpc : task.pc = .block j e) :
    Step s (.block t) ((s.mark j e .blocked none).goto t task .done)
  | originate (t : ℕ) (task : Task) (j : ℕ) (e : Entry) (accepted : Bool)
      (ht : s.tasks[t]? = some task) (hpc : task.pc = .originate j e) :
    Step s (.originate t accepted)
      ((s.setCall j (if accepted then .up else .unplaced)).goto t task (.reply j e))
  | reply (t : ℕ) (task : Task) (j : ℕ) (e : Entry) (ht : s.tasks[t]? = some task)
      (hpc : task.pc = .reply j e) (hplaced : s.isPlaced j = true) :
    Step s (.reply t .jobUuid)
      { s.goto t task .done with jobToContact := s.jobToContact.set j e }
  | resolve (t : ℕ) (task : Task) (j : ℕ) (e : Entry) (status : ContactStatus)
      (ht : s.tasks[t]? = some task) (hpc : task.pc = .resolve j e status) :
    Step s (.resolve t) (((s.mark j e status none).release e.campaignId).goto t task .done)
  | ignore (e : Event) (events : List Event) (hl : s.listener = .idle) (he : s.events = e :: events)
      (hnone : s.jobToContact.get? e.job = none) : Step s .event { s with events := events }
  | event (e : Event) (events : List Event) (entry : Entry) (hl : s.listener = .idle)
      (he : s.events = e :: events) (hentry : s.jobToContact.get? e.job = some entry) :
    Step s .event
      { s with
        events := events
        jobToContact := s.jobToContact.del e.job
        listener := .resolve e.job entry (entry.resolution e.succeeded e.detail)
          (callSessionId e.succeeded e.detail) }
  | eventDone (j : ℕ) (e : Entry) (status : ContactStatus) (sid : Option String)
      (hl : s.listener = .resolve j e status sid) :
    Step s .eventDone { (s.mark j e status sid).release e.campaignId with listener := .idle }
  | drop (hl : s.isListening = true) :
    Step s .drop
      { s with
        listener := .down
        events := [] }
  | endOfStream (hl : s.listener = .idle) :
    Step s .endOfStream
      { s with
        listener := .spinning
        events := [] }
  | reconnect (hl : s.listener = .down) : Step s .reconnect { s with listener := .idle }
  | hangup (j : ℕ) (succeeded : Bool) (detail : String) (a : Attempt)
      (ha : s.attempts[j]? = some a) (hup : a.call = some .up) :
    Step s (.hangup j succeeded detail)
      { s.setCall j (.ended succeeded) with
        events := if s.isListening then s.events ++ [⟨j, succeeded, detail⟩] else s.events }
  | upload (c : ℕ) (phoneNumbers : List String) :
    Step s (.upload c phoneNumbers)
      { s with contacts := s.contacts ++ phoneNumbers.map (ContactRow.ofUpload c) }
  | setStatus (c : ℕ) (status : CampaignStatus) :
    Step s (.setStatus c status) { s with status := s.status.set c status }
  | restart :
    Step s .restart
      { s with
        tasks := []
        lastAttemptAt := []
        inFlight := []
        jobToContact := []
        listener := .down
        events := [] }

variable {campaigns} {s s' : State}

theorem State.getElem?_of_task? {t : ℕ} {task : Task} (h : s.task? t = some task) :
    s.tasks[t]? = some task := by
  rw [State.task?] at h
  split_ifs at h
  exact h

/-- A tick reads the counter of its campaign, or is over. -/
theorem State.step_start {t : ℕ} {task : Task} {now : ℤ} {withinHours : Bool}
    (ht : s.tasks[t]? = some task) (h : s.start campaigns t task now withinHours = some s') :
    Step campaigns s (.start t now withinHours) s' := by
  simp only [State.start] at h
  split at h
  · rename_i hpc
    have hskip : Step campaigns s (.start t now withinHours) (s.goto t task .done) :=
      .move _ t task _ ht (.skip now withinHours hpc)
    split_ifs at h with hpacing hcap hcaller hhours
    · exact Option.some.inj h ▸ hskip
    · exact Option.some.inj h ▸ hskip
    · exact Option.some.inj h ▸ hskip
    · exact Option.some.inj h ▸ hskip
    · exact Option.some.inj h ▸ .move _ t task _ ht (.start now withinHours hpc (not_le.1 hcap))
  · exact absurd h (by simp)

/-- A row that is selected is pending and free, and none is if there is none. -/
theorem State.step_select {t : ℕ} {task : Task} {row : Option ℕ} (ht : s.tasks[t]? = some task)
    (h : s.select t task row = some s') : Step campaigns s (.select t row) s' := by
  simp only [State.select] at h
  split at h
  · rename_i n now hpc
    split at h
    · rename_i k
      split_ifs at h with hfound
      rw [Bool.and_eq_true, Bool.not_eq_true'] at hfound
      exact Option.some.inj h ▸ .move _ t task _ ht (.found n now k hpc hfound.1 hfound.2)
    · split_ifs at h with hnone
      refine Option.some.inj h ▸ .move _ t task _ ht (.notFound n now hpc fun k hk => ?_)
      -- A pending contact is one of the rows, so it is among those that are locked.
      have hlt : k < s.contacts.length := by
        obtain ⟨contact, hcontact, -⟩ := (Option.any_eq_true _ _).1 hk
        exact (List.getElem?_eq_some_iff.1 hcontact).1
      have := List.all_eq_true.1 hnone k (List.mem_range.2 hlt)
      simpa [hk] using this
  · exact absurd h nofun

/-- Whatever happens is one of the steps. -/
theorem State.step_cases {l : Label} (h : s.step campaigns l = some s') :
    Step campaigns s l s' := by
  cases l with
  | fetch c =>
    simp only [State.step] at h
    split_ifs at h with hc
    exact Option.some.inj h ▸ .fetch c hc.2
  | start t now withinHours =>
    obtain ⟨task, ht, h⟩ := Option.bind_eq_some_iff.1 h
    exact State.step_start (State.getElem?_of_task? ht) h
  | select t row =>
    obtain ⟨task, ht, h⟩ := Option.bind_eq_some_iff.1 h
    exact State.step_select (State.getElem?_of_task? ht) h
  | claim t =>
    obtain ⟨task, ht, h⟩ := Option.bind_eq_some_iff.1 h
    simp only [State.claim] at h
    split at h
    · rename_i n now k hpc
      obtain ⟨contact, hk, rfl⟩ := Option.map_eq_some_iff.1 h
      exact .claim t task n now k contact _ (State.getElem?_of_task? ht) hpc hk rfl
    · exact absurd h (by simp)
  | progress t =>
    obtain ⟨task, ht, h⟩ := Option.bind_eq_some_iff.1 h
    have ht := State.getElem?_of_task? ht
    simp only [State.progress] at h
    split at h
    · rename_i hpc
      split_ifs at h with hcalling
      · exact Option.some.inj h ▸ .move _ t task _ ht (.allDone hpc hcalling)
      · exact Option.some.inj h ▸ .move _ t task _ ht (.notDone hpc)
    · exact absurd h (by simp)
  | complete t =>
    obtain ⟨task, ht, h⟩ := Option.bind_eq_some_iff.1 h
    simp only [State.complete] at h
    split at h
    · rename_i hpc
      exact Option.some.inj h ▸ .complete t task (State.getElem?_of_task? ht) hpc
    · exact absurd h (by simp)
  | isBlocked t blocked =>
    obtain ⟨task, ht, h⟩ := Option.bind_eq_some_iff.1 h
    have ht := State.getElem?_of_task? ht
    simp only [State.isBlocked] at h
    split at h
    · rename_i n now j e hpc
      obtain rfl := Option.some.inj h
      cases blocked with
      | true => exact .move _ t task _ ht (.blocked n now j e hpc)
      | false => exact .dial t task n now j e ht hpc
    · exact absurd h (by simp)
  | block t =>
    obtain ⟨task, ht, h⟩ := Option.bind_eq_some_iff.1 h
    simp only [State.block] at h
    split at h
    · rename_i j e hpc
      exact Option.some.inj h ▸ .block t task j e (State.getElem?_of_task? ht) hpc
    · exact absurd h (by simp)
  | originate t accepted =>
    obtain ⟨task, ht, h⟩ := Option.bind_eq_some_iff.1 h
    simp only [State.originate] at h
    split at h
    · rename_i j e hpc
      exact Option.some.inj h ▸ .originate t task j e accepted (State.getElem?_of_task? ht) hpc
    · exact absurd h (by simp)
  | reply t r =>
    obtain ⟨task, ht, h⟩ := Option.bind_eq_some_iff.1 h
    have ht := State.getElem?_of_task? ht
    simp only [State.reply] at h
    split at h
    · rename_i j e hpc
      split_ifs at h with hunplaced hr
      · rw [hr] at hunplaced ⊢
        exact Option.some.inj h ▸ .reply t task j e ht hpc (by simpa using hunplaced)
      · exact Option.some.inj h ▸ .move _ t task _ ht (.failed j e r hpc hr)
    · exact absurd h (by simp)
  | resolve t =>
    obtain ⟨task, ht, h⟩ := Option.bind_eq_some_iff.1 h
    simp only [State.resolve] at h
    split at h
    · rename_i j e status hpc
      exact Option.some.inj h ▸ .resolve t task j e status (State.getElem?_of_task? ht) hpc
    · exact absurd h (by simp)
  | fail t =>
    obtain ⟨task, ht, h⟩ := Option.bind_eq_some_iff.1 h
    simp only [State.fail] at h
    split at h
    · exact absurd h (by simp)
    · exact absurd h (by simp)
    · rename_i hpc
      exact Option.some.inj h ▸ .move _ t task _ (State.getElem?_of_task? ht) (.raise hpc)
  | event =>
    simp only [State.step, State.event] at h
    split at h
    · rename_i e events hl he
      obtain rfl := Option.some.inj h
      split
      · rename_i hnone
        exact .ignore e events hl he hnone
      · rename_i entry hentry
        exact .event e events entry hl he hentry
    · exact absurd h (by simp)
  | eventDone =>
    simp only [State.step, State.eventDone] at h
    split at h
    · rename_i j e status sid hl
      exact Option.some.inj h ▸ .eventDone j e status sid hl
    · exact absurd h (by simp)
  | drop =>
    simp only [State.step, State.drop] at h
    split at h
    · rename_i hl
      exact Option.some.inj h ▸ .drop (by simp [State.isListening, hl])
    · rename_i hl
      exact Option.some.inj h ▸ .drop (by simp [State.isListening, hl])
    · exact absurd h (by simp)
  | endOfStream =>
    simp only [State.step, State.endOfStream] at h
    split at h
    · rename_i hl
      exact Option.some.inj h ▸ .endOfStream hl
    · exact absurd h (by simp)
  | reconnect =>
    simp only [State.step] at h
    split_ifs at h with hl
    exact Option.some.inj h ▸ .reconnect hl
  | hangup j succeeded detail =>
    simp only [State.step, State.hangup] at h
    split at h
    · rename_i hup
      obtain ⟨a, ha, hup⟩ := Option.bind_eq_some_iff.1 hup
      exact Option.some.inj h ▸ .hangup j succeeded detail a ha hup
    · exact absurd h (by simp)
  | upload c phoneNumbers => exact Option.some.inj h ▸ .upload c phoneNumbers
  | setStatus c status => exact Option.some.inj h ▸ .setStatus c status
  | restart => exact Option.some.inj h ▸ .restart

end Yuviz.Campaigns
