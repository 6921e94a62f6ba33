import Mathlib
import Yuviz.Campaigns.Worker.InTurn

/-!
# Who will close an attempt

An open attempt is held (`State.Held`) when a tick is at it, when the listener
is, or when its job is in the map and its event is still to be read. A step
keeps it held (`Held.step`) unless it is one that loses it: an exception, an
event that nobody reads or finds in the map, or the end of the process
(`State.Keeps`).
-/

namespace Yuviz.Campaigns

open Python (Dict)

variable {campaigns : ℕ → Campaign} {s s' : State} {i j k : ℕ} {l : Label}

/-- The attempt the listener is at. -/
def Listener.job? : Listener → Option ℕ
  | .resolve j _ _ _ => some j
  | _ => none

/-- The attempt the tick is at. -/
def State.jobAt (s : State) (t : ℕ) : Option ℕ := (s.tasks[t]?).bind Task.job?

/-- The call goes on, or the listener has still to read that it has ended. -/
def State.Awaits (s : State) (j : ℕ) : Prop :=
  s.call j = some .up ∨ ∃ ev ∈ s.events, ev.job = j

structure State.Held (s : State) (j : ℕ) : Prop where
  held : (∃ t, s.jobAt t = some j) ∨ s.listener.job? = some j ∨
    s.jobToContact.get? j ≠ none ∧ s.Awaits j

/-- The step does not lose the attempt, if it is held. -/
def State.Keeps (s : State) (j : ℕ) : Label → Prop
  | .reply t .jobUuid => s.jobAt t = some j → s.Awaits j
  | .fail t => s.jobAt t ≠ some j
  | .drop => s.listener.job? ≠ some j ∧ (s.jobToContact.get? j = none ∨ s.call j = some .up)
  | .hangup i _ _ => i = j → s.isListening = true ∨ s.jobToContact.get? j = none
  | .endOfStream | .restart => False
  | _ => True

instance (s : State) (j : ℕ) : Decidable (s.Awaits j) :=
  inferInstanceAs (Decidable (_ ∨ ∃ ev ∈ s.events, ev.job = j))

instance (s : State) (j : ℕ) : DecidablePred (s.Keeps j)
  | .reply _ .jobUuid => inferInstanceAs (Decidable (_ = some j → s.Awaits j))
  | .fail _ => inferInstanceAs (Decidable (_ ≠ some j))
  | .drop => inferInstanceAs (Decidable (_ ≠ some j ∧ (_ = none ∨ _ = some Call.up)))
  | .hangup i _ _ => inferInstanceAs (Decidable (i = j → _ = true ∨ _ = none))
  | .endOfStream | .restart => inferInstanceAs (Decidable False)
  | .fetch _ | .start _ _ _ | .select _ _ | .claim _ | .progress _ | .complete _ | .isBlocked _ _
  | .block _ | .originate _ _ | .reply _ .noJobUuid | .reply _ .error | .resolve _ | .event
  | .eventDone | .reconnect | .upload _ _ | .setStatus _ _ => inferInstanceAs (Decidable True)

theorem jobAt_eq_some {t : ℕ} : s.jobAt t = some j ↔
    ∃ task, s.tasks[t]? = some task ∧ task.job? = some j := Option.bind_eq_some_iff

theorem State.Held.of_task {t : ℕ} {task : Task} (ht : s.tasks[t]? = some task)
    (hjob : task.job? = some j) : s.Held j := ⟨.inl ⟨t, jobAt_eq_some.2 ⟨task, ht, hjob⟩⟩⟩

/-- A tick goes on, and stays at its attempt. -/
theorem State.Held.goto (hj : s.Held j) {t : ℕ} {task : Task} {pc : Pc}
    (ht : s.tasks[t]? = some task) (htasks : s'.tasks = s.tasks.set t { task with pc := pc })
    (hlistener : s'.listener = s.listener) (hjobs : s'.jobToContact = s.jobToContact)
    (hjob : task.job? = some j → pc.attempt?.map Prod.fst = some j)
    (hawaits : s.Awaits j → s'.Awaits j) : s'.Held j := by
  have hlt := (List.getElem?_eq_some_iff.1 ht).1
  rcases hj.held with ⟨u, hu⟩ | hl | ⟨hmap, hev⟩
  · obtain ⟨other, hu, hother⟩ := jobAt_eq_some.1 hu
    rcases eq_or_ne u t with rfl | hne
    · obtain rfl := Option.some.inj (ht.symm.trans hu)
      have hu' : s'.tasks[u]? = some { task with pc := pc } := by
        rw [htasks, List.getElem?_set_self hlt]
      exact .of_task hu' (hjob hother)
    · exact .of_task (by rw [htasks, List.getElem?_set_ne hne.symm, hu]) hother
  · exact ⟨.inr (.inl (hlistener ▸ hl))⟩
  · exact ⟨.inr (.inr ⟨hjobs ▸ hmap, hawaits hev⟩)⟩

/-- The ticks stay as they are. -/
theorem State.Held.keep (hj : s.Held j) (htasks : s'.tasks = s.tasks)
    (hl : s.listener.job? = some j → s'.Held j)
    (hmap : s.jobToContact.get? j ≠ none → s.Awaits j → s'.Held j) : s'.Held j := by
  rcases hj.held with ⟨t, ht⟩ | hlistener | ⟨hget, hev⟩
  · exact ⟨.inl ⟨t, by rwa [State.jobAt, htasks]⟩⟩
  · exact hl hlistener
  · exact hmap hget hev

theorem Moves.job? {t : ℕ} {task : Task} {pc : Pc} (hm : Moves campaigns s t task l pc)
    (ht : s.tasks[t]? = some task) (hkeep : s.Keeps j l) (hjob : task.job? = some j) :
    pc.attempt?.map Prod.fst = some j := by
  rw [Task.job?] at hjob
  cases hm with
  | blocked n now j' e hpc => rwa [hpc] at hjob
  | failed j' e r hpc hr => rwa [hpc] at hjob
  | raise hpc => exact absurd (jobAt_eq_some.2 ⟨task, ht, hjob⟩) hkeep
  | skip _ _ hpc | start _ _ hpc _ | found _ _ _ hpc _ _ | notFound _ _ hpc _ | allDone hpc _
  | notDone hpc =>
    rw [hpc] at hjob
    exact absurd hjob (by rintro ⟨⟩)

/-- An attempt that is open is not the one that has been closed. -/
theorem ne_of_open_mark {e : Entry} {b : Bool} (hattempts : s'.attempts =
      s.attempts.modify i fun attempt => { attempt with closed := true })
    (hopen : s'.Open j e b) : j ≠ i := by
  rintro rfl
  obtain ⟨a, ha, -, hclosed, -⟩ := hopen
  rw [hattempts, List.getElem?_modify] at ha
  obtain ⟨a', -, rfl⟩ := Option.map_eq_some_iff.1 ha
  exact absurd hclosed (by simp)

theorem State.Open.of_modify {f : Attempt → Attempt} {e : Entry} {b : Bool}
    (hattempts : s'.attempts = s.attempts.modify i f) (hne : j ≠ i) (hopen : s'.Open j e b) :
    s.Open j e b := by
  obtain ⟨a, ha, hrest⟩ := hopen
  rw [hattempts, List.getElem?_modify_ne _ _ hne.symm] at ha
  exact ⟨a, ha, hrest⟩

theorem State.Held.step (hj : s.Held j) (h : Wf campaigns s) (hk : Tracked s)
    (hst : Step campaigns s l s') (hkeep : s.Keeps j l) {e : Entry} {b : Bool}
    (hopen : s'.Open j e b) : s'.Held j := by
  cases hst with
  | fetch c hrunning =>
    rcases hj.held with ⟨t, ht⟩ | hl | hmap
    · obtain ⟨task, ht, hjob⟩ := jobAt_eq_some.1 ht
      have hlt := (List.getElem?_eq_some_iff.1 ht).1
      exact .of_task ((List.getElem?_append_left hlt).trans ht) hjob
    · exact ⟨.inr (.inl hl)⟩
    · exact ⟨.inr (.inr hmap)⟩
  | move l t task pc ht hm => exact hj.goto ht rfl rfl rfl (hm.job? ht hkeep) fun h => h
  | claim t task n now k contact e ht hpc hrow he =>
    refine hj.goto ht rfl rfl rfl ?_ fun hev => hev.imp_left (Eq.trans (call_append rfl rfl))
    intro hjob
    rw [Task.job?, hpc] at hjob
    exact absurd hjob (by rintro ⟨⟩)
  | complete t task ht hpc =>
    refine hj.goto ht rfl rfl rfl ?_ fun h => h
    intro hjob
    rw [Task.job?, hpc] at hjob
    exact absurd hjob (by rintro ⟨⟩)
  | dial t task n now i e' ht hpc =>
    have hatt : task.pc.attempt? = some (i, e', false) := by rw [hpc, Pc.attempt?]
    have hi := h.attempts_ne_none ht hatt
    refine hj.goto ht rfl rfl rfl ?_ fun hev => hev.imp_left fun hup => ?_
    · intro hjob
      rwa [Task.job?, hpc] at hjob
    · -- The attempt that is dialled has not been before.
      refine Eq.trans (call_setCall hi rfl) ((if_neg ?_).trans hup)
      rintro rfl
      have := State.call_eq_of_open (h.tasks t task j e' false ht hatt).1
      rw [hup] at this
      exact absurd this (by simp)
  | block t task i e' ht hpc =>
    have hne := ne_of_open_mark rfl hopen
    refine hj.goto ht rfl rfl rfl ?_ fun hev => hev.imp_left (Eq.trans (call_mark rfl))
    intro hjob
    rw [Task.job?, hpc] at hjob
    exact absurd (Option.some.inj hjob).symm hne
  | originate t task i e' accepted ht hpc =>
    have hatt : task.pc.attempt? = some (i, e', true) := by rw [hpc, Pc.attempt?]
    have hi := h.attempts_ne_none ht hatt
    refine hj.goto ht rfl rfl rfl ?_ fun hev => hev.imp_left fun hup => ?_
    · intro hjob
      rwa [Task.job?, hpc] at hjob
    · refine Eq.trans (call_setCall hi rfl) ((if_neg ?_).trans hup)
      rintro rfl
      exact absurd ((hk.originating t task j e' ht hpc).symm.trans hup) (by simp)
  | reply t task i e' ht hpc hplaced =>
    have hjobAt : s.jobAt t = some i :=
      jobAt_eq_some.2 ⟨task, ht, by rw [Task.job?, hpc]; rfl⟩
    rcases eq_or_ne j i with rfl | hne
    · -- The map takes the attempt over from the tick.
      refine ⟨.inr (.inr ⟨?_, hkeep hjobAt⟩)⟩
      rw [Dict.get?_set, if_pos rfl]
      simp
    · have hlt := (List.getElem?_eq_some_iff.1 ht).1
      rcases hj.held with ⟨u, hu⟩ | hl | ⟨hmap, hev⟩
      · obtain ⟨other, hu, hother⟩ := jobAt_eq_some.1 hu
        have hut : u ≠ t := by
          rintro rfl
          have := hjobAt.symm.trans (jobAt_eq_some.2 ⟨other, hu, hother⟩)
          exact hne (Option.some.inj this).symm
        exact .of_task ((List.getElem?_set_ne hut.symm).trans hu) hother
      · exact ⟨.inr (.inl hl)⟩
      · refine ⟨.inr (.inr ⟨?_, hev⟩)⟩
        rwa [Dict.get?_set, if_neg hne]
  | resolve t task i e' status ht hpc =>
    have hne := ne_of_open_mark rfl hopen
    refine hj.goto ht rfl rfl rfl ?_ fun hev => hev.imp_left (Eq.trans (call_mark rfl))
    intro hjob
    rw [Task.job?, hpc] at hjob
    exact absurd (Option.some.inj hjob).symm hne
  | ignore ev events hl he hnone =>
    refine hj.keep rfl (fun hlj => ⟨.inr (.inl hlj)⟩) fun hmap hev => ?_
    refine ⟨.inr (.inr ⟨hmap, hev.imp_right ?_⟩)⟩
    rintro ⟨ev', hev', rfl⟩
    rcases List.mem_cons.1 (he ▸ hev') with rfl | hev'
    · exact absurd hnone hmap
    · exact ⟨ev', hev', rfl⟩
  | event ev events entry hl he hentry =>
    refine hj.keep rfl ?_ fun hmap hev => ?_
    · intro hlj
      rw [hl] at hlj
      exact absurd hlj (by rintro ⟨⟩)
    · -- The listener takes over the attempt the event is of.
      rcases eq_or_ne j ev.job with rfl | hne
      · exact ⟨.inr (.inl rfl)⟩
      · refine ⟨.inr (.inr ⟨by rwa [Dict.get?_del_ne hne], hev.imp_right ?_⟩)⟩
        rintro ⟨ev', hev', rfl⟩
        rcases List.mem_cons.1 (he ▸ hev') with rfl | hev'
        · exact absurd rfl hne
        · exact ⟨ev', hev', rfl⟩
  | eventDone i e' status sid hl =>
    have hne := ne_of_open_mark rfl hopen
    refine hj.keep rfl ?_ fun hmap hev => ?_
    · intro hlj
      rw [hl] at hlj
      exact absurd (Option.some.inj hlj).symm hne
    · exact ⟨.inr (.inr ⟨hmap, hev.imp_left (Eq.trans (call_mark rfl))⟩)⟩
  | drop hl =>
    refine hj.keep rfl (fun hlj => absurd hlj hkeep.1) fun hmap _ => ?_
    exact ⟨.inr (.inr ⟨hmap, .inl (hkeep.2.resolve_left hmap)⟩)⟩
  | endOfStream hl => exact hkeep.elim
  | reconnect hl =>
    refine hj.keep rfl ?_ fun hmap hev => ⟨.inr (.inr ⟨hmap, hev⟩)⟩
    intro hlj
    rw [hl] at hlj
    exact absurd hlj (by rintro ⟨⟩)
  | hangup i succeeded detail a ha hup =>
    have hi : s.attempts[i]? ≠ none := Option.ne_none_iff_exists'.2 ⟨a, ha⟩
    refine hj.keep rfl (fun hlj => ⟨.inr (.inl hlj)⟩) fun hmap hev => ?_
    refine ⟨.inr (.inr ⟨hmap, ?_⟩)⟩
    rcases eq_or_ne i j with rfl | hne
    · have hlistening := (hkeep rfl).resolve_right hmap
      exact .inr ⟨⟨i, succeeded, detail⟩, by simp [hlistening], rfl⟩
    · refine hev.imp (fun hup => ?_) fun hqueued => ?_
      · exact Eq.trans (call_setCall hi rfl) ((if_neg hne.symm).trans hup)
      · obtain ⟨ev, hev, heq⟩ := hqueued
        refine ⟨ev, ?_, heq⟩
        dsimp only
        split_ifs
        · exact List.mem_append_left _ hev
        · exact hev
  | upload c phoneNumbers => exact ⟨hj.held⟩
  | setStatus c status => exact ⟨hj.held⟩
  | restart => exact hkeep.elim

/-- An attempt that is open has been before, or its tick is at it. -/
theorem Step.open_or_held (hst : Step campaigns s l s') {e : Entry} {b : Bool}
    (hopen : s'.Open j e b) : s.Open j e b ∨ s'.Held j := by
  -- The attempt the tick is at gets a call.
  have hsetCall {t : ℕ} {task : Task} {i : ℕ} {e' : Entry} {b' : Bool} {c : Call} {pc : Pc}
      (ht : s.tasks[t]? = some task) (hatt : task.pc.attempt? = some (i, e', b'))
      (hpc : pc.attempt?.map Prod.fst = some i)
      (htasks : s'.tasks = s.tasks.set t { task with pc := pc })
      (hattempts : s'.attempts = (s.setCall i c).attempts) : s.Open j e b ∨ s'.Held j := by
    rcases eq_or_ne j i with rfl | hne
    · have hlt := (List.getElem?_eq_some_iff.1 ht).1
      have ht' : s'.tasks[t]? = some { task with pc := pc } := by
        rw [htasks, List.getElem?_set_self hlt]
      exact .inr (.of_task ht' hpc)
    · exact .inl (hopen.of_modify hattempts hne)
  have hmark {i : ℕ} (hattempts : s'.attempts =
      s.attempts.modify i fun attempt => { attempt with closed := true }) : s.Open j e b :=
    hopen.of_modify hattempts (ne_of_open_mark hattempts hopen)
  cases hst with
  | claim t task n now k contact e' ht hpc hrow he =>
    obtain ⟨a, ha, hrest⟩ := hopen
    rcases getElem?_concat_attempt ha with ⟨rfl, -⟩ | ha
    · have hlt := (List.getElem?_eq_some_iff.1 ht).1
      exact .inr (.of_task (List.getElem?_set_self hlt) rfl)
    · exact .inl ⟨a, ha, hrest⟩
  | dial t task n now i e' ht hpc => exact hsetCall ht (by rw [hpc, Pc.attempt?]) rfl rfl rfl
  | originate t task i e' accepted ht hpc =>
    exact hsetCall ht (by rw [hpc, Pc.attempt?]) rfl rfl rfl
  | block t task i e' ht hpc => exact .inl (hmark rfl)
  | resolve t task i e' status ht hpc => exact .inl (hmark rfl)
  | eventDone i e' status sid hl => exact .inl (hmark rfl)
  | hangup i succeeded detail a ha hup =>
    rcases eq_or_ne j i with rfl | hne
    · obtain ⟨x, hx, hentry, hclosed, hcall⟩ := hopen
      obtain ⟨a', ha', rfl⟩ := Option.map_eq_some_iff.1 ((List.getElem?_modify_eq ..).symm.trans hx)
      obtain rfl := Option.some.inj (ha.symm.trans ha')
      exact .inl ⟨a, ha, hentry, hclosed, by rw [hup, ← hcall]; rfl⟩
    · exact .inl (hopen.of_modify rfl hne)
  | _ => exact .inl hopen

/-- The open attempts of a kind are held as long as no step loses one of them. -/
theorem held_step {P : Bool → Prop} (hall : ∀ j e b, P b → s.Open j e b → s.Held j)
    (h : Wf campaigns s) (hk : Tracked s) (hst : Step campaigns s l s')
    (hkeep : ∀ j e b, P b → s.Open j e b → s.Keeps j l) {e : Entry} {b : Bool} (hb : P b)
    (hopen : s'.Open j e b) : s'.Held j := by
  rcases hst.open_or_held hopen with hopen' | hheld
  · exact (hall j e b hb hopen').step h hk hst (hkeep j e b hb hopen') hopen
  · exact hheld

end Yuviz.Campaigns
