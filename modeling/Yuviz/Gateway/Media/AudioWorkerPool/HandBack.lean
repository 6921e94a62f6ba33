import Mathlib
import Yuviz.Gateway.Media.AudioWorkerPool

/-!
# Sessions that are handed back

The invariant of the pool has a part for what every worker has of its copy of the
list (`Worker.Sound`), and a part for the lists and the calls about sessions
(`Listed`). An entry a worker has seen is that of a session in the pool, or is removed.
-/

namespace Yuviz.Gateway.AudioWorkerPool

variable {n m : ℕ} {S : Type*}

/-- The entries a worker will look at. -/
def Worker.seen : Worker S → List (Entry S)
  | iterating rest _ | starting _ rest | draining _ rest | reporting _ rest | leaving _ rest _ =>
    rest
  | probing entry rest _ | locking entry rest _ | locked entry rest _ => entry :: rest
  | checking | snapshotting | returned => []

/-- The entry a worker has found not removed, when it had the mutex. -/
def Worker.inside : Worker S → Option (Entry S)
  | starting entry _ | draining entry _ | reporting entry _ => some entry
  | _ => none

/-- The entry whose mutex a worker has. -/
def Worker.holds : Worker S → Option (Entry S)
  | locked entry _ _ | starting entry _ | draining entry _ | reporting entry _
  | leaving entry _ _ => some entry
  | _ => none

/-- The entry that `unassign` has taken out of its list. -/
def Caller.unassigning : Caller n S → Option (Entry S)
  | found entry | waiting entry | barrier entry => some entry
  | _ => none

theorem Worker.holds_of_inside {worker : Worker S} {entry : Entry S}
    (h : worker.inside = some entry) : worker.holds = some entry := by
  cases worker <;> first | exact h | cases h

theorem Worker.inside_of_drained {worker : Worker S} {session : S}
    (h : worker.drained = some session) :
    ∃ entry, worker.inside = some entry ∧ entry.session = session := by
  cases worker with
  | draining entry rest => exact ⟨entry, rfl, Option.some.inj h⟩
  | _ => cases h

theorem Caller.session_of_unassigning {caller : Caller n S} {entry : Entry S}
    (h : caller.unassigning = some entry) : caller.session = some entry.session := by
  cases caller with
  | found _ | waiting _ | barrier _ =>
    obtain rfl := Option.some.inj h
    rfl
  | _ => cases h

variable [DecidableEq S]

section

variable {log : List (Event n S)} {entry : Entry S} {session : S} {w : Fin n} {method : Method}

@[simp] theorem current_nil : current ([] : List (Event n S)) = fun _ => none := rfl

@[simp] theorem current_assigned : current (log ++ [.assigned entry]) =
    Function.update (current log) entry.session (some entry) := by
  rw [current, List.foldl_append]
  rfl

@[simp] theorem current_unassigned : current (log ++ [.unassigned session]) =
    Function.update (current log) session none := by
  rw [current, List.foldl_append]
  rfl

@[simp] theorem current_called :
    current (log ++ [.called w session method]) = current log := by
  rw [current, List.foldl_append]
  rfl

end

/-! ### The workers -/

/-- The entry is of a session in the pool. -/
def Current (s : AudioWorkerPool n m S) (entry : Entry S) : Prop :=
  current s.log entry.session = some entry

structure Worker.Sound (s : AudioWorkerPool n m S) (w : Fin n) (worker : Worker S) : Prop where
  seen : ∀ entry ∈ worker.seen, s.Current entry ∨ entry ∈ s.removed
  inside : ∀ entry, worker.inside = some entry → s.Current entry
  holds : ∀ entry, worker.holds = some entry → s.drain entry = some (.worker w)

variable {s s' : AudioWorkerPool n m S} {w : Fin n} {result : Bool}

theorem Worker.Sound.setWorker {worker : Worker S} (h : worker.Sound s w) :
    ((s.setWorker w worker).workers w).Sound (s.setWorker w worker) w := by
  have hworker : (s.setWorker w worker).workers w = worker := Function.update_self ..
  rw [hworker]
  exact ⟨h.seen, h.inside, h.holds⟩

/-- A call of a method is nothing to what the worker has. -/
theorem Worker.Sound.record {worker : Worker S} {session : S} {method : Method}
    (h : worker.Sound s w) : worker.Sound (s.record (.called w session method)) w := by
  have hcurrent : current (s.record (.called w session method)).log = current s.log :=
    current_called
  obtain ⟨hseen, hinside, hholds⟩ := h
  simp only [Current, ← hcurrent] at hseen hinside
  exact ⟨hseen, hinside, hholds⟩

/-- What a step of a worker does to the rest of the pool. -/
structure WorkerStep (s s' : AudioWorkerPool n m S) (w : Fin n) : Prop where
  sessions : s'.sessions = s.sessions
  removed : s'.removed = s.removed
  callers : s'.callers = s.callers
  entries : s'.entries = s.entries
  current : current s'.log = current s.log
  workers : ∀ v, v ≠ w → s'.workers v = s.workers v
  drain : ∀ entry holder, holder ≠ .worker w →
    s.drain entry = some holder → s'.drain entry = some holder

theorem WorkerStep.setWorker {worker : Worker S} (h : WorkerStep s s' w) :
    WorkerStep s (s'.setWorker w worker) w :=
  { h with workers := fun v hv => (Function.update_of_ne hv _ _).trans (h.workers v hv) }

theorem WorkerStep.refl : WorkerStep s s w :=
  ⟨rfl, rfl, rfl, rfl, rfl, fun _ _ => rfl, fun _ _ _ h => h⟩

theorem WorkerStep.record {session : S} {method : Method} :
    WorkerStep s (s.record (.called w session method)) w :=
  { WorkerStep.refl with current := current_called }

/-- A mutex that is free, or another's than the owner's, changes hands. -/
theorem drain_setDrain {entry e : Entry S} {holder : Option (Holder n m)} {owner : Holder n m}
    (h : s.drain entry = none ∨ s.drain entry ≠ some owner) (he : s.drain e = some owner) :
    (s.setDrain entry holder).drain e = some owner := by
  have hne : e ≠ entry := by
    rintro rfl
    rcases h with h | h
    · cases h.symm.trans he
    · exact h he
  exact (Function.update_of_ne hne _ _).trans he

/-- The worker takes or gives back a mutex that no other thread has. -/
theorem WorkerStep.setDrain {entry : Entry S} {holder : Option (Holder n m)}
    (h : s.drain entry = none ∨ s.drain entry = some (.worker w)) :
    WorkerStep s (s.setDrain entry holder) w := by
  refine { WorkerStep.refl with drain := fun e owner hne => drain_setDrain (h.imp id fun h => ?_) }
  rw [h]
  exact fun heq => hne (Option.some.inj heq).symm

theorem Worker.Sound.step (h : (s.workers w).Sound s w)
    (hlist : ∀ entry ∈ s.sessions w, s.Current entry) (hst : s.workerLoop w result = some s') :
    WorkerStep s s' w ∧ (s'.workers w).Sound s' w := by
  obtain ⟨hseen, hinside, hholds⟩ := h
  rw [workerLoop] at hst
  cases hworker : s.workers w with
  | checking =>
    rw [hworker] at hst
    obtain rfl := Option.some.inj hst
    refine ⟨.setWorker .refl, .setWorker ?_⟩
    split_ifs
    · exact ⟨nofun, nofun, nofun⟩
    · exact ⟨nofun, nofun, nofun⟩
  | snapshotting =>
    rw [hworker] at hst
    obtain rfl := Option.some.inj hst
    refine ⟨.setWorker .refl, .setWorker ?_⟩
    exact ⟨fun entry he => .inl (hlist entry he), nofun, nofun⟩
  | iterating rest didWork =>
    rw [hworker] at hst hseen
    cases rest with
    | nil =>
      obtain rfl := Option.some.inj hst
      refine ⟨.setWorker .refl, .setWorker ?_⟩
      exact ⟨nofun, nofun, nofun⟩
    | cons entry rest =>
      obtain rfl := Option.some.inj hst
      refine ⟨.setWorker .refl, .setWorker ?_⟩
      split_ifs
      · exact ⟨fun e he => hseen e (List.mem_cons_of_mem _ he), nofun, nofun⟩
      · exact ⟨hseen, nofun, nofun⟩
  | probing entry rest didWork =>
    rw [hworker] at hst hseen
    obtain rfl := Option.some.inj hst
    refine ⟨.setWorker .record, .setWorker ?_⟩
    split_ifs
    · exact .record ⟨hseen, nofun, nofun⟩
    · exact .record ⟨fun e he => hseen e (List.mem_cons_of_mem _ he), nofun, nofun⟩
  | locking entry rest didWork =>
    rw [hworker] at hst hseen
    dsimp only at hst
    split_ifs at hst with hfree
    obtain rfl := Option.some.inj hst
    refine ⟨.setWorker (.setDrain (.inl hfree)), .setWorker ?_⟩
    refine ⟨hseen, nofun, fun e he => ?_⟩
    obtain rfl := Option.some.inj he
    exact Function.update_self ..
  | locked entry rest didWork =>
    rw [hworker] at hst hseen hholds
    obtain rfl := Option.some.inj hst
    refine ⟨.setWorker .refl, .setWorker ?_⟩
    have hrest : ∀ e ∈ rest, s.Current e ∨ e ∈ s.removed :=
      fun e he => hseen e (List.mem_cons_of_mem _ he)
    split_ifs with hremoved
    · exact ⟨hrest, nofun, hholds⟩
    · refine ⟨hrest, fun e he => ?_, hholds⟩
      obtain rfl := Option.some.inj he
      exact (hseen entry List.mem_cons_self).resolve_right hremoved
  | starting entry rest =>
    rw [hworker] at hst hseen hinside hholds
    obtain rfl := Option.some.inj hst
    exact ⟨.setWorker .record, .setWorker (.record ⟨hseen, hinside, hholds⟩)⟩
  | draining entry rest =>
    rw [hworker] at hst hseen hinside hholds
    obtain rfl := Option.some.inj hst
    refine ⟨.setWorker .refl, .setWorker ?_⟩
    split_ifs
    · exact ⟨hseen, hinside, hholds⟩
    · exact ⟨hseen, nofun, hholds⟩
  | reporting entry rest =>
    rw [hworker] at hst hseen hholds
    obtain rfl := Option.some.inj hst
    exact ⟨.setWorker .record, .setWorker (.record ⟨hseen, nofun, hholds⟩)⟩
  | leaving entry rest didWork =>
    rw [hworker] at hst hseen hholds
    obtain rfl := Option.some.inj hst
    refine ⟨.setWorker (.setDrain (.inr (hholds entry rfl))), .setWorker ?_⟩
    exact ⟨hseen, nofun, nofun⟩
  | returned =>
    rw [hworker] at hst
    cases hst

/-- What the worker has is as good after the step of another thread. -/
theorem Worker.Sound.mono {worker : Worker S} (h : worker.Sound s w)
    (hremoved : s.removed ⊆ s'.removed)
    (hcurrent : ∀ entry, s.Current entry → s.drain entry = some (.worker w) → s'.Current entry)
    (hseen : ∀ entry, s.Current entry → s'.Current entry ∨ entry ∈ s'.removed)
    (hdrain : ∀ entry, s.drain entry = some (.worker w) → s'.drain entry = some (.worker w)) :
    worker.Sound s' w where
  seen entry he := (h.seen entry he).elim (hseen entry) fun he => .inr (hremoved he)
  inside entry he := hcurrent entry (h.inside entry he) (h.holds entry (Worker.holds_of_inside he))
  holds entry he := hdrain entry (h.holds entry he)

/-! ### The lists and the calls about sessions -/

/-- No list has an entry of the session. -/
def Absent (s : AudioWorkerPool n m S) (session : S) : Prop :=
  ∀ w, ∀ entry ∈ s.sessions w, entry.session ≠ session

def Caller.Sound (s : AudioWorkerPool n m S) (c : Fin m) : Caller n S → Prop
  | idle | counting _ => True
  | assigning session _ => s.Absent session
  | scanning session i => ∀ w : Fin n, w < i → ∀ entry ∈ s.sessions w, entry.session ≠ session
  | found entry | waiting entry => entry ∈ s.removed ∧ s.Current entry ∧ s.Absent entry.session
  | barrier entry =>
    entry ∈ s.removed ∧ s.Current entry ∧ s.Absent entry.session ∧
      s.drain entry = some (.caller c)

structure Listed (s : AudioWorkerPool n m S) : Prop where
  entry : ∀ w, ∀ entry ∈ s.sessions w,
    entry.id < s.entries ∧ entry ∉ s.removed ∧ s.Current entry
  once : ∀ w, ((s.sessions w).map (·.session)).Nodup
  apart : ∀ w w' entry entry', entry ∈ s.sessions w → entry' ∈ s.sessions w' →
    entry.session = entry'.session → w = w'
  removed : ∀ entry ∈ s.removed, entry.id < s.entries
  kept : ∀ session entry, current s.log session = some entry →
    entry.session = session ∧
      ((∃ w, entry ∈ s.sessions w) ∨ ∃ c, (s.callers c).unassigning = some entry)
  alone : ∀ c c' session, (s.callers c).session = some session →
    (s.callers c').session = some session → c = c'
  caller : ∀ c, (s.callers c).Sound s c

variable {c : Fin m} {caller : Caller n S} {session : S}

/-- What a call relies on is not changed by the steps of threads that are not about
    its session. -/
theorem Caller.Sound.mono (h : caller.Sound s c)
    (hsessions : ∀ session, caller.session = some session →
      ∀ w, ∀ entry ∈ s'.sessions w, entry.session = session → entry ∈ s.sessions w)
    (hcurrent : ∀ session, caller.session = some session →
      current s'.log session = current s.log session)
    (hremoved : s.removed ⊆ s'.removed)
    (hdrain : ∀ entry, s.drain entry = some (.caller c) → s'.drain entry = some (.caller c)) :
    caller.Sound s' c := by
  have habsent : ∀ session, caller.session = some session → s.Absent session →
      s'.Absent session := fun session hs h w entry he heq =>
    h w entry (hsessions session hs w entry he heq) heq
  cases caller with
  | idle | counting => trivial
  | assigning session idx => exact habsent session rfl h
  | scanning session i =>
    exact fun w hw entry he heq => h w hw entry (hsessions session rfl w entry he heq) heq
  | found entry | waiting entry =>
    obtain ⟨hmem, hc, hnot⟩ := h
    exact ⟨hremoved hmem, (hcurrent _ rfl).trans hc, habsent _ rfl hnot⟩
  | barrier entry =>
    obtain ⟨hmem, hc, hnot, hbarrier⟩ := h
    exact ⟨hremoved hmem, (hcurrent _ rfl).trans hc, habsent _ rfl hnot, hdrain entry hbarrier⟩

theorem Listed.workerStep (h : s.Listed) (hst : WorkerStep s s' w) : s'.Listed where
  entry v entry he := by
    rw [hst.sessions] at he
    rw [hst.entries, hst.removed, Current, hst.current]
    exact h.entry v entry he
  once v := by
    rw [hst.sessions]
    exact h.once v
  apart v v' entry entry' he he' := by
    rw [hst.sessions] at he he'
    exact h.apart v v' entry entry' he he'
  removed entry he := by
    rw [hst.removed] at he
    rw [hst.entries]
    exact h.removed entry he
  kept session entry he := by
    rw [hst.current] at he
    rw [hst.sessions, hst.callers]
    exact h.kept session entry he
  alone c c' session hc hc' := by
    rw [hst.callers] at hc hc'
    exact h.alone c c' session hc hc'
  caller c := by
    rw [hst.callers]
    refine (h.caller c).mono (fun _ _ v entry he _ => ?_) (fun _ _ => by rw [hst.current])
      (by rw [hst.removed]) fun entry => hst.drain entry _ nofun
    rwa [hst.sessions] at he

/-- What a step of a call about a session does to the others. -/
structure CallerStep (s s' : AudioWorkerPool n m S) (c : Fin m) (session : S) : Prop where
  callers : ∀ c', c' ≠ c → s'.callers c' = s.callers c'
  sessions : ∀ w entry, entry.session ≠ session →
    (entry ∈ s'.sessions w ↔ entry ∈ s.sessions w)
  removed : s.removed ⊆ s'.removed
  of_removed : ∀ entry ∈ s'.removed, entry.session ≠ session → entry ∈ s.removed
  current : ∀ session', session' ≠ session → current s'.log session' = current s.log session'
  entries : s.entries ≤ s'.entries
  drain : ∀ entry holder, holder ≠ .caller c →
    s.drain entry = some holder → s'.drain entry = some holder

/-- What is to be shown of the session that a step of a call is about. -/
structure ListedFor (s : AudioWorkerPool n m S) (c : Fin m) (session : S) : Prop where
  entry : ∀ w, ∀ entry ∈ s.sessions w, entry.session = session →
    entry.id < s.entries ∧ entry ∉ s.removed ∧ s.Current entry
  once : ∀ w, ((s.sessions w).map (·.session)).Nodup
  apart : ∀ w w' entry entry', entry ∈ s.sessions w → entry' ∈ s.sessions w' →
    entry.session = session → entry'.session = session → w = w'
  removed : ∀ entry ∈ s.removed, entry.session = session → entry.id < s.entries
  kept : ∀ entry, current s.log session = some entry →
    entry.session = session ∧
      ((∃ w, entry ∈ s.sessions w) ∨ (s.callers c).unassigning = some entry)
  session : ∀ session', (s.callers c).session = some session' → session' = session
  caller : (s.callers c).Sound s c

theorem Listed.callerStep (h : s.Listed)
    (hc : ∀ session', (s.callers c).session = some session' → session' = session)
    (hothers : ∀ c', c' ≠ c → (s.callers c').session ≠ some session)
    (hst : CallerStep s s' c session) (hfor : s'.ListedFor c session) : s'.Listed where
  entry w entry he := by
    by_cases hs : entry.session = session
    · exact hfor.entry w entry he hs
    · obtain ⟨hid, hremoved, hcurrent⟩ := h.entry w entry ((hst.sessions w entry hs).1 he)
      exact ⟨hid.trans_le hst.entries, fun hmem => hremoved (hst.of_removed entry hmem hs),
        (hst.current _ hs).trans hcurrent⟩
  once := hfor.once
  apart w w' entry entry' he he' heq := by
    by_cases hs : entry.session = session
    · exact hfor.apart w w' entry entry' he he' hs (heq ▸ hs)
    · exact h.apart w w' entry entry' ((hst.sessions w entry hs).1 he)
        ((hst.sessions w' entry' (heq ▸ hs)).1 he') heq
  removed entry he := by
    by_cases hs : entry.session = session
    · exact hfor.removed entry he hs
    · exact (h.removed entry (hst.of_removed entry he hs)).trans_le hst.entries
  kept session' entry he := by
    by_cases hs : session' = session
    · subst hs
      obtain ⟨heq, hw | hc⟩ := hfor.kept entry he
      · exact ⟨heq, .inl hw⟩
      · exact ⟨heq, .inr ⟨c, hc⟩⟩
    · rw [hst.current session' hs] at he
      obtain ⟨rfl, ⟨w, hw⟩ | ⟨c', hc'⟩⟩ := h.kept session' entry he
      · exact ⟨rfl, .inl ⟨w, (hst.sessions w entry hs).2 hw⟩⟩
      · have hne : c' ≠ c := by
          rintro rfl
          exact hs (hc _ (Caller.session_of_unassigning hc'))
        exact ⟨rfl, .inr ⟨c', by rwa [hst.callers c' hne]⟩⟩
  alone c₁ c₂ session' h₁ h₂ := by
    have hother : ∀ c', c' ≠ c → (s'.callers c').session = some session' →
        session' ≠ session := by
      rintro c' hne hc' rfl
      rw [hst.callers c' hne] at hc'
      exact hothers c' hne hc'
    by_cases hc₁ : c₁ = c
    · by_cases hc₂ : c₂ = c
      · rw [hc₁, hc₂]
      · subst hc₁
        exact absurd (hfor.session _ h₁) (hother c₂ hc₂ h₂)
    · by_cases hc₂ : c₂ = c
      · subst hc₂
        exact absurd (hfor.session _ h₂) (hother c₁ hc₁ h₁)
      · rw [hst.callers c₁ hc₁] at h₁
        rw [hst.callers c₂ hc₂] at h₂
        exact h.alone c₁ c₂ session' h₁ h₂
  caller c' := by
    by_cases hne : c' = c
    · rw [hne]
      exact hfor.caller
    · rw [hst.callers c' hne]
      have hsession : ∀ session', (s.callers c').session = some session' →
          session' ≠ session := by
        rintro session' hc' rfl
        exact hothers c' hne hc'
      refine (h.caller c').mono (fun session' hs w entry he heq => ?_)
        (fun session' hs => hst.current _ (hsession session' hs)) hst.removed
        fun entry => hst.drain entry _ fun heq => hne (Holder.caller.inj heq)
      exact (hst.sessions w entry (heq ▸ hsession session' hs)).1 he

theorem Listed.others (h : s.Listed) (hc : (s.callers c).session = some session) :
    ∀ c', c' ≠ c → (s.callers c').session ≠ some session :=
  fun c' hne hc' => hne (h.alone c' c session hc' hc)

/-- Nothing is known of a session that is in no list, and that no `unassign` is about. -/
theorem Listed.current_eq_none (h : s.Listed) (habsent : s.Absent session)
    (hc : ∀ c, (s.callers c).session = some session → (s.callers c).unassigning = none) :
    current s.log session = none := by
  refine Option.eq_none_iff_forall_ne_some.2 fun entry he => ?_
  obtain ⟨rfl, ⟨w, hw⟩ | ⟨c, hun⟩⟩ := h.kept session entry he
  · exact habsent w entry hw rfl
  · cases hun.symm.trans (hc c (Caller.session_of_unassigning hun))

theorem Caller.Sound.setCaller {caller' : Caller n S} (h : caller.Sound s c) :
    caller.Sound (s.setCaller c caller') c :=
  h.mono (fun _ _ _ _ he _ => he) (fun _ _ => rfl) subset_rfl fun _ => id

/-- A step of a call that leaves the lists as they are. -/
theorem Listed.setCaller (h : s.Listed)
    (hc : ∀ session', (s.callers c).session = some session' → session' = session)
    (hothers : ∀ c', c' ≠ c → (s.callers c').session ≠ some session)
    (hsession : ∀ session', caller.session = some session' → session' = session)
    (hun : ∀ entry, (s.callers c).unassigning = some entry → caller.unassigning = some entry)
    (hcallers : s'.callers = s.callers) (hsessions : s'.sessions = s.sessions)
    (hremoved : s'.removed = s.removed) (hlog : s'.log = s.log) (hentries : s'.entries = s.entries)
    (hdrain : ∀ entry holder, holder ≠ .caller c → s.drain entry = some holder →
      s'.drain entry = some holder)
    (hcaller : caller.Sound s' c) : (s'.setCaller c caller).Listed := by
  have hself : (s'.setCaller c caller).callers c = caller := Function.update_self ..
  refine h.callerStep hc hothers ⟨fun c' hne => ?_, ?_, ?_, ?_, ?_, ?_, hdrain⟩
    ⟨?_, ?_, ?_, ?_, ?_, ?_, ?_⟩
  · exact (Function.update_of_ne hne _ _).trans (congrFun hcallers c')
  · intro w entry _
    exact iff_of_eq (congrArg (entry ∈ · w) hsessions)
  · exact hremoved.ge
  · exact fun entry he _ => hremoved ▸ he
  · exact fun session' _ => congrArg (current · session') hlog
  · exact hentries.ge
  · intro w entry he _
    have he : entry ∈ s'.sessions w := he
    rw [hsessions] at he
    obtain ⟨hid, hnot, hcurrent⟩ := h.entry w entry he
    exact ⟨hid.trans_le hentries.ge, hremoved.symm ▸ hnot,
      (congrArg (current · _) hlog).trans hcurrent⟩
  · intro w
    have honce := h.once w
    rwa [← hsessions] at honce
  · intro w w' entry entry' he he' hs hs'
    have he : entry ∈ s'.sessions w := he
    have he' : entry' ∈ s'.sessions w' := he'
    rw [hsessions] at he he'
    exact h.apart w w' entry entry' he he' (hs.trans hs'.symm)
  · intro entry he _
    have he : entry ∈ s'.removed := he
    rw [hremoved] at he
    exact (h.removed entry he).trans_le hentries.ge
  · intro entry he
    have he : current s'.log session = some entry := he
    rw [hlog] at he
    obtain ⟨rfl, ⟨w, hw⟩ | ⟨c', hc'⟩⟩ := h.kept session entry he
    · exact ⟨rfl, .inl ⟨w, hsessions.symm ▸ hw⟩⟩
    · have heq : c' = c := by
        by_contra hne
        exact hothers c' hne (Caller.session_of_unassigning hc')
      subst heq
      exact ⟨rfl, .inr (by rw [hself]; exact hun entry hc')⟩
  · rwa [hself]
  · rw [hself]
    exact hcaller.setCaller

/-- The call adds the session to the list of a worker. -/
theorem Listed.push {idx : Fin n} (h : s.Listed) (hc : s.callers c = .assigning session idx) :
    (s.push c session idx).Listed := by
  have habout : (s.callers c).session = some session := by rw [hc]; rfl
  have hcaller := h.caller c
  rw [hc] at hcaller
  have habsent : s.Absent session := hcaller
  have hself : (s.push c session idx).callers c = .counting session := Function.update_self ..
  have hcurrent : current (s.push c session idx).log =
      Function.update (current s.log) session (some ⟨s.entries, session⟩) := current_assigned
  have hlist : ∀ w entry, entry ∈ (s.push c session idx).sessions w ↔
      entry ∈ s.sessions w ∨ w = idx ∧ entry = ⟨s.entries, session⟩ := by
    intro w entry
    by_cases hw : w = idx
    · subst hw
      simp [AudioWorkerPool.push, AudioWorkerPool.setCaller]
    · simp [AudioWorkerPool.push, AudioWorkerPool.setCaller, record, hw]
  have hnew : ∀ w entry, entry ∈ (s.push c session idx).sessions w → entry.session = session →
      w = idx ∧ entry = ⟨s.entries, session⟩ := fun w entry he hs =>
    ((hlist w entry).1 he).resolve_left fun he => habsent w entry he hs
  refine h.callerStep (fun _ hs => Option.some.inj (hs.symm.trans habout)) (h.others habout)
    ⟨fun c' hne => Function.update_of_ne hne _ _, fun w entry hs => ?_, subset_rfl,
      fun _ he _ => he, fun session' hs => ?_, Nat.le_succ _, fun _ _ _ => id⟩
    ⟨fun w entry he hs => ?_, fun w => ?_, fun w w' entry entry' he he' hs hs' => ?_,
      fun entry he _ => (h.removed entry he).trans (Nat.lt_succ_self _), fun entry he => ?_,
      fun session' hs => ?_, ?_⟩
  · rw [hlist]
    refine or_iff_left fun ⟨_, he⟩ => hs ?_
    rw [he]
  · rw [hcurrent, Function.update_of_ne hs]
  · obtain ⟨-, rfl⟩ := hnew w entry he hs
    refine ⟨Nat.lt_succ_self _, fun hmem => lt_irrefl _ (h.removed _ hmem), ?_⟩
    rw [Current, hcurrent, Function.update_self]
  · by_cases hw : w = idx
    · subst hw
      have hnodup := h.once w
      simp only [AudioWorkerPool.push, AudioWorkerPool.setCaller, Function.update_self,
        List.map_append, List.map_cons, List.map_nil]
      refine List.nodup_append.2 ⟨hnodup, List.nodup_singleton _, fun a ha b hb => ?_⟩
      obtain ⟨entry, he, rfl⟩ := List.mem_map.1 ha
      rw [List.mem_singleton.1 hb]
      exact habsent w entry he
    · have hsame : (s.push c session idx).sessions w = s.sessions w := Function.update_of_ne hw _ _
      rw [hsame]
      exact h.once w
  · rw [(hnew w entry he hs).1, (hnew w' entry' he' hs').1]
  · rw [hcurrent, Function.update_self] at he
    obtain rfl := Option.some.inj he
    exact ⟨rfl, .inl ⟨idx, (hlist idx _).2 (.inr ⟨rfl, rfl⟩)⟩⟩
  · rw [hself] at hs
    exact (Option.some.inj hs).symm
  · rw [hself]
    trivial

/-- The state of `unassign` when it has found the entry in the list of a worker. -/
def take (s : AudioWorkerPool n m S) (c : Fin m) (w : Fin n) (entry : Entry S) :
    AudioWorkerPool n m S :=
  { s with
    removed := insert entry s.removed
    sessions := Function.update s.sessions w
      ((s.sessions w).eraseP (·.session = entry.session)) }.setCaller c (.found entry)

/-- A list has one entry of a session. -/
theorem Listed.session_ne_of_mem_eraseP (h : s.Listed) {entry entry' : Entry S}
    (hmem : entry ∈ s.sessions w)
    (he : entry' ∈ (s.sessions w).eraseP (·.session = entry.session)) :
    entry'.session ≠ entry.session := by
  obtain ⟨a, l₁, l₂, hl₁, ha, hl, herase⟩ :=
    List.exists_of_eraseP (p := fun e => decide (e.session = entry.session)) hmem (by simp)
  have honce := h.once w
  rw [hl, List.map_append, List.map_cons, List.nodup_append, List.nodup_cons] at honce
  rw [herase] at he
  rcases List.mem_append.1 he with he | he
  · simpa using hl₁ entry' he
  · intro heq
    refine honce.2.1.1 (List.mem_map.2 ⟨entry', he, heq.trans ?_⟩)
    simpa using (of_decide_eq_true ha).symm

theorem Listed.take {entry : Entry S} (h : s.Listed)
    (habout : (s.callers c).session = some entry.session) (hmem : entry ∈ s.sessions w) :
    (s.take c w entry).Listed := by
  obtain ⟨hid, -, hcurrent⟩ := h.entry w entry hmem
  have hself : (s.take c w entry).callers c = .found entry := Function.update_self ..
  have hsub : ∀ v entry', entry' ∈ (s.take c w entry).sessions v → entry' ∈ s.sessions v := by
    intro v entry' he
    by_cases hv : v = w
    · subst hv
      simp only [AudioWorkerPool.take, AudioWorkerPool.setCaller, Function.update_self] at he
      exact List.mem_of_mem_eraseP he
    · simpa [AudioWorkerPool.take, AudioWorkerPool.setCaller, hv] using he
  have habsent : (s.take c w entry).Absent entry.session := by
    intro v entry' he heq
    obtain rfl := h.apart v w entry' entry (hsub v entry' he) hmem heq
    simp only [AudioWorkerPool.take, AudioWorkerPool.setCaller, Function.update_self] at he
    exact h.session_ne_of_mem_eraseP hmem he heq
  refine h.callerStep (fun _ hs => Option.some.inj (hs.symm.trans habout)) (h.others habout)
    ⟨fun c' hne => Function.update_of_ne hne _ _, fun v entry' hs => ⟨hsub v entry', fun he => ?_⟩,
      Finset.subset_insert _ _, fun entry' he hs => ?_, fun _ _ => rfl, le_rfl, fun _ _ _ => id⟩
    ⟨fun v entry' he hs => absurd hs (habsent v entry' he), fun v => ?_,
      fun v v' entry' _ he _ hs _ => absurd hs (habsent v entry' he), fun entry' he hs => ?_,
      fun entry' he => ?_, fun session' hs => ?_, ?_⟩
  · by_cases hv : v = w
    · subst hv
      simp only [AudioWorkerPool.take, AudioWorkerPool.setCaller, Function.update_self]
      exact (List.mem_eraseP_of_neg (by simpa using hs)).2 he
    · simpa [AudioWorkerPool.take, AudioWorkerPool.setCaller, hv] using he
  · refine (Finset.mem_insert.1 he).resolve_left ?_
    rintro rfl
    exact hs rfl
  · by_cases hv : v = w
    · subst hv
      simp only [AudioWorkerPool.take, AudioWorkerPool.setCaller, Function.update_self]
      exact (h.once v).sublist (List.eraseP_sublist.map _)
    · have hsame : (s.take c w entry).sessions v = s.sessions v := Function.update_of_ne hv _ _
      rw [hsame]
      exact h.once v
  · rcases Finset.mem_insert.1 he with rfl | he
    · exact hid
    · exact h.removed entry' he
  · have he : current s.log entry.session = some entry' := he
    obtain rfl := Option.some.inj (hcurrent.symm.trans he)
    exact ⟨rfl, .inr (by rw [hself]; rfl)⟩
  · rw [hself] at hs
    exact (Option.some.inj hs).symm
  · rw [hself]
    exact ⟨Finset.mem_insert_self _ _, hcurrent, habsent⟩

/-- `unassign` returns. -/
theorem Listed.unassigned (h : s.Listed) (habout : (s.callers c).session = some session)
    (habsent : s.Absent session) {holder : Entry S → Option (Holder n m)}
    (hdrain : ∀ entry owner, owner ≠ .caller c → s.drain entry = some owner →
      holder entry = some owner) :
    (({ s with drain := holder }.record (.unassigned session)).setCaller c .idle).Listed := by
  have hself : (({ s with drain := holder }.record (.unassigned session)).setCaller c
      .idle).callers c = .idle := Function.update_self ..
  have hcurrent : current (({ s with drain := holder }.record (.unassigned session)).setCaller c
      .idle).log = Function.update (current s.log) session none := current_unassigned
  refine h.callerStep (fun _ hs => Option.some.inj (hs.symm.trans habout)) (h.others habout)
    ⟨fun c' hne => Function.update_of_ne hne _ _, fun _ _ _ => Iff.rfl, subset_rfl,
      fun _ he _ => he, fun session' hs => ?_, le_rfl, hdrain⟩
    ⟨fun w entry he hs => absurd hs (habsent w entry he), h.once,
      fun w w' entry entry' he _ hs _ => absurd hs (habsent w entry he),
      fun entry he _ => h.removed entry he, fun entry he => ?_, fun session' hs => ?_, ?_⟩
  · rw [hcurrent, Function.update_of_ne hs]
  · rw [hcurrent, Function.update_self] at he
    cases he
  · rw [hself] at hs
    cases hs
  · rw [hself]
    trivial

theorem Listed.current_eq_none_of_absent (h : s.Listed)
    (hc : (s.callers c).session = some session) (hun : (s.callers c).unassigning = none)
    (habsent : s.Absent session) : current s.log session = none :=
  h.current_eq_none habsent fun c' hc' => by rwa [h.alone c' c session hc' hc]

theorem Listed.scan {i : ℕ} (h : s.Listed) (hc : s.callers c = .scanning session i) :
    (s.scan c session i).Listed := by
  have habout : (s.callers c).session = some session := by rw [hc]; rfl
  have hscanned := h.caller c
  rw [hc] at hscanned
  rw [AudioWorkerPool.scan]
  split_ifs with hi
  · cases hfind : (s.sessions ⟨i, hi⟩).find? (·.session = session) with
    | some entry =>
      have hmem := List.mem_of_find?_eq_some hfind
      have hsession : entry.session = session := by simpa using List.find?_some hfind
      subst hsession
      exact h.take habout hmem
    | none =>
      refine h.setCaller (fun _ hs => Option.some.inj (hs.symm.trans habout))
        (h.others habout) (fun _ hs => (Option.some.inj hs).symm) ?_ rfl rfl rfl rfl rfl
        (fun _ _ _ => id) fun w hw entry he => ?_
      · intro entry he
        rw [hc] at he
        cases he
      · rcases Nat.lt_succ_iff_lt_or_eq.1 hw with hw | hw
        · exact hscanned w hw entry he
        · have hmem : entry ∈ s.sessions ⟨i, hi⟩ := by
            rwa [← Fin.ext hw (b := ⟨i, hi⟩)]
          simpa using List.find?_eq_none.1 hfind entry hmem
  · have habsent : s.Absent session := fun w => hscanned w (w.2.trans_le (not_lt.1 hi))
    exact h.unassigned habout habsent fun _ _ _ => id

theorem Listed.call (h : s.Listed) (hst : s.call c = some s') : s'.Listed := by
  have hcaller := h.caller c
  rw [AudioWorkerPool.call] at hst
  cases hc : s.callers c with
  | idle =>
    rw [hc] at hst
    cases hst
  | assigning session idx =>
    rw [hc] at hst
    obtain rfl := Option.some.inj hst
    exact h.push hc
  | counting session =>
    have habout : (s.callers c).session = some session := by rw [hc]; rfl
    rw [hc] at hst
    obtain rfl := Option.some.inj hst
    refine h.setCaller (fun _ hs => Option.some.inj (hs.symm.trans habout)) (h.others habout)
      nofun ?_ rfl rfl rfl rfl rfl (fun _ _ _ => id) trivial
    intro entry he
    rw [hc] at he
    cases he
  | scanning session i =>
    rw [hc] at hst
    obtain rfl := Option.some.inj hst
    exact h.scan hc
  | found entry =>
    have habout : (s.callers c).session = some entry.session := by rw [hc]; rfl
    rw [hc] at hst hcaller
    obtain rfl := Option.some.inj hst
    refine h.setCaller (fun _ hs => Option.some.inj (hs.symm.trans habout)) (h.others habout)
      (fun _ hs => (Option.some.inj hs).symm) ?_ rfl rfl rfl rfl rfl (fun _ _ _ => id) hcaller
    intro e he
    rwa [hc] at he
  | waiting entry =>
    have habout : (s.callers c).session = some entry.session := by rw [hc]; rfl
    rw [hc] at hst hcaller
    dsimp only at hst
    split_ifs at hst with hfree
    obtain rfl := Option.some.inj hst
    obtain ⟨hremoved, hcurrent, habsent⟩ := hcaller
    refine h.setCaller (fun _ hs => Option.some.inj (hs.symm.trans habout)) (h.others habout)
      (fun _ hs => (Option.some.inj hs).symm) ?_ rfl rfl rfl rfl rfl
      (fun e holder _ => drain_setDrain (.inl hfree)) ⟨hremoved, hcurrent, habsent, ?_⟩
    · intro e he
      rwa [hc] at he
    · exact Function.update_self ..
  | barrier entry =>
    have habout : (s.callers c).session = some entry.session := by rw [hc]; rfl
    rw [hc] at hst hcaller
    obtain rfl := Option.some.inj hst
    obtain ⟨-, -, habsent, hbarrier⟩ := hcaller
    exact h.unassigned habout habsent fun e owner howner =>
      drain_setDrain (.inr fun heq => howner (Option.some.inj (heq.symm.trans hbarrier)))

/-- What a step of a call does to the workers. -/
structure CallStep (s s' : AudioWorkerPool n m S) (c : Fin m) : Prop where
  workers : s'.workers = s.workers
  removed : s.removed ⊆ s'.removed
  current : ∀ entry, s.Current entry → s'.Current entry ∨ s.callers c = .barrier entry
  drain : ∀ w entry, s.drain entry = some (.worker w) → s'.drain entry = some (.worker w)
  log : s'.log = s.log ∨ ∃ event, s'.log = s.log ++ [event] ∧ ∀ before, InPool before event

theorem Listed.callStep_scan {i : ℕ} (h : s.Listed) (hc : s.callers c = .scanning session i) :
    CallStep s (s.scan c session i) c := by
  have habout : (s.callers c).session = some session := by rw [hc]; rfl
  have hscanned := h.caller c
  rw [hc] at hscanned
  rw [AudioWorkerPool.scan]
  split_ifs with hi
  · split
    · exact ⟨rfl, Finset.subset_insert _ _, fun _ => .inl, fun _ _ => id, .inl rfl⟩
    · exact ⟨rfl, subset_rfl, fun _ => .inl, fun _ _ => id, .inl rfl⟩
  · have habsent : s.Absent session := fun w => hscanned w (w.2.trans_le (not_lt.1 hi))
    have hnone := h.current_eq_none_of_absent habout (by rw [hc]; rfl) habsent
    refine ⟨rfl, subset_rfl, fun entry he => .inl ?_, fun _ _ => id,
      .inr ⟨_, rfl, fun _ => trivial⟩⟩
    have hne : entry.session ≠ session := by
      rintro rfl
      cases hnone.symm.trans he
    rw [Current, AudioWorkerPool.setCaller, record]
    simpa [Current, hne] using he

theorem Listed.callStep (h : s.Listed) (hst : s.call c = some s') : CallStep s s' c := by
  have hcaller := h.caller c
  rw [AudioWorkerPool.call] at hst
  cases hc : s.callers c with
  | idle =>
    rw [hc] at hst
    cases hst
  | assigning session idx =>
    rw [hc] at hst hcaller
    obtain rfl := Option.some.inj hst
    have hnone := h.current_eq_none_of_absent (c := c) (by rw [hc]; rfl) (by rw [hc]; rfl) hcaller
    refine ⟨rfl, subset_rfl, fun entry he => .inl ?_, fun _ _ => id,
      .inr ⟨_, rfl, fun _ => trivial⟩⟩
    have hne : entry.session ≠ session := by
      rintro rfl
      cases hnone.symm.trans he
    rw [Current, AudioWorkerPool.push, AudioWorkerPool.setCaller, record]
    simpa [Current, hne] using he
  | counting session =>
    rw [hc] at hst
    obtain rfl := Option.some.inj hst
    exact ⟨rfl, subset_rfl, fun _ => .inl, fun _ _ => id, .inl rfl⟩
  | scanning session i =>
    rw [hc] at hst
    obtain rfl := Option.some.inj hst
    exact h.callStep_scan hc
  | found entry =>
    rw [hc] at hst
    obtain rfl := Option.some.inj hst
    exact ⟨rfl, subset_rfl, fun _ => .inl, fun _ _ => id, .inl rfl⟩
  | waiting entry =>
    rw [hc] at hst
    dsimp only at hst
    split_ifs at hst with hfree
    obtain rfl := Option.some.inj hst
    exact ⟨rfl, subset_rfl, fun _ => .inl, fun w e => drain_setDrain (.inl hfree), .inl rfl⟩
  | barrier entry =>
    rw [hc] at hst hcaller
    obtain rfl := Option.some.inj hst
    obtain ⟨-, hcurrent, -, hbarrier⟩ := hcaller
    refine ⟨rfl, subset_rfl, fun e he => ?_, fun w e =>
      drain_setDrain (.inr fun heq => nomatch heq.symm.trans hbarrier),
      .inr ⟨_, rfl, fun _ => trivial⟩⟩
    by_cases hs : e.session = entry.session
    · rw [Current, hs, hcurrent] at he
      exact .inr (hc.trans (congrArg Caller.barrier (Option.some.inj he)))
    · refine .inl ?_
      rw [Current, AudioWorkerPool.setCaller, record]
      simpa [Current, setDrain, hs] using he

/-! ### Runs -/

structure Inv (s : AudioWorkerPool n m S) : Prop where
  listed : s.Listed
  worker : ∀ w, (s.workers w).Sound s w

theorem Inv.call (h : s.Inv) (hst : s.call c = some s') : s'.Inv := by
  have hstep := h.listed.callStep hst
  refine ⟨h.listed.call hst, fun w => ?_⟩
  rw [hstep.workers]
  have hbarrier : ∀ entry, s.callers c = .barrier entry →
      entry ∈ s.removed ∧ s.drain entry = some (.caller c) := by
    intro entry hc
    have hcaller := h.listed.caller c
    rw [hc] at hcaller
    exact ⟨hcaller.1, hcaller.2.2.2⟩
  refine (h.worker w).mono hstep.removed (fun entry he hholds => ?_) (fun entry he => ?_)
    (hstep.drain w)
  · refine (hstep.current entry he).resolve_right fun hc => ?_
    cases hholds.symm.trans (hbarrier entry hc).2
  · exact (hstep.current entry he).imp id fun hc => hstep.removed (hbarrier entry hc).1

/-- A call begins. -/
theorem Inv.begin (h : s.Inv) (hidle : s.callers c = .idle)
    (hothers : ∀ c', (s.callers c').session ≠ some session)
    (hsession : caller.session = some session) (hcaller : caller.Sound s c) :
    (s.setCaller c caller).Inv := by
  have hothers' : ∀ c', c' ≠ c → (s.callers c').session ≠ some session := fun c' _ => hothers c'
  refine ⟨h.listed.setCaller ?_ hothers'
    (fun _ hs => Option.some.inj (hs.symm.trans hsession)) ?_ rfl rfl rfl rfl rfl
    (fun _ _ _ => id) hcaller, fun w => (h.worker w).mono subset_rfl (fun _ he _ => he)
    (fun _ => .inl) fun _ => id⟩
  · intro session' hs
    rw [hidle] at hs
    cases hs
  · intro entry he
    rw [hidle] at he
    cases he

/-- The counter and the flag are not looked at. -/
theorem Inv.of_eq (h : s.Inv) (running : Bool) (roundRobin : BitVec 64) :
    { s with running := running, roundRobin := roundRobin }.Inv :=
  ⟨{ h.listed with caller := fun c => (h.listed.caller c).mono (fun _ _ _ _ he _ => he)
                                    (fun _ _ => rfl) subset_rfl fun _ => id },
    fun w => (h.worker w).mono subset_rfl (fun _ he _ => he) (fun _ => .inl) fun _ => id⟩

theorem Inv.step [NeZero n] {l : Label n m S} (h : s.Inv) (hl : s.Serial l)
    (hst : s.step l = some s') : s'.Inv := by
  cases l with
  | assign c session =>
    rw [AudioWorkerPool.step, assign] at hst
    split_ifs at hst with hidle
    obtain rfl := Option.some.inj hst
    exact (h.of_eq s.running (s.roundRobin + 1)).begin hidle hl.1 rfl hl.2
  | unassign c session =>
    rw [AudioWorkerPool.step, unassign] at hst
    split_ifs at hst with hidle
    obtain rfl := Option.some.inj hst
    exact h.begin hidle hl rfl nofun
  | caller c => exact h.call hst
  | worker w result =>
    obtain ⟨hstep, hsound⟩ :=
      (h.worker w).step (fun entry he => (h.listed.entry w entry he).2.2) hst
    refine ⟨h.listed.workerStep hstep, fun v => ?_⟩
    by_cases hv : v = w
    · rw [hv]
      exact hsound
    · rw [hstep.workers v hv]
      refine (h.worker v).mono hstep.removed.ge (fun entry he _ => ?_) (fun entry he => .inl ?_)
        fun entry => hstep.drain entry _ fun heq => hv (Holder.worker.inj heq)
      · rwa [Current, hstep.current]
      · rwa [Current, hstep.current]
  | stop =>
    obtain rfl := Option.some.inj hst
    exact h.of_eq false s.roundRobin

theorem Inv.init [NeZero n] : (system n m S).init.Inv where
  listed := ⟨nofun, fun _ => List.nodup_nil, nofun, nofun, nofun, nofun, fun _ => trivial⟩
  worker _ := ⟨nofun, nofun, nofun⟩

theorem Inv.exclusive (h : s.Inv) : s.Exclusive := by
  intro w w' session hw hw'
  obtain ⟨entry, hin, rfl⟩ := Worker.inside_of_drained hw
  obtain ⟨entry', hin', hs⟩ := Worker.inside_of_drained hw'
  have hcurrent : current s.log entry.session = some entry := (h.worker w).inside entry hin
  have hcurrent' := (h.worker w').inside entry' hin'
  rw [Current, hs, hcurrent] at hcurrent'
  obtain rfl := Option.some.inj hcurrent'
  have hholds := (h.worker w).holds entry (Worker.holds_of_inside hin)
  have hholds' := (h.worker w').holds entry (Worker.holds_of_inside hin')
  exact Holder.worker.inj (Option.some.inj (hholds.symm.trans hholds'))

theorem Inv.drainsInPool (h : s.Inv) : s.DrainsInPool := by
  intro w session hw
  obtain ⟨entry, hin, rfl⟩ := Worker.inside_of_drained hw
  exact Option.isSome_of_eq_some ((h.worker w).inside entry hin)

/-- A session is drained by one worker at a time, and only while it is in the pool. -/
theorem exclusive [NeZero n] (hs : (system n m S).ReachableIf Serial s) :
    s.Exclusive ∧ s.DrainsInPool := by
  have h : s.Inv := hs.invariant .init fun _ _ _ h hl hst => h.step hl hst
  exact ⟨h.exclusive, h.drainsInPool⟩

/-! ### The calls of methods -/

/-- A worker calls a method of the entry it asks for input, or has found not removed
    under the mutex. -/
theorem log_workerLoop (hst : s.workerLoop w result = some s') :
    s'.log = s.log ∨ ∃ entry method, s'.log = s.log ++ [.called w entry.session method] ∧
      ((s.workers w).inside = some entry ∨ (s.workers w).probed = some entry) := by
  rw [workerLoop] at hst
  split at hst
  · exact .inl (Option.some.inj hst ▸ rfl)
  · exact .inl (Option.some.inj hst ▸ rfl)
  · exact .inl (Option.some.inj hst ▸ rfl)
  · exact .inl (Option.some.inj hst ▸ rfl)
  · next entry rest didWork hworker =>
    obtain rfl := Option.some.inj hst
    exact .inr ⟨entry, _, rfl, .inr (by rw [hworker]; rfl)⟩
  · split_ifs at hst
    exact .inl (Option.some.inj hst ▸ rfl)
  · exact .inl (Option.some.inj hst ▸ rfl)
  · next entry rest hworker =>
    obtain rfl := Option.some.inj hst
    exact .inr ⟨entry, _, rfl, .inl (by rw [hworker]; rfl)⟩
  · exact .inl (Option.some.inj hst ▸ rfl)
  · next entry rest hworker =>
    obtain rfl := Option.some.inj hst
    exact .inr ⟨entry, _, rfl, .inl (by rw [hworker]; rfl)⟩
  · exact .inl (Option.some.inj hst ▸ rfl)
  · cases hst

/-- A worker asks for input of an entry it has seen, and found not removed. -/
theorem probed_workerLoop {entry : Entry S} (hst : s.workerLoop w result = some s')
    (hprobed : (s'.workers w).probed = some entry) :
    entry ∈ (s.workers w).seen ∧ entry ∉ s.removed := by
  have hself : ∀ (t : AudioWorkerPool n m S) worker, (t.setWorker w worker).workers w = worker :=
    fun t worker => Function.update_self ..
  rw [workerLoop] at hst
  cases hworker : s.workers w with
  | iterating rest didWork =>
    rw [hworker] at hst
    cases rest with
    | nil =>
      obtain rfl := Option.some.inj hst
      rw [hself] at hprobed
      cases hprobed
    | cons e rest =>
      obtain rfl := Option.some.inj hst
      rw [hself] at hprobed
      split_ifs at hprobed with hremoved
      · cases hprobed
      · obtain rfl := Option.some.inj hprobed
        exact ⟨List.mem_cons_self, hremoved⟩
  | locking e rest didWork =>
    rw [hworker] at hst
    dsimp only at hst
    split_ifs at hst
    obtain rfl := Option.some.inj hst
    rw [hself] at hprobed
    cases hprobed
  | returned =>
    rw [hworker] at hst
    cases hst
  | checking | probing e rest didWork | locked e rest didWork | draining e rest =>
    rw [hworker] at hst
    obtain rfl := Option.some.inj hst
    rw [hself] at hprobed
    split_ifs at hprobed
    · cases hprobed
    · cases hprobed
  | _ =>
    rw [hworker] at hst
    obtain rfl := Option.some.inj hst
    rw [hself] at hprobed
    cases hprobed

/-- The entries that are asked for input are in the pool. -/
structure Touched (s : AudioWorkerPool n m S) : Prop where
  inv : s.Inv
  probed : ∀ w entry, (s.workers w).probed = some entry → s.Current entry
  log : Throughout InPool s.log

theorem Touched.of_workers_eq (h : s.Touched) (hinv : s'.Inv) (hworkers : s'.workers = s.workers)
    (hlog : s'.log = s.log) : s'.Touched := by
  refine ⟨hinv, fun w entry he => ?_, by rw [hlog]; exact h.log⟩
  rw [hworkers] at he
  rw [Current, hlog]
  exact h.probed w entry he

theorem Touched.step [NeZero n] {l : Label n m S} (h : s.Touched) (hserial : s.Serial l)
    (hquiet : s.Quiet l) (hst : s.step l = some s') : s'.Touched := by
  have hinv := h.inv.step hserial hst
  cases l with
  | assign c session =>
    rw [AudioWorkerPool.step, assign] at hst
    split_ifs at hst
    obtain rfl := Option.some.inj hst
    exact h.of_workers_eq hinv rfl rfl
  | unassign c session =>
    rw [AudioWorkerPool.step, unassign] at hst
    split_ifs at hst
    obtain rfl := Option.some.inj hst
    exact h.of_workers_eq hinv rfl rfl
  | caller c =>
    have hstep := h.inv.listed.callStep hst
    refine ⟨hinv, fun w entry he => ?_, ?_⟩
    · rw [hstep.workers] at he
      exact (hstep.current entry (h.probed w entry he)).resolve_right fun hc =>
        hquiet entry (by rw [hc]; rfl) w he
    · rcases hstep.log with hlog | ⟨event, hlog, hevent⟩
      · rw [hlog]
        exact h.log
      · rw [hlog]
        exact throughout_concat.2 ⟨h.log, hevent _⟩
  | worker w result =>
    obtain ⟨hstep, -⟩ :=
      (h.inv.worker w).step (fun entry he => (h.inv.listed.entry w entry he).2.2) hst
    refine ⟨hinv, fun v entry he => ?_, ?_⟩
    · rw [Current, hstep.current]
      by_cases hv : v = w
      · subst hv
        obtain ⟨hseen, hremoved⟩ := probed_workerLoop hst he
        exact ((h.inv.worker v).seen entry hseen).resolve_right hremoved
      · rw [hstep.workers v hv] at he
        exact h.probed v entry he
    · rcases log_workerLoop hst with hlog | ⟨entry, method, hlog, hin | hprobed⟩
      · rw [hlog]
        exact h.log
      · rw [hlog]
        exact throughout_concat.2
          ⟨h.log, Option.isSome_of_eq_some ((h.inv.worker w).inside entry hin)⟩
      · rw [hlog]
        exact throughout_concat.2 ⟨h.log, Option.isSome_of_eq_some (h.probed w entry hprobed)⟩
  | stop =>
    obtain rfl := Option.some.inj hst
    exact h.of_workers_eq hinv rfl rfl

/-- In the runs where no worker is about to ask a session for input when it is handed
    back, no method of it is called any more. -/
theorem handBack [NeZero n]
    (hs : (system n m S).ReachableIf (fun s l => s.Serial l ∧ s.Quiet l) s) :
    s.Exclusive ∧ s.DrainsInPool ∧ Throughout InPool s.log := by
  have h : s.Touched := hs.invariant ⟨.init, nofun, throughout_nil⟩
    fun _ _ _ h hl hst => h.step hl.1 hl.2 hst
  exact ⟨h.inv.exclusive, h.inv.drainsInPool, h.log⟩

/-- A worker that is about to ask a session for input when it is handed back may do so
    afterwards. -/
theorem called_of_probing {entry : Entry S} {rest : List (Entry S)} {didWork : Bool}
    (hworker : s.workers w = .probing entry rest didWork) (hc : s.callers c = .barrier entry)
    (hst : s.call c = some s') :
    ∃ t, s'.workerLoop w result = some t ∧ ¬ Throughout InPool t.log := by
  rw [AudioWorkerPool.call, hc] at hst
  obtain rfl := Option.some.inj hst
  refine ⟨_, by rw [workerLoop, setCaller, record, setDrain, hworker], fun h => ?_⟩
  have hcalled := (throughout_concat.1 h).2
  simp [InPool] at hcalled

/-- Two sessions, of which one is drained and the other handed back. -/
def handedBack : List (Label 2 1 ℕ) :=
  [.assign 0 7, .caller 0, .caller 0, .worker 0 false, .worker 0 false, .worker 0 false,
    .worker 0 true, .worker 0 false, .worker 0 false, .worker 0 false, .assign 0 8, .caller 0,
    .caller 0, .unassign 0 8, .caller 0, .caller 0, .caller 0, .caller 0, .caller 0]

theorem handBack_handedBack : ∃ s,
    (system 2 1 ℕ).ReachableIf (fun s l => s.Serial l ∧ s.Quiet l) s ∧
    s.log = [.assigned ⟨0, 7⟩, .called 0 7 .hasInbound, .called 0 7 .drainAvailable,
      .assigned ⟨1, 8⟩, .unassigned 8] ∧
    s.Exclusive ∧ s.DrainsInPool ∧ Throughout InPool s.log := by
  have hrun : ((system 2 1 ℕ).execIf (fun s l => s.Serial l ∧ s.Quiet l) (system 2 1 ℕ).init
      handedBack).map (·.log) = some [.assigned ⟨0, 7⟩, .called 0 7 .hasInbound,
        .called 0 7 .drainAvailable, .assigned ⟨1, 8⟩, .unassigned 8] := by
    decide
  obtain ⟨s, hs, hlog⟩ := Option.map_eq_some_iff.1 hrun
  have hreach := System.ReachableIf.init.execIf hs
  exact ⟨s, hreach, hlog, handBack hreach⟩

/-- A worker asks for input of a session that has been handed back. -/
theorem not_handBack : ¬ ∀ s, (system 1 1 ℕ).Reachable s → Throughout InPool s.log := by
  intro h
  have hrun : ((system 1 1 ℕ).exec (system 1 1 ℕ).init
      [.assign 0 7, .caller 0, .caller 0, .worker 0 false, .worker 0 false, .worker 0 false,
        .unassign 0 7, .caller 0, .caller 0, .caller 0, .caller 0, .worker 0 false]).map (·.log) =
      some [.assigned ⟨0, 7⟩, .unassigned 7, .called 0 7 .hasInbound] := by
    decide
  obtain ⟨s, hs, hlog⟩ := Option.map_eq_some_iff.1 hrun
  have hcalled := h s (.exec .init hs) [.assigned ⟨0, 7⟩, .unassigned 7] _ [] hlog
  exact absurd hcalled (by simp [InPool, current, tell])

end Yuviz.Gateway.AudioWorkerPool
