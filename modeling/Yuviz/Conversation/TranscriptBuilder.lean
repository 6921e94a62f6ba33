import Mathlib.Data.List.Basic
import Mathlib.Order.Nat
import Yuviz.Distinct
import Yuviz.Python.Dict
import Yuviz.System

/-!
# The writes of the transcripts

A call of the builder creates a task that waits for the last one of its session
and then writes; a write takes as long as it takes, and may fail. The callback of
an `end_call` drops the chain of the session.

The handler of a session issues its calls one after the other: `begin_call` comes
first, from `greeting`, and `end_call` last, from `on_session_end`, which is
called once. The calls of different sessions and the steps of the tasks are
interleaved in any way. What is written, but for the numbers, is left out.

What is to be written follows from the calls alone (`writes`): each has its write, a
turn the next number, and the end of a call the counts (`writes_ordered`).
-/

namespace Yuviz.Conversation.TranscriptBuilder

open Python

inductive Write
  | beginCall
  | recordTurn (turnNumber : ℕ) (interrupted : Bool)
  | recordWorkflowOutcome
  | endCall (turnCount bargeInCount : ℕ)
  deriving DecidableEq

def Write.turnNumber? : Write → Option ℕ
  | recordTurn n _ => some n
  | _ => none

def Write.isEnd : Write → Bool
  | endCall _ _ => true
  | _ => false

inductive Phase
  /-- It awaits the prior one. -/
  | waiting
  | running
  /-- It is done, whether it failed, and whether its callbacks have been called. -/
  | done (failed called : Bool)
  deriving DecidableEq

def Phase.isDone : Phase → Bool
  | done _ _ => true
  | _ => false

/-- A task of `_spawn`. -/
structure WriteTask where
  sessionId : String
  write : Write
  prior : Option ℕ
  phase : Phase
  deriving DecidableEq

/-- A call of the builder. -/
inductive Call
  | beginCall
  | recordTurn (interrupted : Bool)
  | recordWorkflowOutcome
  | endCall
  deriving DecidableEq

def Call.isTurn : Call → Bool
  | recordTurn _ => true
  | _ => false

structure Builder where
  /-- Whether there is a pool. -/
  connected : Bool
  chains : Dict String ℕ
  turnCounts : Dict String ℕ
  bargeInCounts : Dict String ℕ
  /-- The tasks, in the order in which they were created. -/
  tasks : List WriteTask

namespace Builder

variable (b : Builder)

def spawn (sessionId : String) (write : Write) : Builder :=
  { b with
    chains := Dict.set b.chains sessionId b.tasks.length
    tasks := b.tasks ++ [⟨sessionId, write, b.chains.get? sessionId, .waiting⟩] }

def beginCall (sessionId : String) : Builder :=
  spawn
    { b with
      turnCounts := Dict.set b.turnCounts sessionId 0
      bargeInCounts := Dict.set b.bargeInCounts sessionId 0 } sessionId .beginCall

def turnCount (sessionId : String) : ℕ := (b.turnCounts.get? sessionId).getD 0

def bargeInCount (sessionId : String) : ℕ := (b.bargeInCounts.get? sessionId).getD 0

def recordTurn (sessionId : String) (interrupted : Bool) : Builder :=
  spawn
    { b with
      turnCounts := Dict.set b.turnCounts sessionId (b.turnCount sessionId + 1)
      bargeInCounts :=
        if interrupted then Dict.set b.bargeInCounts sessionId (b.bargeInCount sessionId + 1)
        else b.bargeInCounts }
    sessionId (.recordTurn (b.turnCount sessionId + 1) interrupted)

def endCall (sessionId : String) : Builder :=
  spawn
    { b with
      turnCounts := Dict.del b.turnCounts sessionId
      bargeInCounts := Dict.del b.bargeInCounts sessionId }
    sessionId (.endCall (b.turnCount sessionId) (b.bargeInCount sessionId))

def call (sessionId : String) (c : Call) : Builder :=
  if b.connected then
    match c with
    | .beginCall => b.beginCall sessionId
    | .recordTurn interrupted => b.recordTurn sessionId interrupted
    | .recordWorkflowOutcome => b.spawn sessionId .recordWorkflowOutcome
    | .endCall => b.endCall sessionId
  else b

/-- What has been issued: the writes and their sessions, in order. -/
def issued : List (String × Write) := b.tasks.map fun t => (t.sessionId, t.write)

def setPhase (i : ℕ) (task : WriteTask) (phase : Phase) : Builder :=
  { b with tasks := b.tasks.set i { task with phase := phase } }

/-- The prior task of the task is done, if it has one. -/
def isReady (task : WriteTask) : Bool :=
  task.prior.all fun p => (b.tasks[p]?).any fun t => t.phase.isDone

def start (i : ℕ) : Option Builder :=
  match b.tasks[i]? with
  | some task =>
    if task.phase = .waiting ∧ b.isReady task then some (b.setPhase i task .running) else none
  | none => none

def finish (i : ℕ) (failed : Bool) : Option Builder :=
  match b.tasks[i]? with
  | some task =>
    if task.phase = .running then some (b.setPhase i task (.done failed false)) else none
  | none => none

/-- The callback of an `end_call` drops the chain. -/
def callback (i : ℕ) : Option Builder :=
  match b.tasks[i]? with
  | some task =>
    match task.phase with
    | .done failed false =>
      let b' := b.setPhase i task (.done failed true)
      some (if task.write.isEnd then { b' with chains := Dict.del b.chains task.sessionId } else b')
    | _ => none
  | none => none

end Builder

inductive Label
  | call (sessionId : String) (c : Call)
  | start (i : ℕ)
  | finish (i : ℕ) (failed : Bool)
  | callback (i : ℕ)

/-- The builder, and the calls it has got, the latest first. -/
structure Transcripts where
  builder : Builder
  calls : List (String × Call) := []

/-- What the handler of the session issues: nothing before a `begin_call`, and
    nothing after an `end_call`. -/
def Issues (calls : List (String × Call)) (sessionId : String) (c : Call) : Prop :=
  (c = .beginCall → ∀ x ∈ calls, x.1 ≠ sessionId) ∧
    ∀ x ∈ calls, x.1 = sessionId → x.2 ≠ .endCall

instance (calls : List (String × Call)) (sessionId : String) (c : Call) :
    Decidable (Issues calls sessionId c) :=
  inferInstanceAs (Decidable ((c = .beginCall → ∀ x ∈ calls, x.1 ≠ sessionId) ∧
    ∀ x ∈ calls, x.1 = sessionId → x.2 ≠ .endCall))

def step (s : Transcripts) : Label → Option Transcripts
  | .call sessionId c =>
    if Issues s.calls sessionId c then
      some { builder := s.builder.call sessionId c, calls := (sessionId, c) :: s.calls }
    else none
  | .start i => (s.builder.start i).map fun b => { s with builder := b }
  | .finish i failed => (s.builder.finish i failed).map fun b => { s with builder := b }
  | .callback i => (s.builder.callback i).map fun b => { s with builder := b }

def system (connected : Bool) : System Transcripts Label where
  init := { builder := ⟨connected, [], [], [], []⟩ }
  step := step

/-- The session of a step. -/
def Label.session? (b : Builder) : Label → Option String
  | call sessionId _ => some sessionId
  | start i | finish i _ | callback i => (b.tasks[i]?).map (·.sessionId)

/-! ## What is to be written -/

section

variable (calls : List (String × Call)) (sessionId : String)

/-- How many turns of the session have been recorded. -/
def turns : ℕ := calls.countP fun c => c.1 = sessionId && c.2.isTurn

/-- How many of them were interrupted. -/
def bargeIns : ℕ := calls.countP fun c => c.1 = sessionId && c.2 = .recordTurn true

/-- What a call is to write, after the others. -/
def writeOf : Call → Write
  | .beginCall => .beginCall
  | .recordTurn interrupted => .recordTurn (turns calls sessionId + 1) interrupted
  | .recordWorkflowOutcome => .recordWorkflowOutcome
  | .endCall => .endCall (turns calls sessionId) (bargeIns calls sessionId)

end

/-- What the calls are to write. -/
def writes : List (String × Call) → List (String × Write)
  | [] => []
  | (sessionId, c) :: calls => (sessionId, writeOf calls sessionId c) :: writes calls

namespace Builder

variable (b : Builder)

/-- The tasks of a session. -/
def tasksOf (sessionId : String) : List WriteTask := b.tasks.filter (·.sessionId = sessionId)

def turnNumbers (sessionId : String) : List ℕ :=
  b.issued.filterMap fun w => if w.1 = sessionId then w.2.turnNumber? else none

end Builder

namespace Transcripts

variable (s : Transcripts)

/-- The writes of each session are in order and complete. -/
structure Ordered : Prop where
  /-- A write of a session is executed when the earlier ones are done. -/
  sequential : ∀ (i j : ℕ) (t u : WriteTask), i < j → s.builder.tasks[i]? = some t →
    s.builder.tasks[j]? = some u → t.sessionId = u.sessionId → u.phase ≠ .waiting →
      t.phase.isDone = true
  /-- It may be executed then, whether these have failed or not, and whatever the
      other sessions do. -/
  starts : ∀ (j : ℕ) (u : WriteTask), s.builder.tasks[j]? = some u → u.phase = .waiting →
    ((s.builder.start j).isSome = true ↔
      ∀ (i : ℕ) (t : WriteTask), i < j → s.builder.tasks[i]? = some t →
        t.sessionId = u.sessionId → t.phase.isDone = true)
  /-- The calls have issued what they are to write, -/
  issued : s.builder.issued = if s.builder.connected then (writes s.calls).reverse else []
  /-- and the turns of a session have the numbers from 1 on. -/
  numbered : s.builder.connected = true → ∀ sessionId,
    s.builder.turnNumbers sessionId = List.range' 1 (turns s.calls sessionId)

/-- A step of a session changes nothing of another. -/
def Isolates : Prop :=
  ∀ l s', step s l = some s' → ∀ sessionId, l.session? s.builder ≠ some sessionId →
    s'.builder.tasksOf sessionId = s.builder.tasksOf sessionId ∧
      s'.builder.chains.get? sessionId = s.builder.chains.get? sessionId ∧
      s'.builder.turnCount sessionId = s.builder.turnCount sessionId ∧
      s'.builder.bargeInCount sessionId = s.builder.bargeInCount sessionId

end Transcripts

/-- The call of the session has not been ended. -/
def Open (calls : List (String × Call)) (sessionId : String) : Prop :=
  ∀ x ∈ calls, x.1 = sessionId → x.2 ≠ .endCall

section

variable {calls : List (String × Call)} {sessionId s : String} {c : Call} {write : Write}

theorem Open.of_cons (h : Open ((sessionId, c) :: calls) s) :
    Open calls s ∧ (sessionId = s → c ≠ .endCall) :=
  ⟨fun x hx => h x (List.mem_cons_of_mem _ hx), h (sessionId, c) List.mem_cons_self⟩

/-- A turn is counted for its session, -/
theorem turns_cons : turns ((sessionId, c) :: calls) sessionId =
    turns calls sessionId + if c.isTurn then 1 else 0 := by
  simp only [turns, List.countP_cons, decide_true, Bool.true_and]

/-- and so is its interruption, -/
theorem bargeIns_cons : bargeIns ((sessionId, c) :: calls) sessionId =
    bargeIns calls sessionId + if c = .recordTurn true then 1 else 0 := by
  simp only [bargeIns, List.countP_cons, decide_true, Bool.true_and, decide_eq_true_eq]

/-- but not for another one. -/
theorem turns_cons_of_ne (hs : sessionId ≠ s) : turns ((sessionId, c) :: calls) s = turns calls s :=
  List.countP_cons_of_neg (by simp [hs])

theorem bargeIns_cons_of_ne (hs : sessionId ≠ s) :
    bargeIns ((sessionId, c) :: calls) s = bargeIns calls s :=
  List.countP_cons_of_neg (by simp [hs])

theorem turns_eq_zero (h : ∀ x ∈ calls, x.1 ≠ sessionId) : turns calls sessionId = 0 :=
  List.countP_eq_zero.2 fun x hx => by simp [h x hx]

theorem bargeIns_eq_zero (h : ∀ x ∈ calls, x.1 ≠ sessionId) : bargeIns calls sessionId = 0 :=
  List.countP_eq_zero.2 fun x hx => by simp [h x hx]

/-- What ends a session is written for a call that does. -/
theorem not_open_of_mem_writes (h : (sessionId, write) ∈ writes calls) (hend : write.isEnd = true) :
    ¬ Open calls sessionId := by
  induction calls with
  | nil => cases h
  | cons x calls ih =>
    intro hopen
    obtain ⟨hopen, hc⟩ := hopen.of_cons
    rcases List.mem_cons.1 h with heq | hmem
    · obtain ⟨rfl, rfl⟩ := Prod.mk.inj heq
      rcases hx : x.2 with _ | _ | _ | _
      · rw [hx] at hend
        cases hend
      · rw [hx] at hend
        cases hend
      · rw [hx] at hend
        cases hend
      · exact hc rfl hx
    · exact ih hmem hopen

/-- The turns to be written have the numbers from 1 on. -/
theorem turnNumbers_writes (calls : List (String × Call)) (sessionId : String) :
    ((writes calls).reverse.filterMap fun w =>
      if w.1 = sessionId then w.2.turnNumber? else none) =
      List.range' 1 (turns calls sessionId) := by
  induction calls with
  | nil => rfl
  | cons x calls ih =>
    obtain ⟨s, c⟩ := x
    rw [writes, List.reverse_cons, List.filterMap_append, ih]
    by_cases hs : s = sessionId
    · subst hs
      rw [turns_cons]
      cases c with
      | recordTurn interrupted =>
        rw [Call.isTurn, if_pos rfl, List.range'_1_concat, Nat.add_comm 1]
        simp [writeOf, Write.turnNumber?]
      | _ => simp [writeOf, Write.turnNumber?, Call.isTurn]
    · rw [turns_cons_of_ne hs]
      simp [hs]

end

/-! ### Last occurrences -/

section

variable {α : Type*} {l : List α} {x y : α} {o : Option ℕ}

/-- The last place of `x` in the list, if it is there. -/
def IsLast (l : List α) (x : α) : Option ℕ → Prop
  | none => x ∉ l
  | some p => l[p]? = some x ∧ ∀ i, l[i]? = some x → i ≤ p

/-- What comes last is the last of its kind, -/
theorem isLast_concat : IsLast (l ++ [x]) x (some l.length) := by
  refine ⟨by simp, fun i hi => ?_⟩
  have := (List.getElem?_eq_some_iff.1 hi).1
  rw [List.length_append, List.length_singleton] at this
  omega

/-- and of another kind it is still the one that was. -/
theorem IsLast.concat_of_ne (h : IsLast l x o) (hne : y ≠ x) : IsLast (l ++ [y]) x o := by
  cases o with
  | none =>
    intro hx
    rcases List.mem_append.1 hx with hx | hx
    · exact h hx
    · exact hne (List.mem_singleton.1 hx).symm
  | some p =>
    refine ⟨List.getElem?_append_left (List.getElem?_eq_some_iff.1 h.1).1 ▸ h.1, fun i hi => ?_⟩
    rcases Nat.lt_or_ge i l.length with hlt | hge
    · exact h.2 i (List.getElem?_append_left hlt ▸ hi)
    · rw [List.getElem?_append_right hge] at hi
      have hmem := List.mem_of_getElem? hi
      exact absurd (List.mem_singleton.1 hmem).symm hne

end

namespace Builder

/-! ## The chains -/

variable (b : Builder)

/-- The sessions of the tasks, and what these wait for. -/
def links : List (String × Option ℕ) := b.tasks.map fun t => (t.sessionId, t.prior)

/-- What holds in every state. -/
structure Wf (calls : List (String × Call)) : Prop where
  prior : ∀ (j : ℕ) (k : String × Option ℕ), b.links[j]? = some k →
    IsLast ((b.links.take j).map Prod.fst) k.1 k.2
  chain : b.connected = true → ∀ sessionId, Open calls sessionId →
    IsLast (b.links.map Prod.fst) sessionId (b.chains.get? sessionId)
  counts : b.connected = true → ∀ sessionId, Open calls sessionId →
    b.turnCount sessionId = turns calls sessionId ∧
      b.bargeInCount sessionId = bargeIns calls sessionId
  ready : ∀ t ∈ b.tasks, t.phase ≠ .waiting → b.isReady t = true
  issued : b.issued = if b.connected then (writes calls).reverse else []

variable {b} {i j : ℕ} {t u : WriteTask} {sessionId : String} {calls : List (String × Call)}

theorem links_getElem? (h : b.tasks[i]? = some t) : b.links[i]? = some (t.sessionId, t.prior) := by
  rw [links, List.getElem?_map, h, Option.map_some]

theorem links_take_getElem? (h : b.tasks[i]? = some t) (hij : i < j) :
    ((b.links.take j).map Prod.fst)[i]? = some t.sessionId := by
  rw [List.getElem?_map, List.getElem?_take_of_lt hij, links_getElem? h, Option.map_some]

/-- A task that is ready finds all the earlier ones of its session done, and not
    only its prior one, which has itself been ready. -/
theorem Wf.done_of_isReady (h : b.Wf calls) (hu : b.tasks[j]? = some u)
    (hready : b.isReady u = true) (hij : i < j) (ht : b.tasks[i]? = some t)
    (hs : t.sessionId = u.sessionId) : t.phase.isDone = true := by
  induction j using Nat.strong_induction_on generalizing u with
  | h j ih =>
    have hprior := h.prior j _ (links_getElem? hu)
    have hti := links_take_getElem? ht hij
    rw [hs] at hti
    obtain ⟨sid, write, prior, phase⟩ := u
    cases prior with
    | none => exact absurd (List.mem_of_getElem? hti) hprior
    | some p =>
      obtain ⟨hp, hlast⟩ := hprior
      have hpj : p < j := by
        have := (List.getElem?_eq_some_iff.1 hp).1
        rw [List.length_map, List.length_take] at this
        omega
      rw [isReady, Option.all_some, Option.any_eq_true] at hready
      obtain ⟨v, hv, hdone⟩ := hready
      rcases (hlast i hti).lt_or_eq with hip | rfl
      · have hvs := links_take_getElem? hv hpj
        rw [hp] at hvs
        have hne : v.phase ≠ .waiting := by
          rintro hw
          rw [hw] at hdone
          exact absurd hdone (by decide)
        exact ih p hpj hv (h.ready v (List.mem_of_getElem? hv) hne) hip
          (hs.trans (Option.some.inj hvs))
      · obtain rfl := Option.some.inj (ht.symm.trans hv)
        exact hdone

/-- So a task is ready if and only if all the earlier ones of its session are done. -/
theorem Wf.isReady_iff (h : b.Wf calls) (hu : b.tasks[j]? = some u) : b.isReady u = true ↔
    ∀ (i : ℕ) (t : WriteTask), i < j → b.tasks[i]? = some t → t.sessionId = u.sessionId →
      t.phase.isDone = true := by
  refine ⟨fun hready i t hij ht hs => h.done_of_isReady hu hready hij ht hs, fun hall => ?_⟩
  have hprior := h.prior j _ (links_getElem? hu)
  obtain ⟨sid, write, prior, phase⟩ := u
  cases prior with
  | none => rfl
  | some p =>
    have hp := hprior.1
    have hpj : p < j := by
      have := (List.getElem?_eq_some_iff.1 hp).1
      rw [List.length_map, List.length_take] at this
      omega
    rw [List.getElem?_map, List.getElem?_take_of_lt hpj, links, List.getElem?_map,
      Option.map_map, Option.map_eq_some_iff] at hp
    obtain ⟨v, hv, hvs⟩ := hp
    rw [isReady, Option.all_some, Option.any_eq_true]
    exact ⟨v, hv, hall p v hpj hv hvs⟩

/-! ### Steps of the tasks -/

section

variable {phase : Phase}

@[simp] theorem links_setPhase (ht : b.tasks[i]? = some t) :
    (b.setPhase i t phase).links = b.links :=
  map_set_of_eq ht rfl

@[simp] theorem issued_setPhase (ht : b.tasks[i]? = some t) :
    (b.setPhase i t phase).issued = b.issued :=
  map_set_of_eq ht rfl

/-- A task that gets ahead keeps the others ready. -/
theorem isReady_setPhase (ht : b.tasks[i]? = some t)
    (hdone : t.phase.isDone = true → phase.isDone = true) (hu : b.isReady u = true) :
    (b.setPhase i t phase).isReady u = true := by
  obtain ⟨sid, write, prior, uphase⟩ := u
  cases prior with
  | none => rfl
  | some p =>
    rw [isReady, Option.all_some, Option.any_eq_true] at hu ⊢
    obtain ⟨v, hv, hvdone⟩ := hu
    by_cases hp : i = p
    · subst hp
      obtain rfl := Option.some.inj (ht.symm.trans hv)
      refine ⟨_, List.getElem?_set_self (List.getElem?_eq_some_iff.1 hv).1, hdone hvdone⟩
    · exact ⟨v, (List.getElem?_set_ne hp).trans hv, hvdone⟩

/-- A task may get ahead when it is ready, and does not go back. -/
theorem Wf.setPhase (h : b.Wf calls) (ht : b.tasks[i]? = some t)
    (hdone : t.phase.isDone = true → phase.isDone = true)
    (hready : phase ≠ .waiting → b.isReady t = true) : (b.setPhase i t phase).Wf calls where
  prior := by
    rw [links_setPhase ht]
    exact h.prior
  chain := by
    rw [links_setPhase ht]
    exact h.chain
  counts := h.counts
  ready := by
    intro u hu hne
    rcases List.mem_or_eq_of_mem_set hu with hu | rfl
    · exact isReady_setPhase ht hdone (h.ready u hu hne)
    · exact isReady_setPhase ht hdone (hready hne)
  issued := by
    rw [issued_setPhase ht]
    exact h.issued

/-- The chain of a session that has ended is not needed any more. -/
theorem Wf.delChain (h : b.Wf calls) (hopen : ¬ Open calls sessionId) :
    Wf { b with chains := Dict.del b.chains sessionId } calls where
  prior := h.prior
  chain hconnected sid hsid := by
    have hne : sid ≠ sessionId := by
      rintro rfl
      exact hopen hsid
    exact (Dict.get?_del_ne hne).symm ▸ h.chain hconnected sid hsid
  counts := h.counts
  ready := h.ready
  issued := h.issued

/-- Only the write of an `end_call` ends a session. -/
theorem Wf.not_open (h : b.Wf calls) (ht : t ∈ b.tasks) (hend : t.write.isEnd = true) :
    ¬ Open calls t.sessionId := by
  have hmem : (t.sessionId, t.write) ∈ b.issued :=
    List.mem_map_of_mem (f := fun t : WriteTask => (t.sessionId, t.write)) ht
  rw [h.issued] at hmem
  split_ifs at hmem
  · exact not_open_of_mem_writes (List.mem_reverse.1 hmem) hend
  · cases hmem

variable {b' : Builder} {failed : Bool}

/-- A task runs when it is ready, -/
theorem of_start (hst : b.start i = some b') : ∃ t, b.tasks[i]? = some t ∧ t.phase = .waiting ∧
    b.isReady t = true ∧ b' = b.setPhase i t .running := by
  rw [Builder.start] at hst
  split at hst
  · next task htask =>
    split_ifs at hst with hc
    exact ⟨task, htask, hc.1, hc.2, (Option.some.inj hst).symm⟩
  · exact nomatch hst

/-- ends when it has run, -/
theorem of_finish (hst : b.finish i failed = some b') : ∃ t, b.tasks[i]? = some t ∧
    t.phase = .running ∧ b' = b.setPhase i t (.done failed false) := by
  rw [Builder.finish] at hst
  split at hst
  · next task htask =>
    split_ifs at hst with hc
    exact ⟨task, htask, hc, (Option.some.inj hst).symm⟩
  · exact nomatch hst

/-- and has its callbacks called then, which may drop the chain. -/
theorem of_callback (hst : b.callback i = some b') : ∃ t failed, b.tasks[i]? = some t ∧
    t.phase = .done failed false ∧
    b' = if t.write.isEnd then
      { b.setPhase i t (.done failed true) with chains := Dict.del b.chains t.sessionId }
    else b.setPhase i t (.done failed true) := by
  rw [Builder.callback] at hst
  split at hst
  · next task htask =>
    split at hst
    · next failed hphase => exact ⟨task, failed, htask, hphase, (Option.some.inj hst).symm⟩
    · exact nomatch hst
  · exact nomatch hst

theorem Wf.start (h : b.Wf calls) (hst : b.start i = some b') : b'.Wf calls := by
  obtain ⟨task, htask, hphase, hready, rfl⟩ := of_start hst
  refine h.setPhase htask (fun hdone => ?_) fun _ => hready
  rw [hphase] at hdone
  exact Bool.noConfusion hdone

theorem Wf.finish (h : b.Wf calls) (hst : b.finish i failed = some b') : b'.Wf calls := by
  obtain ⟨task, htask, hphase, rfl⟩ := of_finish hst
  refine h.setPhase htask (fun _ => rfl) fun _ => h.ready task (List.mem_of_getElem? htask) ?_
  rw [hphase]
  exact Phase.noConfusion

theorem Wf.callback (h : b.Wf calls) (hst : b.callback i = some b') : b'.Wf calls := by
  obtain ⟨task, failed, htask, hphase, rfl⟩ := of_callback hst
  have hmem := List.mem_of_getElem? htask
  have h' : (b.setPhase i task (.done failed true)).Wf calls := by
    refine h.setPhase htask (fun _ => rfl) fun _ => h.ready task hmem ?_
    rw [hphase]
    exact Phase.noConfusion
  split_ifs with hend
  · exact h'.delChain (h.not_open hmem hend)
  · exact h'

end

/-! ### Calls -/

section

variable {write : Write}

theorem links_spawn :
    (b.spawn sessionId write).links = b.links ++ [(sessionId, b.chains.get? sessionId)] :=
  List.map_append

theorem issued_spawn : (b.spawn sessionId write).issued = b.issued ++ [(sessionId, write)] :=
  List.map_append

theorem isReady_spawn (hu : b.isReady u = true) : (b.spawn sessionId write).isReady u = true := by
  obtain ⟨sid, w, prior, phase⟩ := u
  cases prior with
  | none => rfl
  | some p =>
    rw [isReady, Option.all_some, Option.any_eq_true] at hu ⊢
    obtain ⟨v, hv, hdone⟩ := hu
    exact ⟨v, (List.getElem?_append_left (List.getElem?_eq_some_iff.1 hv).1).trans hv, hdone⟩

/-- A write of a session that has not ended. The counters of the session have been
    updated, and those of the others are as they were. -/
theorem Wf.spawn {c : Call} {turnCounts bargeInCounts : Dict String ℕ} (h : b.Wf calls)
    (hconnected : b.connected = true) (hopen : Open calls sessionId)
    (hwrite : write = writeOf calls sessionId c)
    (hother : ∀ s, s ≠ sessionId → turnCounts.get? s = b.turnCounts.get? s ∧
      bargeInCounts.get? s = b.bargeInCounts.get? s)
    (hcounts : c ≠ .endCall →
      (turnCounts.get? sessionId).getD 0 = turns ((sessionId, c) :: calls) sessionId ∧
      (bargeInCounts.get? sessionId).getD 0 = bargeIns ((sessionId, c) :: calls) sessionId) :
    (Builder.spawn { b with turnCounts := turnCounts, bargeInCounts := bargeInCounts }
      sessionId write).Wf ((sessionId, c) :: calls) where
  prior j k hk := by
    rw [links_spawn] at hk ⊢
    change (b.links ++ _)[j]? = some k at hk
    change IsLast (((b.links ++ _).take j).map Prod.fst) k.1 k.2
    rcases Nat.lt_or_ge j b.links.length with hj | hj
    · rw [List.getElem?_append_left hj] at hk
      rw [List.take_append_of_le_length hj.le]
      exact h.prior j k hk
    · rw [List.getElem?_append_right hj, List.getElem?_singleton] at hk
      split_ifs at hk with h0
      obtain rfl := Option.some.inj hk
      rw [List.take_append_of_le_length (by omega), List.take_of_length_le hj]
      exact h.chain hconnected sessionId hopen
  chain _ s hs := by
    rw [links_spawn, List.map_append, List.map_singleton]
    change IsLast _ s ((Dict.set b.chains sessionId b.tasks.length).get? s)
    rw [Dict.get?_set]
    split_ifs with heq
    · subst heq
      have hlen : b.tasks.length = (b.links.map Prod.fst).length := by
        rw [List.length_map, links, List.length_map]
      rw [hlen]
      exact isLast_concat
    · exact (h.chain hconnected s hs.of_cons.1).concat_of_ne (Ne.symm heq)
  counts _ s hs := by
    obtain ⟨hsopen, hsend⟩ := hs.of_cons
    by_cases heq : sessionId = s
    · subst heq
      exact hcounts (hsend rfl)
    · obtain ⟨ht, hb⟩ := hother s (Ne.symm heq)
      rw [turns_cons_of_ne heq, bargeIns_cons_of_ne heq]
      change (turnCounts.get? s).getD 0 = _ ∧ (bargeInCounts.get? s).getD 0 = _
      rw [ht, hb]
      exact h.counts hconnected s hsopen
  ready u hu hne := by
    rcases List.mem_append.1 hu with hu | hu
    · exact isReady_spawn (h.ready u hu hne)
    · obtain rfl := List.mem_singleton.1 hu
      exact absurd rfl hne
  issued := by
    rw [issued_spawn, writes, List.reverse_cons, ← hwrite]
    change b.issued ++ _ = if b.connected then _ else _
    rw [h.issued, if_pos hconnected, if_pos hconnected]

end

/-- The counters of a session begin at zero. -/
theorem Wf.beginCall (h : b.Wf calls) (hconnected : b.connected = true)
    (hopen : Open calls sessionId) (hfirst : ∀ x ∈ calls, x.1 ≠ sessionId) :
    (b.beginCall sessionId).Wf ((sessionId, .beginCall) :: calls) := by
  refine h.spawn hconnected hopen rfl (fun s hs => ?_) fun _ => ?_
  · rw [Dict.get?_set, if_neg hs, Dict.get?_set, if_neg hs]
    exact ⟨rfl, rfl⟩
  · rw [Dict.get?_set, if_pos rfl, Dict.get?_set, if_pos rfl]
    rw [turns_cons, bargeIns_cons, turns_eq_zero hfirst, bargeIns_eq_zero hfirst]
    exact ⟨rfl, rfl⟩

/-- A turn is numbered and counted. -/
theorem Wf.recordTurn {interrupted : Bool} (h : b.Wf calls) (hconnected : b.connected = true)
    (hopen : Open calls sessionId) :
    (b.recordTurn sessionId interrupted).Wf ((sessionId, .recordTurn interrupted) :: calls) := by
  obtain ⟨hturns, hbargeIns⟩ := h.counts hconnected sessionId hopen
  refine h.spawn hconnected hopen (by rw [hturns, writeOf]) (fun s hs => ?_) fun _ => ?_
  · rw [Dict.get?_set, if_neg hs]
    refine ⟨rfl, ?_⟩
    cases interrupted
    · rfl
    · rw [if_pos rfl, Dict.get?_set, if_neg hs]
  · rw [Dict.get?_set, if_pos rfl, hturns, turns_cons, bargeIns_cons]
    refine ⟨rfl, ?_⟩
    cases interrupted
    · exact hbargeIns
    · rw [if_pos rfl, Dict.get?_set, if_pos rfl, hbargeIns]
      rfl

/-- An outcome is neither. -/
theorem Wf.recordWorkflowOutcome (h : b.Wf calls) (hconnected : b.connected = true)
    (hopen : Open calls sessionId) :
    (b.spawn sessionId .recordWorkflowOutcome).Wf
      ((sessionId, .recordWorkflowOutcome) :: calls) := by
  refine h.spawn hconnected hopen rfl (fun s _ => ⟨rfl, rfl⟩) fun _ => ?_
  rw [turns_cons, bargeIns_cons]
  exact h.counts hconnected sessionId hopen

/-- The end of a call has the counts. -/
theorem Wf.endCall (h : b.Wf calls) (hconnected : b.connected = true)
    (hopen : Open calls sessionId) :
    (b.endCall sessionId).Wf ((sessionId, .endCall) :: calls) := by
  obtain ⟨hturns, hbargeIns⟩ := h.counts hconnected sessionId hopen
  refine h.spawn hconnected hopen (by rw [hturns, hbargeIns, writeOf]) (fun s hs => ?_)
    fun hend => absurd rfl hend
  exact ⟨Dict.get?_del_ne hs, Dict.get?_del_ne hs⟩

/-- A call is what its handler issues, whether there is a pool or not. -/
theorem Wf.call {c : Call} (h : b.Wf calls) (hc : Issues calls sessionId c) :
    (b.call sessionId c).Wf ((sessionId, c) :: calls) := by
  rw [Builder.call.eq_def]
  split_ifs with hconnected
  · cases c with
    | beginCall => exact h.beginCall hconnected hc.2 (hc.1 rfl)
    | recordTurn interrupted => exact h.recordTurn hconnected hc.2
    | recordWorkflowOutcome => exact h.recordWorkflowOutcome hconnected hc.2
    | endCall => exact h.endCall hconnected hc.2
  · refine ⟨h.prior, fun h' => absurd h' hconnected, fun h' => absurd h' hconnected, h.ready, ?_⟩
    rw [if_neg hconnected, h.issued, if_neg hconnected]

/-! ## Runs -/

/-- Every step keeps the chains, the counters and the writes in order. -/
theorem Wf.step {l : Label} {s s' : Transcripts} (h : s.builder.Wf s.calls)
    (hst : TranscriptBuilder.step s l = some s') : s'.builder.Wf s'.calls := by
  cases l with
  | call sessionId c =>
    rw [TranscriptBuilder.step] at hst
    split_ifs at hst with hc
    obtain rfl := Option.some.inj hst
    exact h.call hc
  | start i =>
    obtain ⟨b, hb, rfl⟩ := Option.map_eq_some_iff.1 hst
    exact h.start hb
  | finish i failed =>
    obtain ⟨b, hb, rfl⟩ := Option.map_eq_some_iff.1 hst
    exact h.finish hb
  | callback i =>
    obtain ⟨b, hb, rfl⟩ := Option.map_eq_some_iff.1 hst
    exact h.callback hb

theorem wf_init (connected : Bool) : (system connected).init.builder.Wf [] where
  prior _ _ hk := nomatch hk
  chain _ _ _ := List.not_mem_nil
  counts _ _ _ := ⟨rfl, rfl⟩
  ready _ ht := nomatch ht
  issued := by cases connected <;> rfl

/-- That is what is promised of the writes. -/
theorem Wf.ordered {s : Transcripts} (h : s.builder.Wf s.calls) : s.Ordered where
  sequential i j t u hij ht hu hs hphase :=
    h.done_of_isReady hu (h.ready u (List.mem_of_getElem? hu) hphase) hij ht hs
  starts j u hu hphase := by
    rw [← h.isReady_iff hu, Builder.start, hu]
    simp [hphase]
  issued := h.issued
  numbered hconnected sessionId := by
    rw [turnNumbers, h.issued, if_pos hconnected]
    exact turnNumbers_writes s.calls sessionId

theorem tasksOf_setPhase {phase : Phase} (ht : b.tasks[i]? = some t)
    (hs : t.sessionId ≠ sessionId) :
    (b.setPhase i t phase).tasksOf sessionId = b.tasksOf sessionId :=
  filter_set_of_false ht (decide_eq_false hs) (decide_eq_false hs)

theorem tasksOf_spawn {write : Write} {s : String} (hs : sessionId ≠ s) :
    (b.spawn sessionId write).tasksOf s = b.tasksOf s := by
  rw [tasksOf, tasksOf, spawn, List.filter_append, List.filter_cons_of_neg (by simp [hs]),
    List.filter_nil, List.append_nil]

section

variable {s : String}

theorem chains_spawn {write : Write} (hs : s ≠ sessionId) :
    (b.spawn sessionId write).chains.get? s = b.chains.get? s := by
  rw [spawn, Dict.get?_set, if_neg hs]

/-- A call of a session leaves another as it is. -/
theorem call_frame {c : Call} (hs : sessionId ≠ s) :
    (b.call sessionId c).tasksOf s = b.tasksOf s ∧
      (b.call sessionId c).chains.get? s = b.chains.get? s ∧
      (b.call sessionId c).turnCount s = b.turnCount s ∧
      (b.call sessionId c).bargeInCount s = b.bargeInCount s := by
  rw [Builder.call.eq_def]
  split_ifs
  · cases c with
    | beginCall =>
      refine ⟨tasksOf_spawn hs, chains_spawn hs.symm, ?_, ?_⟩
      · exact congrArg (Option.getD · 0) (Dict.get?_set.trans (if_neg hs.symm))
      · exact congrArg (Option.getD · 0) (Dict.get?_set.trans (if_neg hs.symm))
    | recordTurn interrupted =>
      refine ⟨tasksOf_spawn hs, chains_spawn hs.symm, ?_, ?_⟩
      · exact congrArg (Option.getD · 0) (Dict.get?_set.trans (if_neg hs.symm))
      · cases interrupted
        · rfl
        · exact congrArg (Option.getD · 0) (Dict.get?_set.trans (if_neg hs.symm))
    | recordWorkflowOutcome => exact ⟨tasksOf_spawn hs, chains_spawn hs.symm, rfl, rfl⟩
    | endCall =>
      refine ⟨tasksOf_spawn hs, chains_spawn hs.symm, ?_, ?_⟩
      · exact congrArg (Option.getD · 0) (Dict.get?_del_ne hs.symm)
      · exact congrArg (Option.getD · 0) (Dict.get?_del_ne hs.symm)
  · exact ⟨rfl, rfl, rfl, rfl⟩

end

theorem ne_of_session {s : String} (ht : b.tasks[i]? = some t)
    (hs : (b.tasks[i]?).map (·.sessionId) ≠ some s) : t.sessionId ≠ s := by
  rw [ht, Option.map_some] at hs
  exact fun heq => hs (congrArg some heq)

/-- So does every step. -/
theorem isolates (s : Transcripts) : s.Isolates := by
  intro l s' hst sid hs
  cases l with
  | call sessionId c =>
    rw [TranscriptBuilder.step] at hst
    split_ifs at hst
    obtain rfl := Option.some.inj hst
    exact call_frame fun heq => hs (congrArg some heq)
  | start i =>
    obtain ⟨b, hb, rfl⟩ := Option.map_eq_some_iff.1 hst
    obtain ⟨task, htask, _, _, rfl⟩ := of_start hb
    exact ⟨tasksOf_setPhase htask (ne_of_session htask hs), rfl, rfl, rfl⟩
  | finish i failed =>
    obtain ⟨b, hb, rfl⟩ := Option.map_eq_some_iff.1 hst
    obtain ⟨task, htask, _, rfl⟩ := of_finish hb
    exact ⟨tasksOf_setPhase htask (ne_of_session htask hs), rfl, rfl, rfl⟩
  | callback i =>
    obtain ⟨b, hb, rfl⟩ := Option.map_eq_some_iff.1 hst
    obtain ⟨task, failed, htask, _, rfl⟩ := of_callback hb
    have hne := ne_of_session htask hs
    dsimp only
    split_ifs
    · exact ⟨tasksOf_setPhase htask hne, Dict.get?_del_ne hne.symm, rfl, rfl⟩
    · exact ⟨tasksOf_setPhase htask hne, rfl, rfl, rfl⟩

end Builder

/-- The writes of a session are executed one at a time, in the order in which they
    were issued, whether the earlier ones have failed or not; every call has issued its
    write, the turns numbered from 1, and an `end_call` with the numbers of the turns that
    were recorded and of those that were interrupted; and no session is affected by another. -/
theorem writes_ordered {connected : Bool} {s : Transcripts}
    (hs : (system connected).Reachable s) : s.Ordered ∧ s.Isolates := by
  have hwf : s.builder.Wf s.calls := hs.invariant (I := fun s => s.builder.Wf s.calls)
    (Builder.wf_init connected) fun _ _ _ h hst => h.step hst
  exact ⟨hwf.ordered, Builder.isolates s⟩

/-- The first write of a session fails, and its second one is executed while the
    writes of another session wait. -/
def twoSessions : List Label :=
  [.call "a" .beginCall, .call "b" .beginCall, .call "a" (.recordTurn true), .start 0,
    .finish 0 true, .start 2, .callback 0, .call "b" (.recordTurn false), .call "a" .endCall,
    .call "b" .endCall, .finish 2 false, .start 4, .finish 4 false, .callback 4, .start 1]

theorem writes_ordered_twoSessions : ∃ s : Transcripts,
    (system true).exec (system true).init twoSessions = some s ∧
      s.builder.issued = [("a", .beginCall), ("b", .beginCall), ("a", .recordTurn 1 true),
        ("b", .recordTurn 1 false), ("a", .endCall 1 1), ("b", .endCall 1 0)] ∧
      s.Ordered ∧ s.Isolates := by
  have hrun : ((system true).exec (system true).init twoSessions).map (·.builder.issued) =
      some [("a", .beginCall), ("b", .beginCall), ("a", .recordTurn 1 true),
        ("b", .recordTurn 1 false), ("a", .endCall 1 1), ("b", .endCall 1 0)] := by
    decide
  obtain ⟨s, hs, hissued⟩ := Option.map_eq_some_iff.1 hrun
  exact ⟨s, hs, hissued, writes_ordered (.exec .init hs)⟩

end Yuviz.Conversation.TranscriptBuilder
