import Yuviz.Log
import Yuviz.System

/-!
# The manager of the providers

There is one instance of a provider for the id of a configuration, which the first
`get` constructs under the lock of the id. Tasks take turns at the points where they
await something: the lock, the secret, the factory.

At most one factory runs for an id, what is returned between two invalidations is the
same, and a factory that fails leaves nothing behind. An instance is installed even if
the id was invalidated while its factory ran, and so a later `get` may be answered with
an instance of an old configuration (`not_fresh`); in the runs where none is, every
answer is fresh (`coherent`).
-/

namespace Yuviz.Conversation

structure ProviderConfig (X : Type*) where
  id : String
  role : String
  engine : String
  apiKeyRef : Option String
  /-- What else there is for the factory. -/
  rest : X
  deriving DecidableEq

/-- An instance, and the task that had it constructed. -/
structure Provider (T V : Type*) where
  instanceOf : V
  builder : T
  deriving DecidableEq

namespace AiProviderManager

/-- What a task awaits under the lock. -/
inductive Stage
  | resolving
  | constructing
  deriving DecidableEq

/-- Where a task is in `get`. -/
inductive Phase (X : Type*)
  | idle
  | waiting (cfg : ProviderConfig X)
  | inside (cfg : ProviderConfig X) (stage : Stage)
  | done

inductive Event (T X V : Type*)
  | started (t : T) (cfg : ProviderConfig X)
  | returned (t : T) (id : String) (p : Provider T V)
  | raised (t : T)
  | invalidated (id : String)
  deriving DecidableEq

/-- An `asyncio.Lock`. The waiters take it in their order. -/
structure Lock (T : Type*) where
  holder : Option T := none
  waiters : List T := []

inductive Label (T X V : Type*)
  | get (t : T) (cfg : ProviderConfig X)
  /-- The first waiter has the lock. -/
  | acquired (t : T)
  /-- The secret is there, or cannot be resolved. -/
  | resolved (t : T) (ok : Bool)
  /-- The factory has returned, or raised an exception. -/
  | constructed (t : T) (instanceOf : Option V)
  | invalidate (id : String)

structure State (T X V : Type*) where
  instances : String → Option (Provider T V) := fun _ => none
  locks : String → Lock T := fun _ => {}
  phase : T → Phase X := fun _ => .idle
  log : List (Event T X V) := []

variable {T X V : Type*}

namespace State

variable (s : State T X V)

def note (e : Event T X V) : State T X V := { s with log := s.log ++ [e] }

def setPhase [DecidableEq T] (t : T) (phase : Phase X) : State T X V :=
  { s with phase := Function.update s.phase t phase }

def setLock (id : String) (lock : Lock T) : State T X V :=
  { s with locks := Function.update s.locks id lock }

def install (id : String) (p : Option (Provider T V)) : State T X V :=
  { s with instances := Function.update s.instances id p }

/-- The end of the `async with`. -/
def release (id : String) : State T X V := s.setLock id { s.locks id with holder := none }

def answer [DecidableEq T] (t : T) (id : String) (p : Provider T V) : State T X V :=
  (s.setPhase t .done).note (.returned t id p)

def raise [DecidableEq T] (t : T) : State T X V := (s.setPhase t .done).note (.raised t)

/-- The body of the `async with`, up to the first thing that is awaited. -/
def enter [DecidableEq T] (registered : String → String → Bool) (t : T) (cfg : ProviderConfig X) :
    State T X V :=
  match s.instances cfg.id with
  | some p => (s.release cfg.id).answer t cfg.id p
  | none =>
    if registered cfg.role cfg.engine then
      s.setPhase t (.inside cfg
        (if cfg.apiKeyRef.any (· ≠ "") then .resolving else .constructing))
    else (s.release cfg.id).raise t

end State

/-- A step of a task, or an invalidation. There is a factory for the roles and engines that are
registered. -/
def step [DecidableEq T] (registered : String → String → Bool) (s : State T X V) :
    Label T X V → Option (State T X V)
  | .get t cfg =>
    match s.phase t with
    | .idle =>
      let s := s.note (.started t cfg)
      match s.instances cfg.id with
      | some p => some (s.answer t cfg.id p)
      | none =>
        match s.locks cfg.id with
        | ⟨none, []⟩ => some ((s.setLock cfg.id ⟨some t, []⟩).enter registered t cfg)
        | ⟨holder, waiters⟩ =>
          some ((s.setLock cfg.id ⟨holder, waiters ++ [t]⟩).setPhase t (.waiting cfg))
    | _ => none
  | .acquired t =>
    match s.phase t with
    | .waiting cfg =>
      match s.locks cfg.id with
      | ⟨none, t' :: waiters⟩ =>
        if t' = t then some ((s.setLock cfg.id ⟨some t, waiters⟩).enter registered t cfg) else none
      | _ => none
    | _ => none
  | .resolved t ok =>
    match s.phase t with
    | .inside cfg .resolving =>
      if ok then some (s.setPhase t (.inside cfg .constructing))
      else some ((s.release cfg.id).raise t)
    | _ => none
  | .constructed t instanceOf =>
    match s.phase t, instanceOf with
    | .inside cfg .constructing, some v =>
      some (((s.install cfg.id (some ⟨v, t⟩)).release cfg.id).answer t cfg.id ⟨v, t⟩)
    | .inside cfg .constructing, none => some ((s.release cfg.id).raise t)
    | _, _ => none
  | .invalidate id => some ((s.install id none).note (.invalidated id))

/-- The manager, for the factories that are registered. -/
def system [DecidableEq T] (registered : String → String → Bool) :
    System (State T X V) (Label T X V) where
  init := {}
  step := step registered

/-! ### The cache -/

/-- Two answers for an id are the same unless it is invalidated between them. -/
def Same (before : List (Event T X V)) : Event T X V → Prop
  | .returned _ id p => ∀ a t p' b,
    before = a ++ .returned t id p' :: b → .invalidated id ∉ b → p' = p
  | _ => True

namespace State

/-- The instance is in the cache, or was returned. -/
def Used (s : State T X V) (p : Provider T V) : Prop :=
  (∃ id, s.instances id = some p) ∨ ∃ t id, .returned t id p ∈ s.log

/-- What is used was constructed, and what was returned since the last invalidation is cached. -/
structure CacheInv (s : State T X V) : Prop where
  raised : ∀ t, .raised t ∈ s.log → s.phase t = .done
  used : ∀ p, s.Used p → s.phase p.builder = .done ∧ .raised p.builder ∉ s.log
  cached : ∀ a t id p b, s.log = a ++ .returned t id p :: b → .invalidated id ∉ b →
    s.instances id = some p
  same : Throughout Same s.log

variable {s : State T X V} {t : T} {id : String} {p : Provider T V} {phase : Phase X}

theorem CacheInv.setLock (h : s.CacheInv) {lock : Lock T} : (s.setLock id lock).CacheInv :=
  ⟨h.raised, h.used, h.cached, h.same⟩

theorem CacheInv.release (h : s.CacheInv) : (s.release id).CacheInv := h.setLock

theorem CacheInv.note_started (h : s.CacheInv) (t : T) (cfg : ProviderConfig X) :
    (s.note (.started t cfg)).CacheInv := by
  refine ⟨fun t' ht' => ?_, fun p hp => ?_, fun a t' id p b hlog hb => ?_,
    throughout_concat.2 ⟨h.same, trivial⟩⟩
  · exact h.raised t' (by simpa [note] using ht')
  · obtain ⟨hdone, hraised⟩ := h.used p (by simpa [Used, note] using hp)
    exact ⟨hdone, by simpa [note] using hraised⟩
  · rcases concat_eq_append_cons.1 hlog with ⟨-, he, -⟩ | ⟨b', rfl, hlog'⟩
    · cases he
    · exact h.cached a t' id p b' hlog' fun hmem => hb (List.mem_append_left _ hmem)

/-- The instance that is cached is returned. -/
theorem CacheInv.note_returned (h : s.CacheInv) (hp : s.instances id = some p) :
    (s.note (.returned t id p)).CacheInv := by
  refine ⟨fun t' ht' => ?_, fun p' hp' => ?_, fun a t' id' p' b hlog hb => ?_,
    throughout_concat.2 ⟨h.same, fun a t' p' b hlog hb => ?_⟩⟩
  · exact h.raised t' (by simpa [note] using ht')
  · have hused : s.Used p' := by
      rcases hp' with hcached | ⟨t', id', hmem⟩
      · exact .inl hcached
      · rcases List.mem_append.1 hmem with hmem | hmem
        · exact .inr ⟨t', id', hmem⟩
        · obtain ⟨-, rfl, rfl⟩ : t' = t ∧ id' = id ∧ p' = p := by simpa using hmem
          exact .inl ⟨id', hp⟩
    obtain ⟨hdone, hraised⟩ := h.used p' hused
    exact ⟨hdone, by simpa [note] using hraised⟩
  · rcases concat_eq_append_cons.1 hlog with ⟨-, he, -⟩ | ⟨b', rfl, hlog'⟩
    · cases he
      exact hp
    · exact h.cached a t' id' p' b' hlog' fun hmem => hb (List.mem_append_left _ hmem)
  · exact Option.some.inj ((h.cached a t' id p' b hlog hb).symm.trans hp)

theorem CacheInv.invalidate (h : s.CacheInv) :
    ((s.install id none).note (.invalidated id)).CacheInv := by
  refine ⟨fun t' ht' => ?_, fun p hp => ?_, fun a t' id' p b hlog hb => ?_,
    throughout_concat.2 ⟨h.same, trivial⟩⟩
  · exact h.raised t' (by simpa [note, State.install] using ht')
  · have hused : s.Used p := by
      rcases hp with ⟨id', hp⟩ | ⟨t', id', hmem⟩
      · by_cases hid : id' = id
        · simp [State.install, note, hid] at hp
        · exact .inl ⟨id', by simpa [State.install, note, hid] using hp⟩
      · exact .inr ⟨t', id', by simpa [State.install, note] using hmem⟩
    obtain ⟨hbuilder, hraised⟩ := h.used p hused
    exact ⟨hbuilder, by simpa [State.install, note] using hraised⟩
  · rcases concat_eq_append_cons.1 hlog with ⟨-, he, -⟩ | ⟨b', rfl, hlog'⟩
    · cases he
    · have hid : id' ≠ id := by
        rintro rfl
        exact hb (by simp)
      refine (Function.update_of_ne hid _ _).trans ?_
      exact h.cached a t' id' p b' hlog' fun hmem => hb (List.mem_append_left _ hmem)

variable [DecidableEq T]

theorem CacheInv.setPhase (h : s.CacheInv) (ht : s.phase t ≠ .done) :
    (s.setPhase t phase).CacheInv := by
  refine ⟨fun t' ht' => ?_, fun p hp => ?_, h.cached, h.same⟩
  · have hdone := h.raised t' ht'
    have hne : t' ≠ t := by
      rintro rfl
      exact ht hdone
    exact (Function.update_of_ne hne _ _).trans hdone
  · obtain ⟨hdone, hraised⟩ := h.used p hp
    have hne : p.builder ≠ t := by
      rintro rfl
      exact ht hdone
    exact ⟨(Function.update_of_ne hne _ _).trans hdone, hraised⟩

theorem CacheInv.answer (h : s.CacheInv) (ht : s.phase t ≠ .done) (hp : s.instances id = some p) :
    (s.answer t id p).CacheInv :=
  (h.setPhase ht).note_returned hp

/-- A task that fails has not constructed anything that is used. -/
theorem CacheInv.raise (h : s.CacheInv) (ht : s.phase t ≠ .done) : (s.raise t).CacheInv := by
  have hdone : (s.setPhase t .done).CacheInv := h.setPhase ht
  refine ⟨fun t' ht' => ?_, fun p hp => ?_, fun a t' id p b hlog hb => ?_,
    throughout_concat.2 ⟨h.same, trivial⟩⟩
  · rcases List.mem_append.1 ht' with ht' | ht'
    · exact hdone.raised t' ht'
    · obtain rfl : t' = t := by simpa using ht'
      exact Function.update_self _ _ _
  · have hused : s.Used p := by simpa [Used, State.raise, note, State.setPhase] using hp
    have hne : p.builder ≠ t := by
      rintro rfl
      exact ht (h.used p hused).1
    obtain ⟨hbuilder, hraised⟩ := hdone.used p hused
    exact ⟨hbuilder, by simpa [State.raise, note, hne] using hraised⟩
  · rcases concat_eq_append_cons.1 hlog with ⟨-, he, -⟩ | ⟨b', rfl, hlog'⟩
    · cases he
    · exact h.cached a t' id p b' hlog' fun hmem => hb (List.mem_append_left _ hmem)

/-- The instance that a task has constructed is cached and returned. -/
theorem CacheInv.construct (h : s.CacheInv) (ht : s.phase t ≠ .done) {v : V}
    (hempty : s.instances id = none) :
    ((s.install id (some ⟨v, t⟩)).answer t id ⟨v, t⟩).CacheInv := by
  have hdone : (s.setPhase t .done).CacheInv := h.setPhase ht
  have hraised : .raised t ∉ s.log := fun hmem => ht (h.raised t hmem)
  have hinstall : ((s.setPhase t .done).install id (some ⟨v, t⟩)).CacheInv := by
    refine ⟨hdone.raised, fun p hp => ?_, fun a t' id' p b hlog hb => ?_, h.same⟩
    · rcases hp with ⟨id', hp⟩ | hp
      · by_cases hid : id' = id
        · obtain rfl : _ = p := by simpa [State.install, hid] using hp
          exact ⟨Function.update_self _ _ _, hraised⟩
        · exact hdone.used p (.inl ⟨id', by simpa [State.install, hid] using hp⟩)
      · exact hdone.used p (.inr hp)
    · have hp := h.cached a t' id' p b hlog hb
      have hid : id' ≠ id := by
        rintro rfl
        rw [hempty] at hp
        cases hp
      exact (Function.update_of_ne hid _ _).trans hp
  exact hinstall.note_returned (Function.update_self _ _ _)

theorem CacheInv.enter (h : s.CacheInv) {registered : String → String → Bool}
    {cfg : ProviderConfig X} (ht : s.phase t ≠ .done) : (s.enter registered t cfg).CacheInv := by
  rw [State.enter]
  split
  · next p hp => exact h.release.answer ht hp
  · split
    · exact h.setPhase ht
    · exact h.release.raise ht

end State

/-! ### The locks -/

namespace State

/-- The lock is held by the task that is inside, and then nothing is cached. -/
structure LockInv (s : State T X V) : Prop where
  holder_iff : ∀ id t, (s.locks id).holder = some t ↔
    ∃ cfg stage, s.phase t = .inside cfg stage ∧ cfg.id = id
  empty : ∀ id t, (s.locks id).holder = some t → s.instances id = none

variable {s : State T X V} {t : T} {id : String} {p : Provider T V} {phase : Phase X}
  {cfg : ProviderConfig X} {stage : Stage}

theorem LockInv.note (h : s.LockInv) {e : Event T X V} : (s.note e).LockInv :=
  ⟨h.holder_iff, h.empty⟩

/-- Waiting does not change who has the lock. -/
theorem LockInv.setLock (h : s.LockInv) {lock : Lock T}
    (hlock : lock.holder = (s.locks id).holder) : (s.setLock id lock).LockInv := by
  have hholder : ∀ id', ((s.setLock id lock).locks id').holder = (s.locks id').holder := by
    intro id'
    by_cases hid : id' = id
    · rw [hid, ← hlock]
      exact congrArg Lock.holder (Function.update_self _ _ _)
    · exact congrArg Lock.holder (Function.update_of_ne hid _ _)
  refine ⟨fun id' t => ?_, fun id' t ht => h.empty id' t ?_⟩
  · rw [hholder]
    exact h.holder_iff id' t
  · rwa [hholder] at ht

theorem LockInv.install (h : s.LockInv) {p? : Option (Provider T V)}
    (hp : ∀ t, (s.locks id).holder = some t → p? = none) :
    (s.install id p?).LockInv := by
  refine ⟨h.holder_iff, fun id' t ht => ?_⟩
  by_cases hid : id' = id
  · subst hid
    exact (Function.update_self _ _ _).trans (hp t ht)
  · exact (Function.update_of_ne hid _ _).trans (h.empty id' t ht)

theorem LockInv.unique (h : s.LockInv) {t' : T} {cfg' : ProviderConfig X} {stage' : Stage}
    (ht : s.phase t = .inside cfg stage) (ht' : s.phase t' = .inside cfg' stage')
    (hid : cfg.id = cfg'.id) : t = t' := by
  have hholder := (h.holder_iff cfg.id t).2 ⟨cfg, stage, ht, rfl⟩
  have hholder' := (h.holder_iff cfg.id t').2 ⟨cfg', stage', ht', hid.symm⟩
  exact Option.some.inj (hholder.symm.trans hholder')

variable [DecidableEq T]

theorem LockInv.setPhase (h : s.LockInv) (ht : ∀ cfg stage, s.phase t ≠ .inside cfg stage)
    (phase : Phase X) (hphase : ∀ cfg stage, phase ≠ .inside cfg stage) :
    (s.setPhase t phase).LockInv := by
  refine ⟨fun id t' => (h.holder_iff id t').trans ?_, h.empty⟩
  by_cases hne : t' = t
  · subst hne
    simp [State.setPhase, ht, hphase]
  · simp [State.setPhase, hne]

/-- A task that is inside gets ahead. -/
theorem LockInv.proceed (h : s.LockInv) (ht : s.phase t = .inside cfg stage) {stage' : Stage} :
    (s.setPhase t (.inside cfg stage')).LockInv := by
  refine ⟨fun id t' => (h.holder_iff id t').trans ?_, h.empty⟩
  by_cases hne : t' = t
  · subst hne
    simp [State.setPhase, ht]
  · simp [State.setPhase, hne]

/-- A task that is inside leaves. -/
theorem LockInv.leave (h : s.LockInv) (ht : s.phase t = .inside cfg stage) :
    ((s.release cfg.id).setPhase t .done).LockInv := by
  refine ⟨fun id t' => ?_, fun id t' hholder => ?_⟩
  · by_cases hid : id = cfg.id
    · subst hid
      refine iff_of_false (by simp [State.release, State.setLock, State.setPhase]) ?_
      rintro ⟨cfg', stage', hphase, hid'⟩
      by_cases hne : t' = t
      · simp [State.setPhase, hne] at hphase
      · have hold : s.phase t' = .inside cfg' stage' := by
          simpa [State.setPhase, State.release, State.setLock, hne] using hphase
        exact hne (h.unique hold ht hid')
    · have hsame :
          (((s.release cfg.id).setPhase t .done).locks id).holder = (s.locks id).holder := by
        simp [State.release, State.setLock, State.setPhase, hid]
      rw [hsame, h.holder_iff]
      by_cases hne : t' = t
      · subst hne
        simp [State.setPhase, ht, Ne.symm hid]
      · simp [State.setPhase, State.release, State.setLock, hne]
  · refine h.empty id t' ?_
    by_cases hid : id = cfg.id
    · simp [State.release, State.setLock, State.setPhase, hid] at hholder
    · simpa [State.release, State.setLock, State.setPhase, hid] using hholder

/-- A task takes the lock that is free, if nothing is cached. -/
theorem LockInv.acquire (h : s.LockInv) {waiters : List T}
    (ht : ∀ cfg stage, s.phase t ≠ .inside cfg stage)
    (hfree : (s.locks cfg.id).holder = none) (hempty : s.instances cfg.id = none) :
    ((s.setLock cfg.id ⟨some t, waiters⟩).setPhase t (.inside cfg stage)).LockInv := by
  refine ⟨fun id t' => ?_, fun id t' hholder => ?_⟩
  · by_cases hid : id = cfg.id
    · subst hid
      have hholder : (((s.setLock cfg.id ⟨some t, waiters⟩).setPhase t
          (.inside cfg stage)).locks cfg.id).holder = some t := by
        simp [State.setLock, State.setPhase]
      rw [hholder]
      by_cases hne : t' = t
      · subst hne
        exact iff_of_true rfl ⟨cfg, stage, by simp [State.setPhase], rfl⟩
      · refine iff_of_false (fun heq => hne (Option.some.inj heq).symm) ?_
        rintro ⟨cfg', stage', hphase, hid'⟩
        have hold : s.phase t' = .inside cfg' stage' := by
          simpa [State.setPhase, State.setLock, hne] using hphase
        rw [(h.holder_iff cfg.id t').2 ⟨cfg', stage', hold, hid'⟩] at hfree
        cases hfree
    · have hsame : (((s.setLock cfg.id ⟨some t, waiters⟩).setPhase t
          (.inside cfg stage)).locks id).holder = (s.locks id).holder := by
        simp [State.setLock, State.setPhase, hid]
      rw [hsame, h.holder_iff]
      by_cases hne : t' = t
      · subst hne
        simp [State.setPhase, ht, Ne.symm hid]
      · simp [State.setPhase, State.setLock, hne]
  · by_cases hid : id = cfg.id
    · subst hid
      exact hempty
    · refine h.empty id t' ?_
      simpa [State.setLock, State.setPhase, hid] using hholder

theorem LockInv.enter (h : s.LockInv) {registered : String → String → Bool} {waiters : List T}
    (ht : ∀ cfg stage, s.phase t ≠ .inside cfg stage)
    (hfree : (s.locks cfg.id).holder = none) :
    ((s.setLock cfg.id ⟨some t, waiters⟩).enter registered t cfg).LockInv := by
  have hrelease : (s.setLock cfg.id ⟨some t, waiters⟩).release cfg.id =
      s.setLock cfg.id ⟨none, waiters⟩ := by
    simp [State.release, State.setLock]
  have hdone : ((s.setLock cfg.id ⟨none, waiters⟩).setPhase t .done).LockInv :=
    (h.setLock hfree.symm).setPhase ht .done nofun
  rw [State.enter, hrelease]
  split
  · exact hdone.note
  · next hempty =>
    split
    · exact h.acquire ht hfree hempty
    · exact hdone.note

end State

/-! ### The steps -/

variable [DecidableEq T] {registered : String → String → Bool} {s s' : State T X V}
  {l : Label T X V}

/-- What a step preserves. -/
structure Inv (s : State T X V) : Prop where
  cache : s.CacheInv
  lock : s.LockInv

theorem inv_step (h : Inv s) (hst : step registered s l = some s') : Inv s' := by
  obtain ⟨hcache, hlock⟩ := h
  cases l with
  | get t cfg =>
    rw [step] at hst
    split at hst
    · next hidle =>
      have hdone : s.phase t ≠ .done := by simp [hidle]
      have hinside : ∀ cfg stage, s.phase t ≠ .inside cfg stage := by simp [hidle]
      have hstarted := hcache.note_started t cfg
      dsimp only at hst
      split at hst
      · next p hp =>
        obtain rfl := Option.some.inj hst
        exact ⟨hstarted.answer hdone hp, (hlock.note.setPhase hinside .done nofun).note⟩
      · split at hst
        · next hfree =>
          obtain rfl := Option.some.inj hst
          refine ⟨hstarted.setLock.enter hdone, hlock.note.enter hinside ?_⟩
          exact congrArg Lock.holder hfree
        · next holder waiters _ hheld =>
          obtain rfl := Option.some.inj hst
          refine ⟨hstarted.setLock.setPhase hdone,
            (hlock.note.setLock ?_).setPhase hinside (.waiting cfg) nofun⟩
          exact (congrArg Lock.holder hheld).symm
    · cases hst
  | acquired t =>
    rw [step] at hst
    split at hst
    · next cfg hwaiting =>
      have hdone : s.phase t ≠ .done := by simp [hwaiting]
      have hinside : ∀ cfg stage, s.phase t ≠ .inside cfg stage := by simp [hwaiting]
      split at hst
      · next t' waiters hfree =>
        split_ifs at hst
        obtain rfl := Option.some.inj hst
        exact ⟨hcache.setLock.enter hdone, hlock.enter hinside (congrArg Lock.holder hfree)⟩
      · cases hst
    · cases hst
  | resolved t ok =>
    rw [step] at hst
    split at hst
    · next cfg hinside =>
      have hdone : s.phase t ≠ .done := by simp [hinside]
      split_ifs at hst
      · obtain rfl := Option.some.inj hst
        exact ⟨hcache.setPhase hdone, hlock.proceed hinside⟩
      · obtain rfl := Option.some.inj hst
        exact ⟨hcache.release.raise hdone, (hlock.leave hinside).note⟩
    · cases hst
  | constructed t instanceOf =>
    rw [step.eq_def] at hst
    dsimp only at hst
    split at hst
    · next cfg v hinside =>
      have hdone : s.phase t ≠ .done := by simp [hinside]
      have hholder := (hlock.holder_iff cfg.id t).2 ⟨cfg, _, hinside, rfl⟩
      obtain rfl := Option.some.inj hst
      refine ⟨hcache.release.construct hdone (hlock.empty _ t hholder), ?_⟩
      have hfree : (((s.release cfg.id).setPhase t .done).locks cfg.id).holder = none := by
        simp [State.release, State.setLock, State.setPhase]
      have hinstall : (((s.release cfg.id).setPhase t .done).install cfg.id
          (some ⟨v, t⟩)).LockInv :=
        (hlock.leave hinside).install fun t' ht' => by simp [hfree] at ht'
      exact hinstall.note
    · next cfg hinside =>
      have hdone : s.phase t ≠ .done := by simp [hinside]
      obtain rfl := Option.some.inj hst
      exact ⟨hcache.release.raise hdone, (hlock.leave hinside).note⟩
    · cases hst
  | invalidate id =>
    obtain rfl := Option.some.inj hst
    exact ⟨hcache.invalidate, (hlock.install fun _ _ => rfl).note⟩

/-! ### Old configurations -/

/-- What a task that starts after an invalidation is answered with was constructed for a task that
started after it. -/
def Fresh (before : List (Event T X V)) : Event T X V → Prop
  | .returned t id p => ∀ a b, before = a ++ .invalidated id :: b →
    (∃ cfg, .started t cfg ∈ b) → ∀ cfg, .started p.builder cfg ∉ a
  | _ => True

/-- No instance is installed that was invalidated while the task was at it. -/
def InstallsFresh (s : State T X V) : Label T X V → Prop
  | .constructed t (some _) => ∀ cfg stage, s.phase t = .inside cfg stage →
    ∀ a cfg' b, s.log = a ++ .started t cfg' :: b → .invalidated cfg.id ∉ b
  | _ => True

namespace State

/-- What is cached was not invalidated since the start of its task. -/
structure FreshInv (s : State T X V) : Prop where
  fresh : Throughout Fresh s.log
  cached : ∀ id p, s.instances id = some p →
    ∀ a cfg b, s.log = a ++ .started p.builder cfg :: b → .invalidated id ∉ b

variable {t : T} {id : String} {p : Provider T V} {phase : Phase X} {cfg : ProviderConfig X}

omit [DecidableEq T] in
theorem FreshInv.note (h : s.FreshInv) {e : Event T X V} (hfresh : Fresh s.log e)
    (hstarted : ∀ id p, s.instances id = some p → ∀ cfg, e ≠ .started p.builder cfg)
    (hinvalidated : ∀ id p, s.instances id = some p → e ≠ .invalidated id) :
    (s.note e).FreshInv := by
  refine ⟨throughout_concat.2 ⟨h.fresh, hfresh⟩, fun id p hp a cfg b hlog hmem => ?_⟩
  rcases concat_eq_append_cons.1 hlog with ⟨-, he, -⟩ | ⟨b', rfl, hlog'⟩
  · exact hstarted id p hp cfg he
  · rcases List.mem_append.1 hmem with hmem | hmem
    · exact h.cached id p hp a cfg b' hlog' hmem
    · exact hinvalidated id p hp (List.mem_singleton.1 hmem).symm

theorem FreshInv.answer (h : s.FreshInv) (hp : s.instances id = some p) :
    (s.answer t id p).FreshInv := by
  have hdone : (s.setPhase t .done).FreshInv := ⟨h.fresh, h.cached⟩
  refine hdone.note (fun a b hlog _ cfg hmem => ?_) (fun _ _ _ _ => nofun) fun _ _ _ => nofun
  -- The task of the instance started before the invalidation.
  obtain ⟨a₁, a₂, rfl⟩ := List.append_of_mem hmem
  rw [List.append_assoc, List.cons_append] at hlog
  exact h.cached id p hp a₁ cfg _ hlog (by simp)

theorem FreshInv.raise (h : s.FreshInv) : (s.raise t).FreshInv := by
  have hdone : (s.setPhase t .done).FreshInv := ⟨h.fresh, h.cached⟩
  exact hdone.note trivial (fun _ _ _ _ => nofun) fun _ _ _ => nofun

theorem FreshInv.enter (h : s.FreshInv) : (s.enter registered t cfg).FreshInv := by
  have hrelease : (s.release cfg.id).FreshInv := ⟨h.fresh, h.cached⟩
  rw [State.enter]
  split
  · next p hp => exact hrelease.answer hp
  · split
    · exact ⟨h.fresh, h.cached⟩
    · exact hrelease.raise

theorem FreshInv.construct (h : s.FreshInv) {v : V}
    (hfresh : ∀ a cfg b, s.log = a ++ .started t cfg :: b → .invalidated id ∉ b) :
    ((s.install id (some ⟨v, t⟩)).answer t id ⟨v, t⟩).FreshInv := by
  have hinstall : (s.install id (some ⟨v, t⟩)).FreshInv := by
    refine ⟨h.fresh, fun id' p hp => ?_⟩
    by_cases hid : id' = id
    · subst hid
      obtain rfl : _ = p := by simpa [State.install] using hp
      exact hfresh
    · exact h.cached id' p (by simpa [State.install, hid] using hp)
  exact hinstall.answer (Function.update_self _ _ _)

omit [DecidableEq T] in
theorem FreshInv.invalidate (h : s.FreshInv) :
    ((s.install id none).note (.invalidated id)).FreshInv := by
  have hinstall : (s.install id none).FreshInv := by
    refine ⟨h.fresh, fun id' p hp => h.cached id' p ?_⟩
    by_cases hid : id' = id
    · simp [State.install, hid] at hp
    · simpa [State.install, hid] using hp
  refine hinstall.note trivial (fun _ _ _ _ => nofun) fun id' p hp => ?_
  rintro ⟨⟩
  simp [State.install] at hp

end State

theorem freshInv_step (hinv : Inv s) (h : s.FreshInv) (hguard : InstallsFresh s l)
    (hst : step registered s l = some s') : s'.FreshInv := by
  cases l with
  | get t cfg =>
    rw [step] at hst
    split at hst
    · next hidle =>
      have hstarted : (s.note (.started t cfg)).FreshInv := by
        refine h.note trivial (fun id p hp cfg' he => ?_) fun _ _ _ => nofun
        -- A task that has not started has constructed nothing.
        have hdone := (hinv.cache.used p (.inl ⟨id, hp⟩)).1
        obtain ⟨rfl, -⟩ := Event.started.inj he
        rw [hidle] at hdone
        cases hdone
      dsimp only at hst
      split at hst
      · next p hp =>
        obtain rfl := Option.some.inj hst
        exact hstarted.answer hp
      · split at hst
        · obtain rfl := Option.some.inj hst
          exact State.FreshInv.enter ⟨hstarted.fresh, hstarted.cached⟩
        · obtain rfl := Option.some.inj hst
          exact ⟨hstarted.fresh, hstarted.cached⟩
    · cases hst
  | acquired t =>
    rw [step] at hst
    split at hst
    · split at hst
      · split_ifs at hst
        obtain rfl := Option.some.inj hst
        exact State.FreshInv.enter ⟨h.fresh, h.cached⟩
      · cases hst
    · cases hst
  | resolved t ok =>
    rw [step] at hst
    split at hst
    · next cfg hinside =>
      have hrelease : (s.release cfg.id).FreshInv := ⟨h.fresh, h.cached⟩
      split_ifs at hst
      · obtain rfl := Option.some.inj hst
        exact ⟨h.fresh, h.cached⟩
      · obtain rfl := Option.some.inj hst
        exact hrelease.raise
    · cases hst
  | constructed t instanceOf =>
    rw [step.eq_def] at hst
    dsimp only at hst
    split at hst
    · next cfg v hinside =>
      have hrelease : (s.release cfg.id).FreshInv := ⟨h.fresh, h.cached⟩
      obtain rfl := Option.some.inj hst
      exact hrelease.construct (hguard cfg _ hinside)
    · next cfg hinside =>
      have hrelease : (s.release cfg.id).FreshInv := ⟨h.fresh, h.cached⟩
      obtain rfl := Option.some.inj hst
      exact hrelease.raise
    · cases hst
  | invalidate id =>
    obtain rfl := Option.some.inj hst
    exact h.invalidate

theorem inv_init : Inv (system (T := T) (X := X) (V := V) registered).init := by
  refine ⟨⟨nofun, fun p hp => ?_, fun a t id p b hlog => ?_, throughout_nil⟩,
    ⟨fun id t => ?_, nofun⟩⟩
  · rcases hp with ⟨id, hp⟩ | ⟨t, id, hmem⟩
    · cases hp
    · cases hmem
  · simp [system] at hlog
  · exact iff_of_false nofun nofun

theorem inv_of_reachable (hs : (system registered).Reachable s) : Inv s :=
  hs.invariant inv_init fun _ _ _ => inv_step

theorem freshInv_of_reachableIf (hs : (system registered).ReachableIf InstallsFresh s) :
    s.FreshInv := by
  have hinv : Inv s ∧ s.FreshInv := by
    refine hs.invariant (I := fun s => Inv s ∧ s.FreshInv) ⟨inv_init, throughout_nil, nofun⟩ ?_
    exact fun _ _ _ h hguard hst => ⟨inv_step h.1 hst, freshInv_step h.1 h.2 hguard hst⟩
  exact hinv.2

/-! ### Coherence -/

/-- At most one factory runs for an id. -/
def OneFactory (s : State T X V) : Prop :=
  ∀ t t' cfg cfg', s.phase t = .inside cfg .constructing → s.phase t' = .inside cfg' .constructing →
    cfg.id = cfg'.id → t = t'

/-- What a task that failed had constructed is nowhere. -/
def FailuresLeaveNothing (s : State T X V) : Prop :=
  ∀ t, .raised t ∈ s.log → ∀ p, s.Used p → p.builder ≠ t

/-- In every run one factory runs at a time, the answers between two invalidations are the same,
and failures leave nothing. Where nothing is installed that was invalidated meanwhile, no answer
is older than an invalidation before the question. -/
theorem coherent (hs : (system registered).Reachable s) :
    OneFactory s ∧ Throughout Same s.log ∧ FailuresLeaveNothing s ∧
      ((system registered).ReachableIf InstallsFresh s → Throughout Fresh s.log) := by
  obtain ⟨hcache, hlock⟩ := inv_of_reachable hs
  refine ⟨fun t t' cfg cfg' ht ht' hid => hlock.unique ht ht' hid, hcache.same, ?_,
    fun hfresh => (freshInv_of_reachableIf hfresh).fresh⟩
  rintro t ht p hp rfl
  exact (hcache.used p hp).2 ht

/-- A local model, with its number of threads. -/
def whisper (threads : ℕ) : ProviderConfig ℕ where
  id := "stt-1"
  role := "stt"
  engine := "faster_whisper"
  apiKeyRef := none
  rest := threads

/-- The manager of a process with any provider. -/
def whispers : System (State ℕ ℕ String) (Label ℕ ℕ String) := system fun _ _ => true

omit [DecidableEq T] in
/-- What is constructed before anything else happens is installed fresh. -/
theorem InstallsFresh.of_last {t : T} {cfg : ProviderConfig X}
    {log : List (Event T X V)} (hlog : s.log = log ++ [.started t cfg])
    (hnew : ∀ cfg', .started t cfg' ∉ log) (instanceOf : Option V) :
    InstallsFresh s (.constructed t instanceOf) := by
  cases instanceOf with
  | none => trivial
  | some v =>
    intro cfg' stage _ a cfg'' b hlog'
    rcases concat_eq_append_cons.1 (hlog.symm.trans hlog') with ⟨-, -, rfl⟩ | ⟨b', -, rfl⟩
    · exact List.not_mem_nil
    · exact absurd (by simp) (hnew cfg'')

/-- Two calls, of which the first has the instance constructed, and a third with a configuration
that has been changed since then. -/
theorem coherent_whisper :
    ∃ s, whispers.ReachableIf InstallsFresh s ∧
      s.log = [.started 0 (whisper 2), .returned 0 "stt-1" ⟨"two", 0⟩, .started 1 (whisper 2),
        .returned 1 "stt-1" ⟨"two", 0⟩, .invalidated "stt-1", .started 2 (whisper 4),
        .returned 2 "stt-1" ⟨"four", 2⟩] ∧
      OneFactory s ∧ Throughout Same s.log ∧ FailuresLeaveNothing s ∧
      (whispers.ReachableIf InstallsFresh s → Throughout Fresh s.log) := by
  have hrun : ∃ s₁ s₂ s₃ s₄ s₅ s, whispers.step whispers.init (.get 0 (whisper 2)) = some s₁ ∧
      whispers.step s₁ (.constructed 0 (some "two")) = some s₂ ∧
      whispers.step s₂ (.get 1 (whisper 2)) = some s₃ ∧
      whispers.step s₃ (.invalidate "stt-1") = some s₄ ∧
      whispers.step s₄ (.get 2 (whisper 4)) = some s₅ ∧
      whispers.step s₅ (.constructed 2 (some "four")) = some s ∧
      s₁.log = [.started 0 (whisper 2)] ∧
      s₅.log = [.started 0 (whisper 2), .returned 0 "stt-1" ⟨"two", 0⟩, .started 1 (whisper 2),
        .returned 1 "stt-1" ⟨"two", 0⟩, .invalidated "stt-1"] ++ [.started 2 (whisper 4)] ∧
      s.log = s₅.log ++ [.returned 2 "stt-1" ⟨"four", 2⟩] :=
    ⟨_, _, _, _, _, _, rfl, rfl, rfl, rfl, rfl, rfl, rfl, rfl, rfl⟩
  obtain ⟨s₁, s₂, s₃, s₄, s₅, s, hget, hconstructed, hcached, hinvalidate, hchanged,
    hconstructed', hlog₁, hlog₅, hlog⟩ := hrun
  have hs₁ : whispers.ReachableIf InstallsFresh s₁ :=
    .step (l := .get 0 (whisper 2)) .init trivial hget
  have hs₂ : whispers.ReachableIf InstallsFresh s₂ :=
    .step hs₁ (.of_last hlog₁ (fun _ => List.not_mem_nil) _) hconstructed
  have hs₃ : whispers.ReachableIf InstallsFresh s₃ :=
    .step (l := .get 1 (whisper 2)) hs₂ trivial hcached
  have hs₄ : whispers.ReachableIf InstallsFresh s₄ :=
    .step (l := .invalidate "stt-1") hs₃ trivial hinvalidate
  have hs₅ : whispers.ReachableIf InstallsFresh s₅ :=
    .step (l := .get 2 (whisper 4)) hs₄ trivial hchanged
  have hs : whispers.ReachableIf InstallsFresh s :=
    .step hs₅ (.of_last hlog₅ (by simp) _) hconstructed'
  exact ⟨s, hs, by rw [hlog, hlog₅]; rfl, coherent hs.reachable⟩

/-- The configuration is changed while its first instance is being constructed. The call after the
change is answered with that. -/
theorem not_fresh : ¬ ∀ s, whispers.Reachable s → Throughout Fresh s.log := by
  intro h
  have hs : ∃ s, whispers.exec whispers.init
      [.get 0 (whisper 2), .invalidate "stt-1", .constructed 0 (some "two"), .get 1 (whisper 4)] =
      some s ∧ s.log = [.started 0 (whisper 2), .invalidated "stt-1",
        .returned 0 "stt-1" ⟨"two", 0⟩, .started 1 (whisper 4), .returned 1 "stt-1" ⟨"two", 0⟩] :=
    ⟨_, rfl, rfl⟩
  obtain ⟨s, hexec, hlog⟩ := hs
  have hfresh := h s (System.Reachable.exec .init hexec)
    [.started 0 (whisper 2), .invalidated "stt-1", .returned 0 "stt-1" ⟨"two", 0⟩,
      .started 1 (whisper 4)] (.returned 1 "stt-1" ⟨"two", 0⟩) [] hlog
  exact hfresh [.started 0 (whisper 2)] _ rfl ⟨whisper 4, by decide⟩ (whisper 2) (by decide)

end AiProviderManager

end Yuviz.Conversation
