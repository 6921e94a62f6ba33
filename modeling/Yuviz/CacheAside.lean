import Mathlib
import Yuviz.Python.Dict

/-!
# Caches beside a database

A value that is computed from a database is kept in a cache under its key. A
reader gets the key, and if it is not there it queries the database and sets it;
a writer commits a transaction and then does what it has to about the keys. What
one of them does with the cache or the database is a step, and steps of others
may be between two of its own.

The cache is *coherent* if what is there for a key is what would be read, as far
as the *view* of it goes, or the key is still to be deleted. It stays so if a
transaction leaves alone what is about to be set, and if what it does change of
what is there is deleted (`Coherent.commit`). When nobody is at it any more, what
is there is right (`Coherent.valid`).
-/

namespace Yuviz.CacheAside

open Python

variable {D K V W : Type*}

/-- What a task does with the cache. -/
inductive Action (K V : Type*)
  | get (k : K)
  | query (k : K)
  | set (k : K) (v : V)
  | del (k : K)
  deriving DecidableEq

/-- The key that is about to be set. -/
def Action.setKey? : Action K V → Option K
  | set k _ => some k
  | _ => none

structure State (D K V : Type*) where
  db : D
  cache : Dict K V
  /-- What the tasks are still to do. -/
  tasks : List (List (Action K V))

namespace State

variable (s : State D K V)

/-- A transaction is committed by a task, which has so much to do after it. -/
def commit (db : D) (actions : List (Action K V)) : State D K V :=
  { s with db := db, tasks := s.tasks ++ [actions] }

/-- A task is to do it. -/
def Awaits (a : Action K V) : Prop := ∃ task ∈ s.tasks, a ∈ task

instance [DecidableEq K] [DecidableEq V] (a : Action K V) : Decidable (s.Awaits a) :=
  inferInstanceAs (Decidable (∃ task ∈ s.tasks, a ∈ task))

/-- Nobody has anything to do. -/
def Idle : Prop := ∀ task ∈ s.tasks, task = []

variable {s}

theorem awaits_of_set {i : ℕ} {task : List (Action K V)} {cache : Dict K V} {a : Action K V}
    (h : Awaits { s with cache := cache, tasks := s.tasks.set i task } a) :
    a ∈ task ∨ s.Awaits a := by
  obtain ⟨t, ht, ha⟩ := h
  rcases List.mem_or_eq_of_mem_set ht with ht | rfl
  · exact .inr ⟨t, ht, ha⟩
  · exact .inl ha

theorem Awaits.set {a : Action K V} (h : s.Awaits a) {i : ℕ} {task task' : List (Action K V)}
    {cache : Dict K V} (hi : s.tasks[i]? = some task) (ha : a ∈ task → a ∈ task') :
    Awaits { s with cache := cache, tasks := s.tasks.set i task' } a := by
  obtain ⟨t, ht, hat⟩ := h
  obtain ⟨j, hj⟩ := List.mem_iff_getElem?.1 ht
  have hlt : i < s.tasks.length := (List.getElem?_eq_some_iff.1 hi).1
  rcases eq_or_ne i j with rfl | hne
  · obtain rfl := Option.some.inj (hi.symm.trans hj)
    exact ⟨task', List.mem_set hlt _, ha hat⟩
  · exact ⟨t, List.mem_of_getElem? ((List.getElem?_set_ne hne).trans hj), hat⟩

/-! ### Steps -/

variable [DecidableEq K] {read : D → K → Option V} {s' : State D K V} {view : V → W}

/-- The next step of a task. -/
def run (read : D → K → Option V) (s : State D K V) (i : ℕ) : Option (State D K V) :=
  match s.tasks[i]? with
  | some (.get k :: rest) =>
    let rest := if (s.cache.get? k).isSome then rest else .query k :: rest
    some { s with tasks := s.tasks.set i rest }
  | some (.query k :: rest) =>
    let rest := match read s.db k with
      | some v => .set k v :: rest
      | none => rest
    some { s with tasks := s.tasks.set i rest }
  | some (.set k v :: rest) =>
    some { s with cache := Dict.set s.cache k v, tasks := s.tasks.set i rest }
  | some (.del k :: rest) =>
    some { s with cache := Dict.del s.cache k, tasks := s.tasks.set i rest }
  | _ => none

/-- The value is what would be read, as far as the view of it goes. -/
def Valid (read : D → K → Option V) (view : V → W) (s : State D K V) (k : K) (v : V) : Prop :=
  (read s.db k).map view = some (view v)

/-- What is in the cache is right or is to be deleted, and what is to be set is right. -/
structure Coherent (read : D → K → Option V) (view : V → W) (s : State D K V) : Prop where
  cached : ∀ k v, s.cache.get? k = some v → s.Awaits (.del k) ∨ s.Valid read view k v
  stored : ∀ k v, s.Awaits (.set k v) → s.Valid read view k v

/-- When nobody has anything to do, what is in the cache is right. -/
theorem Coherent.valid (h : s.Coherent read view) (hidle : s.Idle) {k : K} {v : V}
    (hv : s.cache.get? k = some v) : s.Valid read view k v := by
  refine (h.cached k v hv).resolve_left fun ⟨task, htask, hdel⟩ => ?_
  rw [hidle task htask] at hdel
  exact List.not_mem_nil hdel

/-- A step of a task that deletes what it was to delete, and sets what is right. -/
theorem Coherent.set (h : s.Coherent read view) {i : ℕ} {task task' : List (Action K V)}
    {cache : Dict K V} (hi : s.tasks[i]? = some task)
    (hdel : ∀ k, .del k ∈ task → .del k ∈ task' ∨ cache.get? k = none)
    (hset : ∀ k v, .set k v ∈ task' → .set k v ∈ task ∨ s.Valid read view k v)
    (hcache : ∀ k v, cache.get? k = some v → s.cache.get? k = some v ∨ s.Valid read view k v) :
    Coherent read view { s with cache := cache, tasks := s.tasks.set i task' } where
  cached k v hv := by
    rcases hcache k v hv with hold | hvalid
    · refine (h.cached k v hold).imp_left fun hawaits => hawaits.set hi fun hmem => ?_
      exact (hdel k hmem).resolve_right fun hnone => by cases hnone.symm.trans hv
    · exact .inr hvalid
  stored k v hawaits := by
    rcases awaits_of_set hawaits with hmem | hold
    · rcases hset k v hmem with hmem | hvalid
      · exact h.stored k v ⟨task, List.mem_of_getElem? hi, hmem⟩
      · exact hvalid
    · exact h.stored k v hold

theorem Coherent.run (h : s.Coherent read view) {i : ℕ} (hst : s.run read i = some s') :
    s'.Coherent read view := by
  have htail {a : Action K V} {k : K} {rest : List (Action K V)} (hne : a ≠ .del k)
      (hdel : .del k ∈ a :: rest) : .del k ∈ rest :=
    (List.mem_cons.1 hdel).resolve_left hne.symm
  rw [State.run] at hst
  split at hst
  · rename_i k rest hi
    obtain rfl := Option.some.inj hst
    refine h.set hi (fun k' hdel => .inl ?_) (fun k' v hset => .inl ?_) fun _ _ => .inl
    · split_ifs
      · exact htail (by simp) hdel
      · exact List.mem_cons_of_mem _ (htail (by simp) hdel)
    · split_ifs at hset
      · exact List.mem_cons_of_mem _ hset
      · exact List.mem_cons_of_mem _ ((List.mem_cons.1 hset).resolve_left (by simp))
  · rename_i k rest hi
    obtain rfl := Option.some.inj hst
    refine h.set hi (fun k' hdel => .inl ?_) (fun k' v hset => ?_) fun _ _ => .inl
    · split
      · exact List.mem_cons_of_mem _ (htail (by simp) hdel)
      · exact htail (by simp) hdel
    · -- What is to be set was just read.
      split at hset
      · rename_i w hw
        rcases List.mem_cons.1 hset with heq | hset
        · obtain ⟨rfl, rfl⟩ := Action.set.inj heq
          exact .inr (congrArg (Option.map view) hw)
        · exact .inl (List.mem_cons_of_mem _ hset)
      · exact .inl (List.mem_cons_of_mem _ hset)
  · rename_i k v rest hi
    obtain rfl := Option.some.inj hst
    have hvalid := h.stored k v ⟨_, List.mem_of_getElem? hi, List.mem_cons_self⟩
    refine h.set hi (fun k' hdel => .inl (htail (by simp) hdel))
      (fun k' w hset => .inl (List.mem_cons_of_mem _ hset)) fun k' w hw => ?_
    rw [Dict.get?_set] at hw
    split_ifs at hw with heq
    · exact .inr (heq ▸ Option.some.inj hw ▸ hvalid)
    · exact .inl hw
  · rename_i k rest hi
    obtain rfl := Option.some.inj hst
    refine h.set hi (fun k' hdel => ?_) (fun k' w hset => .inl (List.mem_cons_of_mem _ hset))
      fun k' w hw => .inl (Dict.get?_del_eq_some hw).2
    rcases List.mem_cons.1 hdel with heq | hdel
    · exact .inr (Action.del.inj heq ▸ Dict.get?_del_self)
    · exact .inl hdel
  · cases hst

/-- A transaction that leaves alone what is about to be set, and after which what
    it changes of the cache is deleted. -/
theorem Coherent.commit (h : s.Coherent read view) {db : D} {actions : List (Action K V)}
    (hset : ∀ k v, s.Awaits (.set k v) → (read db k).map view = (read s.db k).map view)
    (hcached : ∀ k v, s.cache.get? k = some v → .del k ∈ actions ∨ s.Awaits (.del k) ∨
      (read db k).map view = (read s.db k).map view)
    (hactions : ∀ k v, .set k v ∉ actions) : (s.commit db actions).Coherent read view := by
  have hawaits {a : Action K V} (ha : s.Awaits a) : (s.commit db actions).Awaits a := by
    obtain ⟨task, htask, ha⟩ := ha
    exact ⟨task, List.mem_append_left _ htask, ha⟩
  refine ⟨fun k v hv => ?_, fun k v ⟨task, htask, hmem⟩ => ?_⟩
  · rcases hcached k v hv with hdel | hdel | hsame
    · exact .inl ⟨actions, List.mem_append_right _ (List.mem_singleton_self _), hdel⟩
    · exact .inl (hawaits hdel)
    · exact (h.cached k v hv).imp hawaits fun hvalid => hsame.trans hvalid
  · rcases List.mem_append.1 htask with htask | htask
    · exact (hset k v ⟨task, htask, hmem⟩).trans (h.stored k v ⟨task, htask, hmem⟩)
    · rw [List.mem_singleton.1 htask] at hmem
      exact absurd hmem (hactions k v)

end State

end Yuviz.CacheAside
