import Mathlib
import Yuviz.Semaphore

/-!
# The pool of Redis connections

A call of `get` takes a connection from the pool, for which it waits if there is none,
connects it if need be, sends its command, and puts it back, also when it throws. The pool
is only touched under its mutex, so each of these critical sections is a step.

However the calls of the threads interleave, a connection is in the pool or with one of
them, and so a connected one is never used by two (`sound`); and a thread does not wait while
a connection nobody comes for is in the pool.
-/

namespace Yuviz.Gateway

structure RedisConfig where
  poolSize : ℕ

/-- A connection, with the number of its `hiredis` context once it is connected. -/
structure RedisClient.Connection where
  ctx : Option ℕ := none
  deriving DecidableEq

namespace RedisClient

def kMaxPoolSize : ℕ := 32

/-- What becomes of an attempt to connect. -/
inductive Connected
  | null
  | err
  | ok
  deriving DecidableEq

/-- What a command is answered. -/
inductive Reply
  /-- No reply: the connection is lost. -/
  | null
  | string (str : String)
  | nil
  | error
  /-- A reply of another type. -/
  | other
  deriving DecidableEq

/-- What a call returns, unless it throws. -/
inductive Outcome
  | value (value : Option String)
  | thrown
  deriving DecidableEq

def Reply.outcome : Reply → Outcome
  | string str => .value (some str)
  | null | nil | error | other => .value none

/-- Where a thread is. -/
inductive Caller
  | away
  /-- It is about to take a connection. -/
  | entering (key : String)
  | blocked (key : String)
  /-- It has been woken up, and is about to look at the pool again. -/
  | woken (key : String)
  | connecting (key : String)
  | commanding (key : String) (ctx : ℕ)
  | returning (conn : Connection) (outcome : Outcome)
  | returned (outcome : Outcome)
  deriving DecidableEq

/-- The connection a thread has taken. -/
def Caller.conn? : Caller → Option Connection
  | away | entering _ | blocked _ | woken _ | returned _ => none
  | connecting _ => some {}
  | commanding _ ctx => some ⟨some ctx⟩
  | returning conn _ => some conn

/-- It is in a call. -/
def Caller.isCalling : Caller → Bool
  | away | returned _ => false
  | _ => true

def Caller.isBlocked : Caller → Bool
  | blocked _ => true
  | _ => false

/-- It is about to look at the pool. -/
def Caller.isReady : Caller → Bool
  | entering _ | woken _ => true
  | _ => false

end RedisClient

/-- A client, and the `n` threads that use it. -/
structure RedisClient (n : ℕ) where
  idle : List RedisClient.Connection
  callers : Fin n → RedisClient.Caller
  /-- The contexts that are connected, and have not been freed. -/
  contexts : Finset ℕ := ∅
  nextCtx : ℕ := 0

namespace RedisClient

inductive Label (n : ℕ)
  | get (i : Fin n) (key : String)
  | take (i : Fin n)
  | spurious (i : Fin n)
  /-- Something may throw, such as the logger, once the context is stored or freed. -/
  | ensureConnected (i : Fin n) (connected : Connected) (throws : Bool)
  | command (i : Fin n) (reply : Reply) (throws : Bool)
  /-- The connection is put back, and the thread `w` is notified, if any waits. -/
  | giveBack (i : Fin n) (w : Option (Fin n))

variable {n : ℕ}

section

variable (s : RedisClient n)

def setCaller (i : Fin n) (caller : Caller) : RedisClient n :=
  { s with callers := Function.update s.callers i caller }

/-- A call begins, on a client that is enabled. -/
def get (i : Fin n) (key : String) : Option (RedisClient n) :=
  if (s.callers i).isCalling then none else some (s.setCaller i (.entering key))

/-- The wait is over once there is a connection, which is taken. -/
def takeFor (i : Fin n) (key : String) : RedisClient n :=
  match s.idle with
  | [] => s.setCaller i (.blocked key)
  | ⟨none⟩ :: idle => { s with idle := idle }.setCaller i (.connecting key)
  | ⟨some ctx⟩ :: idle => { s with idle := idle }.setCaller i (.commanding key ctx)

def take (i : Fin n) : Option (RedisClient n) :=
  match s.callers i with
  | .entering key | .woken key => some (s.takeFor i key)
  | _ => none

def wake (i : Fin n) : Option (RedisClient n) :=
  match s.callers i with
  | .blocked key => some (s.setCaller i (.woken key))
  | _ => none

def ensureConnected (i : Fin n) (connected : Connected) (throws : Bool) :
    Option (RedisClient n) :=
  match s.callers i with
  | .connecting key =>
    match connected with
    | .null | .err => some (s.setCaller i (.returning {} (if throws then .thrown else .value none)))
    | .ok =>
      some ({ s with contexts := insert s.nextCtx s.contexts, nextCtx := s.nextCtx + 1 }.setCaller i
        (if throws then .returning ⟨some s.nextCtx⟩ .thrown else .commanding key s.nextCtx))
  | _ => none

def command (i : Fin n) (reply : Reply) (throws : Bool) : Option (RedisClient n) :=
  match s.callers i with
  | .commanding _ ctx =>
    -- The warning is logged before the connection is closed, and may throw.
    if throws then some (s.setCaller i (.returning ⟨some ctx⟩ .thrown))
    else if reply = .null then
      some ({ s with contexts := s.contexts.erase ctx }.setCaller i (.returning {} reply.outcome))
    else some (s.setCaller i (.returning ⟨some ctx⟩ reply.outcome))
  | _ => none

/-- `~ConnReturner` -/
def giveBack (i : Fin n) (w : Option (Fin n)) : Option (RedisClient n) :=
  match s.callers i with
  | .returning conn outcome =>
    let s' := { s with idle := s.idle ++ [conn] }.setCaller i (.returned outcome)
    match w with
    | some w => s'.wake w
    | none => if ∃ j, (s'.callers j).isBlocked then none else some s'
  | _ => none

def step : Label n → Option (RedisClient n)
  | .get i key => s.get i key
  | .take i => s.take i
  | .spurious i => s.wake i
  | .ensureConnected i connected throws => s.ensureConnected i connected throws
  | .command i reply throws => s.command i reply throws
  | .giveBack i w => s.giveBack i w

end

/-- How many connections there are. -/
def poolSize (cfg : RedisConfig) : ℕ :=
  min (if cfg.poolSize > 0 then cfg.poolSize else 1) kMaxPoolSize

def system (cfg : RedisConfig) (n : ℕ) : System (RedisClient n) (Label n) where
  init := { idle := List.replicate (poolSize cfg) {}, callers := fun _ => .away }
  step := step

/-- The connections of the pool, and those that have been taken. -/
def connections (s : RedisClient n) : Multiset Connection :=
  s.idle + ∑ i, Multiset.ofList (s.callers i).conn?.toList

structure Sound (cfg : RedisConfig) (s : RedisClient n) : Prop where
  /-- Every connection is in the pool, or with one thread. -/
  conserved : s.connections.card = poolSize cfg
  /-- Two threads never use the same context, -/
  unshared : ∀ i j ctx, (s.callers i).conn? = some ⟨some ctx⟩ →
    (s.callers j).conn? = some ⟨some ctx⟩ → i = j
  /-- nor one that is freed, -/
  live : ∀ i ctx, (s.callers i).conn? = some ⟨some ctx⟩ → ctx ∈ s.contexts
  /-- and none is left behind. -/
  unleaked : ∀ ctx ∈ s.contexts, ⟨some ctx⟩ ∈ s.connections
  bounded : s.contexts.card ≤ kMaxPoolSize
  /-- Somebody comes for every connection in the pool while a thread waits, -/
  heard : (∃ i, (s.callers i).isBlocked) →
    s.idle.length ≤ (Finset.univ.filter fun i => (s.callers i).isReady).card
  /-- and so not all of them wait. -/
  unstuck : (∃ i, (s.callers i).isBlocked) →
    ∃ j, (s.callers j).isCalling ∧ ¬ (s.callers j).isBlocked

/-! ### Nobody is forgotten -/

def Caller.place : Caller → Semaphore.Place
  | entering _ | woken _ => .ready
  | blocked _ => .blocked
  | _ => .away

theorem Caller.place_eq_blocked {caller : Caller} : caller.place = .blocked ↔ caller.isBlocked := by
  cases caller <;> simp [place, isBlocked]

theorem Caller.place_eq_ready {caller : Caller} : caller.place = .ready ↔ caller.isReady := by
  cases caller <;> simp [place, isReady]

def view (s : RedisClient n) : Semaphore (Fin n) where
  stock := s.idle.length
  place i := (s.callers i).place

variable {cfg : RedisConfig} {s s' : RedisClient n} {i : Fin n} {caller : Caller}

theorem view_setCaller : (s.setCaller i caller).view =
    ⟨s.idle.length, Function.update s.view.place i caller.place⟩ := by
  refine congrArg (Semaphore.mk _) (funext fun j => ?_)
  by_cases hj : j = i
  · subst hj
    simp [setCaller]
  · simp [setCaller, hj, view]

/-- A thread moves on that the pool does not matter to. -/
theorem step_stay (h : caller.place = (s.callers i).place) :
    Semaphore.Step s.view (s.setCaller i caller).view := by
  rw [view_setCaller, h]
  have hupdate : Function.update s.view.place i (s.callers i).place = s.view.place :=
    Function.update_eq_self i s.view.place
  rw [hupdate]
  exact .stay

theorem step_rouse (h : caller.place = .ready) :
    Semaphore.Step s.view (s.setCaller i caller).view := by
  rw [view_setCaller, h]
  exact .rouse i

/-- A connection is taken, or there is none. -/
theorem step_takeFor {key : String} (h : (s.callers i).isReady) :
    Semaphore.Step s.view (s.takeFor i key).view := by
  have hplace : s.view.place i ≠ .blocked := by
    have hready : s.view.place i = .ready := Caller.place_eq_ready.2 h
    rw [hready]
    decide
  have htake {conn : Connection} {idle : List Connection} (hidle : s.idle = conn :: idle)
      (caller : Caller) (hcaller : caller.place = .away) :
      Semaphore.Step s.view ({ s with idle := idle }.setCaller i caller).view := by
    have hstock : idle.length = s.view.stock - 1 := by simp [view, hidle]
    rw [view_setCaller, hcaller, hstock]
    exact .take i hplace
  unfold takeFor
  split
  · rename_i hidle
    rw [view_setCaller]
    exact .block i (congrArg List.length hidle)
  · exact htake ‹_› _ rfl
  · exact htake ‹_› _ rfl

/-- A connection is put back, and one of the threads that wait is notified, if any does. -/
theorem step_giveBack {w : Option (Fin n)} (hst : s.giveBack i w = some s') :
    Semaphore.Step s.view s'.view := by
  unfold giveBack at hst
  split at hst
  · rename_i conn outcome hcaller
    let t := { s with idle := s.idle ++ [conn] }.setCaller i (.returned outcome)
    have hstock : t.idle.length = s.view.stock + 1 := by simp [t, view, setCaller]
    have hplace : t.view.place = s.view.place := by
      have haway : s.view.place i = (Caller.returned outcome).place := by
        simp [view, hcaller, Caller.place]
      have hview : t.view.place = Function.update s.view.place i (Caller.returned outcome).place :=
        congrArg Semaphore.place view_setCaller
      rw [hview, ← haway]
      exact Function.update_eq_self i s.view.place
    cases w with
    | some w =>
      simp only [wake] at hst
      split at hst
      · rename_i key hw
        obtain rfl := Option.some.inj hst
        have hblocked : t.view.place w = .blocked := Caller.place_eq_blocked.2 (by rw [hw]; rfl)
        change Semaphore.Step s.view (t.setCaller w (.woken key)).view
        rw [view_setCaller, hstock, hplace]
        exact .put w (hplace ▸ hblocked)
      · cases hst
    | none =>
      simp only at hst
      split_ifs at hst with hnone
      obtain rfl := Option.some.inj hst
      change Semaphore.Step s.view ⟨t.idle.length, t.view.place⟩
      rw [hstock, hplace]
      refine .putQuietly fun j hj => hnone ⟨j, Caller.place_eq_blocked.1 ?_⟩
      exact (congrFun hplace j).trans hj
  · cases hst

theorem step_view (l : Label n) (hst : (system cfg n).step s l = some s') :
    Semaphore.Step s.view s'.view := by
  cases l with
  | get i key =>
    simp only [system, step, get] at hst
    split_ifs at hst
    exact Option.some.inj hst ▸ step_rouse rfl
  | take i =>
    simp only [system, step, take] at hst
    split at hst
    · exact Option.some.inj hst ▸ step_takeFor (by simp [*, Caller.isReady])
    · exact Option.some.inj hst ▸ step_takeFor (by simp [*, Caller.isReady])
    · cases hst
  | spurious i =>
    simp only [system, step, wake] at hst
    split at hst
    · exact Option.some.inj hst ▸ step_rouse rfl
    · cases hst
  | ensureConnected i connected throws =>
    simp only [system, step, ensureConnected] at hst
    split at hst
    · rename_i key hcaller
      have haway : (s.callers i).place = .away := by rw [hcaller]; rfl
      split at hst
      · exact Option.some.inj hst ▸ step_stay haway.symm
      · exact Option.some.inj hst ▸ step_stay haway.symm
      · obtain rfl := Option.some.inj hst
        refine step_stay (s := { s with contexts := _, nextCtx := _ }) ?_
        dsimp only
        rw [haway]
        split_ifs <;> rfl
    · cases hst
  | command i reply throws =>
    simp only [system, step, command] at hst
    split at hst
    · rename_i key ctx hcaller
      have haway : (s.callers i).place = .away := by rw [hcaller]; rfl
      split_ifs at hst
      · exact Option.some.inj hst ▸ step_stay haway.symm
      · exact Option.some.inj hst ▸ step_stay (s := { s with contexts := _ }) haway.symm
      · exact Option.some.inj hst ▸ step_stay haway.symm
    · cases hst
  | giveBack i w => exact step_giveBack hst

/-! ### Every connection is somewhere, once -/

/-- What a caller has taken, as a set. -/
def Caller.taken (caller : Caller) : Multiset Connection := caller.conn?.toList

theorem connections_setCaller (s : RedisClient n) (i : Fin n) (caller : Caller) :
    (s.setCaller i caller).connections + (s.callers i).taken = s.connections + caller.taken := by
  have hsum := sum_update_add Caller.taken s.callers i caller
  rw [connections, connections, add_assoc, add_assoc]
  exact congrArg _ hsum

/-- The connections are those there were at first, and the contexts are theirs. -/
structure Kept (cfg : RedisConfig) (s : RedisClient n) : Prop where
  card : s.connections.card = poolSize cfg
  contexts : s.connections.filterMap Connection.ctx = s.contexts.val
  lt_next : ∀ ctx ∈ s.contexts, ctx < s.nextCtx

/-- A caller moves on with the connection it has. -/
theorem Kept.setCaller (h : Kept cfg s) (hcaller : caller.taken = (s.callers i).taken) :
    Kept cfg (s.setCaller i caller) := by
  have hsame : (s.setCaller i caller).connections = s.connections :=
    add_right_cancel (hcaller ▸ connections_setCaller s i caller)
  exact ⟨hsame ▸ h.card, hsame ▸ h.contexts, h.lt_next⟩

/-- A caller takes a connection, or puts it back. -/
theorem Kept.exchange (h : Kept cfg s) {idle : List Connection}
    (hidle : (idle : Multiset Connection) + caller.taken = s.idle + (s.callers i).taken) :
    Kept cfg ({ s with idle := idle }.setCaller i caller) := by
  have hsame : ({ s with idle := idle }.setCaller i caller).connections = s.connections := by
    have hset := connections_setCaller { s with idle := idle } i caller
    refine add_right_cancel (b := (s.callers i).taken) (hset.trans ?_)
    rw [connections, connections, add_right_comm, hidle, add_right_comm]
  exact ⟨hsame ▸ h.card, hsame ▸ h.contexts, h.lt_next⟩

/-- A caller has another connection instead of its own: one more, or one less, is connected. -/
theorem card_replace {conn conn' : Connection} (hcaller : (s.callers i).taken = {conn})
    (hnew : caller.taken = {conn'}) :
    (s.setCaller i caller).connections.card = s.connections.card := by
  have hset := congrArg Multiset.card (connections_setCaller s i caller)
  rw [hcaller, hnew, Multiset.card_add, Multiset.card_add, Multiset.card_singleton,
    Multiset.card_singleton] at hset
  exact Nat.add_right_cancel hset

theorem filterMap_replace {conn conn' : Connection} (hcaller : (s.callers i).taken = {conn})
    (hnew : caller.taken = {conn'}) :
    (s.setCaller i caller).connections.filterMap Connection.ctx + conn.ctx.toList =
      s.connections.filterMap Connection.ctx + conn'.ctx.toList := by
  have hctx (conn : Connection) :
      Multiset.filterMap Connection.ctx {conn} = conn.ctx.toList := by
    rcases conn with ⟨_ | ctx⟩ <;> rfl
  have hset := congrArg (Multiset.filterMap Connection.ctx) (connections_setCaller s i caller)
  rwa [hcaller, hnew, Multiset.filterMap_add, Multiset.filterMap_add, hctx, hctx] at hset

/-- The connection of a caller is connected. -/
theorem Kept.connect (h : Kept cfg s) (hcaller : (s.callers i).taken = {⟨none⟩})
    (hnew : caller.taken = {⟨some s.nextCtx⟩}) :
    Kept cfg ({ s with contexts := insert s.nextCtx s.contexts
                       nextCtx := s.nextCtx + 1 }.setCaller i caller) := by
  have hfresh : s.nextCtx ∉ s.contexts := fun hmem => (h.lt_next _ hmem).false
  refine ⟨(card_replace hcaller hnew).trans h.card, ?_, fun ctx hctx => ?_⟩
  · have hmap := filterMap_replace hcaller hnew
    rw [h.contexts, Option.toList_none, Multiset.coe_nil, add_zero] at hmap
    have hinsert : (insert s.nextCtx s.contexts).val = s.contexts.val + {s.nextCtx} := by
      rw [Finset.insert_val_of_notMem hfresh, add_comm]
      rfl
    exact hmap.trans hinsert.symm
  · rcases Finset.mem_insert.1 hctx with rfl | hctx
    · exact Nat.lt_succ_self _
    · exact (h.lt_next _ hctx).trans (Nat.lt_succ_self _)

/-- The connection of a caller is lost. -/
theorem Kept.disconnect (h : Kept cfg s) {ctx : ℕ} (hcaller : (s.callers i).taken = {⟨some ctx⟩})
    (hnew : caller.taken = {⟨none⟩}) :
    Kept cfg ({ s with contexts := s.contexts.erase ctx }.setCaller i caller) := by
  refine ⟨(card_replace hcaller hnew).trans h.card, ?_,
    fun ctx hctx => h.lt_next ctx (Finset.mem_of_mem_erase hctx)⟩
  have hmap := filterMap_replace hcaller hnew
  rw [h.contexts, Option.toList_none, Multiset.coe_nil, add_zero] at hmap
  have herase : (s.contexts.erase ctx).val =
      (s.setCaller i caller).connections.filterMap Connection.ctx := by
    rw [Finset.erase_val, ← hmap, Option.toList_some, Multiset.coe_singleton, add_comm,
      Multiset.singleton_add, Multiset.erase_cons_head]
  exact herase.symm

theorem Kept.step (h : Kept cfg s) {l : Label n} (hst : (system cfg n).step s l = some s') :
    Kept cfg s' := by
  cases l with
  | get i key =>
    simp only [system, RedisClient.step, get] at hst
    split_ifs at hst with hcalling
    refine Option.some.inj hst ▸ h.setCaller ?_
    cases hcaller : s.callers i <;> simp_all [Caller.isCalling, Caller.taken, Caller.conn?]
  | take i =>
    have htake (key : String) (hready : (s.callers i).taken = 0) : Kept cfg (s.takeFor i key) := by
      unfold takeFor
      split
      · exact h.setCaller hready.symm
      · rename_i idle hidle
        refine h.exchange ?_
        rw [hidle, hready, add_zero, add_comm]
        exact Multiset.singleton_add _ _
      · rename_i ctx idle hidle
        refine h.exchange ?_
        rw [hidle, hready, add_zero, add_comm]
        exact Multiset.singleton_add _ _
    simp only [system, RedisClient.step, take] at hst
    split at hst
    · rename_i hcaller
      exact Option.some.inj hst ▸ htake _ (by rw [hcaller]; rfl)
    · rename_i hcaller
      exact Option.some.inj hst ▸ htake _ (by rw [hcaller]; rfl)
    · cases hst
  | spurious i =>
    simp only [system, RedisClient.step, wake] at hst
    split at hst
    · rename_i hcaller
      exact Option.some.inj hst ▸ h.setCaller (by rw [hcaller]; rfl)
    · cases hst
  | ensureConnected i connected throws =>
    simp only [system, RedisClient.step, ensureConnected] at hst
    split at hst
    · rename_i key hcaller
      split at hst
      · exact Option.some.inj hst ▸ h.setCaller (by rw [hcaller]; rfl)
      · exact Option.some.inj hst ▸ h.setCaller (by rw [hcaller]; rfl)
      · refine Option.some.inj hst ▸ h.connect (by rw [hcaller]; rfl) ?_
        split_ifs <;> rfl
    · cases hst
  | command i reply throws =>
    simp only [system, RedisClient.step, command] at hst
    split at hst
    · rename_i key ctx hcaller
      split_ifs at hst
      · exact Option.some.inj hst ▸ h.setCaller (by rw [hcaller]; rfl)
      · exact Option.some.inj hst ▸ h.disconnect (by rw [hcaller]; rfl) rfl
      · exact Option.some.inj hst ▸ h.setCaller (by rw [hcaller]; rfl)
    · cases hst
  | giveBack i w =>
    simp only [system, RedisClient.step, giveBack] at hst
    split at hst
    · rename_i conn outcome hcaller
      have hback :
          Kept cfg ({ s with idle := s.idle ++ [conn] }.setCaller i (.returned outcome)) := by
        refine h.exchange ?_
        rw [hcaller, ← Multiset.coe_add]
        exact add_zero _
      cases w with
      | some w =>
        simp only [wake] at hst
        split at hst
        · rename_i hw
          exact Option.some.inj hst ▸ hback.setCaller (by rw [hw]; rfl)
        · cases hst
      | none =>
        simp only at hst
        split_ifs at hst
        exact Option.some.inj hst ▸ hback
    · cases hst

theorem kept (hs : (system cfg n).Reachable s) : Kept cfg s := by
  refine hs.invariant (I := Kept cfg) ⟨?_, ?_, by simp [system]⟩ fun _ _ _ h hst => h.step hst
  · simp [connections, system, Caller.conn?]
  · simp [connections, system, Caller.conn?, Multiset.filterMap_coe]

/-- What a thread has taken is among the connections, -/
theorem taken_le (s : RedisClient n) (i : Fin n) : (s.callers i).taken ≤ s.connections :=
  (Finset.single_le_sum (f := fun i => (s.callers i).taken) (fun _ _ => Multiset.zero_le _)
    (Finset.mem_univ i)).trans (Multiset.le_add_left _ _)

/-- and so is what two threads have taken. -/
theorem taken_add_le (s : RedisClient n) {i j : Fin n} (hne : i ≠ j) :
    (s.callers i).taken + (s.callers j).taken ≤ s.connections := by
  refine le_trans ?_ (Multiset.le_add_left _ _)
  rw [← Finset.add_sum_erase _ _ (Finset.mem_univ i)]
  exact add_le_add_right (Finset.single_le_sum (f := fun i => (s.callers i).taken)
    (fun _ _ => Multiset.zero_le _) (Finset.mem_erase.2 ⟨hne.symm, Finset.mem_univ j⟩)) _

theorem taken_of_conn? {conn : Connection} (h : caller.conn? = some conn) :
    caller.taken = {conn} := by
  rw [Caller.taken, h]
  rfl

theorem filterMap_singleton (ctx : ℕ) :
    Multiset.filterMap Connection.ctx {⟨some ctx⟩} = {ctx} := rfl

theorem heard (hs : (system cfg n).Reachable s) : s.view.Heard := by
  refine Semaphore.heard_of_reachableIf view ?_ (fun _ l _ _ hst => step_view l hst) hs
  rintro ⟨i, hi⟩
  cases hi

theorem readies_view (s : RedisClient n) :
    s.view.readies = (Finset.univ.filter fun i => (s.callers i).isReady).card := by
  rw [Semaphore.readies, Finset.card_filter]
  exact Finset.sum_congr rfl fun i _ => if_congr Caller.place_eq_ready rfl rfl

theorem poolSize_pos (cfg : RedisConfig) : 0 < poolSize cfg := by
  rw [poolSize, lt_min_iff]
  refine ⟨?_, by decide⟩
  split_ifs with h
  · exact h
  · exact Nat.one_pos

theorem card_filterMap_le {α β : Type*} (f : α → Option β) (m : Multiset α) :
    (m.filterMap f).card ≤ m.card :=
  Quot.inductionOn m fun l => List.length_filterMap_le f l

/-- A thread has a connection, or there is one in the pool for which one comes. -/
theorem exists_going_on (h : Kept cfg s)
    (hheard : s.idle.length ≤ (Finset.univ.filter fun i => (s.callers i).isReady).card) :
    ∃ j, (s.callers j).isCalling ∧ ¬ (s.callers j).isBlocked := by
  by_cases htaken : ∃ j, (s.callers j).conn?.isSome
  · obtain ⟨j, hj⟩ := htaken
    refine ⟨j, ?_⟩
    cases hcaller : s.callers j <;> rw [hcaller] at hj <;>
      simp_all [Caller.conn?, Caller.isCalling, Caller.isBlocked]
  · have hnone (j : Fin n) : (s.callers j).conn?.toList = [] := by
      rw [Option.toList_eq_nil_iff, ← Option.not_isSome_iff_eq_none]
      exact fun hj => htaken ⟨j, hj⟩
    have hidle : s.idle.length = poolSize cfg := by
      rw [← h.card, connections, Finset.sum_eq_zero fun j _ => by rw [hnone]; rfl, add_zero,
        Multiset.coe_card]
    have hpos := (poolSize_pos cfg).trans_le (hidle.ge.trans hheard)
    obtain ⟨j, hj⟩ := Finset.card_pos.1 hpos
    refine ⟨j, ?_⟩
    have hready := (Finset.mem_filter.1 hj).2
    cases hcaller : s.callers j <;> rw [hcaller] at hready <;>
      simp_all [Caller.isReady, Caller.isCalling, Caller.isBlocked]

/-- However the calls interleave, each connection is in the pool or with one thread, which is the
    only one to use it, and no thread waits for a connection in vain. -/
theorem sound (hs : (system cfg n).Reachable s) : Sound cfg s := by
  have hkept := kept hs
  have hheard : (∃ i, (s.callers i).isBlocked) →
      s.idle.length ≤ (Finset.univ.filter fun i => (s.callers i).isReady).card := by
    rintro ⟨i, hi⟩
    rw [← readies_view]
    exact heard hs ⟨i, Caller.place_eq_blocked.2 hi⟩
  have hmap (ctx : ℕ) : ctx ∈ s.contexts ↔ ⟨some ctx⟩ ∈ s.connections := by
    rw [← Finset.mem_val, ← hkept.contexts, Multiset.mem_filterMap]
    constructor
    · rintro ⟨⟨_⟩, hmem, rfl⟩
      exact hmem
    · exact fun hmem => ⟨_, hmem, rfl⟩
  refine ⟨hkept.card, fun i j ctx hi hj => ?_, fun i ctx hi => ?_, fun ctx => (hmap ctx).1, ?_,
    hheard, fun hblocked => ?_⟩
  · by_contra hne
    have hle := Multiset.filterMap_le_filterMap Connection.ctx (taken_add_le s hne)
    rw [taken_of_conn? hi, taken_of_conn? hj, Multiset.filterMap_add, filterMap_singleton,
      hkept.contexts] at hle
    have hnodup := Multiset.nodup_of_le hle s.contexts.nodup
    simp at hnodup
  · refine (hmap ctx).2 (Multiset.mem_of_le (taken_le s i) ?_)
    rw [taken_of_conn? hi]
    exact Multiset.mem_singleton_self _
  · rw [← Finset.card_val, ← hkept.contexts]
    exact (card_filterMap_le _ _).trans (hkept.card.trans_le (min_le_right _ _))
  · exact exists_going_on hkept (hheard hblocked)

/-- There is one connection, which a thread has connected while another waits for it. -/
theorem sound_blocked : ∃ (s : RedisClient 2) (i j : Fin 2), (system ⟨1⟩ 2).Reachable s ∧
    s.callers i = .commanding "tenant:acme" 0 ∧ s.callers j = .blocked "did:100" ∧ Sound ⟨1⟩ s := by
  have hrun : ((system ⟨1⟩ 2).exec (system ⟨1⟩ 2).init
      [.get 0 "tenant:acme", .take 0, .get 1 "did:100", .take 1, .ensureConnected 0 .ok false]).map
        (fun s => (s.callers 0, s.callers 1)) =
      some (.commanding "tenant:acme" 0, .blocked "did:100") := by
    decide
  obtain ⟨s, hs, heq⟩ := Option.map_eq_some_iff.1 hrun
  obtain ⟨hcommanding, hblocked⟩ := Prod.mk.inj heq
  have hreach := System.Reachable.exec .init hs
  exact ⟨s, 0, 1, hreach, hcommanding, hblocked, sound hreach⟩

end RedisClient

end Yuviz.Gateway
