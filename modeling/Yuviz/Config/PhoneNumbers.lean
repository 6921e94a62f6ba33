import Yuviz.CacheAside
import Yuviz.Distinct
import Yuviz.System

/-!
# The routes of the phone numbers

The route of a DID is read from four tables and kept in Redis, without an expiry.
A write to the table of the numbers is followed by a deletion of its key and a
new read; a write to the agents or the tenants is not. So the routes in Redis are
right when all is done in runs in which no agent or tenant changes that a cached
route depends on, and in which no route changes while a reader is about to set it
(`Undisturbed`).

The rows are numbered in the order of insertion. An operation that raises changes
nothing, and is no step.
-/

namespace Yuviz.Config.PhoneNumbers

open CacheAside

structure Tenant where
  slug : String
  deleted : Bool

inductive AgentStatus
  | active
  | inactive
  deriving DecidableEq

structure Agent where
  tenantId : ℕ
  slug : String
  status : AgentStatus
  configVersion : ℕ
  deleted : Bool

inductive NumberStatus
  | active
  | inactive
  | suspended
  deriving DecidableEq

structure PhoneNumber where
  did : String
  tenantId : ℕ
  agentId : Option ℕ
  fallbackAgentId : Option ℕ
  status : NumberStatus
  deleted : Bool

structure Db where
  tenants : List Tenant
  agents : List Agent
  phoneNumbers : List PhoneNumber

/-- What Redis holds under `did:{did}`. -/
structure Route where
  tenantSlug : String
  agentSlug : String
  version : Option ℕ
  deriving DecidableEq

def Route.slugs (route : Route) : String × String := (route.tenantSlug, route.agentSlug)

/-- The fields of `update_phone_number`, but for those that are of no matter here. -/
structure NumberFields where
  did : Option String
  agentId : Option (Option ℕ)
  fallbackAgentId : Option (Option ℕ)
  status : Option NumberStatus

namespace Db

variable (db : Db)

/-- The agent that a number is joined with. -/
def liveAgent (id : Option ℕ) : Option Agent :=
  (id.bind fun id => db.agents[id]?).filter fun a => !a.deleted && a.status = .active

/-- The query of `get_by_did`. -/
def route (did : String) : Option Route := do
  let number ← db.phoneNumbers.find? fun number =>
    number.did = did && number.status = .active && !number.deleted
  let tenant ← db.tenants[number.tenantId]?
  if tenant.deleted then none
  else
    let agent := db.liveAgent number.agentId
    let fallback := db.liveAgent number.fallbackAgentId
    some
      { tenantSlug := tenant.slug
        agentSlug := ((agent.map (·.slug)).or (fallback.map (·.slug))).getD "default"
        version := (agent.map (·.configVersion)).or (fallback.map (·.configVersion)) }

/-- The references of a number are to rows that are there. -/
def admits (number : PhoneNumber) : Bool :=
  number.tenantId < db.tenants.length && number.agentId.all (· < db.agents.length) &&
    number.fallbackAgentId.all (· < db.agents.length)

def hasDid (did : String) : Bool := db.phoneNumbers.any (·.did = did)

/-- The agent, if it is of a tenant with the slug. -/
def agentOf (id : ℕ) (tenantSlug : String) : Option Agent := do
  let agent ← db.agents[id]?
  let tenant ← db.tenants[agent.tenantId]?
  if tenant.slug = tenantSlug then some agent else none

def setNumber (id : ℕ) (number : PhoneNumber) : Db :=
  { db with phoneNumbers := db.phoneNumbers.set id number }

def setAgent (id : ℕ) (agent : Agent) : Db := { db with agents := db.agents.set id agent }

end Db

def NumberFields.update (fields : NumberFields) (old : PhoneNumber) : PhoneNumber :=
  { old with
    did := fields.did.getD old.did
    agentId := fields.agentId.getD old.agentId
    fallbackAgentId := fields.fallbackAgentId.getD old.fallbackAgentId
    status := fields.status.getD old.status }

inductive Label
  | createTenant (slug : String)
  | createAgent (tenantId : ℕ) (slug : String)
  /-- An update of an agent, and whether another field than the status changes. -/
  | updateAgent (id : ℕ) (tenantSlug : String) (status : Option AgentStatus) (edited : Bool)
  | softDeleteAgent (id : ℕ) (tenantSlug : String)
  | softDeleteTenant (id : ℕ)
  | createPhoneNumber (number : PhoneNumber)
  | updatePhoneNumber (id : ℕ) (fields : NumberFields)
  | softDeletePhoneNumber (id : ℕ)
  | prewarm
  | getByDid (did : String)
  | run (i : ℕ)

/-- Whether the operation is on the agents or the tenants. -/
def Label.isOfAgents : Label → Bool
  | createTenant _ | createAgent _ _ | updateAgent _ _ _ _ | softDeleteAgent _ _
  | softDeleteTenant _ => true
  | _ => false

/-- The transaction of an operation, and what it does with Redis after it. -/
def Db.transaction (db : Db) : Label → Option (Db × List (Action String Route))
  | .createTenant slug =>
    if db.tenants.any (·.slug = slug) then none
    else some ({ db with tenants := db.tenants ++ [⟨slug, false⟩] }, [])
  | .createAgent tenantId slug =>
    if tenantId < db.tenants.length ∧
        !db.agents.any fun agent => agent.tenantId = tenantId && agent.slug = slug then
      some ({ db with agents := db.agents ++ [⟨tenantId, slug, .active, 1, false⟩] }, [])
    else none
  | .updateAgent id tenantSlug status edited => do
    let old ← db.agentOf id tenantSlug
    let status := status.getD old.status
    let version := if edited || status ≠ old.status then old.configVersion + 1 else old.configVersion
    some (db.setAgent id { old with status := status, configVersion := version }, [])
  | .softDeleteAgent id tenantSlug => do
    let old ← db.agentOf id tenantSlug
    some (db.setAgent id { old with deleted := true, configVersion := old.configVersion + 1 }, [])
  | .softDeleteTenant id => do
    let old ← db.tenants[id]?
    some ({ db with tenants := db.tenants.set id { old with deleted := true } }, [])
  | .createPhoneNumber number =>
    if db.admits number && !db.hasDid number.did then
      some ({ db with phoneNumbers := db.phoneNumbers ++ [{ number with deleted := false }] },
        [.get number.did])
    else none
  | .updatePhoneNumber id fields => do
    let old ← db.phoneNumbers[id]?
    let new := fields.update old
    if db.admits new && (new.did = old.did || !db.hasDid new.did) then
      some (db.setNumber id new, (if old.did ≠ new.did then [.del old.did] else []) ++
        [.del new.did, .get new.did])
    else none
  | .softDeletePhoneNumber id => do
    let old ← db.phoneNumbers[id]?
    some (db.setNumber id { old with deleted := true }, [.del old.did])
  | .prewarm =>
    let rows := db.phoneNumbers.filter fun number => number.status = .active && !number.deleted
    some (db, rows.map fun number => .get number.did)
  | .getByDid did => some (db, [.get did])
  | .run _ => none

abbrev State := CacheAside.State Db String Route

def step (s : State) : Label → Option State
  | .run i => s.run Db.route i
  | l => (s.db.transaction l).map fun (db, actions) => s.commit db actions

def system : System State Label where
  init := ⟨⟨[⟨"default", false⟩], [], []⟩, [], []⟩
  step := step

/-! ## Coherence -/

/-- What is in Redis names the tenant and the agent of the route. -/
def Routed (s : State) : Prop :=
  ∀ did route, s.cache.get? did = some route → (s.db.route did).map Route.slugs = some route.slugs

/-- The route of the DID names the same tenant and agent. -/
def Keeps (db db' : Db) (did : String) : Prop :=
  (db'.route did).map Route.slugs = (db.route did).map Route.slugs

instance (db db' : Db) (did : String) : Decidable (Keeps db db' did) :=
  inferInstanceAs (Decidable ((db'.route did).map Route.slugs = (db.route did).map Route.slugs))

/-- A transaction does not change the route of a DID that a reader is about to
    set, nor, if it is on the agents or the tenants, that of one which is in Redis
    and is not to be deleted. -/
def Undisturbed (s : State) (l : Label) : Prop :=
  ∀ tr ∈ s.db.transaction l,
    (∀ task ∈ s.tasks, ∀ a ∈ task, ∀ did ∈ a.setKey?, Keeps s.db tr.1 did) ∧
      (l.isOfAgents = true → ∀ e ∈ s.cache, s.Awaits (.del e.1) ∨ Keeps s.db tr.1 e.1)

instance (s : State) (l : Label) : Decidable (Undisturbed s l) :=
  inferInstanceAs (Decidable (∀ tr ∈ s.db.transaction l,
    (∀ task ∈ s.tasks, ∀ a ∈ task, ∀ did ∈ a.setKey?, Keeps s.db tr.1 did) ∧
      (l.isOfAgents = true → ∀ e ∈ s.cache, s.Awaits (.del e.1) ∨ Keeps s.db tr.1 e.1)))

/-! ### What a write changes -/

variable {db : Db} {did : String} {s s' : State} {l : Label}

/-- The row that the route of the DID is read from. -/
def IsRoute (did : String) (number : PhoneNumber) : Bool :=
  number.did = did && number.status = .active && !number.deleted

theorem isRoute_of_ne {number : PhoneNumber} (h : number.did ≠ did) : IsRoute did number = false := by
  simp [IsRoute, h]

theorem route_of_find? {rows : List PhoneNumber}
    (h : rows.find? (IsRoute did) = db.phoneNumbers.find? (IsRoute did)) :
    { db with phoneNumbers := rows }.route did = db.route did := by
  rw [Db.route, Db.route]
  exact congrArg (Option.bind · _) h

theorem route_setNumber {id : ℕ} {old new : PhoneNumber} (hid : db.phoneNumbers[id]? = some old)
    (hold : old.did ≠ did) (hnew : new.did ≠ did) :
    (db.setNumber id new).route did = db.route did :=
  route_of_find? (find?_set_of_false hid (isRoute_of_ne hold) (isRoute_of_ne hnew))

theorem route_of_not_hasDid (h : db.hasDid did = false) : db.route did = none := by
  have hfind : db.phoneNumbers.find? (IsRoute did) = none := by
    rw [List.find?_eq_none]
    intro number hnumber
    have hne : number.did ≠ did := by simpa using List.any_eq_false.1 h number hnumber
    rw [isRoute_of_ne hne]
    exact Bool.false_ne_true
  rw [Db.route]
  exact congrArg (Option.bind · _) hfind

/-- A write to the numbers deletes the key of every DID whose route it changes,
    unless the DID is new. -/
theorem deletes_or_keeps {tr : Db × List (Action String Route)} (htr : db.transaction l = some tr)
    (hl : l.isOfAgents = false) (did : String) :
    .del did ∈ tr.2 ∨ db.route did = none ∨ tr.1.route did = db.route did := by
  cases l with
  | createTenant slug | createAgent tenantId slug | updateAgent id tenantSlug status edited
  | softDeleteAgent id tenantSlug | softDeleteTenant id => cases hl
  | createPhoneNumber number =>
    simp only [Db.transaction] at htr
    split_ifs at htr with hadmits
    obtain rfl := Option.some.inj htr
    rw [Bool.and_eq_true, Bool.not_eq_true'] at hadmits
    rcases eq_or_ne number.did did with rfl | hne
    · exact .inr (.inl (route_of_not_hasDid hadmits.2))
    · refine .inr (.inr (route_of_find? ?_))
      rw [List.find?_append, List.find?_cons_of_neg, List.find?_nil, Option.or_none]
      rw [isRoute_of_ne (by exact hne)]
      exact Bool.false_ne_true
  | updatePhoneNumber id fields =>
    obtain ⟨old, hid, htr⟩ := Option.bind_eq_some_iff.1 htr
    dsimp only at htr
    split_ifs at htr with hadmits hne
    · obtain rfl := Option.some.inj htr
      rcases eq_or_ne old.did did with rfl | hold
      · exact .inl List.mem_cons_self
      · rcases eq_or_ne (fields.update old).did did with rfl | hnew
        · exact .inl (List.mem_cons_of_mem _ List.mem_cons_self)
        · exact .inr (.inr (route_setNumber hid hold hnew))
    · obtain rfl := Option.some.inj htr
      rw [not_not] at hne
      rcases eq_or_ne (fields.update old).did did with rfl | hnew
      · exact .inl List.mem_cons_self
      · exact .inr (.inr (route_setNumber hid (hne ▸ hnew) hnew))
  | softDeletePhoneNumber id =>
    obtain ⟨old, hid, htr⟩ := Option.bind_eq_some_iff.1 htr
    obtain rfl := Option.some.inj htr
    rcases eq_or_ne old.did did with rfl | hold
    · exact .inl List.mem_cons_self
    · exact .inr (.inr (route_setNumber hid hold hold))
  | prewarm => exact Option.some.inj htr ▸ .inr (.inr rfl)
  | getByDid did => exact Option.some.inj htr ▸ .inr (.inr rfl)
  | run i => cases htr

/-- A writer sets nothing that it has not read. -/
theorem set_notMem {tr : Db × List (Action String Route)} (htr : db.transaction l = some tr)
    (did : String) (route : Route) : .set did route ∉ tr.2 := by
  cases l with
  | createTenant slug =>
    simp only [Db.transaction] at htr
    split_ifs at htr
    exact Option.some.inj htr ▸ List.not_mem_nil
  | createAgent tenantId slug =>
    simp only [Db.transaction] at htr
    split_ifs at htr
    exact Option.some.inj htr ▸ List.not_mem_nil
  | updateAgent id tenantSlug status edited =>
    obtain ⟨old, -, htr⟩ := Option.bind_eq_some_iff.1 htr
    exact Option.some.inj htr ▸ List.not_mem_nil
  | softDeleteAgent id tenantSlug =>
    obtain ⟨old, -, htr⟩ := Option.bind_eq_some_iff.1 htr
    exact Option.some.inj htr ▸ List.not_mem_nil
  | softDeleteTenant id =>
    obtain ⟨old, -, htr⟩ := Option.bind_eq_some_iff.1 htr
    exact Option.some.inj htr ▸ List.not_mem_nil
  | createPhoneNumber number =>
    simp only [Db.transaction] at htr
    split_ifs at htr
    exact Option.some.inj htr ▸ by simp
  | updatePhoneNumber id fields =>
    obtain ⟨old, -, htr⟩ := Option.bind_eq_some_iff.1 htr
    dsimp only at htr
    split_ifs at htr <;> exact Option.some.inj htr ▸ by simp
  | softDeletePhoneNumber id =>
    obtain ⟨old, -, htr⟩ := Option.bind_eq_some_iff.1 htr
    exact Option.some.inj htr ▸ by simp
  | prewarm => exact Option.some.inj htr ▸ by simp
  | getByDid did => exact Option.some.inj htr ▸ by simp
  | run i => cases htr

/-! ### Runs -/

theorem coherent_step (h : s.Coherent Db.route Route.slugs) (hl : Undisturbed s l)
    (hst : step s l = some s') : s'.Coherent Db.route Route.slugs := by
  have hcommit (hst : (s.db.transaction l).map (fun tr => s.commit tr.1 tr.2) = some s') :
      s'.Coherent Db.route Route.slugs := by
    obtain ⟨tr, htr, rfl⟩ := Option.map_eq_some_iff.1 hst
    obtain ⟨hset, hagents⟩ := hl tr htr
    refine h.commit (fun did route ⟨task, htask, hmem⟩ => ?_) (fun did route hroute => ?_)
      (set_notMem htr)
    · exact hset task htask _ hmem did rfl
    · cases hl' : l.isOfAgents with
      | true => exact .inr (hagents hl' (did, route) (Python.Dict.mem_of_get?_eq_some hroute))
      | false =>
        rcases deletes_or_keeps htr hl' did with hdel | hnone | hsame
        · exact .inl hdel
        · -- What was there of a new number was to be deleted.
          refine .inr (.inl ((h.cached did route hroute).resolve_right fun hvalid => ?_))
          rw [State.Valid, hnone] at hvalid
          cases hvalid
        · exact .inr (.inr (congrArg _ hsame))
  cases l with
  | run i => exact h.run hst
  | _ => exact hcommit hst

/-- When all is done, what is in Redis for a DID is its route, in runs in which no
    route changes that is about to be set, or that is in Redis and is of an agent
    or a tenant that changes. -/
theorem reachable_routed : ∀ s, system.ReachableIf Undisturbed s → s.Idle → Routed s := by
  intro s hs hidle did route hroute
  have h : s.Coherent Db.route Route.slugs := by
    refine hs.invariant ⟨nofun, fun did route ⟨task, htask, _⟩ => ?_⟩
      fun s l s' h hg hst => coherent_step h hg hst
    exact absurd htask List.not_mem_nil
  exact h.valid hidle hroute

/-- A number is created for an agent, and read. -/
def provision : List Label :=
  [.createAgent 0 "sales", .createPhoneNumber ⟨"+15550100", 0, some 0, none, .active, false⟩,
    .run 1, .run 1, .run 1]

/-- The agent is deleted, and stays in the route. -/
theorem not_routed_softDeleteAgent : ¬ ∀ s, system.Reachable s → s.Idle → Routed s := by
  intro hrouted
  have hrun : (system.exec system.init (provision ++ [.softDeleteAgent 0 "default"])).map
      (fun s => ((s.tasks, s.cache.get? "+15550100"), s.db.route "+15550100")) =
      some (([[], [], []], some ⟨"default", "sales", some 1⟩),
        some ⟨"default", "default", none⟩) := by
    decide
  obtain ⟨s, hs, heq⟩ := Option.map_eq_some_iff.1 hrun
  obtain ⟨hdone, hroute⟩ := Prod.mk.inj heq
  obtain ⟨htasks, hcache⟩ := Prod.mk.inj hdone
  have hidle : s.Idle := by rw [State.Idle, htasks]; simp
  have := hrouted s (.exec .init hs) hidle _ _ hcache
  rw [hroute] at this
  exact absurd this (by decide)

/-- The number is given to another agent. -/
theorem reachable_routed_update : ∃ s, system.ReachableIf Undisturbed s ∧
    s.cache.get? "+15550100" = some ⟨"default", "support", some 1⟩ ∧ Routed s := by
  have hrun : (system.execIf Undisturbed system.init (provision ++ [.createAgent 0 "support",
      .updatePhoneNumber 0 ⟨none, some (some 1), none, none⟩] ++ List.replicate 4 (.run 3))).map
      (fun s => (s.tasks, s.cache.get? "+15550100")) =
      some ([[], [], [], []], some ⟨"default", "support", some 1⟩) := by
    decide
  obtain ⟨s, hs, heq⟩ := Option.map_eq_some_iff.1 hrun
  obtain ⟨htasks, hcache⟩ := Prod.mk.inj heq
  have hidle : s.Idle := by rw [State.Idle, htasks]; simp
  have hreach : system.ReachableIf Undisturbed s := .execIf .init hs
  exact ⟨s, hreach, hcache, reachable_routed s hreach hidle⟩

end Yuviz.Config.PhoneNumbers
