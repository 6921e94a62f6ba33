import Mathlib.Algebra.Order.Field.Rat
import Yuviz.Conversation.Tools.Execution

/-!
# The tools of an agent

Which tools an agent may use is in two tables: a policy for each tool, and the
provider it goes to. Two tools come with that for booking, unless they have
policies of their own. A stage of a workflow narrows the tools, and never adds
to them (`mem_narrow`).

The resolver keeps the list of each agent, as it is before it is narrowed, for
some time. A list is read in one moment and kept in a later one, so that the
lists of several reads may cross; each of them is what some read of the agent's
policies found (`Resolver.Sound`), and no list is used after its time
(`Resolver.Current`).
-/

namespace Yuviz.Conversation.Tools

open Python

/-! ### The tables -/

/-- A row of `agent_tool_policies`. -/
structure AgentToolPolicy where
  agentId : String
  toolName : String
  toolProviderConfigId : String
  enabled : Bool := true
  timeoutMs : Option ℕ := none

/-- A row of `tool_provider_configs`. -/
structure ToolProviderConfig where
  id : String
  isDeleted : Bool := false

structure ToolTables where
  agentToolPolicies : List AgentToolPolicy := []
  toolProviderConfigs : List ToolProviderConfig := []

/-- The query of `enabled_tools`: the enabled policies whose provider is there. -/
def ToolTables.rows (db : ToolTables) (agentId : String) : List AgentToolPolicy :=
  db.agentToolPolicies.filter fun row => row.agentId = agentId ∧ row.enabled ∧
    db.toolProviderConfigs.any fun config =>
      config.id = row.toolProviderConfigId ∧ ¬ config.isDeleted

structure ToolRegistry where
  tools : Dict String ToolDefinition
  /-- A tool is registered under its name. -/
  name_eq : ∀ e ∈ tools, e.2.name = e.1

def ToolRegistry.resolve (registry : ToolRegistry) (name : String) : Option ToolDefinition :=
  registry.tools.get? name

/-- `_AUTO_DERIVED_COMPANIONS`. -/
def autoDerivedCompanions : Dict String (List String) :=
  [("book_appointment", ["cancel_appointment", "reschedule_appointment"])]

/-- The tool `name` comes with the tool `source`. -/
def IsCompanion (source name : String) : Prop :=
  ∃ e ∈ autoDerivedCompanions, e.1 = source ∧ name ∈ e.2

/-- An agent may use a tool: by a policy, or by that of a tool it comes with. -/
def ToolTables.Enabled (db : ToolTables) (agentId name : String) : Prop :=
  ∃ row ∈ db.rows agentId, row.toolName = name ∨ IsCompanion row.toolName name

/-- A stage with the tools `only` may use a tool. -/
def Permitted (only : Option (List String)) (name : String) : Prop :=
  ∀ names ∈ only, name ∈ names ∨ ∃ source ∈ names, IsCompanion source name

/-! ### The list of an agent -/

namespace ToolRegistry

variable (registry : ToolRegistry)

/-- The policies of the rows whose tool is known. -/
def resolveRows (rows : List AgentToolPolicy) : List ResolvedToolPolicy :=
  rows.filterMap fun row => (registry.resolve row.toolName).map fun definition =>
    { definition := definition
      toolProviderConfigId := row.toolProviderConfigId
      timeoutMs := row.timeoutMs }

/-- Adds the tool `name`, which comes with `source`, unless it is there. -/
def addCompanion (source : ResolvedToolPolicy) (resolved : List ResolvedToolPolicy)
    (name : String) : List ResolvedToolPolicy :=
  if name ∈ resolved.map (·.definition.name) then resolved
  else
    match registry.resolve name with
    | none => resolved
    | some definition => resolved ++ [{ source with definition := definition }]

/-- `_add_auto_derived_companions`. -/
def addAutoDerivedCompanions (resolved : List ResolvedToolPolicy) : List ResolvedToolPolicy :=
  autoDerivedCompanions.foldl (fun resolved e =>
    match resolved.find? (·.definition.name = e.1) with
    | none => resolved
    | some source => e.2.foldl (registry.addCompanion source) resolved) resolved

/-- The tools of an agent, as `enabled_tools` makes them of the tables. -/
def enabledTools (db : ToolTables) (agentId : String) : List ResolvedToolPolicy :=
  registry.addAutoDerivedCompanions (registry.resolveRows (db.rows agentId))

end ToolRegistry

/-- The names a stage with the tools `only` allows. -/
def allowedNames (only : List String) : List String :=
  autoDerivedCompanions.foldl (fun allowed e => if e.1 ∈ allowed then allowed ++ e.2 else allowed)
    only

/-- `_narrow`. -/
def narrow (resolved : List ResolvedToolPolicy) : Option (List String) → List ResolvedToolPolicy
  | none => resolved
  | some only => resolved.filter (·.definition.name ∈ allowedNames only)

variable {registry : ToolRegistry} {db : ToolTables} {agentId name : String}
  {resolved : List ResolvedToolPolicy} {source policy : ResolvedToolPolicy}
  {only : Option (List String)}

theorem ToolRegistry.name_of_resolve {definition : ToolDefinition}
    (h : registry.resolve name = some definition) : definition.name = name :=
  registry.name_eq _ (Dict.mem_of_get?_eq_some h)

theorem ToolRegistry.mem_resolveRows {rows : List AgentToolPolicy}
    (h : policy ∈ registry.resolveRows rows) :
    ∃ row ∈ rows, row.toolName = policy.definition.name := by
  obtain ⟨row, hrow, h⟩ := List.mem_filterMap.1 h
  obtain ⟨definition, hdefinition, rfl⟩ := Option.map_eq_some_iff.1 h
  exact ⟨row, hrow, (name_of_resolve hdefinition).symm⟩

/-- What companions add comes with their source. -/
theorem ToolRegistry.mem_foldl_addCompanion {names : List String}
    (h : policy ∈ names.foldl (registry.addCompanion source) resolved) :
    policy ∈ resolved ∨ policy.definition.name ∈ names := by
  induction names generalizing resolved with
  | nil => exact .inl h
  | cons name names ih =>
    rcases ih h with h | h
    · rw [addCompanion] at h
      split_ifs at h
      · exact .inl h
      · split at h
        · exact .inl h
        · rename_i definition hdefinition
          rcases List.mem_append.1 h with h | h
          · exact .inl h
          · obtain rfl := List.mem_singleton.1 h
            exact .inr (List.mem_cons.2 (.inl (name_of_resolve hdefinition)))
    · exact .inr (List.mem_cons_of_mem _ h)

theorem ToolRegistry.mem_addAutoDerivedCompanions
    (h : policy ∈ registry.addAutoDerivedCompanions resolved) :
    policy ∈ resolved ∨
      ∃ source ∈ resolved, IsCompanion source.definition.name policy.definition.name := by
  rw [addAutoDerivedCompanions, autoDerivedCompanions, List.foldl_cons, List.foldl_nil] at h
  split at h
  · exact .inl h
  · rename_i source hsource
    have hname' : source.definition.name = "book_appointment" := by
      simpa using List.find?_some hsource
    refine (mem_foldl_addCompanion h).imp_right fun hname =>
      ⟨source, List.mem_of_find?_eq_some hsource, ?_⟩
    exact ⟨_, List.mem_singleton_self _, hname'.symm, hname⟩

/-- What is made of the tables is enabled by them. -/
theorem ToolRegistry.enabled_of_mem_enabledTools (h : policy ∈ registry.enabledTools db agentId) :
    db.Enabled agentId policy.definition.name := by
  rcases mem_addAutoDerivedCompanions h with h | ⟨source, hsource, hcompanion⟩
  · obtain ⟨row, hrow, hname⟩ := mem_resolveRows h
    exact ⟨row, hrow, .inl hname⟩
  · obtain ⟨row, hrow, hname⟩ := mem_resolveRows hsource
    exact ⟨row, hrow, .inr (hname ▸ hcompanion)⟩

theorem mem_allowedNames {names : List String} (h : name ∈ allowedNames names) :
    name ∈ names ∨ ∃ source ∈ names, IsCompanion source name := by
  rw [allowedNames, autoDerivedCompanions, List.foldl_cons, List.foldl_nil] at h
  split_ifs at h with hsource
  · refine (List.mem_append.1 h).imp_right fun h => ⟨_, hsource, ?_⟩
    exact ⟨_, List.mem_singleton_self _, rfl, h⟩
  · exact .inl h

/-- Narrowing grants nothing, and leaves what the stage permits. -/
theorem mem_narrow (h : policy ∈ narrow resolved only) :
    policy ∈ resolved ∧ Permitted only policy.definition.name := by
  rcases only with _ | names
  · exact ⟨h, nofun⟩
  · obtain ⟨hmem, hname⟩ := List.mem_filter.1 h
    refine ⟨hmem, fun names' h => ?_⟩
    obtain rfl := Option.some.inj h
    exact mem_allowedNames (of_decide_eq_true hname)

/-! ### The resolver -/

/-- A query of the policies of an agent. -/
structure Query where
  agentId : String
  /-- The tables in the moment they are read. -/
  db : ToolTables
  /-- When the list that is made of them is kept, which is not yet done at first. -/
  storedAt : Option ℚ := none

/-- The resolver, with the clock and the tables. -/
structure Resolver where
  now : ℚ := 0
  db : ToolTables := {}
  cache : Dict String (ℚ × List ResolvedToolPolicy) := []
  /-- The queries so far. -/
  queries : List Query := []

structure PolicyResolver where
  registry : ToolRegistry
  cacheTtl : ℚ := 30
  /-- There is a database. -/
  hasPool : Bool := true

/-- In the moment `now`, the list of the query may be used: it is new, or its time is not over. -/
def Query.IsCurrent (c : PolicyResolver) (q : Query) (now : ℚ) : Prop :=
  ∃ storedAt, q.storedAt = some storedAt ∧ (storedAt = now ∨ now - storedAt < c.cacheTtl)

namespace Resolver

variable (c : PolicyResolver) (r : Resolver)

/-- The list that is kept for the agent, unless its time is over. -/
def cached (agentId : String) : Option (List ResolvedToolPolicy) :=
  (r.cache.get? agentId).bind fun e => if r.now - e.1 < c.cacheTtl then some e.2 else none

/-- The tables are read for the agent. -/
def select (agentId : String) : Resolver :=
  { r with queries := r.queries ++ [{ agentId := agentId, db := r.db }] }

/-- The list of a query. -/
def list (q : Query) : List ResolvedToolPolicy := c.registry.enabledTools q.db q.agentId

/-- The answer to the query `i` is there: its list is kept. -/
def store (i : ℕ) : Option Resolver :=
  match r.queries[i]? with
  | none => none
  | some q =>
    if q.storedAt = none then
      some
        { r with
          cache := r.cache.set q.agentId (r.now, list c q)
          queries := r.queries.set i { q with storedAt := some r.now } }
    else none

/-- Each list that is kept is that of a query of the agent. -/
def Sound : Prop :=
  ∀ e ∈ r.cache, ∃ q ∈ r.queries, q.agentId = e.1 ∧ q.storedAt = some e.2.1 ∧ e.2.2 = list c q

/-- The list was made of a query of the agent's policies, and may be used in the moment `now`. -/
def Current (agentId : String) (now : ℚ) (resolved : List ResolvedToolPolicy) : Prop :=
  ∃ q ∈ r.queries, q.agentId = agentId ∧ resolved = list c q ∧ q.IsCurrent c now

variable {c : PolicyResolver} {r r' : Resolver} {now : ℚ} {i : ℕ} {q : Query}

/-- A query whose list is kept stays. -/
def Extends (r r' : Resolver) : Prop := ∀ q ∈ r.queries, q.storedAt ≠ none → q ∈ r'.queries

theorem Current.extends (h : r.Current c agentId now resolved) (hr : r.Extends r') :
    r'.Current c agentId now resolved := by
  obtain ⟨q, hq, hagent, hlist, storedAt, hstored, hnow⟩ := h
  exact ⟨q, hr q hq (by simp [hstored]), hagent, hlist, storedAt, hstored, hnow⟩

theorem extends_select : r.Extends (r.select agentId) :=
  fun _ hq _ => List.mem_append_left _ hq

theorem Sound.select (h : r.Sound c) : (r.select agentId).Sound c := by
  intro e he
  obtain ⟨q, hq, hrest⟩ := h e he
  exact ⟨q, List.mem_append_left _ hq, hrest⟩

theorem store_eq_some (h : r.store c i = some r') : ∃ q, r.queries[i]? = some q ∧
    q.storedAt = none ∧ r' =
      { r with
        cache := r.cache.set q.agentId (r.now, list c q)
        queries := r.queries.set i { q with storedAt := some r.now } } := by
  rw [store] at h
  split at h
  · cases h
  · rename_i q hq
    split_ifs at h with hstored
    exact ⟨q, hq, hstored, (Option.some.inj h).symm⟩

theorem now_store (h : r.store c i = some r') : r'.now = r.now := by
  obtain ⟨q, -, -, rfl⟩ := store_eq_some h
  rfl

theorem extends_store (h : r.store c i = some r') : r.Extends r' := by
  obtain ⟨q, hq, hnone, rfl⟩ := store_eq_some h
  intro q' hq' hstored
  obtain ⟨j, hj⟩ := List.mem_iff_getElem?.1 hq'
  refine List.mem_iff_getElem?.2 ⟨j, ?_⟩
  rw [List.getElem?_set_ne, hj]
  rintro rfl
  rw [hq] at hj
  exact hstored (Option.some.inj hj ▸ hnone)

/-- The query `i` is then the source of its list. -/
theorem mem_queries_store (h : r.store c i = some r') (hq : r.queries[i]? = some q) :
    { q with storedAt := some r.now } ∈ r'.queries := by
  obtain ⟨q', hq', -, rfl⟩ := store_eq_some h
  obtain rfl := Option.some.inj (hq.symm.trans hq')
  obtain ⟨hi, -⟩ := List.getElem?_eq_some_iff.1 hq
  exact List.mem_set hi _

/-- The agent of a query stays the same. -/
theorem query_store (h : r.store c i = some r') {j : ℕ} (hq : r.queries[j]? = some q) :
    ∃ q', r'.queries[j]? = some q' ∧ q'.agentId = q.agentId := by
  obtain ⟨q₀, hq₀, -, rfl⟩ := store_eq_some h
  obtain ⟨hj, -⟩ := List.getElem?_eq_some_iff.1 hq
  by_cases hij : i = j
  · obtain rfl := hij
    obtain rfl := Option.some.inj (hq.symm.trans hq₀)
    exact ⟨_, List.getElem?_set_self hj, rfl⟩
  · exact ⟨q, (List.getElem?_set_ne hij).trans hq, rfl⟩

theorem Sound.store (hs : r.Sound c) (h : r.store c i = some r') : r'.Sound c := by
  have hext := extends_store h
  obtain ⟨q, hq, -, heq⟩ := store_eq_some h
  have hmem := mem_queries_store h hq
  intro e he
  rw [heq] at he
  rcases Dict.mem_set he with rfl | he
  · exact ⟨_, hmem, rfl, rfl, rfl⟩
  · obtain ⟨q', hq', hagent, hstored, hlist⟩ := hs e he
    exact ⟨q', hext q' hq' (by simp [hstored]), hagent, hstored, hlist⟩

theorem current_of_store (h : r.store c i = some r') (hq : r.queries[i]? = some q) :
    r'.Current c q.agentId r.now (list c q) :=
  ⟨_, mem_queries_store h hq, rfl, rfl, _, rfl, .inl rfl⟩

theorem current_of_cached (hs : r.Sound c) (h : r.cached c agentId = some resolved) :
    r.Current c agentId r.now resolved := by
  obtain ⟨e, he, h⟩ := Option.bind_eq_some_iff.1 h
  obtain ⟨hfresh, h⟩ := Option.ite_none_right_eq_some.1 h
  obtain ⟨q, hq, hagent, hstored, hlist⟩ := hs _ (Dict.mem_of_get?_eq_some he)
  exact ⟨q, hq, hagent, (Option.some.inj h).symm.trans hlist, e.1, hstored, .inr hfresh⟩

end Resolver

end Yuviz.Conversation.Tools
