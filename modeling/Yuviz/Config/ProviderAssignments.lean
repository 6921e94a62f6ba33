import Yuviz.Python.Dict
import Yuviz.System

/-!
# The providers of the agents

The references of agents and tenants to providers, through the transactions that create and
update agents, update tenants, and create, update and delete providers. They run at READ
COMMITTED: a statement sees what is committed when it begins. What a transaction writes is
taken together with its `COMMIT`. The deletion of a provider locks its row, and so a
reference to it that is new is not written until the deletion is over.

Every reference is to a provider of the tenant, with the role of the column, that is not
deleted, and so no call is lost for one that is (`Sound`), if `update_tenant` is given such
references only, `_validate_provider_assignments` is given no deleted provider, and no
provider is deleted between its lookup by a transaction and the end of that
(`KeepsProviders`).
-/

namespace Yuviz.Config.ProviderAssignments

open Python (Dict)

/-! ### The tables -/

/-- The keys of `_ROLE_TENANT_DEFAULT` and `_ROLE_AGENT_OVERRIDE`. -/
inductive VoiceRole
  | stt | llm | tts
  deriving DecidableEq

def voiceRoles : List VoiceRole := [.stt, .llm, .tts]

theorem mem_voiceRoles (role : VoiceRole) : role ∈ voiceRoles := by
  cases role <;> decide

inductive Role
  | voice (role : VoiceRole)
  | embedding
  deriving DecidableEq

def Role.voice? : Role → Option VoiceRole
  | .voice role => some role
  | .embedding => none

/-- A row of `provider_configs`. -/
structure Provider where
  tenantId : ℕ
  role : Role
  engine : String
  voice : Option String
  deleted : Bool

/-- The columns `stt_config_id`, `llm_config_id` and `tts_config_id`, and those of the defaults. -/
abbrev ConfigIds := VoiceRole → Option ℕ

structure Agent where
  tenantId : ℕ
  configId : ConfigIds
  deleted : Bool

structure Tenant where
  defaultConfigId : ConfigIds
  deleted : Bool

structure Db where
  providers : Dict ℕ Provider
  agents : Dict ℕ Agent
  tenants : Dict ℕ Tenant

/-- A reference to a provider in a column of a tenant or of an agent of it. -/
structure Ref where
  tenantId : ℕ
  role : VoiceRole
  configId : ℕ

/-- The provider is the tenant's, has the role and is not deleted. -/
def Db.Valid (db : Db) (ref : Ref) : Prop :=
  ∃ provider, db.providers.get? ref.configId = some provider ∧
    provider.tenantId = ref.tenantId ∧ provider.role = .voice ref.role ∧ provider.deleted = false

instance (db : Db) (ref : Ref) : Decidable (db.Valid ref) :=
  decidable_of_iff ((db.providers.get? ref.configId).any fun provider =>
      provider.tenantId = ref.tenantId ∧ provider.role = .voice ref.role ∧
        provider.deleted = false) (by simp [Db.Valid, Option.any_eq_true])

def Db.NotDeleted (db : Db) (configId : ℕ) : Prop :=
  ∀ provider ∈ db.providers.get? configId, provider.deleted = false

instance (db : Db) (configId : ℕ) : Decidable (db.NotDeleted configId) := by
  unfold Db.NotDeleted
  infer_instance

/-- `_validate_provider_assignments`, of one field. A string that is no UUID is taken as an id
    that is not there, which is a `ValueError` as well. -/
def Db.validates (db : Db) (ref : Ref) : Bool :=
  (db.providers.get? ref.configId).any fun provider =>
    provider.tenantId = ref.tenantId && provider.role = .voice ref.role &&
      !(provider.engine = "elevenlabs" && provider.voice.getD "" = "")

/-- The columns of an update that are set, to a provider or to null. -/
abbrev Fields := VoiceRole → Option (Option ℕ)

def Fields.apply (fields : Fields) (ids : ConfigIds) : ConfigIds :=
  fun role => (fields role).getD (ids role)

/-- What the columns of a tenant refer to. -/
def ConfigIds.refs (ids : ConfigIds) (tenantId : ℕ) (roles : List VoiceRole) : List Ref :=
  roles.filterMap fun role => (ids role).map fun configId => ⟨tenantId, role, configId⟩

/-- The ids that an update sets. -/
def Fields.ids (fields : Fields) : ConfigIds := fun role => (fields role).bind id

/-- The references of which the foreign keys are checked. -/
def changed (old new : ConfigIds) : List ℕ :=
  voiceRoles.filterMap fun role => if new role = old role then none else new role

/-! ### The transactions -/

inductive Request
  | createAgent (tenantId : ℕ) (configIds : ConfigIds)
  | updateAgent (agentId : ℕ) (fields : Fields)
  | updateTenant (tenantId : ℕ) (fields : Fields)
  | softDelete (providerId : ℕ)

/-- What a transaction is about to do, with its local variables. -/
inductive Pc
  | begin
  /-- `_validate_provider_assignments`, which has looked up some roles, and then the write. -/
  | validating (tenantId : ℕ) (looked remaining : List VoiceRole)
  /-- The row of the tenant is locked: its `UPDATE`. -/
  | updating
  /-- The row of the provider is locked: `tenants_using`, -/
  | selecting
  /-- the replacement for each of them, and the updates. -/
  | replacing (role : Option VoiceRole) (remaining : List ℕ) (chosen : List (ℕ × Option ℕ))
  | done

structure Call where
  request : Request
  pc : Pc

/-- The provider whose row the transaction has locked. -/
def Call.locks (call : Call) : Option ℕ :=
  match call.request, call.pc with
  | .softDelete providerId, .selecting => some providerId
  | .softDelete providerId, .replacing _ _ _ => some providerId
  | _, _ => none

/-- The references that the transaction has looked up and is about to write. -/
def Call.pending (call : Call) : List Ref :=
  match call.request, call.pc with
  | .createAgent _ configIds, .validating tenantId looked _ => configIds.refs tenantId looked
  | .updateAgent _ fields, .validating tenantId looked _ => fields.ids.refs tenantId looked
  | .updateTenant tenantId fields, .updating => fields.ids.refs tenantId voiceRoles
  | .softDelete _, .replacing (some role) _ chosen =>
    chosen.filterMap fun e => e.2.map fun configId => ⟨e.1, role, configId⟩
  | _, _ => []

structure State where
  db : Db
  calls : List Call

/-- What the database chooses: the id of an agent that is inserted, and which of the
    candidates is the newest. -/
structure Choice where
  agentId : ℕ
  replacement : Option ℕ

namespace State

variable (s : State) (i : ℕ) (call : Call)

def goto (pc : Pc) : State := { s with calls := s.calls.set i { call with pc := pc } }

def commit (db : Db) : State := { s.goto i call .done with db := db }

/-- A write of references waits for the deletions of what they refer to, and fails if that is
    not there. -/
def writeRefs (ids : List ℕ) (db : Db) : Option State :=
  if s.calls.any fun other => ids.any fun configId => other.locks = some configId then none
  else if ids.any fun configId => (s.db.providers.get? configId).isNone then
    some (s.goto i call .done)
  else some (s.commit i call db)

/-- The next of the fields is looked up. -/
def validate (configIds : ConfigIds) (tenantId : ℕ) (looked : List VoiceRole) (role : VoiceRole)
    (remaining : List VoiceRole) : State :=
  if (configIds.refs tenantId [role]).all s.db.validates then
    s.goto i call (.validating tenantId (looked ++ [role]) remaining)
  else s.goto i call .done

def createAgent (tenantId : ℕ) (configIds : ConfigIds) (choice : Choice) : Option State :=
  match call.pc with
  | .begin => some (s.goto i call (.validating tenantId [] voiceRoles))
  | .validating tenantId looked (role :: remaining) =>
    some (s.validate i call configIds tenantId looked role remaining)
  | .validating tenantId _ [] =>
    if (s.db.agents.get? choice.agentId).isSome then none
    else if (s.db.tenants.get? tenantId).isNone then some (s.goto i call .done)
    else s.writeRefs i call (changed (fun _ => none) configIds)
      { s.db with agents := s.db.agents.set choice.agentId ⟨tenantId, configIds, false⟩ }
  | _ => none

def updateAgent (agentId : ℕ) (fields : Fields) : Option State :=
  match call.pc with
  | .begin =>
    match s.db.agents.get? agentId with
    | none => some (s.goto i call .done)
    | some agent => some (s.goto i call (.validating agent.tenantId [] voiceRoles))
  | .validating tenantId looked (role :: remaining) =>
    some (s.validate i call fields.ids tenantId looked role remaining)
  | .validating _ _ [] =>
    (s.db.agents.get? agentId).bind fun agent =>
      s.writeRefs i call (changed agent.configId (fields.apply agent.configId))
        { s.db with
          agents := s.db.agents.set agentId
            { agent with configId := fields.apply agent.configId } }
  | _ => none

/-- `update_tenant`, which validates nothing. -/
def updateTenant (tenantId : ℕ) (fields : Fields) : Option State :=
  match call.pc with
  | .begin =>
    if (s.db.tenants.get? tenantId).isSome then some (s.goto i call .updating)
    else some (s.goto i call .done)
  | .updating =>
    (s.db.tenants.get? tenantId).bind fun tenant =>
      s.writeRefs i call (changed tenant.defaultConfigId (fields.apply tenant.defaultConfigId))
        { s.db with
          tenants := s.db.tenants.set tenantId
            { tenant with defaultConfigId := fields.apply tenant.defaultConfigId } }
  | _ => none

/-- A provider that may replace one that is deleted. -/
def isCandidate (ref : Ref) (providerId : ℕ) (provider : Provider) : Bool :=
  provider.tenantId = ref.tenantId && provider.role = .voice ref.role && !provider.deleted &&
    ref.configId ≠ providerId

/-- The answer to the query for the newest of them. -/
def choose (tenantId : ℕ) (role : VoiceRole) (providerId : ℕ) : Option ℕ → Bool
  | none => s.db.providers.all fun e => !isCandidate ⟨tenantId, role, e.1⟩ providerId e.2
  | some configId => (s.db.providers.get? configId).any
    (isCandidate ⟨tenantId, role, configId⟩ providerId)

/-- `UPDATE agents SET … = NULL`. -/
def clear (role : Option VoiceRole) (providerId : ℕ) (agent : Agent) : Agent :=
  { agent with
    configId := fun r =>
      if role = some r ∧ agent.configId r = some providerId then none else agent.configId r }

/-- `UPDATE tenants`, for each of `tenants_using`. -/
def repoint (role : Option VoiceRole) (chosen : Dict ℕ (Option ℕ)) (tenantId : ℕ)
    (tenant : Tenant) : Tenant :=
  match chosen.get? tenantId with
  | none => tenant
  | some replacement =>
    { tenant with
      defaultConfigId := fun r => if role = some r then replacement else tenant.defaultConfigId r }

/-- The replacements that are new to their columns. -/
def replaced (role : Option VoiceRole) (chosen : Dict ℕ (Option ℕ)) : List ℕ :=
  chosen.flatMap fun e => (s.db.tenants.get? e.1).elim [] fun tenant =>
    changed tenant.defaultConfigId (repoint role chosen e.1 tenant).defaultConfigId

def deleted (providerId : ℕ) (provider : Provider) (role : Option VoiceRole)
    (chosen : List (ℕ × Option ℕ)) : Db where
  providers := s.db.providers.set providerId { provider with deleted := true }
  agents := s.db.agents.mapItems fun _ => clear role providerId
  tenants := s.db.tenants.mapItems (repoint role chosen)

/-- `tenants_using`. -/
def tenantsUsing (role : VoiceRole) (providerId : ℕ) : List ℕ :=
  (s.db.tenants.filter fun e =>
    !e.2.deleted && e.2.defaultConfigId role = some providerId).map Prod.fst

def softDelete (providerId : ℕ) (choice : Choice) : Option State :=
  match call.pc with
  | .begin =>
    if s.calls.any (·.locks = some providerId) then none
    else if (s.db.providers.get? providerId).isSome then some (s.goto i call .selecting)
    else some (s.goto i call .done)
  | .selecting =>
    (s.db.providers.get? providerId).map fun provider =>
      s.goto i call (.replacing provider.role.voice?
        (provider.role.voice?.elim [] fun role => s.tenantsUsing role providerId) [])
  | .replacing (some role) (tenantId :: remaining) chosen =>
    if s.choose tenantId role providerId choice.replacement then
      some (s.goto i call
        (.replacing (some role) remaining (chosen ++ [(tenantId, choice.replacement)])))
    else none
  | .replacing role [] chosen =>
    (s.db.providers.get? providerId).bind fun provider =>
      s.writeRefs i call (s.replaced role chosen) (s.deleted providerId provider role chosen)
  | _ => none

def advance (choice : Choice) : Option State :=
  match call.request with
  | .createAgent tenantId configIds => s.createAgent i call tenantId configIds choice
  | .updateAgent agentId fields => s.updateAgent i call agentId fields
  | .updateTenant tenantId fields => s.updateTenant i call tenantId fields
  | .softDelete providerId => s.softDelete i call providerId choice

end State

inductive Label
  | call (request : Request)
  | advance (i : ℕ) (choice : Choice)
  /-- A transaction fails and is rolled back. -/
  | fail (i : ℕ)
  /-- `create_provider_config`. -/
  | createProvider (providerId : ℕ) (provider : Provider)
  /-- `update_provider_config`. Neither the role nor the tenant is among the fields. -/
  | updateProvider (providerId : ℕ) (engine : String) (voice : Option String)
  | createTenant (tenantId : ℕ)
  | deleteTenant (tenantId : ℕ)
  | deleteAgent (agentId : ℕ)

def State.step (s : State) : Label → Option State
  | .call request => some { s with calls := s.calls ++ [⟨request, .begin⟩] }
  | .advance i choice => s.calls[i]?.bind fun call => s.advance i call choice
  | .fail i => s.calls[i]?.map fun call => s.goto i call .done
  | .createProvider providerId provider =>
    if (s.db.providers.get? providerId).isSome ∨ (s.db.tenants.get? provider.tenantId).isNone then
      none
    else some { s with
      db := { s.db with
        providers := s.db.providers.set providerId { provider with deleted := false } } }
  | .updateProvider providerId engine voice =>
    (s.db.providers.get? providerId).map fun provider => { s with
      db := { s.db with
        providers := s.db.providers.set providerId
          { provider with engine := engine, voice := voice } } }
  | .createTenant tenantId =>
    if (s.db.tenants.get? tenantId).isSome then none
    else some { s with
      db := { s.db with tenants := s.db.tenants.set tenantId ⟨fun _ => none, false⟩ } }
  | .deleteTenant tenantId => (s.db.tenants.get? tenantId).map fun tenant => { s with
      db := { s.db with tenants := s.db.tenants.set tenantId { tenant with deleted := true } } }
  | .deleteAgent agentId => (s.db.agents.get? agentId).map fun agent => { s with
      db := { s.db with agents := s.db.agents.set agentId { agent with deleted := true } } }

/-- The transactions, on an empty database. -/
def system : System State Label where
  init := ⟨⟨[], [], []⟩, []⟩
  step := State.step

/-! ### The promise -/

/-- The providers of `get_runtime_config`. -/
def Db.runtimeProviders (db : Db) (agent : Agent) (tenant : Tenant) : Option (List Provider) :=
  voiceRoles.mapM fun role => do
    let configId ← (agent.configId role).or (tenant.defaultConfigId role)
    (db.providers.get? configId).filter fun provider => !provider.deleted

structure Sound (db : Db) : Prop where
  agents : ∀ agentId agent, db.agents.get? agentId = some agent → agent.deleted = false →
    ∀ ref ∈ agent.configId.refs agent.tenantId voiceRoles, db.Valid ref
  tenants : ∀ tenantId tenant, db.tenants.get? tenantId = some tenant → tenant.deleted = false →
    ∀ ref ∈ tenant.defaultConfigId.refs tenantId voiceRoles, db.Valid ref

/-- The call of a live agent of a live tenant is not lost, if there is a provider for each role. -/
def Db.NotLost (db : Db) : Prop :=
  ∀ agentId agent tenant, db.agents.get? agentId = some agent → agent.deleted = false →
    db.tenants.get? agent.tenantId = some tenant → tenant.deleted = false →
    (∀ role, ((agent.configId role).or (tenant.defaultConfigId role)).isSome) →
    ∃ providers, db.runtimeProviders agent tenant = some providers ∧
      providers.map Provider.role = voiceRoles.map Role.voice ∧
      ∀ provider ∈ providers, provider.tenantId = agent.tenantId

/-- What an update of a tenant refers to is valid, what is looked up for an agent is not
    deleted, and no provider is deleted that a transaction has looked up. -/
def State.Keeps (s : State) (call : Call) : Prop :=
  match call.request, call.pc with
  | .createAgent _ configIds, .validating tenantId _ (role :: _) =>
    ∀ ref ∈ configIds.refs tenantId [role], s.db.NotDeleted ref.configId
  | .updateAgent _ fields, .validating tenantId _ (role :: _) =>
    ∀ ref ∈ fields.ids.refs tenantId [role], s.db.NotDeleted ref.configId
  | .updateTenant tenantId fields, .begin =>
    ∀ ref ∈ fields.ids.refs tenantId voiceRoles, s.db.Valid ref
  | .softDelete providerId, .replacing _ [] _ =>
    ∀ other ∈ s.calls, ∀ ref ∈ other.pending, ref.configId ≠ providerId
  | _, _ => True

instance (s : State) (call : Call) : Decidable (s.Keeps call) := by
  unfold State.Keeps
  split <;> infer_instance

def KeepsProviders (s : State) : Label → Prop
  | .advance i _ => ∀ call ∈ s.calls[i]?, s.Keeps call
  | _ => True

instance (s : State) (l : Label) : Decidable (KeepsProviders s l) := by
  cases l <;> unfold KeepsProviders <;> infer_instance

/-! ### References -/

section Refs

variable {db db' : Db} {ref : Ref} {ids : ConfigIds} {fields : Fields} {tenantId providerId : ℕ}
  {roles : List VoiceRole} {provider : Provider}

@[simp] theorem mem_refs :
    ref ∈ ids.refs tenantId roles ↔
      ref.role ∈ roles ∧ ids ref.role = some ref.configId ∧ ref.tenantId = tenantId := by
  rw [ConfigIds.refs, List.mem_filterMap]
  constructor
  · rintro ⟨role, hrole, hid⟩
    obtain ⟨configId, hconfig, rfl⟩ := Option.map_eq_some_iff.1 hid
    exact ⟨hrole, hconfig, rfl⟩
  · rintro ⟨hrole, hid, rfl⟩
    exact ⟨ref.role, hrole, by rw [hid]; rfl⟩

/-- What a row refers to after an update is what the update sets, or what the row referred to
    before. -/
theorem mem_refs_apply (h : ref ∈ (fields.apply ids).refs tenantId roles) :
    ref ∈ fields.ids.refs tenantId roles ∨ ref ∈ ids.refs tenantId roles := by
  rw [mem_refs] at h
  obtain ⟨hrole, hid, htenant⟩ := h
  cases hfield : fields ref.role with
  | none => exact .inr (mem_refs.2 ⟨hrole, by rwa [Fields.apply, hfield] at hid, htenant⟩)
  | some id =>
    rw [Fields.apply, hfield, Option.getD_some] at hid
    exact .inl (mem_refs.2 ⟨hrole, by rw [Fields.ids, hfield]; exact hid, htenant⟩)

theorem valid_of_validates (h : db.validates ref) (hdeleted : db.NotDeleted ref.configId) :
    db.Valid ref := by
  obtain ⟨provider, hprovider, hvalid⟩ := (Option.any_eq_true _ _).1 h
  simp only [Bool.and_eq_true, decide_eq_true_eq] at hvalid
  exact ⟨provider, hprovider, hvalid.1.1, hvalid.1.2, hdeleted provider hprovider⟩

/-- A provider that is written keeps what references are valid for. -/
theorem Db.Valid.setProvider (h : db.Valid ref)
    (hsame : ∀ old, db.providers.get? providerId = some old → ref.configId = providerId →
      provider.tenantId = old.tenantId ∧ provider.role = old.role ∧
        provider.deleted = old.deleted) :
    { db with providers := db.providers.set providerId provider }.Valid ref := by
  obtain ⟨old, hold, htenant, hrole, hdeleted⟩ := h
  by_cases hid : ref.configId = providerId
  · obtain ⟨hsameTenant, hsameRole, hsameDeleted⟩ := hsame old (hid ▸ hold) hid
    exact ⟨provider, by rw [Dict.get?_set, if_pos hid], hsameTenant.trans htenant,
      hsameRole.trans hrole, hsameDeleted.trans hdeleted⟩
  · exact ⟨old, by rwa [Dict.get?_set, if_neg hid], htenant, hrole, hdeleted⟩

theorem not_mem_changed {old new : ConfigIds} {role : VoiceRole} {configId : ℕ}
    (h : configId ∉ changed old new) (hnew : new role = some configId) :
    old role = some configId := by
  by_contra hold
  refine h (List.mem_filterMap.2 ⟨role, mem_voiceRoles role, ?_⟩)
  have hne : new role ≠ old role := fun hsame => hold (hsame ▸ hnew)
  rwa [if_neg hne]

end Refs

/-! ### The invariant -/

/-- What a transaction has looked up is valid. It has looked up, or will, what it writes, and
    the tenants that use the provider it deletes. -/
def CallSound (db : Db) (call : Call) : Prop :=
  (∀ ref ∈ call.pending, db.Valid ref) ∧
    match call.request, call.pc with
    | .createAgent _ _, .validating _ looked remaining => ∀ role, role ∈ looked ∨ role ∈ remaining
    | .updateAgent agentId _, .validating tenantId looked remaining =>
      (∀ role, role ∈ looked ∨ role ∈ remaining) ∧
        ∃ agent, db.agents.get? agentId = some agent ∧ agent.tenantId = tenantId
    | .softDelete providerId, .replacing role remaining chosen =>
      ∃ provider, db.providers.get? providerId = some provider ∧ provider.role.voice? = role ∧
        ∀ r, role = some r → ∀ tenantId tenant, db.tenants.get? tenantId = some tenant →
          tenant.deleted = false → tenant.defaultConfigId r = some providerId →
          tenantId ∈ remaining ∨ tenantId ∈ chosen.map Prod.fst
    | _, _ => True

structure Inv (s : State) : Prop where
  sound : Sound s.db
  calls : ∀ call ∈ s.calls, CallSound s.db call

/-- Rows stay, of the same tenants, and providers keep their roles. -/
structure Evolves (db db' : Db) : Prop where
  providers : ∀ providerId provider, db.providers.get? providerId = some provider →
    ∃ provider', db'.providers.get? providerId = some provider' ∧ provider'.role = provider.role
  agents : ∀ agentId agent, db.agents.get? agentId = some agent →
    ∃ agent', db'.agents.get? agentId = some agent' ∧ agent'.tenantId = agent.tenantId

section Calls

variable {db db' : Db} {s s' : State} {i : ℕ} {call : Call}

/-- A transaction does not mind another, if that keeps what it has looked up, and makes no new
    reference to what it deletes. -/
theorem CallSound.evolve (h : CallSound db call) (hevolves : Evolves db db')
    (hvalid : ∀ ref ∈ call.pending, db.Valid ref → db'.Valid ref)
    (htenants : ∀ providerId, call.locks = some providerId → ∀ role tenantId tenant',
      db'.tenants.get? tenantId = some tenant' → tenant'.deleted = false →
      tenant'.defaultConfigId role = some providerId →
      ∃ tenant, db.tenants.get? tenantId = some tenant ∧ tenant.deleted = false ∧
        tenant.defaultConfigId role = some providerId) : CallSound db' call := by
  obtain ⟨request, pc⟩ := call
  obtain ⟨hpending, hrest⟩ := h
  refine ⟨fun ref href => hvalid ref href (hpending ref href), ?_⟩
  cases request with
  | createAgent => cases pc <;> exact hrest
  | updateTenant => cases pc <;> trivial
  | updateAgent agentId fields =>
    cases pc with
    | validating tenantId looked remaining =>
      obtain ⟨hcovers, agent, hagent, htenant⟩ := hrest
      obtain ⟨agent', hagent', hsame⟩ := hevolves.agents agentId agent hagent
      exact ⟨hcovers, agent', hagent', hsame.trans htenant⟩
    | _ => trivial
  | softDelete providerId =>
    cases pc with
    | replacing role remaining chosen =>
      obtain ⟨provider, hprovider, hrole, hfound⟩ := hrest
      obtain ⟨provider', hprovider', hsame⟩ := hevolves.providers providerId provider hprovider
      refine ⟨provider', hprovider', by rw [hsame, hrole], ?_⟩
      intro r hr tenantId tenant' htenant' hlive' hdefault'
      obtain ⟨tenant, htenant, hlive, hdefault⟩ :=
        htenants providerId rfl r tenantId tenant' htenant' hlive' hdefault'
      exact hfound r hr tenantId tenant htenant hlive hdefault
    | _ => trivial

theorem callSound_done (request : Request) : CallSound db ⟨request, .done⟩ := by
  cases request <;> exact ⟨by simp [Call.pending], trivial⟩

theorem Inv.goto (h : Inv s) {pc : Pc} (hcall : CallSound s.db { call with pc := pc }) :
    Inv (s.goto i call pc) := by
  refine ⟨h.sound, fun other hother => ?_⟩
  rcases List.mem_or_eq_of_mem_set hother with hother | rfl
  · exact h.calls other hother
  · exact hcall

theorem Inv.finish (h : Inv s) : Inv (s.goto i call .done) := h.goto (callSound_done _)

/-- A write of references waits, fails or is committed. -/
theorem Inv.writeRefs (h : Inv s) {ids : List ℕ} (hst : s.writeRefs i call ids db = some s')
    (hsound : Sound db)
    (hcalls : (∀ other ∈ s.calls, ∀ configId ∈ ids, other.locks ≠ some configId) →
      ∀ other ∈ s.calls, CallSound db other) : Inv s' := by
  rw [State.writeRefs] at hst
  split_ifs at hst with hlocked
  · obtain rfl := Option.some.inj hst
    exact h.finish
  · obtain rfl := Option.some.inj hst
    have hfree : ∀ other ∈ s.calls, ∀ configId ∈ ids, other.locks ≠ some configId := by
      simpa using hlocked
    refine ⟨hsound, fun other hother => ?_⟩
    rcases List.mem_or_eq_of_mem_set hother with hother | rfl
    · exact hcalls hfree other hother
    · exact callSound_done _

/-- A field is looked up. -/
theorem validate_pending {configIds : ConfigIds} {tenantId : ℕ} {looked : List VoiceRole}
    {role : VoiceRole} (hpending : ∀ ref ∈ configIds.refs tenantId looked, db.Valid ref)
    (hvalidates : (configIds.refs tenantId [role]).all db.validates)
    (hdeleted : ∀ ref ∈ configIds.refs tenantId [role], db.NotDeleted ref.configId) :
    ∀ ref ∈ configIds.refs tenantId (looked ++ [role]), db.Valid ref := by
  intro ref href
  rw [mem_refs, List.mem_append] at href
  obtain ⟨hrole | hrole, hid, htenant⟩ := href
  · exact hpending ref (mem_refs.2 ⟨hrole, hid, htenant⟩)
  · have hnew : ref ∈ configIds.refs tenantId [role] := mem_refs.2 ⟨hrole, hid, htenant⟩
    exact valid_of_validates (List.all_eq_true.1 hvalidates ref hnew) (hdeleted ref hnew)

theorem covers_append {looked remaining : List VoiceRole} {role : VoiceRole}
    (h : ∀ r, r ∈ looked ∨ r ∈ role :: remaining) (r : VoiceRole) :
    r ∈ looked ++ [role] ∨ r ∈ remaining := by
  rcases h r with hr | hr
  · exact .inl (List.mem_append_left _ hr)
  · rcases List.mem_cons.1 hr with rfl | hr
    · exact .inl (List.mem_append_right _ (List.mem_singleton_self _))
    · exact .inr hr

/-- Other transactions do not mind a write of agents, -/
theorem CallSound.setAgent (h : CallSound db call) {agentId : ℕ} {agent : Agent}
    (hsame : ∀ old, db.agents.get? agentId = some old → agent.tenantId = old.tenantId) :
    CallSound { db with agents := db.agents.set agentId agent } call := by
  refine h.evolve ⟨fun _ provider hprovider => ⟨provider, hprovider, rfl⟩, ?_⟩
    (fun _ _ hvalid => hvalid) fun _ _ _ _ tenant htenant hlive hdefault =>
      ⟨tenant, htenant, hlive, hdefault⟩
  intro agentId' old hold
  by_cases hid : agentId' = agentId
  · exact ⟨agent, by rw [Dict.get?_set, if_pos hid], hsame old (hid ▸ hold)⟩
  · exact ⟨old, by rwa [Dict.get?_set, if_neg hid], rfl⟩

/-- or of tenants, if there is no new reference to a provider that is being deleted. -/
theorem CallSound.setTenant (h : CallSound db call) {tenantId : ℕ} {tenant : Tenant}
    (hnew : ∀ providerId, call.locks = some providerId → ∀ role, tenant.deleted = false →
      tenant.defaultConfigId role = some providerId →
      ∃ old, db.tenants.get? tenantId = some old ∧ old.deleted = false ∧
        old.defaultConfigId role = some providerId) :
    CallSound { db with tenants := db.tenants.set tenantId tenant } call := by
  refine h.evolve ⟨fun _ provider hprovider => ⟨provider, hprovider, rfl⟩,
    fun _ agent hagent => ⟨agent, hagent, rfl⟩⟩ (fun _ _ hvalid => hvalid) ?_
  intro providerId hlocks role tenantId' tenant' htenant' hlive hdefault
  rw [Dict.get?_set] at htenant'
  split_ifs at htenant' with hid
  · obtain rfl := Option.some.inj htenant'
    exact hid ▸ hnew providerId hlocks role hlive hdefault
  · exact ⟨tenant', htenant', hlive, hdefault⟩

theorem Sound.setAgent (h : Sound db) {agentId : ℕ} {agent : Agent}
    (hagent : agent.deleted = false →
      ∀ ref ∈ agent.configId.refs agent.tenantId voiceRoles, db.Valid ref) :
    Sound { db with agents := db.agents.set agentId agent } where
  agents agentId' agent' hagent' hlive := by
    rw [Dict.get?_set] at hagent'
    split_ifs at hagent'
    · obtain rfl := Option.some.inj hagent'
      exact hagent hlive
    · exact h.agents agentId' agent' hagent' hlive
  tenants := h.tenants

theorem Sound.setTenant (h : Sound db) {tenantId : ℕ} {tenant : Tenant}
    (htenant : tenant.deleted = false →
      ∀ ref ∈ tenant.defaultConfigId.refs tenantId voiceRoles, db.Valid ref) :
    Sound { db with tenants := db.tenants.set tenantId tenant } where
  agents := h.agents
  tenants tenantId' tenant' htenant' hlive := by
    rw [Dict.get?_set] at htenant'
    split_ifs at htenant' with hid
    · obtain rfl := Option.some.inj htenant'
      exact hid ▸ htenant hlive
    · exact h.tenants tenantId' tenant' htenant' hlive

variable {tenantId agentId providerId : ℕ} {choice : Choice} {configIds : ConfigIds}
  {fields : Fields}

theorem Inv.createAgent (h : Inv s) (hcall : call ∈ s.calls)
    (hrequest : call.request = .createAgent tenantId configIds) (hg : s.Keeps call)
    (hst : s.createAgent i call tenantId configIds choice = some s') : Inv s' := by
  obtain ⟨request, pc⟩ := call
  obtain rfl := hrequest
  obtain ⟨hpending, hcovers⟩ := h.calls _ hcall
  rw [State.createAgent] at hst
  dsimp only at hst
  split at hst
  · obtain rfl := Option.some.inj hst
    exact h.goto ⟨by simp [Call.pending], fun role => .inr (mem_voiceRoles role)⟩
  · obtain rfl := Option.some.inj hst
    rw [State.validate]
    split_ifs with hvalidates
    · exact h.goto ⟨validate_pending hpending hvalidates hg, covers_append hcovers⟩
    · exact h.finish
  · next tenantId' looked =>
    split_ifs at hst with hid
    · obtain rfl := Option.some.inj hst
      exact h.finish
    · rw [Option.not_isSome_iff_eq_none] at hid
      refine h.writeRefs hst (h.sound.setAgent fun _ ref href => ?_) fun _ other hother =>
        (h.calls other hother).setAgent fun old hold => ?_
      · obtain ⟨-, hid, htenant⟩ := mem_refs.1 href
        exact hpending ref (mem_refs.2
          ⟨(hcovers ref.role).resolve_right List.not_mem_nil, hid, htenant⟩)
      · cases hid.symm.trans hold
  · cases hst

theorem Inv.updateAgent (h : Inv s) (hcall : call ∈ s.calls)
    (hrequest : call.request = .updateAgent agentId fields) (hg : s.Keeps call)
    (hst : s.updateAgent i call agentId fields = some s') : Inv s' := by
  obtain ⟨request, pc⟩ := call
  obtain rfl := hrequest
  obtain ⟨hpending, hrest⟩ := h.calls _ hcall
  rw [State.updateAgent] at hst
  dsimp only at hst
  split at hst
  · split at hst
    · obtain rfl := Option.some.inj hst
      exact h.finish
    · next agent hagent =>
      obtain rfl := Option.some.inj hst
      exact h.goto ⟨by simp [Call.pending], fun role => .inr (mem_voiceRoles role),
        agent, hagent, rfl⟩
  · obtain ⟨hcovers, hagent⟩ := hrest
    obtain rfl := Option.some.inj hst
    rw [State.validate]
    split_ifs with hvalidates
    · exact h.goto ⟨validate_pending hpending hvalidates hg, covers_append hcovers, hagent⟩
    · exact h.finish
  · obtain ⟨hcovers, agent, hagent, rfl⟩ := hrest
    obtain ⟨agent', hagent', hst⟩ := Option.bind_eq_some_iff.1 hst
    obtain rfl := Option.some.inj (hagent.symm.trans hagent')
    refine h.writeRefs hst (h.sound.setAgent fun hlive ref href => ?_) fun _ other hother =>
      (h.calls other hother).setAgent fun old hold => ?_
    · rcases mem_refs_apply href with hnew | hold
      · obtain ⟨-, hid, htenant⟩ := mem_refs.1 hnew
        exact hpending ref (mem_refs.2
          ⟨(hcovers ref.role).resolve_right List.not_mem_nil, hid, htenant⟩)
      · exact h.sound.agents agentId agent hagent hlive ref hold
    · obtain rfl := Option.some.inj (hagent.symm.trans hold)
      rfl
  · cases hst

theorem Inv.updateTenant (h : Inv s) (hcall : call ∈ s.calls)
    (hrequest : call.request = .updateTenant tenantId fields) (hg : s.Keeps call)
    (hst : s.updateTenant i call tenantId fields = some s') : Inv s' := by
  obtain ⟨request, pc⟩ := call
  obtain rfl := hrequest
  obtain ⟨hpending, -⟩ := h.calls _ hcall
  rw [State.updateTenant] at hst
  dsimp only at hst
  split at hst
  · split_ifs at hst
    · obtain rfl := Option.some.inj hst
      exact h.goto ⟨hg, trivial⟩
    · obtain rfl := Option.some.inj hst
      exact h.finish
  · obtain ⟨tenant, htenant, hst⟩ := Option.bind_eq_some_iff.1 hst
    refine h.writeRefs hst (h.sound.setTenant fun hlive ref href => ?_) fun hfree other hother =>
      (h.calls other hother).setTenant fun providerId hlocks role hlive hdefault => ?_
    · rcases mem_refs_apply href with hnew | hold
      · exact hpending ref hnew
      · exact h.sound.tenants tenantId tenant htenant hlive ref hold
    · -- a new reference would have waited
      refine ⟨tenant, htenant, hlive, not_mem_changed (fun hmem => ?_) hdefault⟩
      exact hfree other hother providerId hmem hlocks
  · cases hst

/-! ### Deletions -/

variable {provider : Provider} {role : Option VoiceRole} {chosen : List (ℕ × Option ℕ)}

theorem valid_deleted {ref : Ref} (h : s.db.Valid ref) (hne : ref.configId ≠ providerId) :
    (s.deleted providerId provider role chosen).Valid ref := by
  have hset : Db.Valid { s.db with
      providers := s.db.providers.set providerId { provider with deleted := true } } ref :=
    h.setProvider fun _ _ hid => absurd hid hne
  exact hset

/-- The only column that refers to a provider is that of its role. -/
theorem role_of_valid {ref : Ref} (h : db.Valid ref)
    (hprovider : db.providers.get? ref.configId = some provider) :
    provider.role.voice? = some ref.role := by
  obtain ⟨provider', hprovider', -, hrole, -⟩ := h
  obtain rfl := Option.some.inj (hprovider.symm.trans hprovider')
  rw [hrole]
  rfl

theorem sound_deleted (h : Inv s) (hprovider : s.db.providers.get? providerId = some provider)
    (hrole : provider.role.voice? = role)
    (hfound : ∀ r, role = some r → ∀ tenantId tenant, s.db.tenants.get? tenantId = some tenant →
      tenant.deleted = false → tenant.defaultConfigId r = some providerId →
      tenantId ∈ chosen.map Prod.fst)
    (hchosen : ∀ r, role = some r → ∀ tenantId configId, (tenantId, some configId) ∈ chosen →
      s.db.Valid ⟨tenantId, r, configId⟩ ∧ configId ≠ providerId) :
    Sound (s.deleted providerId provider role chosen) where
  agents agentId agent' hagent' hlive ref href := by
    rw [State.deleted, Dict.get?_mapItems] at hagent'
    obtain ⟨agent, hagent, rfl⟩ := Option.map_eq_some_iff.1 hagent'
    obtain ⟨-, hid, htenant⟩ := mem_refs.1 href
    rw [State.clear] at hid
    dsimp only at hid
    split_ifs at hid with hcleared
    have hvalid := h.sound.agents agentId agent hagent hlive ref
      (mem_refs.2 ⟨mem_voiceRoles _, hid, htenant⟩)
    refine valid_deleted hvalid fun heq => hcleared ⟨?_, heq ▸ hid⟩
    rw [← hrole, role_of_valid hvalid (heq ▸ hprovider)]
  tenants tenantId tenant' htenant' hlive ref href := by
    rw [State.deleted, Dict.get?_mapItems] at htenant'
    obtain ⟨tenant, htenant, rfl⟩ := Option.map_eq_some_iff.1 htenant'
    obtain ⟨-, hid, hrefTenant⟩ := mem_refs.1 href
    rw [State.repoint] at hid hlive
    -- a reference that stays is not to the provider that is deleted
    have hstays (hid : tenant.defaultConfigId ref.role = some ref.configId)
        (hlive : tenant.deleted = false)
        (hother : role = some ref.role → tenantId ∉ chosen.map Prod.fst) :
        (s.deleted providerId provider role chosen).Valid ref := by
      have hvalid := h.sound.tenants tenantId tenant htenant hlive ref
        (mem_refs.2 ⟨mem_voiceRoles _, hid, hrefTenant⟩)
      refine valid_deleted hvalid fun heq => ?_
      have hcolumn : role = some ref.role := by
        rw [← hrole, role_of_valid hvalid (heq ▸ hprovider)]
      exact hother hcolumn (hfound ref.role hcolumn tenantId tenant htenant hlive (heq ▸ hid))
    cases hget : Dict.get? chosen tenantId with
    | none =>
      rw [hget] at hid hlive
      exact hstays hid hlive fun _ => Dict.get?_eq_none_iff.1 hget
    | some replacement =>
      rw [hget] at hid hlive
      dsimp only at hid hlive
      split_ifs at hid with hcolumn
      · obtain ⟨hvalid, hne⟩ := hchosen ref.role hcolumn tenantId ref.configId
          (hid ▸ Dict.mem_of_get?_eq_some hget)
        rw [← hrefTenant] at hvalid
        exact valid_deleted hvalid hne
      · exact hstays hid hlive fun hcolumn' => absurd hcolumn' hcolumn

theorem CallSound.deleted (h : CallSound s.db call)
    (hprovider : s.db.providers.get? providerId = some provider)
    (hpending : ∀ ref ∈ call.pending, ref.configId ≠ providerId)
    (hfree : ∀ configId ∈ s.replaced role chosen, call.locks ≠ some configId) :
    CallSound (s.deleted providerId provider role chosen) call := by
  refine h.evolve ⟨fun otherId other hother => ?_, fun agentId agent hagent => ?_⟩
    (fun ref href hvalid => valid_deleted hvalid (hpending ref href)) ?_
  · by_cases hid : otherId = providerId
    · obtain rfl := Option.some.inj ((hid ▸ hother).symm.trans hprovider)
      exact ⟨{ other with deleted := true }, by rw [State.deleted, Dict.get?_set, if_pos hid], rfl⟩
    · exact ⟨other, by rwa [State.deleted, Dict.get?_set, if_neg hid], rfl⟩
  · exact ⟨State.clear role providerId agent,
      by rw [State.deleted, Dict.get?_mapItems, hagent]; rfl, rfl⟩
  · intro otherId hlocks r tenantId tenant' htenant' hlive hdefault
    rw [State.deleted, Dict.get?_mapItems] at htenant'
    obtain ⟨tenant, htenant, rfl⟩ := Option.map_eq_some_iff.1 htenant'
    have hlive : tenant.deleted = false := by
      rw [State.repoint] at hlive
      split at hlive <;> exact hlive
    refine ⟨tenant, htenant, hlive, not_mem_changed (fun hmem => ?_) hdefault⟩
    cases hget : Dict.get? chosen tenantId with
    | none =>
      rw [State.repoint, hget] at hmem
      exact absurd hmem (by simp [changed])
    | some replacement =>
      -- the other deletion would have been waited for
      have hmem : otherId ∈ s.replaced role chosen :=
        List.mem_flatMap.2 ⟨_, Dict.mem_of_get?_eq_some hget, by rwa [htenant]⟩
      exact hfree otherId hmem hlocks

theorem Inv.softDelete (h : Inv s) (hcall : call ∈ s.calls)
    (hrequest : call.request = .softDelete providerId) (hg : s.Keeps call)
    (hst : s.softDelete i call providerId choice = some s') : Inv s' := by
  obtain ⟨request, pc⟩ := call
  obtain rfl := hrequest
  obtain ⟨hpending, hrest⟩ := h.calls _ hcall
  rw [State.softDelete] at hst
  dsimp only at hst
  split at hst
  · split_ifs at hst
    · obtain rfl := Option.some.inj hst
      exact h.goto ⟨by simp [Call.pending], trivial⟩
    · obtain rfl := Option.some.inj hst
      exact h.finish
  · obtain ⟨provider, hprovider, rfl⟩ := Option.map_eq_some_iff.1 hst
    refine h.goto ⟨?_, provider, hprovider, rfl,
      fun r hr tenantId tenant htenant hlive hdefault => ?_⟩
    · cases hrole : provider.role.voice? <;> simp [Call.pending]
    · refine .inl ?_
      rw [hr, Option.elim_some, State.tenantsUsing]
      exact List.mem_map.2 ⟨_, List.mem_filter.2
        ⟨Dict.mem_of_get?_eq_some htenant, by simp [hlive, hdefault]⟩, rfl⟩
  · next role tenantId remaining chosen =>
    split_ifs at hst with hchoose
    obtain rfl := Option.some.inj hst
    obtain ⟨provider, hprovider, hrole, hfound⟩ := hrest
    refine h.goto ⟨fun ref href => ?_, provider, hprovider, hrole,
      fun r hr tenantId' tenant htenant hlive hdefault => ?_⟩
    · obtain ⟨e, he, href⟩ := List.mem_filterMap.1 href
      rcases List.mem_append.1 he with he | he
      · exact hpending ref (List.mem_filterMap.2 ⟨e, he, href⟩)
      · obtain rfl := List.mem_singleton.1 he
        obtain ⟨configId, hconfig, rfl⟩ := Option.map_eq_some_iff.1 href
        rw [show choice.replacement = some configId from hconfig] at hchoose
        obtain ⟨candidate, hcandidate, hvalid⟩ := (Option.any_eq_true _ _).1 hchoose
        simp only [State.isCandidate, Bool.and_eq_true, decide_eq_true_eq,
          Bool.not_eq_true'] at hvalid
        exact ⟨candidate, hcandidate, hvalid.1.1.1, hvalid.1.1.2, hvalid.1.2⟩
    · rw [List.map_append, List.mem_append]
      rcases hfound r hr tenantId' tenant htenant hlive hdefault with hmem | hmem
      · rcases List.mem_cons.1 hmem with rfl | hmem
        · exact .inr (.inr (List.mem_singleton_self _))
        · exact .inl hmem
      · exact .inr (.inl hmem)
  · next role chosen =>
    obtain ⟨provider, hprovider, hrole, hfound⟩ := hrest
    obtain ⟨provider', hprovider', hst⟩ := Option.bind_eq_some_iff.1 hst
    obtain rfl := Option.some.inj (hprovider.symm.trans hprovider')
    refine h.writeRefs hst (sound_deleted h hprovider hrole ?_ ?_) fun hfree other hother =>
      (h.calls other hother).deleted hprovider (hg other hother) (hfree other hother)
    · intro r hr tenantId tenant htenant hlive hdefault
      exact (hfound r hr tenantId tenant htenant hlive hdefault).resolve_left List.not_mem_nil
    · rintro r rfl tenantId configId hmem
      have href : (⟨tenantId, r, configId⟩ : Ref) ∈
          Call.pending ⟨.softDelete providerId, .replacing (some r) [] chosen⟩ :=
        List.mem_filterMap.2 ⟨_, hmem, rfl⟩
      exact ⟨hpending _ href, hg _ hcall _ href⟩
  · cases hst

/-! ### Runs -/

theorem Inv.advance (h : Inv s) (hcall : call ∈ s.calls) (hg : s.Keeps call)
    (hst : s.advance i call choice = some s') : Inv s' := by
  rw [State.advance] at hst
  split at hst
  · next hrequest => exact h.createAgent hcall hrequest hg hst
  · next hrequest => exact h.updateAgent hcall hrequest hg hst
  · next hrequest => exact h.updateTenant hcall hrequest hg hst
  · next hrequest => exact h.softDelete hcall hrequest hg hst

/-- A provider that is created or updated. -/
theorem Inv.setProvider (h : Inv s)
    (hsame : ∀ old, s.db.providers.get? providerId = some old →
      provider.tenantId = old.tenantId ∧ provider.role = old.role ∧
        provider.deleted = old.deleted) :
    Inv { s with db := { s.db with providers := s.db.providers.set providerId provider } } := by
  have hvalid : ∀ ref, s.db.Valid ref →
      Db.Valid { s.db with providers := s.db.providers.set providerId provider } ref :=
    fun ref href => href.setProvider fun old hold _ => hsame old hold
  refine ⟨⟨fun agentId agent hagent hlive ref href => ?_,
    fun tenantId tenant htenant hlive ref href => ?_⟩, fun call hcall => ?_⟩
  · exact hvalid ref (h.sound.agents agentId agent hagent hlive ref href)
  · exact hvalid ref (h.sound.tenants tenantId tenant htenant hlive ref href)
  · refine (h.calls call hcall).evolve ⟨fun otherId other hother => ?_,
      fun _ agent hagent => ⟨agent, hagent, rfl⟩⟩ (fun ref _ => hvalid ref)
      fun _ _ _ _ tenant htenant hlive hdefault => ⟨tenant, htenant, hlive, hdefault⟩
    by_cases hid : otherId = providerId
    · exact ⟨provider, by rw [Dict.get?_set, if_pos hid], (hsame other (hid ▸ hother)).2.1⟩
    · exact ⟨other, by rwa [Dict.get?_set, if_neg hid], rfl⟩

theorem Inv.step {l : Label} (h : Inv s) (hg : KeepsProviders s l) (hst : s.step l = some s') :
    Inv s' := by
  cases l with
  | call request =>
    obtain rfl := Option.some.inj hst
    refine ⟨h.sound, fun call hcall => ?_⟩
    rcases List.mem_append.1 hcall with hcall | hcall
    · exact h.calls call hcall
    · obtain rfl := List.mem_singleton.1 hcall
      cases request <;> exact ⟨by simp [Call.pending], trivial⟩
  | advance i choice =>
    obtain ⟨call, hcall, hst⟩ := Option.bind_eq_some_iff.1 hst
    exact h.advance (List.mem_of_getElem? hcall) (hg call hcall) hst
  | fail i =>
    obtain ⟨call, -, rfl⟩ := Option.map_eq_some_iff.1 hst
    exact h.finish
  | createProvider providerId provider =>
    rw [State.step] at hst
    split_ifs at hst with hnew
    obtain rfl := Option.some.inj hst
    obtain ⟨hnew, -⟩ := not_or.1 hnew
    rw [Option.not_isSome_iff_eq_none] at hnew
    exact h.setProvider fun old hold => by cases hnew.symm.trans hold
  | updateProvider providerId engine voice =>
    obtain ⟨provider, hprovider, rfl⟩ := Option.map_eq_some_iff.1 hst
    refine h.setProvider fun old hold => ?_
    obtain rfl := Option.some.inj (hprovider.symm.trans hold)
    exact ⟨rfl, rfl, rfl⟩
  | createTenant tenantId =>
    rw [State.step] at hst
    split_ifs at hst with hnew
    obtain rfl := Option.some.inj hst
    exact ⟨h.sound.setTenant (fun _ ref href => by simp at href), fun call hcall =>
      (h.calls call hcall).setTenant fun _ _ _ _ hdefault => by cases hdefault⟩
  | deleteTenant tenantId =>
    obtain ⟨tenant, htenant, rfl⟩ := Option.map_eq_some_iff.1 hst
    exact ⟨h.sound.setTenant (fun hlive => by cases hlive), fun call hcall =>
      (h.calls call hcall).setTenant fun _ _ _ hlive => by cases hlive⟩
  | deleteAgent agentId =>
    obtain ⟨agent, hagent, rfl⟩ := Option.map_eq_some_iff.1 hst
    refine ⟨h.sound.setAgent (fun hlive => by cases hlive), fun call hcall =>
      (h.calls call hcall).setAgent fun old hold => ?_⟩
    obtain rfl := Option.some.inj (hagent.symm.trans hold)
    rfl

/-- Where references are sound, no call is lost for a provider that is gone or another's. -/
theorem Sound.notLost (h : Sound db) : db.NotLost := by
  intro agentId agent tenant hagent hlive htenant htenantLive hset
  have hprovider : ∀ role, ∃ provider,
      (do let configId ← (agent.configId role).or (tenant.defaultConfigId role)
          (db.providers.get? configId).filter fun provider => !provider.deleted) = some provider ∧
        provider.role = .voice role ∧ provider.tenantId = agent.tenantId := by
    intro role
    obtain ⟨configId, hid⟩ := Option.isSome_iff_exists.1 (hset role)
    have hvalid : db.Valid ⟨agent.tenantId, role, configId⟩ := by
      rcases Option.or_eq_some_iff.1 hid with hown | ⟨-, hdefault⟩
      · exact h.agents agentId agent hagent hlive _ (mem_refs.2 ⟨mem_voiceRoles role, hown, rfl⟩)
      · exact h.tenants agent.tenantId tenant htenant htenantLive _
          (mem_refs.2 ⟨mem_voiceRoles role, hdefault, rfl⟩)
    obtain ⟨provider, hget, hown, hrole, hdeleted⟩ := hvalid
    refine ⟨provider, ?_, hrole, hown⟩
    rw [hid]
    simp [hget, hdeleted]
  choose provider hfound hrole hown using hprovider
  refine ⟨voiceRoles.map provider, ?_, ?_, ?_⟩
  · simp only [Db.runtimeProviders, voiceRoles, List.mapM_cons, List.mapM_nil, hfound]
    rfl
  · rw [List.map_map]
    exact List.map_congr_left fun role _ => hrole role
  · intro p hp
    obtain ⟨role, -, rfl⟩ := List.mem_map.1 hp
    exact hown role

end Calls

theorem sound_of_keepsProviders {s : State} (hs : system.ReachableIf KeepsProviders s) :
    Sound s.db ∧ s.db.NotLost := by
  have hinv : Inv s := hs.invariant ⟨⟨fun _ _ h => by simp [system, Dict.get?] at h,
    fun _ _ h => by simp [system, Dict.get?] at h⟩, by simp [system]⟩
    fun _ _ _ h hg hst => h.step hg hst
  exact ⟨hinv.sound, hinv.sound.notLost⟩

def ollama : Provider := ⟨1, .voice .llm, "ollama", none, false⟩

def onlyLlm (configId : ℕ) : ConfigIds := fun role => if role = .llm then some configId else none

/-- Agent 5 of tenant 1 is given provider 10. -/
def assignment (i : ℕ) : List Label := List.replicate 4 (.advance i ⟨5, none⟩)

/-- Provider 10 is the default and that of an agent, and is then deleted. Provider 11 replaces
    it. -/
theorem sound_of_replacement : ∃ s, system.ReachableIf KeepsProviders s ∧
    ((s.db.tenants.get? 1).map fun tenant => tenant.defaultConfigId .llm) = some (some 11) ∧
    ((s.db.agents.get? 5).map fun agent => agent.configId .llm) = some none ∧
    Sound s.db ∧ s.db.NotLost := by
  have hrun : (system.execIf KeepsProviders system.init
      (([.createTenant 1, .createProvider 10 ollama, .createProvider 11 ollama,
        .call (.updateTenant 1 fun role => (onlyLlm 10 role).map some),
        .advance 0 ⟨0, none⟩, .advance 0 ⟨0, none⟩, .call (.createAgent 1 (onlyLlm 10))] :
          List Label) ++ assignment 1 ++
        ([.advance 1 ⟨5, none⟩, .call (.softDelete 10), .advance 2 ⟨0, none⟩,
          .advance 2 ⟨0, none⟩, .advance 2 ⟨0, some 11⟩, .advance 2 ⟨0, none⟩] :
            List Label))).map
      (fun s => ((s.db.tenants.get? 1).map fun tenant => tenant.defaultConfigId .llm,
        (s.db.agents.get? 5).map fun agent => agent.configId .llm)) =
      some (some (some 11), some none) := by
    decide
  obtain ⟨s, hs, hresult⟩ := Option.map_eq_some_iff.1 hrun
  obtain ⟨hdefault, hown⟩ := Prod.mk.injEq .. ▸ hresult
  have hreach := System.ReachableIf.init.execIf hs
  exact ⟨s, hreach, hdefault, hown, sound_of_keepsProviders hreach⟩

/-- The provider is deleted after it is looked up for an agent, which then refers to it. -/
theorem not_sound : ¬ ∀ s, system.Reachable s → Sound s.db := by
  intro h
  have hrun : (system.exec system.init
      (([.createTenant 1, .createProvider 10 ollama, .call (.createAgent 1 (onlyLlm 10))] :
          List Label) ++ assignment 0 ++
        ([.call (.softDelete 10), .advance 1 ⟨0, none⟩, .advance 1 ⟨0, none⟩,
          .advance 1 ⟨0, none⟩, .advance 0 ⟨5, none⟩] : List Label))).map
      (fun s => ((s.db.agents.get? 5).map fun agent => (agent.deleted, agent.configId .llm),
        (s.db.providers.get? 10).map Provider.deleted)) =
      some (some (false, some 10), some true) := by
    decide
  obtain ⟨s, hs, hresult⟩ := Option.map_eq_some_iff.1 hrun
  obtain ⟨hagent, hprovider⟩ := Prod.mk.injEq .. ▸ hresult
  obtain ⟨agent, hagent, hrow⟩ := Option.map_eq_some_iff.1 hagent
  obtain ⟨hlive, hid⟩ := Prod.mk.injEq .. ▸ hrow
  obtain ⟨provider, hget, -, -, hdeleted⟩ := (h s (System.Reachable.exec .init hs)).agents 5 agent
    hagent hlive ⟨agent.tenantId, .llm, 10⟩ (mem_refs.2 ⟨mem_voiceRoles _, hid, rfl⟩)
  rw [hget, Option.map_some, hdeleted] at hprovider
  cases hprovider

end Yuviz.Config.ProviderAssignments
