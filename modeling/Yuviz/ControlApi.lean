import Mathlib.Data.List.Sort
import Mathlib.Logic.Function.Basic
import Yuviz.Campaigns.CampaignContacts
import Yuviz.Config.ProviderConfigs
import Yuviz.Conversation.Tools.Providers.CalCom
import Yuviz.Infix
import Yuviz.Table

/-!
# The control API

The routes of the phone numbers, the providers of tools, the tools of agents, and
the campaigns with their contacts and do-not-call lists
(`services/config/routers`, `services/campaigns/routers`): what each checks, what
it then does to the tables, and how it answers.

A row belongs to the tenant in its `tenant_id`; the policies of an agent and the
contacts of a campaign are kept with their row. A handler makes its checks in
turn, and the first that fails is the answer. What the database draws (an id, a
time) is left out of the answers.
-/

namespace Yuviz.ControlApi

open Python
open Config (CurrentUser Failure)

variable [Runtime] [Config.ProviderConfigs.Fernet]

/-! ### The tables -/

inductive Entity
  | tenant
  | agent
  | carrier
  | phoneNumber
  | toolProvider
  | campaign
  | dncNumber
  deriving DecidableEq

/-- The id in a path or in a body, which may be a text that is no UUID. -/
inductive Ref
  | malformed (text : String)
  | uuid (id : String)
  deriving DecidableEq

def Ref.uuid? : Ref → Option String
  | .malformed _ => none
  | .uuid id => some id

/-- The columns of a row that refer to others, but for its tenant. -/
inductive LinkColumn
  | agentId
  | fallbackAgentId
  | carrierId
  deriving DecidableEq

def linkColumns : List LinkColumn := [.agentId, .fallbackAgentId, .carrierId]

def LinkColumn.target : LinkColumn → Entity
  | .agentId | .fallbackAgentId => .agent
  | .carrierId => .carrier

/-- A row of `agent_tool_policies`. -/
structure Policy where
  toolProviderConfigId : String
  columns : Dict String Json := []

/-- A row of `campaign_contacts`. -/
structure QueuedContact where
  phoneNumber : String
  name : Option String
  status : String := "pending"

structure Row where
  /-- A tenant has none. -/
  tenantId : String := ""
  columns : Dict String Json := []
  links : LinkColumn → Option String := fun _ => none
  deleted : Bool := false
  /-- The policies of an agent, by the names of the tools. -/
  policies : Dict String Policy := []
  /-- The contacts of a campaign. -/
  contacts : List QueuedContact := []

abbrev Db := Entity → Table String Row

namespace Db

variable (db : Db)

def set (e : Entity) (id : String) (row : Row) : Db := Function.update db e ((db e).set id row)

def erase (e : Entity) (id : String) : Db := Function.update db e ((db e).erase id)

/-- The row is there and not deleted. -/
def live (e : Entity) (id : String) : Bool := ((db e).get? id).any fun row => !row.deleted

end Db

/-- Where the ids of new rows come from. -/
structure Ids where
  next : Db → Entity → String
  next_fresh : ∀ (db : Db) (e : Entity), (db e).get? (next db e) = none

/-- A column that holds a text. -/
def Row.text (row : Row) (column : String) : String :=
  match row.columns.get? column with
  | some (.str s) => s
  | _ => ""

def Row.set (row : Row) (fields : Dict String Json) : Row :=
  { row with columns := fields.foldl (fun columns e => columns.set e.1 e.2) row.columns }

/-! ### Answers -/

/-- A row, without what is kept with it. -/
structure Record where
  tenantId : String
  columns : Dict String Json
  links : LinkColumn → Option String

def Row.record (row : Row) : Record := ⟨row.tenantId, row.columns, row.links⟩

/-- A policy, joined with its provider. -/
structure PolicyView where
  toolName : String
  policy : Policy
  configName : String
  configEngine : String

inductive Response
  | rows (rows : List (String × Record))
  /-- The row, with its id unless it is new. -/
  | row (status : ℕ) (id : Option String) (record : Record)
  | policies (views : List PolicyView)
  | policy (status : ℕ) (toolName : String) (policy : Policy)
  | progress (counts : List ℕ)
  | contacts (contacts : List QueuedContact)
  | uploaded (inserted skippedDnc : ℕ)
  | noContent
  /-- 404, with the entity and the id. -/
  | notFound (e : Entity) (id : String)
  | noPolicy (agentId toolName : String)
  | failed (failure : Failure)
  /-- 400: no UUID, says the router, -/
  | invalidId (e : Entity) (text : String)
  /-- and the driver of the database. -/
  | invalidInput (text : String)
  /-- 409: what is to be unique is there. -/
  | conflict
  /-- 400: a row that is referred to is not there. -/
  | missingReference
  | serverError

abbrev Handler := Db → Db × Response

/-! ### Checks -/

inductive Check
  /-- A condition on the request. -/
  | pass (x : Except Failure Unit)
  /-- `validate_id_exists`. -/
  | validate (e : Entity) (ref : Option Ref)
  /-- `get_or_404`. -/
  | getOr404 (e : Entity) (ref : Ref)

/-- The answer, if the check fails. -/
def Check.run (db : Db) : Check → Option Response
  | .pass (.ok ()) => none
  | .pass (.error failure) => some (.failed failure)
  | .validate _ none => none
  | .validate e (some (.malformed text)) => some (.invalidId e text)
  | .getOr404 _ (.malformed text) => some (.invalidInput text)
  | .validate e (some (.uuid id)) | .getOr404 e (.uuid id) =>
    if db.live e id then none else some (.notFound e id)

/-- A handler that makes the checks first. -/
def checked : List Check → Handler → Handler
  | [], handler, db => handler db
  | check :: checks, handler, db =>
    match check.run db with
    | some response => (db, response)
    | none => checked checks handler db

/-! ### What the routes do -/

def listRows (e : Entity) (tenantId : Ref) (keep : Row → Bool)
    (order : List (String × Row) → List (String × Row)) : Handler := fun db =>
  match tenantId with
  | .malformed text => (db, .invalidInput text)
  | .uuid t =>
    let rows := (db e).rows.filter fun x => x.2.tenantId = t ∧ ¬ x.2.deleted ∧ keep x.2
    (db, .rows ((order rows).map fun x => (x.1, x.2.record)))

/-- `ORDER BY`. -/
def orderBy (column : String) : List (String × Row) → List (String × Row) :=
  List.insertionSort fun x y => x.2.text column ≤ y.2.text column

def viewRow (e : Entity) (ref : Ref) (view : String → Row → Response) : Handler := fun db =>
  match ref with
  | .malformed text => (db, .invalidInput text)
  | .uuid id =>
    match (db e).get? id with
    | none => (db, .notFound e id)
    | some row => (db, if row.deleted then .notFound e id else view id row)

/-- The row is looked up, if `live` only when it is not deleted, and written. Nothing else may
    have what `conflicts` says of the old row, the new one and another. -/
def modifyRow (e : Entity) (ref : Ref) (live : Bool) (conflicts : Row → Row → Row → Bool)
    (edit : Row → Except Response Row) (answer : String → Row → Response) : Handler := fun db =>
  match ref with
  | .malformed text => (db, .invalidInput text)
  | .uuid id =>
    match (db e).get? id with
    | none => (db, .notFound e id)
    | some row =>
      if live ∧ row.deleted then (db, .notFound e id)
      else
        match edit row with
        | .error response => (db, response)
        | .ok row' =>
          if (db e).rows.any fun x => x.1 ≠ id ∧ conflicts row row' x.2 then (db, .conflict)
          else (db.set e id row', answer id row')

/-- One of the columns is set to null. -/
def nulls (columns : List String) (fields : Dict String Json) : Bool :=
  fields.any fun e => e.1 ∈ columns && e.2 matches .null

/-- An `UPDATE` of the columns; those in `notNull` are not set to null. -/
def setColumns (notNull : List String) (fields : Dict String Json)
    (links : LinkColumn → Option (Option String)) (row : Row) : Except Response Row :=
  if nulls notNull fields then .error .serverError
  else .ok { row.set fields with links := fun c => (links c).getD (row.links c) }

def answerRow (id : String) (row : Row) : Response := .row 200 (some id) row.record

def softDelete (e : Entity) (ref : Ref) : Handler :=
  modifyRow e ref false (fun _ _ _ => false) (fun row => .ok { row with deleted := true })
    fun _ _ => .noContent

/-! ### The phone numbers -/

structure PhoneNumberCreate where
  did : String
  links : LinkColumn → Option Ref := fun _ => none
  region : Option String := none
  status : String := "active"

/-- The fields that are set, perhaps to null. -/
structure PhoneNumberUpdate where
  columns : Dict String Json := []
  links : LinkColumn → Option (Option Ref) := fun _ => none

def PhoneNumberCreate.row (body : PhoneNumberCreate) (tenantId : String) : Row where
  tenantId := tenantId
  columns := [("did", .str body.did), ("status", .str body.status),
    ("region", body.region.elim .null .str)]
  links c := (body.links c).bind Ref.uuid?

variable (ids : Ids)

/-- A DID is unique among all tenants. What the row refers to has been validated. -/
def insertPhoneNumber (tenantId : Ref) (body : PhoneNumberCreate) : Handler := fun db =>
  match tenantId with
  | .malformed text => (db, .invalidInput text)
  | .uuid t =>
    if (db .phoneNumber).rows.any (·.2.text "did" = body.did) then (db, .conflict)
    else
      let row := body.row t
      (db.set .phoneNumber (ids.next db .phoneNumber) row, .row 201 none row.record)

/-- A DID that stays the same is of no other number. -/
def takesDid (old new other : Row) : Bool :=
  new.text "did" ≠ old.text "did" && other.text "did" = new.text "did"

def updatePhoneNumber (ref : Ref) (body : PhoneNumberUpdate) : Handler :=
  modifyRow .phoneNumber ref false takesDid
    (setColumns ["did", "status"] body.columns fun c => (body.links c).map (·.bind Ref.uuid?))
    answerRow

/-! ### The providers of tools -/

structure ToolProviderConfigCreate where
  name : String
  toolName : String
  engine : String
  apiKeyRef : Option String := none
  apiKey : Option String := none
  extra : Json := .null

structure ToolProviderConfigUpdate where
  /-- The fields that are set, other than those of the key. -/
  columns : Dict String Json := []
  apiKeyRef : Option (Option String) := none
  apiKey : Option (Option String) := none

def ToolProviderConfigUpdate.keyFields (body : ToolProviderConfigUpdate) :
    Config.ProviderConfigs.ProviderConfigUpdate :=
  ⟨body.apiKeyRef, body.apiKey, !body.columns.isEmpty⟩

def keyColumn (apiKeyRef : Option String) : String × Json :=
  ("api_key_ref", apiKeyRef.elim .null .str)

def insertToolProviderConfig (tenantId : Ref) (body : ToolProviderConfigCreate)
    (apiKeyRef : Option String) : Handler := fun db =>
  match tenantId with
  | .malformed text => (db, .invalidInput text)
  | .uuid t =>
    let row : Row :=
      { tenantId := t
        columns := [("name", .str body.name), ("tool_name", .str body.toolName),
          ("engine", .str body.engine), keyColumn apiKeyRef, ("extra", body.extra)] }
    (db.set .toolProvider (ids.next db .toolProvider) row, .row 201 none row.record)

def updateToolProviderConfig (ref : Ref) (body : ToolProviderConfigUpdate)
    (apiKeyRef : Option (Option String)) : Handler :=
  modifyRow .toolProvider ref false (fun _ _ _ => false)
    (setColumns ["name", "engine"] (body.columns ++ (apiKeyRef.map keyColumn).toList) fun _ => none)
    answerRow

/-! ### The tools of an agent -/

structure AgentToolPolicyCreate where
  toolName : String
  toolProviderConfigId : Ref
  columns : Dict String Json

structure AgentToolPolicyUpdate where
  /-- The fields that are set, other than `extra`, which a policy does not have. -/
  columns : Dict String Json := []
  extra : Option Json := none

/-- The message of an error of the database has one of the words that the router looks for. -/
def isUniqueText (text : String) : Bool :=
  ["unique", "duplicate"].any fun word => (cut word.toList (Runtime.lower text).toList).isSome

def Policy.view (db : Db) (toolName : String) (policy : Policy) : Option PolicyView :=
  ((db .toolProvider).get? policy.toolProviderConfigId).bind fun config =>
    if config.deleted then none
    else some ⟨toolName, policy, config.text "name", config.text "engine"⟩

/-- `list_for_agent`. -/
def listForAgent (agentId : Ref) : Handler := fun db =>
  match agentId with
  | .malformed text => (db, .invalidInput text)
  | .uuid id =>
    let policies := (((db .agent).get? id).map Row.policies).getD []
    (db, .policies (policies.filterMap fun e => e.2.view db e.1))

def insertPolicy (agentId : Ref) (body : AgentToolPolicyCreate) : Handler := fun db =>
  match agentId, body.toolProviderConfigId with
  | .malformed text, _ | .uuid _, .malformed text =>
    (db, if isUniqueText text then .conflict else .invalidInput text)
  | .uuid id, .uuid configId =>
    match (db .agent).get? id with
    | none => (db, .missingReference)
    | some agent =>
      if body.toolName ∈ agent.policies.map Prod.fst then (db, .conflict)
      else if ((db .toolProvider).get? configId).isNone then (db, .missingReference)
      else
        let policy : Policy := ⟨configId, body.columns⟩
        (db.set .agent id { agent with policies := agent.policies.set body.toolName policy },
          .policy 201 body.toolName policy)

/-- A policy is looked up and written, or erased. -/
def modifyPolicy (agentId : Ref) (toolName : String)
    (edit : Policy → Except Response (Option Policy)) (answer : Policy → Response) :
    Handler := fun db =>
  match agentId with
  | .malformed text => (db, .invalidInput text)
  | .uuid id =>
    match (db .agent).get? id with
    | none => (db, .noPolicy id toolName)
    | some agent =>
      match agent.policies.get? toolName with
      | none => (db, .noPolicy id toolName)
      | some policy =>
        match edit policy with
        | .error response => (db, response)
        | .ok none =>
          (db.set .agent id { agent with policies := agent.policies.del toolName }, .noContent)
        | .ok (some policy') =>
          (db.set .agent id { agent with policies := agent.policies.set toolName policy' },
            answer policy')

def editPolicy (fields : Dict String Json) (policy : Policy) : Except Response (Option Policy) :=
  if nulls ["enabled"] fields then .error .serverError
  else
    .ok (some { policy with
      columns := fields.foldl (fun columns e => columns.set e.1 e.2) policy.columns })

/-! ### The campaigns -/

/-- The tenant and the agent are checked by the database alone. -/
def insertCampaign (tenantId agentId : Ref) (columns : Dict String Json) : Handler := fun db =>
  match tenantId, agentId with
  | .malformed text, _ | .uuid _, .malformed text => (db, .invalidInput text)
  | .uuid t, .uuid a =>
    if ((db .tenant).get? t).isNone ∨ ((db .agent).get? a).isNone then (db, .missingReference)
    else
      let row : Row :=
        { tenantId := t
          columns := columns
          links := fun c => if c = .agentId then some a else none }
      (db.set .campaign (ids.next db .campaign) row, .row 201 none row.record)

/-- `get_progress`. -/
def progress (_ : String) (row : Row) : Response :=
  .progress (row.contacts.length :: (["pending", "calling", "completed", "failed", "no_answer",
    "blocked"].map fun status => row.contacts.countP (·.status = status)))

def contactsOf (status : Option String) (_ : String) (row : Row) : Response :=
  .contacts (row.contacts.filter fun contact => status.all (contact.status = ·))

/-- The numbers of the tenant that are not to be called. -/
def blocked (db : Db) (tenantId : String) : List (List Char) :=
  ((db .dncNumber).rows.filter (·.2.tenantId = tenantId)).map fun x =>
    Conversation.Tools.normalizePhone (x.2.text "phone_number")

def queued (contact : Campaigns.Contact) : QueuedContact where
  phoneNumber := contact.phoneNumber
  name := if contact.name = "" then none else some contact.name

/-- The campaign has been looked up. -/
def insertContacts (ref : Ref) (content : ByteArray) : Handler := fun db =>
  match ref with
  | .malformed text => (db, .invalidInput text)
  | .uuid id =>
    match (db .campaign).get? id with
    | none => (db, .missingReference)
    | some campaign =>
      match Campaigns.parseContactsCsv content with
      | .error (.csvError _) => (db, .serverError)
      | .error e => (db, .failed (.http 400 e.message))
      | .ok contacts =>
        let allowed := contacts.filter fun contact =>
          Conversation.Tools.normalizePhone contact.phoneNumber ∉ blocked db campaign.tenantId
        (db.set .campaign id { campaign with contacts := campaign.contacts ++ allowed.map queued },
          .uploaded allowed.length (contacts.length - allowed.length))

/-- `update_campaign`. The fields that are null are dropped, and if there is no other the
    campaign is looked up alone. -/
def updateCampaign (ref : Ref) (fields : Dict String Json) : Handler :=
  let fields := fields.filter fun e => !(e.2 matches .null)
  if fields.isEmpty then viewRow .campaign ref answerRow
  else
    modifyRow .campaign ref true (fun _ _ _ => false) (setColumns [] fields fun _ => none) answerRow

/-! ### The do-not-call lists -/

def addNumber (tenantId : Ref) (phoneNumber : String) (reason : Option String) :
    Handler := fun db =>
  match tenantId with
  | .malformed text => (db, .invalidInput text)
  | .uuid t =>
    let reason : String × Json := ("reason", reason.elim .null .str)
    match (db .dncNumber).rows.find? fun x =>
        x.2.tenantId = t ∧ x.2.text "phone_number" = phoneNumber with
    | some (id, row) =>
      (db.set .dncNumber id (row.set [reason]), .row 201 (some id) (row.set [reason]).record)
    | none =>
      if ((db .tenant).get? t).isNone then (db, .missingReference)
      else
        let row : Row := { tenantId := t, columns := [("phone_number", .str phoneNumber), reason] }
        (db.set .dncNumber (ids.next db .dncNumber) row, .row 201 none row.record)

def removeNumber (ref : Ref) : Handler := fun db =>
  match ref with
  | .malformed text => (db, .invalidInput text)
  | .uuid id => (db.erase .dncNumber id, .noContent)

/-! ### The routes -/

inductive Request
  | listPhoneNumbers (tenantId : Ref)
  | createPhoneNumber (tenantId : Ref) (body : PhoneNumberCreate)
  | getPhoneNumber (phoneNumberId : Ref)
  | updatePhoneNumber (phoneNumberId : Ref) (body : PhoneNumberUpdate)
  | deletePhoneNumber (phoneNumberId : Ref)
  | listToolProviderConfigs (tenantId : Ref) (toolName : Option String)
  | createToolProviderConfig (tenantId : Ref) (body : ToolProviderConfigCreate)
  | getToolProviderConfig (toolProviderConfigId : Ref)
  | updateToolProviderConfig (toolProviderConfigId : Ref) (body : ToolProviderConfigUpdate)
  | deleteToolProviderConfig (toolProviderConfigId : Ref)
  | listAgentToolPolicies (agentId : Ref)
  | createAgentToolPolicy (agentId : Ref) (body : AgentToolPolicyCreate)
  | updateAgentToolPolicy (agentId : Ref) (toolName : String) (body : AgentToolPolicyUpdate)
  | deleteAgentToolPolicy (agentId : Ref) (toolName : String)
  | listCampaigns (tenantId : Ref)
  | createCampaign (tenantId agentId : Ref) (columns : Dict String Json)
  | getCampaign (campaignId : Ref)
  | updateCampaign (campaignId : Ref) (fields : Dict String Json)
  | getProgress (campaignId : Ref)
  | listContacts (campaignId : Ref) (status : Option String)
  | uploadContacts (campaignId : Ref) (content : ByteArray)
  | startCampaign (campaignId : Ref)
  | pauseCampaign (campaignId : Ref)
  | resumeCampaign (campaignId : Ref)
  | listDncNumbers (tenantId : Ref)
  | addDncNumber (tenantId : Ref) (phoneNumber : String) (reason : Option String)
  | removeDncNumber (dncId : Ref)

/-- A 400 with the text, unless the condition holds. -/
def require (condition : Bool) (detail : String) : Check :=
  .pass (if condition then .ok () else .error (.http 400 detail))

def hasFields (condition : Bool) : Check := require condition "request body has no fields to update"

open Config.ProviderConfigs (blank resolveApiKeyInput)

/-- The checks of a route after that of the role. `n` is what is drawn at random. -/
def Request.checks (n : ℕ) : Request → List Check
  | .createPhoneNumber tenantId body =>
    .validate .tenant (some tenantId) ::
      linkColumns.map fun c => .validate c.target (body.links c)
  | .updatePhoneNumber _ body =>
    hasFields (!body.columns.isEmpty || linkColumns.any fun c => (body.links c).isSome) ::
      linkColumns.map fun c => .validate c.target (body.links c).join
  | .createToolProviderConfig tenantId body =>
    [.validate .tenant (some tenantId),
      require (!(blank body.apiKeyRef && blank body.apiKey)) "api_key_ref or api_key is required",
      .pass ((resolveApiKeyInput n body.apiKey body.apiKeyRef).map fun _ => ())]
  | .updateToolProviderConfig _ body =>
    [hasFields (!body.columns.isEmpty || body.apiKeyRef.isSome || body.apiKey.isSome),
      require (!(body.apiKeyRef.isSome && blank body.apiKeyRef.join && blank body.apiKey.join))
        "api_key_ref must not be blank",
      .pass ((body.keyFields.fold n).map fun _ => ())]
  | .createAgentToolPolicy agentId _ => [.validate .agent (some agentId)]
  | .updateAgentToolPolicy _ _ body =>
    [hasFields (!body.columns.isEmpty || body.extra.isSome),
      require body.extra.isNone
        "update_agent_tool_policy() got non-updatable field(s): \x7b'extra'\x7d"]
  | .getProgress campaignId | .listContacts campaignId _ | .uploadContacts campaignId _
  | .startCampaign campaignId | .pauseCampaign campaignId | .resumeCampaign campaignId =>
    [.getOr404 .campaign campaignId]
  | _ => []

/-- What the route does after its checks. -/
def Request.action (n : ℕ) : Request → Handler
  | .listPhoneNumbers tenantId => listRows .phoneNumber tenantId (fun _ => true) (orderBy "did")
  | .createPhoneNumber tenantId body => insertPhoneNumber ids tenantId body
  | .getPhoneNumber id => viewRow .phoneNumber id answerRow
  | .updatePhoneNumber id body => ControlApi.updatePhoneNumber id body
  | .deletePhoneNumber id => softDelete .phoneNumber id
  | .listToolProviderConfigs tenantId toolName =>
    listRows .toolProvider tenantId (fun row => toolName.all (row.text "tool_name" = ·))
      (orderBy "name")
  | .createToolProviderConfig tenantId body =>
    insertToolProviderConfig ids tenantId body
      (resolveApiKeyInput n body.apiKey body.apiKeyRef).toOption.join
  | .getToolProviderConfig id => viewRow .toolProvider id answerRow
  | .updateToolProviderConfig id body =>
    ControlApi.updateToolProviderConfig id body (body.keyFields.fold n).toOption.join
  | .deleteToolProviderConfig id => softDelete .toolProvider id
  | .listAgentToolPolicies agentId => listForAgent agentId
  | .createAgentToolPolicy agentId body => insertPolicy agentId body
  | .updateAgentToolPolicy agentId toolName body =>
    modifyPolicy agentId toolName (editPolicy body.columns) (.policy 200 toolName)
  | .deleteAgentToolPolicy agentId toolName =>
    modifyPolicy agentId toolName (fun _ => .ok none) fun _ => .noContent
  | .listCampaigns tenantId => listRows .campaign tenantId (fun _ => true) List.reverse
  | .createCampaign tenantId agentId columns => insertCampaign ids tenantId agentId columns
  | .getCampaign id => viewRow .campaign id answerRow
  | .updateCampaign id fields => ControlApi.updateCampaign id fields
  | .getProgress id => viewRow .campaign id progress
  | .listContacts id status => viewRow .campaign id (contactsOf status)
  | .uploadContacts id content => insertContacts id content
  | .startCampaign id | .resumeCampaign id =>
    ControlApi.updateCampaign id [("status", .str "running")]
  | .pauseCampaign id => ControlApi.updateCampaign id [("status", .str "paused")]
  | .listDncNumbers tenantId => listRows .dncNumber tenantId (fun _ => true) List.reverse
  | .addDncNumber tenantId phoneNumber reason => addNumber ids tenantId phoneNumber reason
  | .removeDncNumber id => removeNumber id

/-- A request that reads is for every console user, one that writes for an administrator. -/
def Request.authorize (user : CurrentUser) : Request → Except Failure Unit
  | .listPhoneNumbers _ | .getPhoneNumber _ | .listToolProviderConfigs _ _
  | .getToolProviderConfig _ | .listAgentToolPolicies _ | .listCampaigns _ | .getCampaign _
  | .getProgress _ | .listContacts _ _ | .listDncNumbers _ => Config.getCurrentUser user
  | _ => Config.requireRole [.superadmin, .admin] user

def Request.handle (n : ℕ) (user : CurrentUser) (r : Request) : Handler :=
  checked (.pass (r.authorize user) :: r.checks n) (r.action ids n)

end Yuviz.ControlApi
