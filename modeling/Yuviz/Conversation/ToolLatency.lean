import Mathlib.Algebra.BigOperators.Group.List.Basic
import Mathlib.Algebra.Order.Ring.Rat
import Yuviz.Python.OrderedDict
import Yuviz.Python.Str

/-!
# Latencies of tools

How long the calls of a tool have taken lately, so that the agent can say something
fitting while it waits. The samples of a tenant are kept apart from those of the
others; tenants, tools and samples are bounded in number, and the ones that are used
least recently are the first to go. Samples grow old: they are dropped when they are
read, and a tenant that has only old ones by a sweep now and then.
-/

namespace Yuviz.Conversation

open Python

/-- When a call has ended, and how many milliseconds it has taken. -/
structure Sample where
  time : ℚ
  ms : ℚ
  deriving DecidableEq

/-- The agent and the tool. -/
abbrev AgentToolKey := String × String

structure ToolLatencyStore where
  tenants : Dict String (Dict AgentToolKey (List Sample)) := []
  recordCount : ℕ := 0

namespace ToolLatencyStore

/-- Samples retained for a key. -/
def window : ℕ := 50
def minSamples : ℕ := 3
def maxAge : ℚ := 900
def maxKeysPerTenant : ℕ := 200
def sweepEvery : ℕ := 64
def sweepScan : ℕ := 32
def maxTenants : ℕ := 2000

def IsBlank (s : String) : Prop := stripStr s = ""

instance (s : String) : Decidable (IsBlank s) := inferInstanceAs (Decidable (_ = _))

def isReclaimable (tenantMap : Dict AgentToolKey (List Sample)) (cutoff : ℚ) : Bool :=
  tenantMap.all fun e => e.2.getLast?.all fun x => x.time < cutoff

/-- What the sweep does with one tenant. -/
def sweepTenant (cutoff : ℚ) (tenants : Dict String (Dict AgentToolKey (List Sample)))
    (tenantId : String) : Dict String (Dict AgentToolKey (List Sample)) :=
  match tenants.get? tenantId with
  | none => tenants
  | some tenantMap =>
    if isReclaimable tenantMap cutoff then tenants.del tenantId else tenants.moveToEnd tenantId

def sweep (s : ToolLatencyStore) (now : ℚ) : ToolLatencyStore :=
  let scanned := (s.tenants.take sweepScan).map Prod.fst
  { s with tenants := scanned.foldl (sweepTenant (now - maxAge)) s.tenants }

/-- The tenants, with one that is new at the end, where all are not too many. -/
def admitTenant (s : ToolLatencyStore) (tenantId : String) :
    Dict String (Dict AgentToolKey (List Sample)) :=
  match s.tenants.get? tenantId with
  | none => (s.tenants.set tenantId []).evictFirst maxTenants
  | some _ => s.tenants

/-- The keys of a tenant with one more sample, before they are too many. -/
def addSample (tenantMap : Dict AgentToolKey (List Sample)) (key : AgentToolKey) (x : Sample) :
    Dict AgentToolKey (List Sample) :=
  let samples := (tenantMap.get? key).getD []
  (tenantMap.set key ((samples ++ [x]).rtake window)).moveToEnd key

/-- `record`. The clock is read for the sample, and again by a sweep; a number of milliseconds
    that is not finite is no number here. -/
def record (s : ToolLatencyStore) (tenantId agentId toolName : String) (elapsedMs : Option ℚ)
    (now sweepNow : ℚ) : ToolLatencyStore :=
  if IsBlank tenantId ∨ IsBlank agentId then s
  else
    match elapsedMs with
    | none => s
    | some ms =>
      if ms ≤ 0 then s
      else
        let tenants := (s.admitTenant tenantId).moveToEnd tenantId
        let tenantMap := (tenants.get? tenantId).getD []
        let tenantMap := (addSample tenantMap (agentId, toolName) ⟨now, ms⟩).evictFirst
          maxKeysPerTenant
        let s : ToolLatencyStore :=
          { tenants := tenants.set tenantId tenantMap, recordCount := s.recordCount + 1 }
        if s.recordCount % sweepEvery = 0 then s.sweep sweepNow else s

/-- The mean of the samples, if they are not too few. -/
def meanOf (samples : List Sample) : Option ℚ :=
  if samples.length < minSamples then none
  else some ((samples.map Sample.ms).sum / samples.length)

def averageMs (s : ToolLatencyStore) (tenantId agentId toolName : String) (now : ℚ) :
    Option ℚ × ToolLatencyStore :=
  if IsBlank tenantId ∨ IsBlank agentId then (none, s)
  else
    match s.tenants.get? tenantId with
    | none => (none, s)
    | some tenantMap =>
      let s := { s with tenants := s.tenants.moveToEnd tenantId }
      let key := (agentId, toolName)
      match tenantMap.get? key with
      | none => (none, s)
      | some samples =>
        let tenantMap := tenantMap.moveToEnd key
        let samples := samples.dropWhile fun x => !decide (now - maxAge ≤ x.time)
        if samples = [] then
          let tenantMap := tenantMap.del key
          (none, { s with tenants :=
            if tenantMap = [] then s.tenants.del tenantId else s.tenants.set tenantId tenantMap })
        else
          (meanOf samples, { s with tenants := s.tenants.set tenantId (tenantMap.set key samples) })

end ToolLatencyStore

/-! ### Calls -/

inductive LatencyOperation
  | record (elapsedMs : Option ℚ)
  | averageMs
  deriving DecidableEq

/-- A call, with the readings of the clock in it. -/
structure LatencyCall where
  operation : LatencyOperation
  tenantId : String
  agentId : String
  toolName : String
  now : ℚ
  sweepNow : ℚ

namespace LatencyCall

def key (c : LatencyCall) : AgentToolKey := (c.agentId, c.toolName)

def run (c : LatencyCall) (s : ToolLatencyStore) : ToolLatencyStore :=
  match c.operation with
  | .record elapsedMs => s.record c.tenantId c.agentId c.toolName elapsedMs c.now c.sweepNow
  | .averageMs => (s.averageMs c.tenantId c.agentId c.toolName c.now).2

/-- The store after the calls, the latest of which is the first. -/
def runs : List LatencyCall → ToolLatencyStore
  | [] => {}
  | c :: calls => c.run (runs calls)

/-- The clock does not go back. -/
def Ordered (calls : List LatencyCall) : Prop :=
  calls.Pairwise (fun c c' => c'.sweepNow ≤ c.now) ∧ ∀ c ∈ calls, c.now ≤ c.sweepNow

/-- The sample that the call records. -/
def sample? (c : LatencyCall) : Option Sample :=
  match c.operation with
  | .record (some ms) =>
    if ToolLatencyStore.IsBlank c.tenantId ∨ ToolLatencyStore.IsBlank c.agentId ∨ ms ≤ 0 then none
    else some ⟨c.now, ms⟩
  | _ => none

/-- The samples of a key, in the order they have been recorded. -/
def recorded (tenantId : String) (key : AgentToolKey) : List LatencyCall → List Sample
  | [] => []
  | c :: calls => recorded tenantId key calls ++
      if c.tenantId = tenantId ∧ c.key = key then c.sample?.toList else []

/-- The tenant that goes, because they are too many. -/
def evictedTenant (c : LatencyCall) (s : ToolLatencyStore) : Option String :=
  if c.sample?.isSome ∧ s.tenants.get? c.tenantId = none then
    (s.tenants.set c.tenantId []).evicted ToolLatencyStore.maxTenants
  else none

/-- The key of the tenant that goes, because its keys are too many. -/
def evictedKey (c : LatencyCall) (s : ToolLatencyStore) : Option AgentToolKey :=
  c.sample?.bind fun x => (ToolLatencyStore.addSample ((s.tenants.get? c.tenantId).getD []) c.key
    x).evicted ToolLatencyStore.maxKeysPerTenant

/-- No call has made the tenant go. -/
def KeepsTenant (tenantId : String) : List LatencyCall → Prop
  | [] => True
  | c :: calls => c.evictedTenant (runs calls) ≠ some tenantId ∧ KeepsTenant tenantId calls

/-- No call has made the key of the tenant go. -/
def KeepsKey (tenantId : String) (key : AgentToolKey) : List LatencyCall → Prop
  | [] => True
  | c :: calls => ¬ (c.tenantId = tenantId ∧ c.evictedKey (runs calls) = some key) ∧
      KeepsKey tenantId key calls

end LatencyCall

end Yuviz.Conversation
