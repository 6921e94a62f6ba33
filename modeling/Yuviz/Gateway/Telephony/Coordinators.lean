import Mathlib.Data.Nat.Notation
import Mathlib.Logic.Function.Basic
import Yuviz.System

/-!
# The transfer coordinators

The two strategies to transfer a call: the warm coordinator calls an agent and
bridges the customer to it, the cold one sends the customer away. Both run on
two threads: the control thread of the session calls `start`, `cancel` and
`shutdown`, and the thread of the ESL events resolves the watches registered
with a correlator, running their handlers.

A method is given by its *program points*: a step from one to the next takes a
lock (of a correlator, or of the ESL client, for a command and its reply), calls
back the session, or accesses the fields of the coordinator. `Coordinators` is
the system of the two threads, each at a point of a method or idle.

* The callbacks of an attempt are told apart by its number.
* The replies of the ESL server, and the order of its events, are arbitrary.
* `media_owner_` and `transfer_id_` are written, and only read for the log.
-/

namespace Yuviz.Gateway

inductive CoordinatorState
  | idle
  | active
  | completed
  deriving DecidableEq, Repr

inductive MediaOwnership
  | gateway
  | bridgePending
  | freeSwitch
  deriving DecidableEq, Repr

/-- The type of a transfer, each with a coordinator of its own. -/
inductive TransferType
  | warm
  | cold
  deriving DecidableEq, Repr

/-- What a coordinator needs to start an attempt. -/
structure TransferCoordinatorContext where
  callId : String
  destination : String
  reason : String
  transferId : String
  callerId : String
  waitingExperience : String
  deriving DecidableEq, Repr

/-- A command of the ESL client. -/
inductive EslCommand
  | hold (uuid : String)
  | unhold (uuid : String)
  | originateAsync (destination callerId : String)
  | stopAudioFork (uuid : String)
  | bridge (uuidA uuidB : String)
  | hangup (uuid reason : String)
  | transfer (callId destination reason transferId : String)
  deriving DecidableEq, Repr

/-- The outcome of a command: a text, or an error. -/
abbrev EslReply := Except String String

instance : DecidableEq EslReply
  | .ok a, .ok b => decidable_of_iff (a = b) (by simp)
  | .error a, .error b => decidable_of_iff (a = b) (by simp)
  | .ok _, .error _ => isFalse (by simp)
  | .error _, .ok _ => isFalse (by simp)

/-- What a coordinator does outside its own fields and the correlators: a
    command and its reply, or a callback of an attempt. -/
inductive CoordinatorAction
  | esl (command : EslCommand) (reply : EslReply)
  | onMediaHandoff (attempt : ℕ)
  | onTransferCompleted (attempt : ℕ) (success : Bool) (destination detail : String)
  deriving DecidableEq, Repr

/-- The watches of a correlator, by uuid, each with what its handler captures. -/
structure TransferCorrelator (H : Type) where
  pending : String → Option H := fun _ => none

namespace TransferCorrelator

variable {H : Type}

def watch (uuid : String) (handler : H) (c : TransferCorrelator H) : TransferCorrelator H :=
  ⟨Function.update c.pending uuid (some handler)⟩

def cancel (uuid : String) (c : TransferCorrelator H) : TransferCorrelator H :=
  ⟨Function.update c.pending uuid none⟩

end TransferCorrelator

/-- The fields of the warm coordinator. -/
structure WarmTransferCoordinator where
  state : CoordinatorState := .idle
  mediaOwner : MediaOwnership := .gateway
  customerUuid : String := ""
  jobUuid : String := ""
  agentUuid : String := ""
  destination : String := ""
  transferId : String := ""
  callerId : String := ""
  waitingExperience : String := ""
  callbacks : Option ℕ := none
  deriving DecidableEq, Repr

/-- The fields of the cold coordinator. -/
structure ColdTransferCoordinator where
  state : CoordinatorState := .idle
  activeCallId : String := ""
  callbacks : Option ℕ := none
  deriving DecidableEq, Repr

/-- The coordinators of a session and the correlators they share: the legs, on
    which the cold one watches the customer, and the jobs of the warm one. -/
structure Telephony where
  warm : WarmTransferCoordinator := {}
  cold : ColdTransferCoordinator := {}
  legs : TransferCorrelator String := {}
  jobs : TransferCorrelator Unit := {}

/-! ## The warm coordinator -/

namespace WarmTransferCoordinator

/-- The points of the methods of the warm coordinator, in their order. -/
inductive Pc
  | startHold
  | startOriginate
  | startWatch
  | originateFailed (result : String)
  | agentAnswered (result : String)
  | answeredUnhold
  | answeredHandoff
  | answeredStopFork
  | answeredBridge
  | bridgeFailed (error : String)
  | cancelHangup
  | cancelUnhold
  | finish (success : Bool) (destination detail : String)
  | finishJob (success : Bool) (destination detail : String)
  | finishLeg (success : Bool) (destination detail : String)
  | finishCallback (success : Bool) (destination detail : String)
  | shutdownJob
  | shutdownLeg
  | shutdownState
  deriving DecidableEq, Repr

/-- `start`, up to its first command. -/
def start (ctx : TransferCoordinatorContext) (attempt : ℕ) (t : Telephony) : Telephony × Pc :=
  ({ t with
      warm := {
        state := .active
        mediaOwner := .gateway
        customerUuid := ctx.callId
        destination := ctx.destination
        transferId := ctx.transferId
        callerId := ctx.callerId
        waitingExperience := ctx.waitingExperience
        agentUuid := ""
        jobUuid := ""
        callbacks := some attempt } },
    if ctx.waitingExperience ≠ "announcement_silence" then .startHold else .startOriginate)

/-- `on_job_resolved`, the handler of a job. -/
def onJobResolved (success : Bool) (result : String) : Pc :=
  if !success then .originateFailed result else .agentAnswered result

def cancel (t : Telephony) : Option Pc :=
  if t.warm.state ≠ .active then none else some .cancelHangup

def shutdown (t : Telephony) : Option Pc :=
  if t.warm.state = .idle then none else some .shutdownJob

/-- Cancels the watch of the job, if there is one. -/
def cancelJob (t : Telephony) : Telephony :=
  if t.warm.jobUuid ≠ "" then { t with jobs := t.jobs.cancel t.warm.jobUuid } else t

/-- Cancels the watch of the leg of the agent, if there is one. -/
def cancelLeg (t : Telephony) : Telephony :=
  if t.warm.agentUuid ≠ "" then { t with legs := t.legs.cancel t.warm.agentUuid } else t

/-- The step from a program point, a command being answered by `reply`. -/
def step (pc : Pc) (reply : EslReply) (t : Telephony) :
    Telephony × List CoordinatorAction × Option Pc :=
  let w := t.warm
  match pc with
  | .startHold => (t, [.esl (.hold w.customerUuid) reply], some .startOriginate)
  | .startOriginate =>
    let act := CoordinatorAction.esl (.originateAsync w.destination w.callerId) reply
    match reply with
    | .ok job =>
      -- A reply without a job uuid is a rejection.
      if job = "" then (t, [act], some (.finish false w.destination ""))
      else ({ t with warm.jobUuid := job }, [act], some .startWatch)
    | .error error => (t, [act], some (.finish false w.destination error))
  | .startWatch => ({ t with jobs := t.jobs.watch w.jobUuid () }, [], none)
  | .originateFailed result =>
    (t, [.esl (.unhold w.customerUuid) reply],
      some (.finish false w.destination (if result = "" then "no_answer" else result)))
  | .agentAnswered result => ({ t with warm.agentUuid := result }, [], some .answeredUnhold)
  | .answeredUnhold => (t, [.esl (.unhold w.customerUuid) reply], some .answeredHandoff)
  | .answeredHandoff =>
    ({ t with warm.mediaOwner := .bridgePending },
      w.callbacks.toList.map .onMediaHandoff, some .answeredStopFork)
  | .answeredStopFork => (t, [.esl (.stopAudioFork w.customerUuid) reply], some .answeredBridge)
  | .answeredBridge =>
    let act := CoordinatorAction.esl (.bridge w.customerUuid w.agentUuid) reply
    match reply with
    | .ok _ =>
      ({ t with warm.mediaOwner := .freeSwitch }, [act], some (.finish true w.destination "bridged"))
    | .error error => (t, [act], some (.bridgeFailed error))
  | .bridgeFailed error =>
    (t, [.esl (.hangup w.agentUuid "bridge_failed") reply],
      some (.finish false w.destination ("bridge_failed:" ++ error)))
  | .cancelHangup =>
    (t, if w.agentUuid ≠ "" then [.esl (.hangup w.agentUuid "transfer_cancelled") reply] else [],
      some .cancelUnhold)
  | .cancelUnhold =>
    (t, [.esl (.unhold w.customerUuid) reply], some (.finish false w.destination "cancelled"))
  | .finish success destination detail =>
    ({ t with warm.state := .completed }, [], some (.finishJob success destination detail))
  | .finishJob success destination detail =>
    (cancelJob t, [], some (.finishLeg success destination detail))
  | .finishLeg success destination detail =>
    (cancelLeg t, [], some (.finishCallback success destination detail))
  | .finishCallback success destination detail =>
    (t, w.callbacks.toList.map fun a => .onTransferCompleted a success destination detail, none)
  | .shutdownJob => (cancelJob t, [], some .shutdownLeg)
  | .shutdownLeg => (cancelLeg t, [], some .shutdownState)
  | .shutdownState => ({ t with warm.state := .completed }, [], none)

section

variable (t : Telephony)

@[simp] theorem cancelJob_warm : (cancelJob t).warm = t.warm := by unfold cancelJob; split <;> rfl
@[simp] theorem cancelJob_cold : (cancelJob t).cold = t.cold := by unfold cancelJob; split <;> rfl
@[simp] theorem cancelJob_legs : (cancelJob t).legs = t.legs := by unfold cancelJob; split <;> rfl
@[simp] theorem cancelLeg_warm : (cancelLeg t).warm = t.warm := by unfold cancelLeg; split <;> rfl
@[simp] theorem cancelLeg_cold : (cancelLeg t).cold = t.cold := by unfold cancelLeg; split <;> rfl
@[simp] theorem cancelLeg_jobs : (cancelLeg t).jobs = t.jobs := by unfold cancelLeg; split <;> rfl

end

end WarmTransferCoordinator

/-! ## The cold coordinator -/

namespace ColdTransferCoordinator

/-- The points of the methods of the cold coordinator, in their order. -/
inductive Pc
  | startWatch (ctx : TransferCoordinatorContext)
  | startTransfer (ctx : TransferCoordinatorContext)
  | acceptedHandoff
  | rejectedCancel (ctx : TransferCoordinatorContext) (error : String)
  | rejectedState (ctx : TransferCoordinatorContext) (error : String)
  | rejectedCallback (ctx : TransferCoordinatorContext) (error : String)
  | resolvedState (success : Bool) (destination detail : String)
  | resolvedCallback (success : Bool) (destination detail : String)
  | shutdownLeg
  | shutdownState
  deriving DecidableEq, Repr

/-- `start`, up to its watch: the watch comes before the command, whose reply
    may be overtaken by the event. -/
def start (ctx : TransferCoordinatorContext) (attempt : ℕ) (t : Telephony) : Telephony × Pc :=
  ({ t with cold := { state := .active, activeCallId := ctx.callId, callbacks := some attempt } },
    .startWatch ctx)

/-- There is nothing to abort. -/
def cancel (_ : Telephony) : Option Pc := none

def shutdown (t : Telephony) : Option Pc :=
  if t.cold.state = .idle then none else some .shutdownLeg

/-- The step from a program point, a command being answered by `reply`. -/
def step (pc : Pc) (reply : EslReply) (t : Telephony) :
    Telephony × List CoordinatorAction × Option Pc :=
  let c := t.cold
  match pc with
  | .startWatch ctx =>
    ({ t with legs := t.legs.watch ctx.callId ctx.destination }, [], some (.startTransfer ctx))
  | .startTransfer ctx =>
    let act := CoordinatorAction.esl
      (.transfer ctx.callId ctx.destination ctx.reason ctx.transferId) reply
    match reply with
    | .ok _ => (t, [act], some .acceptedHandoff)
    | .error error => (t, [act], some (.rejectedCancel ctx error))
  | .acceptedHandoff => (t, c.callbacks.toList.map .onMediaHandoff, none)
  | .rejectedCancel ctx error =>
    ({ t with legs := t.legs.cancel ctx.callId }, [], some (.rejectedState ctx error))
  | .rejectedState ctx error =>
    ({ t with cold.state := .completed }, [], some (.rejectedCallback ctx error))
  | .rejectedCallback ctx error =>
    (t, c.callbacks.toList.map fun a => .onTransferCompleted a false ctx.destination error, none)
  | .resolvedState success destination detail =>
    ({ t with cold.state := .completed }, [], some (.resolvedCallback success destination detail))
  | .resolvedCallback success destination detail =>
    (t, c.callbacks.toList.map fun a => .onTransferCompleted a success destination detail, none)
  | .shutdownLeg => ({ t with legs := t.legs.cancel c.activeCallId }, [], some .shutdownState)
  | .shutdownState => ({ t with cold.state := .completed }, [], none)

end ColdTransferCoordinator

/-! ## The events -/

/-- An event of the ESL server. -/
inductive EslEvent
  | backgroundJob (jobUuid result : String)
  | channelBridge (uuid : String)
  | channelAnswer (uuid : String)
  | channelHangup (uuid : String)
  deriving DecidableEq, Repr

/-- The result of a job is a success: not empty, nor an error. -/
def jobSucceeded (result : String) : Bool := result ≠ "" && !"-ERR".isPrefixOf result

/-- A point of a method of either coordinator. -/
inductive Pc
  | warm (pc : WarmTransferCoordinator.Pc)
  | cold (pc : ColdTransferCoordinator.Pc)
  deriving DecidableEq, Repr

/-- The coordinator a point belongs to. -/
def Pc.type : Pc → TransferType
  | .warm _ => .warm
  | .cold _ => .cold

/-- The step from a program point. -/
def Pc.step (pc : Pc) (reply : EslReply) (t : Telephony) :
    Telephony × List CoordinatorAction × Option Pc :=
  match pc with
  | .warm pc => (WarmTransferCoordinator.step pc reply t).map id (.map id (.map .warm))
  | .cold pc => (ColdTransferCoordinator.step pc reply t).map id (.map id (.map .cold))

/-- `resolve`: the handler an event takes out of its correlator. -/
def resolve (t : Telephony) : EslEvent → Option (Telephony × Pc)
  | .backgroundJob uuid result =>
    (t.jobs.pending uuid).map fun _ =>
      ({ t with jobs := t.jobs.cancel uuid },
        .warm (WarmTransferCoordinator.onJobResolved (jobSucceeded result) result))
  | .channelBridge uuid => leg uuid true "bridged"
  | .channelAnswer uuid => leg uuid true "answered"
  | .channelHangup uuid => leg uuid false "hangup_before_bridge"
where
  leg (uuid : String) (success : Bool) (detail : String) : Option (Telephony × Pc) :=
    (t.legs.pending uuid).map fun destination =>
      ({ t with legs := t.legs.cancel uuid }, .cold (.resolvedState success destination detail))

/-! ## The two threads -/

/-- What is recorded of a run. -/
inductive Entry
  /-- An attempt was started for the leg `callId` of the customer. -/
  | started (type : TransferType) (attempt : ℕ) (callId : String)
  /-- `shutdown` was called, in the state `state`. -/
  | shutdown (type : TransferType) (state : CoordinatorState)
  /-- `shutdown` has returned. -/
  | shutDown (type : TransferType)
  /-- The agent called by the job has answered. -/
  | answered (jobUuid agent : String)
  | acted (type : TransferType) (action : CoordinatorAction)
  deriving DecidableEq, Repr

/-- The coordinators with the two threads, each at a point of a method or idle. -/
structure Coordinators where
  tel : Telephony := {}
  control : Option Pc := none
  esl : Option Pc := none
  attempts : ℕ := 0
  log : List Entry := []

namespace Coordinators

/-- A step calls a method on the control thread, receives an event on the ESL
    thread, or takes either thread to its next point. -/
inductive Label
  | start (type : TransferType) (ctx : TransferCoordinatorContext)
  | cancel (type : TransferType)
  | shutdown (type : TransferType)
  | control (reply : EslReply)
  | event (e : EslEvent)
  | esl (reply : EslReply)
  deriving DecidableEq, Repr

/-- The call of `start`. -/
def start (s : Coordinators) (type : TransferType) (ctx : TransferCoordinatorContext) :
    Coordinators :=
  let (tel, pc) := match type with
    | .warm => (WarmTransferCoordinator.start ctx s.attempts s.tel).map id Pc.warm
    | .cold => (ColdTransferCoordinator.start ctx s.attempts s.tel).map id Pc.cold
  { s with
    tel := tel
    control := some pc
    attempts := s.attempts + 1
    log := s.log ++ [.started type s.attempts ctx.callId] }

/-- The call of `cancel`. -/
def cancel (s : Coordinators) : TransferType → Coordinators
  | .warm => { s with control := (WarmTransferCoordinator.cancel s.tel).map .warm }
  | .cold => { s with control := (ColdTransferCoordinator.cancel s.tel).map .cold }

/-- The state of a coordinator. -/
def state (s : Coordinators) : TransferType → CoordinatorState
  | .warm => s.tel.warm.state
  | .cold => s.tel.cold.state

/-- The call of `shutdown`, which returns at once in an idle coordinator. -/
def shutdown (s : Coordinators) (type : TransferType) : Coordinators :=
  let pc := match type with
    | .warm => (WarmTransferCoordinator.shutdown s.tel).map Pc.warm
    | .cold => (ColdTransferCoordinator.shutdown s.tel).map Pc.cold
  { s with
    control := pc
    log := s.log ++ .shutdown type (s.state type) :: if pc = none then [.shutDown type] else [] }

/-- The return from the last point of `shutdown`. -/
def returned : Pc → List Entry
  | .warm .shutdownState => [.shutDown .warm]
  | .cold .shutdownState => [.shutDown .cold]
  | _ => []

/-- The agent whose answer an event reports, if any. -/
def answered : EslEvent → List Entry
  | .backgroundJob uuid result => if jobSucceeded result then [.answered uuid result] else []
  | _ => []

/-- The step of a thread from the point `pc`, on the coordinators and the log. -/
def advance (s : Coordinators) (pc : Pc) (reply : EslReply) : Coordinators :=
  { s with
    tel := (pc.step reply s.tel).1
    log := s.log ++ (pc.step reply s.tel).2.1.map (.acted pc.type) ++ returned pc }

def step (s : Coordinators) : Label → Option Coordinators
  | .start type ctx => if s.control = none then some (s.start type ctx) else none
  | .cancel type => if s.control = none then some (s.cancel type) else none
  | .shutdown type => if s.control = none then some (s.shutdown type) else none
  | .control reply =>
    s.control.map fun pc => { s.advance pc reply with control := (pc.step reply s.tel).2.2 }
  | .event e =>
    if s.esl = none then
      let s := { s with log := s.log ++ answered e }
      some <| match resolve s.tel e with
        | some (tel, pc) => { s with tel := tel, esl := some pc }
        | none => s
    else none
  | .esl reply => s.esl.map fun pc => { s.advance pc reply with esl := (pc.step reply s.tel).2.2 }

def system : System Coordinators Label where
  init := {}
  step := step

end Coordinators

end Yuviz.Gateway
