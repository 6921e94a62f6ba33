import Yuviz.Gateway.CallFSM.Closing
import Yuviz.Gateway.Timer.TimerService

/-!
# The timers of a session that is destroyed

`SessionTimers` is a session with the timer service: the control thread runs the items
of the queue, and the handlers of the machine schedule and cancel timers, one section
under the mutex of the service being one step. The service is that of the other
sessions too: any of its steps may be taken at any time (`Label.service`), and the
callback of a timer of this session posts to the queue.

The destructor pushes the item that closes the machine and cancels the timers, raises
the flag that stops the control thread, and returns after it has joined it. The steps of
the destructor before that one do not touch timers, nor do those after the join.

A timer that the loop has popped is not to be cancelled any more. In the runs where the
loop holds none of the session's when the destructor returns, no callback is run after
it, and every timer that is left is cancelled (`released`).
-/

namespace Yuviz.Gateway

open CallFSM (Event)

def toTimerType : FsmTimerType → TimerType
  | .connectionTimeout => .connectionTimeout
  | .noSpeechTimeout => .noSpeechTimeout
  | .maxUtteranceTimeout => .maxUtteranceTimeout
  | .sttTimeout => .sttTimeout
  | .llmTimeout => .llmTimeout
  | .ttsTimeout => .ttsTimeout
  | .playbackTimeout => .playbackTimeout
  | .goodbyeTimeout => .goodbyeTimeout
  | .goodbyeConfirm => .goodbyeConfirm
  | .bargeInWindow => .bargeInWindow
  | .transferTimeout => .transferTimeout
  | .finalizingTimeout => .finalizingTimeout
  | .closeTimeout => .closeTimeout
  | .rtpInactivity => .rtpInactivity

namespace SessionTimers

/-- An item of the control queue. -/
inductive Item
  /-- It calls these triggers of the machine. -/
  | run (events : List Event)
  /-- That of the destructor. -/
  | final
  deriving DecidableEq

def Item.events : Item → List Event
  | run events => events
  | final => []

/-- What is left of an item: the handlers that a trigger calls, the triggers after it, and
    whether the timers are cancelled at the end. -/
structure Work where
  calls : List HandlerCall := []
  events : List Event := []
  sweeps : Bool := false
  deriving DecidableEq

/-- Where the control thread is. -/
inductive Control
  | waiting
  | working (w : Work)
  /-- `schedule` has the id of the timer, and is about to push it. -/
  | pushing (fid : FsmTimerId) (timer : TimerService.Entry) (w : Work)
  /-- `schedule` has returned the id. -/
  | storing (fid : FsmTimerId) (id : BitVec 64) (w : Work)
  /-- The timers that are left to be cancelled. -/
  | sweeping (ids : List (BitVec 64))
  | stopped
  deriving DecidableEq

namespace Control

def work : Control → Work
  | working w | pushing _ _ w | storing _ _ w => w
  | sweeping _ => { sweeps := true }
  | waiting | stopped => {}

/-- The timer it is about to push. -/
def timer : Control → Option TimerService.Entry
  | pushing _ timer _ => some timer
  | _ => none

/-- The key that it is about to put into the map. -/
def key : Control → Option FsmTimerId
  | pushing fid _ _ | storing fid _ _ => some fid
  | _ => none

end Control

/-- How far the destructor is. -/
inductive Destructor
  | pending
  /-- It has raised `control_stopping_`, and joins the control thread. -/
  | joining
  | returned
  deriving DecidableEq

end SessionTimers

open SessionTimers (Item Control Destructor)

structure SessionTimers where
  timers : TimerService
  sessionId : String
  fsm : CallFSM
  nextFsmTimerId : FsmTimerId
  timerMap : List (FsmTimerId × BitVec 64)
  controlQueue : List Item
  control : Control
  /-- The constructor has posted `on_session_start`. -/
  started : Bool
  destructor : Destructor
  /-- The types that the callbacks of the session's timers hold, by ticket. -/
  callbacks : List (ℕ × FsmTimerType)
  /-- A callback has posted to the session after its destructor had returned. -/
  misused : Bool

/-- The entry that a call of `schedule` makes. -/
def TimerService.entry (s : TimerService) (type : TimerType) (sessionId : String) (delay : ℤ) :
    TimerService.Entry :=
  ⟨s.tickets, s.now + delay, s.nextId, type, sessionId⟩

namespace SessionTimers

inductive Label
  /-- A step of the timer service that is none of the control thread's. -/
  | service (l : TimerService.Label)
  | post (events : List Event)
  | start
  | destroy
  /-- A step of the control thread. It cancels the `i`-th of the timers left. -/
  | control (i : ℕ)
  /-- The control thread is joined, and the destructor returns. -/
  | finish

variable (cfg : CallFsmTimerConfig) (s : SessionTimers)

/-- The timer is one of the session's. -/
def Owns (timer : TimerService.Entry) : Prop := timer.ticket ∈ s.callbacks.map Prod.fst

instance (timer : TimerService.Entry) : Decidable (s.Owns timer) :=
  inferInstanceAs (Decidable (_ ∈ _))

def post (item : Item) : SessionTimers := { s with controlQueue := s.controlQueue ++ [item] }

/-- `h.schedule_timer`, up to the push. -/
def scheduleTimer (type : FsmTimerType) (delay : ℤ) (w : Work) : SessionTimers :=
  { s with
    timers := s.timers.schedule (toTimerType type) s.sessionId delay
    nextFsmTimerId := s.nextFsmTimerId + 1
    callbacks := s.callbacks ++ [(s.timers.tickets, type)]
    control := .pushing s.nextFsmTimerId (s.timers.entry (toTimerType type) s.sessionId delay) w }

/-- `h.cancel_timer`. -/
def cancelTimer (fid : FsmTimerId) : SessionTimers :=
  match s.timerMap.lookup fid with
  | some id =>
    { s with
      timers := s.timers.cancel id
      timerMap := s.timerMap.filter (·.1 ≠ fid) }
  | none => s

/-- The handlers that do not call the timer service are left out. -/
def handle (c : HandlerCall) (w : Work) : SessionTimers :=
  match c with
  | .scheduleTimer _ type delay _ => s.scheduleTimer type delay w
  | .cancelTimer fid => { s.cancelTimer fid with control := .working w }
  | _ => { s with control := .working w }

/-- The item of the destructor, up to the cancellations. -/
def finalWork : Work where
  events := if s.fsm.isTerminal then [] else [.trigger (.sessionClose "session_destroyed")]
  sweeps := true

def controlLoop (i : ℕ) : Option SessionTimers :=
  match s.control with
  | .waiting =>
    match s.controlQueue with
    | [] =>
      if s.destructor = .pending then none
      else some { s with control := .stopped }
    | .run events :: rest =>
      some { s with controlQueue := rest, control := .working { events := events } }
    | .final :: rest => some { s with controlQueue := rest, control := .working s.finalWork }
  | .working ⟨c :: calls, events, sweeps⟩ => some (s.handle c ⟨calls, events, sweeps⟩)
  | .working ⟨[], e :: events, sweeps⟩ =>
    let x := e.run cfg ⟨s.fsm, s.nextFsmTimerId, []⟩
    some { s with fsm := x.fsm, control := .working ⟨x.calls, events, sweeps⟩ }
  | .working ⟨[], [], true⟩ => some { s with control := .sweeping (s.timerMap.map Prod.snd) }
  | .working ⟨[], [], false⟩ => some { s with control := .waiting }
  | .pushing fid timer w =>
    (s.timers.push (s.timers.scheduling.idxOf timer)).map fun timers =>
      { s with timers := timers, control := .storing fid timer.id w }
  | .storing fid id w =>
    some
      { s with
        timerMap := (fid, id) :: s.timerMap.filter (·.1 ≠ fid)
        control := .working w }
  | .sweeping [] => some { s with timerMap := [], control := .waiting }
  | .sweeping ids => (ids[i]?).map fun id =>
    { s with timers := s.timers.cancel id, control := .sweeping (ids.eraseIdx i) }
  | .stopped => none

/-- The timer that the step pushes. -/
def pushed : TimerService.Label → Option TimerService.Entry
  | .push i => s.timers.scheduling[i]?
  | _ => none

/-- The type of the timer of this session whose callback the step runs. -/
def called : TimerService.Label → Option FsmTimerType
  | .loop _ => s.timers.worker.timer.bind fun timer => s.callbacks.lookup timer.ticket
  | _ => none

/-- The control thread pushes the timers of the session itself. -/
def service (l : TimerService.Label) : Option SessionTimers :=
  if ∃ timer ∈ s.pushed l, s.Owns timer then none
  else (s.timers.step l).map fun timers =>
    match s.called l with
    | some type =>
      { s.post (.run [.timerFired type]) with
        timers := timers
        misused := s.misused || s.destructor = .returned }
    | none => { s with timers := timers }

def step : Label → Option SessionTimers
  | .service l => s.service l
  | .post events =>
    if s.destructor = .returned then none
    else some (s.post (.run events))
  | .start =>
    if s.started then none
    else some { s.post (.run [.trigger .sessionStart]) with started := true }
  | .destroy =>
    if s.started = true ∧ s.destructor = .pending then
      some { s.post .final with destructor := .joining }
    else none
  | .control i => s.controlLoop cfg i
  | .finish =>
    if s.destructor = .joining ∧ s.control = .stopped then
      some { s with destructor := .returned }
    else none

def system (sessionId : String) (now : ℤ) : System SessionTimers Label where
  init := ⟨(TimerService.system now).init, sessionId, {}, 1, [], [], .waiting, false, .pending, [],
    false⟩
  step := step cfg

/-! ## What is left of the timers -/

/-- No callback has posted to a session that was destroyed, and when it is, its timers that are
    left are cancelled. -/
structure Released : Prop where
  unused : s.misused = false
  heap : s.destructor = .returned → ∀ timer ∈ s.timers.heap, s.Owns timer →
    timer.id ∈ s.timers.cancelled
  scheduling : s.destructor = .returned → ∀ timer ∈ s.timers.scheduling, ¬ s.Owns timer

/-- The step schedules a timer. -/
def schedules : Label → Bool
  | .service (.schedule ..) => true
  | .control _ =>
    match s.control with
    | .working ⟨.scheduleTimer .. :: _, _, _⟩ => true
    | _ => false
  | _ => false

/-- When the destructor returns, the loop does not hold a timer of the session that it has
    popped. And an id that is given to a timer is not used by another. -/
def Unpopped (l : Label) : Prop :=
  (s.schedules l = true → s.timers.FreshId) ∧
    match l with
    | .finish => ∀ timer ∈ s.timers.worker.timer, ¬ s.Owns timer
    | _ => True

instance : DecidablePred s.Unpopped
  | .finish => inferInstanceAs (Decidable (_ ∧ ∀ timer ∈ s.timers.worker.timer, ¬ s.Owns timer))
  | .service _ | .post _ | .start | .destroy | .control _ =>
    inferInstanceAs (Decidable (_ ∧ True))

end SessionTimers

end Yuviz.Gateway
