import Mathlib.Order.Nat
import Yuviz.Distinct
import Yuviz.System

/-!
# The sessions of the gateway

A connection that is admitted gets a session: a task of one pool waits for the metadata
frame, looks whether the connection is open, looks up the route and the tenant, and
creates it. When the connection is closed, a task of another pool removes its session.
The system is that of any number of connections, the callbacks of the service thread,
and the two tasks of every connection, each of which takes its next step at any time.

The removal may be before the creation. And a connection is admitted by the number of
sessions, not of those that are being set up. In the runs where no session is removed
while its setup has still to create it, and where a connection that is admitted finds
room for the setups too, every session is that of a live connection (`settled`).
-/

namespace Yuviz.Gateway

/-- Where the metadata frame of a connection is met by its setup. -/
structure PendingMetadata where
  ready : Bool
  text : Option String
  deriving DecidableEq

namespace PendingMetadata

variable (p : PendingMetadata)

/-- The first of the two calls wins. -/
def fulfillWithText (msg : String) : PendingMetadata := if p.ready then p else ⟨true, some msg⟩

def fulfillWithClose : PendingMetadata := if p.ready then p else ⟨true, none⟩

end PendingMetadata

namespace Application

/-- Where the setup of a connection is. -/
inductive Setup
  /-- The connection was not admitted. -/
  | rejected
  | queued
  /-- It waits for the metadata. -/
  | waiting
  /-- It is about to look whether the connection is open. -/
  | checking (text : Option String)
  /-- It parses the metadata, and looks up the route and the tenant. -/
  | resolving (text : Option String)
  /-- The factory creates the session. -/
  | building (text : Option String)
  /-- The session is about to be put into the map. -/
  | emplacing (text : Option String)
  /-- It has thrown, and the connection is about to be closed. -/
  | failing
  | failed
  /-- The connection was not open any more. -/
  | abandoned
  | succeeded
  deriving DecidableEq

/-- It may still create a session. -/
def Setup.underway : Setup → Bool
  | queued | waiting | checking _ | resolving _ | building _ | emplacing _ => true
  | rejected | failing | failed | abandoned | succeeded => false

/-- It has found the connection open, and may still create a session. -/
def Setup.passed : Setup → Bool
  | resolving _ | building _ | emplacing _ => true
  | _ => false

def Setup.finished : Setup → Bool
  | rejected | failed | abandoned | succeeded => true
  | _ => false

/-- Where the removal of a connection's session is. -/
inductive Removal
  | none
  | queued
  /-- The session is out of the map, and is destroyed. -/
  | destroying
  | done
  deriving DecidableEq

/-- How far the library's closed callback is. -/
inductive Phase
  | live
  /-- `handle_close` has returned. -/
  | closing
  | closed
  deriving DecidableEq

structure Connection where
  sid : BitVec 64
  phase : Phase
  isOpen : Bool
  pending : PendingMetadata
  setup : Setup
  removal : Removal
  deriving DecidableEq

structure Session where
  connId : BitVec 64
  /-- The connection it holds. -/
  conn : ℕ
  metadata : Option String
  deriving DecidableEq

end Application

open Application (Connection Session Setup Removal Phase)

structure Application where
  nextSessionId : BitVec 64
  conns : List Connection
  /-- The map of the session manager. -/
  sessions : List Session

namespace Application

inductive Label
  | connect
  /-- A text frame arrives at the `i`-th connection. -/
  | text (i : ℕ) (msg : String)
  /-- The library has closed the connection: `handle_close`, and the disconnect handler. -/
  | close (i : ℕ)
  | disconnect (i : ℕ)
  /-- The session closes its connection. -/
  | sessionClose (i : ℕ)
  /-- The next step of the setup, which throws unless `ok`. -/
  | setup (i : ℕ) (ok : Bool)
  /-- The next step of the removal. -/
  | removal (i : ℕ)

/-- A step of the setup, but for the last. It need not wait longer than it likes, and it
    may throw while it resolves and builds. When it throws, its connection is closed; in the
    code this is undefined for a throw in `create`, which the pointer has been moved to. -/
def Connection.setupStep (c : Connection) (ok : Bool) : Option Connection :=
  match c.setup with
  | .queued => some { c with setup := .waiting }
  | .waiting => some { c with setup := .checking c.pending.text }
  | .checking text =>
    some { c with setup := if c.isOpen then .resolving text else .abandoned }
  | .resolving text => some { c with setup := if ok then .building text else .failing }
  | .building text => some { c with setup := if ok then .emplacing text else .failing }
  | .failing => some { c with isOpen := false, setup := .failed }
  | .emplacing _ | .rejected | .failed | .abandoned | .succeeded => none

def Connection.handleText (c : Connection) (msg : String) : Option Connection :=
  match c.phase with
  | .live =>
    some (if c.isOpen then { c with pending := c.pending.fulfillWithText msg } else c)
  | .closing | .closed => none

/-- A connection that was closed before skips its close handler. -/
def Connection.handleClose (c : Connection) : Option Connection :=
  match c.phase with
  | .live => some
    { c with
      phase := .closing
      isOpen := false
      pending := if c.isOpen then c.pending.fulfillWithClose else c.pending }
  | .closing | .closed => none

def Connection.onDisconnect (c : Connection) : Option Connection :=
  match c.phase with
  | .closing => some { c with phase := .closed, removal := .queued }
  | .live | .closed => none

def Connection.sessionClose (c : Connection) : Option Connection :=
  match c.setup with
  | .emplacing _ | .succeeded => some { c with isOpen := false }
  | _ => none

section

variable (s : Application)

def setConn (i : ℕ) (c : Connection) : Application := { s with conns := s.conns.set i c }

def update (i : ℕ) (f : Connection → Option Connection) : Option Application :=
  s.conns[i]?.bind fun c => (f c).map (s.setConn i)

/-- A connection is admitted if there are fewer sessions than `max`. -/
def connect (max : ℕ) : Application :=
  let admitted : Bool := s.sessions.length < max
  { s with
    nextSessionId := s.nextSessionId + 1
    conns := s.conns ++
      [⟨s.nextSessionId, .live, admitted, ⟨false, none⟩, if admitted then .queued else .rejected,
        .none⟩] }

/-- A key that is in the map already keeps its session. -/
def emplace (session : Session) : Application :=
  if s.sessions.any (·.connId = session.connId) then s
  else { s with sessions := s.sessions ++ [session] }

def setup (i : ℕ) (ok : Bool) : Option Application :=
  s.conns[i]?.bind fun c =>
    match c.setup with
    | .emplacing text =>
      some ((s.emplace ⟨c.sid, i, text⟩).setConn i { c with setup := .succeeded })
    | _ => (c.setupStep ok).map (s.setConn i)

def remove (i : ℕ) (c : Connection) : Application :=
  if s.sessions.any (·.connId = c.sid) then
    { s with sessions := s.sessions.eraseP (·.connId = c.sid) }.setConn i
      { c with removal := .destroying }
  else s.setConn i { c with removal := .done }

def removal (i : ℕ) : Option Application :=
  s.conns[i]?.bind fun c =>
    match c.removal with
    | .queued => some (s.remove i c)
    | .destroying => some (s.setConn i { c with removal := .done })
    | .none | .done => none

def step (max : ℕ) (s : Application) : Label → Option Application
  | .connect => some (s.connect max)
  | .text i msg => s.update i (·.handleText msg)
  | .close i => s.update i (·.handleClose)
  | .disconnect i => s.update i (·.onDisconnect)
  | .sessionClose i => s.update i (·.sessionClose)
  | .setup i ok => s.setup i ok
  | .removal i => s.removal i

end

def system (max : ℕ) : System Application Label where
  init := ⟨1, [], []⟩
  step := step max

/-! ### What is promised of the sessions -/

/-- Both pools are idle. -/
def Idle (s : Application) : Prop :=
  ∀ c ∈ s.conns, c.setup.finished ∧ (c.removal = .none ∨ c.removal = .done)

/-- The sessions of the `i`-th connection. -/
def held (s : Application) (i : ℕ) : ℕ := s.sessions.countP (·.conn = i)

structure Settled (max : ℕ) (s : Application) : Prop where
  /-- A connection that is open and whose setup succeeded has one session, -/
  one : s.Idle → ∀ i c, s.conns[i]? = some c → c.isOpen → c.setup = .succeeded → s.held i = 1
  /-- and one that has closed has none. -/
  none : s.Idle → ∀ i c, s.conns[i]? = some c → c.phase = .closed → s.held i = 0
  bounded : s.sessions.length ≤ max

/-- The setups that may still create a session. -/
def underway (s : Application) : ℕ := s.conns.countP (·.setup.underway)

/-- A connection gets an id of its own, and is admitted if there is room for the setups
    under way too. A session is not removed while its setup may still create it. -/
def Timely (max : ℕ) (s : Application) : Label → Prop
  | .connect => (∀ c ∈ s.conns, c.sid ≠ s.nextSessionId) ∧
      (s.sessions.length < max → s.sessions.length + s.underway < max)
  | .removal i => ∀ c ∈ s.conns[i]?, c.removal = .queued → !c.setup.passed
  | _ => True

instance (max : ℕ) (s : Application) : DecidablePred (Timely max s)
  | .connect => inferInstanceAs (Decidable (_ ∧ _))
  | .removal i =>
    inferInstanceAs (Decidable (∀ c ∈ s.conns[i]?, c.removal = .queued → !c.setup.passed))
  | .text _ _ | .close _ | .disconnect _ | .sessionClose _ | .setup _ _ =>
    inferInstanceAs (Decidable True)

/-! ### The invariant -/

/-- How many sessions a connection should have. -/
def Connection.due (c : Connection) : ℕ :=
  if c.setup = .succeeded ∧ (c.removal = .none ∨ c.removal = .queued) then 1 else 0

structure Connection.Sound (held : ℕ) (c : Connection) : Prop where
  held : held = c.due
  live : c.isOpen → c.phase = .live
  removal : c.removal = .none ↔ c.phase ≠ .closed
  passed : c.removal = .destroying ∨ c.removal = .done → c.setup.passed = false

structure Inv (max : ℕ) (s : Application) : Prop where
  conn : ∀ i (c : Connection), s.conns[i]? = some c → c.Sound (s.held i)
  sids : Distinct s.conns fun c => some c.sid
  session : ∀ x ∈ s.sessions, ∃ c, s.conns[x.conn]? = some c ∧ c.sid = x.connId
  bounded : s.sessions.length + s.underway ≤ max

variable {max : ℕ} {s s' : Application} {i : ℕ} {c c' : Connection}

/-- A connection changes, and the sessions of no other do. -/
theorem Inv.setConn (h : s.Inv max) (hc : s.conns[i]? = some c) (hsid : c'.sid = c.sid)
    {sessions : List Session}
    (hsound : c'.Sound (sessions.countP (·.conn = i)))
    (hother : ∀ j, j ≠ i → sessions.countP (·.conn = j) = s.held j)
    (hsession : ∀ x ∈ sessions, x ∈ s.sessions ∨ x.conn = i ∧ x.connId = c.sid)
    (hbounded : sessions.length + (s.conns.set i c').countP (·.setup.underway) ≤ max) :
    ({ s with sessions := sessions }.setConn i c').Inv max where
  conn j d hj := by
    rcases getElem?_set_eq_some hj with ⟨rfl, rfl⟩ | ⟨hne, hj⟩
    · exact hsound
    · have hheld : ({ s with sessions := sessions }.setConn i c').held j = s.held j := hother j hne
      rw [hheld]
      exact h.conn j d hj
  sids := h.sids.set hc (.of_eq (congrArg some hsid))
  session x hx := by
    have hself : (s.conns.set i c')[i]? = some c' :=
      List.getElem?_set_self (List.getElem?_eq_some_iff.1 hc).1
    rcases hsession x hx with hx | ⟨hconn, hid⟩
    · obtain ⟨d, hd, hdsid⟩ := h.session x hx
      by_cases hne : x.conn = i
      · rw [hne, hc] at hd
        obtain rfl := Option.some.inj hd
        exact ⟨c', hne ▸ hself, hsid.trans hdsid⟩
      · exact ⟨d, (List.getElem?_set_ne (Ne.symm hne)).trans hd, hdsid⟩
    · exact ⟨c', hconn ▸ hself, hsid.trans hid.symm⟩
  bounded := hbounded

/-- The setups under way are no more than before. -/
theorem countP_underway_le (hc : s.conns[i]? = some c)
    (h : c'.setup.underway → c.setup.underway) :
    (s.conns.set i c').countP (·.setup.underway) ≤ s.underway := by
  have hset := countP_set_of_eq (c := fun c : Connection => c.setup.underway) (y := c') hc
  cases hu : c'.setup.underway with
  | true => exact (hset (hu.trans (h hu).symm)).le
  | false =>
    cases hu' : c.setup.underway with
    | true =>
      have hless := countP_set_of_false (c := fun c : Connection => c.setup.underway) hc hu' hu
      rw [underway]
      omega
    | false => exact (hset (hu.trans hu'.symm)).le

/-- A connection changes, and no session does. -/
theorem Inv.update (h : s.Inv max) {f : Connection → Option Connection}
    (hst : s.update i f = some s')
    (hf : ∀ c c', f c = some c' → c.Sound (s.held i) →
      c'.sid = c.sid ∧ c'.Sound (s.held i) ∧ (c'.setup.underway → c.setup.underway)) :
    s'.Inv max := by
  obtain ⟨c, hc, hst⟩ := Option.bind_eq_some_iff.1 hst
  obtain ⟨c', hc', rfl⟩ := Option.map_eq_some_iff.1 hst
  obtain ⟨hsid, hsound, hunder⟩ := hf c c' hc' (h.conn i c hc)
  exact h.setConn hc hsid hsound (fun _ _ => rfl) (fun _ => .inl)
    ((Nat.add_le_add_left (countP_underway_le hc hunder) _).trans h.bounded)

variable {held : ℕ}

theorem Connection.Sound.handleText {msg : String} (h : c.Sound held)
    (hst : c.handleText msg = some c') :
    c'.sid = c.sid ∧ c'.Sound held ∧ (c'.setup.underway → c.setup.underway) := by
  rw [Connection.handleText] at hst
  split at hst
  · obtain rfl := Option.some.inj hst
    split_ifs
    · exact ⟨rfl, ⟨h.held, h.live, h.removal, h.passed⟩, id⟩
    · exact ⟨rfl, h, id⟩
  · cases hst
  · cases hst

theorem Connection.Sound.handleClose (h : c.Sound held) (hst : c.handleClose = some c') :
    c'.sid = c.sid ∧ c'.Sound held ∧ (c'.setup.underway → c.setup.underway) := by
  rw [Connection.handleClose] at hst
  split at hst
  · next hlive =>
    obtain rfl := Option.some.inj hst
    refine ⟨rfl, ⟨h.held, nofun, ?_, h.passed⟩, id⟩
    have hremoval : c.removal = .none := h.removal.2 (by simp [hlive])
    exact iff_of_true hremoval nofun
  · cases hst
  · cases hst

theorem Connection.Sound.onDisconnect (h : c.Sound held) (hst : c.onDisconnect = some c') :
    c'.sid = c.sid ∧ c'.Sound held ∧ (c'.setup.underway → c.setup.underway) := by
  rw [Connection.onDisconnect] at hst
  split at hst
  · next hclosing =>
    obtain rfl := Option.some.inj hst
    have hremoval : c.removal = .none := h.removal.2 (by simp [hclosing])
    refine ⟨rfl, ⟨?_, fun hopen => ?_, ?_, nofun⟩, id⟩
    · rw [h.held, Connection.due, Connection.due, hremoval]
      simp
    · cases (h.live hopen).symm.trans hclosing
    · simp
  · cases hst
  · cases hst

theorem Connection.Sound.sessionClose (h : c.Sound held) (hst : c.sessionClose = some c') :
    c'.sid = c.sid ∧ c'.Sound held ∧ (c'.setup.underway → c.setup.underway) := by
  rw [Connection.sessionClose] at hst
  split at hst
  · obtain rfl := Option.some.inj hst
    exact ⟨rfl, ⟨h.held, nofun, h.removal, h.passed⟩, id⟩
  · obtain rfl := Option.some.inj hst
    exact ⟨rfl, ⟨h.held, nofun, h.removal, h.passed⟩, id⟩
  · cases hst

/-- A connection whose setup goes on has no session, before and after. -/
theorem Connection.Sound.setSetup {setup : Setup} (h : c.Sound held)
    (hbefore : c.setup ≠ .succeeded) (hafter : setup ≠ .succeeded)
    (hpassed : c.removal = .destroying ∨ c.removal = .done → setup.passed = false) :
    { c with setup := setup }.Sound held := by
  refine ⟨?_, h.live, h.removal, hpassed⟩
  rw [h.held, Connection.due, Connection.due]
  simp [hbefore, hafter]

theorem Connection.Sound.setupStep {ok : Bool} (h : c.Sound held)
    (hst : c.setupStep ok = some c') :
    c'.sid = c.sid ∧ c'.Sound held ∧ (c'.setup.underway → c.setup.underway) := by
  have hpassed := h.passed
  rw [Connection.setupStep] at hst
  cases hsetup : c.setup with
  | queued | waiting =>
    rw [hsetup] at hst
    obtain rfl := Option.some.inj hst
    exact ⟨rfl, h.setSetup (by simp [hsetup]) nofun fun _ => rfl, fun _ => rfl⟩
  | checking text =>
    rw [hsetup] at hst
    obtain rfl := Option.some.inj hst
    refine ⟨rfl, h.setSetup (by simp [hsetup]) (by split_ifs <;> exact nofun) ?_, fun _ => rfl⟩
    intro hremoval
    split_ifs with hopen
    · -- The connection is live, and is not removed.
      have hnone : c.removal = .none := h.removal.2 (by simp [h.live hopen])
      rw [hnone] at hremoval
      rcases hremoval with hr | hr
      · cases hr
      · cases hr
    · rfl
  | resolving text | building text =>
    rw [hsetup] at hst hpassed
    obtain rfl := Option.some.inj hst
    refine ⟨rfl, h.setSetup (by simp [hsetup]) (by split_ifs <;> exact nofun) ?_, fun _ => rfl⟩
    exact fun hremoval => nomatch hpassed hremoval
  | failing =>
    rw [hsetup] at hst
    obtain rfl := Option.some.inj hst
    have h' : { c with setup := .failed }.Sound held :=
      h.setSetup (by simp [hsetup]) nofun fun _ => rfl
    exact ⟨rfl, ⟨h'.held, nofun, h'.removal, h'.passed⟩, nofun⟩
  | emplacing text | rejected | failed | abandoned | succeeded =>
    rw [hsetup] at hst
    cases hst

/-! ### The map -/

/-- The sessions under the key of a connection are those of the connection. -/
theorem Inv.connId_eq_iff (h : s.Inv max) (hc : s.conns[i]? = some c) {x : Session}
    (hx : x ∈ s.sessions) : x.connId = c.sid ↔ x.conn = i := by
  obtain ⟨d, hd, hsid⟩ := h.session x hx
  refine ⟨fun heq => ?_, fun heq => ?_⟩
  · exact h.sids x.conn i d c x.connId hd hc (congrArg some hsid) (congrArg some heq.symm)
  · rw [heq, hc] at hd
    rw [← hsid, ← Option.some.inj hd]

theorem Inv.any_iff (h : s.Inv max) (hc : s.conns[i]? = some c) :
    s.sessions.any (·.connId = c.sid) ↔ s.held i ≠ 0 := by
  rw [List.any_eq_true, ← Nat.pos_iff_ne_zero, held, List.countP_pos_iff]
  refine exists_congr fun x => and_congr_right fun hx => ?_
  rw [decide_eq_true_iff, decide_eq_true_iff]
  exact h.connId_eq_iff hc hx

theorem Inv.emplace (h : s.Inv max) (hc : s.conns[i]? = some c) {text : Option String}
    (hsetup : c.setup = .emplacing text) :
    ((s.emplace ⟨c.sid, i, text⟩).setConn i { c with setup := .succeeded }).Inv max := by
  have hsound := h.conn i c hc
  have hnone : s.held i = 0 := by
    rw [hsound.held, Connection.due, hsetup]
    simp
  have hany : ¬ s.sessions.any (·.connId = c.sid) := by
    rw [h.any_iff hc]
    exact not_not.2 hnone
  have hremoval : c.removal = .none ∨ c.removal = .queued := by
    have hpassed := hsound.passed
    rw [hsetup] at hpassed
    cases hr : c.removal with
    | none => exact .inl rfl
    | queued => exact .inr rfl
    | destroying => exact nomatch hpassed (.inl hr)
    | done => exact nomatch hpassed (.inr hr)
  rw [Application.emplace, if_neg hany]
  refine h.setConn hc (by rfl) ?_ (fun j hj => ?_) (fun x hx => ?_) ?_
  · refine ⟨?_, hsound.live, hsound.removal, fun _ => rfl⟩
    have hcount : s.sessions.countP (·.conn = i) = 0 := hnone
    rw [List.countP_append, hcount, Connection.due]
    simp [hremoval]
  · rw [List.countP_append, held]
    simp [hj.symm]
  · exact (List.mem_append.1 hx).imp id fun hx => by
      rw [List.mem_singleton.1 hx]
      exact ⟨rfl, rfl⟩
  · have hunder := countP_set_of_false (c := fun c : Connection => c.setup.underway)
      (y := { c with setup := .succeeded }) hc (by rw [hsetup]; rfl) rfl
    have hbounded := h.bounded
    rw [underway] at hbounded
    rw [List.length_append, List.length_singleton]
    omega

theorem Inv.remove (h : s.Inv max) (hc : s.conns[i]? = some c) (hremoval : c.removal = .queued)
    (hpassed : c.setup.passed = false) : (s.remove i c).Inv max := by
  have hsound := h.conn i c hc
  have hunder : ∀ removal, (s.conns.set i { c with removal := removal }).countP
      (·.setup.underway) = s.underway := fun _ => countP_set_of_eq hc rfl
  have hsound' : ∀ removal, removal = .destroying ∨ removal = .done →
      { c with removal := removal }.Sound 0 := by
    intro removal hr
    refine ⟨?_, hsound.live, ?_, fun _ => hpassed⟩
    · rw [Connection.due]
      rcases hr with rfl | rfl
      · simp
      · simp
    · have hclosed : c.phase = .closed := by
        by_contra hne
        cases hremoval.symm.trans (hsound.removal.2 hne)
      rcases hr with rfl | rfl
      · simp [hclosed]
      · simp [hclosed]
  rw [Application.remove]
  split_ifs with hany
  · obtain ⟨x, hx, hid⟩ := List.any_eq_true.1 hany
    obtain ⟨a, l₁, l₂, -, ha, hl, herase⟩ :=
      List.exists_of_eraseP (p := fun x => decide (x.connId = c.sid)) hx hid
    have hconn : a.conn = i := by
      refine (h.connId_eq_iff hc ?_).1 (of_decide_eq_true ha)
      rw [hl]
      exact List.mem_append_right _ List.mem_cons_self
    have hheld : s.held i ≤ 1 := by
      rw [hsound.held, Connection.due]
      split_ifs
      · exact le_rfl
      · exact Nat.zero_le 1
    have hcount : ∀ j, s.held j = (s.sessions.eraseP (·.connId = c.sid)).countP (·.conn = j) +
        if i = j then 1 else 0 := by
      intro j
      rw [held, herase, hl, List.countP_append, List.countP_append, List.countP_cons, hconn]
      simp [Nat.add_assoc]
    refine h.setConn hc (by rfl) ?_ (fun j hj => ?_)
      (fun x hx => .inl (List.mem_of_mem_eraseP hx)) ?_
    · have hi := hcount i
      rw [if_pos rfl] at hi
      have hzero : (s.sessions.eraseP (·.connId = c.sid)).countP (·.conn = i) = 0 := by omega
      rw [hzero]
      exact hsound' _ (.inl rfl)
    · have hj' := hcount j
      rw [if_neg hj.symm] at hj'
      exact hj'.symm
    · rw [hunder]
      exact (Nat.add_le_add_right (List.eraseP_sublist.length_le) _).trans h.bounded
  · have hzero : s.held i = 0 := by
      rw [h.any_iff hc] at hany
      exact not_not.1 hany
    refine h.setConn hc (by rfl) ?_ (fun _ _ => rfl) (fun _ => .inl) ?_
    · have hcount : s.sessions.countP (·.conn = i) = 0 := hzero
      rw [hcount]
      exact hsound' _ (.inr rfl)
    · rw [hunder]
      exact h.bounded

theorem held_eq_zero (h : s.Inv max) {j : ℕ} (hj : s.conns.length ≤ j) : s.held j = 0 := by
  refine List.countP_eq_zero.2 fun x hx hconn => ?_
  obtain ⟨c, hc, -⟩ := h.session x hx
  rw [of_decide_eq_true hconn] at hc
  exact absurd (List.getElem?_eq_some_iff.1 hc).1 (not_lt.2 hj)

theorem Inv.connect (h : s.Inv max) (hl : Timely max s .connect) : (s.connect max).Inv max := by
  obtain ⟨hfresh, hroom⟩ := hl
  refine ⟨fun j c hj => ?_, h.sids.concat fun k hk q y hq hy => ?_, fun x hx => ?_, ?_⟩
  · have hheld : (s.connect max).held j = s.held j := rfl
    rw [hheld]
    rcases Nat.lt_or_ge j s.conns.length with hlt | hge
    · exact h.conn j c ((List.getElem?_append_left hlt).symm.trans hj)
    · rw [held_eq_zero h hge]
      have hj' := (List.getElem?_append_right hge).symm.trans hj
      obtain rfl := List.mem_singleton.1 (List.mem_of_getElem? hj')
      refine ⟨?_, fun _ => rfl, iff_of_true rfl nofun, nofun⟩
      rw [Connection.due, if_neg]
      rintro ⟨hsetup, -⟩
      dsimp only at hsetup
      split_ifs at hsetup
  · obtain rfl := Option.some.inj hk
    exact hfresh y (List.mem_of_getElem? hq) (Option.some.inj hy)
  · obtain ⟨c, hc, hsid⟩ := h.session x hx
    exact ⟨c, (List.getElem?_append_left (List.getElem?_eq_some_iff.1 hc).1).trans hc, hsid⟩
  · have hbounded := h.bounded
    rw [underway] at hbounded hroom
    rw [underway, Application.connect, List.countP_append]
    dsimp only
    by_cases hadmitted : s.sessions.length < max
    · have hroom := hroom hadmitted
      have hqueued : Setup.queued.underway = true := rfl
      simp only [hadmitted, decide_true, if_true, List.countP_singleton, hqueued]
      omega
    · simp only [hadmitted, decide_false, Bool.false_eq_true, if_false, List.countP_singleton]
      exact hbounded

theorem Inv.step {l : Label} (h : s.Inv max) (hl : Timely max s l)
    (hst : s.step max l = some s') : s'.Inv max := by
  cases l with
  | connect =>
    obtain rfl := Option.some.inj hst
    exact h.connect hl
  | text i msg => exact h.update hst fun _ _ hc hsound => hsound.handleText hc
  | close i => exact h.update hst fun _ _ hc hsound => hsound.handleClose hc
  | disconnect i => exact h.update hst fun _ _ hc hsound => hsound.onDisconnect hc
  | sessionClose i => exact h.update hst fun _ _ hc hsound => hsound.sessionClose hc
  | setup i ok =>
    obtain ⟨c, hc, hst⟩ := Option.bind_eq_some_iff.1 hst
    split at hst
    · next text hsetup =>
      obtain rfl := Option.some.inj hst
      exact h.emplace hc hsetup
    · have hst' : s.update i (·.setupStep ok) = some s' := Option.bind_eq_some_iff.2 ⟨c, hc, hst⟩
      exact h.update hst' fun _ _ hc hsound => hsound.setupStep hc
  | removal i =>
    obtain ⟨c, hc, hst⟩ := Option.bind_eq_some_iff.1 hst
    split at hst
    · next hqueued =>
      obtain rfl := Option.some.inj hst
      have hpassed := hl c hc hqueued
      exact h.remove hc hqueued (by simpa using hpassed)
    · next hdestroying =>
      obtain rfl := Option.some.inj hst
      have hsound := h.conn i c hc
      have hbounded := h.bounded
      rw [underway, ← countP_set_of_eq (y := { c with removal := .done }) hc rfl] at hbounded
      refine h.setConn hc (by rfl) ⟨?_, hsound.live, ?_, fun _ => hsound.passed (.inl hdestroying)⟩
        (fun _ _ => rfl) (fun _ => .inl) hbounded
      · have hheld : s.sessions.countP (·.conn = i) = c.due := hsound.held
        rw [hheld, Connection.due, Connection.due, hdestroying]
        simp
      · have hremoval := hsound.removal
        rw [hdestroying] at hremoval
        simpa using hremoval
    · cases hst
    · cases hst

theorem Inv.init : (system max).init.Inv max :=
  ⟨fun _ _ h => by simp [system] at h, .nil, List.forall_mem_nil _, Nat.zero_le _⟩

theorem settled_of_inv (h : s.Inv max) : s.Settled max where
  one hidle i c hc hopen hsetup := by
    have hsound := h.conn i c hc
    have hremoval : c.removal = .none := hsound.removal.2 (by simp [hsound.live hopen])
    rw [hsound.held, Connection.due]
    simp [hsetup, hremoval]
  none hidle i c hc hclosed := by
    have hsound := h.conn i c hc
    have hremoval : c.removal = .done :=
      (hidle c (List.mem_of_getElem? hc)).2.resolve_left fun hnone =>
        hsound.removal.1 hnone hclosed
    rw [hsound.held, Connection.due]
    simp [hremoval]
  bounded := (Nat.le_add_right _ _).trans h.bounded

/-- In the runs where no session is removed while its setup may still create it, and where
    a connection that is admitted finds room for the setups under way too, every session is
    that of a live connection, and there are no more than `max`. -/
theorem settled (hs : (system max).ReachableIf (Timely max) s) : s.Settled max :=
  settled_of_inv (hs.invariant .init fun _ _ _ h hl hst => h.step hl hst)

/-- The session of a connection is created after it was to be removed, if its setup is about
    to create it then. -/
theorem emplace_of_removal (hc : s.conns[i]? = some c) (hqueued : c.removal = .queued)
    {text : Option String} (hsetup : c.setup = .emplacing text)
    (hany : s.sessions.any (·.connId = c.sid) = false) :
    ∃ s₁ s₂, s.removal i = some s₁ ∧ s₁.setup i true = some s₂ ∧
      s₂.sessions = s.sessions ++ [⟨c.sid, i, text⟩] := by
  have hi := (List.getElem?_eq_some_iff.1 hc).1
  have hremoval : s.removal i = some (s.setConn i { c with removal := .done }) := by
    rw [removal, hc, Option.bind_some, hqueued]
    exact congrArg some (if_neg (by simp [hany]))
  refine ⟨_, ((s.setConn i { c with removal := .done }).emplace ⟨c.sid, i, text⟩).setConn i
    { c with removal := .done, setup := .succeeded }, hremoval, ?_, ?_⟩
  · rw [setup, setConn, List.getElem?_set_self hi, Option.bind_some]
    dsimp only
    rw [hsetup]
  · exact congrArg Application.sessions (if_neg (by simp [setConn, hany]))

/-- The next steps of the setup of the `i`-th connection, up to its session. -/
def setUp (i : ℕ) : List Label :=
  [.setup i true, .setup i true, .setup i true, .setup i true, .setup i true, .setup i true]

/-- A call that goes on, and one that has ended. -/
def oneEnded : List Label :=
  [.connect, .text 0 "did=1"] ++ setUp 0 ++ ([.connect] : List Label) ++ setUp 1 ++
    ([.close 1, .disconnect 1, .removal 1, .removal 1] : List Label)

theorem settled_oneEnded : ∃ s, (system 2).ReachableIf (Timely 2) s ∧ s.conns.length = 2 ∧
    s.sessions = [⟨1, 0, some "did=1"⟩] ∧ s.Settled 2 := by
  have hrun : ((system 2).execIf (Timely 2) (system 2).init oneEnded).map
      (fun s => (s.conns.length, s.sessions)) = some (2, [⟨1, 0, some "did=1"⟩]) := by
    decide
  obtain ⟨s, hs, heq⟩ := Option.map_eq_some_iff.1 hrun
  obtain ⟨hconns, hsessions⟩ := Prod.mk.inj heq
  have hreach := System.ReachableIf.init.execIf hs
  exact ⟨s, hreach, hconns, hsessions, settled hreach⟩

/-- The caller hangs up while the route is looked up. -/
def hangUp : List Label :=
  [.connect, .setup 0 true, .setup 0 true, .setup 0 true, .close 0, .disconnect 0, .removal 0,
    .setup 0 true, .setup 0 true, .setup 0 true]

/-- Two connections are admitted before the session of the first is created. -/
def twoConnect : List Label := [.connect, .connect] ++ setUp 0 ++ setUp 1

/-- A connection that has closed has a session, and there are more than `max`. -/
theorem not_settled :
    (∃ s, (system 1).Reachable s ∧ s.Idle ∧ s.held 0 = 1 ∧
      (s.conns[0]?).map (·.phase) = some .closed ∧ ¬ s.Settled 1) ∧
    ∃ s, (system 1).Reachable s ∧ s.sessions.length = 2 ∧ ¬ s.Settled 1 := by
  have hhangUp : ((system 1).exec (system 1).init hangUp).map
      (fun s => (decide (s.conns.all fun c => c.setup.finished ∧
        (c.removal = .none ∨ c.removal = .done)), s.held 0, (s.conns[0]?).map (·.phase))) =
      some (true, 1, some .closed) := by
    decide
  have htwo : ((system 1).exec (system 1).init twoConnect).map (·.sessions.length) = some 2 := by
    decide
  constructor
  · obtain ⟨s, hs, heq⟩ := Option.map_eq_some_iff.1 hhangUp
    obtain ⟨hidle, heq⟩ := Prod.mk.inj heq
    obtain ⟨hheld, hphase⟩ := Prod.mk.inj heq
    have hidle : s.Idle := by simpa [Idle] using hidle
    refine ⟨s, .exec .init hs, hidle, hheld, hphase, fun h => ?_⟩
    obtain ⟨c, hc, hclosed⟩ := Option.map_eq_some_iff.1 hphase
    cases (h.none hidle 0 c hc hclosed).symm.trans hheld
  · obtain ⟨s, hs, hlength⟩ := Option.map_eq_some_iff.1 htwo
    refine ⟨s, .exec .init hs, hlength, fun h => ?_⟩
    have hbounded := h.bounded
    omega

end Application

end Yuviz.Gateway
