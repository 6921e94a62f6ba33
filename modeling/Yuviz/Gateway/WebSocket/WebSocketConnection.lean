import Mathlib
import Yuviz.System

/-!
# A WebSocket connection

Any thread sends on a connection or closes it, and the service thread writes what is
queued. When the library has closed the connection it calls back, and frees the handle
when the callback returns. The system is that of one connection, `m` threads that use
it, the loop of the service thread, and the callback. A section under `write_mutex_` is
one step.

The flag `open_` is cleared by `close` too, and then the callback finds it cleared, and
neither forgets the handle nor runs the handler. In the runs where it finds the flag set,
and where no thread is about to use the handle when it returns, the handler runs once and
the handle is not used again (`closedOnce`). What is written is a prefix of what has been
accepted in every run (`written_prefix`).
-/

namespace Yuviz.Gateway

namespace WebSocketConnection

inductive Protocol
  | text
  | binary
  deriving DecidableEq

structure PendingWrite (B : Type*) where
  payload : B
  proto : Protocol
  deriving DecidableEq

/-- Where a thread is in `send_text`, `send_binary` or `close`. -/
inductive Caller (B : Type*)
  | idle
  /-- It is about to take the mutex and queue the write. -/
  | enqueuing (write : PendingWrite B)
  /-- It has cleared `open_`, and is about to read `wsi_` under the mutex. -/
  | closing
  /-- It has read a handle, and is about to pass it to `lws_get_context`. -/
  | signalling
  deriving DecidableEq

/-- Where the service thread is. -/
inductive Service
  | looping
  /-- The library has called back, and the connection has been found. -/
  | closing
  /-- `open_` was set, and `wsi_` is about to be nulled. -/
  | nulling
  /-- `on_close_` is about to run. -/
  | handling
  /-- `on_disconnect_` is about to run. -/
  | disconnecting
  /-- The connection is about to be removed. -/
  | removing
  /-- The callback has returned, and the library has freed the handle. -/
  | closed
  deriving DecidableEq

inductive Handler
  | onClose
  | onDisconnect
  deriving DecidableEq

end WebSocketConnection

open WebSocketConnection (PendingWrite Caller Service Handler)

structure WebSocketConnection (m : ℕ) (B : Type*) where
  isOpen : Bool
  /-- The handle is not null. -/
  wsi : Bool
  writeQueue : List (PendingWrite B)
  /-- A writable callback has been requested. -/
  requested : Bool
  callers : Fin m → Caller B
  service : Service
  /-- What has been queued, and what has been passed to `lws_write`. -/
  accepted : List (PendingWrite B)
  written : List (PendingWrite B)
  /-- The handlers that have run. -/
  ran : List Handler
  /-- The handle has been used after it was freed. -/
  misused : Bool

namespace WebSocketConnection

inductive Label (m : ℕ) (B : Type*)
  | send (c : Fin m) (write : PendingWrite B)
  | close (c : Fin m)
  /-- The next step of a thread. -/
  | caller (c : Fin m)
  /-- The loop of the service thread looks for pending writes. -/
  | request
  /-- The writable callback. `rc i` is what the `i`-th `lws_write` returns. -/
  | writeable (rc : ℕ → ℤ)
  /-- The library calls back, because the connection is closed. -/
  | closed
  /-- The next step of that callback. -/
  | callback

variable {m : ℕ} {B : Type*}

/-- The writes that are tried, and whether none of them failed. -/
def writeAll (rc : ℕ → ℤ) : List (PendingWrite B) → List (PendingWrite B) × Bool
  | [] => ([], true)
  | write :: rest =>
    if rc 0 < 0 then ([write], false)
    else
      let (tried, ok) := writeAll (fun i => rc (i + 1)) rest
      (write :: tried, ok)

section

variable (s : WebSocketConnection m B)

def setCaller (c : Fin m) (caller : Caller B) : WebSocketConnection m B :=
  { s with callers := Function.update s.callers c caller }

/-- What a thread does with the handle it has read. -/
def signal (c : Fin m) : WebSocketConnection m B :=
  s.setCaller c (if s.wsi then .signalling else .idle)

def enqueue (c : Fin m) (write : PendingWrite B) : WebSocketConnection m B :=
  { s with writeQueue := s.writeQueue ++ [write], accepted := s.accepted ++ [write] }.signal c

def call (c : Fin m) : Option (WebSocketConnection m B) :=
  match s.callers c with
  | .idle => none
  | .enqueuing write => some (s.enqueue c write)
  | .closing => some (s.signal c)
  | .signalling =>
    some ({ s with misused := s.misused || s.service = Service.closed }.setCaller c .idle)

/-- A connection whose handle is null discards the writes. So does one that fails. -/
def flushPendingWrites (rc : ℕ → ℤ) : WebSocketConnection m B :=
  if s.wsi then
    let (tried, ok) := writeAll rc s.writeQueue
    { s with writeQueue := [], written := s.written ++ tried, wsi := ok }
  else { s with writeQueue := [] }

/-- The callback: `handle_close`, the disconnect handler, and the removal. -/
def callback : Option (WebSocketConnection m B) :=
  match s.service with
  | .looping | .closed => none
  | .closing =>
    some { s with isOpen := false, service := if s.isOpen then .nulling else .disconnecting }
  | .nulling => some { s with wsi := false, service := .handling }
  | .handling => some { s with ran := s.ran ++ [.onClose], service := .disconnecting }
  | .disconnecting => some { s with ran := s.ran ++ [.onDisconnect], service := .removing }
  | .removing => some { s with service := .closed }

def step (s : WebSocketConnection m B) : Label m B → Option (WebSocketConnection m B)
  | .send c write =>
    match s.callers c with
    | .idle => some (s.setCaller c (.enqueuing write))
    | _ => none
  | .close c =>
    match s.callers c with
    | .idle => some ({ s with isOpen := false }.setCaller c .closing)
    | _ => none
  | .caller c => s.call c
  | .request =>
    match s.service with
    | .looping => some { s with requested := s.requested || !s.writeQueue.isEmpty }
    | _ => none
  | .writeable rc =>
    match s.service, s.requested with
    | .looping, true => some ({ s with requested := false }.flushPendingWrites rc)
    | _, _ => none
  | .closed =>
    match s.service with
    | .looping => some { s with service := .closing }
    | _ => none
  | .callback => s.callback

end

/-- A connection that has been established. -/
def system (m : ℕ) (B : Type*) : System (WebSocketConnection m B) (Label m B) where
  init := ⟨true, true, [], false, fun _ => .idle, .looping, [], [], [], false⟩
  step := step

/-! ### What is promised of a connection -/

structure ClosedOnce (s : WebSocketConnection m B) : Prop where
  /-- Once the callback has returned, the handle is null, -/
  wsi : s.service = .closed → s.wsi = false
  /-- and the handler has run once. -/
  handler : s.service = .closed → s.ran.count .onClose = 1
  /-- The handle is not used after it has been freed. -/
  misused : s.misused = false

/-- The callback finds the connection open, and no thread has read the handle and is
    about to use it when the callback returns. -/
def Unclosed (s : WebSocketConnection m B) : Label m B → Prop
  | .callback => (s.service = .closing → s.isOpen) ∧
      (s.service = .removing → ∀ c, s.callers c ≠ .signalling)
  | _ => True

instance [DecidableEq B] (s : WebSocketConnection m B) : DecidablePred s.Unclosed
  | .callback => inferInstanceAs (Decidable (_ ∧ _))
  | .send _ _ | .close _ | .caller _ | .request | .writeable _ | .closed =>
    inferInstanceAs (Decidable True)

/-! ### The writes -/

theorem writeAll_prefix (rc : ℕ → ℤ) (queue : List (PendingWrite B)) :
    (writeAll rc queue).1 <+: queue ∧ ((writeAll rc queue).2 → (writeAll rc queue).1 = queue) := by
  induction queue generalizing rc with
  | nil => exact ⟨List.prefix_rfl, fun _ => rfl⟩
  | cons write rest ih =>
    obtain ⟨htried, hall⟩ := ih fun i => rc (i + 1)
    rw [writeAll]
    split_ifs
    · exact ⟨List.prefix_append [write] rest, nofun⟩
    · exact ⟨List.cons_prefix_cons.2 ⟨rfl, htried⟩, fun hok => congrArg _ (hall hok)⟩

variable {s s' : WebSocketConnection m B}

/-- What is queued is what has been accepted and not been written, as long as there is
    a handle. -/
structure InOrder (s : WebSocketConnection m B) : Prop where
  written : s.written <+: s.accepted
  queue : s.wsi → s.written ++ s.writeQueue = s.accepted

theorem InOrder.of_eq (h : s.InOrder) (hwritten : s'.written = s.written)
    (hqueue : s'.writeQueue = s.writeQueue) (haccepted : s'.accepted = s.accepted)
    (hwsi : s'.wsi → s.wsi) : s'.InOrder := by
  refine ⟨?_, fun hw => ?_⟩
  · rw [hwritten, haccepted]
    exact h.written
  · rw [hwritten, hqueue, haccepted]
    exact h.queue (hwsi hw)

theorem InOrder.flush (h : s.InOrder) (rc : ℕ → ℤ) : (s.flushPendingWrites rc).InOrder := by
  rw [flushPendingWrites]
  split_ifs with hwsi
  · obtain ⟨htried, hall⟩ := writeAll_prefix rc s.writeQueue
    have hqueue := h.queue hwsi
    refine ⟨?_, fun hok => ?_⟩
    · dsimp only
      rw [← hqueue]
      exact (List.prefix_append_right_inj _).2 htried
    · dsimp only
      rw [hall hok, List.append_nil, hqueue]
  · exact ⟨h.written, fun hw => absurd hw hwsi⟩

theorem InOrder.step {l : Label m B} (h : s.InOrder) (hst : s.step l = some s') :
    s'.InOrder := by
  cases l with
  | send c write =>
    rw [WebSocketConnection.step] at hst
    split at hst
    · obtain rfl := Option.some.inj hst
      exact h.of_eq rfl rfl rfl id
    · cases hst
  | close c =>
    rw [WebSocketConnection.step] at hst
    split at hst
    · obtain rfl := Option.some.inj hst
      exact h.of_eq rfl rfl rfl id
    · cases hst
  | caller c =>
    rw [WebSocketConnection.step, call] at hst
    split at hst
    · cases hst
    · next write _ =>
      obtain rfl := Option.some.inj hst
      refine ⟨h.written.trans (List.prefix_append _ _), fun hwsi => ?_⟩
      have hqueue := h.queue hwsi
      rw [enqueue, signal, setCaller]
      rw [← List.append_assoc, hqueue]
    · obtain rfl := Option.some.inj hst
      exact h.of_eq rfl rfl rfl id
    · obtain rfl := Option.some.inj hst
      exact h.of_eq rfl rfl rfl id
  | request =>
    rw [WebSocketConnection.step] at hst
    split at hst
    · obtain rfl := Option.some.inj hst
      exact h.of_eq rfl rfl rfl id
    · cases hst
  | writeable rc =>
    rw [WebSocketConnection.step] at hst
    split at hst
    · obtain rfl := Option.some.inj hst
      have h' : { s with requested := false }.InOrder := h.of_eq rfl rfl rfl id
      exact h'.flush rc
    · cases hst
  | closed =>
    rw [WebSocketConnection.step] at hst
    split at hst
    · obtain rfl := Option.some.inj hst
      exact h.of_eq rfl rfl rfl id
    · cases hst
  | callback =>
    rw [WebSocketConnection.step, callback] at hst
    split at hst
    · cases hst
    · cases hst
    · obtain rfl := Option.some.inj hst
      exact h.of_eq rfl rfl rfl id
    · obtain rfl := Option.some.inj hst
      exact h.of_eq rfl rfl rfl nofun
    · obtain rfl := Option.some.inj hst
      exact h.of_eq rfl rfl rfl id
    · obtain rfl := Option.some.inj hst
      exact h.of_eq rfl rfl rfl id
    · obtain rfl := Option.some.inj hst
      exact h.of_eq rfl rfl rfl id

/-- What is written is a prefix of what has been accepted. -/
theorem written_prefix (hs : (system m B).Reachable s) : s.written <+: s.accepted := by
  have h : s.InOrder := hs.invariant ⟨List.prefix_rfl, fun _ => rfl⟩ fun _ _ _ => InOrder.step
  exact h.written

/-! ### The handle and the handlers -/

/-- The handlers that have run, if the callback found the connection open. -/
def Service.ran : Service → List Handler
  | looping | closing | nulling | handling => []
  | disconnecting => [.onClose]
  | removing | closed => [.onClose, .onDisconnect]

/-- The callback has nulled the handle. -/
def Service.Nulled : Service → Prop
  | looping | closing | nulling => False
  | handling | disconnecting | removing | closed => True

/-- The part of the threads: none has a handle that is freed. -/
structure Forgotten (s : WebSocketConnection m B) : Prop where
  callers : s.service = .closed → ∀ c, s.callers c ≠ .signalling
  wsi : s.service.Nulled → s.wsi = false
  misused : s.misused = false

theorem Forgotten.setCaller {c : Fin m} {caller : Caller B} (h : s.Forgotten)
    (hcaller : s.service = .closed → caller ≠ .signalling) :
    (s.setCaller c caller).Forgotten := by
  refine ⟨fun hclosed c' => ?_, h.wsi, h.misused⟩
  by_cases hc : c' = c
  · subst hc
    exact (Function.update_self _ _ _).trans_ne (hcaller hclosed)
  · exact (Function.update_of_ne hc _ _).trans_ne (h.callers hclosed c')

theorem Forgotten.signal {c : Fin m} (h : s.Forgotten) : (s.signal c).Forgotten := by
  refine h.setCaller fun hclosed => ?_
  have hwsi : s.wsi = false := h.wsi (by rw [hclosed]; trivial)
  rw [hwsi]
  exact nofun

theorem Forgotten.call {c : Fin m} (h : s.Forgotten) (hst : s.call c = some s') :
    s'.Forgotten := by
  rw [WebSocketConnection.call] at hst
  split at hst
  · cases hst
  · next write _ =>
    obtain rfl := Option.some.inj hst
    have h' : { s with
        writeQueue := s.writeQueue ++ [write], accepted := s.accepted ++ [write] }.Forgotten :=
      ⟨h.callers, h.wsi, h.misused⟩
    exact h'.signal
  · obtain rfl := Option.some.inj hst
    exact h.signal
  · next hsignalling =>
    obtain rfl := Option.some.inj hst
    have hmisused : (s.misused || decide (s.service = Service.closed)) = false := by
      rw [h.misused, Bool.false_or, decide_eq_false_iff_not]
      exact fun hclosed => h.callers hclosed c hsignalling
    have h' : { s with misused := s.misused || decide (s.service = Service.closed) }.Forgotten :=
      ⟨h.callers, h.wsi, hmisused⟩
    exact h'.setCaller nofun

theorem Forgotten.flush (h : s.Forgotten) (rc : ℕ → ℤ) : (s.flushPendingWrites rc).Forgotten := by
  rw [flushPendingWrites]
  split_ifs with hwsi
  · refine ⟨h.callers, fun hnulled => ?_, h.misused⟩
    cases hwsi.symm.trans (h.wsi hnulled)
  · exact ⟨h.callers, h.wsi, h.misused⟩

/-- What the callback has done, in the runs where it finds the connection open. -/
structure Handled (s : WebSocketConnection m B) : Prop extends s.Forgotten where
  ran : s.ran = s.service.ran

theorem Handled.callback (h : s.Handled) (hl : s.Unclosed .callback)
    (hst : s.callback = some s') : s'.Handled := by
  obtain ⟨hopen, hsignalling⟩ := hl
  have hran := h.ran
  rw [WebSocketConnection.callback] at hst
  cases hs : s.service with
  | looping | closed =>
    rw [hs] at hst
    cases hst
  | closing =>
    rw [hs] at hst hran
    obtain rfl := Option.some.inj hst
    rw [if_pos (hopen hs)]
    exact ⟨⟨nofun, False.elim, h.misused⟩, hran⟩
  | nulling =>
    rw [hs] at hst hran
    obtain rfl := Option.some.inj hst
    exact ⟨⟨nofun, fun _ => rfl, h.misused⟩, hran⟩
  | handling =>
    rw [hs] at hst hran
    obtain rfl := Option.some.inj hst
    exact ⟨⟨nofun, fun _ => h.wsi (by rw [hs]; trivial), h.misused⟩, by dsimp only; rw [hran]; rfl⟩
  | disconnecting =>
    rw [hs] at hst hran
    obtain rfl := Option.some.inj hst
    exact ⟨⟨nofun, fun _ => h.wsi (by rw [hs]; trivial), h.misused⟩, by dsimp only; rw [hran]; rfl⟩
  | removing =>
    rw [hs] at hst hran
    obtain rfl := Option.some.inj hst
    exact ⟨⟨fun _ => hsignalling hs, fun _ => h.wsi (by rw [hs]; trivial), h.misused⟩, hran⟩

theorem Handled.step {l : Label m B} (h : s.Handled) (hl : s.Unclosed l)
    (hst : s.step l = some s') : s'.Handled := by
  have hran := h.ran
  cases l with
  | send c write =>
    rw [WebSocketConnection.step] at hst
    split at hst
    · obtain rfl := Option.some.inj hst
      exact ⟨h.toForgotten.setCaller nofun, hran⟩
    · cases hst
  | close c =>
    rw [WebSocketConnection.step] at hst
    split at hst
    · obtain rfl := Option.some.inj hst
      have h' : { s with isOpen := false }.Forgotten := ⟨h.callers, h.wsi, h.misused⟩
      exact ⟨h'.setCaller nofun, hran⟩
    · cases hst
  | caller c =>
    refine ⟨h.toForgotten.call hst, ?_⟩
    rw [WebSocketConnection.step, call] at hst
    split at hst
    · cases hst
    · exact Option.some.inj hst ▸ hran
    · exact Option.some.inj hst ▸ hran
    · exact Option.some.inj hst ▸ hran
  | request =>
    rw [WebSocketConnection.step] at hst
    split at hst
    · exact Option.some.inj hst ▸ ⟨⟨h.callers, h.wsi, h.misused⟩, hran⟩
    · cases hst
  | writeable rc =>
    rw [WebSocketConnection.step] at hst
    split at hst
    · obtain rfl := Option.some.inj hst
      have h' : { s with requested := false }.Forgotten := ⟨h.callers, h.wsi, h.misused⟩
      refine ⟨h'.flush rc, ?_⟩
      rw [flushPendingWrites]
      split_ifs
      · exact hran
      · exact hran
    · cases hst
  | closed =>
    rw [WebSocketConnection.step] at hst
    split at hst
    · next hlooping =>
      obtain rfl := Option.some.inj hst
      rw [hlooping] at hran
      exact ⟨⟨nofun, False.elim, h.misused⟩, hran⟩
    · cases hst
  | callback => exact h.callback hl hst

/-- In the runs where the callback finds the connection open, and no thread is about to use
    the handle when it returns, the handle is forgotten and the handler runs once. What is
    written is in order. -/
theorem closedOnce (hs : (system m B).ReachableIf Unclosed s) :
    s.ClosedOnce ∧ s.written <+: s.accepted := by
  have h : s.Handled := hs.invariant ⟨⟨nofun, False.elim, rfl⟩, rfl⟩
    fun _ _ _ h hl hst => h.step hl hst
  refine ⟨⟨fun hclosed => h.wsi (by rw [hclosed]; trivial), fun hclosed => ?_, h.misused⟩,
    written_prefix hs.reachable⟩
  rw [h.ran, hclosed]
  rfl

/-- The callback of a connection that has been closed before skips the handler. -/
theorem callback_of_not_open (hclosing : s.service = .closing) (hopen : ¬ s.isOpen)
    (hst : s.callback = some s') :
    s'.service = .disconnecting ∧ s'.ran = s.ran ∧ s'.wsi = s.wsi := by
  rw [callback, hclosing] at hst
  obtain rfl := Option.some.inj hst
  exact ⟨if_neg hopen, rfl, rfl⟩

/-- A thread that is about to use the handle when the callback returns uses it when it is
    freed. -/
theorem misused_of_signalling {c : Fin m} (hc : s.callers c = .signalling)
    (hremoving : s.service = .removing) (hst : s.callback = some s') :
    ∃ t, s'.call c = some t ∧ t.misused := by
  rw [callback, hremoving] at hst
  obtain rfl := Option.some.inj hst
  exact ⟨_, by rw [call, hc], by simp [setCaller]⟩

private instance neZero_one : NeZero 1 := ⟨by decide⟩

/-- Two messages are sent and written, and the peer closes the connection. -/
def closedByPeer : List (Label 1 String) :=
  [.send 0 ⟨"hello", .text⟩, .caller 0, .caller 0, .send 0 ⟨"audio", .binary⟩, .caller 0, .caller 0,
    .request, .writeable fun _ => 5, .closed, .callback, .callback, .callback, .callback,
    .callback]

theorem closedOnce_closedByPeer : ∃ s, (system 1 String).ReachableIf Unclosed s ∧
    s.service = .closed ∧ s.written = [⟨"hello", .text⟩, ⟨"audio", .binary⟩] ∧
    s.ClosedOnce ∧ s.written <+: s.accepted := by
  have hrun : ((system 1 String).execIf Unclosed (system 1 String).init closedByPeer).map
      (fun s => (s.service, s.written)) =
        some (.closed, [⟨"hello", .text⟩, ⟨"audio", .binary⟩]) := by
    decide
  obtain ⟨s, hs, heq⟩ := Option.map_eq_some_iff.1 hrun
  obtain ⟨hclosed, hwritten⟩ := Prod.mk.inj heq
  have hreach := System.ReachableIf.init.execIf hs
  exact ⟨s, hreach, hclosed, hwritten, closedOnce hreach⟩

/-- The gateway closes the connection, and then the peer does. -/
def closedByBoth : List (Label 1 String) :=
  [.close 0, .caller 0, .caller 0, .closed, .callback, .callback, .callback]

theorem not_closedOnce : ¬ ∀ s, (system 1 String).Reachable s → s.ClosedOnce := by
  intro h
  have hrun : ((system 1 String).exec (system 1 String).init closedByBoth).map
      (fun s => (s.service, s.wsi)) = some (.closed, true) := by
    decide
  obtain ⟨s, hs, heq⟩ := Option.map_eq_some_iff.1 hrun
  obtain ⟨hclosed, hwsi⟩ := Prod.mk.inj heq
  cases hwsi.symm.trans ((h s (.exec .init hs)).wsi hclosed)

end WebSocketConnection

end Yuviz.Gateway
