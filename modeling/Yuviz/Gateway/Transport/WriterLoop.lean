import Yuviz.Circular
import Yuviz.Gateway.Transport.GrpcConversationTransport

/-!
# The writer of a stream

The steps of the transport between `open_session` and the `WritesDone` of
`close_session`, one load, store or `Write` at a time: the thread that sends,
the writer and the thread that closes share two flags and the send queue, whose
counters wrap around.

What is written is what has been pushed, in order, each message once, and nothing
after `WritesDone`; what was pushed before the stream was closed is written,
unless a `Write` has failed (`delivered`). The drain at the end does not look
at what its `Write` returns: nothing is written after a failed `Write` as long as
the drain finds the queue empty after it.
-/

namespace Yuviz.Gateway

/-- Where the sender is in one of the `send_*` methods. -/
inductive Sender
  | idle
  /-- The stream was open. -/
  | opened (msg : GatewayMessage)
  /-- The queue has room. -/
  | room (msg : GatewayMessage)
  /-- The message is in its slot. -/
  | stored (msg : GatewayMessage)

/-- Where the writer is: in the loop, or in the drain after it. -/
inductive Writer
  /-- `writer_stopping_` is to be loaded. -/
  | check
  | pop (draining : Bool)
  /-- The message has been moved out of its slot. -/
  | popped (draining : Bool) (msg : GatewayMessage)
  | write (draining : Bool) (msg : GatewayMessage)
  | exited
  deriving DecidableEq

/-- The writer is in the drain. -/
def Writer.Draining : Writer → Prop
  | .pop draining | .popped draining _ | .write draining _ => draining = true
  | .check | .exited => False

/-- Where `close_session` is. -/
inductive Closer
  | idle
  /-- `stream_open_` has been taken down. -/
  | exchanged
  /-- `writer_stopping_` has been set; the writer is to be joined. -/
  | stopping
  /-- `WritesDone` has been called. -/
  | done
  deriving DecidableEq

structure WriterLoop where
  streamOpen : Bool
  writerStopping : Bool
  buf : List GatewayMessage
  head : BitVec 64
  tail : BitVec 64
  sender : Sender
  writer : Writer
  closer : Closer
  /-- The messages whose push has succeeded. -/
  pushed : List GatewayMessage
  /-- How many they were when the stream was closed. -/
  closedAt : Option ℕ
  /-- The calls of `Write`, and what they have returned. -/
  written : List (GatewayMessage × Bool)

namespace WriterLoop

variable (s : WriterLoop)

/-- `counter & (N - 1)`. -/
def slot (counter : BitVec 64) : ℕ := (counter &&& 255).toNat

/-- A call of a `send_*` method with its message. -/
def send (msg : GatewayMessage) : Option WriterLoop :=
  match s.sender with
  | .idle => some (if s.streamOpen then { s with sender := .opened msg } else s)
  | _ => none

/-- The next step of the sender. -/
def push : Option WriterLoop :=
  match s.sender with
  | .idle => none
  | .opened msg =>
    some { s with sender := if 256 ≤ s.tail - s.head then .idle else .room msg }
  | .room msg => some
      { s with
        buf := s.buf.set (slot s.tail) msg
        sender := .stored msg }
  | .stored msg => some
      { s with
        tail := s.tail + 1
        sender := .idle
        pushed := s.pushed ++ [msg] }

/-- The next step of the writer, up to its `Write`. -/
def pop : Option WriterLoop :=
  match s.writer with
  | .check => some { s with writer := .pop s.writerStopping }
  | .pop draining =>
    if s.tail = s.head then some { s with writer := if draining then .exited else .check }
    else (s.buf[slot s.head]?).map fun msg => { s with writer := .popped draining msg }
  | .popped draining msg => some
      { s with
        head := s.head + 1
        writer := .write draining msg }
  | .write _ _ | .exited => none

def write (ok : Bool) : Option WriterLoop :=
  match s.writer with
  | .write draining msg => some
      { s with
        written := s.written ++ [(msg, ok)]
        writer := if draining then .pop true else if ok then .check else .exited }
  | _ => none

/-- `close_session`. -/
def close : Option WriterLoop :=
  match s.closer with
  | .idle =>
    if s.streamOpen then some
      { s with
        streamOpen := false
        closer := .exchanged
        closedAt := some s.pushed.length }
    else none
  | .exchanged => some
      { s with
        writerStopping := true
        closer := .stopping }
  | .stopping => if s.writer = .exited then some { s with closer := .done } else none
  | .done => none

inductive Label
  | send (msg : GatewayMessage)
  | push
  | pop
  | write (ok : Bool)
  | close
  deriving DecidableEq

def step (s : WriterLoop) : Label → Option WriterLoop
  | .send msg => s.send msg
  | .push => s.push
  | .pop => s.pop
  | .write ok => s.write ok
  | .close => s.close

/-- `open_session` has written its request, and started the writer. -/
def system : System WriterLoop Label where
  init := ⟨true, false, List.replicate 256 default, 0, 0, .idle, .check, .idle, [], none, []⟩
  step := step

/-! ## What is delivered -/

/-- A `Write` has failed. -/
def Failed : Prop := ∃ w ∈ s.written, w.2 = false

/-- What is written, in every run. -/
structure Delivered : Prop where
  prefix_pushed : s.written.map Prod.fst <+: s.pushed
  /-- The writer has ended when `WritesDone` is called, -/
  exited : s.closer = .done → s.writer = .exited
  /-- and has written what was pushed before the stream was closed. -/
  complete : s.closer = .done → ∃ n, s.closedAt = some n ∧ (n ≤ s.written.length ∨ s.Failed)

/-- Nothing is written after a `Write` that has failed. -/
def StopsAtFailure : Prop :=
  ∀ (i : ℕ) w, s.written[i]? = some w → w.2 = false → i + 1 = s.written.length

/-- The drain finds the queue empty when a `Write` has failed. -/
def DrainsNothing : Label → Prop
  | .pop => s.writer = .pop true → (∃ w ∈ s.written, w.2 = false) → s.tail = s.head
  | _ => True

instance : Decidable s.Failed := inferInstanceAs (Decidable (∃ w ∈ s.written, w.2 = false))

instance : DecidablePred s.DrainsNothing
  | .pop => inferInstanceAs (Decidable (s.writer = .pop true → s.Failed → s.tail = s.head))
  | .send _ | .push | .write _ | .close => inferInstanceAs (Decidable True)

/-! ## The queue -/

/-- What the sender is at, in a queue that holds the messages from the position `r` on. -/
def SenderOk (queue : List GatewayMessage) (r : ℕ) : Prop :=
  match s.sender with
  | .idle | .opened _ => True
  | .room _ => queue.length + 1 ≤ 256
  | .stored msg => queue.length + 1 ≤ 256 ∧ Circular.Holds s.buf r (queue ++ [msg])

/-- The message that has been taken out of the queue and not written. -/
def taken : List GatewayMessage :=
  match s.writer with
  | .write _ msg => [msg]
  | _ => []

structure Wf (queue : List GatewayMessage) (r : ℕ) : Prop where
  length : s.buf.length = 256
  head : s.head = BitVec.ofNat 64 r
  tail : s.tail = BitVec.ofNat 64 (r + queue.length)
  holds : Circular.Holds s.buf r queue
  sender : s.SenderOk queue r
  popped : ∀ draining msg, s.writer = .popped draining msg → queue.head? = some msg
  pushed : s.pushed = s.written.map Prod.fst ++ s.taken ++ queue

variable {s} {s' : WriterLoop} {queue : List GatewayMessage} {r : ℕ}

theorem slot_eq (p : ℕ) : slot (BitVec.ofNat 64 p) = p % 256 :=
  Circular.toNat_and_mask (by decide : 8 < 64)

theorem Wf.length_le (h : s.Wf queue r) : queue.length ≤ 256 := h.length ▸ h.holds.length_le

/-- The ring is empty if and only if the two positions are the same. -/
theorem Wf.tail_eq_head_iff (h : s.Wf queue r) : s.tail = s.head ↔ queue = [] := by
  have hsub : (s.tail - s.head).toNat = queue.length := by
    rw [h.tail, h.head]
    exact Circular.toNat_sub (h.length_le.trans_lt (by decide))
  constructor
  · intro heq
    rw [heq, BitVec.sub_self] at hsub
    exact List.length_eq_zero_iff.1 hsub.symm
  · rintro rfl
    rw [h.tail, h.head]
    rfl

/-- A message is put after the others, -/
theorem Wf.push (h : s.Wf queue r) (hst : s.push = some s') : ∃ queue', s'.Wf queue' r := by
  have hok := h.sender
  rw [SenderOk] at hok
  rw [WriterLoop.push] at hst
  split at hst
  · cases hst
  · rename_i msg hpc
    obtain rfl := Option.some.inj hst
    refine ⟨queue, { h with sender := ?_ }⟩
    rw [SenderOk]
    dsimp only
    split_ifs with hfull
    · trivial
    · -- The counters are apart by the length of the queue.
      have hsub : (s.tail - s.head).toNat = queue.length := by
        rw [h.tail, h.head]
        exact Circular.toNat_sub (h.length_le.trans_lt (by decide))
      rw [BitVec.le_def, hsub, not_le] at hfull
      exact hfull
  · rename_i msg hpc
    rw [hpc] at hok
    obtain rfl := Option.some.inj hst
    have hslot : slot s.tail = (r + queue.length) % s.buf.length := by
      rw [h.tail, slot_eq, h.length]
    have hlt : slot s.tail < s.buf.length := by
      rw [hslot, h.length]
      exact Nat.mod_lt _ (by decide)
    have hcopy : Circular.Holds (Circular.copy s.buf (slot s.tail) [msg]) r (queue ++ [msg]) :=
      h.holds.copy hslot hlt (h.length ▸ hok)
    rw [Circular.copy_singleton hlt] at hcopy
    exact ⟨queue, { h with
      length := (List.length_set ..).trans h.length, holds := hcopy.left, sender := ⟨hok, hcopy⟩ }⟩
  · rename_i msg hpc
    rw [hpc] at hok
    obtain rfl := Option.some.inj hst
    refine ⟨queue ++ [msg], { h with
      tail := ?_, holds := hok.2, sender := trivial, popped := ?_, pushed := ?_ }⟩
    · show s.tail + 1 = _
      rw [h.tail, List.length_append, List.length_singleton, ← Nat.add_assoc, BitVec.ofNat_add _ 1]
      rfl
    · intro draining msg' hpc'
      rw [List.head?_append, h.popped draining msg' hpc', Option.some_or]
    · show s.pushed ++ [msg] = _ ++ s.taken ++ _
      rw [h.pushed, List.append_assoc _ _ [msg]]

/-- and the first one is taken. -/
theorem Wf.pop (h : s.Wf queue r) (hst : s.pop = some s') : ∃ queue' r', s'.Wf queue' r' := by
  rw [WriterLoop.pop] at hst
  split at hst
  · rename_i hpc
    obtain rfl := Option.some.inj hst
    have htaken : s.taken = [] := by rw [taken, hpc]
    have hpushed := h.pushed
    rw [htaken] at hpushed
    exact ⟨queue, r, { h with popped := nofun, pushed := hpushed }⟩
  · rename_i draining hpc
    have htaken : s.taken = [] := by rw [taken, hpc]
    have hpushed := h.pushed
    rw [htaken] at hpushed
    split_ifs at hst with heq hd
    · exact Option.some.inj hst ▸ ⟨queue, r, { h with popped := nofun, pushed := hpushed }⟩
    · exact Option.some.inj hst ▸ ⟨queue, r, { h with popped := nofun, pushed := hpushed }⟩
    · obtain ⟨msg, hmsg, rfl⟩ := Option.map_eq_some_iff.1 hst
      refine ⟨queue, r, { h with popped := ?_, pushed := hpushed }⟩
      intro draining' msg' hpc'
      obtain ⟨-, rfl⟩ := Writer.popped.inj hpc'
      rw [h.tail_eq_head_iff] at heq
      obtain ⟨x, xs, rfl⟩ := List.exists_cons_of_ne_nil heq
      have hget := h.holds.get 0 x rfl
      rw [Nat.add_zero, h.length, ← slot_eq, ← h.head] at hget
      exact hget.symm.trans hmsg
  · rename_i draining msg hpc
    obtain rfl := Option.some.inj hst
    have hhead := h.popped draining msg hpc
    obtain ⟨rest, rfl⟩ : ∃ rest, queue = msg :: rest := List.head?_eq_some_iff.1 hhead
    have htaken : s.taken = [] := by rw [taken, hpc]
    have hcons : msg :: rest = [msg] ++ rest := rfl
    refine ⟨rest, r + 1, { h with
      head := ?_, tail := ?_, holds := ?_, sender := ?_, popped := nofun, pushed := ?_ }⟩
    · show s.head + 1 = _
      rw [h.head, BitVec.ofNat_add]
      rfl
    · rw [Nat.add_right_comm]
      exact h.tail
    · have hholds := h.holds
      rw [hcons] at hholds
      exact hholds.right
    · have hok := h.sender
      rw [SenderOk] at hok ⊢
      cases hsender : s.sender with
      | idle => trivial
      | opened msg' => trivial
      | room msg' =>
        rw [hsender] at hok
        exact Nat.le_of_succ_le hok
      | stored msg' =>
        rw [hsender] at hok
        obtain ⟨hfit, hholds⟩ := hok
        rw [hcons, List.append_assoc] at hholds
        exact ⟨Nat.le_of_succ_le hfit, hholds.right⟩
    · rw [h.pushed, htaken, hcons, List.append_nil, List.append_assoc]
      rfl
  · cases hst
  · cases hst

theorem Wf.write (h : s.Wf queue r) {ok : Bool} (hst : s.write ok = some s') : s'.Wf queue r := by
  rw [WriterLoop.write] at hst
  split at hst
  · rename_i draining msg hpc
    obtain rfl := Option.some.inj hst
    have htaken : s.taken = [msg] := by rw [taken, hpc]
    have hpushed := h.pushed
    rw [htaken] at hpushed
    cases draining <;> cases ok <;>
      exact { h with popped := nofun, pushed := by simp [hpushed, taken] }
  · cases hst

theorem Wf.step (h : s.Wf queue r) {l : Label} (hst : s.step l = some s') :
    ∃ queue' r', s'.Wf queue' r' := by
  cases l with
  | send msg =>
    simp only [WriterLoop.step, send] at hst
    split at hst
    · obtain rfl := Option.some.inj hst
      split_ifs
      · exact ⟨queue, r, { h with sender := trivial }⟩
      · exact ⟨queue, r, h⟩
    · cases hst
  | push =>
    obtain ⟨queue', h'⟩ := h.push hst
    exact ⟨queue', r, h'⟩
  | pop => exact h.pop hst
  | write ok => exact ⟨queue, r, h.write hst⟩
  | close =>
    simp only [WriterLoop.step, close] at hst
    split at hst
    · split_ifs at hst
      exact Option.some.inj hst ▸ ⟨queue, r, { h with }⟩
    · exact Option.some.inj hst ▸ ⟨queue, r, { h with }⟩
    · split_ifs at hst
      exact Option.some.inj hst ▸ ⟨queue, r, { h with }⟩
    · cases hst

/-! ## The end -/

/-- The writer drains when it is to stop, which is when the stream is closed. -/
structure Stops (s : WriterLoop) : Prop where
  opened : s.streamOpen = true → s.closedAt = none
  closedAt : s.streamOpen = false → ∃ n, s.closedAt = some n ∧ n ≤ s.pushed.length
  idle : s.closer ≠ .idle → s.streamOpen = false
  stopping : s.writerStopping = true → s.streamOpen = false
  draining : s.writer.Draining → s.writerStopping = true
  exited : s.writer = .exited → s.Failed ∨ ∃ n, s.closedAt = some n ∧ n ≤ s.written.length
  done : s.closer = .done → s.writer = .exited

/-- What has failed stays so. -/
theorem Failed.append {s s' : WriterLoop} {x : GatewayMessage × Bool} (h : s.Failed)
    (hwritten : s'.written = s.written ++ [x]) : s'.Failed := by
  obtain ⟨w, hw, hfail⟩ := h
  exact ⟨w, hwritten ▸ List.mem_append_left _ hw, hfail⟩

theorem Stops.push (h : s.Stops) (hst : s.push = some s') : s'.Stops := by
  rw [WriterLoop.push] at hst
  split at hst
  · cases hst
  · exact Option.some.inj hst ▸ { h with }
  · exact Option.some.inj hst ▸ { h with }
  · obtain rfl := Option.some.inj hst
    refine { h with closedAt := fun hclosed => ?_ }
    obtain ⟨n, hn, hle⟩ := h.closedAt hclosed
    exact ⟨n, hn, hle.trans (by rw [List.length_append]; exact Nat.le_add_right _ _)⟩

theorem Stops.pop (h : s.Stops) (hwf : s.Wf queue r) (hst : s.pop = some s') : s'.Stops := by
  have hdone (hpc : s.writer ≠ .exited) : s.closer ≠ .done := fun hc => hpc (h.done hc)
  rw [WriterLoop.pop] at hst
  split at hst
  · rename_i hpc
    obtain rfl := Option.some.inj hst
    have hnot := hdone (hpc ▸ nofun)
    exact { h with
      draining := fun hd => hd, exited := nofun, done := fun hc => absurd hc hnot }
  · rename_i draining hpc
    have hnot := hdone (hpc ▸ nofun)
    have hd := h.draining
    rw [hpc] at hd
    split_ifs at hst with heq hdrain
    · -- The drain has found the queue empty.
      obtain rfl := Option.some.inj hst
      obtain ⟨n, hn, hle⟩ := h.closedAt (h.stopping (hd hdrain))
      have hpushed := hwf.pushed
      have htaken : s.taken = [] := by rw [taken, hpc]
      rw [htaken, (hwf.tail_eq_head_iff).1 heq, List.append_nil, List.append_nil] at hpushed
      rw [hpushed, List.length_map] at hle
      exact { h with
        draining := nofun, exited := fun _ => .inr ⟨n, hn, hle⟩, done := fun _ => rfl }
    · exact Option.some.inj hst ▸ { h with
        draining := nofun, exited := nofun, done := fun hc => absurd hc hnot }
    · obtain ⟨msg, -, rfl⟩ := Option.map_eq_some_iff.1 hst
      exact { h with draining := hd, exited := nofun, done := fun hc => absurd hc hnot }
  · rename_i draining msg hpc
    obtain rfl := Option.some.inj hst
    have hnot := hdone (hpc ▸ nofun)
    have hd := h.draining
    rw [hpc] at hd
    exact { h with draining := hd, exited := nofun, done := fun hc => absurd hc hnot }
  · cases hst
  · cases hst

/-- A writer that does not drain ends at a failed `Write`. -/
theorem Stops.write (h : s.Stops) {ok : Bool} (hst : s.write ok = some s') : s'.Stops := by
  rw [WriterLoop.write] at hst
  split at hst
  · rename_i draining msg hpc
    obtain rfl := Option.some.inj hst
    have hnot : s.closer ≠ .done := fun hc => absurd (hpc.symm.trans (h.done hc)) nofun
    have hd := h.draining
    rw [hpc] at hd
    refine { h with draining := ?_, exited := ?_, done := fun hc => absurd hc hnot }
    · cases draining with
      | true => exact fun _ => hd rfl
      | false => cases ok <;> simp [Writer.Draining]
    · cases draining with
      | true => exact nofun
      | false =>
        cases ok with
        | true => exact nofun
        | false => exact fun _ => .inl ⟨(msg, false), by simp, rfl⟩
  · cases hst

theorem Stops.close (h : s.Stops) (hst : s.close = some s') : s'.Stops := by
  rw [WriterLoop.close] at hst
  split at hst
  · rename_i hc
    split_ifs at hst with hopen
    obtain rfl := Option.some.inj hst
    have hfailed (hw : s.writer = .exited) : s.Failed := by
      refine (h.exited hw).resolve_right ?_
      rintro ⟨n, hn, -⟩
      exact absurd ((h.opened hopen).symm.trans hn) nofun
    exact
      { opened := nofun
        closedAt := fun _ => ⟨_, rfl, le_rfl⟩
        idle := fun _ => rfl
        stopping := fun _ => rfl
        draining := h.draining
        exited := fun hw => .inl (hfailed hw)
        done := nofun }
  · rename_i hc
    obtain rfl := Option.some.inj hst
    have hclosed := h.idle (hc ▸ nofun)
    exact { h with
      idle := fun _ => hclosed, stopping := fun _ => hclosed, draining := fun _ => rfl,
      done := nofun }
  · rename_i hc
    split_ifs at hst with hw
    obtain rfl := Option.some.inj hst
    have hclosed := h.idle (hc ▸ nofun)
    exact { h with idle := fun _ => hclosed, done := fun _ => hw }
  · cases hst

/-- Every step has the writer drain when it is to stop only. -/
theorem Stops.step (h : s.Stops) (hwf : s.Wf queue r) {l : Label} (hst : s.step l = some s') :
    s'.Stops := by
  cases l with
  | send msg =>
    simp only [WriterLoop.step, send] at hst
    split at hst
    · obtain rfl := Option.some.inj hst
      split_ifs
      · exact { h with }
      · exact h
    · cases hst
  | push => exact h.push hst
  | pop => exact h.pop hwf hst
  | write ok => exact h.write hst
  | close => exact h.close hst

/-! ## A `Write` that fails -/

/-- The writer ends, or drains, after a failed `Write`, and has written no more. -/
structure Halts (s : WriterLoop) : Prop where
  halts : s.Failed → s.writer = .pop true ∨ s.writer = .exited
  stops : s.StopsAtFailure

theorem Halts.pop (h : s.Halts) (hl : s.DrainsNothing .pop) (hst : s.pop = some s') : s'.Halts := by
  have hnot (hne : s.writer ≠ .pop true) (hex : s.writer ≠ .exited) : ¬s.Failed :=
    fun hf => (h.halts hf).elim hne hex
  rw [WriterLoop.pop] at hst
  split at hst
  · rename_i hpc
    obtain rfl := Option.some.inj hst
    exact { h with halts := fun hf => absurd hf (hnot (hpc ▸ nofun) (hpc ▸ nofun)) }
  · rename_i draining hpc
    split_ifs at hst with heq hdrain
    · exact Option.some.inj hst ▸ { h with halts := fun _ => .inr rfl }
    · obtain rfl := Option.some.inj hst
      refine { h with halts := fun hf => absurd hf (hnot ?_ (hpc ▸ nofun)) }
      rw [hpc]
      exact fun hpop => hdrain (Writer.pop.inj hpop)
    · -- The queue is not empty, so no `Write` has failed.
      obtain ⟨msg, -, rfl⟩ := Option.map_eq_some_iff.1 hst
      refine { h with halts := fun hf => absurd hf fun hf => ?_ }
      rcases h.halts hf with hpop | hex
      · exact heq (hl hpop hf)
      · exact absurd (hpc.symm.trans hex) nofun
  · rename_i draining msg hpc
    obtain rfl := Option.some.inj hst
    exact { h with halts := fun hf => absurd hf (hnot (hpc ▸ nofun) (hpc ▸ nofun)) }
  · cases hst
  · cases hst

theorem Halts.write (h : s.Halts) {ok : Bool} (hst : s.write ok = some s') : s'.Halts := by
  rw [WriterLoop.write] at hst
  split at hst
  · rename_i draining msg hpc
    obtain rfl := Option.some.inj hst
    have hnot : ¬s.Failed := fun hf => (h.halts hf).elim
      (fun hpop => absurd (hpc.symm.trans hpop) nofun) fun hex => absurd (hpc.symm.trans hex) nofun
    constructor
    · rintro ⟨w, hw, hfail⟩
      rcases List.mem_append.1 hw with hw | hw
      · exact absurd ⟨w, hw, hfail⟩ hnot
      · obtain rfl := List.mem_singleton.1 hw
        obtain rfl : ok = false := hfail
        cases draining with
        | true => exact .inl rfl
        | false => exact .inr rfl
    · intro i w hw hfail
      dsimp only at hw ⊢
      rcases Nat.lt_or_ge i s.written.length with hlt | hge
      · rw [List.getElem?_append_left hlt] at hw
        exact absurd ⟨w, List.mem_of_getElem? hw, hfail⟩ hnot
      · have hlt := (List.getElem?_eq_some_iff.1 hw).1
        rw [List.length_append, List.length_singleton] at hlt ⊢
        omega
  · cases hst

/-- After a `Write` that has failed there is none, if the drain finds nothing. -/
theorem Halts.step (h : s.Halts) {l : Label} (hl : s.DrainsNothing l) (hst : s.step l = some s') :
    s'.Halts := by
  cases l with
  | send msg =>
    simp only [WriterLoop.step, send] at hst
    split at hst
    · obtain rfl := Option.some.inj hst
      split_ifs
      · exact ⟨h.halts, h.stops⟩
      · exact h
    · cases hst
  | push =>
    simp only [WriterLoop.step, push] at hst
    split at hst
    · cases hst
    · exact Option.some.inj hst ▸ ⟨h.halts, h.stops⟩
    · exact Option.some.inj hst ▸ ⟨h.halts, h.stops⟩
    · exact Option.some.inj hst ▸ ⟨h.halts, h.stops⟩
  | pop => exact h.pop hl hst
  | write ok => exact h.write hst
  | close =>
    simp only [WriterLoop.step, close] at hst
    split at hst
    · split_ifs at hst
      exact Option.some.inj hst ▸ ⟨h.halts, h.stops⟩
    · exact Option.some.inj hst ▸ ⟨h.halts, h.stops⟩
    · split_ifs at hst
      exact Option.some.inj hst ▸ ⟨h.halts, h.stops⟩
    · cases hst

/-! ## The runs -/

theorem reachable_stops (hs : system.Reachable s) : (∃ queue r, s.Wf queue r) ∧ s.Stops := by
  refine hs.invariant (I := fun s => (∃ queue r, s.Wf queue r) ∧ s.Stops) ?_ ?_
  · refine ⟨⟨[], 0, ?_⟩, ?_⟩
    · exact
        { length := List.length_replicate
          head := rfl
          tail := rfl
          holds := .nil
          sender := trivial
          popped := nofun
          pushed := rfl }
    · exact
        { opened := fun _ => rfl
          closedAt := nofun
          idle := fun hc => absurd rfl hc
          stopping := nofun
          draining := nofun
          exited := nofun
          done := nofun }
  · rintro s l s' ⟨⟨queue, r, hwf⟩, h⟩ hst
    exact ⟨hwf.step hst, h.step hwf hst⟩

theorem reachable_delivered (hs : system.Reachable s) : s.Delivered := by
  obtain ⟨⟨queue, r, hwf⟩, h⟩ := reachable_stops hs
  refine ⟨?_, h.done, fun hc => ?_⟩
  · rw [hwf.pushed, List.append_assoc]
    exact List.prefix_append _ _
  · obtain ⟨n, hn, -⟩ := h.closedAt (h.idle (hc ▸ nofun))
    refine ⟨n, hn, ?_⟩
    rcases h.exited (h.done hc) with hf | ⟨n', hn', hle⟩
    · exact .inr hf
    · exact .inl (Option.some.inj (hn.symm.trans hn') ▸ hle)

/-- What is pushed is delivered in every run, and nothing is written after a
    failure in those in which the drain then finds the queue empty. -/
theorem delivered (hs : system.Reachable s) :
    s.Delivered ∧ (system.ReachableIf DrainsNothing s → s.StopsAtFailure) := by
  refine ⟨reachable_delivered hs, fun hif => ?_⟩
  have h : s.Halts := by
    refine hif.invariant (I := Halts) ⟨?_, ?_⟩ fun s l s' h hl hst => h.step hl hst
    · rintro ⟨w, hw, -⟩
      cases hw
    · intro i w hw
      cases hw
  exact h.stops

/-- The labels of a send of two messages, and of a close. -/
def twoSends : List Label :=
  [.send .cancelGeneration, .push, .push, .push,
    .send (.transferFailed "+14155550101" "busy" "t1"), .push, .push, .push, .close, .close]

/-- The first `Write` of the drain fails, and the drain goes on. -/
theorem not_stopsAtFailure : ¬ ∀ s, system.Reachable s → s.StopsAtFailure := by
  intro h
  have hrun : (system.exec system.init
      (twoSends ++ ([.pop, .pop, .pop, .write false, .pop, .pop, .write true] : List Label))).map
      (fun s => s.written.map Prod.snd) = some [false, true] := by
    decide
  obtain ⟨s, hs, hwritten⟩ := Option.map_eq_some_iff.1 hrun
  have hreachable : system.Reachable s := System.Reachable.exec .init hs
  have hget : (s.written[0]?).map Prod.snd = some false := by
    rw [← List.getElem?_map, hwritten]
    rfl
  obtain ⟨w, hw, hfail⟩ := Option.map_eq_some_iff.1 hget
  have hlength : s.written.length = 2 := by
    rw [← List.length_map (f := Prod.snd), hwritten]
    rfl
  have := h s hreachable 0 w hw hfail
  omega

/-- The second `Write` of the drain fails, and both messages have been written. -/
theorem delivered_two : ∃ s, system.ReachableIf DrainsNothing s ∧ s.closer = .done ∧
    s.Delivered ∧ s.StopsAtFailure ∧ s.written.length = 2 := by
  have hrun : (system.execIf DrainsNothing system.init
      (twoSends ++ ([.pop, .pop, .pop, .write true, .pop, .pop, .write false, .pop, .close] :
        List Label))).map
      (fun s => (s.closer, s.written.length)) = some (.done, 2) := by
    decide
  obtain ⟨s, hs, heq⟩ := Option.map_eq_some_iff.1 hrun
  rw [Prod.mk.injEq] at heq
  have hreachable := System.ReachableIf.init.execIf hs
  obtain ⟨hdelivered, hstops⟩ := delivered hreachable.reachable
  exact ⟨s, hreachable, heq.1, hdelivered, hstops hreachable, heq.2⟩

end WriterLoop

end Yuviz.Gateway
