import Mathlib
import Yuviz.Python.Dict
import Yuviz.System

/-!
# The nodes of the service

Each process of the service is a node, which writes the rows of the calls it serves. When
it is gone nobody ends them, so that the nodes watch each other: every one leaves a sign of
life from time to time, and closes the calls of those that have left none for a while
(`heartbeatLoop`). A node that starts closes what was left open under its name.

* `nodes_watched`: with the loops in time, no call is closed that a process serves, and
  none is open for long whose process is gone.
* `nodes_silenced`: a loop that the database has failed once is over, and then the calls
  of a process that runs are closed.

A label is a statement of a node, or the passing of a second. No two processes have one
name at a time, and no two calls one session id.
-/

namespace Yuviz.Conversation.Nodes

open Python

/-- A row of `calls`. -/
structure CallRow where
  sessionId : String
  convNode : String
  startedAt : ℕ
  endedAt : Option ℕ
  closeReason : Option String
  deriving DecidableEq

/-- What the loop of a process is about to do, and since when. -/
inductive Stage
  | beating (since : ℕ)
  | deadNodes (since : ℕ)
  | inactiveCalls (since : ℕ)
  | sleeping (wakeup : ℕ)
  /-- It has raised an exception. -/
  | ended
  deriving DecidableEq

/-- A process, with the times of its last sign of life and of its last look for dead nodes. -/
structure Process where
  stage : Stage
  lastBeat : Option ℕ
  lastSweep : Option ℕ
  deriving DecidableEq

structure Cluster where
  now : ℕ
  calls : List CallRow
  /-- The sessions of `transcript_entries`, with the times. -/
  entries : List (String × ℕ)
  /-- `conversation_node_heartbeats` -/
  heartbeats : Dict String ℕ
  processes : Dict String Process
  /-- The sessions that are served, with the nodes. -/
  served : List (String × String)
  /-- When a node has last looked for dead ones. -/
  swept : ℕ
  deriving DecidableEq

def heartbeatIntervalS : ℕ := 15

def staleAfterSeconds : ℕ := heartbeatIntervalS * 3

def inactiveCallTimeoutS : ℕ := 300

namespace Cluster

variable (s : Cluster)

/-- The node has left a sign of life lately. -/
def Seen (node : String) : Prop := ∃ t ∈ s.heartbeats.get? node, s.now ≤ t + staleAfterSeconds

instance (node : String) : Decidable (s.Seen node) :=
  inferInstanceAs (Decidable (∃ t ∈ s.heartbeats.get? node, s.now ≤ t + staleAfterSeconds))

/-- The call has begun lately, or something has been said in it. -/
def IsActive (call : CallRow) : Prop :=
  s.now ≤ call.startedAt + inactiveCallTimeoutS ∨
    ∃ entry ∈ s.entries, entry.1 = call.sessionId ∧ s.now ≤ entry.2 + inactiveCallTimeoutS

instance (call : CallRow) : Decidable (s.IsActive call) :=
  inferInstanceAs (Decidable (_ ∨ ∃ entry ∈ s.entries, _ ∧ _))

/-- `UPDATE calls SET ended_at = NOW(), close_reason = … WHERE ended_at IS NULL AND …` -/
def close (reason : String) (p : CallRow → Prop) [DecidablePred p] : Cluster :=
  { s with
    calls := s.calls.map fun call =>
      if call.endedAt = none ∧ p call then
        { call with endedAt := some s.now, closeReason := some reason }
      else call }

def reconcileStaleCalls (node : String) : Cluster :=
  s.close "reconciled_stale" fun call => call.convNode = node

def heartbeat (node : String) : Cluster :=
  { s with heartbeats := Dict.set s.heartbeats node s.now }

def reconcileDeadNodes : Cluster :=
  { s.close "reconciled_dead_node" fun call => ¬ s.Seen call.convNode with swept := s.now }

def reconcileInactiveCalls : Cluster :=
  s.close "reconciled_inactive" fun call => ¬ s.IsActive call

def beginCall (sessionId node : String) : Cluster :=
  { s with
    calls := s.calls ++ [⟨sessionId, node, s.now, none, none⟩]
    served := s.served ++ [(sessionId, node)] }

def recordTurn (sessionId : String) : Cluster :=
  { s with entries := s.entries ++ [(sessionId, s.now)] }

def endCall (sessionId reason : String) : Cluster :=
  { s with
    calls := s.calls.map fun call =>
      if call.sessionId = sessionId then
        { call with endedAt := some s.now, closeReason := some reason }
      else call
    served := s.served.filter (·.1 ≠ sessionId) }

def setProcess (node : String) (p : Process) : Cluster :=
  { s with processes := Dict.set s.processes node p }

/-- `_heartbeat_loop`, up to its next `await`. The heartbeat catches its exceptions, and
    the other statements do not. -/
def heartbeatLoop (node : String) (p : Process) (ok : Bool) : Option Cluster :=
  match p.stage, ok with
  | .beating _, true =>
    some ((s.heartbeat node).setProcess node ⟨.deadNodes s.now, some s.now, p.lastSweep⟩)
  | .beating _, false => some (s.setProcess node ⟨.deadNodes s.now, p.lastBeat, p.lastSweep⟩)
  | .deadNodes _, true =>
    some (s.reconcileDeadNodes.setProcess node ⟨.inactiveCalls s.now, p.lastBeat, some s.now⟩)
  | .inactiveCalls _, true =>
    some (s.reconcileInactiveCalls.setProcess node
      ⟨.sleeping (s.now + heartbeatIntervalS), p.lastBeat, p.lastSweep⟩)
  | .deadNodes _, false | .inactiveCalls _, false =>
    some (s.setProcess node ⟨.ended, p.lastBeat, p.lastSweep⟩)
  | .sleeping wakeup, _ =>
    if wakeup ≤ s.now then some (s.setProcess node ⟨.beating s.now, p.lastBeat, p.lastSweep⟩)
    else none
  | .ended, _ => none

end Cluster

inductive Label
  | tick
  | start (node : String)
  | crash (node : String)
  /-- The loop of the node goes on; the statement is carried out, or it fails. -/
  | loop (node : String) (ok : Bool)
  | beginCall (sessionId node : String)
  | recordTurn (sessionId : String)
  | endCall (sessionId reason : String)
  deriving DecidableEq

def nodes : System Cluster Label where
  init := ⟨0, [], [], [], [], [], 0⟩
  step s
    | .tick => some { s with now := s.now + 1 }
    | .start node =>
      if (s.processes.get? node).isSome then none
      else some ((s.reconcileStaleCalls node).setProcess node ⟨.beating s.now, none, none⟩)
    | .crash node =>
      if (s.processes.get? node).isSome then
        some { s with
          processes := Dict.del s.processes node
          served := s.served.filter (·.2 ≠ node) }
      else none
    | .loop node ok => (s.processes.get? node).bind fun p => s.heartbeatLoop node p ok
    | .beginCall sessionId node =>
      if (s.processes.get? node).isSome ∧ sessionId ∉ s.calls.map CallRow.sessionId then
        some (s.beginCall sessionId node)
      else none
    | .recordTurn sessionId =>
      if sessionId ∈ s.served.map Prod.fst then some (s.recordTurn sessionId) else none
    | .endCall sessionId reason =>
      if sessionId ∈ s.served.map Prod.fst then some (s.endCall sessionId reason) else none

/-! ### The loops in time -/

/-- When the loop is to go on. -/
def Stage.due : Stage → ℕ
  | beating t | deadNodes t | inactiveCalls t | sleeping t => t
  | ended => 0

/-- How long after the last sign of life that is, at most, if every step takes `d` seconds. -/
def Stage.afterBeat (d : ℕ) : Stage → ℕ
  | deadNodes _ | ended => 0
  | inactiveCalls _ => d
  | sleeping _ => 2 * d + heartbeatIntervalS
  | beating _ => 3 * d + heartbeatIntervalS

/-- How long after the last look for dead nodes. -/
def Stage.afterSweep (d : ℕ) : Stage → ℕ
  | inactiveCalls _ | ended => 0
  | sleeping _ => d + heartbeatIntervalS
  | beating _ => 2 * d + heartbeatIntervalS
  | deadNodes _ => 3 * d + heartbeatIntervalS

/-- The loops go on in time and nothing fails them, a node takes calls once it has left a
    sign of life, and something is said in each call that is served. -/
def Timely (d : ℕ) (s : Cluster) : Label → Prop
  | .tick => ∀ p ∈ s.processes, s.now + 1 ≤ p.2.stage.due + d
  | .loop _ ok => ok = true ∧
    ∀ call ∈ s.calls, call.sessionId ∈ s.served.map Prod.fst → s.IsActive call
  | .beginCall _ node => ∃ p ∈ s.processes.get? node, p.lastBeat.isSome
  | _ => True

instance (d : ℕ) (s : Cluster) : DecidablePred (Timely d s)
  | .tick => inferInstanceAs (Decidable (∀ p ∈ s.processes, _ ≤ _))
  | .loop _ ok => inferInstanceAs (Decidable (ok = true ∧ ∀ call ∈ s.calls, _ → _))
  | .beginCall _ node => inferInstanceAs (Decidable (∃ p ∈ s.processes.get? node, _))
  | .start _ | .crash _ | .recordTurn _ | .endCall _ _ => .isTrue trivial

structure Inv (d : ℕ) (s : Cluster) : Prop where
  swept_le : s.swept ≤ s.now
  heartbeat_le : ∀ node t, s.heartbeats.get? node = some t → t ≤ s.now
  timely : ∀ node p, s.processes.get? node = some p →
    p.stage ≠ .ended ∧ s.now ≤ p.stage.due + d
  beat : ∀ node p t, s.processes.get? node = some p → p.lastBeat = some t →
    (∃ t', s.heartbeats.get? node = some t' ∧ t ≤ t') ∧ p.stage.due ≤ t + p.stage.afterBeat d
  sweep : ∀ node p t, s.processes.get? node = some p → p.lastSweep = some t →
    t ≤ s.swept ∧ p.stage.due ≤ t + p.stage.afterSweep d
  serving : ∀ c ∈ s.served, (∃ p, s.processes.get? c.2 = some p ∧ p.lastBeat.isSome) ∧
    c.1 ∈ s.calls.map CallRow.sessionId
  opened : ∀ c ∈ s.served, ∀ call ∈ s.calls, call.sessionId = c.1 →
    call.convNode = c.2 ∧ call.endedAt = none
  /-- An open call is one of a node that had been seen when one last looked, or has begun since. -/
  signs : ∀ call ∈ s.calls, call.endedAt = none →
    (∃ t, s.heartbeats.get? call.convNode = some t ∧ s.swept ≤ t + staleAfterSeconds) ∨
      s.swept ≤ call.startedAt

variable {d : ℕ} {s s' : Cluster} {l : Label} {node reason : String} {p p' : Process}
  {ok : Bool} {call : CallRow} {sessionId : String}

theorem inv_init : Inv d nodes.init where
  swept_le := le_rfl
  heartbeat_le _ _ h := by cases h
  timely _ _ h := by cases h
  beat _ _ _ h := by cases h
  sweep _ _ _ h := by cases h
  serving _ h := absurd h List.not_mem_nil
  opened _ h := absurd h List.not_mem_nil
  signs _ h := absurd h List.not_mem_nil

/-- Who serves a call has left a sign of life in time. -/
theorem Inv.seen (hs : Inv d s) (hd : 4 * d + heartbeatIntervalS ≤ staleAfterSeconds)
    {c : String × String} (hc : c ∈ s.served) : s.Seen c.2 := by
  obtain ⟨p, hp, hsome⟩ := (hs.serving c hc).1
  obtain ⟨t, ht⟩ := Option.isSome_iff_exists.1 hsome
  obtain ⟨⟨t', ht', hle⟩, hdue⟩ := hs.beat c.2 p t hp ht
  have hnow := (hs.timely c.2 p hp).2
  have hafter : p.stage.afterBeat d ≤ 3 * d + heartbeatIntervalS := by
    cases p.stage <;> simp only [Stage.afterBeat] <;> omega
  exact ⟨t', ht', by omega⟩

theorem mem_close {q : CallRow → Prop} [DecidablePred q] (h : call ∈ (s.close reason q).calls) :
    ∃ old ∈ s.calls, call.sessionId = old.sessionId ∧ call.convNode = old.convNode ∧
      call.startedAt = old.startedAt ∧ (call.endedAt = none → old.endedAt = none ∧ ¬ q old) ∧
      (¬ q old → call = old) := by
  obtain ⟨old, hold, rfl⟩ := List.mem_map.1 h
  refine ⟨old, hold, ?_⟩
  split_ifs with hclosed
  · exact ⟨rfl, rfl, rfl, by simp, fun hno => absurd hclosed.2 hno⟩
  · exact ⟨rfl, rfl, rfl, fun hopen => ⟨hopen, fun hq => hclosed ⟨hopen, hq⟩⟩, fun _ => rfl⟩

theorem map_sessionId_close {q : CallRow → Prop} [DecidablePred q] :
    (s.close reason q).calls.map CallRow.sessionId = s.calls.map CallRow.sessionId := by
  rw [Cluster.close, List.map_map]
  refine List.map_congr_left fun call _ => ?_
  rw [Function.comp_apply]
  split_ifs <;> rfl

/-- None of the calls that are closed is served. -/
theorem Inv.close {q : CallRow → Prop} [DecidablePred q] (hs : Inv d s)
    (hq : ∀ c ∈ s.served, ∀ call ∈ s.calls, call.sessionId = c.1 → ¬ q call) :
    Inv d (s.close reason q) := by
  refine ⟨hs.swept_le, hs.heartbeat_le, hs.timely, hs.beat, hs.sweep, fun c hc => ?_,
    fun c hc call hcall hid => ?_, fun call hcall hopen => ?_⟩
  · rw [map_sessionId_close]
    exact hs.serving c hc
  · obtain ⟨old, hold, hsame, -, -, -, hkept⟩ := mem_close hcall
    rw [hsame] at hid
    rw [hkept (hq c hc old hold hid)]
    exact hs.opened c hc old hold hid
  · obtain ⟨old, hold, -, hnode, hstarted, hwas, -⟩ := mem_close hcall
    rw [hnode, hstarted]
    exact hs.signs old hold (hwas hopen).1

theorem Inv.heartbeat (hs : Inv d s) : Inv d (s.heartbeat node) := by
  have hset (other : String) : (s.heartbeat node).heartbeats.get? other =
      if other = node then some s.now else s.heartbeats.get? other := Dict.get?_set
  refine ⟨hs.swept_le, fun other t ht => ?_, hs.timely, fun other p t hp ht => ?_, hs.sweep,
    hs.serving, hs.opened, fun call hcall hopen => ?_⟩
  · rw [hset] at ht
    split_ifs at ht
    · exact (Option.some.inj ht).ge
    · exact hs.heartbeat_le other t ht
  · obtain ⟨⟨t', ht', hle⟩, hdue⟩ := hs.beat other p t hp ht
    refine ⟨?_, hdue⟩
    rw [hset]
    split_ifs
    · exact ⟨_, rfl, hle.trans (hs.heartbeat_le other t' ht')⟩
    · exact ⟨t', ht', hle⟩
  · rw [hset]
    split_ifs
    · exact .inl ⟨_, rfl, hs.swept_le.trans (Nat.le_add_right _ _)⟩
    · exact hs.signs call hcall hopen

theorem Inv.reconcileDeadNodes (hs : Inv d s)
    (hd : 4 * d + heartbeatIntervalS ≤ staleAfterSeconds) : Inv d s.reconcileDeadNodes := by
  have hclose : Inv d (s.close "reconciled_dead_node" fun call => ¬ s.Seen call.convNode) := by
    refine hs.close fun c hc call hcall hid => not_not.2 ?_
    rw [(hs.opened c hc call hcall hid).1]
    exact hs.seen hd hc
  refine ⟨le_rfl, hclose.heartbeat_le, hclose.timely, hclose.beat, fun other p t hp ht => ?_,
    hclose.serving, hclose.opened, fun call hcall hopen => .inl ?_⟩
  · exact (hs.sweep other p t hp ht).imp_left fun hle => hle.trans hs.swept_le
  · obtain ⟨old, -, -, hnode, -, hwas, -⟩ := mem_close hcall
    obtain ⟨t, ht, hle⟩ := not_not.1 (hwas hopen).2
    exact ⟨t, hnode ▸ ht, hle⟩

theorem Inv.setProcess (hs : Inv d s) (hstage : p.stage ≠ .ended ∧ s.now ≤ p.stage.due + d)
    (hbeat : ∀ t, p.lastBeat = some t →
      (∃ t', s.heartbeats.get? node = some t' ∧ t ≤ t') ∧
        p.stage.due ≤ t + p.stage.afterBeat d)
    (hsweep : ∀ t, p.lastSweep = some t → t ≤ s.swept ∧ p.stage.due ≤ t + p.stage.afterSweep d)
    (hserving : ∀ c ∈ s.served, c.2 = node → p.lastBeat.isSome) :
    Inv d (s.setProcess node p) := by
  have hset {other : String} {p' : Process}
      (h : (s.setProcess node p).processes.get? other = some p') :
      other = node ∧ p' = p ∨ s.processes.get? other = some p' := by
    rw [Cluster.setProcess, Dict.get?_set] at h
    split_ifs at h with heq
    · exact .inl ⟨heq, (Option.some.inj h).symm⟩
    · exact .inr h
  refine ⟨hs.swept_le, hs.heartbeat_le, fun other p' hp' => ?_, fun other p' t hp' => ?_,
    fun other p' t hp' => ?_, fun c hc => ⟨?_, (hs.serving c hc).2⟩, hs.opened, hs.signs⟩
  · rcases hset hp' with ⟨-, rfl⟩ | hp'
    · exact hstage
    · exact hs.timely other p' hp'
  · rcases hset hp' with ⟨rfl, rfl⟩ | hp'
    · exact hbeat t
    · exact hs.beat other p' t hp'
  · rcases hset hp' with ⟨-, rfl⟩ | hp'
    · exact hsweep t
    · exact hs.sweep other p' t hp'
  · rw [Cluster.setProcess, Dict.get?_set]
    split_ifs with heq
    · exact ⟨p, rfl, hserving c hc heq⟩
    · exact (hs.serving c hc).1

/-- A step of a loop in time, which nothing fails. -/
theorem Inv.loop (hs : Inv d s) (hd : 4 * d + heartbeatIntervalS ≤ staleAfterSeconds)
    (hactive : ∀ call ∈ s.calls, call.sessionId ∈ s.served.map Prod.fst → s.IsActive call)
    (hp : s.processes.get? node = some p) (h : s.heartbeatLoop node p true = some s') :
    Inv d s' := by
  obtain ⟨stage, lastBeat, lastSweep⟩ := p
  have hnow := (hs.timely node _ hp).2
  have hbeat (t : ℕ) := hs.beat node _ t hp
  have hsweep (t : ℕ) := hs.sweep node _ t hp
  have hserving (c : String × String) (hc : c ∈ s.served) (heq : c.2 = node) :
      lastBeat.isSome := by
    obtain ⟨p', hp', hsome⟩ := (hs.serving c hc).1
    obtain rfl := Option.some.inj (hp.symm.trans (heq ▸ hp'))
    exact hsome
  cases stage with
  | beating since =>
    obtain rfl := Option.some.inj h
    refine hs.heartbeat.setProcess ⟨by simp, Nat.le_add_right _ _⟩ (fun t ht => ?_)
      (fun t ht => ?_) fun _ _ _ => rfl
    · obtain rfl := Option.some.inj ht
      exact ⟨⟨_, Dict.get?_set.trans (if_pos rfl), le_rfl⟩, le_rfl⟩
    · obtain ⟨hle, hdue⟩ := hsweep t ht
      simp only [Stage.due, Stage.afterSweep] at hnow hdue ⊢
      exact ⟨hle, by omega⟩
  | deadNodes since =>
    obtain rfl := Option.some.inj h
    refine (hs.reconcileDeadNodes hd).setProcess ⟨by simp, Nat.le_add_right _ _⟩ (fun t ht => ?_)
      (fun t ht => ?_) hserving
    · obtain ⟨hsign, hdue⟩ := hbeat t ht
      simp only [Stage.due, Stage.afterBeat] at hnow hdue ⊢
      exact ⟨hsign, by omega⟩
    · obtain rfl := Option.some.inj ht
      exact ⟨le_rfl, le_rfl⟩
  | inactiveCalls since =>
    obtain rfl := Option.some.inj h
    have hclose : Inv d s.reconcileInactiveCalls :=
      hs.close fun c hc call hcall hid =>
        not_not.2 (hactive call hcall (hid ▸ List.mem_map_of_mem hc))
    refine hclose.setProcess ⟨by simp, ?_⟩ (fun t ht => ?_) (fun t ht => ?_) hserving
    · exact (Nat.le_add_right _ heartbeatIntervalS).trans (Nat.le_add_right _ _)
    · obtain ⟨hsign, hdue⟩ := hbeat t ht
      simp only [Stage.due, Stage.afterBeat] at hnow hdue ⊢
      exact ⟨hsign, by omega⟩
    · obtain ⟨hle, hdue⟩ := hsweep t ht
      simp only [Stage.due, Stage.afterSweep] at hnow hdue ⊢
      exact ⟨hle, by omega⟩
  | sleeping wakeup =>
    change (if wakeup ≤ s.now then _ else _) = some s' at h
    split_ifs at h
    obtain rfl := Option.some.inj h
    refine hs.setProcess ⟨by simp, Nat.le_add_right _ _⟩ (fun t ht => ?_) (fun t ht => ?_) hserving
    · obtain ⟨hsign, hdue⟩ := hbeat t ht
      simp only [Stage.due, Stage.afterBeat] at hnow hdue ⊢
      exact ⟨hsign, by omega⟩
    · obtain ⟨hle, hdue⟩ := hsweep t ht
      simp only [Stage.due, Stage.afterSweep] at hnow hdue ⊢
      exact ⟨hle, by omega⟩
  | ended => cases h

theorem Inv.crash (hs : Inv d s) :
    Inv d { s with
      processes := Dict.del s.processes node
      served := s.served.filter (·.2 ≠ node) } := by
  have hdel {other : String} {p : Process} (h : (Dict.del s.processes node).get? other = some p) :
      s.processes.get? other = some p := (Dict.get?_del_eq_some h).2
  refine ⟨hs.swept_le, hs.heartbeat_le, fun other p hp => hs.timely other p (hdel hp),
    fun other p t hp => hs.beat other p t (hdel hp), fun other p t hp =>
    hs.sweep other p t (hdel hp), fun c hc => ?_, fun c hc => ?_, hs.signs⟩
  · obtain ⟨hc, hne⟩ := List.mem_filter.1 hc
    refine ⟨?_, (hs.serving c hc).2⟩
    rw [Dict.get?_del_ne (by simpa using hne)]
    exact (hs.serving c hc).1
  · exact hs.opened c (List.mem_of_mem_filter hc)

theorem Inv.beginCall (hs : Inv d s) (hp : ∃ p ∈ s.processes.get? node, p.lastBeat.isSome)
    (hnew : sessionId ∉ s.calls.map CallRow.sessionId) : Inv d (s.beginCall sessionId node) := by
  have hmap : (s.beginCall sessionId node).calls.map CallRow.sessionId =
      s.calls.map CallRow.sessionId ++ [sessionId] := List.map_append
  refine ⟨hs.swept_le, hs.heartbeat_le, hs.timely, hs.beat, hs.sweep, fun c hc => ?_,
    fun c hc call hcall hid => ?_, fun call hcall hopen => ?_⟩
  · rw [hmap]
    rcases List.mem_append.1 hc with hc | hc
    · exact (hs.serving c hc).imp_right (List.mem_append_left _)
    · obtain rfl := List.mem_singleton.1 hc
      exact ⟨hp, List.mem_append_right _ (List.mem_singleton_self _)⟩
  · rcases List.mem_append.1 hc with hc | hc <;> rcases List.mem_append.1 hcall with hcall | hcall
    · exact hs.opened c hc call hcall hid
    · obtain rfl := List.mem_singleton.1 hcall
      have hmem : sessionId ∈ s.calls.map CallRow.sessionId := by
        rw [show sessionId = c.1 from hid]
        exact (hs.serving c hc).2
      exact absurd hmem hnew
    · obtain rfl := List.mem_singleton.1 hc
      exact absurd (List.mem_map.2 ⟨call, hcall, hid⟩) hnew
    · obtain rfl := List.mem_singleton.1 hc
      obtain rfl := List.mem_singleton.1 hcall
      exact ⟨rfl, rfl⟩
  · rcases List.mem_append.1 hcall with hcall | hcall
    · exact hs.signs call hcall hopen
    · obtain rfl := List.mem_singleton.1 hcall
      exact .inr hs.swept_le

theorem Inv.endCall (hs : Inv d s) : Inv d (s.endCall sessionId reason) := by
  have hmap : (s.endCall sessionId reason).calls.map CallRow.sessionId =
      s.calls.map CallRow.sessionId := by
    rw [Cluster.endCall, List.map_map]
    refine List.map_congr_left fun call _ => ?_
    rw [Function.comp_apply]
    split_ifs <;> rfl
  have hkept {call : CallRow} (h : call ∈ (s.endCall sessionId reason).calls) :
      call.sessionId = sessionId ∧ call.endedAt.isSome ∨ call ∈ s.calls := by
    obtain ⟨old, hold, rfl⟩ := List.mem_map.1 h
    split_ifs with heq
    · exact .inl ⟨heq, rfl⟩
    · exact .inr hold
  refine ⟨hs.swept_le, hs.heartbeat_le, hs.timely, hs.beat, hs.sweep, fun c hc => ?_,
    fun c hc call hcall hid => ?_, fun call hcall hopen => ?_⟩
  · rw [hmap]
    exact hs.serving c (List.mem_of_mem_filter hc)
  · obtain ⟨hc, hne⟩ := List.mem_filter.1 hc
    rcases hkept hcall with ⟨heq, -⟩ | hcall
    · simp [← hid, heq] at hne
    · exact hs.opened c hc call hcall hid
  · rcases hkept hcall with ⟨-, hsome⟩ | hcall
    · rw [hopen] at hsome
      cases hsome
    · exact hs.signs call hcall hopen

theorem Inv.step (hs : Inv d s) (hd : 4 * d + heartbeatIntervalS ≤ staleAfterSeconds)
    (hg : Timely d s l) (h : nodes.step s l = some s') : Inv d s' := by
  cases l with
  | tick =>
    obtain rfl := Option.some.inj h
    refine ⟨hs.swept_le.trans (Nat.le_succ _), fun node t ht =>
      (hs.heartbeat_le node t ht).trans (Nat.le_succ _), fun node p hp => ?_, hs.beat, hs.sweep,
      hs.serving, hs.opened, hs.signs⟩
    exact ⟨(hs.timely node p hp).1, hg _ (Dict.mem_of_get?_eq_some hp)⟩
  | start node =>
    simp only [nodes] at h
    split_ifs at h with hsome
    obtain rfl := Option.some.inj h
    -- No call is served under the name of a node that does not run.
    have hne (c : String × String) (hc : c ∈ s.served) : c.2 ≠ node := by
      rintro rfl
      obtain ⟨p, hp, -⟩ := (hs.serving c hc).1
      exact hsome (by rw [hp]; rfl)
    have hclose : Inv d (s.reconcileStaleCalls node) :=
      hs.close fun c hc call hcall hid heq =>
        hne c hc ((hs.opened c hc call hcall hid).1.symm.trans heq)
    exact hclose.setProcess ⟨by simp, Nat.le_add_right _ _⟩ (by simp) (by simp)
      fun c hc heq => absurd heq (hne c hc)
  | crash node =>
    simp only [nodes] at h
    split_ifs at h
    exact Option.some.inj h ▸ hs.crash
  | loop node ok =>
    obtain ⟨p, hp, h⟩ := Option.bind_eq_some_iff.1 h
    obtain ⟨rfl, hactive⟩ := hg
    exact hs.loop hd hactive hp h
  | beginCall sessionId node =>
    simp only [nodes] at h
    split_ifs at h with hnew
    exact Option.some.inj h ▸ hs.beginCall hg hnew.2
  | recordTurn sessionId =>
    simp only [nodes] at h
    split_ifs at h
    obtain rfl := Option.some.inj h
    exact ⟨hs.swept_le, hs.heartbeat_le, hs.timely, hs.beat, hs.sweep, hs.serving, hs.opened,
      hs.signs⟩
  | endCall sessionId reason =>
    simp only [nodes] at h
    split_ifs at h
    exact Option.some.inj h ▸ hs.endCall

/-- If no step of a loop takes more than `d` seconds, so that a round takes less than a node is
    thought alive, the call of each session that is served is open. And as long as some node
    looks, a call is open only if its node has left a sign of life, or the call has begun,
    within that time and a round. -/
theorem nodes_watched (hd : 4 * d + heartbeatIntervalS ≤ staleAfterSeconds)
    (hs : nodes.ReachableIf (Timely d) s) :
    (∀ c ∈ s.served, ∃ call ∈ s.calls, call.sessionId = c.1 ∧ call.convNode = c.2 ∧
      call.endedAt = none) ∧
    ∀ node p t, s.processes.get? node = some p → p.lastSweep = some t →
      ∀ call ∈ s.calls, call.endedAt = none →
        ∃ sign, (s.heartbeats.get? call.convNode = some sign ∨ call.startedAt = sign) ∧
          s.now ≤ sign + staleAfterSeconds + (4 * d + heartbeatIntervalS) := by
  have hinv : Inv d s := hs.invariant inv_init fun _ _ _ hs => hs.step hd
  refine ⟨fun c hc => ?_, fun node p t hp ht call hcall hopen => ?_⟩
  · obtain ⟨call, hcall, hid⟩ := List.mem_map.1 (hinv.serving c hc).2
    exact ⟨call, hcall, hid, hinv.opened c hc call hcall hid⟩
  · obtain ⟨hle, hdue⟩ := hinv.sweep node p t hp ht
    have hnow := (hinv.timely node p hp).2
    have hafter : p.stage.afterSweep d ≤ 3 * d + heartbeatIntervalS := by
      cases p.stage <;> simp only [Stage.afterSweep] <;> omega
    rcases hinv.signs call hcall hopen with ⟨sign, hsign, hswept⟩ | hswept
    · exact ⟨sign, .inl hsign, by omega⟩
    · exact ⟨call.startedAt, .inr rfl, by omega⟩

/-- Two nodes, the first of which is gone after it has begun a call. -/
private def firstGone : List Label :=
  [.start "conv:50051", .start "conv:50052", .loop "conv:50051" true, .loop "conv:50052" true,
    .beginCall "a1" "conv:50051", .beginCall "b1" "conv:50052", .loop "conv:50052" true, .tick,
    .crash "conv:50051", .loop "conv:50052" true]

private def afterCrash : Option Cluster := nodes.execIf (Timely 7) nodes.init firstGone

private theorem afterCrash_isSome : afterCrash.isSome := by decide

theorem nodes_watched_crash : ∃ s, afterCrash = some s ∧ s.served = [("b1", "conv:50052")] ∧
    ∀ c ∈ s.served, ∃ call ∈ s.calls, call.sessionId = c.1 ∧ call.convNode = c.2 ∧
      call.endedAt = none :=
  ⟨_, (Option.some_get afterCrash_isSome).symm, by decide,
    (nodes_watched (d := 7) (by decide)
      (.execIf .init (Option.some_get afterCrash_isSome).symm)).1⟩

/-! ### A loop that is over -/

theorem get?_heartbeatLoop {other : String} (h : s.heartbeatLoop node p ok = some s')
    (hne : other ≠ node) : s'.processes.get? other = s.processes.get? other ∧
      s'.heartbeats.get? other = s.heartbeats.get? other := by
  have hprocess {s₁ : Cluster} {p' : Process} (hs₁ : s₁.processes = s.processes) :
      (s₁.setProcess node p').processes.get? other = s.processes.get? other := by
    rw [Cluster.setProcess, Dict.get?_set, if_neg hne, hs₁]
  unfold Cluster.heartbeatLoop at h
  split at h
  · obtain rfl := Option.some.inj h
    exact ⟨hprocess rfl, Dict.get?_set.trans (if_neg hne)⟩
  · obtain rfl := Option.some.inj h
    exact ⟨hprocess rfl, rfl⟩
  · obtain rfl := Option.some.inj h
    exact ⟨hprocess rfl, rfl⟩
  · obtain rfl := Option.some.inj h
    exact ⟨hprocess rfl, rfl⟩
  · obtain rfl := Option.some.inj h
    exact ⟨hprocess rfl, rfl⟩
  · obtain rfl := Option.some.inj h
    exact ⟨hprocess rfl, rfl⟩
  · split_ifs at h
    obtain rfl := Option.some.inj h
    exact ⟨hprocess rfl, rfl⟩
  · cases h

/-- The loop of the process is over, and its last sign of life stays what it is. -/
structure Silent (node : String) (p : Process) (sign : Option ℕ) (s : Cluster) : Prop where
  process : s.processes.get? node = some p
  heartbeat : s.heartbeats.get? node = sign

theorem Silent.step {sign : Option ℕ} (hs : Silent node p sign s) (hended : p.stage = .ended)
    (hl : l ≠ .crash node) (h : nodes.step s l = some s') : Silent node p sign s' := by
  cases l with
  | tick => exact Option.some.inj h ▸ ⟨hs.process, hs.heartbeat⟩
  | start other =>
    simp only [nodes] at h
    split_ifs at h with hsome
    have hne : node ≠ other := by
      rintro rfl
      exact hsome (by rw [hs.process]; rfl)
    exact Option.some.inj h ▸
      ⟨(Dict.get?_set.trans (if_neg hne)).trans hs.process, hs.heartbeat⟩
  | crash other =>
    simp only [nodes] at h
    split_ifs at h
    have hne : node ≠ other := fun heq => hl (heq ▸ rfl)
    exact Option.some.inj h ▸ ⟨(Dict.get?_del_ne hne).trans hs.process, hs.heartbeat⟩
  | loop other ok =>
    obtain ⟨p', hp', h⟩ := Option.bind_eq_some_iff.1 h
    have hne : node ≠ other := by
      rintro rfl
      obtain rfl := Option.some.inj (hs.process.symm.trans hp')
      obtain ⟨stage, lastBeat, lastSweep⟩ := p
      cases hended
      cases h
    obtain ⟨hprocess, hheartbeat⟩ := get?_heartbeatLoop h hne
    exact ⟨hprocess.trans hs.process, hheartbeat.trans hs.heartbeat⟩
  | beginCall sessionId other =>
    simp only [nodes] at h
    split_ifs at h
    exact Option.some.inj h ▸ ⟨hs.process, hs.heartbeat⟩
  | recordTurn sessionId =>
    simp only [nodes] at h
    split_ifs at h
    exact Option.some.inj h ▸ ⟨hs.process, hs.heartbeat⟩
  | endCall sessionId reason =>
    simp only [nodes] at h
    split_ifs at h
    exact Option.some.inj h ▸ ⟨hs.process, hs.heartbeat⟩

/-- A loop that an exception has ended leaves no sign of life as long as its process runs;
    and once the last one is too old, the first node to look closes all calls of the process,
    which goes on to serve them. -/
theorem nodes_silenced (hp : s.processes.get? node = some p) (hended : p.stage = .ended)
    (hs' : (nodes.startingFrom s).ReachableIf (fun _ l => l ≠ .crash node) s') :
    s'.processes.get? node = some p ∧ s'.heartbeats.get? node = s.heartbeats.get? node ∧
      ((∀ t ∈ s.heartbeats.get? node, t + staleAfterSeconds < s'.now) →
        ∀ other p' since, s'.processes.get? other = some p' → p'.stage = .deadNodes since →
          ∃ s'', nodes.step s' (.loop other true) = some s'' ∧ s''.served = s'.served ∧
            ∀ call ∈ s''.calls, call.convNode = node → call.endedAt.isSome) := by
  have hsilent : Silent node p (s.heartbeats.get? node) s' := by
    refine hs'.invariant (I := Silent node p (s.heartbeats.get? node)) ⟨hp, rfl⟩ ?_
    intro s l s' hI hg hst
    exact hI.step hended hg hst
  refine ⟨hsilent.process, hsilent.heartbeat, fun hold other p' since hp' hstage => ?_⟩
  obtain ⟨stage, lastBeat, lastSweep⟩ := p'
  subst hstage
  have hst : nodes.step s' (.loop other true) =
      some (s'.reconcileDeadNodes.setProcess other
        ⟨.inactiveCalls s'.now, lastBeat, some s'.now⟩) := by
    change (s'.processes.get? other).bind _ = _
    rw [hp']
    rfl
  refine ⟨_, hst, rfl, fun call hcall hnode => ?_⟩
  by_contra hopen
  obtain ⟨old, -, -, hsame, -, hwas, -⟩ := mem_close (s := s') hcall
  obtain ⟨t, ht, hle⟩ := not_not.1 (hwas (by simpa using hopen)).2
  rw [← hsame, hnode, hsilent.heartbeat] at ht
  exact absurd (hold t ht) (by omega)

/-- The database has failed the first node once, when it looked for dead nodes. -/
private def failedOnce : Option Cluster :=
  nodes.exec nodes.init
    [.start "conv:50051", .loop "conv:50051" true, .beginCall "a1" "conv:50051",
      .loop "conv:50051" false]

private theorem failedOnce_isSome : failedOnce.isSome := by decide

private def muchLater : Option Cluster :=
  nodes.execIf (fun _ l => l ≠ .crash "conv:50051") (failedOnce.get failedOnce_isSome)
    (List.replicate 46 .tick ++ [.start "conv:50052", .loop "conv:50052" true])

private theorem muchLater_isSome : muchLater.isSome := by decide

/-- The second node closes the call that the first one serves. -/
theorem nodes_silenced_muchLater : ∃ s s' : Cluster, muchLater = some s ∧
    nodes.step s (.loop "conv:50052" true) = some s' ∧ s'.served = [("a1", "conv:50051")] ∧
      ∀ call ∈ s'.calls, call.convNode = "conv:50051" → call.endedAt.isSome := by
  have hp : (failedOnce.get failedOnce_isSome).processes.get? "conv:50051" =
      some ⟨.ended, some 0, none⟩ := by
    decide
  have hp' : (muchLater.get muchLater_isSome).processes.get? "conv:50052" =
      some ⟨.deadNodes 46, some 46, none⟩ := by
    decide
  have hserved : (muchLater.get muchLater_isSome).served = [("a1", "conv:50051")] := by
    decide
  have hrun : (nodes.startingFrom (failedOnce.get failedOnce_isSome)).ReachableIf
      (fun _ l => l ≠ .crash "conv:50051") (muchLater.get muchLater_isSome) :=
    .execIf .init (Option.some_get muchLater_isSome).symm
  obtain ⟨s', hst, hsame, hclosed⟩ := (nodes_silenced hp rfl hrun).2.2 (by decide)
    "conv:50052" _ 46 hp' rfl
  exact ⟨_, s', (Option.some_get muchLater_isSome).symm, hst, hsame.trans hserved, hclosed⟩

end Yuviz.Conversation.Nodes
