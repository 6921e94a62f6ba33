import Mathlib.Data.List.Rotate
import Yuviz.Conversation.Servicer

/-!
# Deferred messages

A message set aside during a spoken turn goes to the end of the queue, behind
those that came after it: every one set aside *rotates* those waiting for the
outer loop. They are handled in the order they arrived if the rotations come
full circle by the end of the turn, and whenever another one arrives
(`reachable_inOrder`).
-/

namespace Yuviz.Conversation

namespace Servicer

/-- The message is not handled on the spot by a drain. -/
def isAside : Option GatewayMessage → Bool
  | some (.audioChunk _) | some (.cancelGeneration _) | some (.playbackFinished _) => false
  | _ => true

/-- A drain drops the message. -/
def isDropped : Option GatewayMessage → Bool
  | some (.textInput _) | some .other => true
  | _ => false

/-- The messages in the queue that are for the outer loop. -/
def waiting (s : Servicer) : List (Option GatewayMessage × ℕ) := s.queue.filter fun m => isAside m.1

/-- Those that have arrived, with their numbers. -/
def arrivedAside (s : Servicer) : List (Option GatewayMessage × ℕ) :=
  s.arrived.zipIdx.filter fun m => isAside m.1

/-- What the outer loop has handled, and the number of messages set aside since
    the start of the turn, or since the last arrival of another one. -/
structure Deferrals where
  handled : List (Option GatewayMessage × ℕ) := []
  count : ℕ := 0
  deriving DecidableEq

def Deferrals.update (d : Deferrals) (s : Servicer) : Label → Deferrals
  | .arrive m => if isAside m then { d with count := 0 } else d
  | .take => { d with handled := d.handled ++ (s.queue.take 1).filter fun m => isAside m.1 }
  | .drain => { d with count := d.count + ((s.queue.take 1).filter fun m => isAside m.1).length }
  | .exhaust => { d with count := 0 }
  | _ => d

/-- The messages waiting have come full circle whenever another one arrives and
    at the end of a turn, and a drain drops none. -/
def Aligned (s : Servicer × Deferrals) : Label → Prop
  | .arrive m => isAside m = true → s.1.waiting.length ∣ s.2.count
  | .exhaust => s.1.waiting.length ∣ s.2.count
  | .drain => ∀ m ∈ s.1.queue.head?, isDropped m.1 = false
  | _ => True

instance (s : Servicer × Deferrals) : (l : Label) → Decidable (Aligned s l)
  | .arrive m => inferInstanceAs (Decidable (isAside m = true → _))
  | .exhaust => inferInstanceAs (Decidable (_ ∣ _))
  | .drain => inferInstanceAs (Decidable (∀ m ∈ s.1.queue.head?, _))
  | .greet _ | .take | .respond _ | .deliver | .fail => inferInstanceAs (Decidable True)

/-- The servicer, with what the outer loop has handled. -/
def deferring (textOnly : Bool) : System (Servicer × Deferrals) Label :=
  (system textOnly).monitored {} Deferrals.update

/-- What was handled, followed by the messages waiting, is what has arrived; but
    during a turn those waiting are rotated. -/
structure InOrder (s : Servicer × Deferrals) (rest : List (Option GatewayMessage × ℕ)) : Prop where
  arrived_eq : s.1.arrivedAside = s.2.handled ++ rest
  waiting_eq : s.1.waiting = rest.rotate s.2.count
  count_eq : s.1.pc ≠ .closed → s.1.pc.isTurn = false → s.2.count = 0

variable {textOnly : Bool} {s : Servicer} {d : Deferrals} {l : Label}
  {rest : List (Option GatewayMessage × ℕ)}

/-- A rotation that comes full circle. -/
theorem rotate_of_dvd {α : Type*} {l : List α} {n : ℕ} (h : l.length ∣ n) : l.rotate n = l := by
  obtain ⟨k, rfl⟩ := h
  exact l.rotate_length_mul k

theorem InOrder.length_waiting (h : InOrder (s, d) rest) : s.waiting.length = rest.length := by
  have hw : s.waiting = rest.rotate d.count := h.waiting_eq
  rw [hw, List.length_rotate]

theorem arrivedAside_arrive (m : Option GatewayMessage) (q : List (Option GatewayMessage × ℕ)) :
    arrivedAside { s with arrived := s.arrived ++ [m], queue := q } =
      s.arrivedAside ++ if isAside m then [(m, s.arrived.length)] else [] := by
  simp only [arrivedAside, List.zipIdx_append, List.filter_append, List.zipIdx_singleton]
  split_ifs with hm <;> simp [hm]

theorem waiting_concat (m : Option GatewayMessage × ℕ) (arrived : List (Option GatewayMessage)) :
    waiting { s with arrived := arrived, queue := s.queue ++ [m] } =
      s.waiting ++ if isAside m.1 then [m] else [] := by
  simp only [waiting, List.filter_append]
  split_ifs with hm <;> simp [hm]

/-- A drain puts the messages it sets aside at the end of the queue. -/
theorem drainOne_frame {t : SpeechTurn} {r : HandlerResponse} {m : Option GatewayMessage × ℕ}
    (hpc : s.pc = .speech t (.draining r)) (hm : isDropped m.1 = false) :
    (drainOne t r m s).1.arrived = s.arrived ∧ (drainOne t r m s).1.pc.isTurn = true ∧
      (drainOne t r m s).1.queue = s.queue ++ if isAside m.1 then [m] else [] := by
  obtain ⟨m, n⟩ := m
  rcases m with _ | m
  · exact ⟨rfl, rfl, rfl⟩
  · cases m
    case playbackFinished interrupted =>
      obtain ⟨hq, ha, hp⟩ := playbackFinished_frame interrupted s
      simp [drainOne, hq, ha, hp, hpc, isAside, Pc.isTurn]
    case audioChunk payload =>
      by_cases hc : t.cancelled = true <;> simp [drainOne, hc, hpc, isAside, Pc.isTurn]
    case cancelGeneration traceId => simp [drainOne, isAside, Pc.isTurn]
    case textInput text => cases hm
    case other => cases hm
    all_goals exact ⟨rfl, rfl, rfl⟩

theorem InOrder.arrive (h : InOrder (s, d) rest) {m : Option GatewayMessage}
    (hd : isAside m = true → s.waiting.length ∣ d.count) :
    ∃ rest', InOrder ({ s with
      arrived := s.arrived ++ [m], queue := s.queue ++ [(m, s.arrived.length)] },
      d.update s (.arrive m)) rest' := by
  have hw : s.waiting = rest.rotate d.count := h.waiting_eq
  have ha : s.arrivedAside = d.handled ++ rest := h.arrived_eq
  by_cases hm : isAside m = true
  · -- the messages waiting are in order, so the new one may go behind them
    have hdvd : rest.length ∣ d.count := h.length_waiting ▸ hd hm
    refine ⟨rest ++ [(m, s.arrived.length)], ?_, ?_, ?_⟩
    · simp [arrivedAside_arrive, Deferrals.update, hm, ha]
    · rw [rotate_of_dvd hdvd] at hw
      simp [waiting_concat, Deferrals.update, hm, hw]
    · simp [Deferrals.update, hm]
  · rw [Bool.not_eq_true] at hm
    refine ⟨rest, ?_, ?_, ?_⟩
    · simp [arrivedAside_arrive, Deferrals.update, hm, ha]
    · simp [waiting_concat, Deferrals.update, hm, hw]
    · simpa [Deferrals.update, hm] using h.count_eq

/-- The outer loop handles the first message. -/
theorem InOrder.take (h : InOrder (s, d) rest) {m : Option GatewayMessage × ℕ}
    {queue : List (Option GatewayMessage × ℕ)} (hpc : s.pc = .receiving)
    (hq : s.queue = m :: queue) :
    ∃ rest', InOrder ((receive m.1 { s with queue := queue }).1, d.update s .take) rest' := by
  obtain ⟨hrq, hra⟩ := receive_frame m.1 { s with queue := queue }
  have hc : d.count = 0 := h.count_eq (by simp [hpc]) (by simp [hpc, Pc.isTurn])
  have hw : s.waiting = rest := by simpa [hc] using h.waiting_eq
  have ha : s.arrivedAside = d.handled ++ rest := h.arrived_eq
  refine ⟨queue.filter fun m => isAside m.1, ?_, ?_, fun _ _ => hc⟩
  · have ha' : (receive m.1 { s with queue := queue }).1.arrivedAside = s.arrivedAside := by
      simp only [arrivedAside, hra]
    rw [ha', ha, ← hw]
    simp [waiting, hq, Deferrals.update, List.filter_cons]
    split_ifs <;> simp
  · simp [waiting, hrq, Deferrals.update, hc]

/-- A message set aside goes once round. -/
theorem InOrder.drain (h : InOrder (s, d) rest) {m : Option GatewayMessage × ℕ} {t : SpeechTurn}
    {r : HandlerResponse} {queue : List (Option GatewayMessage × ℕ)}
    (hpc : s.pc = .speech t (.draining r)) (hq : s.queue = m :: queue)
    (hm : isDropped m.1 = false) :
    InOrder ((drainOne t r m { s with queue := queue }).1, d.update s .drain) rest := by
  have hpc' : ({ s with queue := queue } : Servicer).pc = .speech t (.draining r) := hpc
  obtain ⟨harr, hturn, hqueue⟩ := drainOne_frame hpc' hm
  have hw : s.waiting = rest.rotate d.count := h.waiting_eq
  have ha : s.arrivedAside = d.handled ++ rest := h.arrived_eq
  refine ⟨?_, ?_, fun _ ht => ?_⟩
  · simpa only [arrivedAside, harr, Deferrals.update] using ha
  · simp only [waiting, hqueue, Deferrals.update, hq, List.take_one, List.head?_cons,
      Option.toList_some, List.filter_cons, List.filter_nil]
    simp only [waiting, hq, List.filter_cons] at hw
    by_cases hm : isAside m.1 = true
    · simp only [hm, if_true] at hw ⊢
      rw [List.length_singleton, ← List.rotate_rotate, ← hw]
      simp [hm]
    · simpa [hm] using hw
  · rw [hturn] at ht
    cases ht

/-- A step that leaves the queue alone. -/
theorem InOrder.of_queue_eq (h : InOrder (s, d) rest) {s' : Servicer} {d' : Deferrals}
    (hq : s'.queue = s.queue) (ha : s'.arrived = s.arrived) (hd : d'.handled = d.handled)
    (hr : rest.rotate d'.count = rest.rotate d.count)
    (hc : s'.pc ≠ .closed → s'.pc.isTurn = false → d'.count = 0) : InOrder (s', d') rest := by
  refine ⟨?_, ?_, hc⟩
  · simpa only [arrivedAside, ha, hd] using h.arrived_eq
  · simpa only [waiting, hq, hr] using h.waiting_eq

theorem exhaust_frame {x : Servicer × List Output} (h : s.exhaust = some x) :
    x.1.queue = s.queue ∧ x.1.arrived = s.arrived ∧ x.1.pc = .receiving := by
  simp only [exhaust] at h
  split at h <;> cases h
  · obtain ⟨hq, ha, hp, -⟩ := finishTurn_frame _ { s with session := s.session.endTurn }
    exact ⟨hq, ha, hp⟩
  · exact ⟨rfl, rfl, rfl⟩
  · exact ⟨rfl, rfl, rfl⟩

theorem respond_frame {r : HandlerResponse} {x : Servicer × List Output}
    (h : s.respond r = some x) :
    x.1.queue = s.queue ∧ x.1.arrived = s.arrived ∧ x.1.pc.isTurn = s.pc.isTurn ∧
      (x.1.pc = .closed ↔ s.pc = .closed) := by
  simp only [respond] at h
  split at h <;> cases h <;> simp_all [Pc.isTurn, respondText]

theorem InOrder.step {x : Servicer × List Output} (h : InOrder (s, d) rest)
    (hg : Aligned (s, d) l) (hst : s.step l = some x) :
    ∃ rest', InOrder (x.1, d.update s l) rest' := by
  cases l
  case greet payloads =>
    simp only [Servicer.step] at hst
    split_ifs at hst with hpc
    cases hst
    exact ⟨rest, h.of_queue_eq rfl rfl rfl rfl fun _ _ => h.count_eq (by simp [hpc])
      (by simp [hpc, Pc.isTurn])⟩
  case arrive m =>
    simp only [Servicer.step] at hst
    split_ifs at hst
    cases hst
    exact h.arrive hg
  case take =>
    simp only [Servicer.step] at hst
    split at hst <;> cases hst
    rename_i m queue hpc hq
    exact h.take hpc hq
  case respond r =>
    obtain ⟨hq, ha, hturn, hclosed⟩ := respond_frame hst
    exact ⟨rest, h.of_queue_eq hq ha rfl rfl fun hpc ht =>
      h.count_eq (fun hs => hpc (hclosed.2 hs)) (hturn ▸ ht)⟩
  case drain =>
    simp only [Servicer.step] at hst
    split at hst <;> cases hst
    rename_i t r m queue hpc hq
    exact ⟨rest, h.drain hpc hq (hg m (by simp [hq]))⟩
  case deliver =>
    simp only [Servicer.step] at hst
    split at hst
    · rename_i t r hpc
      split_ifs at hst
      cases hst
      rw [deliver_frame]
      exact ⟨rest, h.of_queue_eq rfl rfl rfl rfl fun _ ht => by cases ht⟩
    · rename_i t r hpc
      cases hst
      rw [deliver_frame]
      exact ⟨rest, h.of_queue_eq rfl rfl rfl rfl fun _ ht => by cases ht⟩
    · cases hst
  case exhaust =>
    obtain ⟨hq, ha, hpc⟩ := exhaust_frame hst
    have hdvd : rest.length ∣ d.count := h.length_waiting ▸ hg
    refine ⟨rest, h.of_queue_eq hq ha rfl ?_ fun _ _ => rfl⟩
    rw [rotate_of_dvd hdvd]
    exact List.rotate_zero _
  case fail =>
    simp only [Servicer.step] at hst
    split_ifs at hst
    cases hst
    exact ⟨rest, h.of_queue_eq rfl rfl rfl rfl fun hpc => absurd rfl hpc⟩

/-- In every run whose turns come full circle, what the outer loop has handled
    is what arrived first, in the order it arrived, and the rest is waiting:
    in order, unless a turn is streaming. -/
theorem reachable_inOrder {s : Servicer × Deferrals}
    (hs : (deferring textOnly).ReachableIf Aligned s) :
    ∃ rest, s.1.arrivedAside = s.2.handled ++ rest ∧ s.1.waiting ~r rest ∧
      (s.1.pc = .receiving → s.1.waiting = rest) := by
  have h : ∃ rest, InOrder s rest := by
    refine hs.invariant (I := fun s => ∃ rest, InOrder s rest) ⟨[], rfl, rfl, fun _ _ => rfl⟩ ?_
    rintro ⟨s, d⟩ l s' ⟨rest, h⟩ hg hst
    obtain ⟨t, hst', rfl⟩ := Option.map_eq_some_iff.1 hst
    obtain ⟨x, hx, rfl⟩ := Option.map_eq_some_iff.1 hst'
    exact h.step hg hx
  obtain ⟨rest, h⟩ := h
  refine ⟨rest, h.arrived_eq, ?_, fun hpc => ?_⟩
  · rw [h.waiting_eq]
    exact List.IsRotated.forall rest _
  · have hc : s.2.count = 0 := h.count_eq (by simp [hpc]) (by simp [hpc, Pc.isTurn])
    rw [h.waiting_eq, hc, List.rotate_zero]

/-- A turn that is streaming its answer. -/
def streaming : List Label :=
  [.greet [], .arrive (some (.speechEnded 900 0)), .take, .respond { sttText := "yes" }, .deliver]

def transferInitiated : GatewayMessage := .transferInitiated "cold" "1001" "asked" "x1"

def transferFailed : GatewayMessage := .transferFailed "1001" "busy" "x1"

/-- A message is set aside by two responses of a turn. -/
theorem reachable_inOrder_twice :
    ∃ s, (deferring false).Reachable s ∧ s.1.pc = .recovery false ∧
      s.2.handled = [(some (.speechEnded 900 0), 0), (some transferInitiated, 1),
        (some transferFailed, 2)] ∧
      ∃ rest, s.1.arrivedAside = s.2.handled ++ rest ∧ s.1.waiting ~r rest ∧
        (s.1.pc = .receiving → s.1.waiting = rest) := by
  have hexec : ((deferring false).execIf Aligned (deferring false).init
      (streaming ++ ([.respond { ttsPayloads := [[0]] }, .arrive (some transferInitiated), .drain,
        .deliver, .respond { ttsPayloads := [[0]] }, .drain, .deliver, .exhaust,
        .arrive (some transferFailed), .take, .take] : List Label))).map
        (fun s => (s.1.pc, s.2.handled)) = some (.recovery false,
          [(some (.speechEnded 900 0), 0), (some transferInitiated, 1),
            (some transferFailed, 2)]) := by
    decide
  obtain ⟨s, hs, hr⟩ := Option.map_eq_some_iff.1 hexec
  have hs : (deferring false).ReachableIf Aligned s := System.ReachableIf.execIf .init hs
  exact ⟨s, hs.reachable, congrArg Prod.fst hr, congrArg Prod.snd hr, reachable_inOrder hs⟩

/-- A transfer is initiated and fails while a turn streams, and the next
    response sets the first message aside behind the second. -/
theorem not_reachable_inOrder :
    ¬∀ s, (deferring false).Reachable s → s.2.handled <+: s.1.arrivedAside := by
  intro h
  have hexec : ((deferring false).exec (deferring false).init
      (streaming ++ ([.respond { ttsPayloads := [[0]] }, .arrive (some transferInitiated),
        .arrive (some transferFailed), .drain, .deliver, .exhaust, .take] : List Label))).map
        (fun s => decide (s.2.handled <+: s.1.arrivedAside)) = some false := by
    decide
  obtain ⟨s, hs, hr⟩ := Option.map_eq_some_iff.1 hexec
  exact of_decide_eq_false hr (h s (System.Reachable.exec .init hs))

end Servicer

end Yuviz.Conversation
