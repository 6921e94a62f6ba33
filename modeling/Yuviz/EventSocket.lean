import Mathlib.Data.List.Infix
import Mathlib.Tactic.SplitIfs
import Yuviz.Infix

/-!
# Commands that end at an empty line

The other side of an event socket takes commands off the text it is sent. It is known
by one thing alone: a command ends at its first empty line, where a carriage return
before a line feed counts for nothing (`EventSocket.take_command`).

So a text and a blank line are taken as one command if and only if no line of the text
is empty (`EventSocket.take_eq_iff`).
-/

namespace Yuviz

variable {α : Type*} [DecidableEq α] (lf cr : α)

/-- The end of a line, and an empty line with `k` carriage returns. -/
def emptyLine (k : ℕ) : List α := lf :: (List.replicate k cr ++ [lf])

/-- There is an empty line after some other. -/
def HasEmptyLine (s : List α) : Prop := ∃ k, emptyLine lf cr k <:+: s

/-- It begins a line, and has no empty one. -/
structure IsCommand (command : List α) : Prop where
  head : ∃ c ∈ command.head?, c ≠ lf ∧ c ≠ cr
  whole : ¬ HasEmptyLine lf cr (command ++ [lf])

/-- What takes commands off a text that is sent. -/
structure EventSocket (α : Type*) [DecidableEq α] (lf cr : α) where
  /-- The commands, and what is left. -/
  take : List α → List (List α) × List α
  take_nil : take [] = ([], [])
  take_command : ∀ command k rest, IsCommand lf cr command →
    take (command ++ (emptyLine lf cr k ++ rest)) = (command :: (take rest).1, (take rest).2)

variable {lf cr : α} {s a b rest command : List α} {x : α} {k : ℕ}

/-! ### Empty lines -/

omit [DecidableEq α] in
theorem emptyLine_ne_nil : emptyLine lf cr k ≠ [] := List.cons_ne_nil _ _

omit [DecidableEq α] in
theorem notMem_emptyLine (hlf : x ≠ lf) (hcr : x ≠ cr) : x ∉ emptyLine lf cr k := by
  simp [emptyLine, List.mem_replicate, hlf, hcr]

omit [DecidableEq α] in
theorem HasEmptyLine.of_infix (h : HasEmptyLine lf cr a) (hab : a <:+: b) :
    HasEmptyLine lf cr b :=
  h.imp fun _ h => h.trans hab

omit [DecidableEq α] in
theorem not_hasEmptyLine_nil : ¬ HasEmptyLine lf cr ([] : List α) :=
  fun ⟨_, h⟩ => emptyLine_ne_nil (List.infix_nil.1 h)

omit [DecidableEq α] in
theorem not_hasEmptyLine_singleton : ¬ HasEmptyLine lf cr [x] := by
  rintro ⟨k, h⟩
  have hlength := h.length_le
  simp [emptyLine] at hlength

omit [DecidableEq α] in
theorem hasEmptyLine_append_cons (hlf : x ≠ lf) (hcr : x ≠ cr) :
    HasEmptyLine lf cr (a ++ x :: b) ↔ HasEmptyLine lf cr a ∨ HasEmptyLine lf cr b := by
  simp only [HasEmptyLine, infix_append_cons (notMem_emptyLine hlf hcr), exists_or]

omit [DecidableEq α] in
theorem hasEmptyLine_append_of_forall (ha : ∀ x ∈ a, x ≠ lf ∧ x ≠ cr) :
    HasEmptyLine lf cr (a ++ b) ↔ HasEmptyLine lf cr b :=
  exists_congr fun _ => infix_append_of_forall_notMem emptyLine_ne_nil fun x hx =>
    notMem_emptyLine (ha x hx).1 (ha x hx).2

omit [DecidableEq α] in
theorem hasEmptyLine_cons : HasEmptyLine lf cr (x :: s) ↔
    (∃ k, emptyLine lf cr k <+: x :: s) ∨ HasEmptyLine lf cr s := by
  simp only [HasEmptyLine, List.infix_cons_iff, exists_or]

/-! ### Cutting at the first one -/

/-- The text before the first empty line, and that after it. -/
def cutEmptyLine (lf cr : α) : List α → Option (List α × List α)
  | [] => none
  | c :: s =>
    if c = lf ∧ (s.dropWhile (· = cr)).head? = some lf then some ([], (s.dropWhile (· = cr)).tail)
    else (cutEmptyLine lf cr s).map fun p => (c :: p.1, p.2)

theorem dropWhile_replicate_append (hne : lf ≠ cr) :
    (List.replicate k cr ++ lf :: s).dropWhile (· = cr) = lf :: s := by
  induction k with
  | zero => simp [hne]
  | succ k ih => simpa [List.replicate_succ] using ih

theorem exists_replicate_of_head? (h : (s.dropWhile (· = cr)).head? = some lf) :
    ∃ k, s = List.replicate k cr ++ lf :: (s.dropWhile (· = cr)).tail := by
  have hall := List.all_eq_true.1 (List.all_takeWhile (p := (· = cr)) (l := s))
  have htake : s.takeWhile (· = cr) = List.replicate (s.takeWhile (· = cr)).length cr :=
    List.eq_replicate_iff.2 ⟨rfl, fun c hc => of_decide_eq_true (hall c hc)⟩
  have hdrop : lf :: (s.dropWhile (· = cr)).tail = s.dropWhile (· = cr) := List.cons_head?_tail h
  refine ⟨(s.takeWhile (· = cr)).length, ?_⟩
  rw [← htake, hdrop, List.takeWhile_append_dropWhile]

/-- What comes after the end of a line does not matter. -/
theorem head?_dropWhile_append (hne : lf ≠ cr) (b : List α) :
    ((a ++ lf :: b).dropWhile (· = cr)).head? = ((a ++ [lf]).dropWhile (· = cr)).head? := by
  induction a with
  | nil => simp [hne]
  | cons c a ih => by_cases hc : c = cr <;> simp [hc, ih]

theorem prefix_cons_iff (hne : lf ≠ cr) : (∃ k, emptyLine lf cr k <+: x :: s) ↔
    x = lf ∧ (s.dropWhile (· = cr)).head? = some lf := by
  constructor
  · rintro ⟨k, t, ht⟩
    rw [emptyLine, List.cons_append, List.append_assoc, List.singleton_append] at ht
    obtain ⟨rfl, rfl⟩ := List.cons.inj ht
    rw [dropWhile_replicate_append hne]
    exact ⟨rfl, rfl⟩
  · rintro ⟨rfl, hhead⟩
    obtain ⟨k, hs⟩ := exists_replicate_of_head? hhead
    refine ⟨k, (s.dropWhile (· = cr)).tail, ?_⟩
    nth_rewrite 2 [hs]
    simp [emptyLine]

theorem eq_of_cutEmptyLine (h : cutEmptyLine lf cr s = some (a, b)) :
    ∃ k, s = a ++ (emptyLine lf cr k ++ b) := by
  induction s generalizing a with
  | nil => cases h
  | cons c s ih =>
    rw [cutEmptyLine] at h
    split_ifs at h with hhere
    · obtain ⟨rfl, rfl⟩ := Prod.mk.inj (Option.some.inj h)
      obtain ⟨rfl, hhead⟩ := hhere
      obtain ⟨k, hs⟩ := exists_replicate_of_head? hhead
      refine ⟨k, ?_⟩
      nth_rewrite 1 [hs]
      simp [emptyLine]
    · obtain ⟨⟨a', b'⟩, hcut, heq⟩ := Option.map_eq_some_iff.1 h
      obtain ⟨rfl, rfl⟩ := Prod.mk.inj heq
      exact (ih hcut).imp fun _ hs => congrArg (c :: ·) hs

/-- It is the first one that the text is cut at. -/
theorem cutEmptyLine_append (hne : lf ≠ cr) (ha : ¬ HasEmptyLine lf cr (a ++ [lf]))
    (k : ℕ) (b : List α) : cutEmptyLine lf cr (a ++ (emptyLine lf cr k ++ b)) = some (a, b) := by
  induction a with
  | nil =>
    have hdrop : ((List.replicate k cr ++ [lf]) ++ b).dropWhile (· = cr) = lf :: b := by
      rw [List.append_assoc, List.singleton_append, dropWhile_replicate_append hne]
    rw [List.nil_append, emptyLine, List.cons_append, cutEmptyLine, hdrop]
    exact if_pos ⟨rfl, rfl⟩
  | cons c a ih =>
    rw [List.cons_append, hasEmptyLine_cons, not_or] at ha
    have hhere : ¬ (c = lf ∧
        ((a ++ (emptyLine lf cr k ++ b)).dropWhile (· = cr)).head? = some lf) := by
      rw [emptyLine, List.cons_append, head?_dropWhile_append hne, ← prefix_cons_iff hne]
      exact ha.1
    rw [List.cons_append, cutEmptyLine, if_neg hhere, ih ha.2]
    rfl

/-! ### What a socket takes -/

/-- A text with an empty line is cut at its first one. -/
theorem HasEmptyLine.exists_cut (hne : lf ≠ cr) (h : HasEmptyLine lf cr s) :
    ∃ a k b, s = a ++ (emptyLine lf cr k ++ b) ∧ ¬ HasEmptyLine lf cr (a ++ [lf]) := by
  induction s with
  | nil => exact absurd h not_hasEmptyLine_nil
  | cons c s ih =>
    by_cases hhere : ∃ k, emptyLine lf cr k <+: c :: s
    · obtain ⟨k, b, hb⟩ := hhere
      refine ⟨[], k, b, hb.symm, ?_⟩
      rw [List.nil_append, hasEmptyLine_cons, prefix_cons_iff hne]
      simp [not_hasEmptyLine_nil]
    · obtain ⟨a, k, b, rfl, ha⟩ := ih ((hasEmptyLine_cons.1 h).resolve_left hhere)
      refine ⟨c :: a, k, b, rfl, ?_⟩
      rw [List.cons_append, hasEmptyLine_cons, not_or]
      refine ⟨fun hprefix => hhere ?_, ha⟩
      rw [prefix_cons_iff hne] at hprefix ⊢
      rw [emptyLine, List.cons_append, head?_dropWhile_append hne]
      exact hprefix

omit [DecidableEq α] in
/-- What is before an empty line begins as the text does. -/
theorem head?_of_append_eq (hhead : ∃ c ∈ command.head?, c ≠ lf ∧ c ≠ cr)
    (h : command ++ [lf] = a ++ (emptyLine lf cr k ++ b)) : ∃ c ∈ a.head?, c ≠ lf ∧ c ≠ cr := by
  obtain ⟨c, hc, hline⟩ := hhead
  have hsame := congrArg List.head? h
  rw [List.head?_append_of_ne_nil _ (by rintro rfl; cases hc), Option.mem_def.1 hc] at hsame
  rcases a with _ | ⟨x, a⟩
  · exact absurd (Option.some.inj hsame) hline.1
  · exact ⟨c, hsame.symm, hline⟩

namespace EventSocket

variable (socket : EventSocket α lf cr)

/-- A text with an empty line is taken as a command up to its first one. -/
theorem exists_take (hne : lf ≠ cr) (hhead : ∃ c ∈ command.head?, c ≠ lf ∧ c ≠ cr)
    (hempty : HasEmptyLine lf cr (command ++ [lf])) :
    ∃ a k b, command ++ [lf] = a ++ (emptyLine lf cr k ++ b) ∧
      (socket.take (command ++ [lf, lf])).1.head? = some a := by
  obtain ⟨a, k, b, hcut, ha⟩ := hempty.exists_cut hne
  refine ⟨a, k, b, hcut, ?_⟩
  have hsent : command ++ [lf, lf] = a ++ (emptyLine lf cr k ++ (b ++ [lf])) := by
    rw [show command ++ [lf, lf] = command ++ [lf] ++ [lf] by simp, hcut]
    simp
  rw [hsent, socket.take_command a k _ ⟨head?_of_append_eq hhead hcut, ha⟩]
  rfl

/-- A text and a blank line are taken as one command unless a line of it is empty. -/
theorem take_eq_iff (hne : lf ≠ cr) (hhead : ∃ c ∈ command.head?, c ≠ lf ∧ c ≠ cr) :
    socket.take (command ++ [lf, lf]) = ([command], []) ↔
      ¬ HasEmptyLine lf cr (command ++ [lf]) := by
  refine ⟨fun h hempty => ?_, fun h => ?_⟩
  · -- The first empty line comes before the end, and so does the end of the first command.
    obtain ⟨a, k, b, hcut, ha⟩ := socket.exists_take hne hhead hempty
    rw [h] at ha
    obtain rfl := Option.some.inj ha
    have hlength := congrArg List.length hcut
    simp only [emptyLine, List.length_append, List.length_cons, List.length_nil,
      List.length_replicate] at hlength
    omega
  · have htake := socket.take_command command 0 [] ⟨hhead, h⟩
    rwa [List.append_nil, socket.take_nil] at htake

/-- The first command that is taken is the text up to the end of a line. -/
theorem eq_of_head?_take (hne : lf ≠ cr) (hhead : ∃ c ∈ command.head?, c ≠ lf ∧ c ≠ cr)
    (h : (socket.take (command ++ [lf, lf])).1.head? = some a) :
    ∃ b, command ++ [lf] = a ++ lf :: b := by
  by_cases hempty : HasEmptyLine lf cr (command ++ [lf])
  · obtain ⟨a', k, b, hcut, ha⟩ := socket.exists_take hne hhead hempty
    obtain rfl := Option.some.inj (h.symm.trans ha)
    exact ⟨_, hcut⟩
  · rw [(socket.take_eq_iff hne hhead).2 hempty] at h
    obtain rfl := Option.some.inj h
    exact ⟨[], rfl⟩

end EventSocket

/-! ### A socket that takes all commands there are -/

/-- `n` commands at most, taken off a text, and what is left. -/
def takeAtMost (lf cr : α) : ℕ → List α → List (List α) × List α
  | 0, s => ([], s)
  | n + 1, s =>
    match cutEmptyLine lf cr s with
    | none => ([], s)
    | some (command, rest) =>
      (command :: (takeAtMost lf cr n rest).1, (takeAtMost lf cr n rest).2)

theorem takeAtMost_of_le {n : ℕ} (hn : s.length ≤ n) :
    takeAtMost lf cr n s = takeAtMost lf cr s.length s := by
  induction n using Nat.strong_induction_on generalizing s with
  | h n ih =>
    rcases s with _ | ⟨c, s⟩
    · rcases n with _ | n
      · rfl
      · rfl
    · obtain ⟨n, rfl⟩ := Nat.exists_eq_succ_of_ne_zero (Nat.ne_of_gt (Nat.zero_lt_of_lt hn))
      rw [List.length_cons, takeAtMost, takeAtMost]
      rcases hcut : cutEmptyLine lf cr (c :: s) with _ | ⟨command, rest⟩
      · rfl
      · obtain ⟨k, hs⟩ := eq_of_cutEmptyLine hcut
        have hlength := congrArg List.length hs
        simp only [emptyLine, List.length_append, List.length_cons, List.length_nil,
          List.length_replicate] at hlength hn
        dsimp only
        rw [ih n (Nat.lt_succ_self n) (by omega), ih s.length (by omega) (by omega)]

/-- Each command ends at the first empty line. -/
def EventSocket.lines (hne : lf ≠ cr) : EventSocket α lf cr where
  take s := takeAtMost lf cr s.length s
  take_nil := rfl
  take_command command k rest hcommand := by
    have hlength : (command ++ (emptyLine lf cr k ++ rest)).length =
        (command.length + k + 1 + rest.length) + 1 := by
      simp [emptyLine]
      omega
    rw [hlength, takeAtMost, cutEmptyLine_append hne hcommand.whole]
    dsimp only
    rw [takeAtMost_of_le (by omega)]

end Yuviz
