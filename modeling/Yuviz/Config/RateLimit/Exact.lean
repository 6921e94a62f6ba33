import Yuviz.Config.RateLimit

/-!
# Exactness of the windows

Sweeping and refusing drop buckets whose window is over, and nothing else
(`FixedWindowCounter.Swept`). So a key that has lost its bucket counts like one
whose window is over, whatever the order of the sweeps, and each bucket is the
window that follows from the increments of its key (`Windowed`).
-/

namespace Yuviz.Config

open Python

variable {c c' : FixedWindowCounter} {key key' : String} {now : ℚ} {a : Access} {b : Bucket}

namespace FixedWindowCounter

/-! ### Sweeping -/

/-- Nothing but buckets whose window is over is dropped. -/
structure Swept (now : ℚ) (c c' : FixedWindowCounter) : Prop where
  limit : c'.limit = c.limit
  window : c'.window = c.window
  sublist : c'.buckets.Sublist c.buckets
  stale : ∀ e ∈ c.buckets, e ∉ c'.buckets → c.IsStale now e.2

theorem Swept.of_buckets (hlimit : c'.limit = c.limit) (hwindow : c'.window = c.window)
    (hbuckets : c'.buckets = c.buckets) : Swept now c c' := by
  refine ⟨hlimit, hwindow, hbuckets ▸ List.Sublist.refl _, fun e he hnot => ?_⟩
  exact absurd (hbuckets ▸ he) hnot

theorem swept_evictStale (c : FixedWindowCounter) (accesses : ℕ) (now : ℚ) :
    Swept now c ({ c with accessesSinceSweep := accesses }.evictStale now) := by
  refine ⟨rfl, rfl, List.filter_sublist, fun e he hnot => ?_⟩
  by_contra hstale
  exact hnot (List.mem_filter.2 ⟨he, decide_eq_true hstale⟩)

theorem swept_maybeSweep (c : FixedWindowCounter) (now : ℚ) : Swept now c (c.maybeSweep now) := by
  rw [maybeSweep]
  split_ifs
  · exact swept_evictStale c 0 now
  · dsimp only
    split_ifs
    · exact swept_evictStale c 0 now
    · exact .of_buckets rfl rfl rfl

theorem swept_refuseNewKey (c : FixedWindowCounter) (key : String) (now : ℚ) :
    Swept now c (c.refuseNewKey key now).2 := by
  rw [refuseNewKey]
  split_ifs
  · exact swept_evictStale c 0 now
  · exact .of_buckets rfl rfl rfl

theorem Swept.trans {c₁ c₂ : FixedWindowCounter} (h : Swept now c c₁) (h' : Swept now c₁ c₂) :
    Swept now c c₂ := by
  refine ⟨h'.limit.trans h.limit, h'.window.trans h.window, h'.sublist.trans h.sublist,
    fun e he hnot => ?_⟩
  by_cases hmem : e ∈ c₁.buckets
  · have hstale := h'.stale e hmem hnot
    rwa [IsStale, h.window] at hstale
  · exact h.stale e he hmem

/-- The bucket of a key is as it was, or has been dropped because its window is over. -/
theorem Swept.get?_cases (h : Swept now c c') (hnodup : c.buckets.NodupKeys) (key : String) :
    c'.buckets.get? key = c.buckets.get? key ∨
    c'.buckets.get? key = none ∧ ∃ b, c.buckets.get? key = some b ∧ c.IsStale now b := by
  have hnodup' := hnodup.sublist h.sublist
  rcases hget : c'.buckets.get? key with _ | b
  · rcases hb : c.buckets.get? key with _ | b
    · exact .inl rfl
    · refine .inr ⟨rfl, b, rfl, h.stale _ (Dict.mem_of_get?_eq_some hb) fun hmem => ?_⟩
      rw [(Dict.get?_eq_some_iff hnodup').2 hmem] at hget
      cases hget
  · refine .inl ?_
    rw [Dict.get?_eq_some_iff hnodup' ] at hget
    exact ((Dict.get?_eq_some_iff hnodup).2 (h.sublist.subset hget)).symm

/-! ### Calls -/

/-- A new key is not in a full counter, which has no bucket whose window is over. -/
structure Full (a : Access) (c : FixedWindowCounter) : Prop where
  new : a.key ∉ c.buckets.map Prod.fst
  full : maxBuckets ≤ c.buckets.length
  live : ∀ e ∈ c.buckets, ¬ c.IsStale a.now e.2

theorem full_of_refuseNewKey (h : (c.refuseNewKey a.key a.now).1 = true) :
    Full a (c.refuseNewKey a.key a.now).2 := by
  rw [refuseNewKey] at h ⊢
  split_ifs at h ⊢
  have hcapacity : _ ∧ _ := of_decide_eq_true h
  refine ⟨hcapacity.1, hcapacity.2, fun e he => ?_⟩
  exact of_decide_eq_true (List.mem_filter.1 he).2

theorem room_of_refuseNewKey (h : (c.refuseNewKey a.key a.now).1 = false) :
    a.key ∈ (c.refuseNewKey a.key a.now).2.buckets.map Prod.fst ∨
      (c.refuseNewKey a.key a.now).2.buckets.length < maxBuckets := by
  have hroom : (c.refuseNewKey a.key a.now).2.atCapacityForNewKey a.key = false := by
    rw [refuseNewKey] at h ⊢
    split_ifs at h ⊢ with hcapacity
    · exact h
    · exact Bool.eq_false_iff.2 hcapacity
  rw [atCapacityForNewKey, decide_eq_false_iff_not, not_and_or, not_not, not_le] at hroom
  exact hroom

/-- A call sweeps, and is then refused or served. -/
theorem call_cases (c : FixedWindowCounter) (a : Access) : ∃ c₁, Swept a.now c c₁ ∧
    ((c.refuses a = true ∧ (c.call a).2 = c₁ ∧ (c.call a).1 ≠ some (false, 0) ∧ Full a c₁) ∨
      (c.refuses a = false ∧ c.call a = c₁.serve a ∧
        (a.key ∈ c₁.buckets.map Prod.fst ∨ c₁.buckets.length < maxBuckets))) := by
  refine ⟨((c.maybeSweep a.now).refuseNewKey a.key a.now).2,
    (swept_maybeSweep c a.now).trans (swept_refuseNewKey _ _ _), ?_⟩
  rcases hrefuse : ((c.maybeSweep a.now).refuseNewKey a.key a.now).1 with _ | _
  · refine .inr ⟨hrefuse, ?_, room_of_refuseNewKey hrefuse⟩
    rw [call, serve]
    split <;> simp [overLimit, increment, hrefuse]
  · refine .inl ⟨hrefuse, ?_, ?_, full_of_refuseNewKey hrefuse⟩
    · rw [call]
      split <;> simp [overLimit, increment, hrefuse]
    · rw [call]
      split <;> simp [overLimit, hrefuse]

/-! ### The window of a key -/

/-- A key has the bucket of its window, or counts from now on. -/
theorem current_cases (c : FixedWindowCounter) (key : String) (now : ℚ) :
    (∃ b, c.buckets.get? key = some b ∧ ¬ c.IsStale now b ∧ c.current key now = b) ∨
    (∀ b, c.buckets.get? key = some b → c.IsStale now b) ∧ c.current key now = ⟨now, 0⟩ := by
  rw [current]
  rcases hb : c.buckets.get? key with _ | b
  · exact .inr ⟨nofun, by simp⟩
  · by_cases hstale : c.IsStale now b
    · refine .inr ⟨fun b' hb' => Option.some.inj hb' ▸ hstale, ?_⟩
      rw [Option.getD_some, if_pos hstale]
    · refine .inl ⟨b, rfl, hstale, ?_⟩
      rw [Option.getD_some, if_neg hstale]

/-- A bucket whose window is over counts like none. -/
theorem current_eq_of_get? (hwindow : c'.window = c.window)
    (h : c'.buckets.get? key = c.buckets.get? key ∨ c'.buckets.get? key = none ∧
      ∃ b, c.buckets.get? key = some b ∧ c.IsStale now b) :
    c'.current key now = c.current key now := by
  have hstale : ∀ b, c'.IsStale now b ↔ c.IsStale now b := by
    intro b
    rw [IsStale, IsStale, hwindow]
  rcases h with h | ⟨hnone, b, hb, hover⟩
  · rw [current, current, h]
    simp only [hstale]
  · rw [current, current, hnone, hb]
    simp [hover]

end FixedWindowCounter

/-! ### What falls into a window -/

variable {limit : ℕ} {window start : ℚ} {log : List Event} {e : Event} {w : ℚ × ℕ}
  {bucket bucket' : Option Bucket} {s s' : Counting}

/-- The window has been over at some call. -/
def Over (window : ℚ) (log : List Event) (start : ℚ) : Prop := ∃ e ∈ log, window ≤ e.now - start

theorem Over.cons (h : Over window log start) : Over window (e :: log) start :=
  h.imp fun _ h => ⟨List.mem_cons_of_mem _ h.1, h.2⟩

theorem not_over (hpast : ∀ e ∈ log, e.now ≤ now) (h : ¬ window ≤ now - start) :
    ¬ Over window log start := by
  rintro ⟨e, he, hover⟩
  exact h (hover.trans (sub_le_sub_right (hpast e he) _))

theorem windowAt_of_lt (h : now - w.1 < window) : windowAt window now (some w) = w := by
  rw [windowAt, Option.filter_some, if_pos (decide_eq_true h), Option.getD_some]

theorem windowAt_of_le (h : window ≤ now - w.1) : windowAt window now (some w) = (now, 0) := by
  rw [windowAt, Option.filter_some, if_neg (by simpa using h), Option.getD_none]

theorem windowOf_cons_of_not (h : ¬ e.Counts key) :
    windowOf window key (e :: log) = windowOf window key log := if_neg h

theorem gaps_cons_of_not (h : ¬ FallsInto window key start e log) :
    gaps window key start (e :: log) = gaps window key start log := by
  rw [gaps, if_neg h, List.nil_append]

/-- The increments of `key`, against its bucket. -/
structure Windowed (limit : ℕ) (window : ℚ) (key : String) (log : List Event)
    (bucket : Option Bucket) : Prop where
  /-- The bucket is the last window, or is gone as that is over. -/
  last : bucket = (windowOf window key log).map (fun w => ⟨w.1, w.2⟩) ∨
    bucket = none ∧ ∃ w ∈ windowOf window key log, Over window log w.1
  countP_le : ∀ start k, (gaps window key start log).countP (· ≤ k) ≤ limit + k
  counted : ∀ start, gaps window key start log ≠ [] → Over window log start ∨
    ∃ b ∈ bucket, b.windowStart = start ∧ (gaps window key start log).length ≤ b.count
  answered : ∀ g ∈ sinceAnswer key log, 0 < limit ∧
    ∀ b ∈ bucket, b.count < limit + g ∨ Over window log b.windowStart

theorem Windowed.nil : Windowed limit window key [] none :=
  ⟨.inl rfl, fun _ _ => Nat.zero_le _, fun _ h => absurd rfl h, nofun⟩

/-- A key has the window of its bucket, or one that begins now. -/
theorem Windowed.windowAt_eq (h : Windowed limit window key log bucket)
    (hpast : ∀ e ∈ log, e.now ≤ now)
    (hb : (bucket = some b ∧ ¬ window ≤ now - b.windowStart) ∨
      (∀ b', bucket = some b' → window ≤ now - b'.windowStart) ∧ b = ⟨now, 0⟩) :
    windowAt window now (windowOf window key log) = (b.windowStart, b.count) := by
  rcases h.last with hlast | ⟨rfl, w, hw, hover⟩
  · rcases hw : windowOf window key log with _ | w
    · rw [hw] at hlast
      rcases hb with ⟨hbucket, -⟩ | ⟨-, rfl⟩
      · cases hlast.symm.trans hbucket
      · rfl
    · rw [hw] at hlast
      rcases hb with ⟨hbucket, hlive⟩ | ⟨hstale, rfl⟩
      · obtain rfl := Option.some.inj (hlast.symm.trans hbucket)
        exact windowAt_of_lt (not_le.1 hlive)
      · exact windowAt_of_le (hstale _ hlast)
  · rcases hb with ⟨hbucket, -⟩ | ⟨-, rfl⟩
    · cases hbucket
    · rw [Option.mem_def.1 hw]
      exact windowAt_of_le (not_lt.1 fun hlive => not_over hpast (not_le.2 hlive) hover)

/-- A call counts nothing for the key, and may drop its bucket. -/
theorem Windowed.drop (h : Windowed limit window key log bucket)
    (hbucket : bucket' = bucket ∨
      bucket' = none ∧ ∃ b, bucket = some b ∧ window ≤ e.now - b.windowStart)
    (hcounts : ¬ e.Counts key)
    (hanswer : e.key = key → e.answer = some (false, 0) →
      0 < limit ∧ ∀ b ∈ bucket', b.count < limit ∨ window ≤ e.now - b.windowStart) :
    Windowed limit window key (e :: log) bucket' := by
  have hgaps (start : ℚ) : gaps window key start (e :: log) = gaps window key start log :=
    gaps_cons_of_not fun hfalls => hcounts hfalls.1
  refine ⟨?_, fun start k => ?_, fun start hne => ?_, fun g hg => ?_⟩
  · rw [windowOf_cons_of_not hcounts]
    rcases hbucket with rfl | ⟨rfl, b, hb, hover⟩
    · exact h.last.imp_right (And.imp_right fun ⟨w, hw, hover⟩ => ⟨w, hw, hover.cons⟩)
    · rcases h.last with hlast | ⟨hnone, -⟩
      · obtain ⟨w, hw, rfl⟩ := Option.map_eq_some_iff.1 (hlast.symm.trans hb)
        exact .inr ⟨rfl, w, hw, e, List.mem_cons_self, hover⟩
      · cases hnone.symm.trans hb
  · rw [hgaps]
    exact h.countP_le start k
  · rw [hgaps] at hne ⊢
    rcases h.counted start hne with hover | ⟨b, hb, hstart, hle⟩
    · exact .inl hover.cons
    · rcases hbucket with rfl | ⟨-, b', hb', hover⟩
      · exact .inr ⟨b, hb, hstart, hle⟩
      · obtain rfl : b' = b := Option.some.inj (hb'.symm.trans hb)
        exact .inl ⟨e, List.mem_cons_self, hstart ▸ hover⟩
  · rw [sinceAnswer, if_neg hcounts] at hg
    split_ifs at hg with hanswered
    · obtain rfl : 0 = g := Option.some.inj hg
      obtain ⟨hpos, hbuckets⟩ := hanswer hanswered.1 hanswered.2
      exact ⟨hpos, fun b hb => (hbuckets b hb).imp_right fun hover => ⟨e, List.mem_cons_self, hover⟩⟩
    · refine ⟨(h.answered g hg).1, fun b hb => ?_⟩
      rcases hbucket with rfl | ⟨rfl, -⟩
      · exact ((h.answered g hg).2 b hb).imp_right Over.cons
      · cases hb

/-- An increment counts in the window of the key, which is that of its bucket, or opened by it. -/
theorem Windowed.count (h : Windowed limit window key log bucket)
    (hpast : ∀ e' ∈ log, e'.now ≤ e.now) (hcounts : e.Counts key) (hanswer : e.answer = none)
    (hb : (bucket = some b ∧ ¬ window ≤ e.now - b.windowStart) ∨
      (∀ b', bucket = some b' → window ≤ e.now - b'.windowStart) ∧ b = ⟨e.now, 0⟩) :
    Windowed limit window key (e :: log) (some ⟨b.windowStart, b.count + 1⟩) := by
  have hat := h.windowAt_eq hpast hb
  have hfalls (start : ℚ) : FallsInto window key start e log ↔
      b.windowStart = start ∧ e.now - start < window := by
    rw [FallsInto, hat]
    exact and_iff_right hcounts
  -- No more fall into the window than the bucket has counted.
  have hcount (hlive : e.now - b.windowStart < window) :
      (gaps window key b.windowStart log).length ≤ b.count := by
    by_contra hlt
    have hne : gaps window key b.windowStart log ≠ [] := by
      intro hnil
      rw [hnil] at hlt
      exact hlt (Nat.zero_le _)
    rcases h.counted b.windowStart hne with hover | ⟨b', hb', hs', hle⟩
    · exact not_over hpast (not_le.2 hlive) hover
    · rcases hb with ⟨rfl, -⟩ | ⟨hstale, rfl⟩
      · exact hlt (Option.some.inj hb' ▸ hle)
      · exact not_le.2 hlive (hs' ▸ hstale b' hb')
  have hlimit (hlive : e.now - b.windowStart < window) (g : ℕ) (hg : g ∈ sinceAnswer key log) :
      b.count < limit + g := by
    rcases hb with ⟨hbucket, -⟩ | ⟨-, rfl⟩
    · exact ((h.answered g hg).2 b hbucket).resolve_right (not_over hpast (not_le.2 hlive))
    · exact Nat.lt_add_right g (h.answered g hg).1
  refine ⟨.inl ?_, fun start k => ?_, fun start hne => ?_, fun g hg => ?_⟩
  · rw [windowOf, if_pos hcounts, hat]
    rfl
  · by_cases hin : FallsInto window key start e log
    · obtain ⟨rfl, hlive⟩ := (hfalls start).1 hin
      rw [gaps, if_pos hin, List.countP_append]
      rcases hg : sinceAnswer key log with _ | g
      · simpa using h.countP_le b.windowStart k
      · have hle := (List.countP_le_length (p := (· ≤ k))).trans (hcount hlive)
        have hlt := hlimit hlive g hg
        by_cases hgk : g ≤ k
        · simp only [Option.toList_some, List.countP_singleton, hgk, decide_true, if_true]
          omega
        · simpa [hgk] using h.countP_le b.windowStart k
    · rw [gaps_cons_of_not hin]
      exact h.countP_le start k
  · by_cases hs : b.windowStart = start
    · subst hs
      by_cases hlive : e.now - b.windowStart < window
      · refine .inr ⟨_, rfl, rfl, ?_⟩
        have hle := hcount hlive
        have hlast : (sinceAnswer key log).toList.length ≤ 1 := by
          cases sinceAnswer key log <;> simp
        rw [gaps, if_pos ((hfalls _).2 ⟨rfl, hlive⟩), List.length_append]
        dsimp only
        omega
      · exact .inl ⟨e, List.mem_cons_self, not_lt.1 hlive⟩
    · rw [gaps_cons_of_not fun hin => hs ((hfalls start).1 hin).1] at hne
      rcases h.counted start hne with hover | ⟨b', hb', rfl, -⟩
      · exact .inl hover.cons
      · rcases hb with ⟨hbucket, -⟩ | ⟨hstale, -⟩
        · exact absurd (Option.some.inj (hbucket.symm.trans hb') ▸ rfl) hs
        · exact .inl ⟨e, List.mem_cons_self, hstale b' hb'⟩
  · rw [sinceAnswer, if_neg (by simp [hanswer]), if_pos hcounts] at hg
    obtain ⟨g', hg', rfl⟩ := Option.map_eq_some_iff.1 hg
    refine ⟨(h.answered g' hg').1, fun b' hb' => ?_⟩
    obtain rfl := Option.some.inj hb'
    by_cases hlive : e.now - b.windowStart < window
    · exact .inl (Nat.succ_lt_succ (hlimit hlive g' hg'))
    · exact .inr ⟨e, List.mem_cons_self, not_lt.1 hlive⟩

/-! ### The runs of a counter -/

open FixedWindowCounter

/-- What the runs keep. -/
structure Counting.Inv (limit : ℕ) (window : ℚ) (s : Counting) : Prop where
  same_limit : s.counter.limit = limit
  same_window : s.counter.window = window
  nodup : s.counter.buckets.NodupKeys
  length_le : s.counter.buckets.length ≤ maxBuckets
  windowed : ∀ key, Windowed limit window key s.log (s.counter.buckets.get? key)

/-- What holds in a state: of the counter, of what it has counted, and of the next call. -/
structure Counting.Exact (limit : ℕ) (window : ℚ) (s : Counting) : Prop where
  length_le : s.counter.buckets.length ≤ maxBuckets
  /-- Into a window fall no more than `limit` increments, and `k`, with no more than `k` others
      between them and the answer before. -/
  countP_le : ∀ key start k, (gaps window key start s.log).countP (· ≤ k) ≤ limit + k
  /-- A call is refused only where every bucket is of another key, and of this moment. -/
  refused : ∀ a s', s.step a = some s' → s.counter.refuses a = true →
    s'.counter.buckets.length = maxBuckets ∧ s'.counter.buckets.NodupKeys ∧
    ∀ e ∈ s'.counter.buckets, e.1 ≠ a.key ∧ a.now - e.2.windowStart < window
  /-- All others are answered by the increments before. -/
  answers : ∀ a s', s.step a = some s' → s.counter.refuses a = false →
    (s.counter.call a).1 = ledger limit window s.log a

theorem Counting.step_eq_some (hs : s.step a = some s') :
    (∀ e ∈ s.log, e.now ≤ a.now) ∧
      s' = { counter := (s.counter.call a).2, log := s.event a :: s.log } := by
  rw [Counting.step] at hs
  split_ifs at hs with hpast
  exact ⟨hpast, (Option.some.inj hs).symm⟩

/-- The window of a key is that in which the counter counts. -/
theorem Counting.Inv.current_cases (h : s.Inv limit window) (key : String) (now : ℚ) :
    (s.counter.buckets.get? key = some (s.counter.current key now) ∧
      ¬ window ≤ now - (s.counter.current key now).windowStart) ∨
    (∀ b, s.counter.buckets.get? key = some b → window ≤ now - b.windowStart) ∧
      s.counter.current key now = ⟨now, 0⟩ := by
  rw [← h.same_window]
  rcases FixedWindowCounter.current_cases s.counter key now with ⟨b, hb, hlive, hcur⟩ | hstale
  · rw [hcur]
    exact .inl ⟨hb, hlive⟩
  · exact .inr hstale

section

variable {c₁ : FixedWindowCounter} (hswept : Swept a.now s.counter c₁)

include hswept in
theorem Counting.Inv.current_eq (h : s.Inv limit window) :
    c₁.current a.key a.now = s.counter.current a.key a.now :=
  current_eq_of_get? hswept.window (hswept.get?_cases h.nodup a.key)

include hswept in
/-- The bucket of a key is kept, or dropped at a time when its window is over. -/
theorem Counting.Inv.bucket_cases (h : s.Inv limit window) (key : String) :
    c₁.buckets.get? key = s.counter.buckets.get? key ∨ c₁.buckets.get? key = none ∧
      ∃ b, s.counter.buckets.get? key = some b ∧ window ≤ (s.event a).now - b.windowStart := by
  have hcases := hswept.get?_cases h.nodup key
  simp only [IsStale, h.same_window] at hcases
  exact hcases

end

theorem Counting.Inv.exact (h : s.Inv limit window) : s.Exact limit window := by
  refine ⟨h.length_le, fun key => (h.windowed key).countP_le, fun a s' hs hrefuse => ?_,
    fun a s' hs hserve => ?_⟩
  · obtain ⟨-, rfl⟩ := Counting.step_eq_some hs
    obtain ⟨c₁, hswept, ⟨-, hcall, -, hfull⟩ | ⟨hserve, -⟩⟩ := s.counter.call_cases a
    · dsimp only
      rw [hcall]
      refine ⟨le_antisymm (hswept.sublist.length_le.trans h.length_le) hfull.full,
        h.nodup.sublist hswept.sublist, fun e he => ⟨fun hkey => ?_, ?_⟩⟩
      · exact hfull.new (hkey ▸ List.mem_map_of_mem he)
      · have hlive := hfull.live e he
        rwa [IsStale, hswept.window, h.same_window, not_le] at hlive
    · cases hserve.symm.trans hrefuse
  · obtain ⟨hpast, -⟩ := Counting.step_eq_some hs
    obtain ⟨c₁, hswept, ⟨hrefuse, -⟩ | ⟨-, hcall, -⟩⟩ := s.counter.call_cases a
    · cases hrefuse.symm.trans hserve
    · rw [hcall, serve, ledger]
      split
      · rw [answer, h.current_eq hswept, hswept.limit, hswept.window, h.same_limit, h.same_window,
          (h.windowed a.key).windowAt_eq hpast (h.current_cases a.key a.now)]
        dsimp only
        split_ifs <;> rfl
      · rfl

section

variable {c₁ : FixedWindowCounter} (hswept : Swept a.now s.counter c₁)

include hswept in
/-- A key that is not asked for counts nothing. -/
theorem Counting.Inv.windowed_of_ne (h : s.Inv limit window) (hkey : a.key ≠ key) :
    Windowed limit window key (s.event a :: s.log) (c₁.buckets.get? key) :=
  (h.windowed key).drop (h.bucket_cases hswept key) (fun hcounts => hkey hcounts.2.1)
    fun heq => absurd heq hkey

/-- A call that is refused drops buckets, and nothing else. -/
theorem Counting.Inv.refuse (h : s.Inv limit window) (hswept : Swept a.now s.counter c₁)
    (hrefuse : s.counter.refuses a = true) (hanswer : (s.counter.call a).1 ≠ some (false, 0)) :
    Counting.Inv limit window ⟨c₁, s.event a :: s.log⟩ := by
  refine ⟨hswept.limit.trans h.same_limit, hswept.window.trans h.same_window,
    h.nodup.sublist hswept.sublist, hswept.sublist.length_le.trans h.length_le, fun key => ?_⟩
  by_cases hkey : a.key = key
  · subst hkey
    exact (h.windowed a.key).drop (h.bucket_cases hswept a.key)
      (fun hcounts => absurd (hrefuse.symm.trans hcounts.2.2) (by simp))
      fun _ hlets => absurd hlets hanswer
  · exact h.windowed_of_ne hswept hkey

/-- An answer counts nothing, and lets through what is below the limit. -/
theorem Counting.Inv.overLimit (h : s.Inv limit window) (hswept : Swept a.now s.counter c₁)
    (hoperation : a.operation = .overLimit)
    (hcall : s.counter.call a = (some (c₁.answer a.key a.now), c₁)) :
    Counting.Inv limit window ⟨c₁, s.event a :: s.log⟩ := by
  refine ⟨hswept.limit.trans h.same_limit, hswept.window.trans h.same_window,
    h.nodup.sublist hswept.sublist, hswept.sublist.length_le.trans h.length_le, fun key => ?_⟩
  by_cases hkey : a.key = key
  · subst hkey
    refine (h.windowed a.key).drop (h.bucket_cases hswept a.key) (fun hcounts => ?_)
      fun _ hanswer => ?_
    · cases hoperation.symm.trans hcounts.1
    · have hcount : (c₁.current a.key a.now).count < limit := by
        rw [Counting.event, hcall, answer] at hanswer
        dsimp only at hanswer
        split_ifs at hanswer with hover
        · simp at hanswer
        · rwa [hswept.limit, h.same_limit, not_le] at hover
      refine ⟨Nat.zero_lt_of_lt hcount, fun b hb => ?_⟩
      rcases FixedWindowCounter.current_cases c₁ a.key a.now with
        ⟨b', hb', -, hcurrent⟩ | ⟨hstale, -⟩
      · obtain rfl : b' = b := Option.some.inj (hb'.symm.trans hb)
        exact .inl (hcurrent ▸ hcount)
      · have hover := hstale b hb
        rw [IsStale, hswept.window, h.same_window] at hover
        exact .inr hover
  · exact h.windowed_of_ne hswept hkey

/-- An increment counts in the window of its key. -/
theorem Counting.Inv.increment (h : s.Inv limit window) (hswept : Swept a.now s.counter c₁)
    (hpast : ∀ e ∈ s.log, e.now ≤ a.now) (hoperation : a.operation = .increment)
    (hserve : s.counter.refuses a = false)
    (hcall : s.counter.call a = (none, c₁.count a.key a.now))
    (hroom : a.key ∈ c₁.buckets.map Prod.fst ∨ c₁.buckets.length < maxBuckets) :
    Counting.Inv limit window ⟨c₁.count a.key a.now, s.event a :: s.log⟩ := by
  refine ⟨hswept.limit.trans h.same_limit, hswept.window.trans h.same_window,
    Dict.nodup_keys_set (h.nodup.sublist hswept.sublist), ?_, fun key => ?_⟩
  · have hlength := hswept.sublist.length_le.trans h.length_le
    rw [FixedWindowCounter.count, ← List.length_map (f := Prod.fst)]
    by_cases hmem : a.key ∈ c₁.buckets.map Prod.fst
    · rwa [Dict.keys_set_of_mem hmem, List.length_map]
    · rw [Dict.set_of_notMem hmem, List.length_map, List.length_append]
      exact hroom.resolve_left hmem
  · by_cases hkey : a.key = key
    · subst hkey
      have hget : (c₁.count a.key a.now).buckets.get? a.key =
          some ⟨(c₁.current a.key a.now).windowStart, (c₁.current a.key a.now).count + 1⟩ :=
        Dict.get?_set.trans (if_pos rfl)
      rw [hget, h.current_eq hswept]
      exact (h.windowed a.key).count (e := s.event a) hpast ⟨hoperation, rfl, hserve⟩
        (congrArg Prod.fst hcall) (h.current_cases a.key a.now)
    · have hget : (c₁.count a.key a.now).buckets.get? key = c₁.buckets.get? key :=
        Dict.get?_set.trans (if_neg (Ne.symm hkey))
      rw [hget]
      exact h.windowed_of_ne hswept hkey

end

theorem Counting.Inv.step (h : s.Inv limit window) (hs : s.step a = some s') :
    s'.Inv limit window := by
  obtain ⟨hpast, rfl⟩ := Counting.step_eq_some hs
  obtain ⟨c₁, hswept, ⟨hrefuse, hcall, hanswer, -⟩ | ⟨hserve, hcall, hroom⟩⟩ :=
    s.counter.call_cases a
  · rw [hcall]
    exact h.refuse hswept hrefuse hanswer
  · rw [serve] at hcall
    split at hcall
    · rename_i hoperation
      rw [hcall]
      exact h.overLimit hswept hoperation hcall
    · rename_i hoperation
      rw [hcall]
      exact h.increment hswept hpast hoperation hserve hcall hroom

theorem Counting.Inv.init (limit : ℕ) (window : ℚ) :
    (counting limit window).init.Inv limit window :=
  ⟨rfl, rfl, List.nodup_nil, Nat.zero_le _, fun _ => .nil⟩

/-- In every run, sweeping changes no answer, the buckets are bounded, and no window takes more
    than the limit, but for the increments that come after another's. -/
theorem exact_of_reachable (limit : ℕ) (window : ℚ) :
    ∀ s, (counting limit window).Reachable s → s.Exact limit window := by
  intro s hs
  have h : s.Inv limit window :=
    System.Reachable.invariant (.init limit window) (fun s a s' h hs => h.step hs) hs
  exact h.exact

/-- Two callers are let through, and then count. -/
private def askedTwice : Option Counting :=
  (counting 1 60).exec (counting 1 60).init
    [⟨.overLimit, "actor", 0⟩, ⟨.overLimit, "actor", 1⟩, ⟨.increment, "actor", 2⟩,
      ⟨.increment, "actor", 3⟩, ⟨.overLimit, "actor", 4⟩]

private theorem askedTwice_isSome : askedTwice.isSome := by decide

private theorem askedTwice_reachable :
    (counting 1 60).Reachable (askedTwice.get askedTwice_isSome) :=
  System.Reachable.exec .init (Option.some_get askedTwice_isSome).symm

theorem exact_of_reachable_askedTwice :
    ∃ s : Counting, s.log.map Event.answer =
      [some (true, 59), none, none, some (false, 0), some (false, 0)] ∧ s.Exact 1 60 :=
  ⟨askedTwice.get askedTwice_isSome, by decide +kernel,
    exact_of_reachable 1 60 _ askedTwice_reachable⟩

/-- Both count in the same window. -/
theorem not_length_gaps_le : ¬ ∀ limit window s, (counting limit window).Reachable s →
    ∀ key start, (gaps window key start s.log).length ≤ limit := by
  intro h
  have hle := h 1 60 _ askedTwice_reachable "actor" 2
  revert hle
  decide +kernel

end Yuviz.Config
