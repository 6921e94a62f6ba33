import Mathlib
import Yuviz.Conversation.ToolLatency.Tenants
import Yuviz.Recent

/-!
# The mean of the recent samples

The samples of a key are in order of time, and at most `window` (`Tidy`). Reading and
sweeping drop old ones only, so that the recent samples of a key that has not gone are
the latest that have been recorded (`filter_samplesOf`).
-/

namespace Yuviz.Conversation

open Python Recent ToolLatencyStore LatencyCall

variable {s : ToolLatencyStore} {c : LatencyCall} {x : Sample} {tenantId : String}
  {key : AgentToolKey} {now now' : ℚ} {keys : Dict AgentToolKey (List Sample)}
  {samples : List Sample} {calls : List LatencyCall}

/-- The sample is recent. -/
def fresh (now : ℚ) (x : Sample) : Bool := decide (now - maxAge ≤ x.time)

def samplesOf (keys : Dict AgentToolKey (List Sample)) (key : AgentToolKey) : List Sample :=
  (keys.get? key).getD []

/-- What the keys of a tenant are kept to. -/
structure Tidy (now : ℚ) (keys : Dict AgentToolKey (List Sample)) : Prop where
  nodup : keys.NodupKeys
  length_le : keys.length ≤ maxKeysPerTenant
  samples : ∀ e ∈ keys, e.2.length ≤ window ∧ e.2.Pairwise (fun x y => x.time ≤ y.time) ∧
    ∀ x ∈ e.2, x.time ≤ now

/-! ### Samples in order -/

theorem latest_fresh (h : samples.Pairwise fun x y => x.time ≤ y.time) (now : ℚ) :
    Latest (fresh now) samples := by
  refine h.imp fun hle hfresh => ?_
  exact decide_eq_true ((of_decide_eq_true hfresh).trans hle)

theorem filter_fresh_filter (h : now ≤ now') (samples : List Sample) :
    (samples.filter (fresh now)).filter (fresh now') = samples.filter (fresh now') := by
  rw [List.filter_filter]
  refine List.filter_congr fun x _ => ?_
  rw [Bool.and_eq_left_iff_imp]
  exact fun hfresh => decide_eq_true ((sub_le_sub_right h _).trans (of_decide_eq_true hfresh))

theorem Tidy.nil : Tidy now [] := ⟨List.nodup_nil, Nat.zero_le _, nofun⟩

theorem Tidy.mono (h : Tidy now keys) (hnow : now ≤ now') : Tidy now' keys :=
  ⟨h.nodup, h.length_le, fun e he => ⟨(h.samples e he).1, (h.samples e he).2.1,
    fun x hx => ((h.samples e he).2.2 x hx).trans hnow⟩⟩

theorem Tidy.ordered (h : Tidy now keys) (key : AgentToolKey) :
    (samplesOf keys key).Pairwise (fun x y => x.time ≤ y.time) ∧
      ∀ x ∈ samplesOf keys key, x.time ≤ now := by
  rw [samplesOf]
  rcases hget : keys.get? key with _ | samples
  · exact ⟨.nil, nofun⟩
  · exact (h.samples _ (Dict.mem_of_get?_eq_some hget)).2

/-! ### What a call does to a key -/

theorem addSample_eq (keys : Dict AgentToolKey (List Sample)) (key : AgentToolKey) (x : Sample) :
    addSample keys key x = keys.putLast key ((samplesOf keys key ++ [x]).rtake window) :=
  Dict.moveToEnd_set

/-- Reading a key keeps its recent samples, or takes it where there are none. -/
theorem ageOut_eq (keys : Dict AgentToolKey (List Sample)) (key : AgentToolKey) (now : ℚ) :
    ageOut keys key now =
      if keys.get? key = none then keys
      else if (samplesOf keys key).dropWhile (fun x => !fresh now x) = [] then keys.del key
      else keys.putLast key ((samplesOf keys key).dropWhile fun x => !fresh now x) := by
  rw [ageOut, samplesOf]
  rcases hget : keys.get? key with _ | samples
  · rfl
  · rw [if_neg (by simp), Dict.moveToEnd_of_get? hget, Dict.del_putLast]
    dsimp only
    rw [Dict.set_putLast]
    rfl

theorem samplesOf_ageOut (keys : Dict AgentToolKey (List Sample)) (key' : AgentToolKey) :
    samplesOf (ageOut keys key now) key' =
      if key' = key then (samplesOf keys key).dropWhile fun x => !fresh now x
      else samplesOf keys key' := by
  rw [ageOut_eq]
  by_cases hkey : key' = key
  · subst hkey
    rw [if_pos rfl]
    split_ifs with hnone hnil
    · rw [samplesOf, hnone]
      rfl
    · rw [hnil, samplesOf, Dict.get?_del_self]
      rfl
    · rw [samplesOf, Dict.get?_putLast, if_pos rfl]
      rfl
  · rw [if_neg hkey]
    split_ifs
    · rfl
    · rw [samplesOf, Dict.get?_del_ne hkey, samplesOf]
    · rw [samplesOf, Dict.get?_putLast, if_neg hkey, samplesOf]

/-- A new sample comes last. -/
theorem Tidy.concat (h : Tidy now keys) (hx : x.time = now) (key : AgentToolKey) :
    (samplesOf keys key ++ [x]).Pairwise (fun x y => x.time ≤ y.time) ∧
      ∀ y ∈ samplesOf keys key ++ [x], y.time ≤ now := by
  obtain ⟨hsorted, hpast⟩ := h.ordered key
  rw [List.pairwise_append, List.forall_mem_append]
  refine ⟨⟨hsorted, List.pairwise_singleton _ _, fun y hy z hz => ?_⟩, hpast, ?_⟩
  · rw [List.mem_singleton.1 hz, hx]
    exact hpast y hy
  · exact List.forall_mem_singleton.2 hx.le

theorem time_of_sample (h : c.sample? = some x) : x.time = c.now := by
  obtain ⟨ms, -, -, -, rfl⟩ := sample?_eq_some h
  rfl

/-- A call keeps the keys of its tenant tidy. -/
theorem Tidy.own (h : Tidy now keys) (hnow : now ≤ c.now) : Tidy c.now (c.own keys) := by
  have h := h.mono hnow
  rcases hsample : c.sample? with _ | x
  · by_cases hreads : c.Reads
    · rw [own_of_reads hreads, ageOut_eq]
      split_ifs with hnone
      · exact h
      · exact ⟨h.nodup.sublist List.filter_sublist,
          (List.length_filter_le _ _).trans h.length_le,
          fun e he => h.samples e (List.mem_of_mem_filter he)⟩
      · refine ⟨h.nodup.putLast, (Dict.length_putLast h.nodup hnone).trans_le h.length_le,
          fun e he => ?_⟩
        rcases Dict.mem_putLast he with rfl | he
        · obtain ⟨samples, hsome⟩ := Option.ne_none_iff_exists'.1 hnone
          have hsub : ((samplesOf keys c.key).dropWhile fun x =>
              !fresh c.now x).Sublist samples := by
            rw [samplesOf, hsome]
            exact List.dropWhile_sublist _
          obtain ⟨hlength, hsorted, hpast⟩ := h.samples _ (Dict.mem_of_get?_eq_some hsome)
          exact ⟨hsub.length_le.trans hlength, hsorted.sublist hsub,
            fun x hx => hpast x (hsub.subset hx)⟩
        · exact h.samples e he
    · rwa [own_of_not_reads hsample hreads]
  · rw [own_of_sample hsample, addSample_eq]
    refine ⟨h.nodup.putLast.sublist Dict.evictFirst_sublist, Dict.length_evictFirst_le <|
      Dict.length_putLast_le.trans (Nat.add_le_add_right h.length_le 1), fun e he => ?_⟩
    rcases Dict.mem_putLast (Dict.evictFirst_sublist.subset he) with rfl | he
    · obtain ⟨hsorted, hpast⟩ := h.concat (time_of_sample hsample) c.key
      exact ⟨length_rtake_le, hsorted.sublist (List.drop_sublist _ _),
        fun y hy => hpast y (List.mem_of_mem_drop hy)⟩
    · exact h.samples e he

theorem Tidy.next (h : Tidy now keys) (hnow : now ≤ c.now) (tenant : String) :
    Tidy c.now (c.next tenant keys) := by
  rw [LatencyCall.next]
  split_ifs
  · exact h.own hnow
  · exact h.mono hnow

/-! ### Runs -/

/-- The readings of the clock are at most `now`. -/
def Before (now : ℚ) (calls : List LatencyCall) : Prop := ∀ c ∈ calls, c.sweepNow ≤ now

theorem ordered_cons : Ordered (c :: calls) ↔
    Ordered calls ∧ Before c.now calls ∧ c.now ≤ c.sweepNow := by
  rw [Ordered, Ordered, Before, List.pairwise_cons, List.forall_mem_cons]
  tauto

theorem bounded_runs (calls : List LatencyCall) : Bounded (runs calls).tenants := by
  induction calls with
  | nil => exact ⟨List.nodup_nil, Nat.zero_le _⟩
  | cons c calls ih => exact ih.run c

theorem tidy_runs (h : Ordered calls) (hnow : Before now calls) (tenant : String) :
    Tidy now ((runs calls).keysOf tenant) := by
  induction calls generalizing now with
  | nil => exact .nil
  | cons c calls ih =>
    obtain ⟨hcalls, hbefore, hle⟩ := ordered_cons.1 h
    have hnext : Tidy now (c.next tenant ((runs calls).keysOf tenant)) :=
      ((ih hcalls hbefore).next le_rfl tenant).mono (hle.trans (hnow c List.mem_cons_self))
    rw [runs]
    rcases keysOf_run_cases (bounded_runs calls) c tenant with heq | ⟨hnil, -⟩
    · exact heq ▸ hnext
    · exact hnil ▸ .nil

/-! ### The recent samples of a key -/

theorem evictedKey_of_sample (h : c.sample? = some x) : c.evictedKey s =
    (addSample (s.keysOf c.tenantId) c.key x).evicted maxKeysPerTenant := by
  rw [evictedKey, h]
  rfl

/-- What a call does to the recent samples of a key, as long as it does not go. -/
theorem filter_samplesOf_own (h : Tidy c.now keys) (hnow : c.now ≤ now)
    (hkeeps : ∀ x, c.sample? = some x →
      (addSample keys c.key x).evicted maxKeysPerTenant ≠ some key) :
    (samplesOf (c.own keys) key).filter (fresh now) =
      ((samplesOf keys key ++ if c.key = key then c.sample?.toList else []).filter
        (fresh now)).rtake window := by
  have hlength : ((samplesOf keys key).filter (fresh now)).length ≤ window := by
    refine (List.length_filter_le _ _).trans ?_
    rw [samplesOf]
    rcases hget : keys.get? key with _ | samples
    · exact Nat.zero_le _
    · exact (h.samples _ (Dict.mem_of_get?_eq_some hget)).1
  rcases hsample : c.sample? with _ | x
  · rw [Option.toList_none, ite_self, List.append_nil, rtake_of_length_le hlength]
    by_cases hreads : c.Reads
    · rw [own_of_reads hreads, samplesOf_ageOut]
      split_ifs with hkey
      · rw [hkey, (latest_fresh (h.ordered _).1 _).dropWhile_eq, filter_fresh_filter hnow]
      · rfl
    · rw [own_of_not_reads hsample hreads]
  · have hget : samplesOf (c.own keys) key =
        if key = c.key then (samplesOf keys c.key ++ [x]).rtake window else samplesOf keys key := by
      have hnodup : (addSample keys c.key x).NodupKeys := by
        rw [addSample_eq]
        exact h.nodup.putLast
      rw [own_of_sample hsample, samplesOf, Dict.get?_evictFirst hnodup,
        if_neg (hkeeps x hsample), addSample_eq, Dict.get?_putLast]
      split_ifs
      · rfl
      · rfl
    rw [hget]
    by_cases hkey : key = c.key
    · subst hkey
      rw [if_pos rfl, if_pos rfl, Option.toList_some]
      exact (latest_fresh (h.concat (time_of_sample hsample) _).1 now).filter_rtake
    · rw [if_neg hkey, if_neg (Ne.symm hkey), List.append_nil, rtake_of_length_le hlength]

/-- A tenant that a sweep may take has no recent samples, now or later. -/
theorem filter_samplesOf_of_isReclaimable (h : Tidy now keys) (hnow : c.sweepNow ≤ now')
    (hold : isReclaimable keys (c.sweepNow - maxAge)) (key : AgentToolKey) :
    (samplesOf keys key).filter (fresh now') = [] := by
  refine (latest_fresh (h.ordered key).1 now').filter_eq_nil fun x hx => decide_eq_false ?_
  rw [samplesOf] at hx
  rcases hget : keys.get? key with _ | samples
  · rw [hget] at hx
    cases hx
  · rw [hget] at hx
    have hlast : samples.getLast? = some x := hx
    have hall := List.all_eq_true.1 hold _ (Dict.mem_of_get?_eq_some hget)
    have htime : x.time < c.sweepNow - maxAge := by
      rw [hlast] at hall
      exact of_decide_eq_true hall
    exact not_le.2 (htime.trans_le (sub_le_sub_right hnow _))

/-- The recent samples of a key are the latest that have been recorded. -/
theorem filter_samplesOf (h : Ordered calls) (hnow : Before now calls)
    (htenant : KeepsTenant tenantId calls) (hkey : KeepsKey tenantId key calls) :
    (samplesOf ((runs calls).keysOf tenantId) key).filter (fresh now) =
      ((recorded tenantId key calls).filter (fresh now)).rtake window := by
  induction calls with
  | nil => rfl
  | cons c calls ih =>
    obtain ⟨hcalls, hbefore, hle⟩ := ordered_cons.1 h
    obtain ⟨hc, hnow⟩ := List.forall_mem_cons.1 hnow
    have ih := ih hcalls hnow htenant.2 hkey.2
    have htidy := tidy_runs hcalls hbefore tenantId
    have hnext : (samplesOf (c.next tenantId ((runs calls).keysOf tenantId)) key).filter
        (fresh now) = ((recorded tenantId key (c :: calls)).filter (fresh now)).rtake window := by
      rw [LatencyCall.next, recorded, List.filter_append, ← rtake_rtake_append, ← ih]
      by_cases hown : c.tenantId = tenantId
      · subst hown
        rw [if_pos rfl, filter_samplesOf_own htidy (hle.trans hc) fun x hx heq => ?_]
        · simp only [true_and, List.filter_append]
        · exact hkey.1 ⟨rfl, (evictedKey_of_sample hx).trans heq⟩
      · rw [if_neg hown, if_neg fun h => hown h.1, List.filter_nil, List.append_nil,
          rtake_of_length_le]
        rw [ih]
        exact length_rtake_le
    rw [← hnext, runs]
    rcases keysOf_run_cases (bounded_runs calls) c tenantId with heq | ⟨hnil, hgone | hold⟩
    · rw [heq]
    · exact absurd hgone htenant.1
    · rw [hnil, filter_samplesOf_of_isReclaimable (htidy.next le_rfl _) hc hold]
      rfl

/-! ### The mean -/

theorem averageMs_fst (s : ToolLatencyStore) (tenantId agentId toolName : String) (now : ℚ) :
    (s.averageMs tenantId agentId toolName now).1 =
      if IsBlank tenantId ∨ IsBlank agentId then none
      else meanOf ((samplesOf (s.keysOf tenantId) (agentId, toolName)).dropWhile
        fun x => !fresh now x) := by
  rw [averageMs, samplesOf, keysOf]
  split_ifs
  · rfl
  · rcases s.tenants.get? tenantId with _ | keys
    · rfl
    · dsimp only [Option.getD_some]
      rcases keys.get? (agentId, toolName) with _ | samples
      · rfl
      · dsimp only [Option.getD_some]
        by_cases hnil : samples.dropWhile (fun x => !fresh now x) = []
        · rw [hnil]
          exact congrArg Prod.fst (if_pos hnil)
        · exact congrArg Prod.fst (if_neg hnil)

theorem recorded_of_blank (key : AgentToolKey) (h : IsBlank tenantId ∨ IsBlank key.1)
    (calls : List LatencyCall) :
    recorded tenantId key calls = [] := by
  induction calls with
  | nil => rfl
  | cons c calls ih =>
    rw [recorded, ih, List.nil_append]
    split_ifs with hkey
    · obtain ⟨rfl, rfl⟩ := hkey
      rcases hsample : c.sample? with _ | x
      · rfl
      · obtain ⟨ms, -, hblank, -⟩ := sample?_eq_some hsample
        exact absurd h hblank
    · rfl

/-- What is returned for a key is the mean of its latest recent samples. -/
theorem averageMs_eq (h : Ordered calls) (hnow : Before now calls)
    (htenant : KeepsTenant tenantId calls) {agentId toolName : String}
    (hkey : KeepsKey tenantId (agentId, toolName) calls) :
    ((runs calls).averageMs tenantId agentId toolName now).1 =
      meanOf (((recorded tenantId (agentId, toolName) calls).filter (fresh now)).rtake window) := by
  have hsorted := ((tidy_runs h hnow tenantId).ordered (agentId, toolName)).1
  rw [averageMs_fst]
  split_ifs with hblank
  · rw [recorded_of_blank (agentId, toolName) hblank]
    rfl
  · rw [(latest_fresh hsorted now).dropWhile_eq, filter_samplesOf h hnow htenant hkey]

end Yuviz.Conversation
