import Mathlib
import Yuviz.Conversation.ToolLatency.Mean

/-!
# Tenants apart

The calls of the other tenants decide when a tenant is swept, and so which of its old
keys are still there to count against the bound. But the old keys come first, and are
the first to go: what is left of a tenant is the end of what it would be with no sweep
at all (`Mirrors`), and what it is asked for is in there.
-/

namespace Yuviz.Conversation

open Python Recent ToolLatencyStore LatencyCall

variable {c : LatencyCall} {x : Sample} {tenantId : String} {key : AgentToolKey} {now now' : ℚ}
  {keys whole : Dict AgentToolKey (List Sample)} {samples more : List Sample}
  {calls : List LatencyCall} {size : ℕ}

/-- The samples are the end of others, which are old. -/
def Ends (now : ℚ) (samples whole : List Sample) : Prop :=
  ∃ old, whole = old ++ samples ∧ ∀ x ∈ old, fresh now x = false

/-- The keys are the last of others: those before have old samples only, and so have those that
    are the same, but for the end. -/
def Mirrors (now : ℚ) (keys whole : Dict AgentToolKey (List Sample)) : Prop :=
  ∃ gone rest, whole = gone ++ rest ∧ (∀ e ∈ gone, Ends now [] e.2) ∧
    List.Forall₂ (fun e e' => e.1 = e'.1 ∧ Ends now e.2 e'.2) keys rest

/-- The keys of a tenant, if it is never swept. -/
def solo (tenantId : String) : List LatencyCall → Dict AgentToolKey (List Sample)
  | [] => []
  | c :: calls => c.next tenantId (solo tenantId calls)

/-! ### Samples -/

theorem fresh_eq_false_mono (h : now ≤ now') (hx : fresh now x = false) : fresh now' x = false := by
  refine decide_eq_false fun hle => of_decide_eq_false hx ?_
  exact (sub_le_sub_right h _).trans hle

theorem Ends.mono (h : Ends now samples more) (hnow : now ≤ now') : Ends now' samples more :=
  h.imp fun _ h => ⟨h.1, fun x hx => fresh_eq_false_mono hnow (h.2 x hx)⟩

theorem Ends.dropWhile_eq (h : Ends now samples more) :
    more.dropWhile (fun x => !fresh now x) = samples.dropWhile fun x => !fresh now x := by
  obtain ⟨old, rfl, hold⟩ := h
  exact List.dropWhile_append_of_pos fun x hx => by simp [hold x hx]

theorem Ends.concat (h : Ends now samples more) (x : Sample) (n : ℕ) :
    Ends now ((samples ++ [x]).rtake n) ((more ++ [x]).rtake n) := by
  obtain ⟨old, rfl, hold⟩ := h
  refine ⟨old.rtake (n - (samples ++ [x]).length), ?_,
    fun y hy => hold y (List.mem_of_mem_drop hy)⟩
  rw [List.append_assoc, rtake_append]

/-! ### Keys -/

theorem Mirrors.nil : Mirrors now [] [] := ⟨[], [], rfl, nofun, .nil⟩

theorem Mirrors.mono (h : Mirrors now keys whole) (hnow : now ≤ now') :
    Mirrors now' keys whole := by
  obtain ⟨gone, rest, hwhole, hgone, hrest⟩ := h
  exact ⟨gone, rest, hwhole, fun e he => (hgone e he).mono hnow,
    hrest.imp fun _ _ h => ⟨h.1, h.2.mono hnow⟩⟩

theorem forall₂_del {R : List Sample → List Sample → Prop}
    {rest : Dict AgentToolKey (List Sample)}
    (h : List.Forall₂ (fun e e' => e.1 = e'.1 ∧ R e.2 e'.2) keys rest) :
    List.Forall₂ (fun e e' => e.1 = e'.1 ∧ R e.2 e'.2) (keys.del key) (rest.del key) := by
  induction h with
  | nil => exact .nil
  | @cons e e' keys rest he _ ih =>
    rw [Dict.del, Dict.del, List.filter_cons, List.filter_cons, ← he.1]
    split_ifs
    · exact .cons he ih
    · exact ih

theorem Mirrors.del (h : Mirrors now keys whole) (key : AgentToolKey) :
    Mirrors now (keys.del key) (whole.del key) := by
  obtain ⟨gone, rest, rfl, hgone, hrest⟩ := h
  exact ⟨Dict.del gone key, rest.del key, List.filter_append _ _,
    fun e he => hgone e (List.mem_of_mem_filter he), forall₂_del hrest⟩

theorem Mirrors.putLast (h : Mirrors now keys whole) (hends : Ends now samples more) :
    Mirrors now (keys.putLast key samples) (whole.putLast key more) := by
  obtain ⟨gone, rest, heq, hgone, hrest⟩ := h.del key
  refine ⟨gone, rest ++ [(key, more)], ?_, hgone, ?_⟩
  · rw [Dict.putLast, heq, List.append_assoc]
  · exact List.rel_append hrest (.cons ⟨rfl, hends⟩ .nil)

/-- The first that goes is one that is gone already, or the first of both. -/
theorem Mirrors.evictFirst (h : Mirrors now keys whole) (hlength : whole.length ≤ size + 1) :
    Mirrors now (keys.evictFirst size) (whole.evictFirst size) := by
  obtain ⟨gone, rest, rfl, hgone, hrest⟩ := h
  have hsame := hrest.length_eq
  rw [List.length_append] at hlength
  rcases gone with _ | ⟨e, gone⟩
  · rw [List.nil_append, Dict.evictFirst, Dict.evictFirst, hsame]
    split_ifs
    · refine ⟨[], rest.tail, rfl, (by simp), ?_⟩
      cases hrest with
      | nil => exact .nil
      | cons _ hrest => exact hrest
    · exact ⟨[], rest, rfl, (by simp), hrest⟩
  · have hkeys : keys.evictFirst size = keys := by
      rw [Dict.evictFirst, if_neg]
      rw [List.length_cons] at hlength
      omega
    rw [hkeys, Dict.evictFirst]
    split_ifs
    · exact ⟨gone, rest, rfl, fun e he => hgone e (List.mem_cons_of_mem _ he), hrest⟩
    · exact ⟨e :: gone, rest, rfl, hgone, hrest⟩

theorem get?_of_forall₂ {R : List Sample → List Sample → Prop}
    {rest : Dict AgentToolKey (List Sample)} (key : AgentToolKey)
    (h : List.Forall₂ (fun e e' => e.1 = e'.1 ∧ R e.2 e'.2) keys rest) :
    keys.get? key = none ∧ rest.get? key = none ∨
      ∃ samples more, keys.get? key = some samples ∧ rest.get? key = some more ∧
        R samples more := by
  induction h with
  | nil => exact .inl ⟨rfl, rfl⟩
  | @cons e e' keys rest he _ ih =>
    rw [Dict.get?, Dict.get?, List.find?_cons, List.find?_cons, ← he.1]
    split
    · exact .inr ⟨_, _, rfl, rfl, he.2⟩
    · exact ih

/-- What is found under a key is the end of what would be. -/
theorem Mirrors.ends (h : Mirrors now keys whole) (hnodup : whole.NodupKeys)
    (key : AgentToolKey) : Ends now (samplesOf keys key) (samplesOf whole key) := by
  obtain ⟨gone, rest, rfl, hgone, hrest⟩ := h
  have hcases := get?_of_forall₂ key hrest
  rw [samplesOf, samplesOf, Dict.get?_append]
  rcases hg : Dict.get? gone key with _ | samples
  · rw [Option.none_or]
    rcases hcases with ⟨hkeys, hrest⟩ | ⟨_, _, hkeys, hrest, hends⟩ <;> rw [hkeys, hrest]
    · exact ⟨[], rfl, (by simp)⟩
    · exact hends
  · -- A key that is gone is not there again.
    have hmem := Dict.mem_of_get?_eq_some hg
    have hnot : rest.get? key = none := by
      rw [Dict.NodupKeys, List.map_append, List.nodup_append'] at hnodup
      exact Dict.get?_eq_none_iff.2 (hnodup.2.2 (List.mem_map_of_mem hmem))
    rcases hcases with ⟨hkeys, -⟩ | ⟨_, _, -, hrest, -⟩
    · rw [hkeys]
      exact hgone _ hmem
    · cases hnot.symm.trans hrest

theorem Mirrors.get?_eq_none (h : Mirrors now keys whole) (hnone : whole.get? key = none) :
    keys.get? key = none := by
  obtain ⟨gone, rest, rfl, -, hrest⟩ := h
  rw [Dict.get?_append, Option.or_eq_none_iff] at hnone
  rcases get?_of_forall₂ key hrest with ⟨hkeys, -⟩ | ⟨_, _, -, hrest, -⟩
  · exact hkeys
  · cases hnone.2.symm.trans hrest

/-- A call of the tenant does the same to both. -/
theorem Mirrors.own (h : Mirrors c.now keys whole) (hwhole : Tidy c.now whole) :
    Mirrors c.now (c.own keys) (c.own whole) := by
  have hends := h.ends hwhole.nodup c.key
  rcases hsample : c.sample? with _ | x
  · by_cases hreads : c.Reads
    · rw [own_of_reads hreads, own_of_reads hreads, ageOut_eq, ageOut_eq, hends.dropWhile_eq]
      by_cases hnone : whole.get? c.key = none
      · rw [if_pos hnone, if_pos (h.get?_eq_none hnone)]
        exact h
      · rw [if_neg hnone]
        by_cases hgone : keys.get? c.key = none
        · have hnil : samplesOf keys c.key = [] := by
            rw [samplesOf, hgone]
            rfl
          rw [if_pos hgone, hnil, if_pos List.dropWhile_nil]
          exact Dict.del_of_get? hgone ▸ h.del c.key
        · rw [if_neg hgone]
          split_ifs
          · exact h.del c.key
          · exact h.putLast ⟨[], rfl, (by simp)⟩
    · rwa [own_of_not_reads hsample hreads, own_of_not_reads hsample hreads]
  · rw [own_of_sample hsample, own_of_sample hsample, addSample_eq, addSample_eq]
    refine (h.putLast (hends.concat x window)).evictFirst (Dict.length_putLast_le.trans ?_)
    exact Nat.add_le_add_right hwhole.length_le 1

/-! ### Runs -/

theorem exists_of_mem_right {α β : Type*} {R : α → β → Prop} {l : List α} {l' : List β} {y : β}
    (h : List.Forall₂ R l l') (hy : y ∈ l') : ∃ x ∈ l, R x y := by
  induction h with
  | nil => cases hy
  | @cons x y' l l' hxy _ ih =>
    rcases List.mem_cons.1 hy with rfl | hy
    · exact ⟨x, List.mem_cons_self, hxy⟩
    · obtain ⟨x', hx', hrel⟩ := ih hy
      exact ⟨x', List.mem_cons_of_mem _ hx', hrel⟩

/-- A sweep that takes the tenant takes old samples only. -/
theorem Mirrors.reclaim (h : Mirrors now keys whole) (hkeys : Tidy now keys)
    (hnow : now ≤ c.sweepNow) (hold : isReclaimable keys (c.sweepNow - maxAge)) :
    Mirrors c.sweepNow [] whole := by
  obtain ⟨gone, rest, rfl, hgone, hrest⟩ := h.mono hnow
  refine ⟨gone ++ rest, [], by rw [List.append_nil], fun e he => ?_, .nil⟩
  rcases List.mem_append.1 he with he | he
  · exact hgone e he
  · obtain ⟨e', he', -, old, heq, hstale⟩ := exists_of_mem_right hrest he
    have hget := Dict.get?_eq_some_of_mem hkeys.nodup he'
    have hnil := filter_samplesOf_of_isReclaimable hkeys le_rfl hold e'.1
    rw [samplesOf, hget, Option.getD_some, List.filter_eq_nil_iff] at hnil
    refine ⟨e.2, by rw [List.append_nil], fun x hx => ?_⟩
    rw [heq] at hx
    rcases List.mem_append.1 hx with hx | hx
    · exact hstale x hx
    · exact Bool.eq_false_iff.2 (hnil x hx)

theorem tidy_solo (h : Ordered calls) (hnow : Before now calls) (tenantId : String) :
    Tidy now (solo tenantId calls) := by
  induction calls generalizing now with
  | nil => exact .nil
  | cons c calls ih =>
    obtain ⟨hcalls, hbefore, hle⟩ := ordered_cons.1 h
    exact ((ih hcalls hbefore).next le_rfl tenantId).mono (hle.trans (hnow c List.mem_cons_self))

/-- A tenant that has not gone has the last of the keys that it would have with no sweep. -/
theorem mirrors_runs (h : Ordered calls) (hnow : Before now calls)
    (htenant : KeepsTenant tenantId calls) :
    Mirrors now ((runs calls).keysOf tenantId) (solo tenantId calls) := by
  induction calls generalizing now with
  | nil => exact .nil
  | cons c calls ih =>
    obtain ⟨hcalls, hbefore, hle⟩ := ordered_cons.1 h
    have hc : c.sweepNow ≤ now := hnow c List.mem_cons_self
    have hmirrors := ih hcalls hbefore htenant.2
    have hnext : Mirrors c.now (c.next tenantId ((runs calls).keysOf tenantId))
        (solo tenantId (c :: calls)) := by
      rw [solo, LatencyCall.next, LatencyCall.next]
      split_ifs
      · exact hmirrors.own (tidy_solo hcalls hbefore tenantId)
      · exact hmirrors
    rw [runs]
    rcases keysOf_run_cases (bounded_runs calls) c tenantId with heq | ⟨hnil, hgone | hold⟩
    · rw [heq]
      exact hnext.mono (hle.trans hc)
    · exact absurd hgone htenant.1
    · rw [hnil]
      exact (hnext.reclaim ((tidy_runs hcalls hbefore tenantId).next le_rfl _) hle hold).mono hc

theorem exists_before (h : Ordered calls) : ∃ now, Before now calls := by
  cases calls with
  | nil => exact ⟨0, nofun⟩
  | cons c calls =>
    obtain ⟨-, hbefore, hle⟩ := ordered_cons.1 h
    exact ⟨c.sweepNow, List.forall_mem_cons.2 ⟨le_rfl, fun c hc => (hbefore c hc).trans hle⟩⟩

/-- A tenant alone is never one too many. -/
theorem keepsTenant_of_forall (h : ∀ c ∈ calls, c.tenantId = tenantId) :
    KeepsTenant tenantId calls := by
  induction calls with
  | nil => trivial
  | cons c calls ih =>
    obtain ⟨rfl, hcalls⟩ := List.forall_mem_cons.1 h
    refine ⟨?_, ih hcalls⟩
    rw [evictedTenant]
    split_ifs with hnew
    · exact evicted_ne_self hnew.2
    · simp

theorem solo_filter (tenantId : String) (calls : List LatencyCall) :
    solo tenantId (calls.filter (·.tenantId = tenantId)) = solo tenantId calls := by
  induction calls with
  | nil => rfl
  | cons c calls ih =>
    rw [List.filter_cons]
    split_ifs with hown
    · rw [solo, solo, ih]
    · rw [solo, ih, LatencyCall.next, if_neg (by simpa using hown)]

theorem ordered_filter (h : Ordered calls) (p : LatencyCall → Bool) :
    Ordered (calls.filter p) :=
  ⟨h.1.sublist List.filter_sublist, fun c hc => h.2 c (List.mem_of_mem_filter hc)⟩

/-- The store is bounded. A tenant that has not gone gets the mean of its latest recent samples of
    a key that has not gone, and the answers that it would get if there were no other tenant. -/
theorem rollingMean (h : Ordered calls) :
    (runs calls).tenants.length ≤ maxTenants ∧
    (∀ e ∈ (runs calls).tenants, e.2.length ≤ maxKeysPerTenant ∧
      ∀ samples ∈ e.2, samples.2.length ≤ window) ∧
    ∀ tenantId agentId toolName now, Before now calls → KeepsTenant tenantId calls →
      (KeepsKey tenantId (agentId, toolName) calls →
        ((runs calls).averageMs tenantId agentId toolName now).1 =
          meanOf (((recorded tenantId (agentId, toolName) calls).filter (fresh now)).rtake
            window)) ∧
      ((runs calls).averageMs tenantId agentId toolName now).1 =
        ((runs (calls.filter (·.tenantId = tenantId))).averageMs tenantId agentId toolName
          now).1 := by
  refine ⟨(bounded_runs calls).2, fun e he => ?_, fun tenantId agentId toolName now hnow htenant =>
    ⟨averageMs_eq h hnow htenant, ?_⟩⟩
  · obtain ⟨now, hnow⟩ := exists_before h
    have htidy := tidy_runs h hnow e.1
    rw [keysOf, Dict.get?_eq_some_of_mem (bounded_runs calls).1 he] at htidy
    exact ⟨htidy.length_le, fun samples hsamples => (htidy.samples samples hsamples).1⟩
  · have halone : ∀ c ∈ calls.filter (·.tenantId = tenantId), c.tenantId = tenantId :=
      fun c hc => of_decide_eq_true (List.mem_filter.1 hc).2
    have hfilter := ordered_filter h (·.tenantId = tenantId)
    have hbefore : Before now (calls.filter (·.tenantId = tenantId)) :=
      fun c hc => hnow c (List.mem_of_mem_filter hc)
    have hmirrors := mirrors_runs h hnow htenant
    have hmirrors' := mirrors_runs hfilter hbefore (keepsTenant_of_forall halone)
    have htidy := (tidy_solo h hnow tenantId).nodup
    rw [solo_filter] at hmirrors'
    rw [averageMs_fst, averageMs_fst,
      ← (hmirrors.ends htidy (agentId, toolName)).dropWhile_eq,
      (hmirrors'.ends htidy (agentId, toolName)).dropWhile_eq]

/-- Three calls of a tool of an agent, by one tenant, with a fourth by another. -/
private def lookups : List LatencyCall :=
  [⟨.record (some 30), "acme", "desk", "lookup", 3, 3⟩,
    ⟨.record (some 5), "zeta", "desk", "lookup", 2, 2⟩,
    ⟨.record (some 20), "acme", "desk", "lookup", 1, 1⟩,
    ⟨.record (some 10), "acme", "desk", "lookup", 0, 0⟩]

private theorem ordered_lookups : Ordered lookups := by
  refine ⟨?_, ?_⟩ <;> decide

private theorem keepsTenant_lookups : KeepsTenant "acme" lookups :=
  ⟨by decide, by decide, by decide, by decide, trivial⟩

private theorem keepsKey_lookups : KeepsKey "acme" ("desk", "lookup") lookups :=
  ⟨by decide, by decide, by decide, by decide, trivial⟩

theorem rollingMean_lookups :
    ((runs lookups).averageMs "acme" "desk" "lookup" 4).1 = some 20 :=
  (((rollingMean ordered_lookups).2.2 "acme" "desk" "lookup" 4 (by unfold Before; decide +kernel)
    keepsTenant_lookups).1 keepsKey_lookups).trans (by decide +kernel)

end Yuviz.Conversation
