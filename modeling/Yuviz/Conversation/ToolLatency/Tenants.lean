import Mathlib
import Yuviz.Conversation.ToolLatency

/-!
# What a call does to the keys of a tenant

A call changes the keys of its own tenant (`LatencyCall.own`). A tenant loses all its
keys where it goes because tenants are too many, or where a sweep finds that it has
only old samples; and nothing else happens to it (`keysOf_run_cases`).
-/

namespace Yuviz.Conversation

open Python ToolLatencyStore

variable {s : ToolLatencyStore} {c : LatencyCall} {x : Sample} {tenantId tenant : String}
  {cutoff now : ℚ} {tenants : Dict String (Dict AgentToolKey (List Sample))}
  {keys : Dict AgentToolKey (List Sample)}

namespace ToolLatencyStore

/-- The keys of a tenant. -/
def keysOf (s : ToolLatencyStore) (tenantId : String) : Dict AgentToolKey (List Sample) :=
  (s.tenants.get? tenantId).getD []

/-- No tenant is there twice, and there are not too many. -/
def Bounded (tenants : Dict String (Dict AgentToolKey (List Sample))) : Prop :=
  tenants.NodupKeys ∧ tenants.length ≤ maxTenants

/-- What reading a key does to the keys of the tenant. -/
def ageOut (keys : Dict AgentToolKey (List Sample)) (key : AgentToolKey) (now : ℚ) :
    Dict AgentToolKey (List Sample) :=
  match keys.get? key with
  | none => keys
  | some samples =>
    let samples := samples.dropWhile fun x => !decide (now - maxAge ≤ x.time)
    if samples = [] then (keys.moveToEnd key).del key else (keys.moveToEnd key).set key samples

end ToolLatencyStore

namespace LatencyCall

/-- The call reads the samples of a key. -/
def Reads (c : LatencyCall) : Prop :=
  c.operation = .averageMs ∧ ¬ (IsBlank c.tenantId ∨ IsBlank c.agentId)

instance (c : LatencyCall) : Decidable c.Reads := inferInstanceAs (Decidable (_ ∧ _))

/-- What a call does to the keys of its own tenant. -/
def own (c : LatencyCall) (keys : Dict AgentToolKey (List Sample)) :
    Dict AgentToolKey (List Sample) :=
  match c.sample? with
  | some x => (addSample keys c.key x).evictFirst maxKeysPerTenant
  | none => if c.Reads then ageOut keys c.key c.now else keys

/-- What a call makes of the keys of a tenant, if it keeps the tenant. -/
def next (c : LatencyCall) (tenant : String) (keys : Dict AgentToolKey (List Sample)) :
    Dict AgentToolKey (List Sample) :=
  if c.tenantId = tenant then c.own keys else keys

end LatencyCall

namespace ToolLatencyStore

theorem Bounded.set (h : Bounded tenants) (hmem : tenantId ∈ tenants.map Prod.fst) :
    Bounded (tenants.set tenantId keys) := by
  refine ⟨Dict.nodup_keys_set h.1, ?_⟩
  rw [← List.length_map (f := Prod.fst), Dict.keys_set_of_mem hmem, List.length_map]
  exact h.2

theorem Bounded.moveToEnd (h : Bounded tenants) : Bounded (tenants.moveToEnd tenantId) :=
  ⟨h.1.moveToEnd, (Dict.length_moveToEnd h.1).trans_le h.2⟩

theorem mem_keys_moveToEnd (h : tenantId ∈ tenants.map Prod.fst) :
    tenantId ∈ (tenants.moveToEnd tenantId).map Prod.fst := by
  rwa [← Dict.isSome_get?_iff, Dict.get?_moveToEnd, Dict.isSome_get?_iff]

/-! ### Sweeping -/

theorem get?_foldl_sweepTenant (cutoff : ℚ) (tenant : String) (scanned : List String)
    (tenants : Dict String (Dict AgentToolKey (List Sample))) :
    (scanned.foldl (sweepTenant cutoff) tenants).get? tenant = tenants.get? tenant ∨
    (scanned.foldl (sweepTenant cutoff) tenants).get? tenant = none ∧
      ∃ keys, tenants.get? tenant = some keys ∧ isReclaimable keys cutoff := by
  induction scanned generalizing tenants with
  | nil => exact .inl rfl
  | cons tenantId scanned ih =>
    have hstep : (sweepTenant cutoff tenants tenantId).get? tenant = tenants.get? tenant ∨
        (sweepTenant cutoff tenants tenantId).get? tenant = none ∧
          ∃ keys, tenants.get? tenant = some keys ∧ isReclaimable keys cutoff := by
      rw [sweepTenant]
      split
      · exact .inl rfl
      · rename_i keys hkeys
        split_ifs with hreclaim
        · by_cases htenant : tenant = tenantId
          · exact .inr ⟨htenant ▸ Dict.get?_del_self, keys, htenant ▸ hkeys, hreclaim⟩
          · exact .inl (Dict.get?_del_ne htenant)
        · exact .inl Dict.get?_moveToEnd
    rw [List.foldl_cons]
    rcases hstep with hsame | ⟨hnone, hkeys⟩
    · rw [← hsame]
      exact ih _
    · rcases ih (sweepTenant cutoff tenants tenantId) with hrest | ⟨-, keys, hsome, -⟩
      · exact .inr ⟨hrest.trans hnone, hkeys⟩
      · cases hnone.symm.trans hsome

/-- A sweep leaves a tenant as it is, or takes one that has only old samples. -/
theorem keysOf_sweep (s : ToolLatencyStore) (now : ℚ) (tenant : String) :
    (s.sweep now).keysOf tenant = s.keysOf tenant ∨ (s.sweep now).keysOf tenant = [] ∧
      isReclaimable (s.keysOf tenant) (now - maxAge) := by
  have hcases := get?_foldl_sweepTenant (now - maxAge) tenant
    ((s.tenants.take sweepScan).map Prod.fst) s.tenants
  rw [keysOf, keysOf, sweep]
  refine hcases.imp (fun hsame => by rw [hsame]) ?_
  rintro ⟨hnone, keys, hkeys, hreclaim⟩
  rw [hnone, hkeys]
  exact ⟨rfl, hreclaim⟩

theorem Bounded.sweep (h : Bounded s.tenants) : Bounded (s.sweep now).tenants := by
  refine List.foldlRecOn _ _ h fun tenants h tenantId _ => ?_
  rw [sweepTenant]
  split
  · exact h
  · split_ifs
    · exact ⟨h.1.sublist List.filter_sublist, (List.length_filter_le _ _).trans h.2⟩
    · exact h.moveToEnd

/-! ### Admitting a tenant -/

theorem Bounded.admitTenant (h : Bounded s.tenants) (tenantId : String) :
    Bounded (s.admitTenant tenantId) := by
  rw [ToolLatencyStore.admitTenant]
  split
  · rename_i hnone
    have hnodup : (s.tenants.set tenantId []).NodupKeys := Dict.nodup_keys_set h.1
    refine ⟨hnodup.sublist Dict.evictFirst_sublist, Dict.length_evictFirst_le ?_⟩
    rw [Dict.set_of_notMem (Dict.get?_eq_none_iff.1 hnone), List.length_append]
    exact Nat.add_le_add_right h.2 1
  · exact h

/-- A tenant that is new is not the one that goes: there are others before it. -/
theorem evicted_ne_self (hnone : s.tenants.get? tenantId = none) :
    (s.tenants.set tenantId []).evicted maxTenants ≠ some tenantId := by
  have hnew := Dict.get?_eq_none_iff.1 hnone
  rw [Dict.set_of_notMem hnew, Dict.evicted]
  split_ifs with hsize
  · rcases htenants : s.tenants with _ | ⟨e, tenants⟩
    · rw [htenants] at hsize
      cases (by decide : ¬ maxTenants < 1) hsize
    · rw [htenants] at hnew
      intro heq
      exact hnew (Option.some.inj heq ▸ List.mem_cons_self)
  · simp

theorem get?_admitTenant_self (h : Bounded s.tenants) (tenantId : String) :
    (s.admitTenant tenantId).get? tenantId = some (s.keysOf tenantId) := by
  rw [admitTenant, keysOf]
  split
  · rename_i hnone
    rw [Dict.get?_evictFirst (Dict.nodup_keys_set h.1), if_neg (evicted_ne_self hnone),
      Dict.get?_set, if_pos rfl, hnone]
    rfl
  · rename_i keys hkeys
    rw [hkeys]
    rfl

theorem get?_admitTenant_ne (h : Bounded s.tenants) (hne : tenant ≠ tenantId) :
    (s.admitTenant tenantId).get? tenant = s.tenants.get? tenant ∨
    (s.admitTenant tenantId).get? tenant = none ∧ s.tenants.get? tenantId = none ∧
      (s.tenants.set tenantId []).evicted maxTenants = some tenant := by
  rw [admitTenant]
  split
  · rename_i hnone
    rw [Dict.get?_evictFirst (Dict.nodup_keys_set h.1), Dict.get?_set, if_neg hne]
    split_ifs with hevicted
    · exact .inr ⟨rfl, hnone, hevicted⟩
    · exact .inl rfl
  · exact .inl rfl

/-! ### Calls -/

/-- What a call records is a sample of its moment. -/
theorem sample?_eq_some (h : c.sample? = some x) : ∃ ms, c.operation = .record (some ms) ∧
    ¬ (IsBlank c.tenantId ∨ IsBlank c.agentId) ∧ ¬ ms ≤ 0 ∧ x = ⟨c.now, ms⟩ := by
  rw [LatencyCall.sample?] at h
  split at h
  · rename_i ms hoperation
    split_ifs at h with hrefused
    rw [not_or, not_or] at hrefused
    exact ⟨ms, hoperation, not_or.2 ⟨hrefused.1, hrefused.2.1⟩, hrefused.2.2,
      (Option.some.inj h).symm⟩
  · cases h

/-- A call that records a sample may sweep the store then. -/
theorem run_of_sample (h : c.sample? = some x) : ∃ s₁ : ToolLatencyStore,
    s₁.tenants = ((s.admitTenant c.tenantId).moveToEnd c.tenantId).set c.tenantId
      ((addSample (((s.admitTenant c.tenantId).get? c.tenantId).getD []) c.key x).evictFirst
        maxKeysPerTenant) ∧
    (c.run s = s₁ ∨ c.run s = s₁.sweep c.sweepNow) := by
  obtain ⟨ms, hoperation, hblank, hms, rfl⟩ := sample?_eq_some h
  refine ⟨⟨_, s.recordCount + 1⟩, rfl, ?_⟩
  rw [LatencyCall.run, hoperation]
  dsimp only
  rw [record, if_neg hblank]
  dsimp only
  rw [if_neg hms, Dict.get?_moveToEnd]
  split_ifs
  · exact .inr rfl
  · exact .inl rfl

/-- A call that neither records nor reads leaves the store as it is. -/
theorem run_of_not_reads (h : c.sample? = none) (hreads : ¬ c.Reads) : c.run s = s := by
  rw [LatencyCall.run]
  rcases hoperation : c.operation with elapsedMs | _
  · dsimp only
    rw [record.eq_def]
    split_ifs with hblank
    · rfl
    · rcases elapsedMs with _ | ms
      · rfl
      · by_cases hms : ms ≤ 0
        · exact if_pos hms
        · rw [not_or] at hblank
          simp [LatencyCall.sample?, hoperation, hblank.1, hblank.2, hms] at h
  · have hblank : IsBlank c.tenantId ∨ IsBlank c.agentId := by
      by_contra hblank
      exact hreads ⟨hoperation, hblank⟩
    dsimp only
    rw [averageMs, if_pos hblank]

/-- What a call that reads does to the tenants. -/
theorem run_of_reads (h : c.Reads) : ∃ tenants,
    (tenants = s.tenants ∨ tenants = s.tenants.moveToEnd c.tenantId) ∧
    ((c.run s).tenants = tenants ∧ ageOut (s.keysOf c.tenantId) c.key c.now = s.keysOf c.tenantId ∨
      (c.run s).tenants = tenants.del c.tenantId ∧
        ageOut (s.keysOf c.tenantId) c.key c.now = [] ∨
      c.tenantId ∈ s.tenants.map Prod.fst ∧ (c.run s).tenants =
        tenants.set c.tenantId (ageOut (s.keysOf c.tenantId) c.key c.now)) := by
  rw [LatencyCall.run, h.1]
  dsimp only
  rw [averageMs, if_neg h.2, keysOf, ageOut]
  rcases htenant : s.tenants.get? c.tenantId with _ | keys
  · exact ⟨_, .inl rfl, .inl ⟨rfl, rfl⟩⟩
  · refine ⟨_, .inr rfl, ?_⟩
    have hmem : c.tenantId ∈ s.tenants.map Prod.fst := by
      rw [← Dict.isSome_get?_iff, htenant]
      rfl
    dsimp only [Option.getD_some]
    rcases hkey : keys.get? (c.agentId, c.toolName) with _ | samples
    · rw [LatencyCall.key, hkey]
      exact .inl ⟨rfl, rfl⟩
    · rw [LatencyCall.key, hkey]
      dsimp only
      split_ifs with hold hempty
      · exact .inr (.inl ⟨rfl, hempty⟩)
      · exact .inr (.inr ⟨hmem, rfl⟩)
      · exact .inr (.inr ⟨hmem, rfl⟩)

/-! ### Spec of a call -/

theorem own_of_sample (h : c.sample? = some x) :
    c.own keys = (addSample keys c.key x).evictFirst maxKeysPerTenant := by
  rw [LatencyCall.own, h]

theorem own_of_reads (h : c.Reads) : c.own keys = ageOut keys c.key c.now := by
  have hnone : c.sample? = none := by rw [LatencyCall.sample?, h.1]
  rw [LatencyCall.own, hnone]
  exact if_pos h

theorem own_of_not_reads (h : c.sample? = none) (hreads : ¬ c.Reads) : c.own keys = keys := by
  rw [LatencyCall.own, h]
  exact if_neg hreads

/-- The tenants stay bounded. -/
theorem Bounded.run (h : Bounded s.tenants) (c : LatencyCall) : Bounded (c.run s).tenants := by
  rcases hsample : c.sample? with _ | x
  · by_cases hreads : c.Reads
    · obtain ⟨tenants, htenants, hcases⟩ := run_of_reads (s := s) hreads
      have hbounded : Bounded tenants := by
        rcases htenants with rfl | rfl
        · exact h
        · exact h.moveToEnd
      rcases hcases with ⟨heq, -⟩ | ⟨heq, -⟩ | ⟨hmem, heq⟩
      · exact heq ▸ hbounded
      · rw [heq]
        exact ⟨hbounded.1.sublist List.filter_sublist,
          (List.length_filter_le _ _).trans hbounded.2⟩
      · rw [heq]
        refine hbounded.set ?_
        rcases htenants with rfl | rfl
        · exact hmem
        · exact mem_keys_moveToEnd hmem
    · rwa [run_of_not_reads hsample hreads]
  · obtain ⟨s₁, htenants, hrun⟩ := run_of_sample (s := s) hsample
    have hbounded : Bounded s₁.tenants := by
      rw [htenants]
      refine (h.admitTenant _).moveToEnd.set (mem_keys_moveToEnd ?_)
      rw [← Dict.isSome_get?_iff, get?_admitTenant_self h]
      rfl
    rcases hrun with hrun | hrun
    · exact hrun ▸ hbounded
    · exact hrun ▸ hbounded.sweep

/-- A call does its own to the keys of a tenant. Besides, the tenant may lose them: where it goes
    because tenants are too many, or because a sweep finds only old samples. -/
theorem keysOf_run_cases (h : Bounded s.tenants) (c : LatencyCall) (tenant : String) :
    (c.run s).keysOf tenant = c.next tenant (s.keysOf tenant) ∨
    (c.run s).keysOf tenant = [] ∧ (c.evictedTenant s = some tenant ∨
      isReclaimable (c.next tenant (s.keysOf tenant)) (c.sweepNow - maxAge)) := by
  rcases hsample : c.sample? with _ | x
  · refine .inl ?_
    rw [LatencyCall.next]
    by_cases hreads : c.Reads
    · obtain ⟨tenants, htenants, hcases⟩ := run_of_reads (s := s) hreads
      have hget : ∀ tenant, tenants.get? tenant = s.tenants.get? tenant := by
        rcases htenants with rfl | rfl
        · exact fun _ => rfl
        · exact fun _ => Dict.get?_moveToEnd
      rw [own_of_reads hreads]
      split_ifs with htenant
      · subst htenant
        rcases hcases with ⟨heq, hown⟩ | ⟨heq, hown⟩ | ⟨-, heq⟩
        · rw [hown, keysOf, heq, hget, keysOf]
        · rw [hown, keysOf, heq, Dict.get?_del_self]
          rfl
        · rw [keysOf, heq, Dict.get?_set, if_pos rfl]
          rfl
      · have hne : tenant ≠ c.tenantId := Ne.symm htenant
        rw [keysOf, keysOf, ← hget tenant]
        rcases hcases with ⟨heq, -⟩ | ⟨heq, -⟩ | ⟨-, heq⟩
        · rw [heq]
        · rw [heq, Dict.get?_del_ne hne]
        · rw [heq, Dict.get?_set, if_neg hne]
    · rw [run_of_not_reads hsample hreads, own_of_not_reads hsample hreads, ite_self]
  · obtain ⟨s₁, htenants, hrun⟩ := run_of_sample (s := s) hsample
    -- The sweep, if there is one, comes last.
    have hfirst : s₁.keysOf tenant = c.next tenant (s.keysOf tenant) ∨
        s₁.keysOf tenant = [] ∧ c.evictedTenant s = some tenant := by
      rw [keysOf, htenants, Dict.get?_set, LatencyCall.next]
      by_cases htenant : c.tenantId = tenant
      · subst htenant
        rw [if_pos rfl, if_pos rfl, get?_admitTenant_self h, own_of_sample hsample]
        exact .inl rfl
      · have hne : tenant ≠ c.tenantId := Ne.symm htenant
        rw [if_neg htenant, if_neg hne, Dict.get?_moveToEnd]
        rcases get?_admitTenant_ne h hne with hsame | ⟨hnone, hnew, hevicted⟩
        · rw [hsame]
          exact .inl rfl
        · rw [hnone, LatencyCall.evictedTenant, hsample, if_pos ⟨rfl, hnew⟩]
          exact .inr ⟨rfl, hevicted⟩
    rcases hrun with hrun | hrun <;> rw [hrun]
    · exact hfirst.imp_right (And.imp_right .inl)
    · rcases keysOf_sweep s₁ c.sweepNow tenant with hsame | ⟨hnil, hreclaim⟩
      · rw [hsame]
        exact hfirst.imp_right (And.imp_right .inl)
      · rcases hfirst with hnext | ⟨-, hevicted⟩
        · exact .inr ⟨hnil, .inr (hnext ▸ hreclaim)⟩
        · exact .inr ⟨hnil, .inl hevicted⟩

end ToolLatencyStore

end Yuviz.Conversation
