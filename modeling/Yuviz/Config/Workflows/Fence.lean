import Mathlib
import Yuviz.Config.Workflows.Published

/-!
# The fence of the drafts

An editor saves its draft for the number that the row had when the editor read it. A
request that leaves the row as it is, but for the draft, keeps the number, and any
other raises it, so that the draft is saved just when no request in between has changed
what the editor had read (`saveDraft_fenced`).
-/

namespace Yuviz.Config.Workflows

open Python

variable [Runtime] [Jsonb] {ref : AgentRef} {s s' : Rows} {a a' new : Agent} {answer : Answer}
  {op : Op} {r : Request} {rs : List Request} {graph draft : Dict String Json} {n : ℕ}

/-- The row is as it was, but for the draft. -/
def Unchanged (a a' : Agent) : Prop := a' = a ∨ Jsonb.same a.row a'.row

/-- No request of the list changes the row. -/
def Undisturbed (ref : AgentRef) : Rows → List Request → Prop
  | _, [] => True
  | s, r :: rs =>
    (∀ a ∈ s.agent, ∀ a' ∈ (r.run ref s).1.agent, Unchanged a a') ∧
      Undisturbed ref (r.run ref s).1 rs

omit [Runtime] in
theorem configVersion_update (a new : Agent) : (a.update new).configVersion =
    if Jsonb.same a.row (a.update new).row then a.configVersion else a.configVersion + 1 := rfl

/-- What a request writes to the row of an agent is numbered. -/
theorem exists_update (ha : s.agent = some a) (h : perform ref op s = .ok (s', answer)) :
    ∃ new, s'.agent = some (a.update new) := by
  have hlocked {old : Agent} (hold : lockedAgent ref s = .ok old) : old = a :=
    Option.some.inj ((lockedAgent_eq_ok_iff.1 hold).symm.trans ha)
  have hpublish {given : Option (Dict String Json)} {note : Option String}
      (h : publish ref given note s = .ok (s', answer)) :
      ∃ new, s'.agent = some (a.update new) := by
    rw [publish] at h
    obtain ⟨c, -, h⟩ := bind_eq_ok h
    obtain ⟨warnings, -, h⟩ := bind_eq_ok h
    obtain ⟨old, hold, h⟩ := bind_eq_ok h
    obtain rfl := hlocked hold
    obtain ⟨c', -, h⟩ := bind_eq_ok h
    obtain ⟨warnings', -, h⟩ := bind_eq_ok h
    obtain ⟨isLive, -, h⟩ := bind_eq_ok h
    obtain ⟨payload, -, h⟩ := bind_eq_ok h
    obtain ⟨rfl, -⟩ := Prod.mk.inj (Except.ok.inj h)
    exact ⟨_, rfl⟩
  cases op with
  | createAgent greeting systemPrompt workflow columns tenantSlug =>
    rw [perform, createAgent] at h
    obtain ⟨warnings, -, h⟩ := bind_eq_ok h
    obtain ⟨graph, -, h⟩ := bind_eq_ok h
    simp [ha] at h
  | updateAgent fields =>
    rw [perform, updateAgent] at h
    obtain ⟨-, -, h⟩ := bind_eq_ok h
    obtain ⟨old, hold, h⟩ := bind_eq_ok h
    obtain rfl := hlocked hold
    obtain ⟨⟨graph, draft⟩, -, h⟩ := bind_eq_ok h
    obtain ⟨workflow, -, h⟩ := bind_eq_ok h
    obtain ⟨workflowDraft, -, h⟩ := bind_eq_ok h
    obtain ⟨rfl, -⟩ := Prod.mk.inj (Except.ok.inj h)
    exact ⟨_, rfl⟩
  | saveDraft graph base =>
    rw [perform, saveDraft] at h
    obtain ⟨draft, -, h⟩ := bind_eq_ok h
    obtain ⟨old, hold, h⟩ := bind_eq_ok h
    obtain rfl := hlocked hold
    split_ifs at h
    obtain ⟨rfl, -⟩ := Prod.mk.inj (Except.ok.inj h)
    exact ⟨_, rfl⟩
  | publish given note => exact hpublish h
  | rollback version =>
    rw [perform, rollback] at h
    split at h
    · exact hpublish h
    · cases h

/-- A request keeps the number just when it leaves the row unchanged. -/
theorem run_numbered (ref : AgentRef) (r : Request) (ha : s.agent = some a) :
    ∃ a', (r.run ref s).1.agent = some a' ∧
    (Unchanged a a' ∧ a'.configVersion = a.configVersion ∨
      ¬ Unchanged a a' ∧ a'.configVersion = a.configVersion + 1) := by
  have hsame : ∃ a', s.agent = some a' ∧
      (Unchanged a a' ∧ a'.configVersion = a.configVersion ∨
        ¬ Unchanged a a' ∧ a'.configVersion = a.configVersion + 1) :=
    ⟨a, ha, .inl ⟨.inl rfl, rfl⟩⟩
  rw [Request.run]
  by_cases hfails : r.fails
  · rw [if_pos hfails]
    exact hsame
  · rw [if_neg hfails]
    rcases h : perform ref r.op s with failure | ⟨s', answer⟩
    · exact hsame
    · obtain ⟨new, hnew⟩ := exists_update ha h
      refine ⟨a.update new, hnew, ?_⟩
      rw [configVersion_update a new]
      by_cases hrow : Jsonb.same a.row (a.update new).row
      · exact .inl ⟨.inr hrow, if_pos hrow⟩
      · refine .inr ⟨?_, if_neg hrow⟩
        rintro (heq | heq)
        · have := configVersion_update a new
          rw [heq, if_neg (heq ▸ hrow)] at this
          omega
        · exact hrow heq

/-- The number after the requests is that of before just when none of them changed the row. -/
theorem configVersion_eq_iff (ha : s.agent = some a)
    (h : (requests ref).exec s rs = some s') : ∃ a', s'.agent = some a' ∧
      a.configVersion ≤ a'.configVersion ∧
      (a'.configVersion = a.configVersion ↔ Undisturbed ref s rs) := by
  induction rs generalizing s a with
  | nil =>
    obtain rfl := Option.some.inj h
    exact ⟨a, ha, le_rfl, by simp [Undisturbed]⟩
  | cons r rs ih =>
    obtain ⟨a₁, ha₁, hstep⟩ := run_numbered ref r ha
    obtain ⟨a', ha', hle, hiff⟩ := ih ha₁ h
    have hhead : (∀ b ∈ s.agent, ∀ b' ∈ (r.run ref s).1.agent, Unchanged b b') ↔
        Unchanged a a₁ := by
      rw [ha, ha₁]
      simp
    refine ⟨a', ha', ?_, ?_⟩
    · rcases hstep with ⟨-, hversion⟩ | ⟨-, hversion⟩ <;> omega
    · rw [Undisturbed, hhead, ← hiff]
      rcases hstep with ⟨hunchanged, hversion⟩ | ⟨hchanged, hversion⟩
      · rw [hversion, and_iff_right hunchanged]
      · constructor
        · omega
        · exact fun h => absurd h.1 hchanged

/-- A draft that can be stored, and comes with the number the row had before some requests, is saved
    after them just when none of them has changed the row; and if not, it is refused as stale. -/
theorem saveDraft_fenced (ha : s.agent = some a) (h : (requests ref).exec s rs = some s')
    (hstored : stored graph = .ok draft) :
    ((∃ s'' answer, saveDraft ref graph (some a.configVersion) s' = .ok (s'', answer)) ↔
      Undisturbed ref s rs) ∧
    (saveDraft ref graph (some a.configVersion) s' = .error .staleDraft ↔
      ¬ Undisturbed ref s rs) := by
  obtain ⟨a', ha', -, hiff⟩ := configVersion_eq_iff ha h
  have hsave : saveDraft ref graph (some a.configVersion) s' =
      if a'.configVersion = a.configVersion then
        .ok ({ s' with agent := a'.update { a' with workflowDraft := draft } },
          .saved (a'.update { a' with workflowDraft := draft }).configVersion)
      else .error .staleDraft := by
    rw [saveDraft, hstored]
    change (lockedAgent ref s' >>= _) = _
    rw [lockedAgent_eq_ok_iff.2 ha']
    simp [bind, Except.bind, eq_comm]
  rw [← hiff, hsave]
  split_ifs with hversion
  · simp [hversion]
  · simp [hversion]

/-- The rows of an agent that has been created. -/
private def created : Rows :=
  (@Request.run .ascii .ordered clinic
    { op := .createAgent "" "" (some (clinicFlow "Hello." "Be brief." 0)) [] none } {}).1

omit [Runtime] [Jsonb] in
private theorem isSome_created : created.agent.isSome := by decide

/-- Another editor saves a draft, and publishes it. -/
private def meanwhile : List Request :=
  [{ op := .saveDraft (clinicFlow "Good evening." "Be kind." 0) none },
  { op := .publish none none }]

omit [Runtime] [Jsonb] in
private theorem stored_clinicFlow :
    @stored .ordered (clinicFlow "Hi." "Be brief." 0) = .ok (clinicFlow "Hi." "Be brief." 0) := rfl

omit [Runtime] [Jsonb] in
theorem saveDraft_fenced_meanwhile : ∃ a s', created.agent = some a ∧
    (@requests .ascii .ordered clinic).exec created meanwhile = some s' ∧
    (@saveDraft .ascii .ordered clinic (clinicFlow "Hi." "Be brief." 0) (some a.configVersion) s' =
      .error .staleDraft ↔ ¬ @Undisturbed .ascii .ordered clinic created meanwhile) :=
  ⟨created.agent.get isSome_created, _, (Option.some_get _).symm, rfl,
    (@saveDraft_fenced .ascii .ordered clinic created _ _ meanwhile _ _ (Option.some_get _).symm rfl
      stored_clinicFlow).2⟩

end Yuviz.Config.Workflows
