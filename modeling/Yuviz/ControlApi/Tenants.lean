import Mathlib
import Yuviz.ControlApi.Isolation

/-!
# Whose rows the control API comes to

None of the routes checks whose the rows are that a request names. What each of them
does keeps the tenant of the user apart from the others just when what it comes to is
the tenant's own: the id in the path, those in the body, the providers of the policies
that it lists, and, as the numbers are unique among all tenants, the number that it sets.
-/

namespace Yuviz.ControlApi.Isolation

open Python
open Config (CurrentUser)

variable {T : String} {db db' : Db} {e : Entity} {id : String} {row : Row}

/-! ### Rows that are read -/

section Reads

variable {ref : Ref} {t : String} {keep : Row → Bool}
  {order : List (String × Row) → List (String × Row)} {view : String → Row → Response}

theorem finds_listRows : Finds (listRows e ref keep order) := by
  intro db e id _
  cases ref <;> nofun

/-- A list isolates the tenant whose rows it has. -/
theorem isolates_listRows_iff (he : e ≠ .tenant) (horder : ∀ rows, (order rows).Perm rows)
    (hkeep : ∃ row, row.tenantId = t ∧ ¬ row.deleted ∧ keep row) :
    Isolates T (listRows e (.uuid t) keep order) db ↔ t = T := by
  refine ⟨fun h => ?_, ?_⟩
  · by_contra hne
    obtain ⟨row, htenant, hdeleted, hrow⟩ := hkeep
    obtain ⟨id, hnone⟩ := (mine T db e).exists_get?_eq_none
    have heq := h.eq_mine row hnone (by rw [owner_of_ne he, htenant]; exact hne)
    have hleft : listRows e (.uuid t) keep order (mine T db) = (mine T db, .rows []) := by
      have hnil : ((mine T db e).rows.filter fun x =>
          x.2.tenantId = t ∧ ¬ x.2.deleted ∧ keep x.2) = [] := by
        refine List.filter_eq_nil_iff.2 fun x hx => ?_
        have howner := (get?_mine.1 (Table.get?_eq_some_iff.2 hx)).2
        rw [owner_of_ne he] at howner
        simp [howner, Ne.symm hne]
      simp only [listRows]
      rw [hnil, (horder []).eq_nil]
      rfl
    rw [hleft] at heq
    have hmem : (id, row) ∈ ((mine T db).set e id row e).rows.filter fun x =>
        x.2.tenantId = t ∧ ¬ x.2.deleted ∧ keep x.2 := by
      refine List.mem_filter.2 ⟨Table.get?_eq_some_iff.1 ?_, ?_⟩
      · rw [get?_set, if_pos ⟨rfl, rfl⟩]
      · exact decide_eq_true ⟨htenant, hdeleted, hrow⟩
    have hnil := List.map_eq_nil_iff.1 (Response.rows.inj heq)
    exact List.not_mem_nil ((((horder _).symm.trans (hnil ▸ .refl _)).mem_iff).1 hmem)
  · rintro rfl
    refine isolates_read ((listRows e (.uuid t) keep order db).2) fun db' hagree => ?_
    have hfilter := hagree.filter he fun x => decide (¬ x.2.deleted ∧ keep x.2)
    simp only [← Bool.decide_and] at hfilter
    simp only [listRows, hfilter]

theorem finds_viewRow (hview : ∀ id row e' id', view id row ≠ .notFound e' id') :
    Finds (viewRow e ref view) := by
  intro db e' id' hlive h
  obtain ⟨row, hrow, hdeleted⟩ := live_iff.1 hlive
  cases ref with
  | malformed text => cases h
  | uuid id =>
    simp only [viewRow] at h
    split at h
    · next hnone =>
      cases h
      cases hrow.symm.trans hnone
    · next old hold =>
      split_ifs at h with hdel
      · cases h
        obtain rfl := Option.some.inj (hrow.symm.trans hold)
        exact hdeleted hdel
      · exact hview _ _ _ _ h

/-- To read a row does so if it is the tenant's own, -/
theorem isolates_viewRow_iff
    (hview : ∀ id row e' id', view id row ≠ .notFound e' id') :
    Isolates T (viewRow e (.uuid id) view) db ↔ Own T db e id := by
  refine ⟨fun h => ?_, fun hown => ?_⟩
  · by_contra hother
    have heq := h.eq_mine _ (get?_mine_of_not_own hother) (owner_stranger hother)
    simp only [viewRow, get?_set, get?_mine_of_not_own hother] at heq
    exact hview _ _ _ _ heq
  · refine isolates_read ((viewRow e (.uuid id) view db).2) fun db' hagree => ?_
    simp only [viewRow, hown.get?_eq hagree]
    split <;> rfl

end Reads

/-! ### Rows that are written -/

section Writes

variable {ref : Ref} {live : Bool} {conflicts : Row → Row → Row → Bool}
  {edit : Row → Except Response Row} {answer : String → Row → Response}

/-- What is done once the row has been found. -/
theorem modifyRow_of_get? (live : Bool) (conflicts : Row → Row → Row → Bool)
    (edit : Row → Except Response Row) (answer : String → Row → Response)
    (hrow : (db e).get? id = some row) :
    modifyRow e (.uuid id) live conflicts edit answer db =
      if live ∧ row.deleted then (db, .notFound e id)
      else
        match edit row with
        | .error response => (db, response)
        | .ok row' =>
          if (db e).rows.any fun x => x.1 ≠ id ∧ conflicts row row' x.2 then (db, .conflict)
          else (db.set e id row', answer id row') := by
  dsimp only [modifyRow]
  generalize (db e).get? id = found at hrow ⊢
  subst hrow
  rfl

theorem finds_modifyRow (hedit : ∀ row response e' id', edit row = .error response →
      response ≠ .notFound e' id')
    (hanswer : ∀ id row e' id', answer id row ≠ .notFound e' id') :
    Finds (modifyRow e ref live conflicts edit answer) := by
  intro db e' id' hlive h
  obtain ⟨row, hrow, hdeleted⟩ := live_iff.1 hlive
  cases ref with
  | malformed text => cases h
  | uuid id =>
    cases hget : (db e).get? id with
    | none =>
      simp only [modifyRow, hget] at h
      cases h
      cases hrow.symm.trans hget
    | some old =>
      rw [modifyRow_of_get? live conflicts edit answer hget] at h
      split_ifs at h with hdel
      · cases h
        obtain rfl := Option.some.inj (hrow.symm.trans hget)
        exact hdeleted hdel.2
      · split at h
        · next response hresponse => exact hedit _ _ _ _ hresponse h
        · split_ifs at h
          exact hanswer _ _ _ _ h

/-- and to write one only then. -/
theorem own_of_isolates_modifyRow (hedit : ∀ row response e' id', edit row = .error response →
      response ≠ .notFound e' id')
    (hanswer : ∀ id row e' id', answer id row ≠ .notFound e' id')
    (h : Isolates T (modifyRow e (.uuid id) live conflicts edit answer) db) : Own T db e id := by
  by_contra hother
  have heq := h.eq_mine _ (get?_mine_of_not_own hother) (owner_stranger hother)
  have hlive : ((mine T db).set e id (stranger T)).live e id := by
    refine live_iff.2 ⟨stranger T, ?_, Bool.false_ne_true⟩
    rw [get?_set, if_pos ⟨rfl, rfl⟩]
  refine finds_modifyRow hedit hanswer _ e id hlive (heq.trans ?_)
  simp only [modifyRow, get?_mine_of_not_own hother]

/-- Where a row of another would be in the way, one of the tenant is. -/
theorem conflict_of_isolates_modifyRow {row' : Row} (other : Row) (hrow : (db e).get? id = some row)
    (howner : owner e id row = T) (hlive : ¬ (live ∧ row.deleted)) (hedit : edit row = .ok row')
    (hanswer : answer id row' ≠ .conflict) (hother : ∀ id, owner e id other ≠ T)
    (hconflicts : conflicts row row' other)
    (h : Isolates T (modifyRow e (.uuid id) live conflicts edit answer) db) :
    ∃ x ∈ (db e).rows, x.1 ≠ id ∧ owner e x.1 x.2 = T ∧ conflicts row row' x.2 := by
  by_contra hfree
  have hrun (db' : Db) (hget : (db' e).get? id = some row) :
      modifyRow e (.uuid id) live conflicts edit answer db' =
        if (db' e).rows.any fun x => x.1 ≠ id ∧ conflicts row row' x.2 then (db', .conflict)
        else (db'.set e id row', answer id row') := by
    rw [modifyRow_of_get? live conflicts edit answer hget, if_neg hlive, hedit]
  have hmine : (mine T db e).get? id = some row := get?_mine.2 ⟨hrow, howner⟩
  obtain ⟨fresh, hnone⟩ := (mine T db e).exists_get?_eq_none
  have hne : fresh ≠ id := by
    rintro rfl
    cases hmine.symm.trans hnone
  have heq := h.eq_mine other hnone (hother fresh)
  rw [hrun _ hmine, hrun _ (by rwa [get?_set, if_neg fun h => hne h.2.symm]), if_pos, if_neg] at heq
  · exact hanswer heq.symm
  · intro hany
    obtain ⟨x, hx, hdecide⟩ := List.any_eq_true.1 hany
    obtain ⟨hxid, hx'⟩ := of_decide_eq_true hdecide
    obtain ⟨hget, hxowner⟩ := get?_mine.1 (Table.get?_eq_some_iff.2 hx)
    exact hfree ⟨x, Table.get?_eq_some_iff.1 hget, hxid, hxowner, hx'⟩
  · refine List.any_eq_true.2 ⟨(fresh, other), Table.get?_eq_some_iff.1 ?_, ?_⟩
    · rw [get?_set, if_pos ⟨rfl, rfl⟩]
    · exact decide_eq_true ⟨hne, hconflicts⟩

/-- A row of the tenant is changed. That another row is in the way does not depend on those
    of others. -/
theorem isolates_modifyRow (hrow : (db e).get? id = some row) (howner : owner e id row = T)
    (hedit : ∀ row', edit row = .ok row' → owner e id row' = T ∧
      ∀ x ∈ refs row', Own T db x.1 x.2 ∨ x ∈ refs row)
    (hdecided : ∀ row', edit row = .ok row' → (∀ other, ¬ conflicts row row' other) ∨
      ∃ x ∈ (db e).rows, x.1 ≠ id ∧ owner e x.1 x.2 = T ∧ conflicts row row' x.2) :
    Isolates T (modifyRow e (.uuid id) live conflicts edit answer) db := by
  have hget (db' : Db) (hagree : Agree T db db') :=
    modifyRow_of_get? live conflicts edit answer (hagree.get? hrow howner)
  by_cases hdeleted : live ∧ row.deleted
  · exact isolates_read _ fun db' hagree => (hget db' hagree).trans (if_pos hdeleted)
  simp only [if_neg hdeleted] at hget
  cases hedited : edit row with
  | error response =>
    simp only [hedited] at hget
    exact isolates_read _ hget
  | ok row' =>
    simp only [hedited] at hget
    obtain ⟨howner', hrefs⟩ := hedit row' hedited
    rcases hdecided row' hedited with hnone | ⟨x, hx, hne, hown, hconflicts⟩
    · have hfree (db' : Db) : ¬ (db' e).rows.any fun x => x.1 ≠ id ∧ conflicts row row' x.2 := by
        simp [hnone]
      simp only [if_neg (hfree _)] at hget
      exact isolates_replace hget hrow howner howner' hrefs
    · refine isolates_read .conflict fun db' hagree => ?_
      have hmem : x ∈ (db' e).rows :=
        Table.get?_eq_some_iff.1 (hagree.get? (Table.get?_eq_some_iff.2 hx) hown)
      rw [hget db' hagree, if_pos]
      exact List.any_eq_true.2 ⟨x, hmem, decide_eq_true ⟨hne, hconflicts⟩⟩

end Writes

section Updates

variable {ref : Ref} {live : Bool} {answer : String → Row → Response} {notNull : List String}
  {fields : Dict String Json} {links : LinkColumn → Option (Option String)}
  {edit : Row → Except Response Row}

/-- Nothing else is in the way, and the row stays with its tenant and refers to the same. -/
theorem isolates_modifyRow_iff (he : e ≠ .tenant)
    (hfails : ∀ row response e' id', edit row = .error response → response ≠ .notFound e' id')
    (hanswer : ∀ id row e' id', answer id row ≠ .notFound e' id')
    (hedit : ∀ row row', edit row = .ok row' →
      row'.tenantId = row.tenantId ∧ refs row' = refs row) :
    Isolates T (modifyRow e (.uuid id) live (fun _ _ _ => false) edit answer) db ↔
      Own T db e id := by
  refine ⟨own_of_isolates_modifyRow hfails hanswer, fun hown => ?_⟩
  obtain ⟨row, hrow, htenant⟩ := hown.exists_row he
  refine isolates_modifyRow hrow ((owner_of_ne he).trans htenant) (fun row' hrow' => ?_)
    fun _ _ => .inl fun _ => Bool.false_ne_true
  obtain ⟨htenant', hrefs⟩ := hedit row row' hrow'
  exact ⟨(owner_of_ne he).trans (htenant'.trans htenant), fun x hx => .inr (hrefs ▸ hx)⟩

theorem setColumns_eq_ok {row' : Row} (h : setColumns notNull fields links row = .ok row') :
    nulls notNull fields = false ∧
      row' = { row.set fields with links := fun c => (links c).getD (row.links c) } := by
  rw [setColumns] at h
  split_ifs at h with hnulls
  exact ⟨by simpa using hnulls, (Except.ok.inj h).symm⟩

theorem setColumns_eq (h : nulls notNull fields = false) : setColumns notNull fields links row =
    .ok { row.set fields with links := fun c => (links c).getD (row.links c) } :=
  if_neg (Bool.eq_false_iff.1 h)

/-- A column that may not be null is no reason to find nothing. -/
theorem setColumns_ne_notFound {response : Response} {e' : Entity} {id' : String}
    (h : setColumns notNull fields links row = .error response) : response ≠ .notFound e' id' := by
  rw [setColumns] at h
  split_ifs at h
  cases h
  nofun

theorem answerRow_ne_notFound {e' : Entity} {id' : String} :
    answerRow id row ≠ .notFound e' id' := nofun

theorem answerRow_ne_conflict : answerRow id row ≠ .conflict := nofun

/-- Columns that refer to nothing may be set in a row of its own. -/
theorem isolates_setColumns_iff (he : e ≠ .tenant) :
    Isolates T (modifyRow e (.uuid id) live (fun _ _ _ => false)
      (setColumns notNull fields fun _ => none) answerRow) db ↔ Own T db e id := by
  refine isolates_modifyRow_iff he (fun _ _ _ _ => setColumns_ne_notFound) (fun _ _ _ _ => nofun)
    fun row row' hrow' => ?_
  obtain ⟨-, rfl⟩ := setColumns_eq_ok hrow'
  exact ⟨rfl, rfl⟩

/-- A row of its own may be deleted. -/
theorem isolates_softDelete_iff (he : e ≠ .tenant) :
    Isolates T (softDelete e (.uuid id)) db ↔ Own T db e id := by
  refine isolates_modifyRow_iff he (fun _ _ _ _ => nofun) (fun _ _ _ _ => nofun)
    fun row row' hrow' => ?_
  obtain rfl := Except.ok.inj hrow'
  exact ⟨rfl, rfl⟩

theorem isolates_updateCampaign_iff :
    Isolates T (updateCampaign (.uuid id) fields) db ↔ Own T db .campaign id := by
  rw [updateCampaign]
  split_ifs
  · exact isolates_viewRow_iff fun _ _ _ _ => nofun
  · exact isolates_setColumns_iff nofun

theorem updateCampaign_malformed {text : String} :
    updateCampaign (.malformed text) fields db = (db, .invalidInput text) := by
  rw [updateCampaign]
  split_ifs <;> rfl

theorem finds_updateCampaign : Finds (updateCampaign ref fields) := by
  rw [updateCampaign]
  split_ifs
  · exact finds_viewRow fun _ _ _ _ => nofun
  · exact finds_modifyRow (fun _ _ _ _ => setColumns_ne_notFound) fun _ _ _ _ => nofun

end Updates

/-! ### Phone numbers -/

section PhoneNumbers

variable {ids : Ids} {body : PhoneNumberUpdate}

/-- A number of the tenant has the DID. -/
def Taken (T : String) (db : Db) (did : String) : Prop :=
  ∃ x ∈ (db .phoneNumber).rows, x.2.tenantId = T ∧ x.2.text "did" = did

/-- A number of another. -/
def numbered (T did : String) : Row := { stranger T with columns := [("did", .str did)] }

theorem Taken.of_agree {did : String} (h : Taken T db did) (hagree : Agree T db db') :
    Taken T db' did := by
  obtain ⟨x, hx, htenant, hdid⟩ := h
  have hx' := hagree.get? (Table.get?_eq_some_iff.2 hx) htenant
  exact ⟨x, Table.get?_eq_some_iff.1 hx', htenant, hdid⟩

theorem taken_mine {did : String} (h : Taken T (mine T db) did) : Taken T db did :=
  h.of_agree agree_mine.symm

/-- A number may be added only where the tenant has it already, which is a conflict. -/
theorem isolates_insertPhoneNumber_iff {body : PhoneNumberCreate} :
    Isolates T (insertPhoneNumber ids (.uuid T) body) db ↔ Taken T db body.did := by
  refine ⟨fun h => ?_, fun h => ?_⟩
  · by_contra hfree
    -- Another tenant can have the number.
    obtain ⟨id, hnone⟩ := (mine T db .phoneNumber).exists_get?_eq_none
    have heq := h.eq_mine (numbered T body.did) hnone append_ne
    have hmine : ¬ (mine T db .phoneNumber).rows.any (·.2.text "did" = body.did) := by
      intro hany
      obtain ⟨x, hx, hdid⟩ := List.any_eq_true.1 hany
      have howner := (get?_mine.1 (Table.get?_eq_some_iff.2 hx)).2
      exact hfree (taken_mine ⟨x, hx, howner, of_decide_eq_true hdid⟩)
    have hother : ((mine T db).set .phoneNumber id (numbered T body.did) .phoneNumber).rows.any
        (·.2.text "did" = body.did) := by
      refine List.any_eq_true.2 ⟨(id, numbered T body.did), Table.get?_eq_some_iff.1 ?_, ?_⟩
      · rw [get?_set, if_pos ⟨rfl, rfl⟩]
      · exact decide_eq_true rfl
    simp only [insertPhoneNumber, if_pos hother, if_neg hmine] at heq
    cases heq
  · refine isolates_read .conflict fun db' hagree => ?_
    obtain ⟨x, hx, -, hdid⟩ := h.of_agree hagree
    simp only [insertPhoneNumber]
    exact if_pos (List.any_eq_true.2 ⟨x, hx, decide_eq_true hdid⟩)

theorem finds_insertPhoneNumber {ref : Ref} {body : PhoneNumberCreate} :
    Finds (insertPhoneNumber ids ref body) := by
  intro db e id _
  cases ref with
  | malformed text => nofun
  | uuid t =>
    simp only [insertPhoneNumber]
    split_ifs <;> nofun

theorem finds_updatePhoneNumber {ref : Ref} : Finds (updatePhoneNumber ref body) :=
  finds_modifyRow (fun _ _ _ _ => setColumns_ne_notFound) fun _ _ _ _ => nofun

/-- What the row refers to has been checked. -/
theorem isolates_updatePhoneNumber_iff
    (hlinks : ∀ c x, body.links c = some (some (.uuid x)) → Own T db c.target x) :
    Isolates T (updatePhoneNumber (.uuid id) body) db ↔
      ∃ row, (db .phoneNumber).get? id = some row ∧ row.tenantId = T ∧
        (nulls ["did", "status"] body.columns ∨
          Taken T db ((row.set body.columns).text "did")) := by
  refine ⟨fun h => ?_, fun ⟨row, hrow, htenant, hdid⟩ => ?_⟩
  · obtain ⟨row, hrow, htenant⟩ :=
      (own_of_isolates_modifyRow (fun _ _ _ _ => setColumns_ne_notFound)
        (fun _ _ _ _ => answerRow_ne_notFound) h).exists_row nofun
    refine ⟨row, hrow, htenant, or_iff_not_imp_left.2 fun hnulls => ?_⟩
    by_cases hdid : (row.set body.columns).text "did" = row.text "did"
    · exact ⟨(id, row), Table.get?_eq_some_iff.1 hrow, htenant, hdid.symm⟩
    -- Another tenant can have the number.
    obtain ⟨x, hx, -, howner, htakes⟩ := conflict_of_isolates_modifyRow
      (numbered T ((row.set body.columns).text "did")) hrow htenant
      (fun hlive => Bool.false_ne_true hlive.1) (setColumns_eq (Bool.eq_false_iff.2 hnulls))
      answerRow_ne_conflict (fun _ => append_ne)
      (Bool.and_eq_true_iff.2 ⟨decide_eq_true hdid, decide_eq_true rfl⟩) h
    exact ⟨x, hx, howner, of_decide_eq_true (Bool.and_eq_true_iff.1 htakes).2⟩
  · refine isolates_modifyRow hrow htenant (fun row' hrow' => ?_) fun row' hrow' => ?_
    · obtain ⟨-, rfl⟩ := setColumns_eq_ok hrow'
      refine ⟨htenant, fun x hx => ?_⟩
      rcases mem_refs.1 hx with ⟨c, i, hlink, rfl⟩ | hpolicy
      · cases hset : body.links c with
        | none =>
          have hlink : row.links c = some i := by simpa [hset] using hlink
          exact .inr (mem_refs.2 (.inl ⟨c, i, hlink, rfl⟩))
        | some ref =>
          have hlink : ref.bind Ref.uuid? = some i := by simpa [hset] using hlink
          obtain ⟨_ | x, rfl, hx⟩ := Option.bind_eq_some_iff.1 hlink
          · cases hx
          · cases hx
            exact .inl (hlinks c i hset)
      · exact .inr (mem_refs.2 (.inr hpolicy))
    · obtain ⟨hnulls, rfl⟩ := setColumns_eq_ok hrow'
      rcases hdid with hnulls' | ⟨x, hx, howner, hdid⟩
      · rw [hnulls] at hnulls'
        cases hnulls'
      · by_cases heq : (row.set body.columns).text "did" = row.text "did"
        · exact .inl fun other htakes => of_decide_eq_true (Bool.and_eq_true_iff.1 htakes).1 heq
        · refine .inr ⟨x, hx, ?_, howner, ?_⟩
          · rintro hxid
            have hxrow := (Table.get?_eq_some_iff (k := x.1) (v := x.2)).2 hx
            obtain rfl := Option.some.inj (hrow.symm.trans (hxid ▸ hxrow))
            exact heq hdid.symm
          · exact Bool.and_eq_true_iff.2 ⟨decide_eq_true heq, decide_eq_true hdid⟩

end PhoneNumbers

/-! ### Providers of tools and policies -/

section Tools

variable {ids : Ids} {ref : Ref} {toolName : String}
  {edit : Policy → Except Response (Option Policy)} {answer : Policy → Response}

theorem finds_insertToolProviderConfig {body : ToolProviderConfigCreate}
    {apiKeyRef : Option String} : Finds (insertToolProviderConfig ids ref body apiKeyRef) := by
  intro db e id _
  cases ref <;> nofun

/-- A provider may be added whatever the others have. -/
theorem isolates_insertToolProviderConfig {body : ToolProviderConfigCreate}
    {apiKeyRef : Option String} :
    Isolates T (insertToolProviderConfig ids (.uuid T) body apiKeyRef) db := by
  exact isolates_create (fun _ _ => rfl) rfl (List.forall_mem_nil _)

theorem view_eq_some {policy : Policy} {view : PolicyView}
    (h : policy.view db toolName = some view) :
    view.policy = policy ∧ ((db .toolProvider).get? policy.toolProviderConfigId).isSome := by
  obtain ⟨config, hconfig, h⟩ := Option.bind_eq_some_iff.1 h
  split_ifs at h
  obtain rfl := Option.some.inj h
  exact ⟨rfl, by rw [hconfig]; rfl⟩

theorem view_of_get? {policy : Policy} (config : Row)
    (h : (db .toolProvider).get? policy.toolProviderConfigId = some config)
    (hdeleted : ¬ config.deleted) : policy.view db toolName =
      some ⟨toolName, policy, config.text "name", config.text "engine"⟩ := by
  rw [Policy.view, h, Option.bind_some, if_neg hdeleted]

/-- A provider that is seen in a list is there wherever the list is the same. -/
theorem provider_of_views {policies : Dict String Policy} {x : String × Policy} (config : Row)
    (h : policies.filterMap (fun x => x.2.view db x.1) =
      policies.filterMap fun x => x.2.view db' x.1) (hx : x ∈ policies)
    (hconfig : (db .toolProvider).get? x.2.toolProviderConfigId = some config)
    (hdeleted : ¬ config.deleted) :
    ((db' .toolProvider).get? x.2.toolProviderConfigId).isSome := by
  have hmem : (⟨x.1, x.2, config.text "name", config.text "engine"⟩ : PolicyView) ∈
      policies.filterMap fun x => x.2.view db x.1 :=
    List.mem_filterMap.2 ⟨x, hx, view_of_get? config hconfig hdeleted⟩
  rw [h] at hmem
  obtain ⟨y, -, hy⟩ := List.mem_filterMap.1 hmem
  obtain ⟨hpolicy, hsome⟩ := view_eq_some hy
  rwa [← hpolicy] at hsome

theorem finds_listForAgent : Finds (listForAgent ref) := by
  intro db e id _
  cases ref <;> nofun

/-- The policies of an agent name their providers, and so these are to be its own. -/
theorem isolates_listForAgent_iff : Isolates T (listForAgent (.uuid id)) db ↔
    ∃ agent, (db .agent).get? id = some agent ∧ agent.tenantId = T ∧
      ∀ x ∈ agent.policies, Own T db .toolProvider x.2.toolProviderConfigId := by
  have hanswer (db : Db) : (listForAgent (.uuid id) db).2 =
      .policies (((((db .agent).get? id).map Row.policies).getD []).filterMap
        fun x => x.2.view db x.1) := rfl
  refine ⟨fun h => ?_, fun ⟨agent, hagent, htenant, hconfigs⟩ => ?_⟩
  · have hown : Own T db .agent id := by
      by_contra hother
      -- An agent of another, with a policy.
      obtain ⟨config, hconfig⟩ := (mine T db .toolProvider).exists_get?_eq_none
      have hagree : Agree T db (((mine T db).set .toolProvider config (stranger T)).set .agent id
          { stranger T with policies := [("", ⟨config, []⟩)] }) := by
        refine agree_mine.trans ((agree_set (fun old hold => ?_) append_ne).trans
          (agree_set (fun old hold => ?_) append_ne))
        · rw [hconfig] at hold
          cases hold
        · rw [get?_set, if_neg nofun, get?_mine_of_not_own hother] at hold
          cases hold
      have heq := (h.same _ hagree).trans (h.same _ agree_mine).symm
      rw [hanswer, hanswer, get?_mine_of_not_own hother, get?_set, if_pos ⟨rfl, rfl⟩] at heq
      have hview := List.filterMap_eq_nil_iff.1 (Response.policies.inj heq) _ List.mem_cons_self
      rw [view_of_get? (stranger T) (by
        rw [get?_set, if_neg nofun, get?_set, if_pos ⟨rfl, rfl⟩]) Bool.false_ne_true] at hview
      cases hview
    obtain ⟨agent, hagent, htenant⟩ := hown.exists_row nofun
    refine ⟨agent, hagent, htenant, fun x hx => ?_⟩
    by_contra hother
    have hnone := get?_mine_of_not_own hother
    have heq := h.eq_mine _ hnone (owner_stranger hother)
    have hmine : (mine T db .agent).get? id = some agent := get?_mine.2 ⟨hagent, htenant⟩
    rw [hanswer, hanswer, get?_set, if_neg nofun, hmine] at heq
    have hsome := provider_of_views (stranger T) (Response.policies.inj heq) hx
      (by rw [get?_set, if_pos ⟨rfl, rfl⟩]) Bool.false_ne_true
    rw [hnone] at hsome
    cases hsome
  · refine isolates_read ((listForAgent (.uuid id) db).2) fun db' hagree => ?_
    refine Prod.ext rfl ?_
    rw [hanswer, hanswer, hagree.get? hagent htenant, hagent]
    refine congrArg Response.policies (List.filterMap_congr fun x hx => ?_)
    rw [Policy.view, Policy.view, (hconfigs x hx).get?_eq hagree]

theorem finds_modifyPolicy
    (hedit : ∀ policy response e id, edit policy = .error response → response ≠ .notFound e id)
    (hanswer : ∀ policy e id, answer policy ≠ .notFound e id) :
    Finds (modifyPolicy ref toolName edit answer) := by
  intro db e' id' _ h
  cases ref with
  | malformed text => cases h
  | uuid id =>
    simp only [modifyPolicy] at h
    split at h
    · cases h
    · split at h
      · cases h
      · split at h
        · next response hresponse => exact hedit _ _ _ _ hresponse h
        · cases h
        · exact hanswer _ _ _ h

/-- A policy is written with the agent that it is of. -/
theorem isolates_writePolicies {agent : Row} {handler : Handler} (policies : Dict String Policy)
    (response : Response) (hagent : (db .agent).get? id = some agent) (htenant : agent.tenantId = T)
    (hpolicies : ∀ x ∈ policies, Own T db .toolProvider x.2.toolProviderConfigId ∨
      ∃ y ∈ agent.policies, y.2.toolProviderConfigId = x.2.toolProviderConfigId)
    (h : ∀ db', Agree T db db' →
      handler db' = (db'.set .agent id { agent with policies := policies }, response)) :
    Isolates T handler db := by
  refine isolates_replace h hagent htenant htenant fun x hx => ?_
  rcases mem_refs.1 hx with hlink | ⟨y, hy, rfl⟩
  · exact .inr (mem_refs.2 (.inl hlink))
  · refine (hpolicies y hy).imp_right fun ⟨z, hz, heq⟩ => ?_
    exact mem_refs.2 (.inr ⟨z, hz, by rw [heq]⟩)

theorem isolates_modifyPolicy_iff
    (hfails : ∀ policy response, edit policy = .error response → response ≠ .noPolicy id toolName)
    (hanswer : ∀ policy, answer policy ≠ .noPolicy id toolName)
    (hedit : ∀ policy policy', edit policy = .ok (some policy') →
      policy'.toolProviderConfigId = policy.toolProviderConfigId) :
    Isolates T (modifyPolicy (.uuid id) toolName edit answer) db ↔ Own T db .agent id := by
  refine ⟨fun h => ?_, fun hown => ?_⟩
  · by_contra hother
    have hnone := get?_mine_of_not_own hother
    have heq := h.eq_mine { stranger T with policies := [(toolName, ⟨"", []⟩)] } hnone append_ne
    simp only [modifyPolicy, get?_set, hnone, and_self, if_true] at heq
    have hget : Dict.get? [(toolName, (⟨"", []⟩ : Policy))] toolName = some ⟨"", []⟩ := by
      simp [Dict.get?]
    simp only [hget] at heq
    split at heq
    · next response hresponse => exact hfails _ _ hresponse heq
    · cases heq
    · exact hanswer _ heq
  · obtain ⟨agent, hagent, htenant⟩ := hown.exists_row (by simp)
    have hget (db' : Db) (hagree : Agree T db db') := hagree.get? hagent htenant
    cases hpolicy : agent.policies.get? toolName with
    | none =>
      refine isolates_read (.noPolicy id toolName) fun db' hagree => ?_
      simp only [modifyPolicy, hget db' hagree, hpolicy]
    | some policy =>
      have hmem := Dict.mem_of_get?_eq_some hpolicy
      cases hresult : edit policy with
      | error response =>
        refine isolates_read response fun db' hagree => ?_
        simp only [modifyPolicy, hget db' hagree, hpolicy, hresult]
      | ok result =>
        cases result with
        | none =>
          refine isolates_writePolicies (agent.policies.del toolName) .noContent hagent htenant
            (fun x hx => .inr ⟨x, (List.mem_filter.1 hx).1, rfl⟩) fun db' hagree => ?_
          simp only [modifyPolicy, hget db' hagree, hpolicy, hresult]
        | some policy' =>
          refine isolates_writePolicies (agent.policies.set toolName policy') (answer policy')
            hagent htenant (fun x hx => ?_) fun db' hagree => ?_
          · rcases Dict.mem_set hx with rfl | hx
            · exact .inr ⟨_, hmem, (hedit policy policy' hresult).symm⟩
            · exact .inr ⟨x, hx, rfl⟩
          · simp only [modifyPolicy, hget db' hagree, hpolicy, hresult]

theorem editPolicy_eq_error {fields : Dict String Json} {policy : Policy} {response : Response}
    (h : editPolicy fields policy = .error response) : response = .serverError := by
  rw [editPolicy] at h
  split_ifs at h
  exact (Except.error.inj h).symm

theorem editPolicy_eq_ok {fields : Dict String Json} {policy policy' : Policy}
    (h : editPolicy fields policy = .ok (some policy')) :
    policy'.toolProviderConfigId = policy.toolProviderConfigId := by
  rw [editPolicy] at h
  split_ifs at h
  obtain rfl := Option.some.inj (Except.ok.inj h)
  rfl

theorem finds_insertPolicy [Runtime] {body : AgentToolPolicyCreate} :
    Finds (insertPolicy ref body) := by
  intro db e id _ h
  simp only [insertPolicy] at h
  split at h
  · split_ifs at h
  · split_ifs at h
  · split at h
    · cases h
    · split_ifs at h

/-- The agent has been checked. -/
theorem isolates_insertPolicy_iff [Runtime] {body : AgentToolPolicyCreate}
    {agent : Row} {config : String} (hagent : (db .agent).get? id = some agent)
    (htenant : agent.tenantId = T) (hconfig : body.toolProviderConfigId = .uuid config) :
    Isolates T (insertPolicy (.uuid id) body) db ↔
      body.toolName ∈ agent.policies.map Prod.fst ∨ Own T db .toolProvider config := by
  have hrun (db' : Db) (hget : (db' .agent).get? id = some agent) :
      insertPolicy (.uuid id) body db' =
        if body.toolName ∈ agent.policies.map Prod.fst then (db', .conflict)
        else if ((db' .toolProvider).get? config).isNone then (db', .missingReference)
        else (db'.set .agent id
          { agent with policies := agent.policies.set body.toolName ⟨config, body.columns⟩ },
          .policy 201 body.toolName ⟨config, body.columns⟩) := by
    simp only [insertPolicy, hconfig, hget]
  refine ⟨fun h => ?_, fun h => ?_⟩
  · by_contra hnot
    obtain ⟨hnew, hother⟩ := not_or.1 hnot
    have hmine : (mine T db .agent).get? id = some agent := get?_mine.2 ⟨hagent, htenant⟩
    have hnone := get?_mine_of_not_own hother
    have heq := h.eq_mine _ hnone (owner_stranger hother)
    rw [hrun _ hmine, hrun _ (by rwa [get?_set, if_neg nofun]), if_neg hnew,
      if_neg hnew] at heq
    simp only [get?_set, hnone, and_self, if_true] at heq
    cases heq
  · by_cases hthere : body.toolName ∈ agent.policies.map Prod.fst
    · refine isolates_read .conflict fun db' hagree => ?_
      rw [hrun db' (hagree.get? hagent htenant), if_pos hthere]
    have hown := h.resolve_left hthere
    cases hnone : ((db .toolProvider).get? config).isNone with
    | true =>
      refine isolates_read .missingReference fun db' hagree => ?_
      rw [hrun db' (hagree.get? hagent htenant), if_neg hthere, hown.get?_eq hagree, if_pos hnone]
    | false =>
      refine isolates_writePolicies (agent.policies.set body.toolName ⟨config, body.columns⟩)
        (.policy 201 body.toolName ⟨config, body.columns⟩) hagent htenant (fun x hx => ?_)
        fun db' hagree => ?_
      · rcases Dict.mem_set hx with rfl | hx
        · exact .inl hown
        · exact .inr ⟨x, hx, rfl⟩
      · rw [hrun db' (hagree.get? hagent htenant), if_neg hthere, hown.get?_eq hagree, hnone]
        rfl

end Tools

/-! ### Campaigns and do-not-call lists -/

section Campaigns

variable {ids : Ids} {ref : Ref} {t a : String} {columns : Dict String Json}

theorem finds_insertCampaign {agentId : Ref} : Finds (insertCampaign ids ref agentId columns) := by
  intro db e id _ h
  simp only [insertCampaign] at h
  split at h
  · cases h
  · cases h
  · split_ifs at h

/-- The agent of a campaign is to be its own. -/
theorem isolates_insertCampaign_iff :
    Isolates T (insertCampaign ids (.uuid t) (.uuid a) columns) db ↔
      t = T ∧ (((db .tenant).get? t).isSome → Own T db .agent a) := by
  have hmissing (db : Db) (h : ((db .tenant).get? t).isNone ∨ ((db .agent).get? a).isNone) :
      insertCampaign ids (.uuid t) (.uuid a) columns db = (db, .missingReference) := by
    simp only [insertCampaign, if_pos h]
  have hinserted (db : Db) (ht : ((db .tenant).get? t).isSome) (ha : ((db .agent).get? a).isSome) :
      (insertCampaign ids (.uuid t) (.uuid a) columns db).2 ≠ .missingReference := by
    rw [insertCampaign, if_neg (by simp [Option.isSome_iff_ne_none.1 ht,
      Option.isSome_iff_ne_none.1 ha])]
    simp
  refine ⟨fun h => ?_, fun h => ?_⟩
  · have ht : t = T := by
      by_contra hne
      have hother : ¬ Own T db .tenant t := hne
      have hnone := get?_mine_of_not_own hother
      -- The agent can be there, and the tenant as well.
      obtain ⟨db', hagree, ha, hrest⟩ := exists_agree T db a (e := .agent) (by simp)
      have hagree' : Agree T db' (db'.set .tenant t (stranger T)) := by
        refine agree_set (fun old hold => ?_) hne
        rw [hrest .tenant (by simp), hnone] at hold
        cases hold
      have heq := (h.same _ (hagree.trans hagree')).trans (h.same _ agree_mine).symm
      rw [hmissing (mine T db) (.inl (by rw [hnone]; rfl))] at heq
      refine hinserted _ ?_ ?_ heq
      · rw [get?_set, if_pos ⟨rfl, rfl⟩]
        rfl
      · rwa [get?_set, if_neg (by simp)]
    refine ⟨ht, fun htenant => ?_⟩
    by_contra hother
    have hnone := get?_mine_of_not_own hother
    have heq := h.eq_mine _ hnone (owner_stranger hother)
    rw [hmissing (mine T db) (.inr (by rw [hnone]; rfl))] at heq
    obtain ⟨tenant, htenant⟩ := Option.isSome_iff_exists.1 htenant
    refine hinserted _ ?_ ?_ heq
    · rw [get?_set, if_neg (by simp), get?_mine.2 ⟨htenant, ht⟩]
      rfl
    · rw [get?_set, if_pos ⟨rfl, rfl⟩]
      rfl
  · obtain ⟨rfl, hagent⟩ := h
    have htenant (db' : Db) (hagree : Agree t db db') :
        (db' .tenant).get? t = (db .tenant).get? t := Own.get?_eq (T := t) (e := .tenant) rfl hagree
    by_cases hnone : ((db .tenant).get? t).isNone ∨ ((db .agent).get? a).isNone
    · cases hnone : (db .tenant).get? t with
      | none =>
        refine isolates_read .missingReference fun db' hagree => hmissing db' (.inl ?_)
        rw [htenant db' hagree, hnone]
        rfl
      | some tenant =>
        have hown := hagent (by rw [hnone]; rfl)
        refine isolates_read .missingReference fun db' hagree => hmissing db' ?_
        rwa [htenant db' hagree, hown.get?_eq hagree]
    · have hown : Own t db .agent a := by
        refine hagent (Option.isSome_iff_ne_none.2 fun h => hnone (.inl ?_))
        rw [h]
        rfl
      have hrun (db' : Db) (hagree : Agree t db db') :
          insertCampaign ids (.uuid t) (.uuid a) columns db' =
            (db'.set .campaign (ids.next db' .campaign)
              ⟨t, columns, fun c => if c = .agentId then some a else none, false, [], []⟩,
              .row 201 none ⟨t, columns, fun c => if c = .agentId then some a else none⟩) := by
        simp only [insertCampaign]
        rw [htenant db' hagree, hown.get?_eq hagree, if_neg hnone]
        rfl
      refine isolates_create hrun rfl fun x hx => ?_
      rcases mem_refs.1 hx with ⟨c, i, hlink, rfl⟩ | ⟨y, hy, -⟩
      · have hlink : (if c = .agentId then some a else none) = some i := hlink
        split_ifs at hlink with hc
        cases hlink
        rw [hc]
        exact hown
      · cases hy

theorem finds_addNumber {phoneNumber : String} {reason : Option String} :
    Finds (addNumber ids ref phoneNumber reason) := by
  intro db e id _ h
  cases ref with
  | malformed text => cases h
  | uuid t =>
    simp only [addNumber] at h
    split at h
    · cases h
    · split_ifs at h

theorem isolates_addNumber_iff {phoneNumber : String} {reason : Option String} :
    Isolates T (addNumber ids (.uuid t) phoneNumber reason) db ↔ t = T := by
  refine ⟨fun h => ?_, ?_⟩
  · by_contra hne
    have hother : ¬ Own T db .tenant t := hne
    have hnone := get?_mine_of_not_own hother
    have heq := h.eq_mine _ hnone (owner_stranger hother)
    have hfind : (mine T db .dncNumber).rows.find? (fun x =>
        x.2.tenantId = t ∧ x.2.text "phone_number" = phoneNumber) = none := by
      refine List.find?_eq_none.2 fun x hx hfound => hne ?_
      have howner := (get?_mine.1 (Table.get?_eq_some_iff.2 hx)).2
      exact (of_decide_eq_true hfound).1.symm.trans howner
    have hfind' : ((mine T db).set .tenant t (stranger T) .dncNumber).rows.find? (fun x =>
        x.2.tenantId = t ∧ x.2.text "phone_number" = phoneNumber) = none := hfind
    simp only [addNumber, hfind, hfind', hnone, get?_set, and_self, if_true] at heq
    cases heq
  · rintro rfl
    have hfind (db' : Db) (hagree : Agree t db db') : (db' .dncNumber).rows.find? (fun x =>
        x.2.tenantId = t ∧ x.2.text "phone_number" = phoneNumber) =
          (db .dncNumber).rows.find? fun x =>
            x.2.tenantId = t ∧ x.2.text "phone_number" = phoneNumber := by
      have hfilter := hagree.filter (e := .dncNumber) (by simp)
        fun x => x.2.text "phone_number" = phoneNumber
      simp only [← Bool.decide_and] at hfilter
      rw [← List.head?_filter, ← List.head?_filter, hfilter]
    cases hfound : (db .dncNumber).rows.find? fun x =>
        x.2.tenantId = t ∧ x.2.text "phone_number" = phoneNumber with
    | some x =>
      have hx := Table.get?_eq_some_iff.2 (List.mem_of_find?_eq_some hfound)
      have hxtenant : x.2.tenantId = t := by
        have hfound := List.find?_some hfound
        exact (of_decide_eq_true hfound).1
      have hrun (db' : Db) (hagree : Agree t db db') :
          addNumber ids (.uuid t) phoneNumber reason db' =
            (db'.set .dncNumber x.1 (x.2.set [("reason", reason.elim .null .str)]),
              .row 201 (some x.1) (x.2.set [("reason", reason.elim .null .str)]).record) := by
        simp only [addNumber, hfind db' hagree, hfound]
      exact isolates_replace hrun hx hxtenant hxtenant fun y hy => .inr hy
    | none =>
      have htenant (db' : Db) (hagree : Agree t db db') :
          (db' .tenant).get? t = (db .tenant).get? t :=
        Own.get?_eq (T := t) (e := .tenant) rfl hagree
      cases hnone : ((db .tenant).get? t).isNone with
      | true =>
        refine isolates_read .missingReference fun db' hagree => ?_
        simp only [addNumber, hfind db' hagree, hfound, htenant db' hagree, hnone, if_true]
      | false =>
        obtain ⟨columns, hcolumns⟩ : ∃ columns : Dict String Json, columns =
          [("phone_number", .str phoneNumber), ("reason", reason.elim .null .str)] := ⟨_, rfl⟩
        have hrun (db' : Db) (hagree : Agree t db db') :
            addNumber ids (.uuid t) phoneNumber reason db' =
              (db'.set .dncNumber (ids.next db' .dncNumber) { tenantId := t, columns := columns },
                .row 201 none ⟨t, columns, fun _ => none⟩) := by
          simp only [addNumber, hfind db' hagree, hfound, htenant db' hagree, hnone, hcolumns]
          rfl
        exact isolates_create hrun rfl (List.forall_mem_nil _)

theorem finds_removeNumber : Finds (removeNumber ref) := by
  intro db e id _
  cases ref <;> nofun

theorem isolates_removeNumber_iff :
    Isolates T (removeNumber (.uuid id)) db ↔ ¬ Foreign T db (.dncNumber, id) := by
  refine ⟨fun h ⟨row, hrow, hne⟩ => ?_, fun h => ⟨?_, ?_, fun _ _ => rfl⟩⟩
  · have htheirs : (theirs T db .dncNumber).get? id = some row := Table.get?_part.2 ⟨hrow, hne⟩
    rw [← h.untouched] at htheirs
    have herased := (Table.get?_part.1 htheirs).1
    simp only [removeNumber, Db.erase, Function.update_self] at herased
    exact (Dict.get?_del_eq_some herased).1 rfl
  · refine theirs_erase fun old hold => ?_
    by_contra hne
    exact h ⟨old, hold, hne⟩
  · exact fun e' id' row hrow x hx _ => ⟨row, get?_erase_eq_some hrow, hx⟩

theorem finds_insertContacts [Runtime] {content : ByteArray} :
    Finds (insertContacts ref content) := by
  intro db e id _ h
  cases ref with
  | malformed text => cases h
  | uuid i =>
    simp only [insertContacts] at h
    split at h
    · cases h
    · split at h <;> cases h

/-- The campaign has been looked up. -/
theorem isolates_insertContacts [Runtime] {content : ByteArray} {campaign : Row}
    (hcampaign : (db .campaign).get? id = some campaign) (htenant : campaign.tenantId = T) :
    Isolates T (insertContacts (.uuid id) content) db := by
  have hget (db' : Db) (hagree : Agree T db db') := hagree.get? hcampaign htenant
  have hblocked (db' : Db) (hagree : Agree T db db') :
      blocked db' campaign.tenantId = blocked db campaign.tenantId := by
    have hfilter := hagree.filter (e := .dncNumber) nofun fun _ => true
    simp only [Bool.and_true] at hfilter
    rw [blocked, blocked, htenant, hfilter]
  cases hparse : Campaigns.parseContactsCsv content with
  | error failure =>
    refine isolates_read (insertContacts (.uuid id) content db).2 fun db' hagree => ?_
    simp only [insertContacts, hget db' hagree, hget db .refl, hparse]
    cases failure <;> rfl
  | ok contacts =>
    obtain ⟨allowed, hallowed⟩ : ∃ allowed, allowed = contacts.filter fun contact =>
      Conversation.Tools.normalizePhone contact.phoneNumber ∉ blocked db campaign.tenantId :=
        ⟨_, rfl⟩
    have hrun (db' : Db) (hagree : Agree T db db') : insertContacts (.uuid id) content db' =
        (db'.set .campaign id
          { campaign with contacts := campaign.contacts ++ allowed.map queued },
          .uploaded allowed.length (contacts.length - allowed.length)) := by
      simp only [insertContacts, hget db' hagree, hparse, hblocked db' hagree, hallowed]
    exact isolates_replace hrun hcampaign htenant htenant fun x hx => .inr hx

end Campaigns

/-! ### Requests -/

section Requests

variable [Runtime] [Config.ProviderConfigs.Fernet] {ids : Ids} {n : ℕ} {ref : Ref}

/-- The id, if it is one, is the tenant's own. -/
def OwnRef (T : String) (db : Db) (e : Entity) : Ref → Prop
  | .malformed _ => True
  | .uuid id => Own T db e id

/-- What is done after the checks comes to rows of the tenant alone. -/
def Within (T : String) (db : Db) : Request → Prop
  | .listPhoneNumbers ref | .listToolProviderConfigs ref _ | .createToolProviderConfig ref _
  | .listCampaigns ref | .listDncNumbers ref | .addDncNumber ref _ _ => OwnRef T db .tenant ref
  | .createPhoneNumber _ body => Taken T db body.did
  | .getPhoneNumber ref | .deletePhoneNumber ref => OwnRef T db .phoneNumber ref
  | .updatePhoneNumber ref body => ∀ id, ref = .uuid id →
    ∃ row, (db .phoneNumber).get? id = some row ∧ row.tenantId = T ∧
      (nulls ["did", "status"] body.columns ∨ Taken T db ((row.set body.columns).text "did"))
  | .getToolProviderConfig ref | .updateToolProviderConfig ref _ | .deleteToolProviderConfig ref =>
    OwnRef T db .toolProvider ref
  | .listAgentToolPolicies ref => ∀ id, ref = .uuid id →
    ∃ agent, (db .agent).get? id = some agent ∧ agent.tenantId = T ∧
      ∀ x ∈ agent.policies, Own T db .toolProvider x.2.toolProviderConfigId
  | .createAgentToolPolicy ref body => ∀ id config, ref = .uuid id →
    body.toolProviderConfigId = .uuid config →
      (∃ agent, (db .agent).get? id = some agent ∧ body.toolName ∈ agent.policies.map Prod.fst) ∨
        Own T db .toolProvider config
  | .updateAgentToolPolicy ref _ _ | .deleteAgentToolPolicy ref _ => OwnRef T db .agent ref
  | .createCampaign tenantId agentId _ => ∀ t a, tenantId = .uuid t → agentId = .uuid a →
    t = T ∧ (((db .tenant).get? t).isSome → Own T db .agent a)
  | .getCampaign ref | .updateCampaign ref _ | .getProgress ref | .listContacts ref _
  | .uploadContacts ref _ | .startCampaign ref | .pauseCampaign ref | .resumeCampaign ref =>
    OwnRef T db .campaign ref
  | .removeDncNumber ref => ∀ id, ref = .uuid id → ¬ Foreign T db (.dncNumber, id)

theorem finds_action {r : Request} : Finds (r.action ids n) := by
  cases r with
  | listPhoneNumbers | listToolProviderConfigs | listCampaigns | listDncNumbers =>
    exact finds_listRows
  | createPhoneNumber => exact finds_insertPhoneNumber
  | getPhoneNumber | getToolProviderConfig | getCampaign | getProgress | listContacts =>
    exact finds_viewRow fun _ _ _ _ => nofun
  | updatePhoneNumber => exact finds_updatePhoneNumber
  | deletePhoneNumber | deleteToolProviderConfig =>
    exact finds_modifyRow (fun _ _ _ _ => nofun) fun _ _ _ _ => nofun
  | createToolProviderConfig => exact finds_insertToolProviderConfig
  | updateToolProviderConfig =>
    exact finds_modifyRow (fun _ _ _ _ => setColumns_ne_notFound)
      fun _ _ _ _ => answerRow_ne_notFound
  | listAgentToolPolicies => exact finds_listForAgent
  | createAgentToolPolicy => exact finds_insertPolicy
  | updateAgentToolPolicy =>
    refine finds_modifyPolicy (fun policy response e id h => ?_) fun _ _ _ => nofun
    rw [editPolicy_eq_error h]
    nofun
  | deleteAgentToolPolicy => exact finds_modifyPolicy (fun _ _ _ _ => nofun) fun _ _ _ => nofun
  | createCampaign => exact finds_insertCampaign
  | updateCampaign | startCampaign | pauseCampaign | resumeCampaign => exact finds_updateCampaign
  | uploadContacts => exact finds_insertContacts
  | addDncNumber => exact finds_addNumber
  | removeDncNumber => exact finds_removeNumber

/-- Beyond its checks, a request isolates where it is within the tenant. -/
theorem isolates_action_iff {r : Request}
    (hchecks : ∀ check ∈ r.checks n, check.run db = none ∧
      ∀ x, asks check = some x → Own T db x.1 x.2) :
    Isolates T (r.action ids n) db ↔ Within T db r := by
  have hrecord (id : String) (row : Row) (e' : Entity) (id' : String) :
      answerRow id row ≠ .notFound e' id' := answerRow_ne_notFound
  cases r with
  | listPhoneNumbers ref =>
    cases ref with
    | malformed text => exact iff_of_true (isolates_read _ fun _ _ => rfl) trivial
    | uuid t =>
      simp only [Request.action, Within, OwnRef]
      exact isolates_listRows_iff (by simp) (fun rows => List.perm_insertionSort _ rows)
        ⟨{ tenantId := t }, rfl, Bool.false_ne_true, rfl⟩
  | createPhoneNumber ref body =>
    obtain ⟨hrun, hown⟩ := hchecks _ List.mem_cons_self
    cases ref with
    | malformed text => cases hrun
    | uuid t =>
      obtain rfl : t = T := hown (.tenant, t) rfl
      exact isolates_insertPhoneNumber_iff
  | getPhoneNumber ref | getToolProviderConfig ref | getCampaign ref =>
    cases ref with
    | malformed text => exact iff_of_true (isolates_read _ fun _ _ => rfl) trivial
    | uuid id =>
      simp only [Request.action, Within, OwnRef]
      exact isolates_viewRow_iff hrecord
  | updatePhoneNumber ref body =>
    cases ref with
    | malformed text => exact iff_of_true (isolates_read _ fun _ _ => rfl) (by rintro _ ⟨⟩)
    | uuid id =>
      have hlinks (c : LinkColumn) (x : String) (hset : body.links c = some (some (.uuid x))) :
          Own T db c.target x := by
        have hmem : c ∈ linkColumns := by cases c <;> decide
        have hcheck := List.mem_cons_of_mem (hasFields
          (!body.columns.isEmpty || linkColumns.any fun c => (body.links c).isSome))
          (List.mem_map_of_mem (f := fun c => Check.validate c.target (body.links c).join) hmem)
        refine (hchecks _ hcheck).2 (c.target, x) ?_
        rw [hset]
        rfl
      refine (isolates_updatePhoneNumber_iff hlinks).trans ⟨fun h i hi => ?_, fun h => h id rfl⟩
      cases hi
      exact h
  | deletePhoneNumber ref | deleteToolProviderConfig ref =>
    cases ref with
    | malformed text => exact iff_of_true (isolates_read _ fun _ _ => rfl) trivial
    | uuid id =>
      simp only [Request.action, Within, OwnRef]
      exact isolates_softDelete_iff (by simp)
  | listToolProviderConfigs ref toolName =>
    cases ref with
    | malformed text => exact iff_of_true (isolates_read _ fun _ _ => rfl) trivial
    | uuid t =>
      simp only [Request.action, Within, OwnRef]
      refine isolates_listRows_iff (by simp) (fun rows => List.perm_insertionSort _ rows)
        ⟨{ tenantId := t, columns := [("tool_name", .str (toolName.getD ""))] }, rfl,
          Bool.false_ne_true, ?_⟩
      cases toolName <;> simp [Row.text, Dict.get?]
  | createToolProviderConfig ref body =>
    obtain ⟨hrun, hown⟩ := hchecks _ List.mem_cons_self
    cases ref with
    | malformed text => cases hrun
    | uuid t =>
      obtain rfl : t = T := hown (.tenant, t) rfl
      exact iff_of_true isolates_insertToolProviderConfig rfl
  | updateToolProviderConfig ref body =>
    cases ref with
    | malformed text => exact iff_of_true (isolates_read _ fun _ _ => rfl) trivial
    | uuid id =>
      simp only [Request.action, Within, OwnRef]
      exact isolates_setColumns_iff (by simp)
  | listAgentToolPolicies ref =>
    cases ref with
    | malformed text => exact iff_of_true (isolates_read _ fun _ _ => rfl) (by rintro _ ⟨⟩)
    | uuid id =>
      refine isolates_listForAgent_iff.trans ⟨fun h i hi => ?_, fun h => h id rfl⟩
      cases hi
      exact h
  | createAgentToolPolicy ref body =>
    obtain ⟨hrun, hown⟩ := hchecks _ List.mem_cons_self
    cases ref with
    | malformed text => cases hrun
    | uuid id =>
      obtain ⟨agent, hagent, htenant⟩ := (hown (.agent, id) rfl).exists_row (by simp)
      cases hconfig : body.toolProviderConfigId with
      | malformed text =>
        refine iff_of_true (isolates_read
          (if isUniqueText text then .conflict else .invalidInput text) fun db' _ => ?_)
          fun i config _ hi => ?_
        · simp only [Request.action, insertPolicy, hconfig]
        · rw [hconfig] at hi
          cases hi
      | uuid config =>
        refine (isolates_insertPolicy_iff hagent htenant hconfig).trans
          ⟨fun h i config' hi hconfig' => ?_, fun h => ?_⟩
        · cases hi
          cases hconfig.symm.trans hconfig'
          exact h.imp_left fun hmem => ⟨agent, hagent, hmem⟩
        · refine (h id config rfl hconfig).imp_left ?_
          rintro ⟨agent', hagent', hmem⟩
          cases hagent.symm.trans hagent'
          exact hmem
  | updateAgentToolPolicy ref toolName body =>
    cases ref with
    | malformed text => exact iff_of_true (isolates_read _ fun _ _ => rfl) trivial
    | uuid id =>
      refine isolates_modifyPolicy_iff (fun policy response h => ?_) (fun _ => (by simp))
        fun policy policy' => editPolicy_eq_ok
      rw [editPolicy_eq_error h]
      simp
  | deleteAgentToolPolicy ref toolName =>
    cases ref with
    | malformed text => exact iff_of_true (isolates_read _ fun _ _ => rfl) trivial
    | uuid id =>
      simp only [Request.action, Within, OwnRef]
      exact isolates_modifyPolicy_iff (fun _ _ => (by simp)) (fun _ => (by simp)) fun _ _ => (by simp)
  | listCampaigns ref | listDncNumbers ref =>
    cases ref with
    | malformed text => exact iff_of_true (isolates_read _ fun _ _ => rfl) trivial
    | uuid t =>
      simp only [Request.action, Within, OwnRef]
      exact isolates_listRows_iff (by simp) List.reverse_perm
        ⟨{ tenantId := t }, rfl, Bool.false_ne_true, rfl⟩
  | createCampaign tenantId agentId columns =>
    cases tenantId with
    | malformed text => exact iff_of_true (isolates_read _ fun _ _ => rfl) (by rintro _ _ ⟨⟩)
    | uuid t =>
      cases agentId with
      | malformed text => exact iff_of_true (isolates_read _ fun _ _ => rfl) (by rintro _ _ _ ⟨⟩)
      | uuid a =>
        refine isolates_insertCampaign_iff.trans ⟨fun h t' a' ht ha => ?_, fun h => h t a rfl rfl⟩
        cases ht
        cases ha
        exact h
  | updateCampaign ref | startCampaign ref | pauseCampaign ref | resumeCampaign ref =>
    cases ref with
    | malformed text =>
      simp only [Request.action, Within, OwnRef, iff_true]
      exact isolates_read _ fun _ _ => updateCampaign_malformed
    | uuid id =>
      simp only [Request.action, Within, OwnRef]
      exact isolates_updateCampaign_iff
  | getProgress ref | listContacts ref =>
    cases ref with
    | malformed text => exact iff_of_true (isolates_read _ fun _ _ => rfl) trivial
    | uuid id =>
      simp only [Request.action, Within, OwnRef]
      exact isolates_viewRow_iff fun _ _ _ _ => (by rintro ⟨⟩)
  | uploadContacts ref content =>
    obtain ⟨hrun, hown⟩ := hchecks _ List.mem_cons_self
    cases ref with
    | malformed text => cases hrun
    | uuid id =>
      have hown := hown (.campaign, id) rfl
      obtain ⟨campaign, hcampaign, htenant⟩ := hown.exists_row (by simp)
      exact iff_of_true (isolates_insertContacts hcampaign htenant) hown
  | addDncNumber ref phoneNumber reason =>
    cases ref with
    | malformed text => exact iff_of_true (isolates_read _ fun _ _ => rfl) trivial
    | uuid t =>
      simp only [Request.action, Within, OwnRef]
      exact isolates_addNumber_iff
  | removeDncNumber ref =>
    cases ref with
    | malformed text => exact iff_of_true (isolates_read _ fun _ _ => rfl) (by rintro _ ⟨⟩)
    | uuid id =>
      refine isolates_removeNumber_iff.trans ⟨fun h i hi => ?_, fun h => h id rfl⟩
      cases hi
      exact h

/-- A console user of a tenant. -/
structure TenantUser where
  user : CurrentUser
  tenant : String
  tenant_eq : user.tenantId = some tenant
  not_superadmin : user.role ≠ .superadmin

/-- The checks know nothing of the tenant of the user: a request is kept apart from the other
    tenants just if what it comes to is the tenant's own. -/
theorem isolates_iff {user : TenantUser} {r : Request} :
    Isolates user.tenant (r.handle ids n user.user) db ↔
      ComesTo user.tenant db (.pass (r.authorize user.user) :: r.checks n)
        (Within user.tenant db r) := by
  rw [Request.handle, isolates_checked_iff finds_action]
  refine comesTo_congr fun hchecks => isolates_action_iff fun check hcheck => ?_
  exact hchecks check (List.mem_cons_of_mem _ hcheck)

end Requests

/-! ### A number of another -/

def number (tenantId did : String) : Row := { tenantId := tenantId, columns := [("did", .str did)] }

/-- Each of two tenants has a number. -/
def twoNumbers : Db :=
  Db.set (Db.set (fun _ => Table.empty) .phoneNumber "n1" (number "acme" "+1415")) .phoneNumber "n2"
    (number "globex" "+1212")

def admin : TenantUser where
  user := ⟨1, .admin, some "acme"⟩
  tenant := "acme"
  tenant_eq := rfl
  not_superadmin := nofun

/-- An id that is longer than those that are there. -/
def joined : Ids where
  next db e := String.ofList ('n' :: ((db e).rows.map (·.1.toList)).flatten)
  next_fresh db e := by
    refine Dict.get?_eq_none_iff.2 fun hmem => ?_
    obtain ⟨x, hx, hkey⟩ := List.mem_map.1 hmem
    have hlength := congrArg (·.toList.length) hkey
    have hle := (List.sublist_flatten_of_mem (List.mem_map_of_mem
      (f := fun x : String × Row => x.1.toList) hx)).length_le
    simp only [String.toList_ofList, List.length_cons] at hlength
    omega

/-- The administrator of the one deletes the number of the other. -/
theorem not_isolates :
    ¬ ∀ (_ : Runtime) (_ : Config.ProviderConfigs.Fernet) (ids : Ids) (n : ℕ) (user : TenantUser)
      (r : Request) (db : Db), Isolates user.tenant (r.handle ids n user.user) db := by
  intro h
  have huntouched := (h .ascii Config.ProviderConfigs.marked joined 0 admin
    (.deletePhoneNumber (.uuid "n2")) twoNumbers).untouched
  have hdeleted := congrArg (fun db => ((db .phoneNumber).get? "n2").map Row.deleted) huntouched
  revert hdeleted
  decide

end Yuviz.ControlApi.Isolation
