import Yuviz.ControlApi

/-!
# The tenants of the control API

A handler keeps a tenant apart from the others (`Isolates`) if it neither writes a row
of another nor refers to one anew, and if it answers alike whatever the rows of the
others are.

A handler that makes checks does so just when the rows that the checks look up, up to the
one that fails, are the tenant's own, and what is done after them keeps the tenant apart
(`isolates_checked_iff`).
-/

namespace Yuviz.ControlApi.Isolation

open Python
open Config (CurrentUser)

/-! ### Whose a row is -/

/-- The tenant that the row is of. A tenant is its own. -/
def owner (e : Entity) (id : String) (row : Row) : String :=
  if e = .tenant then id else row.tenantId

/-- What a row refers to, but for its tenant. -/
def refs (row : Row) : List (Entity × String) :=
  linkColumns.filterMap (fun c => (row.links c).map (c.target, ·)) ++
    row.policies.map fun e => (.toolProvider, e.2.toolProviderConfigId)

theorem mem_refs {row : Row} {x : Entity × String} : x ∈ refs row ↔
    (∃ c id, row.links c = some id ∧ (c.target, id) = x) ∨
      ∃ e ∈ row.policies, (Entity.toolProvider, e.2.toolProviderConfigId) = x := by
  have hmem (c : LinkColumn) : c ∈ linkColumns := by cases c <;> decide
  simp [refs, hmem]

variable (T : String)

/-- The rows of the tenant. -/
def mine (db : Db) : Db := fun e => (db e).part fun id row => owner e id row = T

/-- The rows of the others. -/
def theirs (db : Db) : Db := fun e => (db e).part fun id row => owner e id row ≠ T

/-- The databases are the same for the tenant. -/
def Agree (db db' : Db) : Prop := mine T db = mine T db'

/-- The id is the tenant's, or that of a row of it. -/
def Own (db : Db) (e : Entity) (id : String) : Prop :=
  if e = .tenant then id = T else ∃ row, (db e).get? id = some row ∧ row.tenantId = T

/-- A row of another. -/
def Foreign (db : Db) (x : Entity × String) : Prop :=
  ∃ row, (db x.1).get? x.2 = some row ∧ owner x.1 x.2 row ≠ T

structure Isolates (handler : Handler) (db : Db) : Prop where
  /-- No row of another is created, changed or deleted. -/
  untouched : theirs T (handler db).1 = theirs T db
  /-- A reference to a row of another was there before. -/
  unlinked : ∀ e id row, ((handler db).1 e).get? id = some row →
    ∀ x ∈ refs row, Foreign T (handler db).1 x → ∃ old, (db e).get? id = some old ∧ x ∈ refs old
  /-- The answer is the same in every database that is the same for the tenant. -/
  same : ∀ db', Agree T db db' → (handler db').2 = (handler db).2

variable {T} {db db' : Db} {e : Entity} {id : String} {row : Row} {handler handler' : Handler}

theorem owner_of_ne (he : e ≠ .tenant) : owner e id row = row.tenantId := if_neg he

theorem get?_mine : (mine T db e).get? id = some row ↔
    (db e).get? id = some row ∧ owner e id row = T :=
  Table.get?_part

theorem Agree.refl : Agree T db db := rfl

/-- Databases that agree on a tenant have the same rows of it. -/
theorem Agree.get? (h : Agree T db db') (hrow : (db e).get? id = some row)
    (howner : owner e id row = T) : (db' e).get? id = some row :=
  Table.get?_of_part_eq (congrFun h e) hrow howner

theorem Own.owner (hown : Own T db e id) (hrow : (db e).get? id = some row) :
    owner e id row = T := by
  rw [Isolation.owner]
  rw [Own] at hown
  split_ifs at hown ⊢ with he
  · exact hown
  · obtain ⟨row', hrow', htenant⟩ := hown
    obtain rfl := Option.some.inj (hrow.symm.trans hrow')
    exact htenant

/-- A row of the tenant is its own, -/
theorem own_of_owner (hrow : (db e).get? id = some row) (howner : owner e id row = T) :
    Own T db e id := by
  rw [Isolation.owner] at howner
  rw [Own]
  split_ifs at howner ⊢
  · exact howner
  · exact ⟨row, hrow, howner⟩

/-- and what is its own, but for the tenant, is a row. -/
theorem Own.exists_row (hown : Own T db e id) (he : e ≠ .tenant) :
    ∃ row, (db e).get? id = some row ∧ row.tenantId = T := by
  rwa [Own, if_neg he] at hown

/-- What is its own is so in a database that agrees, -/
theorem Own.of_agree (hown : Own T db e id) (h : Agree T db db') : Own T db' e id := by
  rw [Own] at hown ⊢
  split_ifs at hown ⊢ with he
  · exact hown
  · obtain ⟨row, hrow, htenant⟩ := hown
    exact ⟨row, h.get? hrow ((owner_of_ne he).trans htenant), htenant⟩

theorem Own.get?_eq (hown : Own T db e id) (h : Agree T db db') :
    (db' e).get? id = (db e).get? id := by
  refine Option.ext fun row => ⟨fun hrow => ?_, fun hrow => h.get? hrow (hown.owner hrow)⟩
  exact Agree.get? (T := T) h.symm hrow ((hown.of_agree h).owner hrow)

/-- and is deleted there or not, as it is here. -/
theorem Own.live_eq (hown : Own T db e id) (h : Agree T db db') : db'.live e id = db.live e id := by
  rw [Db.live, Db.live, hown.get?_eq h]

/-- What is found among the rows of the tenant. -/
theorem Agree.filter (h : Agree T db db') (he : e ≠ .tenant) (q : String × Row → Bool) :
    ((db' e).rows.filter fun x => decide (x.2.tenantId = T) && q x) =
      (db e).rows.filter fun x => decide (x.2.tenantId = T) && q x := by
  have hrows (db : Db) : ((db e).rows.filter fun x => decide (x.2.tenantId = T) && q x) =
      (mine T db e).rows.filter q := by
    refine Eq.trans ?_ (List.filter_filter (p := q)).symm
    refine List.filter_congr fun x _ => ?_
    change _ = (q x && decide (owner e x.1 x.2 = T))
    rw [owner_of_ne he, Bool.and_comm]
  rw [hrows, hrows, h]

theorem live_iff : db.live e id ↔ ∃ row, (db e).get? id = some row ∧ ¬ row.deleted := by
  rw [Db.live, Option.any_eq_true]
  simp

/-! ### Writes -/

theorem get?_set {e' : Entity} {id' : String} :
    (db.set e id row e').get? id' = if e' = e ∧ id' = id then some row else (db e').get? id' := by
  rw [Db.set]
  by_cases he : e' = e
  · subst he
    rw [Function.update_self, Table.get?_set]
    simp
  · rw [Function.update_of_ne he, if_neg fun h => he h.1]

theorem get?_erase_eq_some {e' : Entity} {id' : String}
    (h : (db.erase e id e').get? id' = some row) : (db e').get? id' = some row := by
  rw [Db.erase] at h
  by_cases he : e' = e
  · subst he
    rw [Function.update_self] at h
    exact Table.get?_erase_eq_some h
  · rwa [Function.update_of_ne he] at h

/-- A row of the tenant is written: what the others have stays. -/
theorem theirs_set (hold : ∀ old, (db e).get? id = some old → owner e id old = T)
    (hnew : owner e id row = T) : theirs T (db.set e id row) = theirs T db := by
  funext e'
  rw [theirs, Db.set]
  by_cases he : e' = e
  · subst he
    rw [Function.update_self]
    exact Table.part_set (fun old hrow => not_not_intro (hold old hrow)) (not_not_intro hnew)
  · rw [Function.update_of_ne he]
    rfl

/-- A row of another is written: what the tenant has stays. -/
theorem agree_set (hold : ∀ old, (db e).get? id = some old → owner e id old ≠ T)
    (hnew : owner e id row ≠ T) : Agree T db (db.set e id row) := by
  funext e'
  rw [mine, mine, Db.set]
  by_cases he : e' = e
  · subst he
    rw [Function.update_self]
    exact (Table.part_set (p := fun id row => owner e' id row = T) hold hnew).symm
  · rw [Function.update_of_ne he]

theorem theirs_erase (hold : ∀ old, (db e).get? id = some old → owner e id old = T) :
    theirs T (db.erase e id) = theirs T db := by
  funext e'
  rw [theirs, Db.erase]
  by_cases he : e' = e
  · subst he
    rw [Function.update_self]
    exact Table.part_erase fun old hrow => not_not_intro (hold old hrow)
  · rw [Function.update_of_ne he]
    rfl

/-! ### Handlers that keep the tenants apart -/

theorem isolates_congr (h : ∀ db', Agree T db db' → handler db' = handler' db') :
    Isolates T handler db ↔ Isolates T handler' db := by
  have hdb := h db .refl
  refine ⟨fun ⟨hu, hl, hs⟩ => ⟨hdb ▸ hu, hdb ▸ hl, fun db' hagree => ?_⟩,
    fun ⟨hu, hl, hs⟩ => ⟨hdb.symm ▸ hu, hdb.symm ▸ hl, fun db' hagree => ?_⟩⟩
  · rw [← h db' hagree, ← hdb]
    exact hs db' hagree
  · rw [h db' hagree, hdb]
    exact hs db' hagree

/-- Nothing is written. -/
theorem isolates_read (response : Response)
    (h : ∀ db', Agree T db db' → handler db' = (db', response)) : Isolates T handler db where
  untouched := by rw [h db .refl]
  unlinked e id row hrow x hx _ := by
    rw [h db .refl] at hrow
    exact ⟨row, hrow, hx⟩
  same db' hagree := by rw [h db' hagree, h db .refl]

/-- A row of the tenant is written. -/
theorem isolates_write (response : Response) (hdb : (handler db).1 = db.set e id row)
    (hold : ∀ old, (db e).get? id = some old → owner e id old = T) (hnew : owner e id row = T)
    (hrefs : ∀ x ∈ refs row, Own T db x.1 x.2 ∨ ∃ old, (db e).get? id = some old ∧ x ∈ refs old)
    (hsame : ∀ db', Agree T db db' → (handler db').2 = response) : Isolates T handler db where
  untouched := by rw [hdb, theirs_set hold hnew]
  unlinked e' id' row' hrow x hx hforeign := by
    rw [hdb] at hrow hforeign
    rw [get?_set] at hrow
    split_ifs at hrow with h
    · obtain ⟨rfl, rfl⟩ := h
      obtain rfl := Option.some.inj hrow
      refine (hrefs x hx).resolve_left fun hown => ?_
      -- What is written over a row of the tenant is one as well.
      obtain ⟨other, hother, hne⟩ := hforeign
      rw [get?_set] at hother
      split_ifs at hother with hx'
      · obtain rfl := Option.some.inj hother
        rw [hx'.1, hx'.2] at hne
        exact hne hnew
      · exact hne (hown.owner hother)
    · exact ⟨row', hrow, hx⟩
  same db' hagree := by rw [hsame db' hagree, hsame db .refl]

/-- A row of the tenant is replaced. -/
theorem isolates_replace {old : Row} {response : Response}
    (h : ∀ db', Agree T db db' → handler db' = (db'.set e id row, response))
    (hold : (db e).get? id = some old) (howner : owner e id old = T) (hnew : owner e id row = T)
    (hrefs : ∀ x ∈ refs row, Own T db x.1 x.2 ∨ x ∈ refs old) : Isolates T handler db := by
  refine isolates_write response (congrArg Prod.fst (h db .refl)) (fun old' hold' => ?_) hnew
    (fun x hx => (hrefs x hx).imp_right fun hmem => ⟨old, hold, hmem⟩)
    fun db' hagree => congrArg Prod.snd (h db' hagree)
  obtain rfl := Option.some.inj (hold.symm.trans hold')
  exact howner

/-- A row of the tenant is created. -/
theorem isolates_create {ids : Ids} {response : Response}
    (h : ∀ db', Agree T db db' → handler db' = (db'.set e (ids.next db' e) row, response))
    (hnew : owner e (ids.next db e) row = T) (hrefs : ∀ x ∈ refs row, Own T db x.1 x.2) :
    Isolates T handler db := by
  refine isolates_write response (congrArg Prod.fst (h db .refl)) (fun old hold => ?_) hnew
    (fun x hx => .inl (hrefs x hx)) fun db' hagree => congrArg Prod.snd (h db' hagree)
  rw [ids.next_fresh] at hold
  cases hold

/-! ### Two databases that tell a request apart -/

/-- What the tenant has is all that agreeing needs. -/
theorem agree_mine : Agree T db (mine T db) :=
  funext fun _ => Table.part_part.symm

theorem get?_mine_of_not_own (h : ¬ Own T db e id) : (mine T db e).get? id = none := by
  rw [Option.eq_none_iff_forall_ne_some]
  intro row hrow
  obtain ⟨hrow, howner⟩ := get?_mine.1 hrow
  exact h (own_of_owner hrow howner)

/-- A row of another can be there, or no row of another. -/
theorem Isolates.eq_mine (h : Isolates T handler db) (row : Row)
    (hnone : (mine T db e).get? id = none) (hrow : owner e id row ≠ T) :
    (handler ((mine T db).set e id row)).2 = (handler (mine T db)).2 := by
  have hagree : Agree T db ((mine T db).set e id row) :=
    agree_mine.trans (agree_set (fun old hold => by rw [hnone] at hold; cases hold) hrow)
  rw [h.same _ hagree, h.same _ agree_mine]

/-- A row of no tenant in particular. -/
def stranger (T : String) : Row := { tenantId := T ++ "'" }

theorem append_ne : T ++ "'" ≠ T := by
  intro h
  have hlength := congrArg String.length h
  simp at hlength

/-- The row of a stranger is not the tenant's. -/
theorem owner_stranger (h : ¬ Own T db e id) : owner e id (stranger T) ≠ T := by
  rw [owner]
  split_ifs with he
  · rwa [Own, if_pos he] at h
  · exact append_ne

/-- A row with the id can be there. -/
theorem exists_agree (T : String) (db : Db) (id : String) (he : e ≠ .tenant) :
    ∃ db', Agree T db db' ∧ ((db' e).get? id).isSome ∧ ∀ e' ≠ e, db' e' = mine T db e' := by
  by_cases hown : Own T db e id
  · obtain ⟨row, hrow, htenant⟩ := hown.exists_row he
    refine ⟨mine T db, agree_mine, ?_, fun _ _ => rfl⟩
    rw [get?_mine.2 ⟨hrow, (owner_of_ne he).trans htenant⟩]
    rfl
  · have hnone := get?_mine_of_not_own hown
    refine ⟨(mine T db).set e id (stranger T), agree_mine.trans (agree_set (fun old hold => ?_)
      (owner_stranger hown)), ?_, fun e' he' => Function.update_of_ne he' _ _⟩
    · rw [hnone] at hold
      cases hold
    · rw [get?_set, if_pos ⟨rfl, rfl⟩]
      rfl

/-! ### Checks -/

/-- The row that a check looks up. -/
def asks : Check → Option (Entity × String)
  | .validate e (some (.uuid id)) | .getOr404 e (.uuid id) => some (e, id)
  | _ => none

/-- Of the checks that are come to, each looks up a row of the tenant, and if none fails
    then `p`. -/
def ComesTo (T : String) (db : Db) : List Check → Prop → Prop
  | [], p => p
  | check :: checks, p =>
    (∀ x, asks check = some x → Own T db x.1 x.2) ∧ (check.run db = none → ComesTo T db checks p)

/-- A row that is there is not missed. -/
def Finds (handler : Handler) : Prop :=
  ∀ db e id, db.live e id → (handler db).2 ≠ .notFound e id

variable {check : Check} {checks : List Check} {action : Handler} {p q : Prop}

theorem run_of_asks {x : Entity × String} (h : asks check = some x) :
    check.run db = if db.live x.1 x.2 then none else some (.notFound x.1 x.2) := by
  unfold asks at h
  split at h <;> cases h <;> rfl

/-- A check of what is the tenant's own has the same result where databases agree. -/
theorem run_eq (hown : ∀ x, asks check = some x → Own T db x.1 x.2) (h : Agree T db db') :
    check.run db' = check.run db := by
  have hrun (x : Entity × String) (hasks : asks check = some x) : check.run db' = check.run db := by
    rw [run_of_asks hasks, run_of_asks hasks, (hown x hasks).live_eq h]
  cases check with
  | pass x => cases x <;> rfl
  | validate e ref =>
    rcases ref with _ | text | id
    · rfl
    · rfl
    · exact hrun (e, id) rfl
  | getOr404 e ref =>
    cases ref with
    | malformed text => rfl
    | uuid id => exact hrun (e, id) rfl

theorem checked_cons : checked (check :: checks) action db =
    match check.run db with
    | some response => (db, response)
    | none => checked checks action db :=
  rfl

theorem not_live_of_run (h : check.run db = some (.notFound e id)) : ¬ db.live e id := by
  unfold Check.run at h
  split at h
  case h_6 | h_7 =>
    split_ifs at h with hlive
    cases h
    exact hlive
  all_goals cases h

theorem finds_checked (h : Finds action) : Finds (checked checks action) := by
  intro db e id hlive
  induction checks with
  | nil => exact h db e id hlive
  | cons check checks ih =>
    rw [checked_cons]
    cases hrun : check.run db with
    | none => exact ih
    | some response =>
      rintro rfl
      exact not_live_of_run hrun hlive

theorem comesTo_congr
    (h : (∀ check ∈ checks, check.run db = none ∧ ∀ x, asks check = some x → Own T db x.1 x.2) →
      (p ↔ q)) : ComesTo T db checks p ↔ ComesTo T db checks q := by
  induction checks with
  | nil => exact h (List.forall_mem_nil _)
  | cons check checks ih =>
    refine and_congr_right fun hown => imp_congr_right fun hrun => ih fun hchecks => h ?_
    exact List.forall_mem_cons.2 ⟨⟨hrun, hown⟩, hchecks⟩

theorem isolates_checked_iff (h : Finds action) : Isolates T (checked checks action) db ↔
    ComesTo T db checks (Isolates T action db) := by
  induction checks with
  | nil => rfl
  | cons check checks ih =>
    rw [ComesTo]
    by_cases hown : ∀ x, asks check = some x → Own T db x.1 x.2
    · rw [and_iff_right hown]
      cases hrun : check.run db with
      | none =>
        rw [forall_prop_of_true rfl, ← ih]
        refine isolates_congr fun db' hagree => ?_
        rw [checked_cons, run_eq hown hagree, hrun]
      | some response =>
        refine iff_of_true (isolates_read response fun db' hagree => ?_) nofun
        rw [checked_cons, run_eq hown hagree, hrun]
    · refine iff_of_false (fun hisolates => hown fun x hasks => ?_) fun h => hown h.1
      -- The row is not there, or is one of another, and only then the checks go on.
      by_contra hother
      have heq := hisolates.eq_mine _ (get?_mine_of_not_own hother) (owner_stranger hother)
      have hlive : ((mine T db).set x.1 x.2 (stranger T)).live x.1 x.2 := by
        rw [Db.live, get?_set, if_pos ⟨rfl, rfl⟩]
        rfl
      refine finds_checked h _ x.1 x.2 hlive (heq.trans ?_)
      rw [checked_cons, run_of_asks hasks, Db.live, get?_mine_of_not_own hother]
      rfl

end Yuviz.ControlApi.Isolation
