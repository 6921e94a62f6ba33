import Mathlib
import Yuviz.System

/-!
# Numbers that are bought and given back

`services/did/routers/numbers.py` and `services/did/purchased_numbers.py`: a number is
bought from a carrier, and then recorded; it is given back to the carrier, and then its
row is marked. Nothing spans the two, so that requests, errors of the database and
answers of the carrier that are lost come in between. The number of a row is unique,
among the rows that are marked as released as well.

Every rental is that of a row, or is about to be recorded, or has not been recorded
(`rentals_accounted`). A row whose rental is gone without its having been marked is never
released any more, if the carrier refuses a number it does not have (`stranded`): the
providers take that for a failure.
-/

namespace Yuviz.Did

/-- A number at a carrier, and what the carrier calls it. -/
structure Rental where
  carrierId : String
  phoneNumber : String
  carrierNumberSid : String
  deriving DecidableEq

/-- What the carrier is told when the number is given back. -/
def Rental.key (r : Rental) : String × String := (r.carrierId, r.carrierNumberSid)

/-- A row of `purchased_numbers`; its id is its place. -/
structure PurchasedNumber where
  tenantId : String
  rental : Rental
  released : Bool
  deriving DecidableEq

/-- Where a request is. -/
inductive Task
  /-- The carrier has sold the number. -/
  | recording (tenantId : String) (rental : Rental)
  /-- The row has been read. -/
  | releasing (id : ℕ) (key : String × String)
  /-- The carrier has taken the number back. -/
  | marking (id : ℕ)
  | answered (status : ℕ)
  deriving DecidableEq

structure State where
  /-- What is rented at the carriers. -/
  rented : List Rental
  rows : List PurchasedNumber
  tasks : List Task
  /-- What has ever been rented. -/
  bought : List Rental
  /-- The rentals that the service has failed to record. -/
  unrecorded : List Rental
  /-- The rows whose rental is gone, which the service has failed to mark. -/
  unmarked : List ℕ
  deriving DecidableEq

inductive Label
  /-- The carrier sells the number; its answer arrives or is lost. -/
  | purchase (tenantId : String) (rental : Rental) (arrives : Bool)
  | purchaseFails (status : ℕ)
  | record (t : ℕ) (ok : Bool)
  | release (id : ℕ)
  /-- The carrier takes the number back if it has been there; the status it answers with
      arrives or is lost. -/
  | relinquish (t : ℕ) (reply : Option ℕ)
  | relinquishFails (t status : ℕ)
  | mark (t : ℕ) (ok : Bool)

def State.answer (s : State) (t status : ℕ) : State :=
  { s with tasks := s.tasks.set t (.answered status) }

/-- `record_purchase` -/
def recordPurchase (s : State) (tenantId : String) (rental : Rental) (ok : Bool) (t : ℕ) : State :=
  if ok ∧ rental.phoneNumber ∉ s.rows.map (·.rental.phoneNumber) then
    { s.answer t 201 with rows := s.rows ++ [⟨tenantId, rental, false⟩] }
  else { s.answer t 500 with unrecorded := s.unrecorded ++ [rental] }

/-- `get_purchased_number`, which is the only check of a release. -/
def getPurchasedNumber (s : State) (id : ℕ) : Task :=
  match s.rows[id]? with
  | some row => if row.released then .answered 404 else .releasing id row.rental.key
  | none => .answered 404

/-- `record_release` -/
def recordRelease (s : State) (id : ℕ) (ok : Bool) (t : ℕ) : State :=
  if ok then { s.answer t 200 with rows := s.rows.modify id ({ · with released := true }) }
  else { s.answer t 500 with unmarked := s.unmarked ++ [id] }

/-- `release_number` of either provider: whether it returns, and raises no `DidProviderError`. -/
def releaseNumber (reply : Option ℕ) : Bool := reply.any (· < 400)

def numbers : System State Label where
  init := ⟨[], [], [], [], [], []⟩
  step s
    | .purchase tenantId rental arrives =>
      if rental ∈ s.rented then none
      else
        some { s with
          rented := s.rented ++ [rental]
          bought := s.bought ++ [rental]
          tasks := s.tasks ++ [if arrives then .recording tenantId rental else .answered 502]
          unrecorded := if arrives then s.unrecorded else s.unrecorded ++ [rental] }
    | .purchaseFails status => some { s with tasks := s.tasks ++ [.answered status] }
    | .record t ok =>
      match s.tasks[t]? with
      | some (.recording tenantId rental) => some (recordPurchase s tenantId rental ok t)
      | _ => none
    | .release id => some { s with tasks := s.tasks ++ [getPurchasedNumber s id] }
    | .relinquish t reply =>
      match s.tasks[t]? with
      | some (.releasing id key) =>
        some { s with
          rented := s.rented.filter (·.key ≠ key)
          tasks := s.tasks.set t (if releaseNumber reply then .marking id else .answered 502)
          unmarked := if releaseNumber reply then s.unmarked else s.unmarked ++ [id] }
      | _ => none
    | .relinquishFails t status =>
      match s.tasks[t]? with
      | some (.releasing _ _) => some (s.answer t status)
      | _ => none
    | .mark t ok =>
      match s.tasks[t]? with
      | some (.marking id) => some (recordRelease s id ok t)
      | _ => none

/-- What a carrier has called a number is never something else. -/
def Names (s : State) : Label → Prop
  | .purchase _ rental _ => ∀ r ∈ s.bought, r.key = rental.key → r = rental
  | _ => True

instance (s : State) : DecidablePred (Names s)
  | .purchase _ rental _ => inferInstanceAs (Decidable (∀ r ∈ s.bought, r.key = rental.key → _))
  | .purchaseFails _ | .record _ _ | .release _ | .relinquish _ _ | .relinquishFails _ _
  | .mark _ _ => .isTrue trivial

/-! ### What is accounted for -/

/-- The rental is that of a row that is not marked as released. -/
def IsLive (s : State) (r : Rental) : Prop := ∃ row ∈ s.rows, row.released = false ∧ row.rental = r

/-- The rental is about to be recorded, or the service has failed to. -/
def IsAfloat (s : State) (r : Rental) : Prop :=
  (∃ tenantId, .recording tenantId r ∈ s.tasks) ∨ r ∈ s.unrecorded

structure Accounted (s : State) : Prop where
  numbers : (s.rows.map (·.rental.phoneNumber)).Nodup
  rented : ∀ r ∈ s.rented, IsLive s r ∨ IsAfloat s r
  live : ∀ id row, s.rows[id]? = some row → row.released = false →
    row.rental ∈ s.rented ∨ .marking id ∈ s.tasks ∨ id ∈ s.unmarked

structure Inv (s : State) : Prop extends Accounted s where
  rented_bought : ∀ r ∈ s.rented, r ∈ s.bought
  rows_bought : ∀ row ∈ s.rows, row.rental ∈ s.bought
  /-- What is being recorded is rented still, unless it has been recorded before. -/
  recording : ∀ tenantId r, .recording tenantId r ∈ s.tasks →
    r ∈ s.bought ∧ (r ∈ s.rented ∨ ∃ row ∈ s.rows, row.rental = r)
  injective : ∀ r ∈ s.bought, ∀ r' ∈ s.bought, r.key = r'.key → r = r'
  releasing : ∀ id key, .releasing id key ∈ s.tasks →
    ∃ row, s.rows[id]? = some row ∧ row.rental.key = key
  /-- What is taken back is not rented, or has been bought again, which is not recorded. -/
  marking : ∀ id, .marking id ∈ s.tasks →
    ∃ row, s.rows[id]? = some row ∧ (row.rental ∉ s.rented ∨ IsAfloat s row.rental)

variable {s s' : State} {l : Label} {id t status : ℕ} {ok arrives : Bool} {r rental : Rental}
  {row : PurchasedNumber} {task task' new : Task} {tasks : List Task} {tenantId : String}
  {key : String × String}

theorem inv_init : Inv numbers.init where
  numbers := List.nodup_nil
  rented _ h := absurd h List.not_mem_nil
  live _ _ h := by cases h
  rented_bought _ h := absurd h List.not_mem_nil
  rows_bought _ h := absurd h List.not_mem_nil
  recording _ _ h := absurd h List.not_mem_nil
  injective _ h := absurd h List.not_mem_nil
  releasing _ _ h := absurd h List.not_mem_nil
  marking _ h := absurd h List.not_mem_nil

theorem mem_set_of_ne (h : tasks[t]? = some task) (hmem : task' ∈ tasks) (hne : task' ≠ task) :
    task' ∈ tasks.set t new := by
  obtain ⟨i, hi, rfl⟩ := List.getElem_of_mem hmem
  have hit : t ≠ i := by
    rintro rfl
    rw [List.getElem?_eq_getElem hi] at h
    exact hne (Option.some.inj h)
  exact List.mem_iff_getElem.2 ⟨i, by simpa using hi, List.getElem_set_ne hit _⟩

theorem mem_of_mem_set (h : task' ∈ tasks.set t new) (hne : task' ≠ new) : task' ∈ tasks :=
  (List.mem_or_eq_of_mem_set h).resolve_right hne

/-- A rental is afloat until the task that records it goes on. -/
theorem IsAfloat.set (hr : IsAfloat s r) (h : s.tasks[t]? = some task)
    (hne : ∀ tenantId, task ≠ .recording tenantId r) (htasks : s'.tasks = s.tasks.set t new)
    (hunrecorded : s.unrecorded ⊆ s'.unrecorded) : IsAfloat s' r := by
  rcases hr with ⟨tenantId, hr⟩ | hr
  · exact .inl ⟨tenantId, htasks ▸ mem_set_of_ne h hr (hne tenantId).symm⟩
  · exact .inr (hunrecorded hr)

theorem IsAfloat.append (hr : IsAfloat s r) (htasks : s'.tasks = s.tasks ++ [new])
    (hunrecorded : s.unrecorded ⊆ s'.unrecorded) : IsAfloat s' r := by
  rcases hr with ⟨tenantId, hr⟩ | hr
  · exact .inl ⟨tenantId, htasks ▸ List.mem_append_left _ hr⟩
  · exact .inr (hunrecorded hr)

/-- Two rows of one number are one row. -/
theorem Inv.index_inj (hs : Inv s) {id' : ℕ} {row row' : PurchasedNumber}
    (h : s.rows[id]? = some row) (h' : s.rows[id']? = some row')
    (heq : row.rental = row'.rental) : id = id' := by
  have hget {i : ℕ} {row : PurchasedNumber} (h : s.rows[i]? = some row) :
      (s.rows.map (·.rental.phoneNumber))[i]? = some row.rental.phoneNumber := by
    rw [List.getElem?_map, h, Option.map_some]
  have hlt : id < (s.rows.map (·.rental.phoneNumber)).length := by
    rw [List.length_map]
    exact (List.getElem?_eq_some_iff.1 h).1
  exact (List.getElem?_inj hlt hs.numbers).1 (by rw [hget h, hget h', heq])

/-- A release that fails, at the carrier or by its answer. -/
theorem Inv.answer (hs : Inv s) (h : s.tasks[t]? = some (.releasing id key)) :
    Inv (s.answer t status) := by
  have hafloat {r : Rental} (hr : IsAfloat s r) : IsAfloat (s.answer t status) r :=
    hr.set h (by simp) rfl (List.Subset.refl _)
  refine ⟨⟨hs.numbers, fun r hr => ?_, fun id' row hrow hlive => ?_⟩, hs.rented_bought,
    hs.rows_bought, fun tenantId r hr => ?_, hs.injective, fun id' key' hr => ?_,
    fun id' hr => ?_⟩
  · exact (hs.rented r hr).imp_right hafloat
  · rcases hs.live id' row hrow hlive with hr | hmarking | hunmarked
    · exact .inl hr
    · exact .inr (.inl (mem_set_of_ne h hmarking (by simp)))
    · exact .inr (.inr hunmarked)
  · exact hs.recording tenantId r (mem_of_mem_set hr (by simp))
  · exact hs.releasing id' key' (mem_of_mem_set hr (by simp))
  · obtain ⟨row, hrow, hmarking⟩ := hs.marking id' (mem_of_mem_set hr (by simp))
    exact ⟨row, hrow, hmarking.imp_right hafloat⟩

/-- A request that is answered at once, or has read its row. -/
theorem Inv.append (hs : Inv s) (hrecording : ∀ tenantId r, task ≠ .recording tenantId r)
    (hmarking : ∀ id, task ≠ .marking id)
    (hreleasing : ∀ id key, task = .releasing id key →
      ∃ row, s.rows[id]? = some row ∧ row.rental.key = key) :
    Inv { s with tasks := s.tasks ++ [task] } := by
  have hmem {task' : Task} (h : task' ∈ s.tasks ++ [task]) : task' ∈ s.tasks ∨ task' = task := by
    simpa using h
  have hafloat {r : Rental} (hr : IsAfloat s r) :
      IsAfloat { s with tasks := s.tasks ++ [task] } r :=
    hr.append rfl (List.Subset.refl _)
  refine ⟨⟨hs.numbers, fun r hr => ?_, fun id' row hrow hlive => ?_⟩, hs.rented_bought,
    hs.rows_bought, fun tenantId r hr => ?_, hs.injective, fun id' key' hr => ?_,
    fun id' hr => ?_⟩
  · exact (hs.rented r hr).imp_right hafloat
  · rcases hs.live id' row hrow hlive with hr | hr | hr
    · exact .inl hr
    · exact .inr (.inl (List.mem_append_left _ hr))
    · exact .inr (.inr hr)
  · exact hs.recording tenantId r ((hmem hr).resolve_right (hrecording tenantId r).symm)
  · rcases hmem hr with hr | hr
    · exact hs.releasing id' key' hr
    · exact hreleasing id' key' hr.symm
  · obtain ⟨row, hrow, hr⟩ := hs.marking id' ((hmem hr).resolve_right (hmarking id').symm)
    exact ⟨row, hrow, hr.imp_right hafloat⟩

/-- The carrier sells a number. -/
theorem Inv.purchase (hs : Inv s) (hg : ∀ r ∈ s.bought, r.key = rental.key → r = rental) :
    Inv { s with
      rented := s.rented ++ [rental]
      bought := s.bought ++ [rental]
      tasks := s.tasks ++ [if arrives then .recording tenantId rental else .answered 502]
      unrecorded := if arrives then s.unrecorded else s.unrecorded ++ [rental] } := by
  set s' : State := { s with
    rented := s.rented ++ [rental]
    bought := s.bought ++ [rental]
    tasks := s.tasks ++ [if arrives then .recording tenantId rental else .answered 502]
    unrecorded := if arrives then s.unrecorded else s.unrecorded ++ [rental] } with hs'
  have hmem {task : Task} (h : task ∈ s'.tasks) : task ∈ s.tasks ∨
      task = .recording tenantId rental ∨ task = .answered 502 := by
    simp only [hs', List.mem_append, List.mem_singleton] at h
    rcases h with h | h
    · exact .inl h
    · split_ifs at h
      · exact .inr (.inl h)
      · exact .inr (.inr h)
  have hrented {r : Rental} (hr : r ∈ s.rented) : r ∈ s'.rented := List.mem_append_left _ hr
  have hbought {r : Rental} (hr : r ∈ s.bought) : r ∈ s'.bought := List.mem_append_left _ hr
  have hnew : IsAfloat s' rental := by
    rw [IsAfloat, hs']
    cases arrives with
    | true => exact .inl ⟨tenantId, List.mem_append_right _ (List.mem_singleton_self _)⟩
    | false => exact .inr (List.mem_append_right _ (List.mem_singleton_self _))
  have hafloat {r : Rental} (hr : IsAfloat s r) : IsAfloat s' r := by
    refine hr.append rfl ?_
    rw [hs']
    cases arrives with
    | true => exact List.Subset.refl _
    | false => exact List.subset_append_left _ _
  refine ⟨⟨hs.numbers, fun r hr => ?_, fun id row hrow hlive => ?_⟩, fun r hr => ?_,
    fun row hrow => hbought (hs.rows_bought row hrow), fun tenantId r hr => ?_,
    fun r hr r' hr' hkey => ?_, fun id key hr => ?_, fun id hr => ?_⟩
  · rcases List.mem_append.1 hr with hr | hr
    · exact (hs.rented r hr).imp_right hafloat
    · exact .inr (List.mem_singleton.1 hr ▸ hnew)
  · rcases hs.live id row hrow hlive with hr | hr | hr
    · exact .inl (hrented hr)
    · exact .inr (.inl (List.mem_append_left _ hr))
    · exact .inr (.inr hr)
  · rcases List.mem_append.1 hr with hr | hr
    · exact hbought (hs.rented_bought r hr)
    · exact List.mem_append_right _ hr
  · rcases hmem hr with hr | hr | hr
    · exact (hs.recording tenantId r hr).imp hbought (Or.imp_left hrented)
    · rw [(Task.recording.inj hr).2]
      exact ⟨List.mem_append_right _ (List.mem_singleton_self _),
        .inl (List.mem_append_right _ (List.mem_singleton_self _))⟩
    · cases hr
  · rcases List.mem_append.1 hr with hr | hr <;> rcases List.mem_append.1 hr' with hr' | hr'
    · exact hs.injective r hr r' hr' hkey
    · rw [List.mem_singleton.1 hr'] at hkey ⊢
      exact hg r hr hkey
    · rw [List.mem_singleton.1 hr] at hkey ⊢
      exact (hg r' hr' hkey.symm).symm
    · rw [List.mem_singleton.1 hr, List.mem_singleton.1 hr']
  · rcases hmem hr with hr | hr | hr
    · exact hs.releasing id key hr
    · cases hr
    · cases hr
  · rcases hmem hr with hr | hr | hr
    · obtain ⟨row, hrow, hmarking⟩ := hs.marking id hr
      refine ⟨row, hrow, ?_⟩
      by_cases heq : row.rental = rental
      · exact .inr (heq ▸ hnew)
      · refine hmarking.imp (fun hno => ?_) hafloat
        rw [hs', List.mem_append, List.mem_singleton, not_or]
        exact ⟨hno, heq⟩
    · cases hr
    · cases hr

/-- The row of a number that none has is added. -/
theorem Inv.insert (hs : Inv s) (h : s.tasks[t]? = some (.recording tenantId rental))
    (hfresh : rental.phoneNumber ∉ s.rows.map (·.rental.phoneNumber)) :
    Inv { s.answer t 201 with rows := s.rows ++ [⟨tenantId, rental, false⟩] } := by
  -- So that its rental is of no row that is being marked.
  have hnew (row : PurchasedNumber) (hrow : row ∈ s.rows) : row.rental ≠ rental := by
    rintro rfl
    exact hfresh (List.mem_map_of_mem (f := fun row => row.rental.phoneNumber) hrow)
  have hbought := hs.recording tenantId rental (List.mem_of_getElem? h)
  have hrented : rental ∈ s.rented := hbought.2.resolve_right fun hrow => by
    obtain ⟨row, hrow, heq⟩ := hrow
    exact hnew row hrow heq
  set s' : State := { s.answer t 201 with rows := s.rows ++ [⟨tenantId, rental, false⟩] } with hs'
  have hafloat {r : Rental} (hr : IsAfloat s r) (hne : r ≠ rental) : IsAfloat s' r :=
    hr.set h (fun _ heq => hne (Task.recording.inj heq).2.symm) rfl (List.Subset.refl _)
  have hkept {id : ℕ} {row : PurchasedNumber} (hrow : s.rows[id]? = some row) :
      s'.rows[id]? = some row := by
    rw [hs', List.getElem?_append_left (List.getElem?_eq_some_iff.1 hrow).1, hrow]
  refine ⟨⟨?_, fun r hr => ?_, fun id row hrow hlive => ?_⟩, hs.rented_bought, fun row hrow => ?_,
    fun tenantId' r hr => ?_, hs.injective, fun id key hr => ?_, fun id hr => ?_⟩
  · rw [hs', List.map_append, List.nodup_append_comm]
    exact List.nodup_cons.2 ⟨hfresh, hs.numbers⟩
  · by_cases heq : r = rental
    · exact .inl ⟨_, List.mem_append_right _ (List.mem_singleton_self _), rfl, heq.symm⟩
    · rcases hs.rented r hr with ⟨row, hrow, hlive⟩ | hr
      · exact .inl ⟨row, List.mem_append_left _ hrow, hlive⟩
      · exact .inr (hafloat hr heq)
  · rcases lt_or_ge id s.rows.length with hlt | hge
    · rw [hs', List.getElem?_append_left hlt] at hrow
      rcases hs.live id row hrow hlive with hr | hr | hr
      · exact .inl hr
      · exact .inr (.inl (mem_set_of_ne h hr (by simp)))
      · exact .inr (.inr hr)
    · rw [hs', List.getElem?_append_right hge] at hrow
      rw [List.mem_singleton.1 (List.mem_of_getElem? hrow)]
      exact .inl hrented
  · rcases List.mem_append.1 hrow with hrow | hrow
    · exact hs.rows_bought row hrow
    · exact List.mem_singleton.1 hrow ▸ hbought.1
  · refine (hs.recording tenantId' r (mem_of_mem_set hr (by simp))).imp_right
      (Or.imp_right fun hrow => ?_)
    obtain ⟨row, hrow, heq⟩ := hrow
    exact ⟨row, List.mem_append_left _ hrow, heq⟩
  · obtain ⟨row, hrow, hkey⟩ := hs.releasing id key (mem_of_mem_set hr (by simp))
    exact ⟨row, hkept hrow, hkey⟩
  · obtain ⟨row, hrow, hmarking⟩ := hs.marking id (mem_of_mem_set hr (by simp))
    exact ⟨row, hkept hrow,
      hmarking.imp_right fun hr => hafloat hr (hnew row (List.mem_of_getElem? hrow))⟩

/-- The database refuses the row. -/
theorem Inv.unrecorded (hs : Inv s) (h : s.tasks[t]? = some (.recording tenantId rental)) :
    Inv { s.answer t 500 with unrecorded := s.unrecorded ++ [rental] } := by
  set s' : State := { s.answer t 500 with unrecorded := s.unrecorded ++ [rental] } with hs'
  have hafloat {r : Rental} (hr : IsAfloat s r) : IsAfloat s' r := by
    by_cases heq : r = rental
    · exact .inr (heq ▸ List.mem_append_right _ (List.mem_singleton_self _))
    · exact hr.set h (fun _ h => heq (Task.recording.inj h).2.symm) rfl
        (List.subset_append_left _ _)
  refine ⟨⟨hs.numbers, fun r hr => ?_, fun id row hrow hlive => ?_⟩, hs.rented_bought,
    hs.rows_bought, fun tenantId r hr => ?_, hs.injective, fun id key hr => ?_, fun id hr => ?_⟩
  · exact (hs.rented r hr).imp_right hafloat
  · rcases hs.live id row hrow hlive with hr | hr | hr
    · exact .inl hr
    · exact .inr (.inl (mem_set_of_ne h hr (by simp)))
    · exact .inr (.inr hr)
  · exact hs.recording tenantId r (mem_of_mem_set hr (by simp))
  · exact hs.releasing id key (mem_of_mem_set hr (by simp))
  · obtain ⟨row, hrow, hmarking⟩ := hs.marking id (mem_of_mem_set hr (by simp))
    exact ⟨row, hrow, hmarking.imp_right hafloat⟩

theorem Inv.record (hs : Inv s) (h : s.tasks[t]? = some (.recording tenantId rental)) :
    Inv (recordPurchase s tenantId rental ok t) := by
  rw [recordPurchase]
  split_ifs with hok
  · exact hs.insert h hok.2
  · exact hs.unrecorded h

/-- The carrier takes a number back. -/
theorem Inv.relinquish (hs : Inv s) (h : s.tasks[t]? = some (.releasing id key)) :
    Inv { s with
      rented := s.rented.filter (·.key ≠ key)
      tasks := s.tasks.set t (if arrives then .marking id else .answered 502)
      unmarked := if arrives then s.unmarked else s.unmarked ++ [id] } := by
  obtain ⟨row, hrow, rfl⟩ := hs.releasing id key (List.mem_of_getElem? h)
  have hbought := hs.rows_bought row (List.mem_of_getElem? hrow)
  set s' : State := { s with
    rented := s.rented.filter (·.key ≠ row.rental.key)
    tasks := s.tasks.set t (if arrives then .marking id else .answered 502)
    unmarked := if arrives then s.unmarked else s.unmarked ++ [id] } with hs'
  have hrented {r : Rental} : r ∈ s'.rented ↔ r ∈ s.rented ∧ r ≠ row.rental := by
    rw [hs', List.mem_filter, decide_eq_true_iff]
    refine and_congr_right fun hr => not_congr ⟨fun hkey => ?_, congrArg Rental.key⟩
    exact hs.injective r (hs.rented_bought r hr) row.rental hbought hkey
  have hmem {task : Task} (h : task ∈ s'.tasks) (hne : task ≠ .answered 502) :
      task ∈ s.tasks ∨ task = .marking id := by
    rcases List.mem_or_eq_of_mem_set h with h | h
    · exact .inl h
    · split_ifs at h
      · exact .inr h
      · exact absurd h hne
  have hafloat {r : Rental} (hr : IsAfloat s r) : IsAfloat s' r :=
    hr.set h (by simp) rfl (List.Subset.refl _)
  have hunmarked : .marking id ∈ s'.tasks ∨ id ∈ s'.unmarked := by
    rw [hs']
    cases arrives with
    | true => exact .inl (List.mem_set (List.getElem?_eq_some_iff.1 h).1 _)
    | false => exact .inr (List.mem_append_right _ (List.mem_singleton_self _))
  refine ⟨⟨hs.numbers, fun r hr => ?_, fun id' row' hrow' hlive => ?_⟩,
    fun r hr => hs.rented_bought r (hrented.1 hr).1, hs.rows_bought, fun tenantId r hr => ?_,
    hs.injective, fun id' key' hr => ?_, fun id' hr => ?_⟩
  · exact (hs.rented r (hrented.1 hr).1).imp_right hafloat
  · by_cases heq : row'.rental = row.rental
    · rw [hs.index_inj hrow' hrow heq]
      exact .inr hunmarked
    · rcases hs.live id' row' hrow' hlive with hr | hr | hr
      · exact .inl (hrented.2 ⟨hr, heq⟩)
      · exact .inr (.inl (mem_set_of_ne h hr (by simp)))
      · refine .inr (.inr ?_)
        rw [hs']
        cases arrives with
        | true => exact hr
        | false => exact List.mem_append_left _ hr
  · refine (hs.recording tenantId r ((hmem hr (by simp)).resolve_right (by simp))).imp_right ?_
    by_cases heq : r = row.rental
    · exact fun _ => .inr ⟨row, List.mem_of_getElem? hrow, heq.symm⟩
    · exact Or.imp_left fun hr => hrented.2 ⟨hr, heq⟩
  · exact hs.releasing id' key' ((hmem hr (by simp)).resolve_right (by simp))
  · rcases hmem hr (by simp) with hr | hr
    · obtain ⟨row', hrow', hmarking⟩ := hs.marking id' hr
      exact ⟨row', hrow', hmarking.imp (fun hno hr => hno (hrented.1 hr).1) hafloat⟩
    · rw [Task.marking.inj hr]
      exact ⟨row, hrow, .inl fun hr => (hrented.1 hr).2 rfl⟩

/-- The row is marked: what it has been for is not rented, or afloat. -/
theorem Inv.marked (hs : Inv s) (h : s.tasks[t]? = some (.marking id)) :
    Inv { s.answer t 200 with rows := s.rows.modify id ({ · with released := true }) } := by
  obtain ⟨row, hrow, hmarking⟩ := hs.marking id (List.mem_of_getElem? h)
  set f : PurchasedNumber → PurchasedNumber := ({ · with released := true }) with hf
  set s' : State := { s.answer t 200 with rows := s.rows.modify id f } with hs'
  have hmap : s'.rows.map (·.rental.phoneNumber) = s.rows.map (·.rental.phoneNumber) := by
    refine List.ext_getElem? fun i => ?_
    rw [hs', List.getElem?_map, List.getElem?_map, List.getElem?_modify, Option.map_eq_map,
      Option.map_map]
    congr 1
    funext row'
    dsimp only [Function.comp_apply]
    split_ifs <;> rfl
  have hget {id' : ℕ} {row' : PurchasedNumber} (h : s.rows[id']? = some row') :
      s'.rows[id']? = some (if id = id' then f row' else row') := by
    rw [hs', List.getElem?_modify, h, Option.map_eq_map, Option.map_some]
  have hrental (id' : ℕ) (row' : PurchasedNumber) :
      (if id = id' then f row' else row').rental = row'.rental := by
    split_ifs <;> rfl
  have hof {id' : ℕ} {row' : PurchasedNumber} (h : s'.rows[id']? = some row') :
      ∃ row, s.rows[id']? = some row ∧ row' = if id = id' then f row else row := by
    rw [hs', List.getElem?_modify, Option.map_eq_map, Option.map_eq_some_iff] at h
    obtain ⟨row, hrow, heq⟩ := h
    exact ⟨row, hrow, heq.symm⟩
  have hafloat {r : Rental} (hr : IsAfloat s r) : IsAfloat s' r :=
    hr.set h (by simp) rfl (List.Subset.refl _)
  refine ⟨⟨hmap ▸ hs.numbers, fun r hr => ?_, fun id' row' hrow' hlive => ?_⟩, hs.rented_bought,
    fun row' hrow' => ?_, fun tenantId r hr => ?_, hs.injective, fun id' key hr => ?_,
    fun id' hr => ?_⟩
  · rcases hs.rented r hr with ⟨row', hrow', hlive, heq⟩ | hr
    · obtain ⟨id', hid⟩ := List.mem_iff_getElem?.1 hrow'
      by_cases heqid : id = id'
      · -- It is the row that is marked.
        subst heqid
        obtain rfl : row = row' := Option.some.inj (hrow.symm.trans hid)
        subst heq
        exact .inr (hafloat (hmarking.resolve_left fun hno => hno hr))
      · have hkept := hget hid
        rw [if_neg heqid] at hkept
        exact .inl ⟨row', List.mem_of_getElem? hkept, hlive, heq⟩
    · exact .inr (hafloat hr)
  · obtain ⟨row₀, hrow₀, heq⟩ := hof hrow'
    by_cases heqid : id = id'
    · rw [heq, if_pos heqid] at hlive
      cases hlive
    · rw [if_neg heqid] at heq
      subst heq
      rcases hs.live id' row' hrow₀ hlive with hr | hr | hr
      · exact .inl hr
      · exact .inr (.inl (mem_set_of_ne h hr fun heq => heqid (Task.marking.inj heq).symm))
      · exact .inr (.inr hr)
  · obtain ⟨id', hid⟩ := List.mem_iff_getElem?.1 hrow'
    obtain ⟨row₀, hrow₀, rfl⟩ := hof hid
    rw [hrental]
    exact hs.rows_bought row₀ (List.mem_of_getElem? hrow₀)
  · refine (hs.recording tenantId r (mem_of_mem_set hr (by simp))).imp_right
      (Or.imp_right fun hrow' => ?_)
    obtain ⟨row', hrow', heq⟩ := hrow'
    obtain ⟨id', hid⟩ := List.mem_iff_getElem?.1 hrow'
    exact ⟨_, List.mem_of_getElem? (hget hid), (hrental id' row').trans heq⟩
  · obtain ⟨row', hrow', hkey⟩ := hs.releasing id' key (mem_of_mem_set hr (by simp))
    exact ⟨_, hget hrow', by rw [hrental, hkey]⟩
  · obtain ⟨row', hrow', hmarking'⟩ := hs.marking id' (mem_of_mem_set hr (by simp))
    exact ⟨_, hget hrow', by rw [hrental]; exact hmarking'.imp_right hafloat⟩

/-- The database does not mark the row. -/
theorem Inv.unmarked (hs : Inv s) (h : s.tasks[t]? = some (.marking id)) :
    Inv { s.answer t 500 with unmarked := s.unmarked ++ [id] } := by
  have hafloat {r : Rental} (hr : IsAfloat s r) :
      IsAfloat { s.answer t 500 with unmarked := s.unmarked ++ [id] } r :=
    hr.set h (by simp) rfl (List.Subset.refl _)
  refine ⟨⟨hs.numbers, fun r hr => ?_, fun id' row hrow hlive => ?_⟩, hs.rented_bought,
    hs.rows_bought, fun tenantId r hr => ?_, hs.injective, fun id' key hr => ?_, fun id' hr => ?_⟩
  · exact (hs.rented r hr).imp_right hafloat
  · rcases hs.live id' row hrow hlive with hr | hr | hr
    · exact .inl hr
    · by_cases heq : id' = id
      · exact .inr (.inr (heq ▸ List.mem_append_right _ (List.mem_singleton_self _)))
      · exact .inr (.inl (mem_set_of_ne h hr fun h => heq (Task.marking.inj h)))
    · exact .inr (.inr (List.mem_append_left _ hr))
  · exact hs.recording tenantId r (mem_of_mem_set hr (by simp))
  · exact hs.releasing id' key (mem_of_mem_set hr (by simp))
  · obtain ⟨row, hrow, hmarking⟩ := hs.marking id' (mem_of_mem_set hr (by simp))
    exact ⟨row, hrow, hmarking.imp_right hafloat⟩

theorem Inv.step (hs : Inv s) (hg : Names s l) (h : numbers.step s l = some s') : Inv s' := by
  cases l with
  | purchase tenantId rental arrives =>
    simp only [numbers] at h
    split at h
    · cases h
    · cases h
      exact hs.purchase hg
  | purchaseFails status =>
    cases h
    exact hs.append (by simp) (by simp) (by simp)
  | record t ok =>
    simp only [numbers] at h
    split at h
    · next htask =>
      cases h
      exact hs.record htask
    · cases h
  | release id =>
    cases h
    refine hs.append (fun tenantId r => ?_) (fun id' => ?_) fun id' key heq => ?_
    · rw [getPurchasedNumber]
      split
      · split_ifs <;> simp
      · simp
    · rw [getPurchasedNumber]
      split
      · split_ifs <;> simp
      · simp
    · rw [getPurchasedNumber] at heq
      split at heq
      · next row hrow =>
        split_ifs at heq
        obtain ⟨rfl, rfl⟩ := Task.releasing.inj heq
        exact ⟨row, hrow, rfl⟩
      · cases heq
  | relinquish t arrives =>
    simp only [numbers] at h
    split at h
    · next htask =>
      cases h
      exact hs.relinquish htask
    · cases h
  | relinquishFails t status =>
    simp only [numbers] at h
    split at h
    · next htask =>
      cases h
      exact hs.answer htask
    · cases h
  | mark t ok =>
    simp only [numbers] at h
    split at h
    · next htask =>
      cases h
      rw [recordRelease]
      split_ifs
      · exact hs.marked htask
      · exact hs.unmarked htask
    · cases h

theorem Inv.of_reachable (hs : numbers.ReachableIf Names s) : Inv s :=
  hs.invariant inv_init fun _ _ _ hs => hs.step

/-- Nothing is under way, and nothing has failed between a carrier and the database. -/
structure Settled (s : State) : Prop where
  tasks : ∀ task ∈ s.tasks, ∃ status, task = .answered status
  unrecorded : s.unrecorded = []
  unmarked : s.unmarked = []

/-- Every rental is that of a row that is not marked as released, or the service is about
    to record it or has failed to, and every such row is rented, or about to be marked, or
    the service has failed to mark it. So the two agree when all has ended well. -/
theorem rentals_accounted (hs : numbers.ReachableIf Names s) :
    Accounted s ∧ (Settled s → ∀ r, r ∈ s.rented ↔ IsLive s r) := by
  have hinv := Inv.of_reachable hs
  refine ⟨hinv.toAccounted, fun hsettled r => ⟨fun hr => ?_, fun hlive => ?_⟩⟩
  · refine (hinv.rented r hr).resolve_right fun hafloat => ?_
    rcases hafloat with ⟨tenantId, hr⟩ | hr
    · obtain ⟨status, heq⟩ := hsettled.tasks _ hr
      cases heq
    · rw [hsettled.unrecorded] at hr
      exact List.not_mem_nil hr
  · obtain ⟨row, hrow, hlive, rfl⟩ := hlive
    obtain ⟨id, hid⟩ := List.mem_iff_getElem?.1 hrow
    refine (hinv.live id row hid hlive).resolve_right fun hlost => ?_
    rcases hlost with hmarking | hunmarked
    · obtain ⟨status, heq⟩ := hsettled.tasks _ hmarking
      cases heq
    · rw [hsettled.unmarked] at hunmarked
      exact List.not_mem_nil hunmarked

private def office : Rental := ⟨"plivo", "+15550100", "15550100"⟩

private def frontDesk : Rental := ⟨"twilio", "+15550101", "PN01"⟩

/-- One number has been given back at the second try, and another is rented. -/
private def returned : State :=
  ⟨[frontDesk], [⟨"clinic", office, true⟩, ⟨"clinic", frontDesk, false⟩],
    [.answered 201, .answered 502, .answered 200, .answered 201], [office, frontDesk], [], []⟩

private theorem returned_reachable : numbers.ReachableIf Names returned := by
  have hrun : numbers.execIf Names numbers.init
      [.purchase "clinic" office true, .record 0 true, .release 0, .relinquishFails 1 502,
        .release 0, .relinquish 2 (some 204), .mark 2 true, .purchase "clinic" frontDesk true,
        .record 3 true] = some returned := by
    decide
  exact .execIf .init hrun

private theorem returned_settled : Settled returned := by
  refine ⟨fun task h => ?_, rfl, rfl⟩
  simp only [returned, List.mem_cons, List.not_mem_nil, or_false] at h
  rcases h with rfl | rfl | rfl | rfl <;> exact ⟨_, rfl⟩

theorem rentals_accounted_returned :
    Accounted returned ∧ ∀ r, r ∈ returned.rented ↔ IsLive returned r :=
  ⟨(rentals_accounted returned_reachable).1, (rentals_accounted returned_reachable).2
    returned_settled⟩

/-! ### What is never released -/

/-- What the carrier is to sell, if it is. -/
def Label.key? : Label → Option (String × String)
  | .purchase _ rental _ => some rental.key
  | _ => none

/-- The carrier answers with an error where it has no such number. -/
def Refuses (s : State) : Label → Prop
  | .relinquish t reply => ∀ id key, s.tasks[t]? = some (.releasing id key) →
      key ∉ s.rented.map Rental.key → ∀ status ∈ reply, 400 ≤ status
  | _ => True

/-- The carrier has the number of a row that is not marked as released, and nobody is
    about to mark it. -/
structure Stranded (s : State) (id : ℕ) (row : PurchasedNumber) : Prop where
  read : s.rows[id]? = some row
  live : row.released = false
  rented : ∀ r ∈ s.rented, r.key ≠ row.rental.key
  marking : .marking id ∉ s.tasks

/-- What reads the row has nothing that the carrier could take back. -/
theorem Stranded.key_eq (h : Stranded s id row) (hs : Inv s) (htask : .releasing id key ∈ s.tasks) :
    key ∉ s.rented.map Rental.key := by
  obtain ⟨row', hrow', rfl⟩ := hs.releasing id key htask
  obtain rfl : row = row' := Option.some.inj (h.read.symm.trans hrow')
  intro hmem
  obtain ⟨r, hr, heq⟩ := List.mem_map.1 hmem
  exact h.rented r hr heq

/-- The providers take the refusal for a failure. -/
theorem Stranded.releaseNumber_eq (h : Stranded s id row) (hs : Inv s) {reply : Option ℕ}
    (hrefuses : Refuses s (.relinquish t reply)) (htask : s.tasks[t]? = some (.releasing id key)) :
    releaseNumber reply = false := by
  have hkey := h.key_eq hs (List.mem_of_getElem? htask)
  rcases reply with _ | status
  · rfl
  · have hstatus := hrefuses id key htask hkey status rfl
    exact decide_eq_false (Nat.not_lt.2 hstatus)

theorem Stranded.step (h : Stranded s id row) (hs : Inv s) (hrefuses : Refuses s l)
    (hl : l.key? ≠ some row.rental.key) (hst : numbers.step s l = some s') :
    Stranded s' id row := by
  have hset {t : ℕ} {new : Task} (hne : new ≠ .marking id) : .marking id ∉ s.tasks.set t new :=
    fun hmem => h.marking (mem_of_mem_set hmem hne.symm)
  have happend {new : Task} (hne : new ≠ .marking id) : .marking id ∉ s.tasks ++ [new] := by
    rw [List.mem_append, List.mem_singleton, not_or]
    exact ⟨h.marking, hne.symm⟩
  cases l with
  | purchase tenantId rental arrives =>
    simp only [numbers] at hst
    split at hst
    · cases hst
    · cases hst
      refine ⟨h.read, h.live, fun r hr => ?_, happend (by split_ifs <;> simp)⟩
      rcases List.mem_append.1 hr with hr | hr
      · exact h.rented r hr
      · rw [List.mem_singleton.1 hr]
        exact fun heq => hl (congrArg some heq)
  | purchaseFails status =>
    cases hst
    exact ⟨h.read, h.live, h.rented, happend (by simp)⟩
  | record t ok =>
    simp only [numbers] at hst
    split at hst
    · cases hst
      rw [recordPurchase]
      split_ifs
      · refine ⟨?_, h.live, h.rented, hset (by simp)⟩
        rw [← h.read]
        exact List.getElem?_append_left (List.getElem?_eq_some_iff.1 h.read).1
      · exact ⟨h.read, h.live, h.rented, hset (by simp)⟩
    · cases hst
  | release id' =>
    cases hst
    refine ⟨h.read, h.live, h.rented, happend ?_⟩
    rw [getPurchasedNumber]
    split
    · split_ifs <;> simp
    · simp
  | relinquish t reply =>
    simp only [numbers] at hst
    split at hst
    · next id' key htask =>
      cases hst
      refine ⟨h.read, h.live, fun r hr => h.rented r (List.mem_of_mem_filter hr), hset ?_⟩
      by_cases hid : id' = id
      · subst hid
        rw [h.releaseNumber_eq hs hrefuses htask]
        simp
      · split_ifs <;> simp [hid]
    · cases hst
  | relinquishFails t status =>
    simp only [numbers] at hst
    split at hst
    · cases hst
      exact ⟨h.read, h.live, h.rented, hset (by simp)⟩
    · cases hst
  | mark t ok =>
    simp only [numbers] at hst
    split at hst
    · next id' htask =>
      have hne : id' ≠ id := by
        rintro rfl
        exact h.marking (List.mem_of_getElem? htask)
      cases hst
      rw [recordRelease]
      split_ifs
      · refine ⟨?_, h.live, h.rented, hset (by simp)⟩
        rw [← h.read]
        exact List.getElem?_modify_ne _ _ hne
      · exact ⟨h.read, h.live, h.rented, hset (by simp)⟩
    · cases hst

/-- A row whose rental is gone, because an answer of the carrier has been lost or the
    database has not marked the row, is never released any more, unless the number is bought
    again: the carrier refuses it for every request that has read the row, and the request is
    answered with an error. -/
theorem stranded (hs : numbers.ReachableIf Names s) (h : Stranded s id row)
    (hs' : (numbers.startingFrom s).ReachableIf
      (fun s l => Names s l ∧ Refuses s l ∧ l.key? ≠ some row.rental.key) s') :
    Stranded s' id row ∧ ∀ t key reply s'', s'.tasks[t]? = some (.releasing id key) →
      Refuses s' (.relinquish t reply) → numbers.step s' (.relinquish t reply) = some s'' →
        s''.tasks[t]? = some (.answered 502) := by
  obtain ⟨hinv, hstranded⟩ : Inv s' ∧ Stranded s' id row := by
    refine hs'.invariant (I := fun s => Inv s ∧ Stranded s id row) ?_ ?_
    · exact ⟨Inv.of_reachable hs, h⟩
    · intro s l s' hI hg hst
      exact ⟨hI.1.step hg.1 hst, hI.2.step hI.1 hg.2.1 hg.2.2 hst⟩
  refine ⟨hstranded, fun t key reply s'' htask hrefuses hst => ?_⟩
  simp only [numbers, htask, hstranded.releaseNumber_eq hinv hrefuses htask] at hst
  obtain rfl := Option.some.inj hst
  exact List.getElem?_set_self (List.getElem?_eq_some_iff.1 htask).1

private def answerLost : State :=
  ⟨[], [⟨"clinic", office, false⟩], [.answered 201, .answered 502], [office], [], [0]⟩

private theorem answerLost_reachable : numbers.ReachableIf Names answerLost := by
  have hrun : numbers.execIf Names numbers.init
      [.purchase "clinic" office true, .record 0 true, .release 0, .relinquish 1 none] =
        some answerLost := by
    decide
  exact .execIf .init hrun

/-- The number is asked to be released once more, and the carrier does not know it. -/
theorem stranded_answerLost :
    ∃ s s', Stranded s 0 ⟨"clinic", office, false⟩ ∧
      numbers.step s (.relinquish 2 (some 404)) = some s' ∧
      s'.tasks[2]? = some (.answered 502) := by
  have hlost : Stranded answerLost 0 ⟨"clinic", office, false⟩ := by
    constructor <;> decide
  have hs := stranded answerLost_reachable hlost
    (.step (l := .release 0) .init ⟨trivial, trivial, by decide⟩ rfl)
  have hrefuses : ∀ status ∈ some 404, 400 ≤ status := by decide
  exact ⟨_, _, hs.1, rfl, hs.2 2 office.key (some 404) _ rfl (fun _ _ _ _ => hrefuses) rfl⟩

end Yuviz.Did
