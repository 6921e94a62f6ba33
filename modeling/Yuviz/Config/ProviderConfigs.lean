import Yuviz.Config.Deps
import Yuviz.Python.Str

/-!
# The credentials of the providers

`services/config/provider_configs.py` and its router: what becomes of `api_key` and
`api_key_ref` of a request to create or to change a provider. The router, the service
and the resolver each have their own condition for a field that is blank.

A stored credential is a pointer, or a key that has been encrypted, or a reference that
was sent as it is. A change takes a credential away only by an `api_key` that is there
and empty, without an `api_key_ref` (`patch_loses_iff`).
-/

namespace Yuviz.Config.ProviderConfigs

open Python (Dict stripStr orElse)

/-- `Fernet` under the key of the environment. A token is drawn at random. -/
class Fernet where
  /-- There is none if no key is configured. -/
  encrypt : ℕ → String → Option String
  decrypt : String → Option String
  decrypt_encrypt : ∀ n plaintext token, encrypt n plaintext = some token →
    decrypt token = some plaintext

/-! ## Secrets -/

def encryptedPrefix : String := "enc:"

def startsWith (s start : String) : Bool := start.toList.isPrefixOf s.toList

theorem startsWith_append (start s : String) : startsWith (start ++ s) start := by
  rw [startsWith, String.toList_append, List.isPrefixOf_iff_prefix]
  exact List.prefix_append _ _

section

variable [Fernet]

def isEncrypted (ref : String) : Bool := startsWith ref encryptedPrefix

def encryptSecret (n : ℕ) (plaintext : String) : Except Failure String :=
  if plaintext = "" then .error (.valueError "refusing to encrypt an empty secret")
  else match Fernet.encrypt n plaintext with
    | none => .error .secretEncryptionUnavailable
    | some token => .ok (encryptedPrefix ++ token)

def decryptSecret (ref : String) : Except Failure String :=
  if !isEncrypted ref then .error (.valueError "not an encrypted secret reference")
  else match Fernet.decrypt (String.ofList (ref.toList.drop encryptedPrefix.length)) with
    | none => .error .secretEncryptionUnavailable
    | some key => .ok key

/-! ## The service -/

def secretSchemes : List String := ["env:", "k8s:", encryptedPrefix]

def notASecret : String :=
  "api_key_ref must point at a secret (env:VAR_NAME or k8s:namespace/secret). " ++
    "To store the key itself, send it as `api_key` and it will be encrypted — " ++
    "never paste a real key into this field."

/-- What belongs in the column. An empty `api_key` counts as none. -/
def resolveApiKeyInput (n : ℕ) (apiKey apiKeyRef : Option String) :
    Except Failure (Option String) :=
  let ref := stripStr (orElse apiKeyRef "")
  match apiKey.filter (· ≠ "") with
  | some key =>
    if ref ≠ "" then .error (.valueError "send either api_key or api_key_ref, not both")
    else (encryptSecret n (stripStr key)).map some
  | none =>
    if ref = "" then .ok none
    else if secretSchemes.any (startsWith ref) then .ok (some ref)
    else .error (.valueError notASecret)

/-- A row of `provider_configs`. -/
structure Provider where
  tenantId : String
  apiKeyRef : Option String

structure Db where
  /-- The tenants that are not deleted. -/
  tenants : List String
  providers : Dict ℕ Provider

structure ProviderConfigCreate where
  apiKeyRef : Option String
  apiKey : Option String

/-- The fields that are set, and whether any other is. A field may be set to null. -/
structure ProviderConfigUpdate where
  apiKeyRef : Option (Option String)
  apiKey : Option (Option String)
  others : Bool

def Db.createProviderConfig (db : Db) (n id : ℕ) (tenantId : String)
    (body : ProviderConfigCreate) : Except Failure Db := do
  let apiKeyRef ← resolveApiKeyInput n body.apiKey body.apiKeyRef
  pure { db with providers := db.providers.set id ⟨tenantId, apiKeyRef⟩ }

/-- `api_key` is folded into `api_key_ref`, which is set if either field is. -/
def ProviderConfigUpdate.fold (n : ℕ) (body : ProviderConfigUpdate) :
    Except Failure (Option (Option String)) :=
  if body.apiKey.isSome ∨ body.apiKeyRef.isSome then
    (resolveApiKeyInput n body.apiKey.join body.apiKeyRef.join).map some
  else .ok none

def Db.updateProviderConfig (db : Db) (n id : ℕ) (body : ProviderConfigUpdate) :
    Except Failure Db := do
  let apiKeyRef ← body.fold n
  if apiKeyRef = none ∧ !body.others then
    .error (.valueError "update_provider_config() called with no fields to update")
  else match db.providers.get? id with
    | none => .error (.lookupError s!"provider_config {id} not found")
    | some old =>
      let new := { old with apiKeyRef := apiKeyRef.getD old.apiKeyRef }
      pure { db with providers := db.providers.set id new }

/-! ## The router -/

def Db.authorizeProvider (db : Db) (id : ℕ) (user : CurrentUser) : Except Failure Unit :=
  match db.providers.get? id with
  | none => .error (.http 404 s!"provider_config {id} not found")
  | some provider =>
    if ¬ (user.role = .superadmin ∨ user.tenantId = none) ∧
        user.tenantId ≠ some provider.tenantId then
      .error (.http 403 "provider_config belongs to a different tenant")
    else .ok ()

/-- Neither `x` nor what it is without blanks is anything. -/
def blank (x : Option String) : Bool := stripStr (orElse x "") = ""

def Db.post (db : Db) (user : CurrentUser) (n id : ℕ) (tenantId : String)
    (body : ProviderConfigCreate) : Except Failure Db := do
  requireRole [.superadmin, .admin] user
  if tenantId ∉ db.tenants then .error (.http 404 s!"tenant {tenantId} not found")
  else db.createProviderConfig n id tenantId body

def Db.patch (db : Db) (user : CurrentUser) (n id : ℕ) (body : ProviderConfigUpdate) :
    Except Failure Db := do
  requireRole [.superadmin, .admin] user
  db.authorizeProvider id user
  if body.apiKeyRef = none ∧ body.apiKey = none ∧ !body.others then
    .error (.http 400 "request body has no fields to update")
  else if body.apiKeyRef.isSome ∧ blank body.apiKeyRef.join ∧ blank body.apiKey.join then
    .error (.http 400 "api_key_ref must not be blank")
  else db.updateProviderConfig n id body

/-- A request. The random numbers are those drawn when it is handled. -/
inductive Label
  /-- The id is new. -/
  | create (user : CurrentUser) (n id : ℕ) (tenantId : String) (body : ProviderConfigCreate)
  | patch (user : CurrentUser) (n id : ℕ) (body : ProviderConfigUpdate)

/-- A request that fails leaves everything as it is, and is no step. -/
def Db.step (db : Db) : Label → Option Db
  | .create user n id tenantId body =>
    if (db.providers.get? id).isSome then none else (db.post user n id tenantId body).toOption
  | .patch user n id body => (db.patch user n id body).toOption

def system (tenants : List String) : System Db Label where
  init := ⟨tenants, []⟩
  step := Db.step

/-! ## The credentials stored -/

def Pointer (ref : String) : Prop := startsWith ref "env:" ∨ startsWith ref "k8s:"

/-- A key that is not blank can be read back. -/
def Sealed (ref : String) : Prop := ∃ key, decryptSecret ref = .ok key ∧ stripStr key ≠ ""

def Db.credential (db : Db) (id : ℕ) : Option String :=
  (db.providers.get? id).bind Provider.apiKeyRef

/-- Each credential is a pointer or can be read back. -/
def Db.Stored (db : Db) : Prop :=
  ∀ id ref, db.credential id = some ref → Pointer ref ∨ Sealed ref

/-- No change that is accepted takes a credential away. -/
def Db.Keeps (db : Db) : Prop :=
  ∀ user n id body db', db.patch user n id body = .ok db' →
    ∀ i, (db.credential i).isSome → (db'.credential i).isSome

theorem sealed_of_encrypt {n : ℕ} {key ref : String} (hkey : stripStr key ≠ "")
    (h : encryptSecret n key = .ok ref) : Sealed ref := by
  rw [encryptSecret] at h
  split_ifs at h
  split at h
  · cases h
  · next token htoken =>
    obtain rfl := Except.ok.inj h
    refine ⟨key, ?_, hkey⟩
    have hdrop : String.ofList ((encryptedPrefix ++ token).toList.drop encryptedPrefix.length) =
        token := by
      rw [String.toList_append, ← String.length_toList, List.drop_left, String.ofList_toList]
    rw [decryptSecret, isEncrypted, startsWith_append, hdrop,
      Fernet.decrypt_encrypt n key token htoken]
    rfl

/-- Of what is given, nothing is stored only if there is nothing. -/
theorem resolveApiKeyInput_eq_none {n : ℕ} {apiKey apiKeyRef : Option String} :
    resolveApiKeyInput n apiKey apiKeyRef = .ok none ↔
      apiKey.filter (· ≠ "") = none ∧ blank apiKeyRef := by
  rw [resolveApiKeyInput, blank, decide_eq_true_iff]
  split
  · next key hkey =>
    rw [hkey]
    split_ifs
    · simp
    · cases encryptSecret n (stripStr key) <;> simp [Except.map]
  · next hkey =>
    rw [hkey]
    split_ifs <;> simp_all

theorem resolveApiKeyInput_eq_some {n : ℕ} {apiKey apiKeyRef : Option String} {ref : String}
    (h : resolveApiKeyInput n apiKey apiKeyRef = .ok (some ref)) :
    Pointer ref ∨ Sealed ref ∨ isEncrypted ref ∧ ref = stripStr (orElse apiKeyRef "") := by
  rw [resolveApiKeyInput] at h
  split at h
  · next key _ =>
    split_ifs at h
    cases hencrypt : encryptSecret n (stripStr key) with
    | error failure =>
      rw [hencrypt] at h
      cases h
    | ok sealed =>
      rw [hencrypt] at h
      obtain rfl := Option.some.inj (Except.ok.inj h)
      have hne : stripStr key ≠ "" := by
        rintro hempty
        rw [encryptSecret, if_pos hempty] at hencrypt
        cases hencrypt
      exact .inr (.inl (sealed_of_encrypt (by rwa [Python.stripStr_stripStr]) hencrypt))
  · split_ifs at h with hne hscheme
    · cases h
    · obtain rfl := Option.some.inj (Except.ok.inj h)
      obtain ⟨scheme, hmem, hstart⟩ := List.any_eq_true.1 hscheme
      rcases List.mem_cons.1 hmem with rfl | hmem
      · exact .inl (.inl hstart)
      rcases List.mem_cons.1 hmem with rfl | hmem
      · exact .inl (.inr hstart)
      obtain rfl := List.mem_singleton.1 hmem
      exact .inr (.inr ⟨hstart, rfl⟩)

/-! ## What a request does to them -/

/-- `api_key` is there and empty, and `api_key_ref` is not there. -/
def ProviderConfigUpdate.Empties (body : ProviderConfigUpdate) : Prop :=
  (body.apiKey.isSome ∧ body.apiKey.join.filter (· ≠ "") = none) ∧ body.apiKeyRef = none

/-- A request that is accepted for a provider has found it, and sets the column to what
    the fields fold to. -/
theorem patch_eq_ok {db db' : Db} {user : CurrentUser} {n id : ℕ} {body : ProviderConfigUpdate}
    (h : db.patch user n id body = .ok db') :
    ∃ old apiKeyRef, db.providers.get? id = some old ∧ body.fold n = .ok apiKeyRef ∧
      ¬ (body.apiKeyRef.isSome ∧ blank body.apiKeyRef.join ∧ blank body.apiKey.join) ∧
      db' = { db with providers :=
        db.providers.set id { old with apiKeyRef := apiKeyRef.getD old.apiKeyRef } } := by
  rw [Db.patch] at h
  obtain ⟨_, -, h⟩ := bind_eq_ok h
  obtain ⟨_, -, h⟩ := bind_eq_ok h
  split_ifs at h with _ hblank
  rw [Db.updateProviderConfig] at h
  obtain ⟨apiKeyRef, hfold, h⟩ := bind_eq_ok h
  split_ifs at h
  split at h
  · cases h
  · next old hold => exact ⟨old, apiKeyRef, hold, hfold, hblank, (Except.ok.inj h).symm⟩

variable {db db' : Db} {user : CurrentUser} {n id : ℕ} {body : ProviderConfigUpdate}

omit [Fernet] in
theorem credential_set {provider : Provider} {i : ℕ} :
    Db.credential { db with providers := db.providers.set id provider } i =
      if i = id then provider.apiKeyRef else db.credential i := by
  rw [Db.credential, Dict.get?_set]
  split_ifs
  · rfl
  · rfl

/-- The column is set to null by an empty `api_key`, unless there is an `api_key_ref`,
    which the router would not have let pass. -/
theorem fold_eq_null (hblank : ¬ (body.apiKeyRef.isSome ∧ blank body.apiKeyRef.join ∧
    blank body.apiKey.join)) : body.fold n = .ok (some none) ↔ body.Empties := by
  have hempty (x : Option String) (hx : x.filter (· ≠ "") = none) : blank x := by
    cases x with
    | none => rfl
    | some s =>
      have hs : s = "" := by simpa [Option.filter] using hx
      subst hs
      rfl
  rw [ProviderConfigUpdate.fold, ProviderConfigUpdate.Empties]
  split_ifs with hset
  · have hmap : (resolveApiKeyInput n body.apiKey.join body.apiKeyRef.join).map some =
        .ok (some none) ↔ resolveApiKeyInput n body.apiKey.join body.apiKeyRef.join = .ok none := by
      cases resolveApiKeyInput n body.apiKey.join body.apiKeyRef.join <;> simp [Except.map]
    rw [hmap, resolveApiKeyInput_eq_none]
    refine ⟨fun ⟨hkey, href⟩ => ?_, fun ⟨⟨_, hkey⟩, href⟩ => ⟨hkey, by rw [href]; rfl⟩⟩
    have hnone : body.apiKeyRef = none := by
      rw [← Option.not_isSome_iff_eq_none]
      exact fun hsome => hblank ⟨hsome, href, hempty _ hkey⟩
    refine ⟨⟨hset.resolve_right fun hsome => ?_, hkey⟩, hnone⟩
    rw [hnone] at hsome
    cases hsome
  · exact ⟨nofun, fun h => absurd (.inl h.1.1) hset⟩

/-- A change that is accepted takes the credential of the provider away just if
    `api_key` is there and empty, and `api_key_ref` is not there. -/
theorem patch_loses_iff (h : db.patch user n id body = .ok db')
    (hsome : (db.credential id).isSome) : db'.credential id = none ↔ body.Empties := by
  obtain ⟨old, apiKeyRef, hold, hfold, hblank, rfl⟩ := patch_eq_ok h
  rw [credential_set, if_pos rfl, ← fold_eq_null hblank, hfold, Except.ok.injEq]
  cases apiKeyRef with
  | none =>
    rw [Db.credential, hold] at hsome
    exact ⟨fun hnone => absurd hsome (by simp [show old.apiKeyRef = none from hnone]), nofun⟩
  | some ref => exact ⟨congrArg some, Option.some.inj⟩

theorem patch_keeps (h : db.patch user n id body = .ok db') (hempties : ¬ body.Empties) {i : ℕ}
    (hsome : (db.credential i).isSome) : (db'.credential i).isSome := by
  rcases eq_or_ne i id with rfl | hne
  · rw [Option.isSome_iff_ne_none]
    exact fun hnone => hempties ((patch_loses_iff h hsome).1 hnone)
  · obtain ⟨old, apiKeyRef, -, -, -, rfl⟩ := patch_eq_ok h
    rwa [credential_set, if_neg hne]

/-! ## Runs -/

/-- The reference that is sent with a request. -/
def Label.sent : Label → String
  | .create _ _ _ _ body => stripStr (orElse body.apiKeyRef "")
  | .patch _ _ _ body => stripStr (orElse body.apiKeyRef.join "")

/-- The service, with the references that have been sent to it. -/
def sending (tenants : List String) : System (Db × List String) Label :=
  (system tenants).monitored [] fun sent _ l => l.sent :: sent

/-- The credential is a pointer, or can be read back, or has been sent as it is. -/
def Known (sent : List String) (ref : String) : Prop :=
  Pointer ref ∨ Sealed ref ∨ isEncrypted ref ∧ ref ∈ sent

theorem Known.mono {sent : List String} {ref r : String} (h : Known sent ref) :
    Known (r :: sent) ref :=
  h.imp_right fun h => h.imp_right fun ⟨hstart, hmem⟩ => ⟨hstart, List.mem_cons_of_mem _ hmem⟩

theorem known_of_resolve {apiKey apiKeyRef : Option String} {ref : String} {sent : List String}
    (h : resolveApiKeyInput n apiKey apiKeyRef = .ok (some ref)) :
    Known (stripStr (orElse apiKeyRef "") :: sent) ref :=
  (resolveApiKeyInput_eq_some h).imp_right fun h => h.imp_right fun ⟨hstart, heq⟩ =>
    ⟨hstart, heq ▸ List.mem_cons_self⟩

theorem known_step {sent : List String} {l : Label}
    (h : ∀ i ref, db.credential i = some ref → Known sent ref) (hst : db.step l = some db') :
    ∀ i ref, db'.credential i = some ref → Known (l.sent :: sent) ref := by
  intro i ref href
  cases l with
  | create user n id tenantId body =>
    rw [Db.step] at hst
    split_ifs at hst
    have hpost : db.post user n id tenantId body = .ok db' := by
      cases hp : db.post user n id tenantId body <;> simp_all [Except.toOption]
    obtain ⟨_, -, hpost⟩ := bind_eq_ok hpost
    split_ifs at hpost
    obtain ⟨apiKeyRef, hresolve, hpost⟩ := bind_eq_ok hpost
    obtain rfl := Except.ok.inj hpost
    rw [credential_set] at href
    split_ifs at href
    · obtain rfl : apiKeyRef = some ref := href
      exact known_of_resolve hresolve
    · exact (h i ref href).mono
  | patch user n id body =>
    have hpatch : db.patch user n id body = .ok db' := by
      rw [Db.step] at hst
      cases hp : db.patch user n id body <;> simp_all [Except.toOption]
    obtain ⟨old, apiKeyRef, hold, hfold, -, rfl⟩ := patch_eq_ok hpatch
    rw [credential_set] at href
    split_ifs at href
    · cases apiKeyRef with
      | none => exact (h id ref (by rw [Db.credential, hold]; exact href)).mono
      | some new =>
        obtain rfl : new = some ref := href
        rw [ProviderConfigUpdate.fold] at hfold
        split_ifs at hfold
        · have hresolve : resolveApiKeyInput n body.apiKey.join body.apiKeyRef.join =
              .ok (some ref) := by
            cases hr : resolveApiKeyInput n body.apiKey.join body.apiKeyRef.join <;>
              simp_all [Except.map]
          exact known_of_resolve hresolve
        · cases hfold
    · exact (h i ref href).mono

/-- Every stored credential is a pointer, or an encrypted key that can be read back and is
    not blank, or an encrypted one that was sent as it is. A change that is accepted leaves
    every provider that has a credential with one, unless `api_key` is there and empty and
    `api_key_ref` is not there. -/
theorem credentials {tenants : List String} {s : Db × List String}
    (hs : (sending tenants).Reachable s) :
    (∀ id ref, s.1.credential id = some ref → Known s.2 ref) ∧
      ∀ user n id body db', s.1.patch user n id body = .ok db' → ¬ body.Empties →
        ∀ i, (s.1.credential i).isSome → (db'.credential i).isSome := by
  refine ⟨?_, fun user n id body db' hpatch hempties i => patch_keeps hpatch hempties⟩
  refine hs.invariant (I := fun s => ∀ id ref, s.1.credential id = some ref → Known s.2 ref)
    nofun fun s l s' h hst => ?_
  obtain ⟨db', hstep, rfl⟩ := Option.map_eq_some_iff.1 hst
  exact known_step h hstep

end

/-! ## A reference that is sent as it is -/

/-- Tokens are told by how they begin, as those of `Fernet` are. -/
@[reducible] def marked : Fernet where
  encrypt _ plaintext := some ("gAAAAA" ++ plaintext)
  decrypt token :=
    if startsWith token "gAAAAA" then some (String.ofList (token.toList.drop 6)) else none
  decrypt_encrypt n plaintext token h := by
    obtain rfl := Option.some.inj h
    have hdrop : ("gAAAAA" ++ plaintext).toList.drop 6 = plaintext.toList := by
      rw [String.toList_append]
      exact List.drop_left' rfl
    rw [if_pos (startsWith_append _ _), hdrop, String.ofList_toList]

def operator : CurrentUser := ⟨1, .admin, some "acme"⟩

/-- A provider is created with a reference that is no token, -/
def verbatim : Label := .create operator 0 7 "acme" ⟨some "enc:abc", none⟩

/-- and its `api_key` is set to the empty string. -/
def emptied : ProviderConfigUpdate := ⟨none, some (some ""), false⟩

theorem not_stored_not_keeps :
    (¬ ∀ db, (@system marked ["acme"]).Reachable db → @Db.Stored marked db) ∧
      ¬ ∀ db, (@system marked ["acme"]).Reachable db → @Db.Keeps marked db := by
  have hrun : ((@system marked ["acme"]).exec (@system marked ["acme"]).init [verbatim]).map
      (fun db => (db.credential 7,
        (@Db.patch marked db operator 0 7 emptied).toOption.map fun db' => db'.credential 7)) =
      some (some "enc:abc", some none) := by
    decide
  obtain ⟨db, hdb, heq⟩ := Option.map_eq_some_iff.1 hrun
  obtain ⟨hcredential, hemptied⟩ := Prod.mk.inj heq
  have hreach : (@system marked ["acme"]).Reachable db := .exec .init hdb
  refine ⟨fun h => ?_, fun h => ?_⟩
  · have hdecrypt : (@decryptSecret marked "enc:abc").isOk = false := by decide
    rcases h db hreach 7 "enc:abc" hcredential with hpointer | ⟨key, hkey, -⟩
    · revert hpointer
      rw [Pointer]
      decide
    · rw [hkey] at hdecrypt
      cases hdecrypt
  · obtain ⟨db', hdb', hnone⟩ := Option.map_eq_some_iff.1 hemptied
    have hpatch : @Db.patch marked db operator 0 7 emptied = .ok db' := by
      cases hp : @Db.patch marked db operator 0 7 emptied <;> simp_all [Except.toOption]
    have hkept := h db hreach operator 0 7 emptied db' hpatch 7 (by rw [hcredential]; rfl)
    rw [hnone] at hkept
    cases hkept

/-- A provider is created with a key, which is then replaced by a pointer. -/
def rotated : List Label :=
  [.create operator 0 7 "acme" ⟨none, some " sk-live "⟩,
    .patch operator 1 7 ⟨some (some "env:LLM_KEY"), none, false⟩]

theorem credentials_rotated : ∃ s, (@sending marked ["acme"]).Reachable s ∧
    s.1.credential 7 = some "env:LLM_KEY" ∧ @Known marked s.2 "env:LLM_KEY" := by
  have hrun : ((@sending marked ["acme"]).exec (@sending marked ["acme"]).init rotated).map
      (fun s => s.1.credential 7) = some (some "env:LLM_KEY") := by
    decide
  obtain ⟨s, hs, hcredential⟩ := Option.map_eq_some_iff.1 hrun
  have hreach : (@sending marked ["acme"]).Reachable s := .exec .init hs
  exact ⟨s, hreach, hcredential, (@credentials marked _ _ hreach).1 7 _ hcredential⟩

end Yuviz.Config.ProviderConfigs
