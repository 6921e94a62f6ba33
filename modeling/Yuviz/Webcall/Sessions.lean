import Mathlib
import Yuviz.Python.Json
import Yuviz.System
import Yuviz.Tally

/-!
# The sessions of the browser

`services/webcall/__main__.py`: a browser opens a session by a frame with its token. The
token is decoded, Config is asked whether it may see the tenant, and then a slot of the
user and one of the tenant are taken, which are given back when the session ends, in
whichever way it does. The connections are handled concurrently, each up to the next
thing it waits for.
-/

namespace Yuviz.Webcall

open Python Tally

/-- The variables of the environment that are read. -/
structure Environ where
  jwtSecret : String := ""
  maxSessionsPerUser : Option String := none
  maxSessionsPerTenant : Option String := none

/-- The package that decodes a token, at a time, with a secret. -/
class Jwt where
  decode : ℕ → Json → String → Option (Dict String Json)

def maxSessions (default : ℤ) : Option String → ℤ
  | none => default
  | some value => ((intOfStr value).map (max 1)).getD default

def Environ.userCap (env : Environ) : ℤ := maxSessions 2 env.maxSessionsPerUser

def Environ.tenantCap (env : Environ) : ℤ := maxSessions 10 env.maxSessionsPerTenant

/-! ### The slots -/

/-- `_SessionSlots` -/
structure Slots where
  byUser : Dict String ℕ
  byTenant : Dict String ℕ

def tooMany (whom : String) (cap : ℤ) : String :=
  "too many concurrent test sessions for this " ++ whom ++ " (max " ++ toString cap ++
    ") — end one and try again"

def Slots.tryAcquire (env : Environ) (userId tenantSlug : String) (slots : Slots) :
    Except String Slots :=
  if env.userCap ≤ (slots.byUser.get? userId).getD 0 then .error (tooMany "user" env.userCap)
  else if env.tenantCap ≤ (slots.byTenant.get? tenantSlug).getD 0 then
    .error (tooMany "account" env.tenantCap)
  else .ok ⟨increment slots.byUser userId, increment slots.byTenant tenantSlug⟩

def Slots.release (userId tenantSlug : String) (slots : Slots) : Slots :=
  ⟨decrement slots.byUser userId, decrement slots.byTenant tenantSlug⟩

/-! ### Who may open a session -/

/-- How a session fails to open: with a message for the browser, or an error of the handler. -/
inductive Refusal
  | problem (message : String)
  | exception
  deriving DecidableEq

/-- The first frame, and what `json.loads` makes of a text. -/
inductive Frame
  | timeout
  | bytes
  | text (parsed : Option Json)

def Frame.token : Frame → Except Refusal Json
  | .timeout => .error (.problem "webcall timed out waiting for auth")
  | .bytes => .error (.problem "webcall expected an auth text frame")
  | .text none => .error (.problem "webcall auth frame was not JSON")
  | .text (some (.obj msg)) =>
    if (Json.get msg "type").eq (.str "auth") then .ok (Json.get msg "token")
    else .error (.problem "webcall requires an auth frame first")
  | .text (some _) => .error .exception

def consoleRoles : List String := ["superadmin", "admin", "viewer"]

/-- `role not in _CONSOLE_ROLES`; a list and an object have no hash. -/
def checkRole : Json → Except Refusal Unit
  | .arr _ | .obj _ => .error .exception
  | .str role =>
    if role ∈ consoleRoles then .ok ()
    else .error (.problem "webcall is not allowed for this account")
  | _ => .error (.problem "webcall is not allowed for this account")

section

variable [Runtime] [Jwt]

/-- The user whose claims they are. -/
def userOf (payload : Dict String Json) : Except Refusal String :=
  if (Json.get payload "is_service_account").truthy then
    .error (.problem "webcall requires an interactive admin session")
  else
    match checkRole (Json.get payload "role") with
    | .error refusal => .error refusal
    | .ok () =>
      let userId := stripStr ((Json.get payload "sub").strOr "")
      if userId = "" then .error (.problem "webcall token is missing a user id") else .ok userId

/-- `_session_auth_problem`, up to the question to Config. -/
def authenticate (env : Environ) (now : ℕ) (token : Json) : Except Refusal String :=
  let secret := stripStr env.jwtSecret
  if secret = "" then
    .error (.problem "webcall auth is unavailable (JWT_SECRET not set on webcall)")
  else if ¬ token.truthy then .error (.problem "webcall requires a signed-in session")
  else
    match Jwt.decode now token secret with
    | none => .error (.problem "webcall token is invalid or expired")
    | some payload => userOf payload

end

/-- `_config_tenant_check`, of the status Config has answered with, if it has. -/
def configTenantCheck : Option ℕ → Except Refusal Unit
  | some 200 => .ok ()
  | some 401 | some 403 | some 404 => .error (.problem "session is not allowed for this tenant")
  | _ => .error (.problem "could not verify tenant access — is Config Service reachable?")

/-! ### The connections -/

structure Session where
  tenantSlug : String
  token : Json
  userId : String

/-- Where the handler of a connection is. -/
inductive Connection
  | awaitingAuth (tenantSlug : String)
  | askingConfig (session : Session)
  /-- It sends `auth_ok`. -/
  | accepted (session : Session)
  | running (session : Session)
  | refused (message : String)
  | closed

def Connection.user? : Connection → Option String
  | .running session => some session.userId
  | _ => none

def Connection.tenant? : Connection → Option String
  | .running session => some session.tenantSlug
  | _ => none

def Connection.refuse : Refusal → Connection
  | .problem message => .refused message
  | .exception => .closed

structure State where
  connections : List Connection
  slots : Slots
  /-- The tokens and the tenants for which Config has answered 200. -/
  granted : List (Json × String)

inductive Label
  | connect (tenant agent : Option String)
  | frame (i now : ℕ) (frame : Frame)
  | config (i : ℕ) (status : Option ℕ)
  | sent (i : ℕ)
  /-- The handler ends: the session is over, the browser is gone, or the server shuts down. -/
  | leave (i : ℕ)

def connect : Option String → Option String → Connection
  | some tenant, some agent =>
    if tenant = "" ∨ agent = "" then .refused "missing tenant/agent query params"
    else .awaitingAuth tenant
  | _, _ => .refused "missing tenant/agent query params"

def State.put (s : State) (i : ℕ) (c : Connection) : State :=
  { s with connections := s.connections.set i c }

section

variable [Runtime] [Jwt]

def onFrame (env : Environ) (tenantSlug : String) (now : ℕ) (frame : Frame) : Connection :=
  match frame.token with
  | .error refusal => .refuse refusal
  | .ok token =>
    match authenticate env now token with
    | .error refusal => .refuse refusal
    | .ok userId => .askingConfig ⟨tenantSlug, token, userId⟩

def onConfig (session : Session) (status : Option ℕ) (i : ℕ) (s : State) : State :=
  match configTenantCheck status with
  | .error refusal => s.put i (.refuse refusal)
  | .ok () =>
    { s.put i (.accepted session) with
      granted := s.granted ++ [(session.token, session.tenantSlug)] }

def onSent (env : Environ) (session : Session) (i : ℕ) (s : State) : State :=
  match s.slots.tryAcquire env session.userId session.tenantSlug with
  | .error message => s.put i (.refused message)
  | .ok slots => { s.put i (.running session) with slots := slots }

def sessions (env : Environ) : System State Label where
  init := ⟨[], ⟨[], []⟩, []⟩
  step s
    | .connect tenant agent =>
      some { s with connections := s.connections ++ [connect tenant agent] }
    | .frame i now frame =>
      match s.connections[i]? with
      | some (.awaitingAuth tenantSlug) => some (s.put i (onFrame env tenantSlug now frame))
      | _ => none
    | .config i status =>
      match s.connections[i]? with
      | some (.askingConfig session) => some (onConfig session status i s)
      | _ => none
    | .sent i =>
      match s.connections[i]? with
      | some (.accepted session) => some (onSent env session i s)
      | _ => none
    | .leave i =>
      match s.connections[i]? with
      | some (.running session) =>
        some { s.put i .closed with slots := s.slots.release session.userId session.tenantSlug }
      | some (.awaitingAuth _) | some (.askingConfig _) | some (.accepted _) =>
        some (s.put i .closed)
      | _ => none

/-! ### What holds of the sessions -/

/-- The token is one of a user of the console, decoded with a secret that is set. -/
structure Authentic (env : Environ) (session : Session) : Prop where
  secret : stripStr env.jwtSecret ≠ ""
  decoded : ∃ now payload role,
    Jwt.decode now session.token (stripStr env.jwtSecret) = some payload ∧
      Json.get payload "role" = .str role ∧ role ∈ consoleRoles ∧
      ¬ (Json.get payload "is_service_account").truthy ∧
      stripStr ((Json.get payload "sub").strOr "") = session.userId
  userId : session.userId ≠ ""

/-- The session a connection is to have, once the token is one. -/
def Connection.session? : Connection → Option Session
  | .askingConfig session | .accepted session | .running session => some session
  | _ => none

/-- The session, once Config has been asked as well. -/
def Connection.allowed? : Connection → Option Session
  | .accepted session | .running session => some session
  | _ => none

/-- The slots that are taken are those of the sessions that run, within the caps, and these are for
    users of the console that Config lets see the tenant. -/
structure Metered (env : Environ) (s : State) : Prop where
  byUser : Counts s.slots.byUser (tally Connection.user? s.connections)
  byTenant : Counts s.slots.byTenant (tally Connection.tenant? s.connections)
  user_le : ∀ userId, tally Connection.user? s.connections userId ≤ env.userCap
  tenant_le : ∀ tenant, tally Connection.tenant? s.connections tenant ≤ env.tenantCap
  authentic : ∀ c ∈ s.connections, ∀ session ∈ c.session?, Authentic env session
  granted : ∀ c ∈ s.connections, ∀ session ∈ c.allowed?,
    (session.token, session.tenantSlug) ∈ s.granted

variable {env : Environ} {s s' : State} {l : Label} {i now : ℕ} {c c' : Connection}
  {session : Session} {token : Json} {userId : String} {frame : Frame} {tenantSlug : String}

omit [Runtime] [Jwt] in
/-- At least one session is allowed. -/
theorem one_le_maxSessions {default : ℤ} {value : Option String} (h : 1 ≤ default) :
    1 ≤ maxSessions default value := by
  rcases value with _ | value
  · exact h
  · rw [maxSessions]
    rcases intOfStr value with _ | n
    · exact h
    · exact le_max_left _ _

omit [Runtime] [Jwt] in
/-- Only a role of the console is let in. -/
theorem eq_str_of_checkRole {role : Json} (h : checkRole role = .ok ()) :
    ∃ name ∈ consoleRoles, role = .str name := by
  rw [checkRole.eq_def] at h
  split at h
  · cases h
  · cases h
  · rename_i name
    split_ifs at h with hname
    exact ⟨name, hname, rfl⟩
  · cases h

omit [Jwt] in
theorem exists_of_userOf {payload : Dict String Json} (h : userOf payload = .ok userId) :
    (∃ role ∈ consoleRoles, Json.get payload "role" = .str role) ∧
      ¬ (Json.get payload "is_service_account").truthy ∧
      stripStr ((Json.get payload "sub").strOr "") = userId ∧ userId ≠ "" := by
  rw [userOf] at h
  split_ifs at h with hservice
  split at h
  · cases h
  · rename_i hrole
    dsimp only at h
    split_ifs at h with hempty
    obtain rfl := Except.ok.inj h
    exact ⟨eq_str_of_checkRole hrole, hservice, rfl, hempty⟩

theorem authentic_of_authenticate (h : authenticate env now token = .ok userId) :
    Authentic env ⟨tenantSlug, token, userId⟩ := by
  rw [authenticate] at h
  split_ifs at h with hsecret htoken
  split at h
  · cases h
  · rename_i payload hdecode
    obtain ⟨⟨role, hmem, hrole⟩, hservice, huser, hne⟩ := exists_of_userOf h
    exact ⟨hsecret, ⟨now, payload, role, hdecode, hrole, hmem, hservice, huser⟩, hne⟩

theorem authentic_onFrame (h : session ∈ (onFrame env tenantSlug now frame).session?) :
    Authentic env session := by
  rw [onFrame] at h
  split at h
  · rename_i refusal hframe
    cases refusal <;> cases h
  · rename_i token hframe
    split at h
    · rename_i refusal hauth
      cases refusal <;> cases h
    · rename_i userId hauth
      obtain rfl := Option.some.inj h
      exact authentic_of_authenticate hauth

/-- A connection that does not run goes on without running. -/
theorem Metered.put (hs : Metered env s) (hc : s.connections[i]? = some c)
    (hidle : c.user? = none ∧ c.tenant? = none) (hidle' : c'.user? = none ∧ c'.tenant? = none)
    (hauthentic : ∀ session ∈ c'.session?, Authentic env session)
    (hgranted : ∀ session ∈ c'.allowed?, (session.token, session.tenantSlug) ∈ s.granted) :
    Metered env (s.put i c') := by
  have huser := tally_set_of_eq hc (hidle'.1.trans hidle.1.symm)
  have htenant := tally_set_of_eq hc (hidle'.2.trans hidle.2.symm)
  refine ⟨?_, ?_, fun userId => ?_, fun tenant => ?_, fun d hd => ?_, fun d hd => ?_⟩
  · exact huser ▸ hs.byUser
  · exact htenant ▸ hs.byTenant
  · exact huser ▸ hs.user_le userId
  · exact htenant ▸ hs.tenant_le tenant
  · rcases List.mem_or_eq_of_mem_set hd with hd | rfl
    · exact hs.authentic d hd
    · exact hauthentic
  · rcases List.mem_or_eq_of_mem_set hd with hd | rfl
    · exact hs.granted d hd
    · exact hgranted

/-- A connection that is new counts for no one. -/
theorem Metered.connect {tenant agent : Option String} (hs : Metered env s) :
    Metered env { s with connections := s.connections ++ [connect tenant agent] } := by
  have hnew : (Webcall.connect tenant agent).session? = none ∧
      (Webcall.connect tenant agent).allowed? = none ∧
      (Webcall.connect tenant agent).user? = none ∧
      (Webcall.connect tenant agent).tenant? = none := by
    rw [Webcall.connect.eq_def]
    split
    · split_ifs
      · exact ⟨rfl, rfl, rfl, rfl⟩
      · exact ⟨rfl, rfl, rfl, rfl⟩
    · exact ⟨rfl, rfl, rfl, rfl⟩
  obtain ⟨hsession, hallowed, huser, htenant⟩ := hnew
  refine ⟨?_, ?_, fun userId => ?_, fun slug => ?_, fun d hd => ?_, fun d hd => ?_⟩
  · rw [tally_concat huser]
    exact hs.byUser
  · rw [tally_concat htenant]
    exact hs.byTenant
  · rw [tally_concat huser]
    exact hs.user_le userId
  · rw [tally_concat htenant]
    exact hs.tenant_le slug
  · rcases List.mem_append.1 hd with hd | hd
    · exact hs.authentic d hd
    · rw [List.mem_singleton.1 hd, hsession]
      rintro _ ⟨⟩
  · rcases List.mem_append.1 hd with hd | hd
    · exact hs.granted d hd
    · rw [List.mem_singleton.1 hd, hallowed]
      rintro _ ⟨⟩

omit [Jwt] [Runtime] in
theorem refuse_idle (refusal : Refusal) : (Connection.refuse refusal).session? = none ∧
    (Connection.refuse refusal).allowed? = none ∧ (Connection.refuse refusal).user? = none ∧
    (Connection.refuse refusal).tenant? = none := by
  cases refusal <;> exact ⟨rfl, rfl, rfl, rfl⟩

theorem Metered.refuse {refusal : Refusal} (hs : Metered env s) (hc : s.connections[i]? = some c)
    (hidle : c.user? = none ∧ c.tenant? = none) : Metered env (s.put i (.refuse refusal)) := by
  obtain ⟨hsession, hallowed, huser, htenant⟩ := refuse_idle refusal
  refine hs.put hc hidle ⟨huser, htenant⟩ ?_ ?_
  · rw [hsession]
    rintro _ ⟨⟩
  · rw [hallowed]
    rintro _ ⟨⟩

/-- A session is counted once it is accepted, -/
theorem Metered.onConfig {status : Option ℕ} (hs : Metered env s)
    (hc : s.connections[i]? = some (.askingConfig session)) :
    Metered env (onConfig session status i s) := by
  rw [Webcall.onConfig]
  split
  · exact hs.refuse hc ⟨rfl, rfl⟩
  · set s' : State :=
      { s with granted := s.granted ++ [(session.token, session.tenantSlug)] }
    have hgrow : Metered env s' :=
      ⟨hs.byUser, hs.byTenant, hs.user_le, hs.tenant_le, hs.authentic,
        fun d hd session' hsession' => List.mem_append_left _ (hs.granted d hd session' hsession')⟩
    change Metered env (s'.put i (.accepted session))
    refine hgrow.put hc ⟨rfl, rfl⟩ ⟨rfl, rfl⟩ ?_ ?_
    · rintro _ ⟨⟩
      exact hs.authentic _ (List.mem_of_getElem? hc) session rfl
    · rintro _ ⟨⟩
      exact List.mem_append_right _ (List.mem_singleton_self _)

omit [Runtime] [Jwt] in
/-- A slot of the user and one of the tenant are taken, if there are such. -/
theorem tryAcquire_eq_ok_iff {slots slots' : Slots} {userId tenantSlug : String} :
    slots.tryAcquire env userId tenantSlug = .ok slots' ↔
      ((slots.byUser.get? userId).getD 0 < env.userCap ∧
        (slots.byTenant.get? tenantSlug).getD 0 < env.tenantCap) ∧
      slots' = ⟨increment slots.byUser userId, increment slots.byTenant tenantSlug⟩ := by
  rw [Slots.tryAcquire]
  split_ifs with huser htenant
  · simp [huser.not_gt]
  · simp [htenant.not_gt]
  · rw [Except.ok.injEq, and_iff_right ⟨not_le.1 huser, not_le.1 htenant⟩, eq_comm]

/-- and as long as it lasts. -/
theorem Metered.onSent (hs : Metered env s) (hc : s.connections[i]? = some (.accepted session)) :
    Metered env (onSent env session i s) := by
  rw [Webcall.onSent]
  split
  · refine hs.put hc ⟨rfl, rfl⟩ ⟨rfl, rfl⟩ ?_ ?_
    · rintro _ ⟨⟩
    · rintro _ ⟨⟩
  · rename_i slots hacquire
    obtain ⟨⟨huser, htenant⟩, rfl⟩ := tryAcquire_eq_ok_iff.1 hacquire
    rw [hs.byUser.getD_eq] at huser
    rw [hs.byTenant.getD_eq] at htenant
    have hcount := tally_set_of_some (f := Connection.user?) (b := .running session) hc rfl rfl
    have hcount' := tally_set_of_some (f := Connection.tenant?) (b := .running session) hc rfl rfl
    have hmem := List.mem_of_getElem? hc
    refine ⟨?_, ?_, fun userId => ?_, fun tenant => ?_, fun d hd => ?_, fun d hd => ?_⟩
    · exact hcount ▸ hs.byUser.increment
    · exact hcount' ▸ hs.byTenant.increment
    · change (tally _ (s.connections.set i (.running session)) userId : ℤ) ≤ _
      rw [hcount]
      rcases eq_or_ne userId session.userId with rfl | hne
      · rw [Function.update_self]
        omega
      · rw [Function.update_of_ne hne]
        exact hs.user_le userId
    · change (tally _ (s.connections.set i (.running session)) tenant : ℤ) ≤ _
      rw [hcount']
      rcases eq_or_ne tenant session.tenantSlug with rfl | hne
      · rw [Function.update_self]
        omega
      · rw [Function.update_of_ne hne]
        exact hs.tenant_le tenant
    · rcases List.mem_or_eq_of_mem_set hd with hd | rfl
      · exact hs.authentic d hd
      · rintro _ ⟨⟩
        exact hs.authentic _ hmem session rfl
    · rcases List.mem_or_eq_of_mem_set hd with hd | rfl
      · exact hs.granted d hd
      · rintro _ ⟨⟩
        exact hs.granted _ hmem session rfl

/-- The slots of a session are given back when it ends. -/
theorem Metered.release (hs : Metered env s) (hc : s.connections[i]? = some (.running session)) :
    Metered env
      { s.put i .closed with slots := s.slots.release session.userId session.tenantSlug } := by
  have hcount := tally_set_of_none (f := Connection.user?) (b := .closed) hc rfl rfl
  have hcount' := tally_set_of_none (f := Connection.tenant?) (b := .closed) hc rfl rfl
  refine ⟨?_, ?_, fun userId => ?_, fun tenant => ?_, fun d hd => ?_, fun d hd => ?_⟩
  · exact hcount ▸ hs.byUser.decrement
  · exact hcount' ▸ hs.byTenant.decrement
  · change (tally _ (s.connections.set i .closed) userId : ℤ) ≤ _
    have hle := hs.user_le userId
    rw [hcount]
    rcases eq_or_ne userId session.userId with rfl | hne
    · rw [Function.update_self]
      omega
    · rwa [Function.update_of_ne hne]
  · change (tally _ (s.connections.set i .closed) tenant : ℤ) ≤ _
    have hle := hs.tenant_le tenant
    rw [hcount']
    rcases eq_or_ne tenant session.tenantSlug with rfl | hne
    · rw [Function.update_self]
      omega
    · rwa [Function.update_of_ne hne]
  · rcases List.mem_or_eq_of_mem_set hd with hd | rfl
    · exact hs.authentic d hd
    · rintro _ ⟨⟩
  · rcases List.mem_or_eq_of_mem_set hd with hd | rfl
    · exact hs.granted d hd
    · rintro _ ⟨⟩

theorem Metered.step (hs : Metered env s) (h : (sessions env).step s l = some s') :
    Metered env s' := by
  cases l with
  | connect tenant agent => exact Option.some.inj h ▸ hs.connect
  | frame i now frame =>
    simp only [sessions] at h
    split at h
    · rename_i tenantSlug hc
      obtain rfl := Option.some.inj h
      have hauthentic (session : Session)
          (hsession : session ∈ (onFrame env tenantSlug now frame).session?) :
          Authentic env session := authentic_onFrame hsession
      revert hauthentic
      rw [onFrame]
      split
      · exact fun _ => hs.refuse hc ⟨rfl, rfl⟩
      · split
        · exact fun _ => hs.refuse hc ⟨rfl, rfl⟩
        · intro hauthentic
          refine hs.put hc ⟨rfl, rfl⟩ ⟨rfl, rfl⟩ hauthentic ?_
          rintro _ ⟨⟩
    · cases h
  | config i status =>
    simp only [sessions] at h
    split at h
    · rename_i hc
      exact Option.some.inj h ▸ hs.onConfig hc
    · cases h
  | sent i =>
    simp only [sessions] at h
    split at h
    · rename_i hc
      exact Option.some.inj h ▸ hs.onSent hc
    · cases h
  | leave i =>
    have hclosed {c : Connection} (hc : s.connections[i]? = some c)
        (hidle : c.user? = none ∧ c.tenant? = none) : Metered env (s.put i .closed) := by
      refine hs.put hc hidle ⟨rfl, rfl⟩ ?_ ?_
      · rintro _ ⟨⟩
      · rintro _ ⟨⟩
    simp only [sessions] at h
    split at h
    · rename_i hc
      exact Option.some.inj h ▸ hs.release hc
    · rename_i hc
      exact Option.some.inj h ▸ hclosed hc ⟨rfl, rfl⟩
    · rename_i hc
      exact Option.some.inj h ▸ hclosed hc ⟨rfl, rfl⟩
    · rename_i hc
      exact Option.some.inj h ▸ hclosed hc ⟨rfl, rfl⟩
    · cases h

/-- The sessions are metered after every run, and one that is let in gets its slots just when fewer
    sessions than the caps allow are running, for the user and for the tenant. -/
theorem sessions_metered (hs : (sessions env).Reachable s) : Metered env s ∧
    ∀ i session, s.connections[i]? = some (.accepted session) →
      ((onSent env session i s).connections[i]? = some (.running session) ↔
        tally Connection.user? s.connections session.userId < env.userCap ∧
          tally Connection.tenant? s.connections session.tenantSlug < env.tenantCap) := by
  have hmetered : Metered env s := by
    refine hs.invariant ⟨?_, ?_, ?_, ?_, ?_, ?_⟩ fun _ _ _ => Metered.step
    · exact counts_nil
    · exact counts_nil
    · exact fun _ => (zero_le_one' ℤ).trans (one_le_maxSessions (by decide))
    · exact fun _ => (zero_le_one' ℤ).trans (one_le_maxSessions (by decide))
    · rintro _ ⟨⟩
    · rintro _ ⟨⟩
  refine ⟨hmetered, fun i session hc => ?_⟩
  have hi := (List.getElem?_eq_some_iff.1 hc).1
  rw [← hmetered.byUser.getD_eq, ← hmetered.byTenant.getD_eq, onSent]
  rcases hacquire : s.slots.tryAcquire env session.userId session.tenantSlug with message | slots
  · have hno : ∀ slots, ¬ s.slots.tryAcquire env session.userId session.tenantSlug = .ok slots := by
      simp [hacquire]
    refine iff_of_false ?_ fun h => hno _ (tryAcquire_eq_ok_iff.2 ⟨h, rfl⟩)
    simp [State.put, hi]
  · refine iff_of_true ?_ (tryAcquire_eq_ok_iff.1 hacquire).1
    simp [State.put, hi]

end

private def adminToken : String :=
  "eyJhbGciOiJIUzI1NiIsInR5cCI6IkpXVCJ9" ++
    ".eyJzdWIiOiJ1MSIsInJvbGUiOiJhZG1pbiIsImV4cCI6MTgwMDAwMDAwMH0" ++
    ".k0CKtnP7E9xSvwosVjUCkbqiS1pxu8DYd8pjnHfUdJA"

private def oneSession : Environ where
  jwtSecret := "webcall-test-secret-of-at-least-32-bytes"
  maxSessionsPerUser := "1"

/-- The token is decoded until it expires. -/
@[reducible] def Jwt.admin : Jwt where
  decode now token secret :=
    if token.eq (.str adminToken) ∧ secret = oneSession.jwtSecret ∧ now < 1800000000 then
      some [("sub", .str "u1"), ("role", .str "admin"), ("exp", .int 1800000000)]
    else none

/-- A user opens two sessions, of which the first one runs. -/
private def twoSessions : List Label :=
  let auth : Frame := .text (some (.obj [("type", .str "auth"), ("token", .str adminToken)]))
  [.connect (some "acme") (some "desk"), .connect (some "acme") (some "desk"),
    .frame 0 1799999000 auth, .frame 1 1799999001 auth, .config 1 (some 200),
    .config 0 (some 200), .sent 0]

private def firstRuns : Option State :=
  (@sessions .ascii .admin oneSession).exec ⟨[], ⟨[], []⟩, []⟩ twoSessions

private theorem firstRuns_isSome : firstRuns.isSome := by decide +kernel

theorem sessions_metered_twoSessions : ∃ s, firstRuns = some s ∧
    tally Connection.user? s.connections "u1" = 1 ∧ @Metered .ascii .admin oneSession s := by
  have hs : (@sessions .ascii .admin oneSession).Reachable (firstRuns.get firstRuns_isSome) :=
    System.Reachable.exec .init (Option.some_get firstRuns_isSome).symm
  exact ⟨_, (Option.some_get firstRuns_isSome).symm, by decide +kernel,
    (@sessions_metered .ascii .admin oneSession _ hs).1⟩

end Yuviz.Webcall
