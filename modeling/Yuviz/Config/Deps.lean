import Yuviz.Config.Invites

/-!
# What the routes share

`services/config/deps.py`: who may make a request, and how a request fails. A handler
returns, or fails with what it is answered with.
-/

namespace Yuviz.Config

/-- What a request is answered with if it fails, or the exception that it is answered for. -/
inductive Failure
  | http (status : ℕ) (detail : String)
  | valueError (detail : String)
  | lookupError (detail : String)
  | secretEncryptionUnavailable
  deriving DecidableEq

theorem bind_eq_ok {ε α β : Type} {x : Except ε α} {f : α → Except ε β} {b : β}
    (h : (x >>= f) = .ok b) : ∃ a, x = .ok a ∧ f a = .ok b := by
  cases x with
  | error e => cases h
  | ok a => exact ⟨a, rfl, h⟩

def consoleRoles : List Role := [.superadmin, .admin, .viewer]

/-- `get_current_user`: the roles that have no console are fenced off. -/
def getCurrentUser (user : CurrentUser) : Except Failure Unit :=
  if user.role ∈ consoleRoles then .ok ()
  else .error (.http 403 "this role cannot access this service")

def requireRole (allowed : List Role) (user : CurrentUser) : Except Failure Unit := do
  getCurrentUser user
  if user.role ∈ allowed then .ok ()
  else .error (.http 403 "this role cannot perform this action")

end Yuviz.Config
