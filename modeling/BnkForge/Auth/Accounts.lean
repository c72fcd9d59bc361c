import BnkForge.Lib.PythonText
import Mathlib.Order.Lattice

/-!
# Accounts and their roles

The users table, the roles and the password of an account, as the routes of `backend/routes/auth.py`,
`services/auth_service.py` and `services/api_token_service.py` use them. Passwords are hashed by
`passlib`, which is a parameter.
-/

namespace BnkForge.Auth

open Python

abbrev Text := List Char

/-- The roles. `create_user` and `update_user` let no other text into the table. -/
inductive Role
  | viewer | operator | admin
  deriving DecidableEq, Repr

namespace Role

/-- `_ROLE_ORDER`. -/
def order : Role → Nat
  | viewer => 1
  | operator => 2
  | admin => 3

instance : LinearOrder Role := LinearOrder.lift' order (by intro a b h; cases a <;> cases b <;> first | rfl | cases h)

def text : Role → Text
  | viewer => "viewer".toList
  | operator => "operator".toList
  | admin => "admin".toList

def ofText? (text : Text) : Option Role :=
  if text = "viewer".toList then some viewer
  else if text = "operator".toList then some operator
  else if text = "admin".toList then some admin
  else none

end Role

/-- `_role_at_most`. -/
def roleAtMost (requested maxRole : Role) : Bool := requested.order ≤ maxRole.order

theorem roleAtMost_iff {a b : Role} : roleAtMost a b = true ↔ a ≤ b := decide_eq_true_iff

/-- A row of `users`. -/
structure User where
  id : Nat
  username : Text
  email : Text
  hashedPassword : Text
  role : Role
  isActive : Bool := true
  mustChangePassword : Bool := false
  isServiceAccount : Bool := false
  deriving DecidableEq, Repr

/-- What a request is refused with, and `database` where a constraint of a table stops it. -/
inductive ApiError
  | unauthorized (message : String)
  | forbidden (message : String)
  | badRequest (message code : String)
  | notFound (resource : String) (identifier : Nat)
  | conflict (resource message : String)
  | database
  deriving DecidableEq, Repr

/-- The package functions: `hashlib.sha256` of a token, and `passlib` on a password and its hash. -/
structure Hashing where
  hashToken : Text → Text
  verifyPassword : Text → Text → Bool

/-- `ADMIN_KNOWN_DEFAULT_PASSWORDS`. -/
def adminKnownDefaultPasswords : List Text := ["changeme".toList]

/-- `MCP_KNOWN_DEFAULT_PASSWORDS`. -/
def mcpKnownDefaultPasswords : List Text := ["mcp-service-changeme".toList, "changeme".toList]

/-- `holds_known_default_password`. -/
def holdsKnownDefaultPassword (hashing : Hashing) (user : User) : Bool :=
  mcpKnownDefaultPasswords.any fun candidate ↦ hashing.verifyPassword candidate user.hashedPassword

/-- `PASSWORD_CHANGE_EXEMPT_PATHS`. -/
def passwordChangeExemptPaths : List Text :=
  ["/api/auth/change-password".toList, "/api/auth/me".toList]

/-- `path.rstrip("/")`. -/
def stripSlashes (path : Text) : Text := path.rdropWhile (· == '/')

/-- `enforce_password_change` lets the user through. -/
def passwordChangeAllows (path : Text) (user : User) : Bool :=
  !user.mustChangePassword || passwordChangeExemptPaths.contains (stripSlashes path)

end BnkForge.Auth
