import BnkForge.Auth.Accounts
import BnkForge.Lib.Transition
import Mathlib.Data.Rat.Defs
import Mathlib.Algebra.Order.Ring.Rat
import Mathlib.Logic.Relation

/-!
# API tokens

`ApiTokenService` (`backend/services/api_token_service.py:77–233`) and the routes that log in,
authenticate a request, create a token and revoke one (`backend/routes/auth.py:86–147`,
`:443–491`). Requests are authenticated by the token of a login or by an API token; accounts are
created, change their role, are deactivated and deleted in between.
-/

namespace BnkForge.Auth

open Python Transition List

/-! ### The tables -/

/-- A row of `api_tokens`. -/
structure ApiToken where
  id : Nat
  userId : Nat
  name : Text
  tokenHash : Text
  tokenPrefix : Text
  role : Role
  expiresAt : Option ℚ
  deriving DecidableEq

/-- The token of a login, as it is signed: the user name and when it expires. -/
structure Session where
  token : Text
  sub : Text
  expires : ℚ
  deriving DecidableEq

/-- What is recorded of a token that has been issued: the role in force for the request that created
it, and the token that this request came with. The program does not keep it. -/
structure Grant where
  tokenId : Nat
  plaintext : Text
  userId : Nat
  role : Role
  ceiling : Role
  parent : Option Nat
  expiresAt : Option ℚ
  revoked : Bool := false
  deriving DecidableEq

structure Accounts where
  users : List User
  tokens : List ApiToken
  sessions : List Session
  grants : List Grant
  nextUserId : Nat
  nextTokenId : Nat
  deriving DecidableEq

def Accounts.init (users : List User) (nextUserId : Nat) : Accounts :=
  ⟨users, [], [], [], nextUserId, 0⟩

/-! ### Authentication -/

/-- `TOKEN_PREFIX`. -/
def tokenStart : Text := "bnk_".toList

/-- `_prefix_of`: the first `PREFIX_LOOKUP_LEN` characters. -/
def lookupPart (plaintext : Text) : Text := plaintext.take 12

/-- `clamp_role`. -/
def clampRole (tokenRole userRole : Role) : Role :=
  if roleAtMost tokenRole userRole then tokenRole else userRole

/-- `ApiTokenService.verify`. -/
def verifyApiToken (hashing : Hashing) (s : Accounts) (plaintext : Text) (now : ℚ) :
    Except ApiError (User × ApiToken) :=
  if !tokenStart.isPrefixOf plaintext then .error (.unauthorized "Invalid API token format")
  else
    match (s.tokens.filter fun t ↦ t.tokenPrefix == lookupPart plaintext).find?
        fun t ↦ t.tokenHash == hashing.hashToken plaintext with
    | none => .error (.unauthorized "Invalid API token")
    | some t =>
      if t.expiresAt.any (· < now) then .error (.unauthorized "API token has expired")
      else
        match s.users.find? fun u ↦ u.id == t.userId with
        | none => .error (.unauthorized "Token user is inactive")
        | some user =>
          if user.isActive then .ok (user, t) else .error (.unauthorized "Token user is inactive")

/-- `get_user_from_token`: a token of a login that has not expired, of an active account. -/
def getUserFromToken (s : Accounts) (token : Text) (now : ℚ) : Except ApiError User :=
  match s.sessions.find? fun session ↦ session.token == token && decide (now ≤ session.expires) with
  | none => .error (.unauthorized "Invalid token")
  | some session =>
    match s.users.find? fun u ↦ u.username == session.sub with
    | none => .error (.unauthorized "User not found")
    | some user => if user.isActive then .ok user else .error (.unauthorized "Account is disabled")

structure Principal where
  user : User
  requestRole : Option Role
  token : Option ApiToken
  deriving DecidableEq

/-- `effective_role`. -/
def effectiveRole (p : Principal) : Role := p.requestRole.getD p.user.role

/-- `_enforce_password_change`. -/
def enforcePasswordChange (path : Text) (p : Principal) : Except ApiError Principal :=
  if passwordChangeAllows path p.user then .ok p
  else .error (.forbidden ("Password change required before using the API. " ++
    "POST /api/auth/change-password with your current and new password."))

/-- `"Bearer "`. -/
def bearer : Text := "Bearer ".toList

/-- `get_current_user`. -/
def getCurrentUser (hashing : Hashing) (s : Accounts) (header : Option Text) (path : Text) (now : ℚ) :
    Except ApiError Principal :=
  match header with
  | none => .error (.unauthorized "Missing or invalid Authorization header")
  | some header =>
    if !bearer.isPrefixOf header then
      .error (.unauthorized "Missing or invalid Authorization header")
    else
      let token := header.drop bearer.length
      if tokenStart.isPrefixOf token then
        match verifyApiToken hashing s token now with
        | .error e => .error e
        | .ok (user, t) => enforcePasswordChange path ⟨user, some (clampRole t.role user.role), some t⟩
      else
        match getUserFromToken s token now with
        | .error e => .error e
        | .ok user => enforcePasswordChange path ⟨user, none, none⟩

/-! ### The requests -/

def tokensPath : Text := "/api/auth/tokens".toList

def tokenPath (tokenId : Nat) : Text := tokensPath ++ '/' :: (toString tokenId).toList

structure ApiTokenCreateRequest where
  name : Text
  role : Option Text := none
  expiresInDays : Option Int := none
  deriving DecidableEq, Repr

/-- `role or ceiling`, without the white space around it. -/
def requestedRole (role : Option Text) (ceiling : Role) : Text :=
  match role with
  | none => ceiling.text
  | some text => if text = [] then ceiling.text else strip text

def expiryOf (expiresInDays : Option Int) (now : ℚ) : Except ApiError (Option ℚ) :=
  match expiresInDays with
  | none => .ok none
  | some days =>
    if days ≤ 0 ∨ 3650 < days then
      .error (.badRequest "expires_in_days must be between 1 and 3650" "INVALID_EXPIRY")
    else .ok (some (now + 86400 * days))

/-- `ApiTokenService.create` for the principal of a request, with the characters that are drawn. -/
def createToken (hashing : Hashing) (s : Accounts) (p : Principal) (body : ApiTokenCreateRequest)
    (drawn : Text) (now : ℚ) : Except ApiError Accounts :=
  let ceiling := effectiveRole p
  let wanted := requestedRole body.role ceiling
  if strip body.name = [] then
    .error (.badRequest "Token name is required" "TOKEN_NAME_REQUIRED")
  else
    match Role.ofText? wanted with
    | none =>
      .error (.badRequest ("Invalid role '" ++ String.ofList wanted ++ "'") "INVALID_TOKEN_ROLE")
    | some role =>
      if !roleAtMost role ceiling then
        .error (.badRequest ("Cannot issue token with role '" ++ String.ofList wanted ++
          "' (you are '" ++ String.ofList ceiling.text ++ "')") "TOKEN_ROLE_ESCALATION")
      else
        match expiryOf body.expiresInDays now with
        | .error e => .error e
        | .ok expiresAt =>
          let plaintext := tokenStart ++ drawn
          -- The column of the hashes is unique.
          if s.tokens.any (·.tokenHash == hashing.hashToken plaintext) then .error .database
          else .ok { s with
            tokens := s.tokens ++ [⟨s.nextTokenId, p.user.id, strip body.name,
              hashing.hashToken plaintext, lookupPart plaintext, role, expiresAt⟩]
            grants := s.grants ++ [⟨s.nextTokenId, plaintext, p.user.id, role, ceiling,
              p.token.map (·.id), expiresAt, false⟩]
            nextTokenId := s.nextTokenId + 1 }

def Accounts.dropTokens (s : Accounts) (gone : ApiToken → Bool) : Accounts :=
  { s with
    tokens := s.tokens.filter fun t ↦ !gone t
    grants := s.grants.map fun g ↦
      if s.tokens.any fun t ↦ gone t && t.id == g.tokenId then { g with revoked := true } else g }

/-- `ApiTokenService.revoke`. -/
def revokeToken (s : Accounts) (p : Principal) (tokenId : Nat) : Except ApiError Accounts :=
  match s.tokens.find? fun t ↦ t.id == tokenId && t.userId == p.user.id with
  | none => .error (.notFound "api_token" tokenId)
  | some token => .ok (s.dropTokens (·.id == token.id))

/-- `authenticate_user`: by user name, else by e-mail. -/
def authenticateUser (hashing : Hashing) (s : Accounts) (username password : Text) :
    Except ApiError User :=
  match (s.users.find? fun u ↦ u.username == username).or
      (s.users.find? fun u ↦ u.email == username) with
  | none => .error (.unauthorized "Invalid username or password")
  | some user =>
    if !hashing.verifyPassword password user.hashedPassword then
      .error (.unauthorized "Invalid username or password")
    else if user.isActive then .ok user
    else .error (.unauthorized "Account is disabled")

inductive TokenEvent
  | login (username password : Text) (jwt : Text) (now : ℚ)
  | create (header : Option Text) (body : ApiTokenCreateRequest) (drawn : Text) (now : ℚ)
  | revoke (header : Option Text) (tokenId : Nat) (now : ℚ)
  | createUser (user : User)
  | setRole (id : Nat) (role : Role)
  | setActive (id : Nat) (active : Bool)
  | deleteUser (id : Nat)

def Accounts.updateUser (s : Accounts) (id : Nat) (f : User → User) : Accounts :=
  { s with users := s.users.map fun u ↦ if u.id = id then f u else u }

/-- `db.delete` of a user. Its tokens are deleted with it. -/
def Accounts.deleteUser (s : Accounts) (id : Nat) : Accounts :=
  { s.dropTokens (·.userId == id) with users := s.users.filter fun u ↦ u.id != id }

/-- A request that is refused changes nothing. -/
def orUnchanged (s : Accounts) : Except ApiError Accounts → Accounts
  | .ok t => t
  | .error _ => s

def tokenStep (hashing : Hashing) (s : Accounts) : TokenEvent → Option Accounts
  | .login username password jwt now =>
    some (orUnchanged s ((authenticateUser hashing s username password).map fun user ↦
      { s with sessions := s.sessions ++ [⟨jwt, user.username, now + 86400⟩] }))
  | .create header body drawn now =>
    some (orUnchanged s ((getCurrentUser hashing s header tokensPath now).bind fun p ↦
      createToken hashing s p body drawn now))
  | .revoke header tokenId now =>
    some (orUnchanged s ((getCurrentUser hashing s header (tokenPath tokenId) now).bind fun p ↦
      revokeToken s p tokenId))
  | .createUser user =>
    some (if s.users.any fun u ↦ u.username == user.username || u.email == user.email then s
      else { s with
        users := s.users ++ [{ user with id := s.nextUserId }]
        nextUserId := s.nextUserId + 1 })
  | .setRole id role => some (s.updateUser id fun u ↦ { u with role := role })
  | .setActive id active => some (s.updateUser id fun u ↦ { u with isActive := active })
  | .deleteUser id => some (s.deleteUser id)

/-! ### What the records say of the tokens -/

def NoCollision (hashing : Hashing) (s : Accounts) : TokenEvent → Prop
  | .create _ _ drawn _ =>
    ∀ g ∈ s.grants, hashing.hashToken g.plaintext ≠ hashing.hashToken (tokenStart ++ drawn)
  | _ => True

instance (hashing : Hashing) (s : Accounts) : DecidablePred (NoCollision hashing s)
  | .create _ _ _ _ => inferInstanceAs (Decidable (∀ g ∈ s.grants, _ ≠ _))
  | .login _ _ _ _ | .revoke _ _ _ | .createUser _ | .setRole _ _ | .setActive _ _
  | .deleteUser _ => isTrue trivial

/-- The record of the token that a row is of. -/
structure Grant.Of (hashing : Hashing) (g : Grant) (t : ApiToken) : Prop where
  id : g.tokenId = t.id
  userId : g.userId = t.userId
  role : g.role = t.role
  expiresAt : g.expiresAt = t.expiresAt
  hash : hashing.hashToken g.plaintext = t.tokenHash
  live : g.revoked = false

/-- `g` was created by a request that came with the token of `a`. -/
def CreatedBy (s : Accounts) (g a : Grant) : Prop := a ∈ s.grants ∧ g.parent = some a.tokenId

/-- What holds of the tokens and their records. -/
structure Accounts.Recorded (hashing : Hashing) (s : Accounts) : Prop where
  ids : ∀ g ∈ s.grants, ∀ g' ∈ s.grants, g.tokenId = g'.tokenId → g = g'
  fresh : ∀ g ∈ s.grants, g.tokenId < s.nextTokenId
  starts : ∀ g ∈ s.grants, tokenStart <+: g.plaintext
  hashes : ∀ g ∈ s.grants, ∀ g' ∈ s.grants,
    hashing.hashToken g.plaintext = hashing.hashToken g'.plaintext → g = g'
  issued : ∀ t ∈ s.tokens, ∃ g ∈ s.grants, g.Of hashing t
  bounded : ∀ g ∈ s.grants, g.role ≤ g.ceiling
  parents : ∀ g ∈ s.grants, ∀ q, g.parent = some q →
    ∃ a ∈ s.grants, a.tokenId = q ∧ g.ceiling ≤ a.role

inductive TokenEffect (hashing : Hashing) (s : Accounts) : TokenEvent → Accounts → Prop
  | same {e : TokenEvent} {t : Accounts} (tokens : t.tokens = s.tokens)
      (grants : t.grants = s.grants) (next : t.nextTokenId = s.nextTokenId) : TokenEffect hashing s e t
  | issue {header : Option Text} {body : ApiTokenCreateRequest} {drawn : Text} {now : ℚ}
      {t : Accounts} (p : Principal) (role : Role) (expiresAt : Option ℚ)
      (caller : getCurrentUser hashing s header tokensPath now = .ok p) (le : role ≤ effectiveRole p)
      (tokens : t.tokens = s.tokens ++ [⟨s.nextTokenId, p.user.id, strip body.name,
        hashing.hashToken (tokenStart ++ drawn), lookupPart (tokenStart ++ drawn), role, expiresAt⟩])
      (grants : t.grants = s.grants ++ [⟨s.nextTokenId, tokenStart ++ drawn, p.user.id, role,
        effectiveRole p, p.token.map (·.id), expiresAt, false⟩])
      (next : t.nextTokenId = s.nextTokenId + 1) :
      TokenEffect hashing s (.create header body drawn now) t
  | drop {e : TokenEvent} {t : Accounts} (gone : ApiToken → Bool)
      (alike : ∀ a b : ApiToken, a.id = b.id → a.userId = b.userId → gone a = gone b)
      (tokens : t.tokens = (s.dropTokens gone).tokens) (grants : t.grants = (s.dropTokens gone).grants)
      (next : t.nextTokenId = s.nextTokenId) : TokenEffect hashing s e t

theorem createToken_effect {hashing : Hashing} {s t : Accounts} {header : Option Text}
    {body : ApiTokenCreateRequest} {drawn : Text} {now : ℚ} {p : Principal}
    (hp : getCurrentUser hashing s header tokensPath now = .ok p)
    (h : createToken hashing s p body drawn now = .ok t) :
    TokenEffect hashing s (.create header body drawn now) t := by
  simp only [createToken] at h
  split at h
  · cases h
  split at h
  · cases h
  next role _ =>
  split at h
  · cases h
  next hle =>
  split at h
  · cases h
  next expiresAt _ =>
  split at h
  · cases h
  cases h
  have hle : role ≤ effectiveRole p := by
    apply roleAtMost_iff.mp
    simpa only [Bool.not_eq_true', Bool.not_eq_false] using hle
  exact .issue p role expiresAt hp hle rfl rfl rfl

theorem revokeToken_effect {hashing : Hashing} {s t : Accounts} {e : TokenEvent} {p : Principal}
    {tokenId : Nat} (h : revokeToken s p tokenId = .ok t) : TokenEffect hashing s e t := by
  simp only [revokeToken] at h
  split at h
  · cases h
  next token _ =>
  cases h
  refine .drop (fun a ↦ a.id == token.id) (fun a b hab _ ↦ ?_) rfl rfl rfl
  simp only [hab]

theorem tokenStep_effect {hashing : Hashing} {s t : Accounts} {e : TokenEvent}
    (h : tokenStep hashing s e = some t) : TokenEffect hashing s e t := by
  cases e with
  | login username password jwt now =>
    cases h
    cases authenticateUser hashing s username password <;> exact .same rfl rfl rfl
  | create header body drawn now =>
    cases h
    cases hp : getCurrentUser hashing s header tokensPath now with
    | error e => exact .same rfl rfl rfl
    | ok p =>
      cases hc : createToken hashing s p body drawn now with
      | error e =>
        simp only [Except.bind, hc, orUnchanged]
        exact .same rfl rfl rfl
      | ok u =>
        simp only [Except.bind, hc, orUnchanged]
        exact createToken_effect hp hc
  | revoke header tokenId now =>
    cases h
    cases hp : getCurrentUser hashing s header (tokenPath tokenId) now with
    | error e => exact .same rfl rfl rfl
    | ok p =>
      cases hc : revokeToken s p tokenId with
      | error e =>
        simp only [Except.bind, hc, orUnchanged]
        exact .same rfl rfl rfl
      | ok u =>
        simp only [Except.bind, hc, orUnchanged]
        exact revokeToken_effect hc
  | createUser user =>
    cases h
    split <;> exact .same rfl rfl rfl
  | setRole id role =>
    cases h
    exact .same rfl rfl rfl
  | setActive id active =>
    cases h
    exact .same rfl rfl rfl
  | deleteUser id =>
    cases h
    refine .drop (fun a ↦ a.userId == id) (fun a b _ hab ↦ ?_) rfl rfl rfl
    simp only [hab]

/-! ### The request of a token -/

theorem clampRole_eq_min (a b : Role) : clampRole a b = min a b := by
  rw [clampRole]
  split
  · next h => exact (min_eq_left (roleAtMost_iff.mp h)).symm
  · next h => exact (min_eq_right (le_of_not_ge fun hab ↦ h (roleAtMost_iff.mpr hab))).symm

theorem verifyApiToken_ok {hashing : Hashing} {s : Accounts} {plaintext : Text} {now : ℚ} {u : User}
    {t : ApiToken} (h : verifyApiToken hashing s plaintext now = .ok (u, t)) :
    t ∈ s.tokens ∧ t.tokenHash = hashing.hashToken plaintext ∧ t.expiresAt.any (· < now) = false ∧
      u ∈ s.users ∧ u.id = t.userId ∧ u.isActive = true := by
  simp only [verifyApiToken] at h
  split at h
  · cases h
  split at h
  · cases h
  next t' ht =>
  split at h
  · cases h
  next hexpires =>
  split at h
  · cases h
  next u' hu =>
  split at h
  · next hactive =>
    cases h
    have hmem := mem_of_find?_eq_some ht
    have hhash := find?_some ht
    have hid := find?_some hu
    simp only [beq_iff_eq] at hhash hid
    exact ⟨(mem_filter.mp hmem).1, hhash, by simpa using hexpires,
      mem_of_find?_eq_some hu, hid, hactive⟩
  · cases h

theorem getCurrentUser_apiToken {hashing : Hashing} {s : Accounts} {plaintext path : Text} {now : ℚ}
    (h : tokenStart <+: plaintext) :
    getCurrentUser hashing s (some (bearer ++ plaintext)) path now =
      (verifyApiToken hashing s plaintext now).bind fun (user, t) ↦
        enforcePasswordChange path ⟨user, some (clampRole t.role user.role), some t⟩ := by
  have hbearer : bearer.isPrefixOf (bearer ++ plaintext) = true := by
    rw [List.isPrefixOf_iff_prefix]
    exact prefix_append _ _
  simp only [getCurrentUser, hbearer, drop_left, isPrefixOf_iff_prefix.mpr h, if_true,
    Bool.not_true, Bool.false_eq_true, if_false]
  cases verifyApiToken hashing s plaintext now <;> rfl

theorem getCurrentUser_token {hashing : Hashing} {s : Accounts} {header : Option Text} {path : Text}
    {now : ℚ} {p : Principal} {t : ApiToken} (h : getCurrentUser hashing s header path now = .ok p)
    (ht : p.token = some t) :
    ∃ plaintext, header = some (bearer ++ plaintext) ∧
      verifyApiToken hashing s plaintext now = .ok (p.user, t) ∧
      effectiveRole p = min t.role p.user.role := by
  unfold getCurrentUser at h
  split at h
  · cases h
  next header =>
  split at h
  · cases h
  next hbearer =>
  simp only [Bool.not_eq_true', Bool.not_eq_false, isPrefixOf_iff_prefix] at hbearer
  obtain ⟨token, rfl⟩ := hbearer
  simp only [drop_left] at h
  split at h
  · split at h
    · cases h
    next u t' hverify =>
    rw [enforcePasswordChange] at h
    split at h
    · cases h
      cases ht
      exact ⟨token, rfl, hverify, clampRole_eq_min _ _⟩
    · cases h
  · split at h
    · cases h
    rw [enforcePasswordChange] at h
    split at h
    · cases h
      cases ht
    · cases h

/-! ### Every run -/

/-- The record of a token, after the rows in `gone` are deleted. -/
def Accounts.marked (s : Accounts) (gone : ApiToken → Bool) (g : Grant) : Grant :=
  if s.tokens.any fun t ↦ gone t && t.id == g.tokenId then { g with revoked := true } else g

section marked

variable (s : Accounts) (gone : ApiToken → Bool) (g : Grant)

theorem dropTokens_grants : (s.dropTokens gone).grants = s.grants.map (s.marked gone) := rfl

@[simp] theorem marked_tokenId : (s.marked gone g).tokenId = g.tokenId := by
  rw [Accounts.marked]; split <;> rfl

@[simp] theorem marked_plaintext : (s.marked gone g).plaintext = g.plaintext := by
  rw [Accounts.marked]; split <;> rfl

@[simp] theorem marked_role : (s.marked gone g).role = g.role := by
  rw [Accounts.marked]; split <;> rfl

@[simp] theorem marked_ceiling : (s.marked gone g).ceiling = g.ceiling := by
  rw [Accounts.marked]; split <;> rfl

@[simp] theorem marked_parent : (s.marked gone g).parent = g.parent := by
  rw [Accounts.marked]; split <;> rfl

end marked

namespace Accounts.Recorded

variable {hashing : Hashing} {s t : Accounts} {e : TokenEvent}

theorem of_verify (h : s.Recorded hashing) {plaintext : Text} {now : ℚ} {u : User} {r : ApiToken}
    (hverify : verifyApiToken hashing s plaintext now = .ok (u, r)) :
    ∃ g ∈ s.grants, g.Of hashing r :=
  h.issued r (verifyApiToken_ok hverify).1

theorem effectiveRole_le (h : s.Recorded hashing) {header : Option Text} {path : Text} {now : ℚ}
    {p : Principal} {r : ApiToken} (hp : getCurrentUser hashing s header path now = .ok p)
    (hr : p.token = some r) : ∃ g ∈ s.grants, g.tokenId = r.id ∧ effectiveRole p ≤ g.role := by
  obtain ⟨plaintext, -, hverify, heff⟩ := getCurrentUser_token hp hr
  obtain ⟨g, hg, hof⟩ := h.of_verify hverify
  refine ⟨g, hg, hof.id, ?_⟩
  rw [heff, hof.role]
  exact min_le_left _ _

theorem issue {p : Principal} {role : Role} {expiresAt : Option ℚ} {name drawn : Text}
    (h : s.Recorded hashing) (hle : role ≤ effectiveRole p)
    (hparent : ∀ r, p.token = some r → ∃ a ∈ s.grants, a.tokenId = r.id ∧ effectiveRole p ≤ a.role)
    (hnew : ∀ g ∈ s.grants,
      hashing.hashToken g.plaintext ≠ hashing.hashToken (tokenStart ++ drawn))
    (htokens : t.tokens = s.tokens ++ [⟨s.nextTokenId, p.user.id, name,
      hashing.hashToken (tokenStart ++ drawn), lookupPart (tokenStart ++ drawn), role, expiresAt⟩])
    (hgrants : t.grants = s.grants ++ [⟨s.nextTokenId, tokenStart ++ drawn, p.user.id, role,
      effectiveRole p, p.token.map (·.id), expiresAt, false⟩])
    (hnext : t.nextTokenId = s.nextTokenId + 1) : t.Recorded hashing where
  ids g hg g' hg' hid := by
    rw [hgrants, mem_append, mem_singleton] at hg hg'
    obtain hg | rfl := hg <;> obtain hg' | rfl := hg'
    · exact h.ids g hg g' hg' hid
    · exact absurd hid (h.fresh g hg).ne
    · exact absurd hid (h.fresh g' hg').ne'
    · rfl
  fresh g hg := by
    rw [hgrants, mem_append, mem_singleton] at hg
    rw [hnext]
    obtain hg | rfl := hg
    · exact (h.fresh g hg).trans (Nat.lt_succ_self _)
    · exact Nat.lt_succ_self _
  starts g hg := by
    rw [hgrants, mem_append, mem_singleton] at hg
    obtain hg | rfl := hg
    · exact h.starts g hg
    · exact prefix_append _ _
  hashes g hg g' hg' hhash := by
    rw [hgrants, mem_append, mem_singleton] at hg hg'
    obtain hg | rfl := hg <;> obtain hg' | rfl := hg'
    · exact h.hashes g hg g' hg' hhash
    · exact absurd hhash (hnew g hg)
    · exact absurd hhash.symm (hnew g' hg')
    · rfl
  issued r hr := by
    rw [htokens, mem_append, mem_singleton] at hr
    simp only [hgrants, mem_append, mem_singleton]
    obtain hr | rfl := hr
    · obtain ⟨g, hg, hof⟩ := h.issued r hr
      exact ⟨g, .inl hg, hof⟩
    · exact ⟨_, .inr rfl, ⟨rfl, rfl, rfl, rfl, rfl, rfl⟩⟩
  bounded g hg := by
    rw [hgrants, mem_append, mem_singleton] at hg
    obtain hg | rfl := hg
    · exact h.bounded g hg
    · exact hle
  parents g hg q hq := by
    rw [hgrants, mem_append, mem_singleton] at hg
    simp only [hgrants, mem_append]
    obtain hg | rfl := hg
    · obtain ⟨a, ha, haq⟩ := h.parents g hg q hq
      exact ⟨a, .inl ha, haq⟩
    · obtain ⟨r, hr, rfl⟩ := Option.map_eq_some_iff.mp hq
      obtain ⟨a, ha, har⟩ := hparent r hr
      exact ⟨a, .inl ha, har⟩

theorem marked_of_kept (h : s.Recorded hashing) {gone : ApiToken → Bool}
    (halike : ∀ a b : ApiToken, a.id = b.id → a.userId = b.userId → gone a = gone b)
    {r : ApiToken} (hkept : gone r = false) {g : Grant} (hg : g ∈ s.grants)
    (hof : g.Of hashing r) : s.marked gone g = g := by
  rw [Accounts.marked, if_neg]
  intro hany
  obtain ⟨r', hr', hgone⟩ := any_eq_true.mp hany
  simp only [Bool.and_eq_true, beq_iff_eq] at hgone
  -- A deleted row with the same id has the same record, so it is of the same account.
  obtain ⟨g', hg', hof'⟩ := h.issued r' hr'
  obtain rfl := h.ids g' hg' g hg (hof'.id.trans hgone.2)
  have : gone r' = gone r := halike r' r (hof'.id.symm.trans hof.id)
    (hof'.userId.symm.trans hof.userId)
  rw [hgone.1, hkept] at this
  cases this

theorem drop {gone : ApiToken → Bool} (h : s.Recorded hashing)
    (halike : ∀ a b : ApiToken, a.id = b.id → a.userId = b.userId → gone a = gone b)
    (htokens : t.tokens = (s.dropTokens gone).tokens)
    (hgrants : t.grants = (s.dropTokens gone).grants) (hnext : t.nextTokenId = s.nextTokenId) :
    t.Recorded hashing := by
  rw [dropTokens_grants] at hgrants
  have hmem : ∀ g, g ∈ t.grants ↔ ∃ g' ∈ s.grants, s.marked gone g' = g := fun g ↦ by
    rw [hgrants, mem_map]
  refine ⟨fun g hg g' hg' hid ↦ ?_, fun g hg ↦ ?_, fun g hg ↦ ?_, fun g hg g' hg' hhash ↦ ?_,
    fun r hr ↦ ?_, fun g hg ↦ ?_, fun g hg q hq ↦ ?_⟩
  · obtain ⟨b, hb, rfl⟩ := (hmem _).mp hg
    obtain ⟨b', hb', rfl⟩ := (hmem _).mp hg'
    simp only [marked_tokenId] at hid
    rw [h.ids b hb b' hb' hid]
  · obtain ⟨b, hb, rfl⟩ := (hmem _).mp hg
    rw [hnext, marked_tokenId]
    exact h.fresh b hb
  · obtain ⟨b, hb, rfl⟩ := (hmem _).mp hg
    rw [marked_plaintext]
    exact h.starts b hb
  · obtain ⟨b, hb, rfl⟩ := (hmem _).mp hg
    obtain ⟨b', hb', rfl⟩ := (hmem _).mp hg'
    simp only [marked_plaintext] at hhash
    rw [h.hashes b hb b' hb' hhash]
  · rw [htokens] at hr
    obtain ⟨hr, hkept⟩ := mem_filter.mp hr
    obtain ⟨g, hg, hof⟩ := h.issued r hr
    have hmarked := h.marked_of_kept halike (by simpa using hkept) hg hof
    exact ⟨g, (hmem g).mpr ⟨g, hg, hmarked⟩, hof⟩
  · obtain ⟨b, hb, rfl⟩ := (hmem _).mp hg
    simpa only [marked_role, marked_ceiling] using h.bounded b hb
  · obtain ⟨b, hb, rfl⟩ := (hmem _).mp hg
    simp only [marked_parent] at hq
    obtain ⟨a, ha, haq, hle⟩ := h.parents b hb q hq
    refine ⟨s.marked gone a, (hmem _).mpr ⟨a, ha, rfl⟩, ?_, ?_⟩
    · rwa [marked_tokenId]
    · simpa only [marked_role, marked_ceiling] using hle

theorem init (users : List User) (nextUserId : Nat) :
    (Accounts.init users nextUserId).Recorded hashing where
  ids _ hg := nomatch hg
  fresh _ hg := nomatch hg
  starts _ hg := nomatch hg
  hashes _ hg := nomatch hg
  issued _ hr := nomatch hr
  bounded _ hg := nomatch hg
  parents _ hg := nomatch hg

theorem step (h : s.Recorded hashing) (hnew : NoCollision hashing s e)
    (hstep : tokenStep hashing s e = some t) : t.Recorded hashing := by
  cases tokenStep_effect hstep with
  | same tokens grants next =>
    obtain ⟨hids, hfresh, hstarts, hhashes, hissued, hbounded, hparents⟩ := h
    refine ⟨?_, ?_, ?_, ?_, ?_, ?_, ?_⟩ <;> simp only [tokens, grants, next] <;> assumption
  | issue p role expiresAt caller le tokens grants next =>
    exact h.issue le (fun r hr ↦ h.effectiveRole_le caller hr) hnew tokens grants next
  | drop gone alike tokens grants next => exact h.drop alike tokens grants next

theorem le_of_chain (h : s.Recorded hashing) {g a : Grant} (hg : g ∈ s.grants)
    (hchain : Relation.ReflTransGen (CreatedBy s) g a) :
    a ∈ s.grants ∧ g.role ≤ a.role ∧ g.role ≤ a.ceiling := by
  induction hchain with
  | refl => exact ⟨hg, le_rfl, h.bounded g hg⟩
  | @tail b c _ hbc ih =>
    obtain ⟨hb, -, hgb⟩ := ih
    obtain ⟨hc, hparent⟩ := hbc
    obtain ⟨c', hc', hid, hle⟩ := h.parents b hb _ hparent
    obtain rfl := h.ids c' hc' c hc hid
    exact ⟨hc, hgb.trans hle, (hgb.trans hle).trans (h.bounded c' hc)⟩

theorem refused (h : s.Recorded hashing) {g : Grant} (hg : g ∈ s.grants) {path : Text} {now : ℚ}
    (hbad : g.revoked = true ∨ g.expiresAt.any (· < now) = true ∨
      ∀ u ∈ s.users, u.id = g.userId → u.isActive = false) :
    ∃ e, getCurrentUser hashing s (some (bearer ++ g.plaintext)) path now = .error e := by
  rw [getCurrentUser_apiToken (h.starts g hg)]
  cases hverify : verifyApiToken hashing s g.plaintext now with
  | error e => exact ⟨e, rfl⟩
  | ok found =>
    obtain ⟨u, r⟩ := found
    obtain ⟨hr, hhash, hexpires, hu, hid, hactive⟩ := verifyApiToken_ok hverify
    obtain ⟨g', hg', hof⟩ := h.issued r hr
    obtain rfl := h.hashes g' hg' g hg (hof.hash.trans hhash)
    obtain hrevoked | hexpired | howner := hbad
    · rw [hof.live] at hrevoked
      cases hrevoked
    · rw [hof.expiresAt, hexpires] at hexpired
      cases hexpired
    · rw [howner u hu (hid.trans hof.userId.symm)] at hactive
      cases hactive

end Accounts.Recorded

theorem recorded_of_run {hashing : Hashing} {users : List User} {nextUserId : Nat}
    {es : List TokenEvent} {s : Accounts}
    (hrun : Run (tokenStep hashing) (NoCollision hashing) (Accounts.init users nextUserId) es s) :
    s.Recorded hashing :=
  hrun.invariant (.init users nextUserId) fun _ _ _ h hok hstep ↦ h.step hok hstep

/-- An API token never raises a privilege. In every run, a request with an API token has at most the
role of its owner and at most the role that was in force when the token was created, and when each
token up the chain that it was created by was. The tokens of a chain have falling roles. A token that
is revoked or has expired, or whose owner is deleted or not active, is refused. -/
theorem apiTokens_never_raise {hashing : Hashing} {users : List User} {nextUserId : Nat}
    {es : List TokenEvent} {s : Accounts}
    (hrun : Run (tokenStep hashing) (NoCollision hashing) (Accounts.init users nextUserId) es s) :
    (∀ header path now p r, getCurrentUser hashing s header path now = .ok p → p.token = some r →
      p.user ∈ s.users ∧ p.user.id = r.userId ∧ effectiveRole p ≤ p.user.role ∧
      ∃ g ∈ s.grants, g.tokenId = r.id ∧
        ∀ a, Relation.ReflTransGen (CreatedBy s) g a →
          effectiveRole p ≤ a.ceiling ∧ effectiveRole p ≤ a.role) ∧
    (∀ g ∈ s.grants, ∀ a, Relation.ReflTransGen (CreatedBy s) g a →
      g.role ≤ a.role ∧ g.role ≤ a.ceiling) ∧
    ∀ g ∈ s.grants, ∀ path now,
      (g.revoked = true ∨ g.expiresAt.any (· < now) = true ∨
        ∀ u ∈ s.users, u.id = g.userId → u.isActive = false) →
      ∃ e, getCurrentUser hashing s (some (bearer ++ g.plaintext)) path now = .error e := by
  have h := recorded_of_run hrun
  refine ⟨fun header path now p r hp hr ↦ ?_, fun g hg a ha ↦ (h.le_of_chain hg ha).2,
    fun g hg path now hbad ↦ h.refused hg hbad⟩
  obtain ⟨plaintext, -, hverify, heff⟩ := getCurrentUser_token hp hr
  obtain ⟨-, -, -, huser, hid, -⟩ := verifyApiToken_ok hverify
  refine ⟨huser, hid, heff ▸ min_le_right _ _, ?_⟩
  obtain ⟨g, hg, hgid, hle⟩ := h.effectiveRole_le hp hr
  refine ⟨g, hg, hgid, fun a ha ↦ ?_⟩
  obtain ⟨-, hrole, hceiling⟩ := h.le_of_chain hg ha
  exact ⟨hle.trans hceiling, hle.trans hrole⟩

def plainHashing : Hashing := ⟨id, fun password hashed ↦ password == hashed⟩

def tokenChain : List TokenEvent :=
  [.login "root".toList "pw".toList "jwt".toList 0,
    .create (some "Bearer jwt".toList) ⟨"ci".toList, some "operator".toList, none⟩ "aa".toList 1,
    .create (some "Bearer bnk_aa".toList) ⟨"job".toList, some "viewer".toList, some 1⟩ "bb".toList 2,
    .revoke (some "Bearer jwt".toList) 0 3]

def tokenChainEnd : Accounts :=
  (exec (tokenStep plainHashing)
    (Accounts.init [⟨0, "root".toList, "r@x".toList, "pw".toList, .admin, true, false, false⟩] 1)
    tokenChain).getD ⟨[], [], [], [], 0, 0⟩

theorem apiTokens_never_raise_chain :
    (tokenChainEnd.grants.map fun g ↦ (g.role, g.ceiling, g.parent, g.revoked)) =
      [(.operator, .admin, none, true), (.viewer, .operator, some 0, false)] ∧
    (getCurrentUser plainHashing tokenChainEnd (some "Bearer bnk_bb".toList) [] 5).isOk = true ∧
    ∀ g ∈ tokenChainEnd.grants, g.revoked = true → ∀ path now,
      ∃ e, getCurrentUser plainHashing tokenChainEnd (some (bearer ++ g.plaintext)) path now =
        .error e := by
  refine ⟨by decide +kernel, by decide +kernel, fun g hg hrevoked path now ↦ ?_⟩
  have hrun : Run (tokenStep plainHashing) (NoCollision plainHashing)
      (Accounts.init [⟨0, "root".toList, "r@x".toList, "pw".toList, .admin, true, false, false⟩] 1)
      tokenChain tokenChainEnd := Run.iff_exec.mpr (by decide +kernel)
  exact (apiTokens_never_raise hrun).2.2 g hg path now (.inl hrevoked)

end BnkForge.Auth
