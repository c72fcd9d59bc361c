import BnkForge.Auth.Tokens
import BnkForge.Lib.Interleave

/-!
# The last administrator

`update_user` and `delete_user` (`backend/routes/auth.py:336–426`) as programs on the accounts: the
caller is authorized, the target is read and the change is committed in separate steps, and any
number of requests run side by side. A request keeps its caller from giving up its own role and
account, so an administrator remains as long as every change is committed by one.
-/

namespace BnkForge.Auth

open Interleave Transition

/-! ### The operations of a request -/

/-- The columns that a request has changed in the row it has read. -/
structure UserChanges where
  role : Option Role := none
  email : Option Text := none
  isActive : Option Bool := none
  deriving DecidableEq, Repr

def UserChanges.apply (changes : UserChanges) (u : User) : User :=
  { u with
    role := changes.role.getD u.role
    email := changes.email.getD u.email
    isActive := changes.isActive.getD u.isActive }

inductive AdminOp
  | authorize (header : Option Text) (path : Text) (now : ℚ)
  | readTarget (caller : User) (id : Nat)
  | emailTaken (email : Text) (id : Nat)
  | commitUpdate (caller : User) (id : Nat) (changes : UserChanges)
  | commitDelete (caller : User) (id : Nat)

abbrev AdminRes : AdminOp → Type
  | .authorize _ _ _ => Except ApiError User
  | .readTarget _ _ => Option User
  | .emailTaken _ _ => Bool
  | .commitUpdate _ _ _ => Except ApiError Unit
  | .commitDelete _ _ => Unit

/-- `require_admin`. -/
def requireAdmin (p : Principal) : Except ApiError User :=
  if effectiveRole p = .admin then .ok p.user
  else .error (.forbidden
    ("Requires role: admin. You have: " ++ String.ofList (effectiveRole p).text))

/-- `db.commit` of changes to one row: refused where the row is gone or another row has the e-mail. -/
def commitUpdate (s : Accounts) (id : Nat) (changes : UserChanges) : Except ApiError Unit × Accounts :=
  if s.users.all (·.id != id) then (.error .database, s)
  else if changes.email.any fun email ↦ s.users.any fun u ↦ u.email == email && u.id != id then
    (.error .database, s)
  else (.ok (), s.updateUser id changes.apply)

/-- What the database answers. A row that the session has read before keeps the columns it had. -/
def adminHandle {ι : Type} (hashing : Hashing) : Handler Accounts ι Unit AdminOp AdminRes
  | _, .authorize header path now, _, s =>
    some ((getCurrentUser hashing s header path now).bind requireAdmin, s)
  | _, .readTarget caller id, _, s =>
    some ((s.users.find? fun u ↦ u.id == id).map fun u ↦ if u.id = caller.id then caller else u, s)
  | _, .emailTaken email id, _, s => some (s.users.any fun u ↦ u.email == email && u.id != id, s)
  | _, .commitUpdate _ id changes, _, s => some (commitUpdate s id changes)
  | _, .commitDelete _ id, _, s => some ((), s.deleteUser id)

/-! ### The requests -/

abbrev AdminProg : Type → Type := Prog AdminOp AdminRes

def userPath (userId : Nat) : Text := "/api/auth/users/".toList ++ (toString userId).toList

/-- `get_current_user` and `require_admin`. -/
abbrev authorize (header : Option Text) (path : Text) (now : ℚ) : AdminProg (Except ApiError User) :=
  Prog.call (AdminOp.authorize header path now)

/-- `db.query(User).filter(User.id == user_id).first()`. -/
abbrev readTarget (caller : User) (userId : Nat) : AdminProg (Option User) :=
  Prog.call (AdminOp.readTarget caller userId)

abbrev emailTaken (email : Text) (userId : Nat) : AdminProg Bool :=
  Prog.call (AdminOp.emailTaken email userId)

abbrev commitChanges (caller : User) (userId : Nat) (changes : UserChanges) :
    AdminProg (Except ApiError Unit) :=
  Prog.call (AdminOp.commitUpdate caller userId changes)

abbrev commitDelete (caller : User) (userId : Nat) : AdminProg Unit :=
  Prog.call (AdminOp.commitDelete caller userId)

structure UserUpdateRequest where
  email : Option Text := none
  role : Option Text := none
  isActive : Option Bool := none
  deriving DecidableEq, Repr

/-- A new value of a column, where it differs from the one that was read. -/
def changed {α : Type} [DecidableEq α] (old : α) (new : Option α) : Option α :=
  new.filter (· ≠ old)

def demotesItself (caller : User) (userId : Nat) (request : UserUpdateRequest) : Bool :=
  caller.id = userId && request.role.any fun role ↦ role ≠ [] ∧ role ≠ "admin".toList

def deactivatesItself (caller : User) (userId : Nat) (request : UserUpdateRequest) : Bool :=
  caller.id = userId && request.isActive = some false

def roleOfRequest (request : UserUpdateRequest) : Except ApiError (Option Role) :=
  match request.role with
  | none => .ok none
  | some text =>
    match Role.ofText? text with
    | none => .error (.badRequest ("Invalid role: " ++ String.ofList text ++
        ". Must be one of: admin, operator, viewer") "BAD_REQUEST")
    | some role => .ok (some role)

def revivesDefault (hashing : Hashing) (target : User) (request : UserUpdateRequest) : Bool :=
  request.isActive = some true && !target.isActive && target.isServiceAccount &&
    holdsKnownDefaultPassword hashing target

/-- `update_user`. -/
def updateUser (hashing : Hashing) (header : Option Text) (now : ℚ) (userId : Nat)
    (request : UserUpdateRequest) : AdminProg (Except ApiError Unit) := do
  match ← authorize header (userPath userId) now with
  | .error e => return .error e
  | .ok caller =>
    match ← readTarget caller userId with
    | none => return .error (.notFound "user" userId)
    | some target =>
      if demotesItself caller userId request then
        return .error (.forbidden "Cannot change your own role from admin")
      else if deactivatesItself caller userId request then
        return .error (.forbidden "Cannot deactivate your own account")
      else
        match roleOfRequest request with
        | .error e => return .error e
        | .ok role =>
          let taken ← match request.email with
            | none => pure false
            | some email => emailTaken email userId
          if taken then
            return .error (.conflict "user"
              ("Email '" ++ String.ofList (request.email.getD []) ++ "' is already in use"))
          else if revivesDefault hashing target request then
            return .error (.badRequest ("Cannot re-enable service account '" ++
              String.ofList target.username ++ "': it still holds a known default password. " ++
              "Rotate the credential first — set MCP_SERVICE_PASSWORD to a strong secret and " ++
              "restart the backend (it re-seeds and re-activates the account with a real hash).")
              "BAD_REQUEST")
          else
            commitChanges caller userId ⟨changed target.role role, changed target.email request.email,
              changed target.isActive request.isActive⟩

/-- `delete_user`. -/
def deleteUser (header : Option Text) (now : ℚ) (userId : Nat) :
    AdminProg (Except ApiError Unit) := do
  match ← authorize header (userPath userId) now with
  | .error e => return .error e
  | .ok caller =>
    if caller.id = userId then return .error (.forbidden "Cannot delete your own account")
    else
      match ← readTarget caller userId with
      | none => return .error (.notFound "user" userId)
      | some _ =>
        commitDelete caller userId
        return .ok ()

inductive AdminRequest
  | update (header : Option Text) (now : ℚ) (userId : Nat) (request : UserUpdateRequest)
  | delete (header : Option Text) (now : ℚ) (userId : Nat)

def AdminRequest.program (hashing : Hashing) : AdminRequest → AdminProg (Except ApiError Unit)
  | .update header now userId request => updateUser hashing header now userId request
  | .delete header now userId => deleteUser header now userId

/-! ### Who remains -/

def User.activeAdmin (u : User) : Bool := u.isActive && u.role == .admin

def AdminRemains (s : Accounts) : Prop := ∃ u ∈ s.users, u.activeAdmin = true

instance : DecidablePred AdminRemains :=
  fun s ↦ inferInstanceAs (Decidable (∃ u ∈ s.users, u.activeAdmin = true))

/-- The account of `caller` is still the one of an active administrator. -/
def StillAdmin (s : Accounts) (caller : User) : Prop :=
  ∃ u ∈ s.users, u.id = caller.id ∧ u.activeAdmin = true

/-- A change is committed while its caller is still an active administrator. -/
def CommitsAsAdmin {ι : Type} (s : Accounts) (_ : ι) (o : AdminOp) (_ : Unit) : Prop :=
  match o with
  | .commitUpdate caller _ _ => StillAdmin s caller
  | .commitDelete caller _ => StillAdmin s caller
  | _ => True

instance {ι : Type} (s : Accounts) (i : ι) (o : AdminOp) (c : Unit) :
    Decidable (CommitsAsAdmin s i o c) :=
  match o with
  | .commitUpdate caller _ _ =>
    inferInstanceAs (Decidable (∃ u ∈ s.users, u.id = caller.id ∧ u.activeAdmin = true))
  | .commitDelete caller _ =>
    inferInstanceAs (Decidable (∃ u ∈ s.users, u.id = caller.id ∧ u.activeAdmin = true))
  | .authorize _ _ _ | .readTarget _ _ | .emailTaken _ _ => isTrue trivial

/-- The contract of a request: the others may do anything that leaves an administrator. -/
def administering (ι : Type) : Contract Accounts ι Unit AdminOp where
  inv := AdminRemains
  guard := CommitsAsAdmin
  rely _ _ _ := True
  guarantee _ _ _ := True

theorem administering_coherent (ι : Type) : (administering ι).Coherent where
  rely_refl _ _ := trivial
  rely_trans _ _ _ _ _ _ := trivial
  guarantee_rely _ _ _ _ _ _ := trivial

def UserChanges.Harmless (changes : UserChanges) : Prop :=
  (∀ role, changes.role = some role → role = .admin) ∧
    ∀ active, changes.isActive = some active → active = true

theorem activeAdmin_apply {changes : UserChanges} (h : changes.Harmless) {u : User}
    (hu : u.activeAdmin = true) : (changes.apply u).activeAdmin = true := by
  obtain ⟨role, email, isActive⟩ := changes
  simp only [User.activeAdmin, Bool.and_eq_true, beq_iff_eq] at hu
  simp only [UserChanges.apply, User.activeAdmin, Bool.and_eq_true, beq_iff_eq]
  constructor
  · cases isActive with
    | none => exact hu.1
    | some active => exact h.2 active rfl
  · cases role with
    | none => exact hu.2
    | some role => exact h.1 role rfl

theorem remains_commitUpdate {s : Accounts} {caller : User} {id : Nat} {changes : UserChanges}
    (hcaller : StillAdmin s caller) (hspare : caller.id = id → changes.Harmless) :
    AdminRemains (commitUpdate s id changes).2 := by
  obtain ⟨u, hu, hid, hadmin⟩ := hcaller
  simp only [commitUpdate]
  split
  · exact ⟨u, hu, hadmin⟩
  split
  · exact ⟨u, hu, hadmin⟩
  · refine ⟨if u.id = id then changes.apply u else u, List.mem_map.mpr ⟨u, hu, rfl⟩, ?_⟩
    split
    · next h => exact activeAdmin_apply (hspare (hid.symm.trans h)) hadmin
    · exact hadmin

theorem remains_deleteUser {s : Accounts} {caller : User} {id : Nat} (hcaller : StillAdmin s caller)
    (hother : caller.id ≠ id) : AdminRemains (s.deleteUser id) := by
  obtain ⟨u, hu, hid, hadmin⟩ := hcaller
  refine ⟨u, List.mem_filter.mpr ⟨hu, ?_⟩, hadmin⟩
  simpa only [bne_iff_ne, hid] using hother

/-- The checks of `update_user` keep the caller from demoting or deactivating itself. -/
theorem harmless_of_checks {caller target : User} {userId : Nat} {request : UserUpdateRequest}
    {role : Option Role} (hdemote : demotesItself caller userId request = false)
    (hdeactivate : deactivatesItself caller userId request = false)
    (hrole : roleOfRequest request = .ok role) (hself : caller.id = userId) :
    UserChanges.Harmless ⟨changed target.role role, changed target.email request.email,
      changed target.isActive request.isActive⟩ := by
  constructor
  · intro r hr
    have hr : role = some r := (Option.filter_eq_some_iff.mp hr).1
    subst hr
    obtain ⟨email, _ | text, isActive⟩ := request
    · cases hrole
    simp only [roleOfRequest] at hrole
    split at hrole
    · cases hrole
    next r' hr' =>
    cases hrole
    simp only [demotesItself, hself, decide_true, Bool.true_and, Option.any_some,
      decide_eq_false_iff_not, not_and, not_not] at hdemote
    have htext : text ≠ [] := by
      rintro rfl
      cases hr'
    rw [hdemote htext] at hr'
    exact (Option.some.inj hr').symm
  · intro active hactive
    have hactive : request.isActive = some active := (Option.filter_eq_some_iff.mp hactive).1
    simp only [deactivatesItself, hself, hactive, decide_true, Bool.true_and,
      decide_eq_false_iff_not, Option.some.injEq, Bool.not_eq_false] at hdeactivate
    exact hdeactivate

section Safe

variable {ι : Type} {hashing : Hashing} {i : ι}

theorem safe_ret (r : Except ApiError Unit) (s : Accounts) :
    Safe (adminHandle hashing) (administering ι) i (.ret r) (fun _ t ↦ AdminRemains t) s :=
  fun _ _ ht ↦ ht

theorem safe_read {o : AdminOp} {next : AdminRes o → AdminProg (Except ApiError Unit)} {s : Accounts}
    (hread : ∀ c t r u, adminHandle hashing i o c t = some (r, u) → u = t)
    (hnext : ∀ t r, Safe (adminHandle hashing) (administering ι) i (next r)
      (fun _ t ↦ AdminRemains t) t) :
    Safe (adminHandle hashing) (administering ι) i (.ask o next) (fun _ t ↦ AdminRemains t) s := by
  intro t _ ht c r u _ hstep
  obtain rfl := hread c t r u hstep
  exact ⟨ht, trivial, hnext u r⟩

theorem safe_authorize {header : Option Text} {path : Text} {now : ℚ} {s : Accounts}
    {next : Except ApiError User → AdminProg (Except ApiError Unit)}
    (hnext : ∀ t r, Safe (adminHandle hashing) (administering ι) i (next r)
      (fun _ t ↦ AdminRemains t) t) :
    Safe (adminHandle hashing) (administering ι) i (authorize header path now >>= next)
      (fun _ t ↦ AdminRemains t) s :=
  safe_read (fun c t r u h ↦ by cases h; rfl) hnext

theorem safe_readTarget {caller : User} {userId : Nat} {s : Accounts}
    {next : Option User → AdminProg (Except ApiError Unit)}
    (hnext : ∀ t r, Safe (adminHandle hashing) (administering ι) i (next r)
      (fun _ t ↦ AdminRemains t) t) :
    Safe (adminHandle hashing) (administering ι) i (readTarget caller userId >>= next)
      (fun _ t ↦ AdminRemains t) s :=
  safe_read (fun c t r u h ↦ by cases h; rfl) hnext

theorem safe_emailTaken {email : Text} {userId : Nat} {s : Accounts}
    {next : Bool → AdminProg (Except ApiError Unit)}
    (hnext : ∀ t r, Safe (adminHandle hashing) (administering ι) i (next r)
      (fun _ t ↦ AdminRemains t) t) :
    Safe (adminHandle hashing) (administering ι) i (emailTaken email userId >>= next)
      (fun _ t ↦ AdminRemains t) s :=
  safe_read (fun c t r u h ↦ by cases h; rfl) hnext

theorem safe_commitChanges {caller : User} {userId : Nat} {changes : UserChanges} {s : Accounts}
    (hspare : caller.id = userId → changes.Harmless) :
    Safe (adminHandle hashing) (administering ι) i (commitChanges caller userId changes)
      (fun _ t ↦ AdminRemains t) s := by
  intro t _ ht c r u hcaller hstep
  obtain ⟨rfl, rfl⟩ := Prod.mk.inj (Option.some.inj hstep)
  exact ⟨remains_commitUpdate hcaller hspare, trivial, safe_ret _ _⟩

theorem updateUser_safe (header : Option Text) (now : ℚ) (userId : Nat) (request : UserUpdateRequest)
    (s : Accounts) :
    Safe (adminHandle hashing) (administering ι) i (updateUser hashing header now userId request)
      (fun _ t ↦ AdminRemains t) s := by
  refine safe_authorize fun s answer ↦ ?_
  cases answer with
  | error e => exact safe_ret _ _
  | ok caller =>
    refine safe_readTarget fun s target ↦ ?_
    cases target with
    | none => exact safe_ret _ _
    | some target =>
      dsimp only
      split
      · exact safe_ret _ _
      next hdemote =>
      split
      · exact safe_ret _ _
      next hdeactivate =>
      split
      · exact safe_ret _ _
      next role hrole =>
      have hspare : caller.id = userId → UserChanges.Harmless ⟨changed target.role role,
          changed target.email request.email, changed target.isActive request.isActive⟩ :=
        harmless_of_checks (by simpa using hdemote) (by simpa using hdeactivate) hrole
      -- What follows the look at the e-mail is the same whether it is taken or not asked for.
      split
      · simp only [Prog.pure_eq, Prog.ret_bind, Bool.false_eq_true, if_false]
        split
        · exact safe_ret _ _
        · exact safe_commitChanges hspare
      · refine safe_emailTaken fun s taken ↦ ?_
        split
        · exact safe_ret _ _
        split
        · exact safe_ret _ _
        · exact safe_commitChanges hspare

theorem deleteUser_safe (header : Option Text) (now : ℚ) (userId : Nat) (s : Accounts) :
    Safe (adminHandle hashing) (administering ι) i (deleteUser header now userId)
      (fun _ t ↦ AdminRemains t) s := by
  refine safe_authorize fun s answer ↦ ?_
  cases answer with
  | error e => exact safe_ret _ _
  | ok caller =>
    dsimp only
    split
    · exact safe_ret _ _
    next hother =>
    refine safe_readTarget fun s target ↦ ?_
    cases target with
    | none => exact safe_ret _ _
    | some target =>
      intro t _ ht c r u hcaller hstep
      obtain ⟨-, rfl⟩ := Prod.mk.inj (Option.some.inj hstep)
      exact ⟨remains_deleteUser hcaller hother, trivial, safe_ret _ _⟩

theorem AdminRequest.safe (request : AdminRequest) (s : Accounts) :
    Safe (adminHandle hashing) (administering ι) i (request.program hashing)
      (fun _ t ↦ AdminRemains t) s := by
  cases request with
  | update header now userId request => exact updateUser_safe header now userId request s
  | delete header now userId => exact deleteUser_safe header now userId s

end Safe

def serving {ι : Type} (hashing : Hashing) (s : Accounts) (requests : ι → AdminRequest) :
    World Accounts ι (Except ApiError Unit) AdminOp AdminRes :=
  ⟨s, fun i ↦ (requests i).program hashing⟩

/-- An administrator remains after every step of a run in which each change is committed while its
caller is still an active administrator. -/
theorem admin_remains {ι : Type} [DecidableEq ι] {hashing : Hashing} {s : Accounts}
    {requests : ι → AdminRequest} {es : List (ι × Unit)}
    {w : World Accounts ι (Except ApiError Unit) AdminOp AdminRes} (hs : AdminRemains s)
    (hrun : Run (step (adminHandle hashing)) (Guarded CommitsAsAdmin) (serving hashing s requests) es
      w) : AdminRemains w.store := by
  have hsafe : (serving hashing s requests).AllSafe (adminHandle hashing) (administering ι)
      fun _ _ t ↦ AdminRemains t := ⟨hs, fun i ↦ (requests i).safe s⟩
  exact (Run.safe (administering_coherent ι) hrun hsafe).1

def twoAdmins : Accounts :=
  { users := [⟨0, "ann".toList, "a@x".toList, "pa".toList, .admin, true, false, false⟩,
      ⟨1, "bob".toList, "b@x".toList, "pb".toList, .admin, true, false, false⟩]
    tokens := [], sessions := [⟨"ja".toList, "ann".toList, 9⟩, ⟨"jb".toList, "bob".toList, 9⟩]
    grants := [], nextUserId := 2, nextTokenId := 0 }

/-- Ann makes Bob a viewer, and Bob deletes Ann. -/
def eachOther : Bool → AdminRequest
  | false => .update (some "Bearer ja".toList) 1 1 ⟨none, some "viewer".toList, none⟩
  | true => .delete (some "Bearer jb".toList) 1 0

/-- In turn, the second request is refused. -/
theorem admin_remains_inTurn :
    ∃ w, Run (step (adminHandle plainHashing)) (Guarded CommitsAsAdmin)
        (serving plainHashing twoAdmins eachOther)
        [(false, ()), (false, ()), (false, ()), (true, ())] w ∧
      w.store.users.map (·.role) = [.admin, .viewer] ∧ AdminRemains w.store := by
  obtain ⟨w, hrun, hroles⟩ : ∃ w, Run (step (adminHandle plainHashing)) (Guarded CommitsAsAdmin)
      (serving plainHashing twoAdmins eachOther) [(false, ()), (false, ()), (false, ()), (true, ())] w ∧
      w.store.users.map (·.role) = [.admin, .viewer] := Run.exists_of_exec (by decide +kernel)
  exact ⟨w, hrun, hroles, admin_remains (by decide +kernel) hrun⟩

/-- Overlapped, each commits on the authorization it had before, and no administrator is left. -/
theorem no_admin_remains :
    AdminRemains twoAdmins ∧
      ∃ w, Run (step (adminHandle plainHashing)) Free (serving plainHashing twoAdmins eachOther)
          [(false, ()), (true, ()), (false, ()), (true, ()), (false, ()), (true, ())] w ∧
        ¬ AdminRemains w.store := by
  exact ⟨by decide +kernel, Run.exists_of_exec (by decide +kernel)⟩

end BnkForge.Auth
