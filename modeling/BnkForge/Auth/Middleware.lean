import BnkForge.Auth.Tokens
import BnkForge.Lib.Path

/-!
# The authentication middleware

`AuthMiddleware.dispatch` (`backend/core/auth_middleware.py:53–231`) and the endpoints of the operator
polling API (`backend/routes/operator_polling.py`). The middleware exempts paths by their text, the
endpoints are templates: where the two agree is said of the segments of a path.
-/

namespace BnkForge.Auth

open Python Path List

/-! ### The middleware -/

structure Request where
  method : Text
  path : Text
  authorization : Option Text := none
  tokenParam : Text := []
  deriving DecidableEq, Repr

/-- What becomes of a request: it goes on to its endpoint, or it is answered. -/
inductive Reply
  | callNext
  | refuse (status : Nat) (code message : String) (path : Text)
  deriving DecidableEq, Repr

/-- `PUBLIC_PATHS`. -/
def publicPaths : List Text :=
  ["/api/auth/login".toList, "/ping".toList, "/".toList, "/docs".toList, "/openapi.json".toList,
    "/redoc".toList]

/-- `PUBLIC_PREFIXES`. -/
def publicPrefixes : List Text :=
  ["/api/auth/login".toList, "/api/system/health".toList, "/ws/".toList,
    "/api/operators/install/".toList, "/api/operators/register-poll".toList]

/-- `OPERATOR_POLLING_PATTERNS`. -/
def operatorPollingPatterns : List Text :=
  ["/poll".toList, "/results/".toList, "/heartbeat".toList]

/-- `AGENT_PUBLIC_ENDPOINTS`. -/
def agentPublicEndpoints : List (Text × Text) :=
  [("POST".toList, "/api/benchmarks/agents".toList), ("POST".toList, "/api/benchmarks/results".toList),
    ("POST".toList, "/api/benchmarks/results/aiperf".toList)]

def operatorsPath : Text := "/api/operators/".toList

def isExempt (method path : Text) : Bool :=
  publicPaths.contains path ||
    publicPrefixes.any (·.isPrefixOf path) ||
    (operatorsPath.isPrefixOf path && operatorPollingPatterns.any (contains path ·)) ||
    agentPublicEndpoints.any (fun e ↦ e.1 == method && e.2 == path) ||
    !"/api/".toList.isPrefixOf path

def tokenUser (hashing : Hashing) (s : Accounts) (token : Text) (now : ℚ) : Except ApiError User :=
  if tokenStart.isPrefixOf token then (verifyApiToken hashing s token now).map Prod.fst
  else getUserFromToken s token now

/-- The token of an `Authorization` header. -/
def bearerToken (header : Option Text) : Option Text :=
  match header with
  | none => none
  | some header => if bearer.isPrefixOf header then some (header.drop bearer.length) else none

/-- `AuthMiddleware.dispatch`. -/
def dispatch (requireAuth : Bool) (hashing : Hashing) (s : Accounts) (r : Request) (now : ℚ) : Reply :=
  if !requireAuth then .callNext
  else if r.method = "OPTIONS".toList then .callNext
  else if isExempt r.method r.path then .callNext
  else
    match bearerToken r.authorization with
    | none => .refuse 401 "UNAUTHORIZED" "Authentication required. Provide a Bearer token." r.path
    | some token =>
      match tokenUser hashing s token now with
      | .error _ =>
        .refuse 401 "UNAUTHORIZED" "Invalid or expired token. Please login again." r.path
      | .ok user =>
        if passwordChangeAllows r.path user then .callNext
        else .refuse 403 "PASSWORD_CHANGE_REQUIRED"
          ("Password change required before using the API. " ++
            "POST /api/auth/change-password with your current and new password.") r.path

/-! ### The polling API -/

/-- `_validate_operator_token`: the registration token of a request. -/
def validateOperatorToken (registered : Text → Bool) (r : Request) : Except ApiError Text :=
  let token := (bearerToken r.authorization).getD []
  let token := if token = [] then r.tokenParam else token
  if token = [] then
    .error (.unauthorized "Missing registration token. Provide via Authorization: Bearer header.")
  else if registered token then .ok token
  else .error (.unauthorized "Invalid or expired registration token.")

/-- The endpoints, with the parameters in their paths. -/
inductive Endpoint
  | registerPoll
  | poll (operatorId : Text)
  | results (operatorId commandId : Text)
  | heartbeat (operatorId : Text)
  | health (operatorId : Text)
  | llmMetrics (operatorId : Text)
  deriving DecidableEq, Repr

namespace Endpoint

def method : Endpoint → Text
  | poll _ => "GET".toList
  | _ => "POST".toList

/-- The segments below `/api/operators`. -/
def segments : Endpoint → List Text
  | registerPoll => ["register-poll".toList]
  | poll operatorId => [operatorId, "poll".toList]
  | results operatorId commandId => [operatorId, "results".toList, commandId]
  | heartbeat operatorId => [operatorId, "heartbeat".toList]
  | health operatorId => [operatorId, "health".toList]
  | llmMetrics operatorId => [operatorId, "llm-metrics".toList]

def path (e : Endpoint) : Text := "/api/operators".toList ++ joined '/' e.segments

def isParameter (text : Text) : Bool := !text.isEmpty && !text.contains '/'

def valid : Endpoint → Bool
  | registerPoll => true
  | results operatorId commandId => isParameter operatorId && isParameter commandId
  | poll operatorId | heartbeat operatorId | health operatorId | llmMetrics operatorId =>
    isParameter operatorId

end Endpoint

def IsEndpoint (path : Text) : Prop := ∃ e : Endpoint, e.valid = true ∧ e.path = path

/-- The exemptions are exact for a request: to an endpoint it is let through with a registration
token, and below the paths of operators it is let through only to an endpoint or to the install
files. -/
structure ExemptionsExact (hashing : Hashing) (s : Accounts) (now : ℚ) (registered : Text → Bool)
    (r : Request) : Prop where
  endpoints : ∀ e : Endpoint, e.valid = true → r.method = e.method → r.path = e.path →
    (∃ token, validateOperatorToken registered r = .ok token) → dispatch true hashing s r now = .callNext
  exempt : operatorsPath <+: r.path → ¬ "/api/operators/install/".toList <+: r.path →
    dispatch true hashing s r now = .callNext → IsEndpoint r.path

/-! ### Where they are exact -/

def segmentsOf (path : Text) : List Text := (path.drop 1).splitOn '/'

/-- A segment that starts like one of the exempt endpoints. -/
def OffersExemption (path : Text) : Prop :=
  "/api/operators/register-poll".toList <+: path ∨
    (∃ segment ∈ segmentsOf path, "poll".toList <+: segment ∨ "heartbeat".toList <+: segment) ∨
    "results".toList ∈ (segmentsOf path).dropLast

def ExemptId (operatorId : Text) : Prop :=
  "poll".toList <+: operatorId ∨ "heartbeat".toList <+: operatorId ∨
    "register-poll".toList <+: operatorId ∨ operatorId = "results".toList ∨
    operatorId = "install".toList

def NoUserToken (hashing : Hashing) (s : Accounts) (r : Request) (now : ℚ) : Prop :=
  ∀ token user, bearerToken r.authorization = some token → tokenUser hashing s token now ≠ .ok user

theorem dispatch_callNext_iff {hashing : Hashing} {s : Accounts} {r : Request} {now : ℚ}
    (h : NoUserToken hashing s r now) :
    dispatch true hashing s r now = .callNext ↔
      r.method = "OPTIONS".toList ∨ isExempt r.method r.path = true := by
  simp only [dispatch, Bool.not_true, Bool.false_eq_true, if_false]
  split
  · next hoptions => simp [hoptions]
  next hoptions =>
  split
  · next hexempt => simp [hexempt]
  next hexempt =>
  refine ⟨fun hnext ↦ ?_, fun hor ↦ absurd hor (not_or.mpr ⟨hoptions, hexempt⟩)⟩
  split at hnext
  · cases hnext
  next token htoken =>
  split at hnext
  · cases hnext
  · next user huser => exact absurd huser (h token user htoken)

theorem isExempt_operators (method rest : Text) :
    isExempt method (operatorsPath ++ rest) =
      ("/api/operators/install/".toList.isPrefixOf (operatorsPath ++ rest) ||
        ("/api/operators/register-poll".toList.isPrefixOf (operatorsPath ++ rest) ||
        operatorPollingPatterns.any (contains (operatorsPath ++ rest) ·))) := by
  have hpublic : publicPaths.contains (operatorsPath ++ rest) = false := rfl
  have hagent : (agentPublicEndpoints.any fun e ↦ e.1 == method && e.2 == operatorsPath ++ rest) =
      false := by
    have hpaths : ∀ e ∈ agentPublicEndpoints, (e.2 == operatorsPath ++ rest) = false := by
      simp only [agentPublicEndpoints, forall_mem_cons]
      exact ⟨rfl, rfl, rfl, nofun⟩
    rw [any_eq_false]
    intro e he
    rw [hpaths e he, Bool.and_false]
    nofun
  have hoperators : operatorsPath.isPrefixOf (operatorsPath ++ rest) = true := rfl
  have hapi : "/api/".toList.isPrefixOf (operatorsPath ++ rest) = true := rfl
  have hlogin : "/api/auth/login".toList.isPrefixOf (operatorsPath ++ rest) = false := rfl
  have hhealth : "/api/system/health".toList.isPrefixOf (operatorsPath ++ rest) = false := rfl
  have hws : "/ws/".toList.isPrefixOf (operatorsPath ++ rest) = false := rfl
  simp only [isExempt, publicPrefixes, any_cons, any_nil, hpublic, hagent, hoperators, hapi,
    hlogin, hhealth, hws, Bool.false_or, Bool.or_false, Bool.true_and, Bool.not_true, Bool.or_assoc]

theorem joined_segmentsOf {path : Text} (h : operatorsPath <+: path) :
    joined '/' (segmentsOf path) = path := by
  obtain ⟨rest, rfl⟩ := h
  exact joined_splitOn '/' _

section Segments

variable {path : Text} (h : operatorsPath <+: path)

include h

theorem contains_open_iff {w : Text} (hw : '/' ∉ w) :
    contains path ('/' :: w) = true ↔ ∃ s ∈ segmentsOf path, w <+: s := by
  have hsegments : ∀ s ∈ segmentsOf path, '/' ∉ s := fun s hs ↦ not_mem_of_mem_splitOn hs
  rw [contains_iff, ← infix_joined hw hsegments, joined_segmentsOf h]

theorem contains_closed_iff {w : Text} (hw : '/' ∉ w) :
    contains path ('/' :: (w ++ ['/'])) = true ↔ w ∈ (segmentsOf path).dropLast := by
  have hsegments : ∀ s ∈ segmentsOf path, '/' ∉ s := fun s hs ↦ not_mem_of_mem_splitOn hs
  rw [contains_iff, ← infix_joined_closed hw hsegments, joined_segmentsOf h]

theorem patterns_iff :
    operatorPollingPatterns.any (contains path ·) = true ↔
      (∃ s ∈ segmentsOf path, "poll".toList <+: s ∨ "heartbeat".toList <+: s) ∨
        "results".toList ∈ (segmentsOf path).dropLast := by
  have hpatterns : operatorPollingPatterns = ['/' :: "poll".toList, '/' :: ("results".toList ++ ['/']),
    '/' :: "heartbeat".toList] := rfl
  rw [hpatterns]
  simp only [any_cons, any_nil, Bool.or_false, Bool.or_eq_true]
  rw [contains_open_iff h (by decide), contains_closed_iff h (by decide),
    contains_open_iff h (by decide)]
  simp only [and_or_left, exists_or, or_assoc]
  exact or_congr_right or_comm

theorem isExempt_iff (method : Text) :
    isExempt method path = true ↔
      "/api/operators/install/".toList <+: path ∨ OffersExemption path := by
  have hpatterns := patterns_iff h
  obtain ⟨rest, rfl⟩ := h
  rw [isExempt_operators, Bool.or_eq_true, Bool.or_eq_true, hpatterns, isPrefixOf_iff_prefix,
    isPrefixOf_iff_prefix, OffersExemption]

end Segments

/-! ### The endpoints -/

namespace Endpoint

theorem path_eq (e : Endpoint) :
    e.path = joined '/' ("api".toList :: "operators".toList :: e.segments) := rfl

theorem operatorsPath_eq : operatorsPath = "/api/operators".toList ++ ['/'] := rfl

theorem operatorsPath_prefix (e : Endpoint) : operatorsPath <+: e.path := by
  obtain ⟨s, rest, hsegments⟩ : ∃ s rest, e.segments = s :: rest := by
    cases e <;> exact ⟨_, _, rfl⟩
  unfold path
  rw [operatorsPath_eq, prefix_append_right_inj, hsegments, joined_cons, cons_prefix_cons]
  exact ⟨rfl, nil_prefix⟩

theorem not_slash_of_isParameter {text : Text} (h : isParameter text = true) : '/' ∉ text := by
  simp only [isParameter, Bool.and_eq_true, Bool.not_eq_true', contains_eq_mem,
    decide_eq_false_iff_not] at h
  exact h.2

theorem not_slash_of_mem_segments {e : Endpoint} (he : e.valid = true) :
    ∀ s ∈ e.segments, '/' ∉ s := by
  cases e with
  | registerPoll => decide
  | results operatorId commandId =>
    simp only [valid, Bool.and_eq_true] at he
    simp only [segments, forall_mem_cons]
    exact ⟨not_slash_of_isParameter he.1, by decide, not_slash_of_isParameter he.2, nofun⟩
  | poll operatorId | heartbeat operatorId | health operatorId | llmMetrics operatorId =>
    simp only [segments, forall_mem_cons]
    exact ⟨not_slash_of_isParameter he, by decide, nofun⟩

theorem segmentsOf_path {e : Endpoint} (he : e.valid = true) :
    segmentsOf e.path = "api".toList :: "operators".toList :: e.segments := by
  rw [segmentsOf, path_eq]
  refine splitOn_joined (cons_ne_nil _ _) ?_
  simp only [forall_mem_cons]
  exact ⟨by decide, by decide, not_slash_of_mem_segments he⟩

def isCovered : Endpoint → Bool
  | registerPoll | poll _ | results _ _ | heartbeat _ => true
  | health _ | llmMetrics _ => false

def operatorId : Endpoint → Text
  | registerPoll => []
  | results operatorId _ => operatorId
  | poll operatorId | heartbeat operatorId | health operatorId | llmMetrics operatorId => operatorId

theorem isExempt_of_isCovered {e : Endpoint} (he : e.valid = true) (hcovered : e.isCovered = true) :
    isExempt e.method e.path = true := by
  rw [isExempt_iff e.operatorsPath_prefix e.method]
  refine .inr ?_
  rw [OffersExemption, segmentsOf_path he]
  cases e with
  | registerPoll => exact .inl (by decide +kernel)
  | poll operatorId => exact .inr (.inl ⟨"poll".toList, by simp [segments], .inl prefix_rfl⟩)
  | results operatorId commandId => exact .inr (.inr (by simp [segments]))
  | heartbeat operatorId =>
    exact .inr (.inl ⟨"heartbeat".toList, by simp [segments], .inr prefix_rfl⟩)
  | health operatorId | llmMetrics operatorId => cases hcovered

theorem isExempt_named_iff {method id name : Text} (hid : '/' ∉ id) (hname : '/' ∉ name)
    (hpoll : ¬ "poll".toList <+: name) (hheartbeat : ¬ "heartbeat".toList <+: name) :
    isExempt method ("/api/operators".toList ++ joined '/' [id, name]) = true ↔ ExemptId id := by
  have hpath : "/api/operators".toList ++ joined '/' [id, name] =
      joined '/' ["api".toList, "operators".toList, id, name] := rfl
  have hsegments : segmentsOf ("/api/operators".toList ++ joined '/' [id, name]) =
      ["api".toList, "operators".toList, id, name] := by
    rw [hpath, segmentsOf]
    refine splitOn_joined (cons_ne_nil _ _) ?_
    simp only [forall_mem_cons]
    exact ⟨by decide, by decide, hid, hname, nofun⟩
  have hinstall : "/api/operators/install/".toList <+: "/api/operators".toList ++ joined '/' [id, name] ↔
      id = "install".toList := by
    have htext : "/api/operators/install/".toList =
      "/api/operators".toList ++ '/' :: ("install".toList ++ ['/']) := rfl
    rw [htext, prefix_append_right_inj, joined_cons, cons_prefix_cons,
      prefix_append_joined_closed (by decide) hid]
    simp [eq_comm]
  have hregister : "/api/operators/register-poll".toList <+:
      "/api/operators".toList ++ joined '/' [id, name] ↔ "register-poll".toList <+: id := by
    have htext : "/api/operators/register-poll".toList =
      "/api/operators".toList ++ '/' :: "register-poll".toList := rfl
    rw [htext, prefix_append_right_inj, joined_cons, cons_prefix_cons,
      prefix_append_joined (by decide)]
    simp
  have hunder : operatorsPath <+: "/api/operators".toList ++ joined '/' [id, name] := by
    rw [operatorsPath_eq, prefix_append_right_inj, joined_cons, cons_prefix_cons]
    exact ⟨rfl, nil_prefix⟩
  have hstart : (∃ s ∈ ["api".toList, "operators".toList, id, name],
      "poll".toList <+: s ∨ "heartbeat".toList <+: s) ↔
      "poll".toList <+: id ∨ "heartbeat".toList <+: id := by
    have hapi : ¬ ("poll".toList <+: "api".toList ∨ "heartbeat".toList <+: "api".toList) := by
      decide +kernel
    have hoperators :
        ¬ ("poll".toList <+: "operators".toList ∨ "heartbeat".toList <+: "operators".toList) := by
      decide +kernel
    simp only [exists_mem_cons_iff, hapi, hoperators, hpoll, hheartbeat, false_or, or_false,
      not_mem_nil, false_and, exists_false]
  have hwhole : "results".toList ∈ ["api".toList, "operators".toList, id, name].dropLast ↔
      id = "results".toList := by
    have hapi : "results".toList ≠ "api".toList := by decide +kernel
    have hoperators : "results".toList ≠ "operators".toList := by decide +kernel
    simp only [dropLast_cons_cons, dropLast_singleton, mem_cons, hapi, hoperators,
      not_mem_nil, false_or, or_false]
    exact eq_comm
  rw [isExempt_iff hunder, OffersExemption, hsegments, hinstall, hregister, hstart, hwhole, ExemptId]
  constructor
  · rintro (h | h | (h | h) | h)
    · exact .inr (.inr (.inr (.inr h)))
    · exact .inr (.inr (.inl h))
    · exact .inl h
    · exact .inr (.inl h)
    · exact .inr (.inr (.inr (.inl h)))
  · rintro (h | h | h | h | h)
    · exact .inr (.inr (.inl (.inl h)))
    · exact .inr (.inr (.inl (.inr h)))
    · exact .inr (.inl h)
    · exact .inr (.inr (.inr h))
    · exact .inl h

theorem isExempt_iff_exemptId {e : Endpoint} (he : e.valid = true) (hcovered : e.isCovered = false) :
    isExempt e.method e.path = true ↔ ExemptId e.operatorId := by
  cases e with
  | registerPoll | poll operatorId | results operatorId commandId | heartbeat operatorId =>
    cases hcovered
  | health operatorId =>
    exact isExempt_named_iff (not_slash_of_isParameter he) (by decide +kernel) (by decide +kernel)
      (by decide +kernel)
  | llmMetrics operatorId =>
    exact isExempt_named_iff (not_slash_of_isParameter he) (by decide +kernel) (by decide +kernel)
      (by decide +kernel)

end Endpoint

theorem Endpoint.method_ne_options (e : Endpoint) : e.method ≠ "OPTIONS".toList := by
  have hpost : "POST".toList ≠ "OPTIONS".toList := by decide +kernel
  have hget : "GET".toList ≠ "OPTIONS".toList := by decide +kernel
  cases e with
  | poll operatorId => exact hget
  | registerPoll | results operatorId commandId | heartbeat operatorId | health operatorId
  | llmMetrics operatorId => exact hpost

/-- When the exemptions are exact for a request without a user token: an operator's request to
`health` or `llm-metrics` is of an operator whose id is exempt by itself, and a path of operators that
is not an endpoint has no segment that starts like an exempt endpoint, and no preflight asks for it. -/
structure ExemptionsMeet (registered : Text → Bool) (r : Request) : Prop where
  endpoints : ∀ e : Endpoint, e.valid = true → r.method = e.method → r.path = e.path →
    (∃ token, validateOperatorToken registered r = .ok token) → e.isCovered = true ∨
      ExemptId e.operatorId
  exempt : operatorsPath <+: r.path → ¬ "/api/operators/install/".toList <+: r.path →
    IsEndpoint r.path ∨ (r.method ≠ "OPTIONS".toList ∧ ¬ OffersExemption r.path)

/-- The exemptions are exact for a request without a user token if and only if it asks for no endpoint
that they miss and for no other path that they match. -/
theorem operator_exemptions_exact_iff {hashing : Hashing} {s : Accounts} {now : ℚ}
    (registered : Text → Bool) {r : Request} (h : NoUserToken hashing s r now) :
    ExemptionsExact hashing s now registered r ↔ ExemptionsMeet registered r := by
  have hnext := dispatch_callNext_iff h
  constructor
  · intro hexact
    refine ⟨fun e he hmethod hpath htoken ↦ ?_, fun hunder hinstall ↦ ?_⟩
    · cases hcovered : e.isCovered with
      | true => exact .inl rfl
      | false =>
        refine .inr ((e.isExempt_iff_exemptId he hcovered).mp ?_)
        obtain hoptions | hexempt := hnext.mp (hexact.endpoints e he hmethod hpath htoken)
        · exact absurd (hmethod.symm.trans hoptions) e.method_ne_options
        · rwa [hmethod, hpath] at hexempt
    · by_cases hendpoint : IsEndpoint r.path
      · exact .inl hendpoint
      · have hrefused := fun hlet ↦ hendpoint (hexact.exempt hunder hinstall (hnext.mpr hlet))
        rw [isExempt_iff hunder] at hrefused
        exact .inr ⟨fun hoptions ↦ hrefused (.inl hoptions), fun hoffers ↦ hrefused (.inr (.inr hoffers))⟩
  · intro hmeet
    refine ⟨fun e he hmethod hpath htoken ↦ hnext.mpr (.inr ?_), fun hunder hinstall hlet ↦ ?_⟩
    · rw [hmethod, hpath]
      cases hcovered : e.isCovered with
      | true => exact e.isExempt_of_isCovered he hcovered
      | false =>
        obtain hbad | hid := hmeet.endpoints e he hmethod hpath htoken
        · rw [hcovered] at hbad
          cases hbad
        · exact (e.isExempt_iff_exemptId he hcovered).mpr hid
    · obtain hendpoint | ⟨hoptions, hoffers⟩ := hmeet.exempt hunder hinstall
      · exact hendpoint
      · obtain hopt | hexempt := hnext.mp hlet
        · exact absurd hopt hoptions
        · exact absurd ((isExempt_iff hunder _).mp hexempt) (not_or.mpr ⟨hinstall, hoffers⟩)

/-- A request of the operator `op1` with its registration token. -/
def operatorRequest (endpoint : String) : Request :=
  ⟨"POST".toList, "/api/operators/op1/".toList ++ endpoint.toList, some "Bearer bnk_reg_1".toList, []⟩

def isRegistered (token : Text) : Bool := token == "bnk_reg_1".toList

theorem operatorRequest_noUser (endpoint : String) :
    NoUserToken plainHashing (Accounts.init [] 0) (operatorRequest endpoint) 0 := by
  intro token user htoken huser
  obtain rfl : "bnk_reg_1".toList = token := Option.some.inj htoken
  cases huser

/-- The exemption for `heartbeat` is exact. -/
theorem operator_exemptions_exact_heartbeat :
    ExemptionsExact plainHashing (Accounts.init [] 0) 0 isRegistered (operatorRequest "heartbeat") := by
  refine (operator_exemptions_exact_iff isRegistered (operatorRequest_noUser _)).mpr
    ⟨fun e he _ hpath _ ↦ ?_, fun _ _ ↦ .inl ⟨.heartbeat "op1".toList, by decide +kernel, rfl⟩⟩
  have hlast : (segmentsOf (operatorRequest "heartbeat").path).getLast? = some "heartbeat".toList := by
    decide +kernel
  have hsegments := congrArg List.getLast? (Endpoint.segmentsOf_path he)
  rw [← hpath, hlast] at hsegments
  cases e with
  | registerPoll | poll _ | results _ _ | heartbeat _ => exact .inl rfl
  | health id =>
    have : "heartbeat".toList = "health".toList := Option.some.inj hsegments
    exact absurd this (by decide +kernel)
  | llmMetrics id =>
    have : "heartbeat".toList = "llm-metrics".toList := Option.some.inj hsegments
    exact absurd this (by decide +kernel)

/-- With its registration token an operator does not reach `health`. -/
theorem operator_exemptions_not_exact :
    NoUserToken plainHashing (Accounts.init [] 0) (operatorRequest "health") 0 ∧
      ¬ ExemptionsExact plainHashing (Accounts.init [] 0) 0 isRegistered (operatorRequest "health") := by
  refine ⟨operatorRequest_noUser _, fun hexact ↦ ?_⟩
  have hlet := hexact.endpoints (.health "op1".toList) (by decide +kernel) rfl rfl
    ⟨"bnk_reg_1".toList, by rfl⟩
  exact absurd hlet (by decide +kernel)

end BnkForge.Auth
