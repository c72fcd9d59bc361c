import BnkForge.Lib.PythonValue
import BnkForge.Lib.Transition
import BnkForge.Module.State
import Mathlib.Data.List.Chain

/-!
# The audit log of module transitions

`transition_module_status` and `_log_transition` (`backend/services/module_state.py:140–248`) with the
fenced write of `backend/services/module_lock.py:129–187`. Statuses are the texts that callers give. The
update and the audit row are two commits, and between them other sessions may write.
-/

namespace BnkForge.Module

open Lock Python Transition List

/-! ### Statuses as texts -/

def statusText : ModuleStatus → String
  | .notInitialized => "not_initialized"
  | .initialized => "initialized"
  | .initializing => "initializing"
  | .initFailed => "init_failed"
  | .planning => "planning"
  | .planned => "planned"
  | .planFailed => "plan_failed"
  | .applying => "applying"
  | .applied => "applied"
  | .applyFailed => "apply_failed"
  | .destroying => "destroying"
  | .destroyed => "destroyed"
  | .destroyFailed => "destroy_failed"
  | .failed => "failed"

/-- `ModuleStatus(text)`. -/
def statusOf (text : String) : Option ModuleStatus :=
  [.notInitialized, .initialized, .initializing, .initFailed, .planning, .planned, .planFailed,
    .applying, .applied, .applyFailed, .destroying, .destroyed, .destroyFailed, .failed].find?
    fun s ↦ statusText s = text

/-- `is_legal_transition`. -/
def isLegalText (fromStatus toStatus : String) : Bool :=
  fromStatus == toStatus ||
    match statusOf fromStatus, statusOf toStatus with
    | some a, some b => (allowedTransitions a).contains b
    | _, _ => false

/-! ### A transition -/

/-- A row of `module_state_transitions`. -/
structure AuditEntry where
  moduleId : Nat
  fromStatus : String
  toStatus : String
  taskId : Option Nat
  fenceToken : Option Nat
  reason : String
  deriving DecidableEq, Repr

/-- A call of `transition_module_status`. `seen` is `module.status` as the session has it loaded. -/
structure TransitionCall where
  seen : String
  toStatus : String
  lock : Option EntityLock
  taskId : Option Nat
  reason : String
  extraFields : List (String × Value)

inductive TransitionRaised
  | illegalTransition (moduleId : Nat) (fromStatus toStatus : String)
  | typeError
  | write (e : WriteError)
  deriving DecidableEq, Repr

/-- `{"status": to_status, **extra_fields}`. The marker of the state machine is no field. -/
def statusFields (toStatus : String) (extra : List (String × Value)) : List (String × Value) :=
  ("status", (extra.lookup "status").getD (.str toStatus)) :: extra.filter (·.1 ≠ "status")

theorem statusFields_ne (toStatus : String) (extra : List (String × Value)) :
    statusFields toStatus extra ≠ [] := cons_ne_nil _ _

def parameterNames : List String := ["db", "module", "lock", "entity", "table"]

/-- `(reason or "")[:500]`. -/
def clamped (reason : String) : String := String.ofList (reason.toList.take 500)

/-- The entry that `_log_transition` inserts. -/
def TransitionCall.entry (c : TransitionCall) (moduleId : Nat) : AuditEntry :=
  ⟨moduleId, c.seen, c.toStatus, c.taskId, c.lock.map EntityLock.fenceToken, clamped c.reason⟩

def writeTransition (c : TransitionCall) (row : Row Value) :
    Row Value × Except TransitionRaised AuditEntry :=
  if isLegalText c.seen c.toStatus = false then
    (row, .error (.illegalTransition row.id c.seen c.toStatus))
  else if c.seen = c.toStatus ∧ c.extraFields = [] then (row, .ok (c.entry row.id))
  else
    match c.lock with
    | some l =>
      if c.extraFields.any fun f ↦ parameterNames.contains f.1 then (row, .error .typeError)
      else
        match setLockedEntityFields .projectModules l (statusFields c.toStatus c.extraFields) row with
        | (row', .ok _) => (row', .ok (c.entry row.id))
        | (row', .error e) => (row', .error (.write e))
    -- without a lock the extra fields are ignored
    | none =>
      ({ row with cols := setColumns [("status", .str c.toStatus)] row.cols }, .ok (c.entry row.id))

structure AuditedModule where
  row : Row Value
  audit : List AuditEntry

/-- `transition_module_status`. -/
def transitionModule (c : TransitionCall) (m : AuditedModule) :
    AuditedModule × Except TransitionRaised Unit :=
  match writeTransition c m.row with
  | (row, .ok entry) => (⟨row, m.audit ++ [entry]⟩, .ok ())
  | (row, .error e) => (⟨row, m.audit⟩, .error e)

/-! ### A stale holder -/

def staleError (c : TransitionCall) (l : EntityLock) (row : Row Value) : TransitionRaised :=
  if isLegalText c.seen c.toStatus = false then .illegalTransition row.id c.seen c.toStatus
  else if c.extraFields.any fun f ↦ parameterNames.contains f.1 then .typeError
  else if disallowed .projectModules (statusFields c.toStatus c.extraFields) ≠ [] then
    .write (.disallowedColumns .projectModules
      (disallowed .projectModules (statusFields c.toStatus c.extraFields)))
  else .write (.lockLost .projectModules row.id l.fenceToken)

theorem writeTransition_stale {c : TransitionCall} {l : EntityLock} {row : Row Value}
    (hlock : c.lock = some l) (hstale : row.lockFenceToken ≠ l.fenceToken) :
    (writeTransition c row).1 = row ∧
      (¬ (c.seen = c.toStatus ∧ c.extraFields = []) →
        (writeTransition c row).2 = .error (staleError c l row)) := by
  unfold writeTransition staleError
  by_cases hlegal : isLegalText c.seen c.toStatus = false
  · rw [if_pos hlegal, if_pos hlegal]
    exact ⟨rfl, fun _ ↦ rfl⟩
  rw [if_neg hlegal, if_neg hlegal]
  by_cases hself : c.seen = c.toStatus ∧ c.extraFields = []
  · rw [if_pos hself]
    exact ⟨rfl, fun h ↦ absurd hself h⟩
  rw [if_neg hself, hlock]
  dsimp only
  by_cases hnames : (c.extraFields.any fun f ↦ parameterNames.contains f.1) = true
  · rw [if_pos hnames, if_pos hnames]
    exact ⟨rfl, fun _ ↦ rfl⟩
  rw [if_neg hnames, if_neg hnames, setLockedEntityFields, if_neg (statusFields_ne _ _)]
  by_cases hbad : disallowed .projectModules (statusFields c.toStatus c.extraFields) ≠ []
  · rw [if_pos hbad, if_pos hbad]
    exact ⟨rfl, fun _ ↦ rfl⟩
  · rw [if_neg hbad, if_neg hbad, if_neg hstale]
    exact ⟨rfl, fun _ ↦ rfl⟩

/-! ### Runs of transitions -/

/-- The module, its audit rows, and the entries of transitions whose update is committed and whose audit
row is not, by session. -/
structure Ledger where
  row : Row Value
  audit : List AuditEntry
  pending : List (Nat × AuditEntry)

inductive LedgerEvent
  | write (session : Nat) (c : TransitionCall)
  | log (session : Nat)
  /-- A statement of the lock. -/
  | relock (holdingTaskId : Option Nat) (heartbeatAt : Option Int) (fence : Nat)
    (lockAcquiredAt : Option Int)

def ledgerStep (s : Ledger) : LedgerEvent → Option Ledger
  | .write session c =>
    match writeTransition c s.row with
    | (row, .ok entry) =>
      if (s.pending.lookup session).isSome then none
      else some { s with row := row, pending := s.pending ++ [(session, entry)] }
    | (_, .error _) => none
  | .log session =>
    (s.pending.lookup session).map fun entry ↦
      { s with audit := s.audit ++ [entry], pending := s.pending.filter (·.1 ≠ session) }
  | .relock holdingTaskId heartbeatAt fence lockAcquiredAt =>
    some { s with row := { s.row with
      holdingTaskId := holdingTaskId, heartbeatAt := heartbeatAt, lockFenceToken := fence,
      lockAcquiredAt := lockAcquiredAt } }

def Chained (audit : List AuditEntry) : Prop :=
  audit.IsChain fun a b ↦ b.fromStatus = a.toStatus

def LeadsTo (audit : List AuditEntry) (row : Row Value) : Prop :=
  ∀ e ∈ audit.getLast?, row.cols "status" = .str e.toStatus

/-- A transition starts from the stored status, not between the two commits of another, and no extra field
is the status. -/
def OneAtATime (s : Ledger) : LedgerEvent → Prop
  | .write _ c => s.pending = [] ∧ s.row.cols "status" = .str c.seen ∧
      c.extraFields.lookup "status" = none
  | _ => True

theorem status_of_writeTransition {c : TransitionCall} {row row' : Row Value} {entry : AuditEntry}
    (h : writeTransition c row = (row', .ok entry)) (hseen : row.cols "status" = .str c.seen)
    (hextra : c.extraFields.lookup "status" = none) :
    entry.fromStatus = c.seen ∧ row'.cols "status" = .str entry.toStatus := by
  unfold writeTransition at h
  split at h
  · cases h
  · split at h
    · next hself =>
      cases h
      exact ⟨rfl, hseen.trans (congrArg Value.str hself.1)⟩
    · split at h
      · next l hlock =>
        split at h
        · cases h
        · split at h
          · next row'' hset =>
            cases h
            refine ⟨rfl, ?_⟩
            unfold setLockedEntityFields at hset
            split at hset
            · next hnil => cases hnil
            · split at hset
              · cases hset
              · split at hset
                · cases hset
                  simp only [setColumns, statusFields, hextra, lookup_cons, beq_self_eq_true,
                    Option.getD_none, TransitionCall.entry]
                · cases hset
          · cases h
      · cases h
        exact ⟨rfl, by simp [setColumns, TransitionCall.entry]⟩

theorem chained_append {audit : List AuditEntry} {entry : AuditEntry} (h : Chained audit)
    (hlast : ∀ e ∈ audit.getLast?, entry.fromStatus = e.toStatus) : Chained (audit ++ [entry]) :=
  List.IsChain.append h (isChain_singleton _) fun e he f hf ↦ by
    cases hf
    exact hlast e he

/-- Along a run in which transitions take turns, what is logged and what is about to be logged chain up
to the status of the row. -/
def TakesTurns (s : Ledger) : Prop :=
  Chained (s.audit ++ s.pending.map Prod.snd) ∧ LeadsTo (s.audit ++ s.pending.map Prod.snd) s.row ∧
    s.pending.length ≤ 1

theorem takesTurns_step {s t : Ledger} {e : LedgerEvent} (hs : TakesTurns s) (hok : OneAtATime s e)
    (h : ledgerStep s e = some t) : TakesTurns t := by
  obtain ⟨hchain, hleads, hlen⟩ := hs
  cases e with
  | write session c =>
    obtain ⟨hnone, hseen, hextra⟩ := hok
    rw [hnone, map_nil, append_nil] at hchain hleads
    rw [ledgerStep, hnone] at h
    split at h
    · next row entry hwrite =>
      obtain ⟨hfrom, hto⟩ := status_of_writeTransition hwrite hseen hextra
      cases h
      refine ⟨chained_append hchain fun e he ↦ ?_, fun e he ↦ ?_, Nat.le_refl 1⟩
      · have hstatus := (hleads e he).symm.trans hseen
        rw [hfrom, Value.str.inj hstatus]
      · rw [getLast?_append, nil_append, map_singleton, getLast?_singleton,
          Option.some_or, Option.mem_some_iff] at he
        exact he ▸ hto
    · cases h
  | log session =>
    obtain ⟨entry, hlookup, rfl⟩ := Option.map_eq_some_iff.mp h
    match hpending : s.pending, hlen with
    | [], _ =>
      rw [hpending] at hlookup
      cases hlookup
    | [(k, e)], _ =>
      rw [hpending, lookup_cons] at hlookup
      cases hk : session == k with
      | false =>
        rw [hk] at hlookup
        cases hlookup
      | true =>
        rw [hk] at hlookup
        cases hlookup
        rw [hpending] at hchain hleads
        have hgone : List.filter (fun p : Nat × AuditEntry ↦ decide (p.1 ≠ session)) [(k, entry)] = [] := by
          simp [eq_of_beq hk]
        refine ⟨?_, ?_, ?_⟩ <;> dsimp only <;> rw [hgone]
        · exact (append_nil _).symm ▸ hchain
        · exact (append_nil _).symm ▸ hleads
        · exact Nat.zero_le 1
  | relock holdingTaskId heartbeatAt fence lockAcquiredAt =>
    cases h
    exact ⟨hchain, hleads, hlen⟩

/-- A stale holder never changes the row, and unless the call is for the status that the module has,
without extra fields, it raises and the audit log is unchanged. In runs in which transitions take turns the
audit entries chain. -/
theorem stale_holder_cannot_transition :
    (∀ (c : TransitionCall) (l : EntityLock) (m : AuditedModule), c.lock = some l →
      m.row.lockFenceToken ≠ l.fenceToken →
      (transitionModule c m).1.row = m.row ∧
        (¬ (c.seen = c.toStatus ∧ c.extraFields = []) →
          transitionModule c m = (m, .error (staleError c l m.row)))) ∧
    ∀ (s t : Ledger) (es : List LedgerEvent), Run ledgerStep OneAtATime s es t → s.pending = [] →
      Chained s.audit → LeadsTo s.audit s.row → Chained t.audit := by
  constructor
  · intro c l m hlock hstale
    obtain ⟨hrow, hraise⟩ := writeTransition_stale hlock hstale
    refine ⟨?_, fun hself ↦ ?_⟩
    · unfold transitionModule
      split
      · next h => exact (congrArg Prod.fst h).symm.trans hrow
      · next h => exact (congrArg Prod.fst h).symm.trans hrow
    · have h : writeTransition c m.row = (m.row, .error (staleError c l m.row)) :=
        Prod.ext hrow (hraise hself)
      rw [transitionModule, h]
  · intro s t es hrun hnone hchain hleads
    have hs : TakesTurns s := by
      rw [TakesTurns, hnone, List.map_nil, List.append_nil]
      exact ⟨hchain, hleads, Nat.zero_le 1⟩
    have ht := hrun.invariant hs fun _ _ _ ha hok hstep ↦ takesTurns_step ha hok hstep
    exact (List.isChain_append.mp ht.1).1

/-- An applied module whose fence token is 2. -/
def appliedRow : Row Value := ⟨1, none, none, 2, none, fun c ↦ if c = "status" then .str "applied" else .none⟩

def staleCall (seen toStatus : String) (extra : List (String × Value)) : TransitionCall :=
  ⟨seen, toStatus, some ⟨1, 7, 1, .projectModules⟩, some 7, "", extra⟩

theorem stale_call_rejected :
    transitionModule (staleCall "applied" "planning" []) ⟨appliedRow, []⟩ =
      (⟨appliedRow, []⟩, .error (staleError (staleCall "applied" "planning" [])
        ⟨1, 7, 1, .projectModules⟩ appliedRow)) :=
  (stale_holder_cannot_transition.1 (staleCall "applied" "planning" []) ⟨1, 7, 1, .projectModules⟩
    ⟨appliedRow, []⟩ rfl (by decide)).2 (by decide)

/-- What is raised is the lost lock only where the target is legal and the fields are columns; and where
one session starts before another has finished, the entries do not chain. -/
theorem stale_illegal_and_unchained :
    (¬ ∀ (c : TransitionCall) (l : EntityLock) (m : AuditedModule), c.lock = some l →
      m.row.lockFenceToken ≠ l.fenceToken →
      transitionModule c m = (m, .error (.write (.lockLost .projectModules m.row.id l.fenceToken)))) ∧
    ¬ ∀ (s t : Ledger) (es : List LedgerEvent), Run ledgerStep Free s es t → s.pending = [] →
      Chained s.audit → LeadsTo s.audit s.row → Chained t.audit := by
  constructor
  · intro h
    have hraised := congrArg Prod.snd (h (staleCall "applied" "initialized" []) _ ⟨appliedRow, []⟩ rfl
      (by decide))
    revert hraised
    decide
  · intro h
    let first : TransitionCall := ⟨"applied", "planning", none, none, "", []⟩
    let second : TransitionCall := ⟨"applied", "destroying", none, none, "", []⟩
    have hrun : Run ledgerStep Free ⟨appliedRow, [], []⟩ [.write 1 first, .log 1, .write 2 second, .log 2]
        _ := .cons trivial rfl (.cons trivial rfl (.cons trivial rfl (.cons trivial rfl (.nil _))))
    have hchain := h _ _ _ hrun rfl List.isChain_nil (fun _ he ↦ by cases he)
    have hpair : ("applied" : String) = "planning" := (List.isChain_cons_cons.mp hchain).1
    revert hpair
    decide

end BnkForge.Module
