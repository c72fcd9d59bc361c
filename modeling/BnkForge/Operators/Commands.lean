import BnkForge.Operators.Connections

/-!
# Whose messages a command takes

`handle_message` finds a command by the id in the message and does not look at the operator that sent
it. Where operators name only commands that were sent to them, a call gets its own operator's results,
errors and lines; and no call leaves an entry in the tables.
-/

namespace BnkForge.Operators

open Python Transition

/-! ### What a call gets -/

def Outcome.From (operatorId : String) : Outcome → Prop
  | .returned sender _ lines => sender = operatorId ∧ ∀ line ∈ lines, line.sender = operatorId
  | .raised sender _ => sender = operatorId
  | .connectionError _ | .timeoutError | .interrupted => True

def AnsweredByAsked (s : Hub) : Prop :=
  ∀ n call, s.calls n = some call → (∀ outcome ∈ call.outcome, outcome.From call.operatorId) ∧
    ∀ line ∈ call.streamed, line.sender = call.operatorId

def LeavesNoEntry (s : Hub) (e : HubEvent) (t : Hub) : Prop :=
  match e with
  | .endCommand n _ => ∀ call ∈ s.calls n, t.pendingCommands call.commandId = none ∧
    t.commandOutput call.commandId = none ∧ t.outputCallbacks call.commandId = none
  | _ => True

def NamesOwnCommands (s : Hub) : HubEvent → Prop
  | .message h message => ∀ handler ∈ s.handlers h, ∀ id ∈ commandOf message,
    ((message.get "type").isText "output" = true →
      ∀ n ∈ s.commandOutput id, ∀ call ∈ s.calls n, call.operatorId = handler.operatorId) ∧
    ((message.get "type").isText "result" = true ∨ (message.get "type").isText "error" = true →
      ∀ n ∈ s.pendingCommands id, ∀ call ∈ s.calls n, call.future.done = false →
        call.operatorId = handler.operatorId)
  | _ => True

/-! ### What the runs keep -/

def Indexes (s : Hub) (table : String → Option Nat) : Prop :=
  ∀ id n, table id = some n → ∃ call, s.calls n = some call ∧ call.commandId = id

def Future.From (s : Hub) (operatorId : String) : Future → Prop
  | .pending | .disconnected _ => True
  | .result sender _ lines => sender = operatorId ∧
    ∀ n ∈ lines, ∃ call, s.calls n = some call ∧ call.operatorId = operatorId
  | .error sender _ => sender = operatorId

/-- The call has nothing that another operator has sent. -/
structure Call.Authentic (s : Hub) (call : Call) : Prop where
  outcome : ∀ outcome ∈ call.outcome, outcome.From call.operatorId
  streamed : ∀ line ∈ call.streamed, line.sender = call.operatorId
  future : call.future.From s call.operatorId
  lines : ∀ line ∈ call.lines, line.sender = call.operatorId

structure CommandInv (s : Hub) : Prop where
  calls : ∀ n call, s.calls n = some call → call.Authentic s
  ids : ∀ n call, s.calls n = some call →
    ∃ hex : String, hex.length = 12 ∧ call.commandId = Hub.commandId call.operatorId hex
  pending : Indexes s s.pendingCommands
  output : Indexes s s.commandOutput
  callbacks : Indexes s s.outputCallbacks

theorem commandId_inj {operatorId operatorId' hex hex' : String} (h : hex.length = 12)
    (h' : hex'.length = 12)
    (hids : Hub.commandId operatorId hex = Hub.commandId operatorId' hex') :
    operatorId = operatorId' := by
  have hlists := congrArg String.toList hids
  simp only [Hub.commandId, String.toList_append, List.append_assoc] at hlists
  refine String.toList_injective (List.append_inj_left' hlists ?_)
  simp only [List.length_append, String.length_toList, h, h']

section

variable {s t : Hub} {n : Nat} {call : Call}

theorem CommandInv.answeredByAsked (h : CommandInv s) : AnsweredByAsked s := fun n call hcall ↦
  ⟨(h.calls n call hcall).outcome, (h.calls n call hcall).streamed⟩

theorem CommandInv.operatorId_eq (h : CommandInv s) {m : Nat} {other : Call}
    (hcall : s.calls n = some call) (hother : s.calls m = some other)
    (hids : call.commandId = other.commandId) : call.operatorId = other.operatorId := by
  obtain ⟨hex, hlength, hid⟩ := h.ids n call hcall
  obtain ⟨hex', hlength', hid'⟩ := h.ids m other hother
  exact commandId_inj hlength hlength' (hid ▸ hid' ▸ hids)

/-- The calls change, but not whom they are for, and the tables get no entries. -/
structure CallUpdate (s t : Hub) (change : Nat → Call → Call) : Prop where
  calls : ∀ n, t.calls n = (s.calls n).map (change n)
  operatorId : ∀ n call, (change n call).operatorId = call.operatorId
  commandId : ∀ n call, (change n call).commandId = call.commandId
  pending : ∀ id n, t.pendingCommands id = some n → s.pendingCommands id = some n
  output : ∀ id n, t.commandOutput id = some n → s.commandOutput id = some n
  callbacks : ∀ id n, t.outputCallbacks id = some n → s.outputCallbacks id = some n

theorem Future.From.mono {future : Future} {operatorId : String} (h : future.From s operatorId)
    (hcalls : ∀ n call, s.calls n = some call →
      ∃ call', t.calls n = some call' ∧ call'.operatorId = call.operatorId) :
    future.From t operatorId := by
  cases future with
  | result sender message lines =>
    refine ⟨h.1, fun n hn ↦ ?_⟩
    obtain ⟨call, hcall, hoperator⟩ := h.2 n hn
    obtain ⟨call', hcall', hsame⟩ := hcalls n call hcall
    exact ⟨call', hcall', hsame.trans hoperator⟩
  | _ => exact h

theorem CommandInv.update (h : CommandInv s) (change : Nat → Call → Call)
    (hchange : CallUpdate s t change)
    (hauthentic : ∀ n call, s.calls n = some call → (change n call).Authentic s) :
    CommandInv t := by
  have hkept : ∀ n call, s.calls n = some call →
      t.calls n = some (change n call) := fun n call hcall ↦ by
    rw [hchange.calls, hcall, Option.map_some]
  have hindexes : ∀ {table table' : String → Option Nat}, Indexes s table →
      (∀ id n, table' id = some n → table id = some n) → Indexes t table' := by
    intro table table' htable hsub id n hn
    obtain ⟨call, hcall, hid⟩ := htable id n (hsub id n hn)
    exact ⟨_, hkept n call hcall, (hchange.commandId n call).trans hid⟩
  have hcall_of : ∀ n call', t.calls n = some call' →
      ∃ call, s.calls n = some call ∧ change n call = call' := fun n call' hcall' ↦ by
    rw [hchange.calls] at hcall'
    exact Option.map_eq_some_iff.mp hcall'
  refine ⟨fun n call' hcall' ↦ ?_, fun n call' hcall' ↦ ?_, hindexes h.pending hchange.pending,
    hindexes h.output hchange.output, hindexes h.callbacks hchange.callbacks⟩
  · obtain ⟨call, hcall, rfl⟩ := hcall_of n call' hcall'
    have hcall' := hauthentic n call hcall
    exact { hcall' with
      future := hcall'.future.mono fun m other hother ↦
        ⟨_, hkept m other hother, hchange.operatorId m other⟩ }
  · obtain ⟨call, hcall, rfl⟩ := hcall_of n call' hcall'
    rw [hchange.operatorId, hchange.commandId]
    exact h.ids n call hcall

theorem CommandInv.of_calls (h : CommandInv s) (hcalls : t.calls = s.calls)
    (hpending : ∀ id n, t.pendingCommands id = some n → s.pendingCommands id = some n)
    (houtput : ∀ id n, t.commandOutput id = some n → s.commandOutput id = some n)
    (hcallbacks : ∀ id n, t.outputCallbacks id = some n → s.outputCallbacks id = some n) :
    CommandInv t :=
  h.update (fun _ call ↦ call)
    ⟨fun n ↦ by rw [hcalls, Option.map_id_fun', id], fun _ _ ↦ rfl, fun _ _ ↦ rfl, hpending, houtput,
      hcallbacks⟩ h.calls

theorem CommandInv.of_eq (h : CommandInv s) (hcalls : t.calls = s.calls)
    (hpending : t.pendingCommands = s.pendingCommands) (houtput : t.commandOutput = s.commandOutput)
    (hcallbacks : t.outputCallbacks = s.outputCallbacks) : CommandInv t :=
  h.of_calls hcalls (fun _ _ hn ↦ hpending ▸ hn) (fun _ _ hn ↦ houtput ▸ hn)
    fun _ _ hn ↦ hcallbacks ▸ hn

theorem CommandInv.updateCall (h : CommandInv s) {change : Call → Call}
    (hoperator : ∀ call, (change call).operatorId = call.operatorId)
    (hid : ∀ call, (change call).commandId = call.commandId)
    (hauthentic : ∀ call, s.calls n = some call → (change call).Authentic s) :
    CommandInv (s.updateCall n change) := by
  refine h.update (fun m call ↦ if m = n then change call else call)
    ⟨fun m ↦ ?_, fun m call ↦ ?_, fun m call ↦ ?_, fun _ _ ↦ id, fun _ _ ↦ id, fun _ _ ↦ id⟩
    fun m call hcall ↦ ?_
  · rcases eq_or_ne m n with rfl | hne
    · simp only [Hub.updateCall, Function.update_self, if_true]
    · simp only [Hub.updateCall, Function.update_of_ne hne, if_neg hne, Option.map_id_fun', id]
  · split
    · exact hoperator call
    · rfl
  · split
    · exact hid call
    · rfl
  · split
    · next hm =>
      subst hm
      exact hauthentic call hcall
    · exact h.calls m call hcall

/-! ### The operations -/

theorem CommandInv.output_step (h : CommandInv s) {sender id : String} {text : Value}
    (hsender : ∀ n call, s.commandOutput id = some n → s.calls n = some call →
      call.operatorId = sender) : CommandInv (s.output sender id text) := by
  unfold Hub.output
  split
  · exact h
  · next n hn =>
    obtain ⟨call, hcall, hid⟩ := h.output id n hn
    have hlines : CommandInv (s.updateCall n fun call ↦
        { call with lines := call.lines ++ [⟨sender, text⟩] }) := by
      refine h.updateCall (fun _ ↦ rfl) (fun _ ↦ rfl) fun found hfound ↦ ?_
      have hauthentic := h.calls n found hfound
      refine { hauthentic with lines := fun line hline ↦ ?_ }
      rcases List.mem_append.mp hline with hline | hline
      · exact hauthentic.lines line hline
      · cases List.mem_singleton.mp hline
        exact (hsender n found hn hfound).symm
    dsimp only
    split
    · exact hlines
    · next m hm =>
      refine hlines.updateCall (fun _ ↦ rfl) (fun _ ↦ rfl) fun found hfound ↦ ?_
      have hauthentic := hlines.calls m found hfound
      refine { hauthentic with streamed := fun line hline ↦ ?_ }
      rcases List.mem_append.mp hline with hline | hline
      · exact hauthentic.streamed line hline
      · -- the callback is that of a call of the same command, which is for the same operator
        cases List.mem_singleton.mp hline
        obtain ⟨streaming, hstreaming, hid'⟩ := hlines.callbacks id m hm
        cases hstreaming.symm.trans hfound
        obtain ⟨collecting, hcollecting, hid''⟩ := hlines.output id n hn
        have hsame := hlines.operatorId_eq hfound hcollecting (hid'.trans hid''.symm)
        have hcollected : collecting.operatorId = call.operatorId := by
          simp only [Hub.updateCall, Function.update_self, hcall, Option.map_some,
            Option.some.injEq] at hcollecting
          rw [← hcollecting]
        exact ((hsame.trans hcollected).trans (hsender n call hn hcall)).symm

theorem CommandInv.settle_step (h : CommandInv s) {id : String} {future : Future}
    (hfuture : ∀ n call, s.pendingCommands id = some n → s.calls n = some call →
      call.future.done = false → future.From s call.operatorId) :
    CommandInv (s.settle id future) := by
  unfold Hub.settle
  split
  · exact h
  · next n hn =>
    refine h.updateCall (fun call ↦ ?_) (fun call ↦ ?_) fun call hcall ↦ ?_
    · split <;> rfl
    · split <;> rfl
    · split
      · exact h.calls n call hcall
      · next hdone =>
        exact { h.calls n call hcall with
          future := hfuture n call hn hcall (Bool.not_eq_true _ ▸ hdone) }

theorem CommandInv.unregister (h : CommandInv s) {operatorId reason : String} :
    CommandInv (s.unregister operatorId reason) := by
  refine h.update _ ⟨fun n ↦ rfl, fun n call ↦ ?_, fun n call ↦ ?_, fun id n hn ↦ ?_, fun id n hn ↦ ?_,
    fun id n hn ↦ ?_⟩ fun n call hcall ↦ ?_
  · split <;> rfl
  · split <;> rfl
  · simp only [Hub.unregister] at hn
    split at hn
    · cases hn
    · exact hn
  · simp only [Hub.unregister] at hn
    split at hn
    · cases hn
    · exact hn
  · simp only [Hub.unregister] at hn
    split at hn
    · cases hn
    · exact hn
  · split
    · exact { h.calls n call hcall with future := trivial }
    · exact h.calls n call hcall

theorem CommandInv.awaited (h : CommandInv s) (hcall : s.calls n = some call) {outcome : Outcome}
    (houtcome : s.awaited call.future = some outcome) : outcome.From call.operatorId := by
  have hfuture := (h.calls n call hcall).future
  cases hf : call.future with
  | pending =>
    rw [hf] at houtcome
    cases houtcome
  | result sender message lines =>
    rw [hf] at houtcome hfuture
    cases houtcome
    refine ⟨hfuture.1, fun line hline ↦ ?_⟩
    cases lines with
    | none => exact absurd hline List.not_mem_nil
    | some m =>
      obtain ⟨collecting, hcollecting, hoperator⟩ := hfuture.2 m rfl
      simp only [Hub.linesOf, Option.bind_some, hcollecting, Option.map_some,
        Option.getD_some] at hline
      exact ((h.calls m collecting hcollecting).lines line hline).trans hoperator
  | error sender text =>
    rw [hf] at houtcome hfuture
    cases houtcome
    exact hfuture
  | disconnected reason =>
    rw [hf] at houtcome
    cases houtcome
    trivial

theorem CommandInv.endCommand (h : CommandInv s) (hcall : s.calls n = some call) {outcome : Outcome}
    (houtcome : outcome.From call.operatorId) : CommandInv (s.endCommand n call outcome) := by
  have hended : CommandInv (s.updateCall n fun call ↦ { call with outcome := some outcome }) := by
    refine h.updateCall (fun _ ↦ rfl) (fun _ ↦ rfl) fun found hfound ↦ ?_
    cases hcall.symm.trans hfound
    refine { h.calls n call hcall with outcome := fun found hfound ↦ ?_ }
    cases hfound
    exact houtcome
  have hpopped : ∀ (table : String → Option Nat) (id : String) (m : Nat),
      Function.update table call.commandId none id = some m → table id = some m := by
    intro table id m hm
    rcases eq_or_ne id call.commandId with rfl | hne
    · rw [Function.update_self] at hm
      cases hm
    · rwa [Function.update_of_ne hne] at hm
  exact hended.of_calls rfl (hpopped _) (hpopped _) (hpopped _)

theorem CommandInv.send (h : CommandInv s) {c : Nat} {operatorId hex : String} {streams : Bool}
    (hnew : s.calls n = none) (hlength : hex.length = 12) :
    CommandInv (s.sendCommand n c operatorId hex streams) := by
  have hkept : ∀ m call, s.calls m = some call →
      (s.sendCommand n c operatorId hex streams).calls m = some call := by
    intro m call hcall
    have hne : m ≠ n := fun heq ↦ by cases (heq ▸ hcall).symm.trans hnew
    simp only [Hub.sendCommand, Function.update_of_ne hne]
    exact hcall
  have hnow : (s.sendCommand n c operatorId hex streams).calls n =
      some { operatorId, commandId := Hub.commandId operatorId hex, connection := c } := by
    simp only [Hub.sendCommand, Function.update_self]
  have hsplit : ∀ m call, (s.sendCommand n c operatorId hex streams).calls m = some call →
      call = { operatorId, commandId := Hub.commandId operatorId hex, connection := c } ∨
        s.calls m = some call := by
    intro m call hcall
    rcases eq_or_ne m n with rfl | hne
    · exact Or.inl (Option.some.inj (hcall.symm.trans hnow))
    · simp only [Hub.sendCommand, Function.update_of_ne hne] at hcall
      exact Or.inr hcall
  have hold : ∀ table : String → Option Nat, Indexes s table →
      Indexes (s.sendCommand n c operatorId hex streams) table := by
    intro table htable id m hm
    obtain ⟨call, hcall, hid⟩ := htable id m hm
    exact ⟨call, hkept m call hcall, hid⟩
  have hentered : ∀ table : String → Option Nat, Indexes s table →
      Indexes (s.sendCommand n c operatorId hex streams)
        (Function.update table (Hub.commandId operatorId hex) (some n)) := by
    intro table htable id m hm
    rcases eq_or_ne id (Hub.commandId operatorId hex) with rfl | hne
    · rw [Function.update_self] at hm
      cases hm
      exact ⟨_, hnow, rfl⟩
    · rw [Function.update_of_ne hne] at hm
      exact hold table htable id m hm
  refine ⟨fun m call hcall ↦ ?_, fun m call hcall ↦ ?_, hentered _ h.pending, hentered _ h.output, ?_⟩
  · rcases hsplit m call hcall with rfl | hcall
    · exact ⟨nofun, nofun, trivial, nofun⟩
    · have hauthentic := h.calls m call hcall
      exact { hauthentic with
        future := hauthentic.future.mono fun k other hother ↦ ⟨other, hkept k other hother, rfl⟩ }
  · rcases hsplit m call hcall with rfl | hcall
    · exact ⟨hex, hlength, rfl⟩
    · exact h.ids m call hcall
  · cases streams with
    | true => exact hentered _ h.callbacks
    | false => exact hold _ h.callbacks

theorem CommandInv.message (h : CommandInv s) {k : Nat} {message : Value} {handler : Handler}
    (hhandler : s.handlers k = some handler) (hok : NamesOwnCommands s (.message k message))
    (hreceive : s.receive handler.operatorId message = .ok t) : CommandInv t := by
  rcases Hub.receive_eq_ok hreceive with
    rfl | ⟨id, text, hconcerns, rfl⟩ | ⟨id, hconcerns, rfl⟩ | ⟨id, text, hconcerns, rfl⟩
  · exact h
  · exact h.output_step fun n call hn hcall ↦
      (hok handler hhandler id hconcerns.2).1 hconcerns.1 n hn call hcall
  · refine h.settle_step fun n call hn hcall hdone ↦ ?_
    have hoperator := (hok handler hhandler id hconcerns.2).2 (Or.inl hconcerns.1) n hn call hcall
      hdone
    refine ⟨hoperator.symm, fun m hm ↦ ?_⟩
    obtain ⟨collecting, hcollecting, hid⟩ := h.output id m hm
    obtain ⟨found, hfound, hid'⟩ := h.pending id n hn
    cases hcall.symm.trans hfound
    exact ⟨collecting, hcollecting, h.operatorId_eq hcollecting hcall (hid.trans hid'.symm)⟩
  · exact h.settle_step fun n call hn hcall hdone ↦
      ((hok handler hhandler id hconcerns.2).2 (Or.inr hconcerns.1) n hn call hcall hdone).symm

theorem CommandInv.step (h : CommandInv s) {e : HubEvent} (hok : NamesOwnCommands s e)
    (hst : hubStep s e = some t) : CommandInv t := by
  cases e with
  | accept k token body newId now =>
    simp only [hubStep] at hst
    split at hst
    · cases hst
      exact h.of_eq rfl rfl rfl rfl
    · cases hst
  | register k =>
    obtain ⟨handler, -, -, hst⟩ := Hub.inPhase_eq_some.mp hst
    split at hst
    · cases hst
      exact h.of_eq rfl rfl rfl rfl
    · cases hst
      exact h.of_eq rfl rfl rfl rfl
  | fail k =>
    obtain ⟨handler, -, hst⟩ := Option.bind_eq_some_iff.mp hst
    split at hst
    · cases hst
      exact h.of_eq rfl rfl rfl rfl
    · cases hst
  | message k message =>
    obtain ⟨handler, hhandler, -, hst⟩ := Hub.inPhase_eq_some.mp hst
    split at hst
    · next hreceive =>
      cases hst
      exact h.message hhandler hok hreceive
    · cases hst
      exact h.of_eq rfl rfl rfl rfl
  | unregister k =>
    obtain ⟨handler, -, -, hst⟩ := Hub.inPhase_eq_some.mp hst
    cases hst
    exact (h.of_eq (t := s.setPhase k handler .unregistered) rfl rfl rfl rfl).unregister
  | send n operatorId hex streams =>
    simp only [hubStep] at hst
    split at hst
    · next hnew =>
      obtain ⟨c, -, rfl⟩ := Option.map_eq_some_iff.mp hst
      exact h.send hnew.1 hnew.2
    · cases hst
  | sent n =>
    obtain ⟨call, -, hst⟩ := Option.bind_eq_some_iff.mp hst
    split at hst
    · cases hst
      refine h.updateCall (fun _ ↦ rfl) (fun _ ↦ rfl) fun found hfound ↦ ?_
      exact { h.calls n found hfound with }
    · cases hst
  | endCommand n ending =>
    obtain ⟨call, outcome, hcall, rfl, houtcome⟩ := endCommand_step hst
    refine h.endCommand hcall ?_
    rcases houtcome with houtcome | rfl | rfl
    · exact h.awaited hcall houtcome
    · trivial
    · trivial
  | remove operatorId =>
    cases hst
    exact h.unregister
  | disconnect k =>
    cases hst
    exact h.of_eq rfl rfl rfl rfl
  | commit db =>
    cases hst
    exact h.of_eq rfl rfl rfl rfl
  | replace k | confirm k | leave k | mark k now | finish k =>
    obtain ⟨handler, -, -, hst⟩ := Hub.inPhase_eq_some.mp hst
    cases hst
    exact h.of_eq rfl rfl rfl rfl

theorem leavesNoEntry {e : HubEvent} (hst : hubStep s e = some t) : LeavesNoEntry s e t := by
  cases e with
  | endCommand n ending =>
    obtain ⟨call, outcome, hcall, rfl, -⟩ := endCommand_step hst
    intro found hfound
    cases hcall.symm.trans hfound
    simp only [Hub.endCommand, Function.update_self, and_self]
  | _ => trivial

end

theorem commandInv_start (db : Registry) : CommandInv { db := db } :=
  ⟨nofun, nofun, nofun, nofun, nofun⟩

/-- No call leaves an entry in the tables; and where messages name commands of their own operator, a
call gets what the operator that it asked has sent. -/
theorem commands_answered_by_asked (db : Registry) {es : List HubEvent} {s : Hub}
    (h : Run hubStep Free { db := db } es s) :
    AllSteps hubStep LeavesNoEntry { db := db } es ∧
      (Run hubStep NamesOwnCommands { db := db } es s →
        AllSteps hubStep (fun s e t ↦ AnsweredByAsked t ∧ LeavesNoEntry s e t) { db := db } es) := by
  refine ⟨h.allSteps (I := fun _ ↦ True) trivial fun _ _ _ _ _ hst ↦ ⟨trivial, leavesNoEntry hst⟩,
    fun hown ↦ hown.allSteps (commandInv_start db) fun _ _ _ hinv hok hst ↦ ?_⟩
  have hb := hinv.step hok hst
  exact ⟨hb, hb.answeredByAsked, leavesNoEntry hst⟩

/-! ### Two operators -/

/-- The operators `op-1` and `op-2`. -/
def twoOperators : Registry where
  tokens := [{ id := 1, tokenHash := [] }]
  operators := [{ operatorId := "op-1", registrationTokenId := some 1, clusterName := "edge" },
    { operatorId := "op-2", registrationTokenId := some 1, clusterName := "core" }]
  ids := oneToken_ids
  hashes := oneToken_hashes

instance (s : Hub) (e : HubEvent) : Decidable (NamesOwnCommands s e) :=
  match e with
  | .message h message => inferInstanceAs (Decidable (∀ handler ∈ s.handlers h,
      ∀ id ∈ commandOf message,
      ((message.get "type").isText "output" = true →
        ∀ n ∈ s.commandOutput id, ∀ call ∈ s.calls n, call.operatorId = handler.operatorId) ∧
      ((message.get "type").isText "result" = true ∨ (message.get "type").isText "error" = true →
        ∀ n ∈ s.pendingCommands id, ∀ call ∈ s.calls n, call.future.done = false →
          call.operatorId = handler.operatorId)))
  | .accept .. | .register _ | .replace _ | .confirm _ | .fail _ | .disconnect _ | .leave _
  | .unregister _ | .mark .. | .finish _ | .send .. | .sent _ | .endCommand .. | .remove _
  | .commit _ => isTrue trivial

instance (operatorId : String) (outcome : Outcome) : Decidable (outcome.From operatorId) :=
  match outcome with
  | .returned sender _ lines =>
    inferInstanceAs (Decidable (sender = operatorId ∧ ∀ line ∈ lines, line.sender = operatorId))
  | .raised sender _ => inferInstanceAs (Decidable (sender = operatorId))
  | .connectionError _ | .timeoutError | .interrupted => isTrue trivial

def resultOf (id : String) : Value :=
  .dict [("type", .str "result"), ("command_id", .str id), ("success", .bool true)]

/-- Both operators are connected, and `op-1` is asked. -/
def asked : List HubEvent :=
  [.accept 0 { id := 1, tokenHash := [] } { clusterName := "edge" } "new" 0, .register 0, .confirm 0,
    .accept 1 { id := 1, tokenHash := [] } { clusterName := "core" } "new" 0, .register 1, .confirm 1,
    .send 0 "op-1" "0123456789ab" true, .sent 0]

def answered : List HubEvent :=
  asked ++ [.message 0 (.dict [("type", .str "output"), ("command_id", .str "op-1:0123456789ab"),
    ("line", .str "ok")]), .message 0 (resultOf "op-1:0123456789ab"), .endCommand 0 .awaited]

theorem answered_by_asked :
    ∃ s, Run hubStep NamesOwnCommands { db := twoOperators } answered s ∧
      (∃ call ∈ s.calls 0, call.outcome.isSome = true ∧ call.streamed.length = 1) ∧
      AllSteps hubStep LeavesNoEntry { db := twoOperators } answered ∧
      AllSteps hubStep (fun s e t ↦ AnsweredByAsked t ∧ LeavesNoEntry s e t) { db := twoOperators }
        answered := by
  obtain ⟨s, hrun, hcall⟩ : ∃ s, Run hubStep NamesOwnCommands { db := twoOperators } answered s ∧
      ∃ call ∈ s.calls 0, call.outcome.isSome = true ∧ call.streamed.length = 1 :=
    Run.exists_of_exec (by decide +kernel)
  obtain ⟨hentries, hasked⟩ := commands_answered_by_asked twoOperators hrun.free
  exact ⟨s, hrun, hcall, hentries, hasked hrun⟩

/-- The other operator names the command in a result of its own. -/
def forged : List HubEvent := asked ++ [.message 1 (resultOf "op-1:0123456789ab")]

/-- The call returns what an operator sent that it did not ask. -/
theorem forged_not_answered_by_asked :
    (∃ s, Run hubStep Free { db := twoOperators } (forged ++ [.endCommand 0 .awaited]) s ∧
      ¬ AnsweredByAsked s) ∧
    ¬ ∀ db es s, Run hubStep Free { db := db } es s →
      AllSteps hubStep (fun s e t ↦ AnsweredByAsked t ∧ LeavesNoEntry s e t) { db := db } es := by
  obtain ⟨s, hrun, call, hcall, outcome, houtcome, hfrom⟩ : ∃ s, Run hubStep Free
      { db := twoOperators } (forged ++ [.endCommand 0 .awaited]) s ∧ ∃ call ∈ s.calls 0,
        ∃ outcome ∈ call.outcome, ¬ outcome.From call.operatorId :=
    Run.exists_of_exec (by decide +kernel)
  have hnot : ¬ AnsweredByAsked s := fun h ↦ hfrom ((h 0 call hcall).1 outcome houtcome)
  refine ⟨⟨s, hrun, hnot⟩, fun h ↦ ?_⟩
  obtain ⟨t, -, hanswered, -⟩ := hrun.related_last (h _ _ _ hrun)
  exact hnot hanswered

end BnkForge.Operators
