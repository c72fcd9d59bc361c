import BnkForge.Lib.Assoc
import BnkForge.Lib.PythonValue
import BnkForge.Lib.Transition
import Mathlib.Data.List.Nodup
import Mathlib.Data.List.Sort

/-!
# The command queue of polling operators

`poll_commands` and `submit_result` (`backend/routes/operator_polling.py:167–301`), `enqueue_command`
(`:395–425`) and `cleanup_expired_commands` (`backend/services/operator_registry.py:281–307`). A
request reads the rows that it is about, decides, and commits its changes later, without a lock and
without looking at the rows again. What a request checks before it reads the queue is left out.
-/

namespace BnkForge.Operators

open Python Transition List

/-! ### The table -/

/-- `OperatorCommandStatus`. -/
inductive CommandStatus
  | queued
  | pickedUp
  | completed
  | failed
  | expired
  deriving DecidableEq, Repr

def CommandStatus.isFinal : CommandStatus → Bool
  | .completed | .failed | .expired => true
  | .queued | .pickedUp => false

/-- A row of `operator_command_queue`; times are in seconds. -/
structure Command where
  commandId : String
  operatorId : String
  action : String := ""
  payload : Value := .dict []
  timeoutSeconds : Int := 300
  status : CommandStatus := .queued
  pickedUpAt : Option ℚ := none
  result : Value := .none
  outputLines : List Value := []
  errorMessage : Option String := none
  createdAt : ℚ
  completedAt : Option ℚ := none

/-- `CommandResultSubmission`, without the duration, which is not stored. -/
structure Submission where
  success : Bool
  result : Value := .none
  outputLines : List Value := []
  errorMessage : Option String := none

/-- What a request changes in a row. -/
inductive Change
  | pickUp (now : ℚ)
  | expire (now : ℚ) (message : String)
  | finish (now : ℚ) (body : Submission)

def Change.apply : Change → Command → Command
  | .pickUp now, cmd => { cmd with status := .pickedUp, pickedUpAt := some now }
  | .expire now message, cmd =>
    { cmd with status := .expired, completedAt := some now, errorMessage := some message }
  | .finish now body, cmd =>
    { cmd with
      status := if body.success then .completed else .failed
      result := body.result.orElse (.dict [])
      outputLines := body.outputLines
      errorMessage := body.errorMessage
      completedAt := some now }

/-- The changes of the rows that a request has read, by their command ids. -/
abbrev Changes := List (String × Change)

def Command.update (changes : Changes) (cmd : Command) : Command :=
  match changes.lookup cmd.commandId with
  | some change => change.apply cmd
  | none => cmd

/-- The queue, the requests that have read and not committed, the commands that polls have returned
and the commands whose result has been recorded. The program does not keep the last two. -/
structure Queue where
  commands : List Command
  requests : Nat → Option Changes
  returned : List String
  recorded : List String

def Queue.empty : Queue := ⟨[], fun _ ↦ none, [], []⟩

/-! ### The requests -/

def Command.isOverdue (now : ℚ) (cmd : Command) : Bool := (cmd.timeoutSeconds : ℚ) < now - cmd.createdAt

/-- The commands that a poll reads: at most five, the oldest first. -/
def pending (operatorId : String) (commands : List Command) : List Command :=
  ((commands.filter fun cmd ↦ cmd.operatorId == operatorId && cmd.status == .queued).insertionSort
    fun a b ↦ a.createdAt ≤ b.createdAt).take 5

/-- `poll_commands`: a command that is overdue expires, the others are returned. -/
def pollCommands (operatorId : String) (now : ℚ) (commands : List Command) : Changes :=
  (pending operatorId commands).map fun cmd ↦
    (cmd.commandId, if cmd.isOverdue now then
      .expire now ("Command expired after " ++ toString cmd.timeoutSeconds ++ "s")
    else .pickUp now)

/-- `submit_result`; `none` where it raises. -/
def submitResult (operatorId commandId : String) (body : Submission) (now : ℚ)
    (commands : List Command) : Option Changes :=
  match commands.find? fun cmd ↦ cmd.commandId == commandId && cmd.operatorId == operatorId with
  | none => none
  | some cmd =>
    if cmd.status = .pickedUp ∨ cmd.status = .queued then some [(commandId, .finish now body)]
    else none

/-- `cleanup_expired_commands`. -/
def cleanupExpiredCommands (now : ℚ) (commands : List Command) : Changes :=
  (commands.filter fun cmd ↦ cmd.status == .queued && cmd.isOverdue now).map fun cmd ↦
    (cmd.commandId, .expire now ("Command expired after " ++ toString cmd.timeoutSeconds ++
      "s (never picked up)"))

/-! ### The system -/

inductive QueueEvent
  /-- `enqueue_command`. -/
  | enqueue (cmd : Command)
  | readPoll (request : Nat) (operatorId : String) (now : ℚ)
  | readSubmit (request : Nat) (operatorId commandId : String) (body : Submission) (now : ℚ)
  | readSweep (request : Nat) (now : ℚ)
  | commit (request : Nat)
  /-- The session is closed without a commit. -/
  | drop (request : Nat)

def Queue.begin (s : Queue) (request : Nat) (changes : Changes) : Option Queue :=
  if (s.requests request).isSome then none
  else some { s with requests := Function.update s.requests request (some changes) }

def Change.isPickUp : Change → Bool
  | .pickUp _ => true
  | _ => false

def Change.isFinish : Change → Bool
  | .finish _ _ => true
  | _ => false

def Changes.pickedUp (changes : Changes) : List String :=
  (changes.filter fun c ↦ c.2.isPickUp).map Prod.fst

/-- The commands whose result is recorded. -/
def Changes.finished (changes : Changes) : List String :=
  (changes.filter fun c ↦ c.2.isFinish).map Prod.fst

def Queue.commit (s : Queue) (request : Nat) (changes : Changes) : Queue :=
  { commands := s.commands.map (Command.update changes)
    requests := Function.update s.requests request none
    returned := s.returned ++ changes.pickedUp
    recorded := s.recorded ++ changes.finished }

def queueStep (s : Queue) : QueueEvent → Option Queue
  | .enqueue cmd =>
    -- The command id is unique.
    if cmd.commandId ∈ s.commands.map Command.commandId then none
    else some { s with commands := s.commands ++ [{ cmd with status := .queued }] }
  | .readPoll request operatorId now => s.begin request (pollCommands operatorId now s.commands)
  | .readSubmit request operatorId commandId body now =>
    (submitResult operatorId commandId body now s.commands).bind (s.begin request)
  | .readSweep request now => s.begin request (cleanupExpiredCommands now s.commands)
  | .commit request =>
    (s.requests request).map (s.commit request)
  | .drop request => some { s with requests := Function.update s.requests request none }

/-- A step after which no command has been returned by two polls, no returned command is expired,
no result has been recorded twice, and no command has left a final status. -/
structure DeliversOnce (s : Queue) (_ : QueueEvent) (t : Queue) : Prop where
  returned : t.returned.Nodup
  kept : ∀ cmd ∈ t.commands, cmd.commandId ∈ t.returned → cmd.status ≠ .expired
  recorded : t.recorded.Nodup
  final : ∀ cmd ∈ s.commands, cmd.status.isFinal = true →
    ∀ cmd' ∈ t.commands, cmd'.commandId = cmd.commandId → cmd'.status = cmd.status

/-- The statuses of a row that a change is meant for: a queued command is picked up or expires, which
may be done twice, and the result of one that is not over is recorded. -/
def Change.Fits : Change → CommandStatus → Prop
  | .pickUp _, status => status = .queued
  | .expire _ _, status => status = .queued ∨ status = .expired
  | .finish _ _, status => status = .queued ∨ status = .pickedUp

def StillFits (s : Queue) : QueueEvent → Prop
  | .commit request => ∀ changes ∈ s.requests request, ∀ c ∈ changes, ∀ cmd ∈ s.commands,
    cmd.commandId = c.1 → c.2.Fits cmd.status
  | _ => True

/-! ### Changes of distinct rows -/

section Changes

variable {changes : Changes} {id : String}

theorem mem_kind (hnodup : (changes.map Prod.fst).Nodup) {p : Change → Bool} :
    id ∈ (changes.filter fun c ↦ p c.2).map Prod.fst ↔
      ∃ change, changes.lookup id = some change ∧ p change = true := by
  simp only [Assoc.lookup_eq_some_iff_mem hnodup, mem_map, mem_filter]
  constructor
  · rintro ⟨⟨k, change⟩, ⟨hmem, hp⟩, rfl⟩
    exact ⟨change, hmem, hp⟩
  · rintro ⟨change, hmem, hp⟩
    exact ⟨(id, change), ⟨hmem, hp⟩, rfl⟩

theorem nodup_kind (hnodup : (changes.map Prod.fst).Nodup) (p : Change → Bool) :
    ((changes.filter fun c ↦ p c.2).map Prod.fst).Nodup :=
  hnodup.sublist (filter_sublist.map _)

@[simp]
theorem Command.update_commandId (cmd : Command) :
    (cmd.update changes).commandId = cmd.commandId := by
  unfold Command.update
  split
  · next change _ => cases change <;> rfl
  · rfl

theorem map_update_commandId (commands : List Command) :
    (commands.map (Command.update changes)).map Command.commandId =
      commands.map Command.commandId := by
  rw [map_map]
  exact map_congr_left fun cmd _ ↦ cmd.update_commandId

end Changes

/-! ### What runs keep -/

def Command.Tracks (returned recorded : List String) (cmd : Command) : Prop :=
  match cmd.status with
  | .queued => cmd.commandId ∉ returned ∧ cmd.commandId ∉ recorded
  | .pickedUp => cmd.commandId ∈ returned ∧ cmd.commandId ∉ recorded
  | .completed => cmd.commandId ∈ recorded
  | .failed => cmd.commandId ∈ recorded
  | .expired => cmd.commandId ∉ returned

/-- The changes are of distinct rows that exist. -/
structure Changes.WellFormed (changes : Changes) (commands : List Command) : Prop where
  nodup : (changes.map Prod.fst).Nodup
  exist : ∀ c ∈ changes, c.1 ∈ commands.map Command.commandId

structure QueueInv (s : Queue) : Prop where
  ids : (s.commands.map Command.commandId).Nodup
  tracks : ∀ cmd ∈ s.commands, cmd.Tracks s.returned s.recorded
  returned : s.returned.Nodup
  recorded : s.recorded.Nodup
  returned_mem : ∀ id ∈ s.returned, id ∈ s.commands.map Command.commandId
  recorded_mem : ∀ id ∈ s.recorded, id ∈ s.commands.map Command.commandId
  requests : ∀ k changes, s.requests k = some changes → changes.WellFormed s.commands

theorem queueInv_empty : QueueInv Queue.empty := by
  constructor <;> simp [Queue.empty]

section Commit

variable {s : Queue} {changes : Changes} {cmd : Command}

theorem Command.Tracks.update (hnodup : (changes.map Prod.fst).Nodup)
    (h : cmd.Tracks s.returned s.recorded)
    (hfits : ∀ change, changes.lookup cmd.commandId = some change → change.Fits cmd.status) :
    (cmd.update changes).Tracks (s.returned ++ changes.pickedUp) (s.recorded ++ changes.finished) := by
  have hpicked : cmd.commandId ∈ changes.pickedUp ↔ _ := mem_kind hnodup
  have hfinished : cmd.commandId ∈ changes.finished ↔ _ := mem_kind hnodup
  unfold Command.Tracks at h ⊢
  rw [Command.update_commandId, mem_append, mem_append, hpicked, hfinished, Command.update]
  cases hchange : changes.lookup cmd.commandId with
  | none =>
    cases hstatus : cmd.status <;> simp_all
  | some change =>
    have hfit := hfits change hchange
    cases change with
    | pickUp now =>
      have hqueued : cmd.status = .queued := hfit
      simp_all [Change.apply, Change.isPickUp, Change.isFinish]
    | expire now message =>
      rcases hfit with hfit | hfit <;> simp_all [Change.apply, Change.isPickUp, Change.isFinish]
    | finish now body =>
      cases hsuccess : body.success <;>
        simp [Change.apply, Change.isFinish, hsuccess]

theorem QueueInv.commit {request : Nat} (h : QueueInv s) (hchanges : s.requests request = some changes)
    (hfits : ∀ c ∈ changes, ∀ cmd ∈ s.commands, cmd.commandId = c.1 → c.2.Fits cmd.status) :
    QueueInv (s.commit request changes) := by
  obtain ⟨hnodup, hexist⟩ := h.requests request changes hchanges
  have hfit : ∀ cmd ∈ s.commands, ∀ change, changes.lookup cmd.commandId = some change →
      change.Fits cmd.status := fun cmd hcmd change hlookup ↦
    hfits _ ((Assoc.lookup_eq_some_iff_mem hnodup).mp hlookup) cmd hcmd rfl
  -- A command that a change is for is in the table, with a status that the change fits.
  have hrow : ∀ id change, changes.lookup id = some change →
      ∃ cmd ∈ s.commands, cmd.commandId = id ∧ change.Fits cmd.status := by
    intro id change hlookup
    have hmem := (Assoc.lookup_eq_some_iff_mem hnodup).mp hlookup
    obtain ⟨cmd, hcmd, rfl⟩ := mem_map.mp (hexist _ hmem)
    exact ⟨cmd, hcmd, rfl, hfit cmd hcmd change hlookup⟩
  have hkind : ∀ p : Change → Bool, ∀ id ∈ (changes.filter fun c ↦ p c.2).map Prod.fst,
      id ∈ s.commands.map Command.commandId := by
    intro p id hid
    obtain ⟨c, hc, rfl⟩ := mem_map.mp hid
    exact hexist c (mem_filter.mp hc).1
  refine ⟨?_, ?_, ?_, ?_, ?_, ?_, ?_⟩
  · rw [Queue.commit, map_update_commandId]
    exact h.ids
  · intro cmd' hcmd'
    obtain ⟨cmd, hcmd, rfl⟩ := mem_map.mp hcmd'
    exact (h.tracks cmd hcmd).update hnodup (hfit cmd hcmd)
  · refine nodup_append.mpr ⟨h.returned, nodup_kind hnodup _, ?_⟩
    rintro id hid id' hid' rfl
    obtain ⟨change, hlookup, hkind⟩ := (mem_kind hnodup).mp hid'
    obtain ⟨cmd, hcmd, rfl, hfit⟩ := hrow id change hlookup
    cases change with
    | pickUp now =>
      have hqueued : cmd.status = .queued := hfit
      have htracks := h.tracks cmd hcmd
      rw [Command.Tracks, hqueued] at htracks
      exact htracks.1 hid
    | expire now message => cases hkind
    | finish now body => cases hkind
  · refine nodup_append.mpr ⟨h.recorded, nodup_kind hnodup _, ?_⟩
    rintro id hid id' hid' rfl
    obtain ⟨change, hlookup, hkind⟩ := (mem_kind hnodup).mp hid'
    obtain ⟨cmd, hcmd, rfl, hfit⟩ := hrow id change hlookup
    cases change with
    | pickUp now => cases hkind
    | expire now message => cases hkind
    | finish now body =>
      have htracks := h.tracks cmd hcmd
      obtain hstatus | hstatus := hfit
      · rw [Command.Tracks, hstatus] at htracks
        exact htracks.2 hid
      · rw [Command.Tracks, hstatus] at htracks
        exact htracks.2 hid
  · rw [Queue.commit, map_update_commandId]
    intro id hid
    exact (mem_append.mp hid).elim (h.returned_mem id) (hkind _ id)
  · rw [Queue.commit, map_update_commandId]
    intro id hid
    exact (mem_append.mp hid).elim (h.recorded_mem id) (hkind _ id)
  · intro k others hothers
    simp only [Queue.commit] at hothers ⊢
    by_cases hk : k = request
    · rw [hk, Function.update_self] at hothers
      cases hothers
    · rw [Function.update_of_ne hk] at hothers
      obtain ⟨hnodup', hexist'⟩ := h.requests k others hothers
      refine ⟨hnodup', ?_⟩
      rw [map_update_commandId]
      exact hexist'

end Commit

section Reads

variable {s t : Queue} {commands : List Command}

theorem Changes.wellFormed_of_subperm {chosen : List Command} {change : Command → Change}
    (hids : (commands.map Command.commandId).Nodup) (hchosen : chosen.Subperm commands) :
    Changes.WellFormed (chosen.map fun cmd ↦ (cmd.commandId, change cmd)) commands := by
  obtain ⟨kept, hperm, hsub⟩ := hchosen
  constructor
  · rw [map_map]
    exact (hperm.map Command.commandId).nodup (hids.sublist (hsub.map _))
  · intro c hc
    obtain ⟨cmd, hcmd, rfl⟩ := mem_map.mp hc
    exact mem_map_of_mem (hsub.subset (hperm.mem_iff.mpr hcmd))

theorem wellFormed_pollCommands (hids : (commands.map Command.commandId).Nodup)
    (operatorId : String) (now : ℚ) :
    Changes.WellFormed (pollCommands operatorId now commands) commands := by
  refine Changes.wellFormed_of_subperm hids ?_
  have hsort := perm_insertionSort (fun a b : Command ↦ a.createdAt ≤ b.createdAt)
    (commands.filter fun cmd ↦ cmd.operatorId == operatorId && cmd.status == .queued)
  exact (take_sublist 5 _).subperm.trans (hsort.subperm.trans filter_sublist.subperm)

theorem wellFormed_submitResult {operatorId commandId : String} {body : Submission} {now : ℚ}
    {changes : Changes} (h : submitResult operatorId commandId body now commands = some changes) :
    changes.WellFormed commands := by
  unfold submitResult at h
  split at h
  · cases h
  · next cmd hcmd =>
    split at h
    · cases h
      refine ⟨nodup_singleton _, fun c hc ↦ ?_⟩
      have hid := find?_some hcmd
      simp only [Bool.and_eq_true, beq_iff_eq] at hid
      rw [mem_singleton.mp hc]
      exact mem_map.mpr ⟨cmd, mem_of_find?_eq_some hcmd, hid.1⟩
    · cases h

theorem wellFormed_cleanupExpiredCommands (hids : (commands.map Command.commandId).Nodup) (now : ℚ) :
    Changes.WellFormed (cleanupExpiredCommands now commands) commands :=
  Changes.wellFormed_of_subperm hids filter_sublist.subperm

/-- The steps that write no row that is there. -/
structure Grows (s t : Queue) : Prop where
  inv : QueueInv t
  commands : s.commands <+: t.commands
  returned : t.returned = s.returned
  recorded : t.recorded = s.recorded

theorem QueueInv.begin (h : QueueInv s) {request : Nat} {changes : Changes}
    (hchanges : changes.WellFormed s.commands) (hst : s.begin request changes = some t) :
    Grows s t := by
  unfold Queue.begin at hst
  split at hst
  · cases hst
  · cases hst
    refine ⟨{ h with requests := fun k others hothers ↦ ?_ }, prefix_rfl, rfl, rfl⟩
    by_cases hk : k = request
    · simp only [hk, Function.update_self, Option.some.injEq] at hothers
      exact hothers ▸ hchanges
    · simp only [Function.update_of_ne hk] at hothers
      exact h.requests k others hothers

theorem QueueInv.drop (h : QueueInv s) (request : Nat) :
    Grows s { s with requests := Function.update s.requests request none } := by
  refine ⟨{ h with requests := fun k others hothers ↦ ?_ }, prefix_rfl, rfl, rfl⟩
  by_cases hk : k = request
  · simp only [hk, Function.update_self, reduceCtorEq] at hothers
  · simp only [Function.update_of_ne hk] at hothers
    exact h.requests k others hothers

theorem QueueInv.enqueue (h : QueueInv s) {cmd : Command}
    (hid : cmd.commandId ∉ s.commands.map Command.commandId) :
    Grows s { s with commands := s.commands ++ [{ cmd with status := .queued }] } := by
  have hids : (s.commands ++ [{ cmd with status := .queued }]).map Command.commandId =
      s.commands.map Command.commandId ++ [cmd.commandId] := map_append
  refine ⟨⟨?_, ?_, h.returned, h.recorded, ?_, ?_, ?_⟩, prefix_append _ _, rfl, rfl⟩
  · rw [hids, ← concat_eq_append, nodup_concat]
    exact ⟨hid, h.ids⟩
  · intro row hrow
    obtain hrow | hrow := mem_append.mp hrow
    · exact h.tracks row hrow
    · rw [mem_singleton.mp hrow]
      exact ⟨fun hmem ↦ hid (h.returned_mem _ hmem), fun hmem ↦ hid (h.recorded_mem _ hmem)⟩
  · rw [hids]
    exact fun id hmem ↦ mem_append_left _ (h.returned_mem id hmem)
  · rw [hids]
    exact fun id hmem ↦ mem_append_left _ (h.recorded_mem id hmem)
  · intro k changes hchanges
    obtain ⟨hnodup, hexist⟩ := h.requests k changes hchanges
    refine ⟨hnodup, ?_⟩
    rw [hids]
    exact fun c hc ↦ mem_append_left _ (hexist c hc)

theorem queueStep_cases (h : QueueInv s) {e : QueueEvent} (hst : queueStep s e = some t) :
    (∃ request changes, e = .commit request ∧ s.requests request = some changes ∧
      t = s.commit request changes) ∨ (StillFits s e ∧ Grows s t) := by
  cases e with
  | enqueue cmd =>
    simp only [queueStep] at hst
    split at hst
    · cases hst
    · next hid =>
      cases hst
      exact .inr ⟨trivial, h.enqueue hid⟩
  | readPoll request operatorId now =>
    exact .inr ⟨trivial, h.begin (wellFormed_pollCommands h.ids operatorId now) hst⟩
  | readSubmit request operatorId commandId body now =>
    obtain ⟨changes, hchanges, hst⟩ := Option.bind_eq_some_iff.mp hst
    exact .inr ⟨trivial, h.begin (wellFormed_submitResult hchanges) hst⟩
  | readSweep request now =>
    exact .inr ⟨trivial, h.begin (wellFormed_cleanupExpiredCommands h.ids now) hst⟩
  | commit request =>
    obtain ⟨changes, hchanges, rfl⟩ := Option.map_eq_some_iff.mp hst
    exact .inl ⟨request, changes, rfl, hchanges, rfl⟩
  | drop request =>
    cases hst
    exact .inr ⟨trivial, h.drop request⟩

end Reads

/-! ### Where a command is delivered once -/

section

variable {s t : Queue}

theorem QueueInv.kept (h : QueueInv s) :
    ∀ cmd ∈ s.commands, cmd.commandId ∈ s.returned → cmd.status ≠ .expired := by
  intro cmd hcmd hreturned hexpired
  have htracks := h.tracks cmd hcmd
  rw [Command.Tracks, hexpired] at htracks
  exact htracks hreturned

theorem eq_of_commandId {commands : List Command} (hids : (commands.map Command.commandId).Nodup)
    {cmd cmd' : Command} (hcmd : cmd ∈ commands) (hcmd' : cmd' ∈ commands)
    (heq : cmd'.commandId = cmd.commandId) : cmd' = cmd :=
  inj_on_of_nodup_map hids hcmd' hcmd heq

theorem Grows.deliversOnce (h : Grows s t) (e : QueueEvent) : DeliversOnce s e t where
  returned := h.inv.returned
  kept := h.inv.kept
  recorded := h.inv.recorded
  final cmd hcmd _ cmd' hcmd' heq := by
    rw [eq_of_commandId h.inv.ids (h.commands.subset hcmd) hcmd' heq]

theorem Change.Fits.final {change : Change} {cmd : Command} (hfits : change.Fits cmd.status)
    (hfinal : cmd.status.isFinal = true) : (change.apply cmd).status = cmd.status := by
  cases change with
  | pickUp now =>
    have hqueued : cmd.status = .queued := hfits
    rw [hqueued] at hfinal
    cases hfinal
  | expire now message =>
    obtain hstatus | hstatus := hfits
    · rw [hstatus] at hfinal
      cases hfinal
    · exact hstatus.symm
  | finish now body =>
    obtain hstatus | hstatus := hfits
    · rw [hstatus] at hfinal
      cases hfinal
    · rw [hstatus] at hfinal
      cases hfinal

theorem deliversOnce_commit {request : Nat} {changes : Changes} (h : QueueInv s)
    (hchanges : s.requests request = some changes)
    (hfits : ∀ c ∈ changes, ∀ cmd ∈ s.commands, cmd.commandId = c.1 → c.2.Fits cmd.status)
    (e : QueueEvent) : DeliversOnce s e (s.commit request changes) := by
  have hinv := h.commit hchanges hfits
  refine ⟨hinv.returned, hinv.kept, hinv.recorded, fun cmd hcmd hfinal cmd' hcmd' heq ↦ ?_⟩
  obtain ⟨row, hrow, rfl⟩ := mem_map.mp hcmd'
  rw [Command.update_commandId] at heq
  obtain rfl := eq_of_commandId h.ids hcmd hrow heq
  unfold Command.update
  split
  · next change hlookup =>
    have hnodup := (h.requests request changes hchanges).nodup
    exact (hfits _ ((Assoc.lookup_eq_some_iff_mem hnodup).mp hlookup) row hrow rfl).final hfinal
  · rfl

theorem DeliversOnce.fits {request : Nat} {changes : Changes} {e : QueueEvent} (h : QueueInv s)
    (hchanges : s.requests request = some changes)
    (honce : DeliversOnce s e (s.commit request changes)) :
    ∀ c ∈ changes, ∀ cmd ∈ s.commands, cmd.commandId = c.1 → c.2.Fits cmd.status := by
  rintro ⟨id, change⟩ hc cmd hcmd rfl
  have hnodup := (h.requests request changes hchanges).nodup
  have hlookup := (Assoc.lookup_eq_some_iff_mem hnodup).mpr hc
  have hrow : change.apply cmd ∈ (s.commit request changes).commands := by
    refine mem_map.mpr ⟨cmd, hcmd, ?_⟩
    rw [Command.update, hlookup]
  have hid : (change.apply cmd).commandId = cmd.commandId := by cases change <;> rfl
  have hfinal : cmd.status.isFinal = true → (change.apply cmd).status = cmd.status := fun hfinal ↦
    honce.final cmd hcmd hfinal _ hrow hid
  have htracks := h.tracks cmd hcmd
  have hreturned := nodup_append.mp honce.returned
  have hrecorded := nodup_append.mp honce.recorded
  -- The change is of a row whose status says what has been done to it.
  cases change with
  | pickUp now =>
    have hpicked : cmd.commandId ∈ changes.pickedUp := (mem_kind hnodup).mpr ⟨_, hlookup, rfl⟩
    cases hstatus : cmd.status with
    | queued => rfl
    | pickedUp =>
      rw [Command.Tracks, hstatus] at htracks
      exact absurd rfl (hreturned.2.2 _ htracks.1 _ hpicked)
    | completed | failed | expired =>
      rw [hstatus] at hfinal
      exact absurd (hfinal rfl) (by simp [Change.apply])
  | expire now message =>
    cases hstatus : cmd.status with
    | queued => exact .inl rfl
    | pickedUp =>
      rw [Command.Tracks, hstatus] at htracks
      exact absurd rfl (honce.kept _ hrow (mem_append_left _ htracks.1))
    | completed | failed =>
      rw [hstatus] at hfinal
      exact absurd (hfinal rfl) (by simp [Change.apply])
    | expired => exact .inr rfl
  | finish now body =>
    have hfinished : cmd.commandId ∈ changes.finished := (mem_kind hnodup).mpr ⟨_, hlookup, rfl⟩
    cases hstatus : cmd.status with
    | queued => exact .inl rfl
    | pickedUp => exact .inr rfl
    | completed | failed =>
      rw [Command.Tracks, hstatus] at htracks
      exact absurd rfl (hrecorded.2.2 _ htracks _ hfinished)
    | expired =>
      rw [hstatus] at hfinal
      refine absurd (hfinal rfl) ?_
      cases hsuccess : body.success <;> simp [Change.apply, hsuccess]

/-- Commands are delivered once, along a run from an empty queue, exactly where each commit finds
the rows that it changes as its changes are meant for. -/
theorem delivers_once_iff (es : List QueueEvent) (s : Queue)
    (hrun : Run queueStep Free Queue.empty es s) :
    AllSteps queueStep DeliversOnce Queue.empty es ↔
      Run queueStep StillFits Queue.empty es s := by
  refine hrun.allSteps_iff_guarded queueInv_empty ?_ ?_
  · intro a e b ha hok hst
    obtain ⟨request, changes, rfl, hchanges, rfl⟩ | ⟨-, hgrows⟩ := queueStep_cases ha hst
    · have hfits := hok changes hchanges
      exact ⟨ha.commit hchanges hfits, deliversOnce_commit ha hchanges hfits _⟩
    · exact ⟨hgrows.inv, hgrows.deliversOnce e⟩
  · intro a e b ha hst honce
    obtain ⟨request, changes, rfl, hchanges, rfl⟩ | ⟨hok, -⟩ := queueStep_cases ha hst
    · intro others hothers
      cases hchanges.symm.trans hothers
      exact honce.fits ha hchanges
    · exact hok

instance (change : Change) (status : CommandStatus) : Decidable (change.Fits status) :=
  match change with
  | .pickUp _ => inferInstanceAs (Decidable (status = .queued))
  | .expire _ _ => inferInstanceAs (Decidable (status = .queued ∨ status = .expired))
  | .finish _ _ => inferInstanceAs (Decidable (status = .queued ∨ status = .pickedUp))

instance (s : Queue) (e : QueueEvent) : Decidable (StillFits s e) :=
  match e with
  | .commit request => inferInstanceAs (Decidable (∀ changes ∈ s.requests request, ∀ c ∈ changes,
      ∀ cmd ∈ s.commands, cmd.commandId = c.1 → c.2.Fits cmd.status))
  | .enqueue .. | .readPoll .. | .readSubmit .. | .readSweep .. | .drop .. => isTrue trivial

def polledOnce : List QueueEvent :=
  [.enqueue { commandId := "op:1", operatorId := "op", createdAt := 0 }, .readPoll 0 "op" 1, .commit 0,
    .readSubmit 1 "op" "op:1" ⟨true, .none, [], none⟩ 2, .commit 1]

theorem polledOnce_delivers_once :
    ∃ s, Run queueStep Free Queue.empty polledOnce s ∧
      s.commands.map (·.status) = [.completed] ∧
      AllSteps queueStep DeliversOnce Queue.empty polledOnce := by
  obtain ⟨s, hrun, hstatus⟩ : ∃ s, Run queueStep StillFits Queue.empty polledOnce s ∧
      s.commands.map (·.status) = [.completed] := Run.exists_of_exec (by decide +kernel)
  exact ⟨s, hrun.free, hstatus, (delivers_once_iff _ _ hrun.free).mpr hrun⟩

def polledTwice : List QueueEvent :=
  [.enqueue { commandId := "op:1", operatorId := "op", createdAt := 0 }, .readPoll 0 "op" 1,
    .readPoll 1 "op" 1, .commit 0, .commit 1]

def sweptAfterPoll : List QueueEvent :=
  [.enqueue { commandId := "op:1", operatorId := "op", createdAt := 0 }, .readPoll 0 "op" 300,
    .readSweep 1 301, .commit 0, .commit 1]

/-- A command is returned by two polls, and a returned command is expired. -/
theorem returned_twice_and_expired :
    (∃ s, Run queueStep Free Queue.empty polledTwice s ∧ s.returned = ["op:1", "op:1"]) ∧
    (∃ s, Run queueStep Free Queue.empty sweptAfterPoll s ∧ s.returned = ["op:1"] ∧
      s.commands.map (·.status) = [.expired]) ∧
    ¬ ∀ es s, Run queueStep Free Queue.empty es s →
      AllSteps queueStep DeliversOnce Queue.empty es := by
  have htwice : (exec queueStep Queue.empty polledTwice).isSome = true := by decide +kernel
  have hswept : (exec queueStep Queue.empty sweptAfterPoll).isSome = true := by decide +kernel
  refine ⟨⟨_, Run.free_iff_exec.mpr (Option.some_get htwice).symm, by decide +kernel +revert⟩,
    ⟨_, Run.free_iff_exec.mpr (Option.some_get hswept).symm, by decide +kernel +revert,
      by decide +kernel +revert⟩, fun h ↦ ?_⟩
  have hall := h polledTwice _ (Run.free_iff_exec.mpr (Option.some_get htwice).symm)
  have hread := ((hall _ rfl).2 _ rfl).2 _ rfl
  have hcommitted := (hread.2 _ rfl).2 _ rfl
  exact absurd hcommitted.1.returned (by decide +kernel)

end

end BnkForge.Operators
