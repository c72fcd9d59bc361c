import BnkForge.Tunnels.Accounts

/-!
# The tunnels of a run

What each step does to the tunnels, and what follows for whole runs.
-/

namespace BnkForge.Tunnels

open Transition

section

variable {s s' : Manager} {e : TunnelEvent} {t n x : Nat} {info : TunnelInfo} {c : Int}

/-- What a step does, where the steps do not get in each other's way. -/
inductive Effect (s : Manager) : TunnelEvent → Manager → Prop
  | renew {e : TunnelEvent} {t : Nat} {info info' : TunnelInfo} (hmonitor : ∀ m ∈ e.monitor, m = t)
    (hinfo : s.infos t = some info) (hnew : Renews s info info') : Effect s e (s.setInfo t info')
  | hangUp {t attempt : Nat} {info : TunnelInfo} (hinfo : s.infos t = some info)
    (hthread : info.healthThread = .reconnecting attempt) :
    Effect s (.hangUp t) ((s.closeTransport info.transport).setInfo t
      { info with healthThread := .dialing attempt })
  | dial {t x attempt : Nat} {info : TunnelInfo} (hinfo : s.infos t = some info)
    (hthread : info.healthThread = .dialing attempt) (hfresh : s.transports x = none)
    (hstop : info.stopEvent = false) :
    Effect s (.dial t x) ((s.openTransport x info.clusterId).setInfo t
      { info with healthThread := .dialed attempt x })
  | call {n : Nat} {c : Int} {jumphost : Bool} (hn : s.calls n = none) (hclosable : s.Closable c) :
    Effect s (.call n c jumphost)
      ((s.closeTunnelInternal c).setCall n (some (.connecting c jumphost)))
  | connect {n x : Nat} {c : Int} {jumphost : Bool} (hn : s.calls n = some (.connecting c jumphost))
    (hfresh : s.transports x = none) :
    Effect s (.connect n x) ((s.openTransport x c).setCall n (some (.connected c jumphost x)))
  | fail {e : TunnelEvent} {n : Nat} {call : Call} (hmonitor : e.monitor = none)
    (hn : s.calls n = some call) (hcall : ∀ c t, call ≠ .registering c t)
    (hopen : ∀ x ∈ call.transport, ¬ s.IsOpen x) : Effect s e (s.setCall n none)
  | listen {n t x : Nat} {c : Int} {jumphost : Bool} {info : TunnelInfo}
    (hn : s.calls n = some (.connected c jumphost x)) (hfresh : s.infos t = none)
    (hcluster : info.clusterId = c) (hhas : ∀ y, info.Has y ↔ y = x) (hsound : Sound s info) :
    Effect s (.listen n t) ((s.setInfo t info).setCall n (some (.registering c t)))
  | register {n t : Nat} {c : Int} (hn : s.calls n = some (.registering c t))
    (hnone : s.tunnels c = none) :
    Effect s (.register n) ((s.setTunnel c (some t)).setCall n none)
  | close {c : Int} (hclosable : s.Closable c) : Effect s (.close c) (s.closeTunnelInternal c)
  | closeIdle {t : Nat} {info : TunnelInfo} (hinfo : s.infos t = some info)
    (hthread : info.healthThread = .idle)
    (hown : ∀ other, s.tunnels info.clusterId = some other → other = t) :
    Effect s (.closeIdle t)
      ((s.setInfo t { info with healthThread := .stopped }).closeTunnelInternal info.clusterId)
  | lose {x : Nat} : Effect s (.lose x) (s.closeTransport x)
  | clock {now : Int} : Effect s (.clock now) { s with now := now }

theorem Renews.of_monitor (hs : Sound s info) {m : Monitor} {isHealthy : Bool}
    {reconnectAttempts : Nat} (hm : m.transport = none)
    (hdial : ∀ attempt, m = .dialing attempt → ¬ s.IsOpen info.transport)
    (hthread : ∀ x ∈ info.healthThread.transport, ¬ s.IsOpen x) :
    Renews s info { info with
      healthThread := m, isHealthy := isHealthy, reconnectAttempts := reconnectAttempts } := by
  have hfewer : ∀ x, (info.transport = x ∨ info.jumphostClient = some x ∨ m.transport = some x) →
      info.Has x := by
    rintro x (hx | hx | hx)
    · exact Or.inl hx
    · exact Or.inr (Or.inl hx)
    · rw [hm] at hx
      cases hx
  refine ⟨rfl, hfewer, fun x hopen hhas ↦ ?_, id, fun hstop ↦ ?_, fun attempt hm' ↦ ?_⟩
  · rcases hhas with hx | hx | hx
    · exact Or.inl hx
    · exact Or.inr (Or.inl hx)
    · exact absurd hopen (hthread x hx)
  · have ⟨hforward, htransports⟩ := hs.closed hstop
    exact ⟨hforward, fun x hhas ↦ htransports x (hfewer x hhas)⟩
  · rcases hm' with hm' | ⟨y, hm'⟩
    · exact hdial attempt hm'
    · subst hm'
      cases hm

theorem Renews.assign (hs : Sound s info) {attempt : Nat}
    (hthread : info.healthThread = .dialed attempt x) :
    Renews s info { info with
      transport := x, isHealthy := true, reconnectAttempts := attempt, healthThread := .waiting } := by
  have hx : info.Has x := Or.inr (Or.inr (by rw [hthread]; rfl))
  have hfewer : ∀ y, (x = y ∨ info.jumphostClient = some y ∨ Monitor.waiting.transport = some y) →
      info.Has y := by
    rintro y (rfl | hy | hy)
    · exact hx
    · exact Or.inr (Or.inl hy)
    · cases hy
  refine ⟨rfl, hfewer, fun y hopen hhas ↦ ?_, id, fun hstop ↦ ?_, fun _ hdial ↦ ?_⟩
  · rcases hhas with rfl | hy | hy
    · exact absurd hopen (hs.hungUp attempt (Or.inr ⟨x, hthread⟩))
    · exact Or.inr (Or.inl hy)
    · rw [hthread] at hy
      cases hy
      exact Or.inl rfl
  · have ⟨hforward, htransports⟩ := hs.closed hstop
    exact ⟨hforward, fun y hhas ↦ htransports y (hfewer y hhas)⟩
  · rcases hdial with hdial | ⟨y, hdial⟩ <;> cases hdial

theorem nextAttempt_spec (attempt : Nat) :
    (nextAttempt attempt).transport = none ∧ ∀ k, nextAttempt attempt ≠ .dialing k := by
  unfold nextAttempt
  split <;> exact ⟨rfl, fun _ ↦ Monitor.noConfusion⟩

theorem reusable_eq_some (h : s.reusable c = some (t, info)) : s.infos t = some info := by
  obtain ⟨u, -, h⟩ := Option.bind_eq_some_iff.mp h
  obtain ⟨found, hfound, h⟩ := Option.bind_eq_some_iff.mp h
  split at h
  · cases h
    exact hfound
  · cases h

/-- What a monitor that stands at `m` and holds nothing does next. -/
theorem Effect.of_monitor (hs : Accounts s) {m : Monitor} {isHealthy : Bool}
    {reconnectAttempts : Nat} (hmonitor : ∀ m ∈ e.monitor, m = t) (hinfo : s.infos t = some info)
    (hthread : info.healthThread.transport = none)
    (hm : m.transport = none ∧ ∀ attempt, m ≠ .dialing attempt) :
    Effect s e (s.setInfo t { info with
      healthThread := m, isHealthy := isHealthy, reconnectAttempts := reconnectAttempts }) := by
  refine .renew hmonitor hinfo (.of_monitor (hs.placed.sound t info hinfo) hm.1
    (fun attempt heq ↦ absurd heq (hm.2 attempt)) fun x hx ↦ ?_)
  rw [hthread] at hx
  cases hx

theorem effect (hs : Accounts s) (hok : Undisturbed s e) (hst : tunnelStep s e = some s') :
    Effect s e s' := by
  cases e with
  | call n c jumphost =>
    simp only [tunnelStep] at hst
    split at hst
    · cases hst
    · next hn =>
      split at hst
      · next u info hreuse =>
        cases hst
        have hinfo := reusable_eq_some hreuse
        have hsound := hs.placed.sound u info hinfo
        exact .renew nofun hinfo ⟨rfl, fun _ ↦ id, fun _ _ ↦ id, id, hsound.closed, hsound.hungUp⟩
      · next hreuse =>
        cases hst
        exact .call (Option.not_isSome_iff_eq_none.mp hn) (hok hreuse)
  | connect n x =>
    simp only [tunnelStep] at hst
    split at hst
    · next c jumphost hn =>
      split at hst
      · cases hst
      · next hfresh =>
        cases hst
        exact .connect hn (Option.not_isSome_iff_eq_none.mp hfresh)
    · cases hst
  | failConnect n leftover =>
    cases (hok : leftover = none)
    simp only [tunnelStep] at hst
    split at hst
    · next c jumphost hn =>
      split at hst
      · cases hst
      · cases hst
        exact .fail rfl hn (fun _ _ ↦ Call.noConfusion) nofun
    · cases hst
  | listen n u =>
    simp only [tunnelStep] at hst
    split at hst
    · next c jumphost x hn =>
      split at hst
      · next hactive =>
        cases hst
        refine .fail rfl hn (fun _ _ ↦ Call.noConfusion) fun y hy hopen ↦ ?_
        cases hy
        exact Bool.false_ne_true (hactive.symm.trans hopen)
      · split at hst
        · cases hst
        · next hfresh =>
          cases hst
          refine .listen hn (Option.not_isSome_iff_eq_none.mp hfresh) rfl (fun y ↦ ?_)
            ⟨Bool.noConfusion, fun _ hdial ↦ ?_⟩
          · cases jumphost <;> simp [TunnelInfo.Has, Monitor.transport, eq_comm]
          · rcases hdial with hdial | ⟨_, hdial⟩ <;> cases hdial
    · cases hst
  | failListen n =>
    simp only [tunnelStep] at hst
    split at hst
    · next hn =>
      cases hst
      exact .fail rfl hn (fun _ _ ↦ Call.noConfusion) (hok _ hn)
    · cases hst
  | register n =>
    simp only [tunnelStep] at hst
    split at hst
    · next hn =>
      cases hst
      exact .register hn (hok _ hn)
    · cases hst
  | close c =>
    cases hst
    exact .close hok
  | wake u =>
    obtain ⟨info, hinfo, hst⟩ := Option.bind_eq_some_iff.mp hst
    split at hst
    · next hthread =>
      cases hst
      refine .of_monitor hs (by rintro _ ⟨⟩; rfl) hinfo (by rw [hthread]; rfl) ?_
      split <;> exact ⟨rfl, fun _ ↦ Monitor.noConfusion⟩
    · cases hst
  | checkIdle u =>
    obtain ⟨info, hinfo, hst⟩ := Option.bind_eq_some_iff.mp hst
    split at hst
    · next hthread =>
      cases hst
      refine .of_monitor hs (by rintro _ ⟨⟩; rfl) hinfo (by rw [hthread]; rfl) ?_
      split <;> exact ⟨rfl, fun _ ↦ Monitor.noConfusion⟩
    · cases hst
  | closeIdle u =>
    obtain ⟨info, hinfo, hst⟩ := Option.bind_eq_some_iff.mp hst
    split at hst
    · next hthread =>
      cases hst
      exact .closeIdle hinfo hthread fun other hother ↦ hok info hinfo other hother
    · cases hst
  | probe u =>
    obtain ⟨info, hinfo, hst⟩ := Option.bind_eq_some_iff.mp hst
    split at hst
    · next hthread =>
      split at hst <;> cases hst <;>
        exact .of_monitor hs (by rintro _ ⟨⟩; rfl) hinfo (by rw [hthread]; rfl)
          ⟨rfl, fun _ ↦ Monitor.noConfusion⟩
    · cases hst
  | hangUp u =>
    obtain ⟨info, hinfo, hst⟩ := Option.bind_eq_some_iff.mp hst
    split at hst
    · next hthread =>
      cases hst
      exact .hangUp hinfo hthread
    · cases hst
  | dial u x =>
    obtain ⟨info, hinfo, hst⟩ := Option.bind_eq_some_iff.mp hst
    split at hst
    · next hthread =>
      split at hst
      · cases hst
      · next hfresh =>
        cases hst
        exact .dial hinfo hthread (Option.not_isSome_iff_eq_none.mp hfresh) (hok info hinfo)
    · cases hst
  | failDial u leftover =>
    cases (hok : leftover = none)
    obtain ⟨info, hinfo, hst⟩ := Option.bind_eq_some_iff.mp hst
    split at hst
    · next hthread =>
      cases hst
      exact .of_monitor hs (by rintro _ ⟨⟩; rfl) hinfo (by rw [hthread]; rfl) (nextAttempt_spec _)
    · cases hst
  | giveUp u =>
    obtain ⟨info, hinfo, hst⟩ := Option.bind_eq_some_iff.mp hst
    split at hst
    · next hthread =>
      cases hst
      exact .of_monitor hs (by rintro _ ⟨⟩; rfl) hinfo (by rw [hthread]; rfl)
        ⟨rfl, fun _ ↦ Monitor.noConfusion⟩
    · cases hst
  | assign u =>
    obtain ⟨info, hinfo, hst⟩ := Option.bind_eq_some_iff.mp hst
    have hsound := hs.placed.sound u info hinfo
    split at hst
    · next attempt x hthread =>
      split at hst
      · cases hst
        exact .renew (by rintro _ ⟨⟩; rfl) hinfo (.assign hsound hthread)
      · next hclosed =>
        cases hst
        have hnext := nextAttempt_spec attempt
        refine .renew (by rintro _ ⟨⟩; rfl) hinfo (.of_monitor hsound hnext.1
          (fun k heq ↦ absurd heq (hnext.2 k)) ?_)
        rw [hthread]
        rintro y ⟨⟩
        exact hclosed
    · cases hst
  | lose x =>
    cases hst
    exact .lose
  | clock now =>
    cases hst
    exact .clock

theorem Accounts.stop (hs : Accounts s) (hinfo : s.infos t = some info)
    (hthread : info.healthThread = .idle) :
    Accounts (s.setInfo t { info with healthThread := .stopped }) :=
  hs.setInfo hinfo (.of_monitor (hs.placed.sound t info hinfo) rfl nofun (by rw [hthread]; exact nofun))

theorem Effect.accounts (h : Effect s e s') (hs : Accounts s) : Accounts s' := by
  cases h with
  | renew _ hinfo hnew => exact hs.setInfo hinfo hnew
  | @hangUp u attempt info hinfo hthread =>
    have hclosed := hs.closeTransport info.transport
    refine hclosed.setInfo hinfo (.of_monitor (hclosed.placed.sound u info hinfo) rfl ?_ ?_)
    · exact fun _ _ hopen ↦ (isOpen_closeTransport.mp hopen).2 rfl
    · intro x hx
      rw [hthread] at hx
      cases hx
  | dial hinfo hthread hfresh hstop => exact hs.dial hinfo hthread hfresh hstop
  | @call n c jumphost hn hclosable =>
    have hcalls : (s.closeTunnelInternal c).calls n = none := by
      rcases closeTunnelInternal_eq fun t ↦ hs.isSome_of_registered with
        ⟨-, heq⟩ | ⟨t, info, -, -, heq⟩
      · rwa [heq]
      · simpa [heq, Manager.setTunnel] using hn
    refine (hs.closeTunnelInternal hclosable).setCall (fun c' t h ↦ ?_) ?_ ?_
    · cases hcalls.symm.trans h
    · rintro _ ⟨⟩
      exact ⟨c, jumphost, rfl⟩
    · intro found hfound
      cases hcalls.symm.trans hfound
  | connect hn hfresh => exact hs.connect hn hfresh
  | fail _ hn hcall hopen =>
    refine hs.setCall (fun c t h ↦ ?_) (fun c h ↦ ?_) fun found hfound ↦ ?_
    · exact hcall c t (Option.some.inj (hn.symm.trans h))
    · cases h
    · cases hn.symm.trans hfound
      exact hopen
  | listen hn hfresh hcluster hhas hsound =>
    refine ⟨hs.owned.listen hn rfl rfl hfresh hcluster hhas, hs.placed.listen ?_ hfresh hcluster hsound⟩
    rintro c t h
    cases hn.symm.trans h
  | register hn hnone => exact hs.register hn hnone
  | close hclosable => exact hs.closeTunnelInternal hclosable
  | @closeIdle u info hinfo hthread hown =>
    refine (hs.stop hinfo hthread).closeTunnelInternal fun other hother found hfound ↦ ?_
    cases hown other hother
    cases (Function.update_self ..).symm.trans hfound
    intro x hx
    cases hx
  | lose => exact hs.closeTransport _
  | clock =>
    exact ⟨hs.owned.of_holds rfl (fun _ _ _ ↦ id) fun _ _ _ _ ↦ id,
      hs.placed.of_calls rfl rfl (fun _ _ _ ↦ Iff.rfl) fun u info hinfo ↦
        (hs.placed.sound u info hinfo).mono fun _ ↦ id⟩

theorem not_holds_init (x : Nat) (h : Holder) (c : Int) : ¬ Manager.init.Holds x h c := by
  cases h <;>
  · rintro ⟨_, hh, -⟩
    cases hh

theorem accounts_init : Accounts Manager.init where
  owned := ⟨nofun, fun x h c hh ↦ absurd hh (not_holds_init x h c),
    fun x h _ c _ hh ↦ absurd hh (not_holds_init x h c)⟩
  placed := ⟨nofun, nofun, nofun, nofun⟩

theorem Accounts.stopEvent_eq_false (hs : Accounts s) (hinfo : s.infos t = some info)
    (hopen : info.forwardServerOpen = true ∨ ∃ x, info.Has x ∧ s.IsOpen x) :
    info.stopEvent = false := by
  by_contra hstop
  have ⟨hforward, htransports⟩ :=
    (hs.placed.sound t info hinfo).closed (eq_true_of_ne_false hstop)
  rcases hopen with hopen | ⟨x, hhas, hopen⟩
  · exact Bool.false_ne_true (hforward.symm.trans hopen)
  · exact htransports x hhas hopen

theorem Accounts.accounted (hs : Accounts s) : Accounted s := by
  intro t info hinfo hopen hreturned
  rcases hs.placed.live t info hinfo (hs.stopEvent_eq_false hinfo hopen) with ht | ⟨n, hn⟩
  · exact ht
  · exact absurd hn (hreturned n info.clusterId)

theorem Accounts.noneOpen (hs : Accounts s) (hopening : ¬ s.Opening c) (ht : s.tunnels c = none) :
    s.NoneOpen c := by
  intro x transport hx hc
  by_contra hactive
  have hactive := eq_true_of_ne_false hactive
  obtain ⟨h, hh⟩ := hs.owned.held x transport hx hactive
  rw [hc] at hh
  cases h with
  | call n =>
    obtain ⟨call, hn, -, hcluster⟩ := hh
    exact hopening ⟨n, call, hn, hcluster⟩
  | tunnel u =>
    obtain ⟨info, hinfo, hhas, hcluster⟩ := hh
    have hstop := hs.stopEvent_eq_false hinfo
      (Or.inr ⟨x, hhas, isOpen_iff.mpr ⟨transport, hx, hactive⟩⟩)
    rcases hs.placed.live u info hinfo hstop with hu | ⟨n, hn⟩
    · rw [hcluster, ht] at hu
      cases hu
    · exact hopening ⟨n, _, hn, hcluster⟩

/-! ### The monitors -/

theorem Accounts.not_has (hs : Accounts s) {other : Nat} {found : TunnelInfo}
    (hinfo : s.infos t = some info) (hother : s.infos other = some found) (hne : other ≠ t)
    (hhas : found.Has x) : ¬ info.Has x := fun hown ↦ by
  have := hs.owned.sole x (.tunnel other) (.tunnel t) _ _ ⟨found, hother, hhas, rfl⟩
    ⟨info, hinfo, hown, rfl⟩
  cases this
  exact hne rfl

theorem Effect.sparesOthers (h : Effect s e s') (hs : Accounts s) : SparesOthers s e s' := by
  intro m hm other hne found hother
  cases h with
  | renew hmonitor hinfo hnew =>
    cases hmonitor m hm
    exact ⟨(Function.update_of_ne hne ..).trans hother, id, fun _ _ ↦ id⟩
  | hangUp hinfo hthread =>
    cases hm
    refine ⟨(Function.update_of_ne hne ..).trans hother, id, fun x hhas hopen ↦ ?_⟩
    refine isOpen_closeTransport.mpr ⟨hopen, ?_⟩
    rintro rfl
    exact hs.not_has hinfo hother hne hhas (Or.inl rfl)
  | dial hinfo hthread hfresh hstop =>
    cases hm
    exact ⟨(Function.update_of_ne hne ..).trans hother, id,
      fun x _ hopen ↦ isOpen_openTransport.mpr (Or.inr hopen)⟩
  | @closeIdle _ info hinfo hthread hown =>
    cases hm
    have hother' : (s.setInfo m { info with healthThread := .stopped }).infos other = some found :=
      (Function.update_of_ne hne ..).trans hother
    rcases closeTunnelInternal_eq fun t ↦ (hs.stop hinfo hthread).isSome_of_registered with
      ⟨-, heq⟩ | ⟨u, stopped, hu, hstopped, heq⟩
    · rw [heq]
      exact ⟨hother', id, fun _ _ ↦ id⟩
    · cases hown u hu
      cases (Function.update_self ..).symm.trans hstopped
      rw [heq]
      refine ⟨(infos_shut_of_ne hne).trans hother', fun htunnel ↦ ?_, fun x hhas hopen ↦ ?_⟩
      · have hcluster : found.clusterId ≠ info.clusterId := fun heq ↦ by
          rw [heq] at htunnel
          exact hne (hown other htunnel)
        rw [Manager.setTunnel, tunnels_shut]
        exact (Function.update_of_ne hcluster ..).trans htunnel
      · have hnot := hs.not_has hinfo hother hne hhas
        refine isOpen_setTunnel.mpr
          (isOpen_shut.mpr ⟨hopen, fun htransport ↦ ?_, fun hclient ↦ ?_⟩)
        · exact hnot (Or.inl htransport.symm)
        · exact hnot (Or.inr (Or.inl hclient))
  | fail hmonitor _ _ _ =>
    rw [hmonitor] at hm
    cases hm
  | call _ _ | connect _ _ | listen _ _ _ _ _ | register _ _ | close _ | lose | clock => cases hm

/-! ### After a tunnel is closed -/

def Quiet (s : Manager) (c : Int) : Prop := ¬ s.Opening c ∧ s.tunnels c = none

theorem not_opening_setCall {call : Option Call} (hs : ¬ s.Opening c)
    (hcall : ∀ found ∈ call, found.clusterId ≠ c) : ¬ (s.setCall n call).Opening c := by
  rintro ⟨m, found, hfound, hcluster⟩
  rcases eq_or_ne m n with rfl | hne
  · simp only [Manager.setCall, Function.update_self] at hfound
    exact hcall found hfound hcluster
  · simp only [Manager.setCall, Function.update_of_ne hne] at hfound
    exact hs ⟨m, found, hfound, hcluster⟩

theorem calls_closeTunnelInternal (hs : Accounts s) : (s.closeTunnelInternal c).calls = s.calls := by
  rcases closeTunnelInternal_eq fun t ↦ hs.isSome_of_registered with ⟨-, heq⟩ | ⟨t, info, -, -, heq⟩
  · rw [heq]
  · rw [heq, Manager.setTunnel, calls_shut]

theorem tunnels_closeTunnelInternal (hs : Accounts s) :
    (s.closeTunnelInternal c).tunnels = Function.update s.tunnels c none := by
  rcases closeTunnelInternal_eq fun t ↦ hs.isSome_of_registered with
    ⟨hnone, heq⟩ | ⟨t, info, -, -, heq⟩
  · rw [heq, ← hnone, Function.update_eq_self]
  · rw [heq, Manager.setTunnel, tunnels_shut]

theorem quiet_closeTunnelInternal {c' : Int} (hs : Accounts s) (hquiet : Quiet s c) :
    Quiet (s.closeTunnelInternal c') c := by
  refine ⟨fun ⟨m, found, hfound, hcluster⟩ ↦ ?_, ?_⟩
  · rw [calls_closeTunnelInternal hs] at hfound
    exact hquiet.1 ⟨m, found, hfound, hcluster⟩
  · rw [tunnels_closeTunnelInternal hs]
    rcases eq_or_ne c c' with rfl | hne
    · exact Function.update_self ..
    · exact (Function.update_of_ne hne ..).trans hquiet.2

theorem Effect.quiet (h : Effect s e s') (hs : Accounts s) (hopens : ¬ e.Opens c)
    (hquiet : Quiet s c) : Quiet s' c := by
  have hcluster : ∀ n call, s.calls n = some call → call.clusterId ≠ c := fun n call hn heq ↦
    hquiet.1 ⟨n, call, hn, heq⟩
  cases h with
  | renew _ _ _ | hangUp _ _ | dial _ _ _ _ | lose | clock => exact hquiet
  | call _ _ =>
    refine ⟨not_opening_setCall (quiet_closeTunnelInternal hs hquiet).1 ?_,
      (quiet_closeTunnelInternal hs hquiet).2⟩
    rintro _ ⟨⟩
    exact hopens
  | connect hn _ =>
    have hne := hcluster _ _ hn
    refine ⟨not_opening_setCall hquiet.1 ?_, hquiet.2⟩
    rintro _ ⟨⟩
    exact hne
  | fail _ _ _ _ => exact ⟨not_opening_setCall hquiet.1 nofun, hquiet.2⟩
  | listen hn _ _ _ _ =>
    have hne := hcluster _ _ hn
    refine ⟨not_opening_setCall hquiet.1 ?_, hquiet.2⟩
    rintro _ ⟨⟩
    exact hne
  | register hn _ =>
    exact ⟨not_opening_setCall hquiet.1 nofun,
      (Function.update_of_ne (hcluster _ _ hn).symm ..).trans hquiet.2⟩
  | close _ => exact quiet_closeTunnelInternal hs hquiet
  | closeIdle hinfo hthread _ => exact quiet_closeTunnelInternal (hs.stop hinfo hthread) hquiet

end

/-! ### Whole runs -/

theorem quiet_of_run {s s' : Manager} {es : List TunnelEvent} {c : Int}
    (hrun : Run tunnelStep Undisturbed s es s') (hopens : ∀ e ∈ es, ¬ e.Opens c) (hs : Accounts s)
    (hquiet : Quiet s c) : Accounts s' ∧ Quiet s' c := by
  induction hrun with
  | nil => exact ⟨hs, hquiet⟩
  | cons hok hst _ ih =>
    have heffect := effect hs hok hst
    exact ih (fun e he ↦ hopens e (List.mem_cons_of_mem _ he)) (heffect.accounts hs)
      (heffect.quiet hs (hopens _ List.mem_cons_self) hquiet)

/-- The tunnels of a run: all that is open is registered, no monitor has touched the tunnel of another,
and once a cluster's tunnel has been closed while nobody was opening one for it, no transport of the
cluster is open until somebody does. -/
theorem tunnels_accounted {es : List TunnelEvent} {s : Manager}
    (hrun : Run tunnelStep Undisturbed Manager.init es s) :
    Accounted s ∧ AllSteps tunnelStep SparesOthers Manager.init es ∧
      ∀ c es₁ es₂ s₁, es = es₁ ++ .close c :: es₂ → exec tunnelStep Manager.init es₁ = some s₁ →
        ¬ s₁.Opening c → (∀ e ∈ es₂, ¬ e.Opens c) → s.NoneOpen c := by
  have hstep : ∀ a e b, Accounts a → Undisturbed a e → tunnelStep a e = some b → Accounts b :=
    fun a e b ha hok hst ↦ (effect ha hok hst).accounts ha
  refine ⟨(hrun.invariant accounts_init hstep).accounted, hrun.allSteps accounts_init
    fun a e b ha hok hst ↦ ⟨hstep a e b ha hok hst, (effect ha hok hst).sparesOthers ha⟩, ?_⟩
  rintro c es₁ es₂ s₁ rfl hexec hopening hopens
  obtain ⟨a, h₁, h₂⟩ := hrun.of_append
  have heq : a = s₁ := Option.some.inj ((Run.free_iff_exec.mp h₁.free).symm.trans hexec)
  subst heq
  have ha := h₁.invariant accounts_init hstep
  cases h₂ with
  | cons hok hst hrest =>
    cases hst
    have hclosed := hstep a _ _ ha hok rfl
    have hquiet : Quiet (a.closeTunnelInternal c) c := by
      refine ⟨fun hopen ↦ hopening ?_, ?_⟩
      · rwa [Manager.Opening, calls_closeTunnelInternal ha] at hopen
      · rw [tunnels_closeTunnelInternal ha]
        exact Function.update_self ..
    have ⟨hs, hquiet⟩ := quiet_of_run hrest hopens hclosed hquiet
    exact hs.noneOpen hquiet.1 hquiet.2

instance (s : Manager) (c : Int) : Decidable (s.Closable c) :=
  inferInstanceAs (Decidable (∀ t ∈ s.tunnels c, ∀ info ∈ s.infos t,
    ∀ x ∈ info.healthThread.transport, ¬ s.IsOpen x))

instance (s : Manager) (e : TunnelEvent) : Decidable (Undisturbed s e) :=
  match e with
  | .call _ c _ => inferInstanceAs (Decidable (s.reusable c = none → s.Closable c))
  | .close c => inferInstanceAs (Decidable (s.Closable c))
  | .failConnect .. | .failDial .. => inferInstanceAs (Decidable (_ = none))
  | .failListen n =>
    inferInstanceAs (Decidable (∀ call ∈ s.calls n, ∀ x ∈ call.transport, ¬ s.IsOpen x))
  | .register n =>
    inferInstanceAs (Decidable (∀ call ∈ s.calls n, s.tunnels call.clusterId = none))
  | .closeIdle t => inferInstanceAs (Decidable (∀ info ∈ s.infos t,
      ∀ other ∈ s.tunnels info.clusterId, other = t))
  | .dial t _ => inferInstanceAs (Decidable (∀ info ∈ s.infos t, info.stopEvent = false))
  | .connect .. | .listen .. | .wake _ | .checkIdle _ | .probe _ | .hangUp _ | .giveUp _
  | .assign _ | .lose _ | .clock _ => isTrue trivial

/-- A tunnel is opened for cluster 7. -/
def opened (n : Nat) : List TunnelEvent := [.call n 7 false, .connect n n, .listen n n, .register n]

/-- The monitor of the tunnel finds its transport lost. -/
def reconnecting (t : Nat) : List TunnelEvent := [.lose t, .wake t, .checkIdle t, .probe t]

/-- A tunnel reconnects after it has lost its transport, and is closed. -/
theorem reconnected_then_closed : ∃ s, Run tunnelStep Undisturbed Manager.init
    (opened 0 ++ reconnecting 0 ++ [.hangUp 0, .dial 0 1, .assign 0] ++ .close 7 :: [.wake 0]) s ∧
      Accounted s ∧ s.NoneOpen 7 := by
  obtain ⟨s, hrun, -⟩ : ∃ s, Run tunnelStep Undisturbed Manager.init
    (opened 0 ++ reconnecting 0 ++ [.hangUp 0, .dial 0 1, .assign 0] ++ .close 7 :: [.wake 0]) s ∧
      True := Run.exists_of_exec (by decide +kernel)
  have h := tunnels_accounted hrun
  refine ⟨s, hrun, h.1, h.2.2 7 _ _ _ rfl rfl ?_ ?_⟩
  · rintro ⟨n, call, hcall, -⟩
    rcases n with _ | n <;> cases hcall
  · rintro e he
    cases List.mem_singleton.mp he
    exact id

def overlapping : List TunnelEvent :=
  [.call 0 7 false, .call 1 7 false, .connect 0 0, .connect 1 1, .listen 0 0, .listen 1 1,
    .register 0, .register 1]

/-- Both calls have returned and tunnel 0 is open and not registered; its monitor closes tunnel 1 after
an hour; and a monitor reconnects a tunnel that has been closed. -/
theorem overlapping_calls_leak :
    (∃ s, Run tunnelStep Free Manager.init overlapping s ∧ ¬ Accounted s) ∧
    (∃ s, Run tunnelStep Free Manager.init
      (overlapping ++ [.clock 3601, .wake 0, .checkIdle 0] ++ [.closeIdle 0]) s ∧
      ¬ AllSteps tunnelStep SparesOthers Manager.init
        (overlapping ++ [.clock 3601, .wake 0, .checkIdle 0] ++ [.closeIdle 0])) ∧
    ∃ s₁ s, exec tunnelStep Manager.init (opened 0 ++ reconnecting 0) = some s₁ ∧ ¬ s₁.Opening 7 ∧
      Run tunnelStep Free Manager.init
        (opened 0 ++ reconnecting 0 ++ .close 7 :: [.hangUp 0, .dial 0 1]) s ∧ ¬ s.NoneOpen 7 := by
  refine ⟨⟨_, Run.free_iff_exec.mpr rfl, fun h ↦ ?_⟩, ⟨_, Run.free_iff_exec.mpr rfl, fun h ↦ ?_⟩,
    _, _, rfl, ?_, Run.free_iff_exec.mpr rfl, fun h ↦ ?_⟩
  · cases h 0 _ rfl (Or.inl rfl) fun n c hn ↦ by rcases n with _ | _ | n <;> cases hn
  · have hlast := Run.allSteps_last (Run.free_iff_exec.mpr rfl) h rfl 0 rfl 1 (by decide) _ rfl
    cases hlast.1
  · rintro ⟨n, call, hcall, -⟩
    rcases n with _ | n <;> cases hcall
  · cases h 1 _ rfl rfl

end BnkForge.Tunnels
