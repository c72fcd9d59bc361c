import BnkForge.Tunnels.Manager

/-!
# Every open tunnel is registered

A transport that is open is held by the call that connected it or by a tunnel that has not been
closed, and such a tunnel is registered or about to be. This is kept while openings and monitors do
not get in each other's way; four small runs show what happens otherwise.
-/

namespace BnkForge.Tunnels

open Transition

/-! ### Open transports -/

section

variable {s : Manager} {t n x y : Nat} {info : TunnelInfo} {c : Int}

@[simp]
theorem isOpen_setInfo : (s.setInfo t info).IsOpen x ↔ s.IsOpen x := Iff.rfl

@[simp]
theorem isOpen_setTunnel {tunnel : Option Nat} : (s.setTunnel c tunnel).IsOpen x ↔ s.IsOpen x :=
  Iff.rfl

theorem isOpen_iff :
    s.IsOpen x ↔ ∃ transport, s.transports x = some transport ∧ transport.active = true := by
  rw [Manager.IsOpen, Manager.isActive]
  cases s.transports x <;> simp

@[simp]
theorem isOpen_closeTransport : (s.closeTransport y).IsOpen x ↔ s.IsOpen x ∧ x ≠ y := by
  rcases eq_or_ne x y with rfl | hne
  · simp only [isOpen_iff, Manager.closeTransport, Function.update_self, Option.map_eq_some_iff,
      ne_eq, not_true_eq_false, and_false, iff_false, not_exists, not_and]
    rintro _ ⟨_, -, rfl⟩
    exact Bool.false_ne_true
  · simp [isOpen_iff, Manager.closeTransport, hne]

theorem isOpen_openTransport : (s.openTransport y c).IsOpen x ↔ x = y ∨ s.IsOpen x := by
  rcases eq_or_ne x y with rfl | hne
  · simp [isOpen_iff, Manager.openTransport]
  · simp [isOpen_iff, Manager.openTransport, hne]

theorem isOpen_shut : (s.shut t info).IsOpen x ↔
    s.IsOpen x ∧ x ≠ info.transport ∧ info.jumphostClient ≠ some x := by
  rw [Manager.shut, isOpen_setInfo]
  cases hclient : info.jumphostClient with
  | none => simp
  | some client => simp [and_assoc, eq_comm]

/-! ### Who holds a transport -/

inductive Holder
  | call (n : Nat)
  | tunnel (t : Nat)

def Manager.Holds (s : Manager) (x : Nat) : Holder → Int → Prop
  | .call n, c => ∃ call, s.calls n = some call ∧ call.transport = some x ∧ call.clusterId = c
  | .tunnel t, c => ∃ info, s.infos t = some info ∧ info.Has x ∧ info.clusterId = c

/-- Every open transport is held for its cluster, and no transport has two holders. -/
structure Owned (s : Manager) : Prop where
  held : ∀ x transport, s.transports x = some transport → transport.active = true →
    ∃ h, s.Holds x h transport.clusterId
  known : ∀ x h c, s.Holds x h c → (s.transports x).isSome = true
  sole : ∀ x h h' c c', s.Holds x h c → s.Holds x h' c' → h = h'

def Manager.Live (s : Manager) (t : Nat) (c : Int) : Prop :=
  s.tunnels c = some t ∨ ∃ n, s.calls n = some (.registering c t)

/-- A tunnel that has been closed has nothing open, and while its monitor dials, its old transport is
closed. -/
structure Sound (s : Manager) (info : TunnelInfo) : Prop where
  closed : info.stopEvent = true → info.forwardServerOpen = false ∧ ∀ x, info.Has x → ¬ s.IsOpen x
  hungUp : ∀ attempt, info.healthThread = .dialing attempt ∨
    (∃ x, info.healthThread = .dialed attempt x) → ¬ s.IsOpen info.transport

/-- The tunnels that have not been closed are registered or about to be. -/
structure Placed (s : Manager) : Prop where
  registered : ∀ c t, s.tunnels c = some t → ∃ info, s.infos t = some info ∧ info.clusterId = c
  registering : ∀ n c t, s.calls n = some (.registering c t) →
    ∃ info, s.infos t = some info ∧ info.clusterId = c
  live : ∀ t info, s.infos t = some info → info.stopEvent = false → s.Live t info.clusterId
  sound : ∀ t info, s.infos t = some info → Sound s info

/-- The invariant. -/
structure Accounts (s : Manager) : Prop where
  owned : Owned s
  placed : Placed s

end

/-! ### What the operations keep -/

section

variable {s s' : Manager} {t n x y : Nat} {h : Holder} {info info' : TunnelInfo} {c : Int}
  {c' : Int} {call : Option Call}

theorem holds_setInfo : (s.setInfo t info').Holds x h c ↔
    (h = .tunnel t ∧ info'.Has x ∧ info'.clusterId = c) ∨ (h ≠ .tunnel t ∧ s.Holds x h c) := by
  cases h with
  | call n => simp [Manager.Holds, Manager.setInfo]
  | tunnel u =>
    rcases eq_or_ne u t with rfl | hne
    · simp [Manager.Holds, Manager.setInfo]
    · simp [Manager.Holds, Manager.setInfo, hne]

theorem holds_setCall : (s.setCall n call).Holds x h c ↔
    (h = .call n ∧ ∃ found, call = some found ∧ found.transport = some x ∧ found.clusterId = c) ∨
      (h ≠ .call n ∧ s.Holds x h c) := by
  cases h with
  | call m =>
    rcases eq_or_ne m n with rfl | hne
    · simp [Manager.Holds, Manager.setCall]
    · simp [Manager.Holds, Manager.setCall, hne]
  | tunnel u => simp [Manager.Holds, Manager.setCall]

theorem Owned.of_holds (hs : Owned s) (htransports : s'.transports = s.transports)
    (hfewer : ∀ x h c, s'.Holds x h c → s.Holds x h c)
    (hkept : ∀ x h c, s.IsOpen x → s.Holds x h c → s'.Holds x h c) : Owned s' where
  held x transport hx hactive := by
    rw [htransports] at hx
    obtain ⟨h, hh⟩ := hs.held x transport hx hactive
    exact ⟨h, hkept x h _ (isOpen_iff.mpr ⟨transport, hx, hactive⟩) hh⟩
  known x h c hh := by
    rw [htransports]
    exact hs.known x h c (hfewer x h c hh)
  sole x h h' c c' hh hh' := hs.sole x h h' c c' (hfewer x h c hh) (hfewer x h' c' hh')

theorem Owned.closeTransport (hs : Owned s) (y : Nat) : Owned (s.closeTransport y) where
  held x transport hx hactive := by
    rcases eq_or_ne x y with rfl | hne
    · simp only [Manager.closeTransport, Function.update_self, Option.map_eq_some_iff] at hx
      obtain ⟨_, -, rfl⟩ := hx
      cases hactive
    · simp only [Manager.closeTransport, Function.update_of_ne hne] at hx
      exact hs.held x transport hx hactive
  known x h c hh := by
    have hx := hs.known x h c hh
    rcases eq_or_ne x y with rfl | hne
    · simpa [Manager.closeTransport] using hx
    · simpa [Manager.closeTransport, hne] using hx
  sole := hs.sole

theorem Owned.setInfo (hs : Owned s) (hinfo : s.infos t = some info)
    (hcluster : info'.clusterId = info.clusterId) (hfewer : ∀ x, info'.Has x → info.Has x)
    (hkept : ∀ x, s.IsOpen x → info.Has x → info'.Has x) : Owned (s.setInfo t info') := by
  refine hs.of_holds rfl (fun x h c hh ↦ ?_) fun x h c hopen hh ↦ ?_
  · rcases holds_setInfo.mp hh with ⟨rfl, hhas, hc⟩ | ⟨-, hh⟩
    · exact ⟨info, hinfo, hfewer x hhas, hcluster ▸ hc⟩
    · exact hh
  · rw [holds_setInfo]
    by_cases heq : h = .tunnel t
    · subst heq
      obtain ⟨_, hfound, hhas, hc⟩ := hh
      cases hinfo.symm.trans hfound
      exact Or.inl ⟨rfl, hkept x hopen hhas, hcluster.trans hc⟩
    · exact Or.inr ⟨heq, hh⟩

theorem Owned.of_open (hs : Owned s) (hfresh : s.transports x = none)
    (htransports : s'.transports = (s.openTransport x c).transports) (new : Holder)
    (hnew : s'.Holds x new c)
    (hfewer : ∀ y h c', s'.Holds y h c' → (y = x ∧ h = new) ∨ s.Holds y h c')
    (hkept : ∀ y h c', s.IsOpen y → s.Holds y h c' → s'.Holds y h c') : Owned s' := by
  have hunheld : ∀ h c', ¬ s.Holds x h c' := fun h c' hh ↦ by
    have := hs.known x h c' hh
    rw [hfresh] at this
    cases this
  constructor
  case held =>
    intro y transport hy hactive
    rw [htransports] at hy
    rcases eq_or_ne y x with rfl | hne
    · simp only [Manager.openTransport, Function.update_self, Option.some.injEq] at hy
      subst hy
      exact ⟨new, hnew⟩
    · simp only [Manager.openTransport, Function.update_of_ne hne] at hy
      obtain ⟨h, hh⟩ := hs.held y transport hy hactive
      exact ⟨h, hkept y h _ (isOpen_iff.mpr ⟨transport, hy, hactive⟩) hh⟩
  case known =>
    intro y h c' hh
    rw [htransports]
    rcases eq_or_ne y x with rfl | hne
    · simp [Manager.openTransport]
    · simp only [Manager.openTransport, Function.update_of_ne hne]
      rcases hfewer y h c' hh with ⟨heq, -⟩ | hh
      · exact absurd heq hne
      · exact hs.known y h c' hh
  case sole =>
    intro y h h' c₁ c₂ hh hh'
    rcases hfewer y h c₁ hh with ⟨rfl, rfl⟩ | hh <;>
      rcases hfewer y h' c₂ hh' with ⟨heq, heq'⟩ | hh'
    · exact heq'.symm
    · exact absurd hh' (hunheld h' c₂)
    · exact absurd (heq ▸ hh) (hunheld h c₁)
    · exact hs.sole y h h' c₁ c₂ hh hh'

/-- A new record for a tunnel: it holds the open transports that the old one did and no others, and is
closed where the old one is. -/
structure Renews (s : Manager) (info info' : TunnelInfo) : Prop where
  clusterId : info'.clusterId = info.clusterId
  fewer : ∀ x, info'.Has x → info.Has x
  kept : ∀ x, s.IsOpen x → info.Has x → info'.Has x
  live : info'.stopEvent = false → info.stopEvent = false
  sound : Sound s info'

theorem Sound.mono (hs : Sound s info) (hopen : ∀ x, s'.IsOpen x → s.IsOpen x) : Sound s' info where
  closed hstop :=
    have ⟨hforward, htransports⟩ := hs.closed hstop
    ⟨hforward, fun x hhas hx ↦ htransports x hhas (hopen x hx)⟩
  hungUp attempt hdial hx := hs.hungUp attempt hdial (hopen _ hx)

theorem Placed.of_calls (hs : Placed s) (htunnels : s'.tunnels = s.tunnels)
    (hinfos : s'.infos = s.infos)
    (hcalls : ∀ n c t, s'.calls n = some (.registering c t) ↔ s.calls n = some (.registering c t))
    (hsound : ∀ t info, s.infos t = some info → Sound s' info) : Placed s' where
  registered c t ht := by
    rw [htunnels] at ht
    rw [hinfos]
    exact hs.registered c t ht
  registering n c t hn := by
    rw [hinfos]
    exact hs.registering n c t ((hcalls n c t).mp hn)
  live t info hinfo hstop := by
    rw [hinfos] at hinfo
    simpa only [Manager.Live, htunnels, hcalls] using hs.live t info hinfo hstop
  sound t info hinfo := by
    rw [hinfos] at hinfo
    exact hsound t info hinfo

theorem Accounts.closeTransport (hs : Accounts s) (y : Nat) : Accounts (s.closeTransport y) where
  owned := hs.owned.closeTransport y
  placed := hs.placed.of_calls rfl rfl (fun _ _ _ ↦ Iff.rfl) fun t info hinfo ↦
    (hs.placed.sound t info hinfo).mono fun _ hx ↦ (isOpen_closeTransport.mp hx).1

theorem Placed.setInfo (hs : Placed s) (hinfo : s.infos t = some info)
    (hcluster : info'.clusterId = info.clusterId)
    (hlive : info'.stopEvent = false → info.stopEvent = false) (hsound : Sound s info') :
    Placed (s.setInfo t info') := by
  have hfound : ∀ u c, (∃ found, s.infos u = some found ∧ found.clusterId = c) →
      ∃ found, (s.setInfo t info').infos u = some found ∧ found.clusterId = c := by
    rintro u c ⟨found, hu, rfl⟩
    rcases eq_or_ne u t with rfl | hne
    · cases hinfo.symm.trans hu
      exact ⟨info', Function.update_self .., hcluster⟩
    · exact ⟨found, (Function.update_of_ne hne ..).trans hu, rfl⟩
  constructor
  case registered => exact fun c u hu ↦ hfound u c (hs.registered c u hu)
  case registering => exact fun n c u hn ↦ hfound u c (hs.registering n c u hn)
  case live =>
    intro u found hu hstop
    simp only [Manager.setInfo] at hu
    rcases eq_or_ne u t with rfl | hne
    · rw [Function.update_self] at hu
      cases hu
      rw [hcluster]
      exact hs.live u info hinfo (hlive hstop)
    · rw [Function.update_of_ne hne] at hu
      exact hs.live u found hu hstop
  case sound =>
    intro u found hu
    simp only [Manager.setInfo] at hu
    rcases eq_or_ne u t with rfl | hne
    · rw [Function.update_self] at hu
      cases hu
      exact hsound.mono fun _ ↦ id
    · rw [Function.update_of_ne hne] at hu
      exact (hs.sound u found hu).mono fun _ ↦ id

theorem Accounts.setInfo (hs : Accounts s) (hinfo : s.infos t = some info)
    (hnew : Renews s info info') : Accounts (s.setInfo t info') where
  owned := hs.owned.setInfo hinfo hnew.clusterId hnew.fewer hnew.kept
  placed := hs.placed.setInfo hinfo hnew.clusterId hnew.live hnew.sound

theorem Accounts.setCall (hs : Accounts s) (hn : ∀ c t, s.calls n ≠ some (.registering c t))
    (hcall : ∀ found ∈ call, ∃ c jumphost, found = .connecting c jumphost)
    (hopen : ∀ found ∈ s.calls n, ∀ x ∈ found.transport, ¬ s.IsOpen x) :
    Accounts (s.setCall n call) where
  owned := by
    refine hs.owned.of_holds rfl (fun x h c hh ↦ ?_) fun x h c hx hh ↦ holds_setCall.mpr ?_
    · rcases holds_setCall.mp hh with ⟨-, found, hfound, htransport, -⟩ | ⟨-, hh⟩
      · obtain ⟨_, _, rfl⟩ := hcall found hfound
        cases htransport
      · exact hh
    · refine Or.inr ⟨?_, hh⟩
      rintro rfl
      obtain ⟨found, hfound, htransport, -⟩ := hh
      exact hopen found hfound x htransport hx
  placed := by
    refine hs.placed.of_calls rfl rfl (fun m c t ↦ ?_) fun t info hinfo ↦
      (hs.placed.sound t info hinfo).mono fun _ ↦ id
    rcases eq_or_ne m n with rfl | hne
    · refine ⟨fun h ↦ ?_, fun h ↦ absurd h (hn c t)⟩
      simp only [Manager.setCall, Function.update_self] at h
      obtain ⟨_, _, heq⟩ := hcall _ h
      cases heq
    · simp only [Manager.setCall, Function.update_of_ne hne]

theorem Accounts.not_has_of_fresh (hs : Accounts s) (hfresh : s.transports x = none)
    (hinfo : s.infos t = some info) : ¬ info.Has x := fun hhas ↦ by
  have := hs.owned.known x (.tunnel t) info.clusterId ⟨info, hinfo, hhas, rfl⟩
  rw [hfresh] at this
  cases this

theorem Accounts.sound_openTransport (hs : Accounts s) (hfresh : s.transports x = none)
    (hinfo : s.infos t = some info) : Sound (s.openTransport x c) info := by
  have hsound := hs.placed.sound t info hinfo
  have hopen : ∀ y, info.Has y → (s.openTransport x c).IsOpen y → s.IsOpen y := fun y hhas hy ↦ by
    rcases isOpen_openTransport.mp hy with rfl | hy
    · exact absurd hhas (hs.not_has_of_fresh hfresh hinfo)
    · exact hy
  exact
    { closed := fun hstop ↦
        have ⟨hforward, htransports⟩ := hsound.closed hstop
        ⟨hforward, fun y hhas hy ↦ htransports y hhas (hopen y hhas hy)⟩
      hungUp := fun attempt hdial hy ↦ hsound.hungUp attempt hdial (hopen _ (Or.inl rfl) hy) }

theorem Accounts.connect (hs : Accounts s) {jumphost : Bool}
    (hn : s.calls n = some (.connecting c jumphost)) (hfresh : s.transports x = none) :
    Accounts ((s.openTransport x c).setCall n (some (.connected c jumphost x))) where
  owned := by
    refine hs.owned.of_open hfresh rfl (.call n)
      (holds_setCall.mpr (Or.inl ⟨rfl, _, rfl, rfl, rfl⟩)) (fun y h c' hh ↦ ?_)
      fun y h c' _ hh ↦ holds_setCall.mpr (Or.inr ⟨?_, hh⟩)
    · rcases holds_setCall.mp hh with ⟨rfl, _, hfound, htransport, -⟩ | ⟨-, hh⟩
      · cases hfound
        cases htransport
        exact Or.inl ⟨rfl, rfl⟩
      · exact Or.inr hh
    · rintro rfl
      obtain ⟨_, hfound, htransport, -⟩ := hh
      cases hn.symm.trans hfound
      cases htransport
  placed := by
    refine hs.placed.of_calls rfl rfl (fun m c t ↦ ?_) fun t info hinfo ↦ ?_
    · rcases eq_or_ne m n with rfl | hne
      · simp [Manager.setCall, hn]
      · simp [Manager.setCall, hne, Manager.openTransport]
    · exact (hs.sound_openTransport (c := c) hfresh hinfo).mono fun _ ↦ id

theorem Accounts.dial (hs : Accounts s) {attempt : Nat} (hinfo : s.infos t = some info)
    (hthread : info.healthThread = .dialing attempt) (hfresh : s.transports x = none)
    (hstop : info.stopEvent = false) :
    Accounts ((s.openTransport x info.clusterId).setInfo t
      { info with healthThread := .dialed attempt x }) where
  owned := by
    refine hs.owned.of_open hfresh rfl (.tunnel t)
      (holds_setInfo.mpr (Or.inl ⟨rfl, Or.inr (Or.inr rfl), rfl⟩)) (fun y h c' hh ↦ ?_)
      fun y h c' _ hh ↦ holds_setInfo.mpr ?_
    · rcases holds_setInfo.mp hh with ⟨rfl, hhas, hc⟩ | ⟨-, hh⟩
      · rcases hhas with hhas | hhas | hhas
        · exact Or.inr ⟨info, hinfo, Or.inl hhas, hc⟩
        · exact Or.inr ⟨info, hinfo, Or.inr (Or.inl hhas), hc⟩
        · cases hhas
          exact Or.inl ⟨rfl, rfl⟩
      · exact Or.inr hh
    · by_cases heq : h = .tunnel t
      · subst heq
        obtain ⟨_, hfound, hhas, hc⟩ := hh
        cases hinfo.symm.trans hfound
        rw [TunnelInfo.Has, hthread] at hhas
        rcases hhas with hhas | hhas | hhas
        · exact Or.inl ⟨rfl, Or.inl hhas, hc⟩
        · exact Or.inl ⟨rfl, Or.inr (Or.inl hhas), hc⟩
        · cases hhas
      · exact Or.inr ⟨heq, hh⟩
  placed := by
    have hplaced : Placed (s.openTransport x info.clusterId) :=
      hs.placed.of_calls rfl rfl (fun _ _ _ ↦ Iff.rfl) fun u found hu ↦
        hs.sound_openTransport hfresh hu
    refine hplaced.setInfo hinfo rfl id ⟨fun h ↦ absurd h (by simp [hstop]), fun _ _ hopen ↦ ?_⟩
    rcases isOpen_openTransport.mp hopen with heq | hopen
    · exact hs.not_has_of_fresh hfresh hinfo (Or.inl heq)
    · exact (hs.placed.sound t info hinfo).hungUp attempt (Or.inl hthread) hopen

theorem holds_listen (hcluster : info.clusterId = c) :
    ((s.setInfo t info).setCall n (some (.registering c t))).Holds y h c' ↔
      (h = .tunnel t ∧ info.Has y ∧ c = c') ∨ (h ≠ .tunnel t ∧ h ≠ .call n ∧ s.Holds y h c') := by
  rw [holds_setCall, holds_setInfo, hcluster]
  constructor
  · rintro (⟨-, _, hfound, htransport, -⟩ | ⟨hcalls, hh⟩)
    · cases hfound
      cases htransport
    · rcases hh with hh | ⟨htunnel, hh⟩
      · exact Or.inl hh
      · exact Or.inr ⟨htunnel, hcalls, hh⟩
  · rintro (⟨rfl, hh⟩ | ⟨htunnel, hcalls, hh⟩)
    · exact Or.inr ⟨Holder.noConfusion, Or.inl ⟨rfl, hh⟩⟩
    · exact Or.inr ⟨hcalls, Or.inr ⟨htunnel, hh⟩⟩

theorem Owned.listen (hs : Owned s) {found : Call} (hn : s.calls n = some found)
    (hfound : found.transport = some x) (hcall : found.clusterId = c) (hfresh : s.infos t = none)
    (hcluster : info.clusterId = c) (hhas : ∀ y, info.Has y ↔ y = x) :
    Owned ((s.setInfo t info).setCall n (some (.registering c t))) := by
  have hx : s.Holds x (.call n) c := ⟨found, hn, hfound, hcall⟩
  have hsole : ∀ h c', s.Holds x h c' → h = .call n := fun h c' hh ↦
    hs.sole x h (.call n) c' c hh hx
  constructor
  case held =>
    intro y transport hy hactive
    obtain ⟨h, hh⟩ := hs.held y transport hy hactive
    by_cases heq : h = .call n
    · subst heq
      obtain ⟨_, hn', hy, hc⟩ := hh
      cases hn.symm.trans hn'
      cases hfound.symm.trans hy
      exact ⟨.tunnel t, (holds_listen hcluster).mpr (Or.inl ⟨rfl, (hhas x).mpr rfl, hcall ▸ hc⟩)⟩
    · refine ⟨h, (holds_listen hcluster).mpr (Or.inr ⟨?_, heq, hh⟩)⟩
      rintro rfl
      obtain ⟨_, ht, -⟩ := hh
      cases hfresh.symm.trans ht
  case known =>
    intro y h c' hh
    rcases (holds_listen hcluster).mp hh with ⟨-, hy, -⟩ | ⟨-, -, hh⟩
    · rw [(hhas y).mp hy]
      exact hs.known x (.call n) c hx
    · exact hs.known y h c' hh
  case sole =>
    intro y h h' c₁ c₂ hh hh'
    rcases (holds_listen hcluster).mp hh with ⟨rfl, hy, -⟩ | ⟨-, hcalls, hh⟩ <;>
      rcases (holds_listen hcluster).mp hh' with ⟨rfl, hy', -⟩ | ⟨-, hcalls', hh'⟩
    · rfl
    · exact absurd (hsole h' c₂ ((hhas y).mp hy ▸ hh')) hcalls'
    · exact absurd (hsole h c₁ ((hhas y).mp hy' ▸ hh)) hcalls
    · exact hs.sole y h h' c₁ c₂ hh hh'

theorem Placed.listen (hs : Placed s) (hn : ∀ c t, s.calls n ≠ some (.registering c t))
    (hfresh : s.infos t = none) (hcluster : info.clusterId = c) (hsound : Sound s info) :
    Placed ((s.setInfo t info).setCall n (some (.registering c t))) := by
  have hfound : ∀ u c', (∃ found, s.infos u = some found ∧ found.clusterId = c') →
      ∃ found, (s.setInfo t info).infos u = some found ∧ found.clusterId = c' := by
    rintro u c' ⟨found, hu, hc⟩
    have hne : u ≠ t := by
      rintro rfl
      cases hfresh.symm.trans hu
    exact ⟨found, (Function.update_of_ne hne ..).trans hu, hc⟩
  constructor
  case registered => exact fun c' u hu ↦ hfound u c' (hs.registered c' u hu)
  case registering =>
    intro m c' u hm
    simp only [Manager.setCall] at hm
    rcases eq_or_ne m n with rfl | hne
    · rw [Function.update_self] at hm
      cases hm
      exact ⟨info, Function.update_self .., hcluster⟩
    · rw [Function.update_of_ne hne] at hm
      exact hfound u c' (hs.registering m c' u hm)
  case live =>
    intro u found hu hstop
    simp only [Manager.setInfo, Manager.setCall] at hu
    rcases eq_or_ne u t with rfl | hne
    · rw [Function.update_self] at hu
      cases hu
      exact Or.inr ⟨n, by rw [hcluster]; exact Function.update_self ..⟩
    · rw [Function.update_of_ne hne] at hu
      refine (hs.live u found hu hstop).imp id fun ⟨m, hm⟩ ↦ ⟨m, ?_⟩
      have hmn : m ≠ n := by
        rintro rfl
        exact hn _ _ hm
      exact (Function.update_of_ne hmn ..).trans hm
  case sound =>
    intro u found hu
    simp only [Manager.setInfo, Manager.setCall] at hu
    rcases eq_or_ne u t with rfl | hne
    · rw [Function.update_self] at hu
      cases hu
      exact hsound.mono fun _ ↦ id
    · rw [Function.update_of_ne hne] at hu
      exact (hs.sound u found hu).mono fun _ ↦ id

theorem Accounts.register (hs : Accounts s) (hn : s.calls n = some (.registering c t))
    (hnone : s.tunnels c = none) : Accounts ((s.setTunnel c (some t)).setCall n none) where
  owned := by
    refine hs.owned.of_holds rfl (fun x h c' hh ↦ ?_) fun x h c' _ hh ↦ holds_setCall.mpr ?_
    · rcases holds_setCall.mp hh with ⟨-, _, hfound, -⟩ | ⟨-, hh⟩
      · cases hfound
      · exact hh
    · refine Or.inr ⟨?_, hh⟩
      rintro rfl
      obtain ⟨_, hfound, htransport, -⟩ := hh
      cases hn.symm.trans hfound
      cases htransport
  placed := by
    constructor
    case registered =>
      intro c' u hu
      simp only [Manager.setTunnel, Manager.setCall] at hu
      rcases eq_or_ne c' c with rfl | hne
      · rw [Function.update_self] at hu
        cases hu
        exact hs.placed.registering n c' t hn
      · rw [Function.update_of_ne hne] at hu
        exact hs.placed.registered c' u hu
    case registering =>
      intro m c' u hm
      simp only [Manager.setCall] at hm
      rcases eq_or_ne m n with rfl | hne
      · rw [Function.update_self] at hm
        cases hm
      · rw [Function.update_of_ne hne] at hm
        exact hs.placed.registering m c' u hm
    case live =>
      intro u found hu hstop
      rcases hs.placed.live u found hu hstop with htunnel | ⟨m, hm⟩
      · refine Or.inl ((Function.update_of_ne ?_ ..).trans htunnel)
        rintro heq
        rw [heq, hnone] at htunnel
        cases htunnel
      · rcases eq_or_ne m n with rfl | hne
        · cases hn.symm.trans hm
          exact Or.inl (Function.update_self ..)
        · exact Or.inr ⟨m, (Function.update_of_ne hne ..).trans hm⟩
    case sound => exact fun u found hu ↦ (hs.placed.sound u found hu).mono fun _ ↦ id

theorem Accounts.setTunnel_none (hs : Accounts s)
    (hclosed : ∀ t, s.tunnels c = some t → ∀ info, s.infos t = some info → info.stopEvent = true) :
    Accounts (s.setTunnel c none) where
  owned := hs.owned.of_holds rfl (fun _ _ _ ↦ id) fun _ _ _ _ ↦ id
  placed := by
    constructor
    case registered =>
      intro c' u hu
      simp only [Manager.setTunnel] at hu
      rcases eq_or_ne c' c with rfl | hne
      · rw [Function.update_self] at hu
        cases hu
      · rw [Function.update_of_ne hne] at hu
        exact hs.placed.registered c' u hu
    case registering => exact hs.placed.registering
    case live =>
      intro u found hu hstop
      refine (hs.placed.live u found hu hstop).imp (fun htunnel ↦ ?_) id
      refine (Function.update_of_ne ?_ ..).trans htunnel
      rintro heq
      rw [heq] at htunnel
      rw [hclosed u htunnel found hu] at hstop
      cases hstop
    case sound => exact fun u found hu ↦ (hs.placed.sound u found hu).mono fun _ ↦ id

@[simp]
theorem tunnels_shut : (s.shut t info).tunnels = s.tunnels := by
  unfold Manager.shut
  cases info.jumphostClient <;> rfl

@[simp]
theorem calls_shut : (s.shut t info).calls = s.calls := by
  unfold Manager.shut
  cases info.jumphostClient <;> rfl

theorem infos_shut_of_ne {u : Nat} (hne : u ≠ t) : (s.shut t info).infos u = s.infos u := by
  unfold Manager.shut
  cases info.jumphostClient <;> exact Function.update_of_ne hne ..

theorem closeTunnelInternal_eq (hinfo : ∀ t, s.tunnels c = some t → (s.infos t).isSome = true) :
    (s.tunnels c = none ∧ s.closeTunnelInternal c = s) ∨
      ∃ t info, s.tunnels c = some t ∧ s.infos t = some info ∧
        s.closeTunnelInternal c = (s.shut t info).setTunnel c none := by
  unfold Manager.closeTunnelInternal
  cases ht : s.tunnels c with
  | none => exact Or.inl ⟨rfl, rfl⟩
  | some t =>
    obtain ⟨info, hfound⟩ := Option.isSome_iff_exists.mp (hinfo t ht)
    refine Or.inr ⟨t, info, rfl, hfound, ?_⟩
    simp only [hfound, Manager.shut]
    cases info.jumphostClient <;> rfl

theorem Accounts.shut (hs : Accounts s) (hinfo : s.infos t = some info)
    (hthread : ∀ x ∈ info.healthThread.transport, ¬ s.IsOpen x) : Accounts (s.shut t info) := by
  have hclosed : Accounts (info.jumphostClient.elim (s.closeTransport info.transport)
      (s.closeTransport info.transport).closeTransport) := by
    cases info.jumphostClient with
    | none => exact hs.closeTransport _
    | some client => exact (hs.closeTransport _).closeTransport _
  have hfound : (info.jumphostClient.elim (s.closeTransport info.transport)
      (s.closeTransport info.transport).closeTransport).infos t = some info := by
    cases info.jumphostClient <;> exact hinfo
  have hnone : ∀ x, info.Has x → ¬ (s.shut t info).IsOpen x := by
    intro x hhas hx
    obtain ⟨hopen, htransport, hclient⟩ := isOpen_shut.mp hx
    rcases hhas with hhas | hhas | hhas
    · exact htransport hhas.symm
    · exact hclient hhas
    · exact hthread x hhas hopen
  exact hclosed.setInfo hfound ⟨rfl, fun _ ↦ id, fun _ _ ↦ id, Bool.noConfusion,
    fun _ ↦ ⟨rfl, hnone⟩, fun _ _ ↦ hnone _ (Or.inl rfl)⟩

theorem Accounts.isSome_of_registered (hs : Accounts s) (ht : s.tunnels c = some t) :
    (s.infos t).isSome = true :=
  have ⟨_, hinfo, _⟩ := hs.placed.registered c t ht
  Option.isSome_of_mem hinfo

theorem Accounts.closeTunnelInternal (hs : Accounts s) (hclosable : s.Closable c) :
    Accounts (s.closeTunnelInternal c) := by
  rcases closeTunnelInternal_eq fun t ↦ hs.isSome_of_registered with
    ⟨-, heq⟩ | ⟨t, info, ht, hinfo, heq⟩
  · rwa [heq]
  · rw [heq]
    refine (hs.shut hinfo (hclosable t ht info hinfo)).setTunnel_none fun u hu found hfound ↦ ?_
    rw [tunnels_shut, ht] at hu
    cases hu
    have hshut : (s.shut t info).infos t = some _ := Function.update_self ..
    cases hshut.symm.trans hfound
    rfl

end

end BnkForge.Tunnels
