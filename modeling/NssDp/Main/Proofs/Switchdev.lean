import NssDp.Main.Proofs.StpRollback
import NssDp.Main.Switchdev
import NssDp.Misc.Simulation

/-!
# What a bridge has settled

After any calls, a port is as the attributes that were committed on it last have left it; the first
phase, other devices and other events change nothing. Where the FAL calls succeed, the control
packet profiles are those of the ports that are disabled; the ethertype profile follows them as long
as no probe ends while a port is disabled.
-/

namespace NssDp

open History Lts

/-- An attribute that is set on a port in the second phase. -/
structure Commit where
  dev : Nat
  macid : Nat
  attr : SwitchdevAttr
  env : StpEnv

def commitOf (ports : Nat → Option Nat) (dev : Nat) (attr : SwitchdevAttr) (prepare : Bool)
    (env : StpEnv) : Option Commit :=
  if prepare then none else (ports dev).map fun macid => ⟨dev, macid, attr, env⟩

/-- The attribute that a call commits on a device of the driver. -/
def committed (ports : Nat → Option Nat) : SwitchdevCall → Option Commit
  | .event dev (.portAttrSet info) env => commitOf ports dev info.attr info.prepare env
  | .attrSet dev attr prepare env => commitOf ports dev attr prepare env
  | .setup _ | .probed | .event _ .other _ => none

namespace Commit

/-- What a commit makes of the state. -/
def apply (c : Commit) (s : Switchdev) : Switchdev :=
  (nssDpPortAttrSet s c.dev c.macid c.attr false c.env).2

/-- The flags that a commit sets on a device. -/
def flagsOn (dev : Nat) (c : Commit) : Option Nat :=
  match c.attr with
  | .portBridgeFlags flags => if c.dev = dev then some flags else none
  | _ => none

/-- The state that a commit gives to a port of the switch. -/
def stateOn (macid : Nat) (c : Commit) : Option (Option FalStpState) :=
  match c.attr with
  | .portStpState state =>
    if c.macid = macid ∧ c.env.stpPortStateSet = true ∧ state ≠ .unknown then
      some (falStpState state)
    else none
  | _ => none

/-- Whether a commit turns the filter on or off for its port. -/
def filter (c : Commit) : Option Bool :=
  match c.attr with
  | .portStpState .disabled => some true
  | .portStpState .forwarding => some false
  | _ => none

def filterOn (macid : Nat) (c : Commit) : Option Bool :=
  if c.macid = macid then c.filter else none

/-- The FAL calls that a commit makes for the filter succeed. -/
def Granted (s : Switchdev) (c : Commit) : Prop :=
  c.filter.isSome = true → c.env.stpPortStateSet = true ∧ c.env.filter.Granted s.slow c.macid

end Commit

/-- A probe ends. -/
def SwitchdevCall.isProbed : SwitchdevCall → Bool
  | .probed => true
  | _ => false

/-- The FAL calls of the filter succeed in a call. -/
def CallGranted (ports : Nat → Option Nat) (s : Switchdev) (a : SwitchdevCall) : Prop :=
  ∀ c ∈ committed ports a, c.Granted s

/-- They do, and a probe ends while no port is in the bitmap. -/
def CallKeepsFilter (ports : Nat → Option Nat) (s : Switchdev) (a : SwitchdevCall) : Prop :=
  CallGranted ports s a ∧ (a.isProbed = true → s.slow.slowprotoAclBm = 0#8)

/-- A call commits an attribute, ends a probe, or changes nothing that a bridge can set. -/
inductive SwitchdevMoves (ports : Nat → Option Nat) (s t : Switchdev) (a : SwitchdevCall) :
    Prop where
  | commit (c : Commit) (hcommit : committed ports a = some c) (hport : ports c.dev = some c.macid)
      (heq : t = c.apply s)
  | probed (hprobed : a.isProbed = true) (hnone : committed ports a = none)
      (heq : t = { s with slow := probeEnd s.slow })
  | keep (hnone : committed ports a = none) (hslow : t.slow = s.slow)
      (hstate : t.stpState = s.stpState) (hflags : t.brportFlags = s.brportFlags)

section Step

variable {ports : Nat → Option Nat} {s t : Switchdev} {a : SwitchdevCall}

theorem switchdevStep_moves (h : switchdevStep ports s a = some t) :
    SwitchdevMoves ports s t a := by
  cases a with
  | setup ok =>
    cases h
    unfold nssDpSwitchdevSetup
    split <;> exact .keep rfl rfl rfl rfl
  | probed =>
    cases h
    exact .probed rfl rfl rfl
  | event dev event env =>
    simp only [switchdevStep, nssDpSwitchdevEvent] at h
    split at h
    · cases h
    · cases event with
      | other =>
        cases hdev : ports dev with
        | none | some macid =>
          rw [hdev] at h
          cases h
          exact .keep rfl rfl rfl rfl
      | portAttrSet info =>
        cases hdev : ports dev with
        | none =>
          rw [hdev] at h
          cases h
          exact .keep (by simp [committed, commitOf, hdev]) rfl rfl rfl
        | some macid =>
          rw [hdev] at h
          cases h
          cases hphase : info.prepare with
          | true =>
            refine .keep (by simp [committed, commitOf, hphase]) ?_ ?_ ?_ <;>
              simp [nssDpSwitchdevPortAttrSetEvent, nssDpPortAttrSet, hphase]
          | false =>
            refine .commit ⟨dev, macid, info.attr, env⟩ ?_ hdev ?_
            · simp [committed, commitOf, hphase, hdev]
            · simp [Commit.apply, nssDpSwitchdevPortAttrSetEvent, hphase]
  | attrSet dev attr prepare env =>
    obtain ⟨macid, hdev, rfl⟩ := Option.map_eq_some_iff.mp h
    cases prepare with
    | true => exact .keep rfl rfl rfl rfl
    | false =>
      refine .commit ⟨dev, macid, attr, env⟩ ?_ hdev rfl
      simp [committed, commitOf, hdev]

end Step

section Commit

variable {s : Switchdev} {c : Commit}

theorem Commit.apply_flags (dev : Nat) :
    (c.apply s).brportFlags dev = (c.flagsOn dev).getD (s.brportFlags dev) := by
  obtain ⟨dev', macid, attr, env⟩ := c
  cases attr with
  | portBridgeFlags flags =>
    rcases eq_or_ne dev' dev with rfl | hne
    · simp [apply, nssDpPortAttrSet, flagsOn]
    · simp [apply, nssDpPortAttrSet, flagsOn, hne, Function.update_of_ne hne.symm]
  | portStpState state => rfl
  | portParentId | other => rfl

/-- `nss_dp_stp_state_set` succeeds where it knows the state and the switch accepts it. -/
theorem nssDpStpStateSet_ok {s : SlowProto} {macid : Nat} {state : BrState} {env : StpEnv} :
    (nssDpStpStateSet s macid state env).1 = .ok ↔
      env.stpPortStateSet = true ∧ state ≠ .unknown := by
  unfold nssDpStpStateSet
  cases state <;> cases env.stpPortStateSet <;> simp

theorem Commit.apply_state (macid : Nat) :
    (c.apply s).stpState macid = (c.stateOn macid).getD (s.stpState macid) := by
  obtain ⟨dev, macid', attr, env⟩ := c
  cases attr with
  | portStpState state =>
    simp only [apply, nssDpPortAttrSet, Switchdev.nssDpStpStateSet, nssDpStpStateSet_ok, stateOn,
      Bool.false_eq_true, if_false]
    by_cases hok : env.stpPortStateSet = true ∧ state ≠ .unknown
    · rcases eq_or_ne macid' macid with rfl | hne
      · simp [hok]
      · simp [hok, hne, Function.update_of_ne hne.symm]
    · have hnot : ¬ (macid' = macid ∧ env.stpPortStateSet = true ∧ state ≠ .unknown) :=
        fun h => hok h.2
      rw [if_neg hok, if_neg hnot]
      rfl
  | portBridgeFlags flags | portParentId | other => rfl

/-- What a commit whose FAL calls succeed does to the filter. -/
inductive FilterMoves (s s' : SlowProto) (macid : Nat) : Option Bool → Prop where
  | on (heq : s' = s.enabled macid) : FilterMoves s s' macid (some true)
  | off (heq : s' = s.disabled macid) : FilterMoves s s' macid (some false)
  | absent (hnot : portMap macid ∉ s.profiles) (heq : s' = s) : FilterMoves s s' macid (some false)
  | keep (heq : s' = s) : FilterMoves s s' macid none

theorem Commit.apply_filter (hgranted : c.Granted s) :
    FilterMoves s.slow (c.apply s).slow c.macid c.filter := by
  obtain ⟨dev, macid, attr, env⟩ := c
  cases attr with
  | portStpState state =>
    cases state with
    | disabled =>
      obtain ⟨hset, hfilter⟩ := hgranted rfl
      dsimp only at hset
      refine .on (Eq.trans ?_ hfilter.enable)
      simp [apply, nssDpPortAttrSet, Switchdev.nssDpStpStateSet, nssDpStpStateSet, hset]
    | forwarding =>
      obtain ⟨hset, hfilter⟩ := hgranted rfl
      dsimp only at hset
      have hslow : (apply ⟨dev, macid, .portStpState .forwarding, env⟩ s).slow =
          nssDpSetSlowProtoFilter s.slow macid false env.filter := by
        simp [apply, nssDpPortAttrSet, Switchdev.nssDpStpStateSet, nssDpStpStateSet, hset]
      rcases hfilter.disable with hdone | ⟨habsent, hdone⟩
      · exact .off (hslow.trans hdone)
      · exact .absent habsent (hslow.trans hdone)
    | listening | learning | blocking =>
      refine .keep ?_
      simp only [apply, nssDpPortAttrSet, Switchdev.nssDpStpStateSet, nssDpStpStateSet]
      cases env.stpPortStateSet <;> rfl
    | unknown => exact .keep rfl
  | portBridgeFlags flags | portParentId | other => exact .keep rfl

end Commit

/-- The devices of the driver have ports of the SoC. -/
def PortsOf (soc : Soc) (ports : Nat → Option Nat) : Prop :=
  ∀ dev macid, ports dev = some macid → 1 ≤ macid ∧ macid ≤ soc.maxPorts

/-- The bitmap mirrors the switch, and has ports of devices only. -/
structure FilterKept (soc : Soc) (ports : Nat → Option Nat) (s : SlowProto) : Prop where
  mirrors : Mirrors soc s
  owned : ∀ i, s.slowprotoAclBm.getLsbD i = true → ∃ dev, ports dev = some i

section Filter

variable {soc : Soc} {ports : Nat → Option Nat} {s s' : SlowProto} {p q dev : Nat}
variable {filter : Option Bool}

/-- All the FAL calls of the filter succeed. -/
def filterGranted : FilterEnv := ⟨true, true, true⟩

theorem enabled_eq (s : SlowProto) (p : Nat) :
    nssDpSetSlowProtoFilter s p true filterGranted = s.enabled p :=
  FilterEnv.Granted.enable ⟨rfl, fun _ => rfl, rfl⟩

theorem disabled_eq (s : SlowProto) (p : Nat) :
    nssDpSetSlowProtoFilter s p false filterGranted = s.disabled p := by
  unfold nssDpSetSlowProtoFilter SlowProto.disabled NoOther
  by_cases hother : s.slowprotoAclBm &&& ~~~portBit p = 0#8
  · simp [filterGranted, hother]
  · simp [filterGranted, hother]

theorem FilterMoves.kept (h : FilterMoves s s' p filter) (hs : FilterKept soc ports s)
    (hdev : ports dev = some p) (hpos : 1 ≤ p) (hle : p ≤ soc.maxPorts) :
    FilterKept soc ports s' := by
  have hp : p < 8 := hle.trans_lt (maxPorts_lt soc)
  cases h with
  | on heq =>
    rw [heq]
    refine ⟨?_, fun i hi => ?_⟩
    · rw [← enabled_eq]
      exact (enable_mirrors hs.mirrors hpos hle).mpr fun _ _ => .inl rfl
    · rw [SlowProto.enabled, or_getLsbD hp, Bool.or_eq_true, decide_eq_true_eq] at hi
      rcases hi with hi | rfl
      · exact hs.owned i hi
      · exact ⟨dev, hdev⟩
  | off heq =>
    rw [heq]
    refine ⟨?_, fun i hi => ?_⟩
    · rw [← disabled_eq]
      exact (disable_mirrors hs.mirrors hle).mpr fun _ _ => rfl
    · rw [SlowProto.disabled, and_getLsbD hp, Bool.and_eq_true] at hi
      exact hs.owned i hi.1
  | absent _ heq | keep heq =>
    rw [heq]
    exact hs

/-- The profile of a port is installed as the commit for it wants it. -/
theorem FilterMoves.installed (h : FilterMoves s s' p filter) (hq : q < 8) :
    decide (portMap q ∈ s'.profiles) =
      (if p = q then filter else none).getD (decide (portMap q ∈ s.profiles)) := by
  cases h with
  | on heq =>
    rw [heq]
    rcases eq_or_ne p q with rfl | hne
    · simp [SlowProto.enabled]
    · simp [SlowProto.enabled, hne, portMap_inj hq, hne.symm]
  | off heq =>
    rw [heq]
    rcases eq_or_ne p q with rfl | hne
    · simp [SlowProto.disabled]
    · simp [SlowProto.disabled, hne, portMap_inj hq, hne.symm]
  | absent hnot heq =>
    rw [heq]
    rcases eq_or_ne p q with rfl | hne
    · simp [hnot]
    · simp [hne]
  | keep heq =>
    rw [heq, ite_self]
    rfl

end Filter

section Runs

variable {soc : Soc} {ports : Nat → Option Nat} {s t u : Switchdev} {a : SwitchdevCall}
variable {as : List SwitchdevCall} {dev macid : Nat}

/-- A value that commits set, and nothing else, is as the last of them has left it. -/
theorem run_latest_commit {β : Type} (val : Switchdev → β) {I : Switchdev → Prop}
    {C : Switchdev → SwitchdevCall → Prop} {set : Commit → Option β}
    (hkept : ∀ s a t, I s → C s a → switchdevStep ports s a = some t → I t)
    (hcommit : ∀ s a c, I s → C s a → committed ports a = some c → ports c.dev = some c.macid →
      val (c.apply s) = (set c).getD (val s))
    (hkeep : ∀ s t : Switchdev, t.slow.profiles = s.slow.profiles → t.stpState = s.stpState →
      t.brportFlags = s.brportFlags → val t = val s)
    (hs : I s) (hmeet : StepsMeet (switchdevStep ports) C s as)
    (hrun : run (switchdevStep ports) s as = some u) :
    val u = (latest set (as.filterMap (committed ports))).getD (val s) := by
  rw [latest_filterMap]
  refine run_latest hkept ?_ hs hmeet hrun
  intro s a t hs hC hstep
  cases switchdevStep_moves hstep with
  | commit c hcommitted hport heq =>
    rw [heq, hcommitted]
    exact hcommit s a c hs hC hcommitted hport
  | probed _ hnone heq =>
    rw [hnone, heq]
    exact hkeep s _ rfl rfl rfl
  | keep hnone hslow hstate hflags =>
    rw [hnone]
    exact hkeep s t (congrArg SlowProto.profiles hslow) hstate hflags

theorem switchdevStep_kept (hports : PortsOf soc ports) (hs : FilterKept soc ports s.slow)
    (hkeeps : CallKeepsFilter ports s a) (h : switchdevStep ports s a = some t) :
    FilterKept soc ports t.slow := by
  obtain ⟨hgranted, hempty⟩ := hkeeps
  cases switchdevStep_moves h with
  | commit c hcommitted hport heq =>
    obtain ⟨hpos, hle⟩ := hports c.dev c.macid hport
    rw [heq]
    exact (Commit.apply_filter (hgranted c hcommitted)).kept hs hport hpos hle
  | probed hprobed _ heq =>
    rw [heq]
    refine ⟨(probeEnd_mirrors hs.mirrors).mpr (hempty hprobed), fun i hi => ?_⟩
    rw [probeEnd, BitVec.getLsbD_zero] at hi
    cases hi
  | keep hnone hslow hstate hflags =>
    rw [hslow]
    exact hs

theorem filterKept_init (soc : Soc) (ports : Nat → Option Nat) :
    FilterKept soc ports SlowProto.init := by
  refine ⟨SlowProto.init_mirrors soc, fun i hi => ?_⟩
  rw [SlowProto.init, BitVec.getLsbD_zero] at hi
  cases hi

/-- One notifier is registered at most, and none before the first probe. -/
theorem switchdevStep_notifiers (h : switchdevStep ports s a = some t)
    (hs : s.notifiers ≤ if s.switchInitDone then 1 else 0) :
    t.notifiers ≤ if t.switchInitDone then 1 else 0 := by
  cases a with
  | setup ok =>
    cases h
    unfold nssDpSwitchdevSetup
    split
    · rename_i hdone
      rwa [if_pos hdone] at hs
    · rename_i hdone
      rw [if_neg hdone] at hs
      cases ok
      · exact hs.trans (Nat.zero_le _)
      · exact Nat.succ_le_succ hs
  | probed =>
    cases h
    exact hs
  | event dev event env =>
    have hsame : (nssDpSwitchdevEvent ports s dev event env).2.2.notifiers = s.notifiers ∧
        (nssDpSwitchdevEvent ports s dev event env).2.2.switchInitDone = s.switchInitDone := by
      unfold nssDpSwitchdevEvent nssDpSwitchdevPortAttrSetEvent nssDpPortAttrSet
      split
      · exact ⟨rfl, rfl⟩
      · split
        · dsimp only
          split
          · exact ⟨rfl, rfl⟩
          · split <;> exact ⟨rfl, rfl⟩
        · exact ⟨rfl, rfl⟩
    simp only [switchdevStep] at h
    split at h
    · cases h
    · cases h
      rw [hsame.1, hsame.2]
      exact hs
  | attrSet dev attr prepare env =>
    obtain ⟨macid, hdev, rfl⟩ := Option.map_eq_some_iff.mp h
    unfold nssDpAttrSet
    split
    · exact hs
    · split <;> exact hs

/-- While its FAL calls succeed, a profile is installed for a port exactly where the last commit
    for it that turned the filter on or off has turned it on. -/
theorem switchdevRun_installed (hports : PortsOf soc ports)
    (hgranted : StepsMeet (switchdevStep ports) (CallGranted ports) .init as)
    (hrun : run (switchdevStep ports) .init as = some u) (hdev : ports dev = some macid) :
    portMap macid ∈ u.slow.profiles ↔
      latest (Commit.filterOn macid) (as.filterMap (committed ports)) = some true := by
  have hval : decide (portMap macid ∈ u.slow.profiles) =
      (latest (Commit.filterOn macid) (as.filterMap (committed ports))).getD false := by
    refine run_latest_commit (fun s => decide (portMap macid ∈ s.slow.profiles))
      (I := fun _ => True) (fun _ _ _ _ _ _ => trivial) ?_ ?_ trivial hgranted hrun
    · intro s a c _ hC hcommitted _
      exact (Commit.apply_filter (hC c hcommitted)).installed
        ((hports dev macid hdev).2.trans_lt (maxPorts_lt soc))
    · intro s t hprofiles _ _
      rw [hprofiles]
  refine decide_eq_true_iff.symm.trans ?_
  rw [hval]
  cases latest (Commit.filterOn macid) (as.filterMap (committed ports)) with
  | none => simp
  | some on => simp

/-- The ethertype profile is that of slow protocols exactly where a port has a profile. -/
theorem FilterKept.ethtype (hports : PortsOf soc ports) (hs : FilterKept soc ports u.slow) :
    u.slow.ethtypeProfile = ethPSlow ↔
      ∃ dev macid, ports dev = some macid ∧ portMap macid ∈ u.slow.profiles := by
  rw [hs.mirrors.ethtype]
  constructor
  · intro hne
    obtain ⟨i, hi⟩ : ∃ i, u.slow.slowprotoAclBm.getLsbD i = true := by
      by_contra hnone
      apply hne
      apply BitVec.eq_of_getLsbD_eq
      intro i _
      rw [BitVec.getLsbD_zero]
      exact Bool.not_eq_true _ |>.mp (not_exists.mp hnone i)
    obtain ⟨dev, hdev⟩ := hs.owned i hi
    obtain ⟨hpos, hle⟩ := hports dev i hdev
    exact ⟨dev, i, hdev, (hs.mirrors.profiles i hpos hle).mp hi⟩
  · rintro ⟨dev, macid, hdev, hmem⟩ hzero
    obtain ⟨hpos, hle⟩ := hports dev macid hdev
    exact hs.mirrors.not_mem hzero hpos hle hmem

end Runs

section Decide

instance (env : FilterEnv) (s : SlowProto) (macid : Nat) : Decidable (env.Granted s macid) :=
  decidable_of_iff (env.profileAdd = true ∧ (portMap macid ∈ s.profiles → env.profileDel = true) ∧
      env.ethtypeProfileSet = true)
    ⟨fun h => ⟨h.1, h.2.1, h.2.2⟩, fun h => ⟨h.add, h.del, h.ethtype⟩⟩

instance (s : Switchdev) (c : Commit) : Decidable (c.Granted s) :=
  inferInstanceAs (Decidable (_ → _ ∧ _))

instance decidableCallGranted (ports : Nat → Option Nat) (s : Switchdev) (a : SwitchdevCall) :
    Decidable (CallGranted ports s a) :=
  inferInstanceAs (Decidable (∀ c ∈ committed ports a, c.Granted s))

instance decidableCallKeepsFilter (ports : Nat → Option Nat) (s : Switchdev) (a : SwitchdevCall) :
    Decidable (CallKeepsFilter ports s a) :=
  inferInstanceAs (Decidable (_ ∧ (_ → _)))

end Decide

/-- Devices 5 and 7 are ports 1 and 2. -/
def twoPorts (dev : Nat) : Option Nat :=
  if dev = 5 then some 1 else if dev = 7 then some 2 else none

/-- The attribute event of a device. -/
def attrEvent (dev : Nat) (attr : SwitchdevAttr) (prepare : Bool) : SwitchdevCall :=
  .event dev (.portAttrSet ⟨attr, prepare, false⟩) falOk

/-- The first probe; its port is disabled and forwards again, and the second probe ends. Then the
    second port is disabled, and what is only prepared or is for another device counts for
    nothing. -/
def settledCalls : List SwitchdevCall :=
  [.setup true, .probed, attrEvent 5 (.portStpState .disabled) false, .setup true,
    attrEvent 5 (.portStpState .forwarding) false, .probed,
    attrEvent 5 (.portStpState .disabled) true, attrEvent 7 (.portStpState .disabled) false,
    attrEvent 5 (.portBridgeFlags 3) false, attrEvent 7 (.portStpState .forwarding) true,
    attrEvent 9 (.portStpState .disabled) false]

end NssDp
