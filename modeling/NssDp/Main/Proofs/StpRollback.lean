import NssDp.Main.Proofs.SlowProto

/-!
# The rollback of `nss_dp_stp_state_set`

Where the state of a bridge port cannot be set, the filter for slow protocols is put back by
the opposite operation. That restores what the operation before it has changed, and changes
what it has not.
-/

namespace NssDp

attribute [ext] SlowProto

section Calls

variable {s : SlowProto} {p : Nat} {env env' : FilterEnv}

/-- The FAL calls of the filter succeed; the deletion of a profile that is not installed may
    fail. -/
structure FilterEnv.Granted (env : FilterEnv) (s : SlowProto) (macid : Nat) : Prop where
  add : env.profileAdd = true
  del : portMap macid ∈ s.profiles → env.profileDel = true
  ethtype : env.ethtypeProfileSet = true

/-- The filter after it has been enabled for a port. -/
def SlowProto.enabled (s : SlowProto) (macid : Nat) : SlowProto where
  slowprotoAclBm := s.slowprotoAclBm ||| portBit macid
  profiles := insert (portMap macid) s.profiles
  ethtypeProfile := if s.slowprotoAclBm = 0#8 then ethPSlow else s.ethtypeProfile

/-- The filter after it has been disabled for a port. -/
def SlowProto.disabled (s : SlowProto) (macid : Nat) : SlowProto where
  slowprotoAclBm := s.slowprotoAclBm &&& ~~~portBit macid
  profiles := s.profiles.erase (portMap macid)
  ethtypeProfile := if NoOther s macid then ethPNone else s.ethtypeProfile

theorem FilterEnv.Granted.enable (h : env.Granted s p) :
    nssDpSetSlowProtoFilter s p true env = s.enabled p := by
  unfold nssDpSetSlowProtoFilter SlowProto.enabled
  rw [if_pos rfl, if_neg (by simp [h.add])]
  by_cases hempty : s.slowprotoAclBm = 0#8
  · simp only [hempty, if_true, h.ethtype]
  · simp only [hempty, if_false]

/-- With the deletion of an absent profile failing, nothing is done. -/
theorem FilterEnv.Granted.disable (h : env.Granted s p) :
    nssDpSetSlowProtoFilter s p false env = s.disabled p ∨
      (portMap p ∉ s.profiles ∧ nssDpSetSlowProtoFilter s p false env = s) := by
  unfold nssDpSetSlowProtoFilter
  rw [if_neg Bool.false_ne_true]
  cases hdel : env.profileDel with
  | true =>
    left
    unfold SlowProto.disabled NoOther
    rw [if_neg (by decide)]
    by_cases hother : s.slowprotoAclBm &&& ~~~portBit p = 0#8
    · simp only [hother, if_true, h.ethtype]
    · simp only [hother, if_false]
  | false =>
    right
    refine ⟨fun hmem => ?_, if_pos rfl⟩
    rw [h.del hmem] at hdel
    cases hdel

theorem FilterEnv.Granted.disable_of_mem (h : env.Granted s p) (hmem : portMap p ∈ s.profiles) :
    nssDpSetSlowProtoFilter s p false env = s.disabled p := by
  rcases h.disable with hdone | ⟨habsent, -⟩
  · exact hdone
  · exact absurd hmem habsent

end Calls

section Undo

variable {s : SlowProto} {p : Nat}

theorem and_eq_self_iff (hp : p < 8) :
    s.slowprotoAclBm &&& ~~~portBit p = s.slowprotoAclBm ↔
      s.slowprotoAclBm.getLsbD p = false := by
  constructor
  · intro heq
    have hbit := and_getLsbD (s := s) (q := p) hp
    rw [heq, decide_eq_true rfl, Bool.not_true, Bool.and_false] at hbit
    exact hbit
  · intro habsent
    apply BitVec.eq_of_getLsbD_eq
    intro i _
    rw [and_getLsbD hp]
    rcases eq_or_ne i p with rfl | hne
    · rw [habsent, Bool.false_and]
    · simp [hne]

theorem or_eq_self_iff (hp : p < 8) :
    s.slowprotoAclBm ||| portBit p = s.slowprotoAclBm ↔ s.slowprotoAclBm.getLsbD p = true := by
  constructor
  · intro heq
    have hbit := or_getLsbD (s := s) (q := p) hp
    rw [heq, decide_eq_true rfl, Bool.or_true] at hbit
    exact hbit
  · intro hpresent
    apply BitVec.eq_of_getLsbD_eq
    intro i _
    rw [or_getLsbD hp]
    rcases eq_or_ne i p with rfl | hne
    · rw [hpresent, Bool.true_or]
    · simp [hne]

/-- Disabling undoes enabling for a port that was not there before. -/
theorem enabled_disabled_iff (hp : p < 8) :
    (s.enabled p).disabled p = s ↔
      s.slowprotoAclBm.getLsbD p = false ∧ portMap p ∉ s.profiles ∧
        (s.slowprotoAclBm = 0#8 → s.ethtypeProfile = ethPNone) := by
  have hbm : ((s.enabled p).disabled p).slowprotoAclBm = s.slowprotoAclBm &&& ~~~portBit p := by
    have hself : portBit p &&& ~~~portBit p = 0#8 := BitVec.and_not_self _
    simp only [SlowProto.enabled, SlowProto.disabled, BitVec.and_or_distrib_right, hself,
      BitVec.or_zero]
  have hprofiles : ((s.enabled p).disabled p).profiles = s.profiles.erase (portMap p) :=
    Finset.erase_insert_eq_erase _ _
  have heth : ((s.enabled p).disabled p).ethtypeProfile =
      if NoOther s p then ethPNone else (s.enabled p).ethtypeProfile := by
    have hother : NoOther (s.enabled p) p ↔ NoOther s p := by
      unfold NoOther
      rw [← hbm]
      rfl
    simp only [SlowProto.disabled, hother]
  constructor
  · intro heq
    rw [heq] at hbm hprofiles heth
    refine ⟨(and_eq_self_iff hp).mp hbm.symm, Finset.erase_eq_self.mp hprofiles.symm, ?_⟩
    intro hempty
    rw [heth, if_pos]
    rw [NoOther, hempty, BitVec.zero_and]
  · rintro ⟨hbit, hmem, hnone⟩
    have hand := (and_eq_self_iff hp).mpr hbit
    refine SlowProto.ext (hbm.trans hand) (hprofiles.trans (Finset.erase_eq_self.mpr hmem)) ?_
    rw [heth]
    split
    · rename_i hother
      exact (hnone (hand.symm.trans hother)).symm
    · rename_i hother
      exact if_neg fun hempty => hother (hand.trans hempty)

/-- Enabling undoes disabling for a port that was there before. -/
theorem disabled_enabled_iff (hp : p < 8) :
    (s.disabled p).enabled p = s ↔
      s.slowprotoAclBm.getLsbD p = true ∧ portMap p ∈ s.profiles ∧
        (NoOther s p → s.ethtypeProfile = ethPSlow) := by
  have hbm : ((s.disabled p).enabled p).slowprotoAclBm = s.slowprotoAclBm ||| portBit p := by
    simp only [SlowProto.enabled, SlowProto.disabled]
    apply BitVec.eq_of_getLsbD_eq
    intro i _
    rw [BitVec.getLsbD_or, and_getLsbD hp, or_getLsbD hp, portBit_getLsbD hp]
    cases s.slowprotoAclBm.getLsbD i <;> simp
  have hprofiles : ((s.disabled p).enabled p).profiles = insert (portMap p) s.profiles := by
    ext i
    simp only [SlowProto.enabled, SlowProto.disabled, Finset.mem_insert, Finset.mem_erase]
    tauto
  have heth : ((s.disabled p).enabled p).ethtypeProfile =
      if NoOther s p then ethPSlow else s.ethtypeProfile := by
    change (if NoOther s p then ethPSlow else (if NoOther s p then ethPNone else _)) = _
    split
    · rfl
    · rfl
  constructor
  · intro heq
    rw [heq] at hbm hprofiles heth
    refine ⟨(or_eq_self_iff hp).mp hbm.symm, Finset.insert_eq_self.mp hprofiles.symm, ?_⟩
    intro hother
    rw [heth, if_pos hother]
  · rintro ⟨hbit, hmem, hslow⟩
    refine SlowProto.ext (hbm.trans ((or_eq_self_iff hp).mpr hbit))
      (hprofiles.trans (Finset.insert_eq_self.mpr hmem)) ?_
    rw [heth]
    split
    · rename_i hother
      exact (hslow hother).symm
    · rfl

/-- Enabling alone leaves the filter as it was for a port that is there. -/
theorem enabled_iff (hp : p < 8) : s.enabled p = s ↔
    s.slowprotoAclBm.getLsbD p = true ∧ portMap p ∈ s.profiles := by
  constructor
  · intro heq
    have hbm := congrArg SlowProto.slowprotoAclBm heq
    have hprofiles := congrArg SlowProto.profiles heq
    exact ⟨(or_eq_self_iff hp).mp hbm, Finset.insert_eq_self.mp hprofiles⟩
  · rintro ⟨hbit, hmem⟩
    refine SlowProto.ext ((or_eq_self_iff hp).mpr hbit) (Finset.insert_eq_self.mpr hmem) ?_
    refine if_neg fun hempty => ?_
    rw [hempty, BitVec.getLsbD_zero] at hbit
    cases hbit

end Undo

/-- The FAL calls of the filter succeed, before the state is set and after it could not be. -/
def StpEnv.FilterGranted (env : StpEnv) (s : SlowProto) (macid : Nat) : BrState → Prop
  | .disabled => env.filter.Granted s macid ∧
      env.restore.Granted (nssDpSetSlowProtoFilter s macid true env.filter) macid
  | .forwarding => env.filter.Granted s macid ∧
      env.restore.Granted (nssDpSetSlowProtoFilter s macid false env.filter) macid
  | .listening | .learning | .blocking | .unknown => True

/-- The operation before the rollback changes the entries of the port, and the ethertype profile
    is the one that the rollback sets. -/
def RollbackUndoes (s : SlowProto) (macid : Nat) : BrState → Prop
  | .disabled => s.slowprotoAclBm.getLsbD macid = false ∧ portMap macid ∉ s.profiles ∧
      (s.slowprotoAclBm = 0#8 → s.ethtypeProfile = ethPNone)
  | .forwarding => s.slowprotoAclBm.getLsbD macid = true ∧ portMap macid ∈ s.profiles ∧
      (NoOther s macid → s.ethtypeProfile = ethPSlow)
  | .listening | .learning | .blocking | .unknown => True

/-- A change of state that fails with -EINVAL leaves the filter as it was exactly where the
    rollback undoes what was done. -/
theorem nssDpStpStateSet_rollback_iff (soc : Soc) {s : SlowProto} {p : Nat} {state : BrState}
    {env : StpEnv} (hle : p ≤ soc.maxPorts) (hgranted : env.FilterGranted s p state)
    (hret : (nssDpStpStateSet s p state env).1 = .einval) :
    (nssDpStpStateSet s p state env).2 = s ↔ RollbackUndoes s p state := by
  have hp : p < 8 := hle.trans_lt (maxPorts_lt soc)
  have hfailed : env.stpPortStateSet = false := by
    cases hset : env.stpPortStateSet with
    | false => rfl
    | true =>
      unfold nssDpStpStateSet at hret
      rw [hset] at hret
      cases state <;> cases hret
  unfold nssDpStpStateSet
  rw [hfailed]
  cases state with
  | disabled =>
    obtain ⟨hfilter, hrestore⟩ := hgranted
    rw [hfilter.enable] at hrestore
    simp only [hfilter.enable, Bool.false_eq_true, if_false]
    rw [hrestore.disable_of_mem (Finset.mem_insert_self _ _)]
    exact enabled_disabled_iff hp
  | forwarding =>
    obtain ⟨hfilter, hrestore⟩ := hgranted
    simp only [Bool.false_eq_true, if_false]
    rw [hrestore.enable]
    rcases hfilter.disable with hdone | ⟨habsent, hdone⟩
    · rw [hdone]
      exact disabled_enabled_iff hp
    · rw [hdone, enabled_iff hp]
      exact iff_of_false (fun hboth => habsent hboth.2) fun hundoes => habsent hundoes.2.1
  | listening | learning | blocking => exact iff_of_true rfl trivial
  | unknown => exact iff_of_true rfl trivial

/-- The state of the port cannot be set, and every other call succeeds. -/
def stpFails : StpEnv := ⟨⟨true, true, true⟩, false, ⟨true, true, true⟩⟩

/-- Port 1 is to be disabled while it has no filter. -/
theorem nssDpStpStateSet_rollback_iff_disabled :
    (nssDpStpStateSet SlowProto.init 1 .disabled stpFails).2 = SlowProto.init :=
  (nssDpStpStateSet_rollback_iff .ipq807x (by decide)
    (show stpFails.FilterGranted SlowProto.init 1 .disabled from
      ⟨⟨rfl, fun _ => rfl, rfl⟩, ⟨rfl, fun _ => rfl, rfl⟩⟩) rfl).mpr
        ⟨rfl, by decide, fun _ => rfl⟩

/-- Port 1 is to forward while it has no filter: afterwards it has one. -/
theorem nssDpStpStateSet_rollback_forwarding :
    stpFails.FilterGranted SlowProto.init 1 .forwarding ∧
      nssDpStpStateSet SlowProto.init 1 .forwarding stpFails =
        (.einval, ⟨portBit 1, {portMap 1}, ethPSlow⟩) ∧
      (nssDpStpStateSet SlowProto.init 1 .forwarding stpFails).2 ≠ SlowProto.init := by
  refine ⟨⟨⟨rfl, fun _ => rfl, rfl⟩, ⟨rfl, fun _ => rfl, rfl⟩⟩, rfl, fun heq => ?_⟩
  have hbm := congrArg SlowProto.slowprotoAclBm heq
  revert hbm
  decide

end NssDp
