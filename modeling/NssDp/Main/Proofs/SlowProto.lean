import NssDp.Misc.Lts
import NssDp.Main.SlowProto

/-!
# The bitmap of slow protocols mirrors the switch

One call of the filter keeps the bitmap and the tables of the switch in step unless a FAL call
fails that would undo or finish what another has done. A probe does not where the bitmap has ports.
-/

namespace NssDp

open Lts

/-- The bitmap says for which ports profiles are installed. -/
def ProfilesShown (soc : Soc) (s : SlowProto) : Prop :=
  ∀ macid, 1 ≤ macid → macid ≤ soc.maxPorts →
    (s.slowprotoAclBm.getLsbD macid = true ↔ portMap macid ∈ s.profiles)

/-- And the ethertype profile is that of slow protocols while the bitmap has ports. -/
structure Mirrors (soc : Soc) (s : SlowProto) : Prop where
  profiles : ProfilesShown soc s
  ethtype : s.ethtypeProfile = ethPSlow ↔ s.slowprotoAclBm ≠ 0#8

/-- When the filter is enabled for a port: with an empty bitmap, either the ethertype profile can be
    set or the profile of the port can be taken back. -/
def EnableKeeps (empty : Prop) (env : FilterEnv) : Prop :=
  empty → env.profileAdd = true → env.ethtypeProfileSet = true ∨ env.profileDel = true

/-- When the filter is disabled for a port: with the last port, the ethertype profile can be
    reset. -/
def DisableKeeps (last : Prop) (env : FilterEnv) : Prop :=
  last → env.profileDel = true → env.ethtypeProfileSet = true

/-- No other port is in the bitmap. -/
def NoOther (s : SlowProto) (macid : Nat) : Prop := s.slowprotoAclBm &&& ~~~portBit macid = 0#8

section Filter

variable {soc : Soc} {s : SlowProto} {p q : Nat} {env : FilterEnv}

theorem maxPorts_lt (soc : Soc) : soc.maxPorts < 8 := by cases soc <;> decide

theorem portBit_getLsbD (hp : p < 8) : (portBit p).getLsbD q = decide (q = p) := by
  rw [portBit, BitVec.getLsbD_shiftLeft, BitVec.getLsbD_one]
  rcases lt_trichotomy q p with hlt | rfl | hgt
  · simp [hlt, hlt.ne]
  · simp [hp]
  · have hne : q - p ≠ 0 := by omega
    simp [hne, hgt.ne']

theorem portBit_ne_zero (hp : p < 8) : portBit p ≠ 0#8 := by
  intro heq
  have hbit := portBit_getLsbD (q := p) hp
  rw [heq, BitVec.getLsbD_zero, decide_eq_true rfl] at hbit
  cases hbit

theorem portMap_inj (hq : q < 8) : portMap q = portMap p ↔ q = p := by
  refine ⟨fun heq => ?_, congrArg _⟩
  have hbit := congrArg (fun w => BitVec.getLsbD w q) heq
  simp only [portMap, BitVec.getLsbD_shiftLeft, BitVec.getLsbD_one] at hbit
  by_contra hne
  have hcases : q < p ∨ q - p ≠ 0 := by omega
  rcases hcases with hlt | hne'
  · simp [hlt, show q < 32 by omega] at hbit
  · simp [hne', show q < 32 by omega] at hbit

/-- A port is entered. -/
theorem or_getLsbD (hp : p < 8) :
    (s.slowprotoAclBm ||| portBit p).getLsbD q =
    (s.slowprotoAclBm.getLsbD q || decide (q = p)) := by
  rw [BitVec.getLsbD_or, portBit_getLsbD hp]

/-- A port is taken out. -/
theorem and_getLsbD (hp : p < 8) :
    (s.slowprotoAclBm &&& ~~~portBit p).getLsbD q =
      (s.slowprotoAclBm.getLsbD q && !decide (q = p)) := by
  rw [BitVec.getLsbD_and, BitVec.getLsbD_not, portBit_getLsbD hp]
  by_cases hq : q < 8
  · simp [hq]
  · rw [BitVec.getLsbD_of_ge _ _ (not_lt.mp hq), Bool.false_and, Bool.false_and]

theorem or_ne_zero (hp : p < 8) : s.slowprotoAclBm ||| portBit p ≠ 0#8 := by
  intro heq
  have hbit := or_getLsbD (s := s) (q := p) hp
  rw [heq, BitVec.getLsbD_zero, decide_eq_true rfl, Bool.or_true] at hbit
  cases hbit

end Filter

theorem ethPNone_ne : ethPNone ≠ ethPSlow := by decide

section Keeps

variable {soc : Soc} {s : SlowProto} {p : Nat} {env : FilterEnv}

theorem insert_profiles (h : ProfilesShown soc s) (hp : p < 8) {eth : BitVec 16} :
    ProfilesShown soc
      ⟨s.slowprotoAclBm ||| portBit p, insert (portMap p) s.profiles, eth⟩ := by
  intro q hpos hle
  have hlt := maxPorts_lt soc
  rw [or_getLsbD hp, Bool.or_eq_true, h q hpos hle, decide_eq_true_eq, Finset.mem_insert,
    portMap_inj (by omega)]
  exact or_comm

theorem erase_profiles (h : ProfilesShown soc s) (hp : p < 8) {eth : BitVec 16} :
    ProfilesShown soc
      ⟨s.slowprotoAclBm &&& ~~~portBit p, s.profiles.erase (portMap p), eth⟩ := by
  intro q hpos hle
  have hlt := maxPorts_lt soc
  rw [and_getLsbD hp, Bool.and_eq_true, h q hpos hle, Bool.not_eq_true',
    decide_eq_false_iff_not, Finset.mem_erase, Ne, portMap_inj (by omega)]
  exact and_comm

/-- With an empty bitmap no profile is installed. -/
theorem Mirrors.not_mem (h : Mirrors soc s) (hempty : s.slowprotoAclBm = 0#8) (hpos : 1 ≤ p)
    (hle : p ≤ soc.maxPorts) : portMap p ∉ s.profiles := by
  rw [← h.profiles p hpos hle, hempty, BitVec.getLsbD_zero]
  exact Bool.false_ne_true

/-- Profiles that the bitmap does not show. -/
theorem not_mirrors_of_mem (hempty : s.slowprotoAclBm = 0#8) (hmem : portMap p ∈ s.profiles)
    (hpos : 1 ≤ p) (hle : p ≤ soc.maxPorts) : ¬ Mirrors soc s := fun h =>
    h.not_mem hempty hpos hle hmem

/-- Enabling the filter for a port. -/
theorem enable_mirrors (h : Mirrors soc s) (hpos : 1 ≤ p) (hle : p ≤ soc.maxPorts) :
    Mirrors soc (nssDpSetSlowProtoFilter s p true env) ↔
      EnableKeeps (s.slowprotoAclBm = 0#8) env := by
  have hp : p < 8 := hle.trans_lt (maxPorts_lt soc)
  unfold nssDpSetSlowProtoFilter EnableKeeps
  rw [if_pos rfl]
  split
  · rename_i hadd
    apply iff_of_true h
    intro _ hadd'
    cases hadd.symm.trans hadd'
  rename_i hadd
  rw [Bool.not_eq_false] at hadd
  dsimp only
  split
  · rename_i hempty
    split
    · rename_i hset
      refine iff_of_true ⟨insert_profiles h.profiles hp, ?_⟩ fun _ _ => Or.inl hset
      exact iff_of_true rfl (or_ne_zero hp)
    rename_i hset
    split
    · rename_i hdel
      refine iff_of_true ?_ fun _ _ => Or.inr hdel
      rw [Finset.erase_insert (h.not_mem hempty hpos hle)]
      exact h
    · rename_i hdel
      refine iff_of_false (not_mirrors_of_mem hempty (Finset.mem_insert_self _ _) hpos hle) ?_
      exact fun hkeeps => (hkeeps hempty hadd).elim hset hdel
  · rename_i hnonempty
    refine iff_of_true ⟨insert_profiles h.profiles hp, ?_⟩ fun hempty => absurd hempty hnonempty
    exact iff_of_true (h.ethtype.mpr hnonempty) (or_ne_zero hp)

/-- Disabling the filter for a port. -/
theorem disable_mirrors (h : Mirrors soc s) (hle : p ≤ soc.maxPorts) :
    Mirrors soc (nssDpSetSlowProtoFilter s p false env) ↔
      DisableKeeps (s.slowprotoAclBm ≠ 0#8 ∧ NoOther s p) env := by
  have hp : p < 8 := hle.trans_lt (maxPorts_lt soc)
  unfold nssDpSetSlowProtoFilter DisableKeeps
  rw [if_neg Bool.false_ne_true]
  split
  · rename_i hdel
    apply iff_of_true h
    intro _ hdel'
    cases hdel.symm.trans hdel'
  rename_i hdel
  rw [Bool.not_eq_false] at hdel
  dsimp only
  split
  · rename_i hempty
    split
    · rename_i hset
      refine iff_of_true ⟨erase_profiles h.profiles hp, ?_⟩ fun _ _ => hset
      exact iff_of_false ethPNone_ne (not_not_intro hempty)
    · rename_i hset
      constructor
      · intro hmirrors hlast
        exact absurd hempty (hmirrors.ethtype.mp (h.ethtype.mpr hlast.1))
      · intro hkeeps
        refine ⟨erase_profiles h.profiles hp, iff_of_false (fun heth => ?_) (not_not_intro hempty)⟩
        exact hset (hkeeps ⟨h.ethtype.mp heth, hempty⟩ hdel)
  · rename_i hnonempty
    refine iff_of_true ⟨erase_profiles h.profiles hp, ?_⟩ fun hlast => absurd hlast.2 hnonempty
    refine iff_of_true (h.ethtype.mpr fun hzero => hnonempty ?_) hnonempty
    rw [hzero, BitVec.zero_and]

end Keeps

/-- When a change of the state of a bridge port keeps the mirror: the filter does, and where the
    state cannot be set, so does putting the filter back; that may also repair what the filter has
    left. -/
def StpKeeps (s : SlowProto) (macid : Nat) (state : BrState) (env : StpEnv) : Prop :=
  match state with
  | .disabled =>
    (env.stpPortStateSet = true → EnableKeeps (s.slowprotoAclBm = 0#8) env.filter) ∧
    (env.stpPortStateSet = false →
      (EnableKeeps (s.slowprotoAclBm = 0#8) env.filter →
        DisableKeeps ((s.slowprotoAclBm ≠ 0#8 ∨
          (env.filter.profileAdd = true ∧ env.filter.ethtypeProfileSet = true)) ∧ NoOther s macid)
          env.restore) ∧
      (¬ EnableKeeps (s.slowprotoAclBm = 0#8) env.filter → env.restore.profileDel = true))
  | .forwarding =>
    (env.stpPortStateSet = true →
      DisableKeeps (s.slowprotoAclBm ≠ 0#8 ∧ NoOther s macid) env.filter) ∧
    (env.stpPortStateSet = false →
      (DisableKeeps (s.slowprotoAclBm ≠ 0#8 ∧ NoOther s macid) env.filter →
        EnableKeeps (s.slowprotoAclBm = 0#8 ∨ (env.filter.profileDel = true ∧ NoOther s macid))
          env.restore) ∧
      (¬ DisableKeeps (s.slowprotoAclBm ≠ 0#8 ∧ NoOther s macid) env.filter →
        env.restore.profileAdd = true ∧ env.restore.ethtypeProfileSet = true))
  | .listening | .learning | .blocking | .unknown => True

section Restore

variable {soc : Soc} {s : SlowProto} {p : Nat} {env env' : FilterEnv}

/-- The bitmap after the filter has been enabled for a port. -/
theorem enable_bitmap : (nssDpSetSlowProtoFilter s p true env).slowprotoAclBm =
    if env.profileAdd = true ∧ (s.slowprotoAclBm ≠ 0#8 ∨ env.ethtypeProfileSet = true) then
      s.slowprotoAclBm ||| portBit p else s.slowprotoAclBm := by
  unfold nssDpSetSlowProtoFilter
  cases env.profileAdd with
  | false => simp
  | true =>
    by_cases hempty : s.slowprotoAclBm = 0#8
    · cases env.ethtypeProfileSet <;> cases env.profileDel <;> simp [hempty]
    · simp [hempty]

theorem disable_bitmap : (nssDpSetSlowProtoFilter s p false env).slowprotoAclBm =
    if env.profileDel = true then s.slowprotoAclBm &&& ~~~portBit p else s.slowprotoAclBm := by
  unfold nssDpSetSlowProtoFilter
  cases env.profileDel with
  | false => simp
  | true =>
    simp only [Bool.false_eq_true, if_false, if_true, Bool.true_eq_false]
    split
    · split <;> rfl
    · rfl

/-- Whether there are other ports in the bitmap does not depend on the port. -/
theorem enable_noOther : NoOther (nssDpSetSlowProtoFilter s p true env) p ↔ NoOther s p := by
  rw [NoOther, NoOther, enable_bitmap]
  split
  · have hself : portBit p &&& ~~~portBit p = 0#8 := BitVec.and_not_self _
    rw [BitVec.and_or_distrib_right, hself, BitVec.or_zero]
  · exact Iff.rfl

theorem enable_nonempty (hp : p < 8) :
    (nssDpSetSlowProtoFilter s p true env).slowprotoAclBm ≠ 0#8 ↔ s.slowprotoAclBm ≠ 0#8 ∨
      (env.profileAdd = true ∧ env.ethtypeProfileSet = true) := by
  rw [enable_bitmap]
  split
  · rename_i hadded
    exact iff_of_true (or_ne_zero hp) (hadded.2.imp id fun hset => ⟨hadded.1, hset⟩)
  · rename_i hnot
    refine (or_iff_left fun hboth => hnot ⟨hboth.1, Or.inr hboth.2⟩).symm

theorem disable_empty :
    (nssDpSetSlowProtoFilter s p false env).slowprotoAclBm = 0#8 ↔
      s.slowprotoAclBm = 0#8 ∨ (env.profileDel = true ∧ NoOther s p) := by
  rw [disable_bitmap]
  split
  · rename_i hdel
    refine ⟨fun hempty => Or.inr ⟨hdel, hempty⟩, ?_⟩
    rintro (hempty | ⟨-, hother⟩)
    · rw [hempty, BitVec.zero_and]
    · exact hother
  · rename_i hdel
    exact (or_iff_left fun hboth => hdel hboth.1).symm

/-- A filter that could not be taken back is removed by a later deletion of the profile. -/
theorem disable_repairs (h : Mirrors soc s) (hpos : 1 ≤ p) (hle : p ≤ soc.maxPorts)
    (hnot : ¬ EnableKeeps (s.slowprotoAclBm = 0#8) env) :
    Mirrors soc (nssDpSetSlowProtoFilter (nssDpSetSlowProtoFilter s p true env) p false env') ↔
      env'.profileDel = true := by
  simp only [EnableKeeps, Classical.not_imp, not_or, Bool.not_eq_true] at hnot
  obtain ⟨hempty, hadd, hset, hdel⟩ := hnot
  have hfirst : nssDpSetSlowProtoFilter s p true env =
      { s with profiles := insert (portMap p) s.profiles } := by
    unfold nssDpSetSlowProtoFilter
    simp [hadd, hempty, hset, hdel]
  rw [hfirst]
  unfold nssDpSetSlowProtoFilter
  cases env'.profileDel with
  | false =>
    exact iff_of_false (not_mirrors_of_mem hempty (Finset.mem_insert_self _ _) hpos hle)
      Bool.false_ne_true
  | true =>
    refine iff_of_true ?_ rfl
    have hzero : s.slowprotoAclBm &&& ~~~portBit p = 0#8 := by rw [hempty, BitVec.zero_and]
    have heth : s.ethtypeProfile ≠ ethPSlow := fun heth => h.ethtype.mp heth hempty
    have hprofiles : ProfilesShown soc ⟨0#8, s.profiles, s.ethtypeProfile⟩ := by
      rw [← hempty]
      exact h.profiles
    simp only [Bool.false_eq_true, if_false, Bool.true_eq_false, hzero, if_true,
      Finset.erase_insert (h.not_mem hempty hpos hle)]
    split
    · exact ⟨hprofiles, iff_of_false ethPNone_ne fun hne => hne rfl⟩
    · exact ⟨hprofiles, iff_of_false heth fun hne => hne rfl⟩

/-- An ethertype profile that could not be reset is right again when the port comes back. -/
theorem enable_repairs (h : Mirrors soc s) (hle : p ≤ soc.maxPorts)
    (hnot : ¬ DisableKeeps (s.slowprotoAclBm ≠ 0#8 ∧ NoOther s p) env) :
    Mirrors soc (nssDpSetSlowProtoFilter (nssDpSetSlowProtoFilter s p false env) p true env') ↔
      env'.profileAdd = true ∧ env'.ethtypeProfileSet = true := by
  have hp : p < 8 := hle.trans_lt (maxPorts_lt soc)
  simp only [DisableKeeps, Classical.not_imp, Bool.not_eq_true] at hnot
  obtain ⟨⟨hnonempty, hother⟩, hdel, hset⟩ := hnot
  have hzero : s.slowprotoAclBm &&& ~~~portBit p = 0#8 := hother
  have hslow := h.ethtype.mpr hnonempty
  have hfirst : nssDpSetSlowProtoFilter s p false env =
      ⟨0#8, s.profiles.erase (portMap p), ethPSlow⟩ := by
    unfold nssDpSetSlowProtoFilter
    simp [hdel, hzero, hset, hslow]
  have hshown : ProfilesShown soc ⟨0#8, s.profiles.erase (portMap p), ethPSlow⟩ := by
    rw [← hzero]
    exact erase_profiles h.profiles hp
  have hwrong {profiles : Finset (BitVec 32)} : ¬ Mirrors soc ⟨0#8, profiles, ethPSlow⟩ :=
    fun hmirrors => hmirrors.ethtype.mp rfl rfl
  rw [hfirst]
  unfold nssDpSetSlowProtoFilter
  cases env'.profileAdd with
  | false => exact iff_of_false hwrong fun hboth => Bool.false_ne_true hboth.1
  | true =>
    cases env'.ethtypeProfileSet with
    | true =>
      have hbit : 0#8 ||| portBit p ≠ 0#8 := by
        rw [BitVec.zero_or]
        exact portBit_ne_zero hp
      exact iff_of_true ⟨insert_profiles hshown hp, iff_of_true rfl hbit⟩ ⟨rfl, rfl⟩
    | false =>
      refine iff_of_false ?_ fun hboth => Bool.false_ne_true hboth.2
      cases env'.profileDel with
      | true => exact hwrong
      | false => exact hwrong

end Restore

section Runs

variable {soc : Soc} {s s' : SlowProto} {p : Nat} {state : BrState}

theorem nssDpStpStateSet_mirrors {env : StpEnv} (h : Mirrors soc s) (hpos : 1 ≤ p)
    (hle : p ≤ soc.maxPorts) :
    Mirrors soc (nssDpStpStateSet s p state env).2 ↔ StpKeeps s p state env := by
  have hp : p < 8 := hle.trans_lt (maxPorts_lt soc)
  unfold nssDpStpStateSet StpKeeps
  cases state with
  | disabled =>
    cases env.stpPortStateSet with
    | true =>
      refine (enable_mirrors h hpos hle).trans ⟨fun hkeeps => ⟨fun _ => hkeeps, ?_⟩, fun hboth =>
        hboth.1 rfl⟩
      exact fun hfails => nomatch hfails
    | false =>
      refine Iff.trans ?_ ⟨fun hboth => ⟨fun hset => (nomatch hset), fun _ => hboth⟩, fun hboth =>
        hboth.2 rfl⟩
      by_cases hkeeps : EnableKeeps (s.slowprotoAclBm = 0#8) env.filter
      · have hfirst := (enable_mirrors h hpos hle).mpr hkeeps
        apply (disable_mirrors hfirst hle).trans
        rw [enable_noOther, enable_nonempty hp]
        exact ⟨fun hlast => ⟨fun _ => hlast, fun hnot => absurd hkeeps hnot⟩,
          fun hboth => hboth.1 hkeeps⟩
      · apply (disable_repairs h hpos hle hkeeps).trans
        exact ⟨fun hdel => ⟨fun hkeeps' => absurd hkeeps' hkeeps, fun _ => hdel⟩,
          fun hboth => hboth.2 hkeeps⟩
  | forwarding =>
    cases env.stpPortStateSet with
    | true =>
      refine (disable_mirrors h hle).trans ⟨fun hkeeps => ⟨fun _ => hkeeps, ?_⟩, fun hboth =>
        hboth.1 rfl⟩
      exact fun hfails => nomatch hfails
    | false =>
      refine Iff.trans ?_ ⟨fun hboth => ⟨fun hset => (nomatch hset), fun _ => hboth⟩, fun hboth =>
        hboth.2 rfl⟩
      by_cases hkeeps : DisableKeeps (s.slowprotoAclBm ≠ 0#8 ∧ NoOther s p) env.filter
      · have hfirst := (disable_mirrors h hle).mpr hkeeps
        apply (enable_mirrors hfirst hpos hle).trans
        rw [disable_empty]
        exact ⟨fun hempty => ⟨fun _ => hempty, fun hnot => absurd hkeeps hnot⟩,
          fun hboth => hboth.1 hkeeps⟩
      · apply (enable_repairs h hle hkeeps).trans
        exact ⟨fun hback => ⟨fun hkeeps' => absurd hkeeps' hkeeps, fun _ => hback⟩,
          fun hboth => hboth.2 hkeeps⟩
  | listening | learning | blocking =>
    dsimp only
    split <;> exact iff_of_true h trivial
  | unknown => exact iff_of_true h trivial

/-- A probe forgets the ports of the bitmap. -/
theorem probeEnd_mirrors (h : Mirrors soc s) :
    Mirrors soc (probeEnd s) ↔ s.slowprotoAclBm = 0#8 := by
  constructor
  · intro hmirrors
    by_contra hnonempty
    exact hmirrors.ethtype.mp (h.ethtype.mpr hnonempty) rfl
  · intro hempty
    have hsame : probeEnd s = s := by rw [probeEnd, ← hempty]
    rw [hsame]
    exact h

/-- When a call keeps the mirror. -/
def BridgeKeeps (s : SlowProto) : BridgeCall → Prop
  | .stpStateSet macid state env => StpKeeps s macid state env
  | .probe => s.slowprotoAclBm = 0#8

theorem bridgeStep_mirrors {c : BridgeCall} (h : Mirrors soc s)
    (hstep : bridgeStep soc s c = some s') : BridgeKeeps s c ↔ Mirrors soc s' := by
  cases c with
  | stpStateSet macid state env =>
    obtain ⟨hport, heq⟩ := Option.ite_none_right_eq_some.mp hstep
    cases heq
    exact (nssDpStpStateSet_mirrors h hport.1 hport.2).symm
  | probe =>
    cases hstep
    exact (probeEnd_mirrors h).symm

end Runs

/-- In every run of state changes and probes, from a state in which the bitmap mirrors the switch,
    it does so in every state exactly where every call keeps the mirror. -/
theorem bridgeRun_mirrors_iff (soc : Soc) {s u : SlowProto} (h : Mirrors soc s)
    {cs : List BridgeCall} (hrun : run (bridgeStep soc) s cs = some u) :
    Always (bridgeStep soc) (Mirrors soc) s cs ↔ StepsMeet (bridgeStep soc) BridgeKeeps s cs :=
  always_iff_stepsMeet (fun _ h => h) (fun _ _ _ h hstep => bridgeStep_mirrors h hstep)
    (fun _ _ _ _ _ h => h) h hrun

theorem SlowProto.init_mirrors (soc : Soc) : Mirrors soc SlowProto.init := by
  refine ⟨fun p _ _ => iff_of_false ?_ (Finset.notMem_empty _), ?_⟩
  · rw [SlowProto.init, BitVec.getLsbD_zero]
    exact Bool.false_ne_true
  · exact iff_of_false ethPNone_ne fun hne => hne rfl

section Decide

variable (s : SlowProto)

instance (empty : Prop) [Decidable empty] (env : FilterEnv) : Decidable (EnableKeeps empty env) :=
  inferInstanceAs (Decidable (_ → _ → _))

instance (last : Prop) [Decidable last] (env : FilterEnv) : Decidable (DisableKeeps last env) :=
  inferInstanceAs (Decidable (_ → _ → _))

instance (macid : Nat) : Decidable (NoOther s macid) := inferInstanceAs (Decidable (_ = _))

instance decidableStpKeeps (macid : Nat) : ∀ state env, Decidable (StpKeeps s macid state env)
  | .disabled, _ | .forwarding, _ => inferInstanceAs (Decidable ((_ → _) ∧ (_ → _ ∧ _)))
  | .listening, _ | .learning, _ | .blocking, _ | .unknown, _ => isTrue trivial

instance decidableBridgeKeeps : ∀ c, Decidable (BridgeKeeps s c)
  | .stpStateSet macid state env => inferInstanceAs (Decidable (StpKeeps s macid state env))
  | .probe => inferInstanceAs (Decidable (s.slowprotoAclBm = 0#8))

end Decide

/-- All FAL calls succeed, or all fail. -/
def falOk : StpEnv := ⟨⟨true, true, true⟩, true, ⟨true, true, true⟩⟩

def falFails : StpEnv := ⟨⟨false, false, false⟩, false, ⟨false, false, false⟩⟩

/-- Ports 1 and 2 are disabled and forward again, once with the switch failing. -/
def bridged : List BridgeCall :=
  [.probe, .stpStateSet 1 .disabled falOk, .stpStateSet 2 .disabled falOk,
    .stpStateSet 1 .forwarding falFails, .stpStateSet 1 .forwarding falOk,
    .stpStateSet 2 .learning falFails, .stpStateSet 2 .forwarding falOk, .probe]

theorem bridgeRun_mirrors_iff_bridged :
    Always (bridgeStep .ipq807x) (Mirrors .ipq807x) SlowProto.init bridged := by
  obtain ⟨u, hrun⟩ : ∃ u, run (bridgeStep .ipq807x) SlowProto.init bridged = some u :=
    Option.isSome_iff_exists.mp (by decide +kernel)
  exact (bridgeRun_mirrors_iff .ipq807x (SlowProto.init_mirrors .ipq807x) hrun).mpr
    (by decide +kernel)

/-- Port 1 is disabled before another port is probed. -/
def lateProbe : List BridgeCall := [.probe, .stpStateSet 1 .disabled falOk, .probe]

/-- The profile of port 1 stays installed, and the bitmap does not show it. -/
theorem lateProbe_forgets : Mirrors .ipq807x SlowProto.init ∧
    (∃ t, run (bridgeStep .ipq807x) SlowProto.init lateProbe = some t ∧
      t.slowprotoAclBm = 0#8 ∧ portMap 1 ∈ t.profiles ∧ t.ethtypeProfile = ethPSlow) ∧
    ¬ Always (bridgeStep .ipq807x) (Mirrors .ipq807x) SlowProto.init lateProbe := by
  refine ⟨SlowProto.init_mirrors .ipq807x, ⟨_, rfl, rfl, by decide, rfl⟩, fun hall => ?_⟩
  have hlast := hall.last (u := ⟨0#8, {portMap 1}, ethPSlow⟩) rfl
  exact hlast.ethtype.mp rfl rfl

end NssDp
