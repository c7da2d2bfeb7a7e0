import NssDp.Main.Eee

/-!
# Setting and getting EEE

A mask of link modes is translated to the FAL bit by bit, and back. Where the link modes of the FAL
are single bits that differ, the second translation undoes the first.
-/

namespace NssDp.Eee

open LowBits

/-- All link modes of the FAL. -/
def FalPhyEee.modes (k : FalPhyEee) : List (BitVec 32) :=
  [k.base10T, k.base100T, k.base1000T, k.base2500T, k.base5000T, k.base10000T]

/-- They are single bits, and no two are the same. -/
structure FalPhyEee.DistinctBits (k : FalPhyEee) : Prop where
  single : ∀ mode ∈ k.modes, ∃ j < 32, mode = 1#32 <<< j
  nodup : k.modes.Nodup

/-- A port gives back what was set. -/
def FalEee.Stores {σ : Type} (fal : FalEee σ) : Prop :=
  ∀ s macid cfg t, fal.cfgSet s macid cfg = (true, t) → ∃ cfg', fal.cfgGet t macid = some cfg' ∧
    cfg'.enable = cfg.enable ∧ cfg'.advertisement = cfg.advertisement ∧
      cfg'.lpiTxEnable = cfg.lpiTxEnable ∧ cfg'.lpiSleepTimer = cfg.lpiSleepTimer

/-- The five full duplex modes of ethtool by their bits, with those of the FAL. -/
def FalPhyEee.table (k : FalPhyEee) : List (Nat × BitVec 32) :=
  [(1, k.base10T), (3, k.base100T), (5, k.base1000T), (15, k.base2500T), (12, k.base10000T)]

/-- Every bit of a mask is one of the five modes, and the port has it. -/
def Advertisable (k : FalPhyEee) (capability mask : BitVec 32) : Prop :=
  ∀ i, mask.getLsbD i = true → ∃ mode, (i, mode) ∈ k.table ∧ capability &&& mode ≠ 0

section Bits

variable {k : FalPhyEee} {i j : Nat} {mode capability mask advertisement : BitVec 32}

theorem getLsbD_one_shiftLeft (hi : i < 32) : (1#32 <<< i).getLsbD j = true ↔ j = i := by
  rw [BitVec.getLsbD_shiftLeft, BitVec.getLsbD_one]
  simp
  omega

theorem one_shiftLeft_inj (hi : i < 32) (hj : j < 32) : 1#32 <<< i = 1#32 <<< j ↔ i = j := by
  constructor
  · intro heq
    have hbit := (getLsbD_one_shiftLeft (j := i) hi).mpr rfl
    rw [heq] at hbit
    exact (getLsbD_one_shiftLeft hj).mp hbit
  · exact congrArg _

/-- The switch of `nss_dp_set_eee` is the table. -/
theorem ethtoolToFal_eq_some (hi : i < 32) :
    ethtoolToFal k (1#32 <<< i) = some mode ↔ (i, mode) ∈ k.table := by
  unfold ethtoolToFal full10baseT full100baseT full1000baseT full2500baseX full10000baseT
  simp only [one_shiftLeft_inj hi (show 1 < 32 by decide),
    one_shiftLeft_inj hi (show 3 < 32 by decide), one_shiftLeft_inj hi (show 5 < 32 by decide),
    one_shiftLeft_inj hi (show 15 < 32 by decide), one_shiftLeft_inj hi (show 12 < 32 by decide),
    FalPhyEee.table, List.mem_cons, Prod.mk.injEq, List.not_mem_nil, or_false]
  grind

/-- The translation from the FAL undoes the table. -/
theorem falToEthtool_of_mem_table (hk : k.DistinctBits) (h : (i, mode) ∈ k.table) :
    falToEthtool k mode = 1#32 <<< i := by
  have hnodup := hk.nodup
  simp only [FalPhyEee.modes, List.nodup_cons, List.mem_cons, List.not_mem_nil, or_false,
    not_or] at hnodup
  simp only [FalPhyEee.table, List.mem_cons, Prod.mk.injEq, List.not_mem_nil, or_false] at h
  unfold falToEthtool full10baseT full100baseT full1000baseT full2500baseX full10000baseT
  grind

theorem mem_modes_of_mem_table (h : (i, mode) ∈ k.table) : mode ∈ k.modes := by
  simp only [FalPhyEee.table, List.mem_cons, Prod.mk.injEq, List.not_mem_nil, or_false] at h
  simp only [FalPhyEee.modes, List.mem_cons, List.not_mem_nil, or_false]
  tauto

theorem lt_of_mem_table (h : (i, mode) ∈ k.table) : i < 32 := by
  simp only [FalPhyEee.table, List.mem_cons, Prod.mk.injEq, List.not_mem_nil, or_false] at h
  omega

end Bits

section Loops

variable {k : FalPhyEee} {capability mask advertisement : BitVec 32}

/-- The translation from the FAL ends, and adds the mode of every bit. -/
theorem xlate_spec (k : FalPhyEee) (xlateTo xlateFrom : BitVec 32) :
    ∃ res, nssDpFalToEthtoolLinkmodeXlate k xlateTo xlateFrom = some res ∧
      ∀ j, res.getLsbD j = true ↔ xlateTo.getLsbD j = true ∨
        ∃ i, xlateFrom.getLsbD i = true ∧ (falToEthtool k (1#32 <<< i)).getLsbD j = true := by
  let body (modes : BitVec 32) (pos : Nat) : Except Empty (BitVec 32) :=
    .ok (modes ||| falToEthtool k (1#32 <<< pos))
  obtain ⟨left, hloop⟩ := loop_eq_foldlM body xlateFrom xlateTo
  obtain ⟨res, hres, hbits⟩ : ∃ res, (bits xlateFrom).foldlM body xlateTo = .ok res ∧ _ :=
    foldlM_or_ok (f := fun i => some (falToEthtool k (1#32 <<< i)))
      (fun acc i b hb => by cases hb; rfl) fun _ _ => rfl
  refine ⟨res, ?_, fun j => ?_⟩
  · change (loop body 33 xlateFrom xlateTo).bind _ = _
    rw [hloop, hres]
    rfl
  · rw [hbits j]
    simp only [mem_bits, Option.some.injEq, exists_eq_left']

/-- A mode that the port has. -/
def grantedMode (k : FalPhyEee) (capability : BitVec 32) (i : Nat) : Option (BitVec 32) :=
  (ethtoolToFal k (1#32 <<< i)).filter fun mode => capability &&& mode ≠ 0

theorem grantedMode_eq_some {i : Nat} {mode : BitVec 32} (hi : i < 32) :
    grantedMode k capability i = some mode ↔ (i, mode) ∈ k.table ∧ capability &&& mode ≠ 0 := by
  rw [grantedMode, Option.filter_eq_some_iff, ethtoolToFal_eq_some hi, decide_eq_true_eq]

/-- The modes of a mask can be advertised just when each is granted. -/
theorem advertisable_iff (k : FalPhyEee) (capability mask : BitVec 32) :
    Advertisable k capability mask ↔
      ∀ i ∈ bits mask, (grantedMode k capability i).isSome = true := by
  refine forall_congr' fun i => ?_
  rw [mem_bits]
  refine imp_congr_right fun hi => ?_
  rw [Option.isSome_iff_exists]
  exact exists_congr fun mode => (grantedMode_eq_some (BitVec.lt_of_getLsbD hi)).symm

theorem setEeeTurn_some {acc : BitVec 32} {i : Nat} {mode : BitVec 32}
    (h : grantedMode k capability i = some mode) :
    setEeeTurn k capability acc i = .ok (acc ||| mode) := by
  obtain ⟨hmode, hcap⟩ := Option.filter_eq_some_iff.mp h
  simp only [setEeeTurn, hmode, if_pos (of_decide_eq_true hcap)]

theorem setEeeTurn_none {acc : BitVec 32} {i : Nat} (h : grantedMode k capability i = none) :
    setEeeTurn k capability acc i = .error eIo := by
  unfold grantedMode at h
  unfold setEeeTurn
  cases hmode : ethtoolToFal k (1#32 <<< i) with
  | none => rfl
  | some mode =>
    rw [hmode, Option.filter_eq_none_iff] at h
    have hcap := h mode rfl
    rw [decide_eq_true_eq] at hcap
    exact if_neg hcap

/-- The loop of `nss_dp_set_eee` ends: with the modes of the FAL where the mask can be advertised,
    or with `-EIO`. -/
theorem setEeeLoop_cases (k : FalPhyEee) (capability mask : BitVec 32) :
    (Advertisable k capability mask ∧ ∃ left advertisement,
      loop (setEeeTurn k capability) 33 mask 0 = some (left, .ok advertisement) ∧
      ∀ j, advertisement.getLsbD j = true ↔ ∃ i, mask.getLsbD i = true ∧
        ∃ mode, grantedMode k capability i = some mode ∧ mode.getLsbD j = true) ∨
    (¬ Advertisable k capability mask ∧ ∃ left,
      loop (setEeeTurn k capability) 33 mask 0 = some (left, .error eIo)) := by
  obtain ⟨left, hloop⟩ := loop_eq_foldlM (setEeeTurn k capability) mask 0
  have hsome : ∀ acc i mode, grantedMode k capability i = some mode →
      setEeeTurn k capability acc i = .ok (acc ||| mode) := fun _ _ _ h => setEeeTurn_some h
  have hnone : ∀ acc i, grantedMode k capability i = none →
      setEeeTurn k capability acc i = .error eIo := fun _ _ h => setEeeTurn_none h
  rw [hloop, advertisable_iff]
  by_cases hall : ∀ i ∈ bits mask, (grantedMode k capability i).isSome = true
  · obtain ⟨advertisement, hfold, hbits⟩ := foldlM_or_ok hsome hall
    refine Or.inl ⟨hall, left, advertisement, by rw [hfold], fun j => ?_⟩
    rw [hbits j]
    simp [mem_bits]
  · rw [foldlM_or_error hsome hnone hall]
    exact Or.inr ⟨hall, left, rfl⟩

/-- What has been translated to the FAL comes back from it. -/
theorem xlate_advertisement (hk : k.DistinctBits) (hmask : Advertisable k capability mask)
    (hbits : ∀ j, advertisement.getLsbD j = true ↔ ∃ i, mask.getLsbD i = true ∧
      ∃ mode, grantedMode k capability i = some mode ∧ mode.getLsbD j = true) :
    nssDpFalToEthtoolLinkmodeXlate k 0 advertisement = some mask := by
  obtain ⟨res, hres, hresBits⟩ := xlate_spec k 0 advertisement
  rw [hres, Option.some.injEq]
  refine BitVec.eq_of_getLsbD_eq fun m _ => Bool.eq_iff_iff.mpr ((hresBits m).trans ?_)
  -- a mode of the table is one bit, and that bit is translated back to the mode's own
  have hback : ∀ {i j : Nat} {mode : BitVec 32}, mask.getLsbD i = true →
      grantedMode k capability i = some mode → mode.getLsbD j = true →
        mode = 1#32 <<< j ∧ falToEthtool k (1#32 <<< j) = 1#32 <<< i ∧ i < 32 := by
    intro i j mode hi hmode hj
    have hmem := ((grantedMode_eq_some (BitVec.lt_of_getLsbD hi)).mp hmode).1
    obtain ⟨j', hj', hsingle⟩ := hk.single mode (mem_modes_of_mem_table hmem)
    rw [hsingle] at hj
    rw [(getLsbD_one_shiftLeft hj').mp hj, ← hsingle]
    exact ⟨rfl, falToEthtool_of_mem_table hk hmem, lt_of_mem_table hmem⟩
  constructor
  · rintro (hzero | ⟨j, hj, hm⟩)
    · rw [show (0 : BitVec 32) = 0#32 from rfl, BitVec.getLsbD_zero] at hzero
      cases hzero
    · obtain ⟨i, hi, mode, hmode, hbit⟩ := (hbits j).mp hj
      obtain ⟨-, hxlate, hlt⟩ := hback hi hmode hbit
      rw [hxlate, getLsbD_one_shiftLeft hlt] at hm
      rw [hm, hi]
  · intro hm
    obtain ⟨mode, hmem, hcap⟩ := hmask m hm
    have hlt := lt_of_mem_table hmem
    obtain ⟨j, hj, hsingle⟩ := hk.single mode (mem_modes_of_mem_table hmem)
    have hmode : grantedMode k capability m = some mode :=
      (grantedMode_eq_some hlt).mpr ⟨hmem, hcap⟩
    have hbit : mode.getLsbD j = true := by rw [hsingle, getLsbD_one_shiftLeft hj]
    refine Or.inr ⟨j, (hbits j).mpr ⟨m, hm, mode, hmode, hbit⟩, ?_⟩
    rw [(hback hm hmode hbit).2.1, getLsbD_one_shiftLeft hlt]

/-- What `nss_dp_get_eee` gets of a port, in a structure that was zero. -/
theorem nssDpGetEee_stored {σ : Type} {fal : FalEee σ} {s : σ} {macid : Nat} {cfg : FalPortEeeCfg}
    (hcfg : fal.cfgGet s macid = some cfg)
    (hxlate : nssDpFalToEthtoolLinkmodeXlate k 0 cfg.advertisement = some mask) :
    ∃ got, nssDpGetEee k fal s macid .zero = some (0, got) ∧ got.advertised = mask ∧
      got.eeeEnabled = cfg.enable ∧ got.txLpiEnabled = cfg.lpiTxEnable ∧
      got.txLpiTimer = cfg.lpiSleepTimer := by
  obtain ⟨supported, hsupported, -⟩ := xlate_spec k 0 cfg.capability
  obtain ⟨lpAdvertised, hlpAdvertised, -⟩ := xlate_spec k 0 cfg.linkPartnerAdvertisement
  refine ⟨⟨supported, mask, lpAdvertised, cfg.eeeStatus, cfg.enable, cfg.lpiTxEnable,
    cfg.lpiSleepTimer⟩, ?_, rfl, rfl, rfl, rfl⟩
  simp only [nssDpGetEee, hcfg, EthtoolEee.zero, hsupported, hxlate, hlpAdvertised,
    Option.bind_some, Option.map_some]

end Loops

/-- EEE settings round trip: the translations end; a configuration is written just when the mask can
    be advertised, and else `-EIO` is returned; and after a success the settings are got as they
    were set. -/
theorem eee_round_trip {σ : Type} {k : FalPhyEee} (hk : k.DistinctBits) {fal : FalEee σ}
    (hfal : fal.Stores) (s : σ) (macid : Nat) (eee : EthtoolEee) {cur : FalPortEeeCfg}
    (hcur : fal.cfgGet s macid = some cur) :
    (∀ xlateTo xlateFrom, (nssDpFalToEthtoolLinkmodeXlate k xlateTo xlateFrom).isSome = true) ∧
    ∃ r, nssDpSetEee k fal s macid eee = some r ∧
      (r.written.isSome = true ↔ Advertisable k cur.capability eee.advertised) ∧
      (r.written = none → r.ret = eIo ∧ r.fal = s) ∧
      (r.ret = 0 → ∃ got, nssDpGetEee k fal r.fal macid .zero = some (0, got) ∧
        got.advertised = eee.advertised ∧ got.eeeEnabled = eee.eeeEnabled ∧
        got.txLpiEnabled = eee.txLpiEnabled ∧ got.txLpiTimer = eee.txLpiTimer) := by
  refine ⟨fun xlateTo xlateFrom => ?_, ?_⟩
  · obtain ⟨res, hres, -⟩ := xlate_spec k xlateTo xlateFrom
    rw [hres]
    rfl
  unfold nssDpSetEee
  rw [hcur]
  rcases setEeeLoop_cases k cur.capability eee.advertised with
    ⟨hmask, left, advertisement, hloop, hbits⟩ | ⟨hmask, left, hloop⟩
  · simp only [hloop, Option.map_some]
    refine ⟨_, rfl, iff_of_true rfl hmask, nofun, fun hret => ?_⟩
    have hset : (fal.cfgSet s macid (eee.toCfg advertisement)).1 = true := by
      by_contra hfail
      change
        (if (fal.cfgSet s macid (eee.toCfg advertisement)).1 = true then 0 else eIo) = 0 at hret
      rw [if_neg hfail] at hret
      cases hret
    obtain ⟨cfg, hcfg, henable, hadvertisement, hlpi, htimer⟩ :=
      hfal s macid (eee.toCfg advertisement) _ (Prod.ext hset rfl)
    have hxlate : nssDpFalToEthtoolLinkmodeXlate k 0 cfg.advertisement = some eee.advertised := by
      rw [hadvertisement]
      exact xlate_advertisement hk hmask hbits
    obtain ⟨got, hgot, hadvertised, henabled, hlpiEnabled, hlpiTimer⟩ :=
      nssDpGetEee_stored hcfg hxlate
    exact ⟨got, hgot, hadvertised, henabled.trans henable, hlpiEnabled.trans hlpi,
      hlpiTimer.trans htimer⟩
  · simp only [hloop, Option.map_some]
    refine ⟨_, rfl, iff_of_false (by simp) hmask, fun _ => ⟨rfl, rfl⟩, fun hret => ?_⟩
    cases hret

/-- One bit for each mode, in order. -/
def phyEee : FalPhyEee := ⟨0x1, 0x2, 0x4, 0x8, 0x10, 0x20⟩

theorem phyEee_distinctBits : phyEee.DistinctBits := by
  refine ⟨?_, by decide⟩
  simp only [FalPhyEee.modes, phyEee, List.forall_mem_cons]
  exact ⟨⟨0, by decide, rfl⟩, ⟨1, by decide, rfl⟩, ⟨2, by decide, rfl⟩, ⟨3, by decide, rfl⟩,
    ⟨4, by decide, rfl⟩, ⟨5, by decide, rfl⟩, fun _ h => absurd h List.not_mem_nil⟩

/-- A FAL with the configuration of each port; what a port is capable of is not set. -/
def portFal : FalEee (Nat → FalPortEeeCfg) where
  cfgGet s macid := some (s macid)
  cfgSet s macid cfg :=
    (true, Function.update s macid { cfg with capability := (s macid).capability })

theorem portFal_stores : portFal.Stores := by
  intro s macid cfg t h
  cases h
  refine ⟨_, rfl, ?_⟩
  rw [Function.update_self]
  exact ⟨rfl, rfl, rfl, rfl⟩

/-- A port that is capable of 100 and 1000 Mbit/s is asked to advertise both. -/
theorem eee_round_trip_two : ∃ r got,
    nssDpSetEee phyEee portFal (fun _ => { FalPortEeeCfg.zero with capability := 0x6 }) 1
        { EthtoolEee.zero with advertised := 0x28, eeeEnabled := 1 } = some r ∧
      nssDpGetEee phyEee portFal r.fal 1 .zero = some (0, got) ∧ got.advertised = 0x28 ∧
      got.eeeEnabled = 1 := by
  obtain ⟨-, r, hset, -, -, hgot⟩ := eee_round_trip phyEee_distinctBits portFal_stores
    (fun _ => { FalPortEeeCfg.zero with capability := 0x6 }) 1
    { EthtoolEee.zero with advertised := 0x28, eeeEnabled := 1 } rfl
  have hret : (nssDpSetEee phyEee portFal (fun _ => { FalPortEeeCfg.zero with capability := 0x6 }) 1
      { EthtoolEee.zero with advertised := 0x28, eeeEnabled := 1 }).map SetEee.ret = some 0 := by
    decide +kernel
  rw [hset] at hret
  obtain ⟨got, hget, hadvertised, henabled, -⟩ := hgot (Option.some.inj hret)
  exact ⟨r, got, hset, hget, hadvertised, henabled⟩

end NssDp.Eee
