import NssDp.Edma.Proofs.RingMaps

/-!
# The registers that the initialisation leaves

Which registers each part of `edma_hw_init` writes, and what they hold in the end: exactly the
rings of the driver are enabled, whatever was enabled before, their other control bits are those
after the reset, and no TXCMPL or RXFILL ring can interrupt.
-/

namespace NssDp.Edma

/-- The control register of ring `n`, with the bit that enables it. -/
def ctrlAfterInit (range : RingRange) (max : Nat) (en : BitVec 32) (n : Nat) (val : BitVec 32) :
    BitVec 32 :=
  if range.Owns n then val ||| en else if n < max then val &&& ~~~en else val

/-- The registers after `edma_hw_init`, from those that the reset leaves, but for the producer
    indices that the configuration of the rings writes. -/
def regsAfterInit (soc : Soc) (pdata : RingKind → RingRange) (regs : EdmaReg → BitVec 32) :
    EdmaReg → BitVec 32
  | .portCtrl => edmaPortPadEn ||| edmaPortEdmaEn
  | .miscIntMask => edmaMiscErrMask soc
  | .txIntMask n => if n < edmaMaxRings soc .txcmpl then 0#32 else regs (.txIntMask n)
  | .rxfillIntMask n => if n < edmaMaxRings soc .rxfill then 0#32 else regs (.rxfillIntMask n)
  | .rxdescCtrl n => ctrlAfterInit (pdata .rxdesc) (edmaMaxRings soc .rxdesc) edmaRxdescRxEn n
      (regs (.rxdescCtrl n))
  | .rxfillRingEn n => ctrlAfterInit (pdata .rxfill) (edmaMaxRings soc .rxfill) edmaRxfillRingEn n
      (regs (.rxfillRingEn n))
  | .txdescCtrl n => ctrlAfterInit (pdata .txdesc) (edmaMaxRings soc .txdesc) edmaTxdescTxEn n
      (regs (.txdescCtrl n))
  | reg => regs reg

/-- A producer index that the driver writes. -/
def EdmaReg.isProdIdx : EdmaReg → Bool
  | .txdescProdIdx _ | .rxfillProdIdx _ => true
  | _ => false

theorem modifyRegs_regs (ehw : EdmaHw) {rs : List EdmaReg} (hnodup : rs.Nodup)
    (f : BitVec 32 → BitVec 32) (r : EdmaReg) :
    (ehw.modifyRegs rs f).regs r = if r ∈ rs then f (ehw.regs r) else ehw.regs r := by
  induction rs generalizing ehw with
  | nil => rfl
  | cons a rs ih =>
    obtain ⟨hnot, hrest⟩ := List.nodup_cons.mp hnodup
    have hstep : (ehw.modifyRegs (a :: rs) f).regs r =
        (((ehw.touch [.regRead a]).regWrite a (f (ehw.regs a))).modifyRegs rs f).regs r := rfl
    rw [hstep, ih _ hrest, EdmaHw.regWrite]
    dsimp only [EdmaHw.touch_regs]
    rcases eq_or_ne r a with rfl | hne
    · rw [if_neg hnot, if_pos List.mem_cons_self, Function.update_self]
    · rw [Function.update_of_ne hne]
      simp only [List.mem_cons, hne, false_or]

/-! The parts -/

/-- The registers after the part that disables interrupts and rings. -/
def disabledRegs (soc : Soc) (regs : EdmaReg → BitVec 32) : EdmaReg → BitVec 32
  | .txIntMask n => if n < edmaMaxRings soc .txcmpl then 0#32 else regs (.txIntMask n)
  | .rxfillIntMask n => if n < edmaMaxRings soc .rxfill then 0#32 else regs (.rxfillIntMask n)
  | .rxdescCtrl n => if n < edmaMaxRings soc .rxdesc then regs (.rxdescCtrl n) &&& ~~~edmaRxdescRxEn
      else regs (.rxdescCtrl n)
  | .rxfillRingEn n => if n < edmaMaxRings soc .rxfill then
      regs (.rxfillRingEn n) &&& ~~~edmaRxfillRingEn else regs (.rxfillRingEn n)
  | .txdescCtrl n => if n < edmaMaxRings soc .txdesc then regs (.txdescCtrl n) &&& ~~~edmaTxdescTxEn
      else regs (.txdescCtrl n)
  | reg => regs reg

/-- The registers after the part that enables the rings of the driver. -/
def enabledRegs (ids : RingKind → List Nat) (regs : EdmaReg → BitVec 32) : EdmaReg → BitVec 32
  | .rxdescCtrl n => if n ∈ ids .rxdesc then regs (.rxdescCtrl n) ||| edmaRxdescRxEn
      else regs (.rxdescCtrl n)
  | .rxfillRingEn n => if n ∈ ids .rxfill then regs (.rxfillRingEn n) ||| edmaRxfillRingEn
      else regs (.rxfillRingEn n)
  | .txdescCtrl n => if n ∈ ids .txdesc then regs (.txdescCtrl n) ||| edmaTxdescTxEn
      else regs (.txdescCtrl n)
  | reg => regs reg

theorem nodup_map_range (n : Nat) {f : Nat → EdmaReg} (hf : Function.Injective f) :
    ((List.range n).map f).Nodup := List.nodup_range.map hf

namespace HwInit

theorem disable_regs (soc : Soc) (s : HwInit) (r : EdmaReg) :
    (s.disable soc).cfg.dev.ehw.regs r = disabledRegs soc s.cfg.dev.ehw.regs r := by
  have hdev (is : List Nat) (cfg : RingConfig) :
      (is.foldl (fun cfg i => RingConfig.regWrite cfg (.rxIntCtrl i) 0#32) cfg).dev = cfg.dev :=
    List.foldlRecOn (motive := fun c : RingConfig => c.dev = cfg.dev) is _ rfl fun _ hc _ _ => hc
  unfold disable
  dsimp only [setEhw, RingConfig.setEhw]
  rw [hdev]
  rw [modifyRegs_regs _ (nodup_map_range _ fun _ _ => EdmaReg.txdescCtrl.inj),
    modifyRegs_regs _ (nodup_map_range _ fun _ _ => EdmaReg.rxfillRingEn.inj),
    modifyRegs_regs _ (nodup_map_range _ fun _ _ => EdmaReg.rxdescCtrl.inj),
    EdmaHw.writeRegs_eq, EdmaHw.writeRegs_eq]
  cases r <;> simp [disabledRegs]

theorem enable_regs (s : HwInit) (r : EdmaReg) :
    s.enable.cfg.dev.ehw.regs r = enabledRegs s.ringIds s.cfg.dev.ehw.regs r := by
  have hnodup {f : Nat → EdmaReg} (hf : Function.Injective f) (kind : RingKind) :
      ((s.ringIds kind).map f).Nodup := (List.nodup_range' ..).map hf
  unfold enable
  dsimp only [setEhw, RingConfig.setEhw]
  rw [modifyRegs_regs _ (hnodup (fun _ _ => EdmaReg.txdescCtrl.inj) _),
    modifyRegs_regs _ (hnodup (fun _ _ => EdmaReg.rxfillRingEn.inj) _),
    modifyRegs_regs _ (hnodup (fun _ _ => EdmaReg.rxdescCtrl.inj) _)]
  cases r <;> simp [enabledRegs]

theorem mapTxdesc_cfg (s : HwInit) : s.mapTxdesc.cfg = s.cfg :=
  List.foldlRecOn (motive := fun t : HwInit × BitVec 32 => t.1.cfg = s.cfg) _ _ rfl
    fun _ ht _ _ => ht

theorem mapRxdesc_cfg (s : HwInit) : s.mapRxdesc.cfg = s.cfg :=
  List.foldlRecOn (motive := fun t : HwInit => t.cfg = s.cfg) _ _ rfl fun _ ht _ _ => ht

theorem beforeRings_regs (soc : Soc) (s : HwInit) (r : EdmaReg) :
    (s.beforeRings soc).cfg.dev.ehw.regs r = disabledRegs soc s.cfg.dev.ehw.regs r := by
  have hcfg : (s.beforeRings soc).cfg = (s.disable soc).cfg := by
    rw [beforeRings]
    dsimp only [mapQid, regWrite]
    split
    · exact mapTxdesc_cfg _
    · rfl
  rw [hcfg, disable_regs]

theorem ringOp_regs (ringDma : RingKind → Nat → BitVec 64) (s : HwInit) (op : RingOp) :
    (s.ringOp ringDma op).cfg.dev.ehw.regs = s.cfg.dev.ehw.regs := by
  cases op with
  | assign kind ring | kzalloc kind | dmaAllocCoherent kind ring => cases kind <;> rfl
  | mapRxfill | kfree | cleanup => rfl

/-- The configuration of the rings writes no other registers but producer indices. -/
theorem configureRings_regs (allocs : Nat → List EdmaRxAlloc) (s : RingConfig) {r : EdmaReg}
    (hr : r.isProdIdx = false) : (edmaConfigureRings allocs s).dev.ehw.regs r =
      s.dev.ehw.regs r := by
  obtain ⟨log, htxdesc⟩ := txdescLoop_dev (List.range s.clearStores.dev.ehw.txdescRings)
    s.clearStores
  unfold edmaConfigureRings
  dsimp only
  rw [rxdescLoop_dev, (rxfillLoop_sameTx allocs _ _).regs, txcmplLoop_dev, htxdesc]
  · dsimp only
    rw [if_neg]
    · rfl
    · intro hmem
      obtain ⟨i, -, rfl⟩ := List.mem_map.mp hmem
      cases hr
  · rintro n rfl
    cases hr

/-- The registers of the misc interrupt and of the ports. -/
theorem setupMisc_regs (soc : Soc) (s : HwInit) : (s.setupMisc soc).cfg.dev.ehw.regs =
    Function.update (Function.update s.cfg.dev.ehw.regs .miscIntMask (edmaMiscErrMask soc))
      .portCtrl (edmaPortPadEn ||| edmaPortEdmaEn) := by
  unfold setupMisc
  dsimp only
  split <;> rfl

theorem afterRings_regs (soc : Soc) (allocs : Nat → List EdmaRxAlloc) (s : HwInit) {r : EdmaReg}
    (hr : r.isProdIdx = false) :
    (s.afterRings soc allocs).cfg.dev.ehw.regs r =
      enabledRegs s.ringIds (Function.update (Function.update s.cfg.dev.ehw.regs .miscIntMask
        (edmaMiscErrMask soc)) .portCtrl (edmaPortPadEn ||| edmaPortEdmaEn)) r := by
  obtain ⟨u, hu⟩ : ∃ u, u = ({ s with cfg := edmaConfigureRings allocs s.cfg } : HwInit) := ⟨_, rfl⟩
  have hregs : u.cfg.dev.ehw.regs r = s.cfg.dev.ehw.regs r := by
    rw [hu]
    exact configureRings_regs allocs s.cfg hr
  have hlayout : (u.mapRxdesc.setupMisc soc).layout = s.layout := by
    rw [setupMisc_layout, mapRxdesc_layout, hu, configureRings_layout]
  have hids : (u.mapRxdesc.setupMisc soc).ringIds = s.ringIds := by
    funext kind
    have hstart := congrFun (congrArg RingLayout.ringStart hlayout) kind
    have hend := congrFun (congrArg RingLayout.ringEnd hlayout) kind
    exact congrArg₂ (fun a b => List.range' a (b - a)) hstart hend
  have hlast : (s.afterRings soc allocs).cfg.dev.ehw.regs =
      (u.mapRxdesc.setupMisc soc).enable.cfg.dev.ehw.regs := by
    rw [hu]
    rfl
  rw [hlast, enable_regs, hids, setupMisc_regs, mapRxdesc_cfg]
  cases r <;> simp_all [enabledRegs, EdmaReg.isProdIdx, Function.update]

end HwInit

theorem edmaHwInit_ok_of_reset {soc : Soc} {env : HwInitEnv} {hw : HwRegs} {s t : HwInit}
    (hreset : env.reset = some hw) (h : edmaHwInit soc env s = .ok t) :
    t = ((edmaInitRings ((s.setupPrivate.setRegs hw).beforeRings soc).rings env.rings).2.foldl
      (HwInit.ringOp env.ringDma) ((s.setupPrivate.setRegs hw).beforeRings soc)).afterRings soc
        env.allocs := by
  rw [edmaHwInit, hreset] at h
  dsimp only at h
  split at h
  · cases h
  · exact (Except.ok.inj h).symm

/-- A bit that is cleared and then set is set. -/
theorem and_not_or_self (val en : BitVec 32) : val &&& ~~~en ||| en = val ||| en := by
  ext i hi
  simp only [BitVec.getElem_or, BitVec.getElem_and, BitVec.getElem_not]
  cases val[i] <;> cases en[i] <;> rfl

/-- Rings are enabled after they have all been disabled. -/
theorem ctrlAfterInit_eq {range : RingRange} {max : Nat} (hlim : range.InLimits max)
    (en : BitVec 32) (n : Nat) (val : BitVec 32) :
    ctrlAfterInit range max en n val =
      if range.Owns n then (if n < max then val &&& ~~~en else val) ||| en
      else if n < max then val &&& ~~~en else val := by
  by_cases howns : range.Owns n
  · have hlt : n < max := Nat.lt_of_lt_of_le howns.2 hlim.le
    rw [ctrlAfterInit, if_pos howns, if_pos howns, if_pos hlt, and_not_or_self]
  · rw [ctrlAfterInit, if_neg howns, if_neg howns]

/-- On every SoC, for ring numbers from a device tree that are in the limits: `edma_hw_init` leaves
    every register but the producer indices as said above, from what the reset leaves. -/
theorem edmaHwInit_regs {soc : Soc} {dt : EdmaDt} {pdata : RingKind → RingRange} {env : HwInitEnv}
    {hw : HwRegs} {s t : HwInit} (hdt : edmaOfGetPdata dt = .ok pdata)
    (hlim : ∀ kind, (pdata kind).InLimits (edmaMaxRings soc kind)) (hreset : env.reset = some hw)
    (h : edmaHwInit soc env (s.setPdata pdata) = .ok t) :
    t.cfg.dev.ehw.edmaInitialized = true ∧
      ∀ r, r.isProdIdx = false →
        t.cfg.dev.ehw.regs r = regsAfterInit soc pdata hw.regs r := by
  have hend := edmaOfGetPdata_ringEnd hdt
  have ht := edmaHwInit_ok_of_reset hreset h
  obtain ⟨u, hu⟩ : ∃ u, u = ((s.setPdata pdata).setupPrivate.setRegs hw).beforeRings soc :=
    ⟨_, rfl⟩
  rw [← hu] at ht
  have huOf : u.layout.Of pdata := by
    rw [hu, beforeRings_layout]
    exact setPdata_layout s pdata
  obtain ⟨v, hv⟩ : ∃ v, v = (edmaInitRings u.rings env.rings).2.foldl
    (HwInit.ringOp env.ringDma) u := ⟨_, rfl⟩
  rw [← hv] at ht
  -- the setup of the rings keeps the registers and the numbers
  have hvregs : v.cfg.dev.ehw.regs = u.cfg.dev.ehw.regs := by
    rw [hv]
    exact List.foldlRecOn (motive := fun w : HwInit => w.cfg.dev.ehw.regs = u.cfg.dev.ehw.regs)
      _ _ rfl fun w hw op _ => (HwInit.ringOp_regs env.ringDma w op).trans hw
  have hvOf : v.layout.Of pdata := by
    rw [hv]
    exact List.foldlRecOn (motive := fun w : HwInit => w.layout.Of pdata) _ _ huOf
      fun w hw op _ => ringOp_of env.ringDma w op hw
  have hmax (kind : RingKind) : edmaMaxRings soc kind < 2 ^ 32 := by
    cases soc <;> cases kind <;> decide
  have hids (kind : RingKind) (n : Nat) : n ∈ v.ringIds kind ↔ (pdata kind).Owns n := by
    rw [hvOf.ringIds (hlim kind) (hmax kind) (hend kind)]
    exact mem_ringIds
  have huregs (r : EdmaReg) : u.cfg.dev.ehw.regs r = disabledRegs soc hw.regs r := by
    rw [hu, HwInit.beforeRings_regs]
    rfl
  refine ⟨?_, ?_⟩
  · rw [ht]
    rfl
  · intro r hr
    rw [ht, HwInit.afterRings_regs soc env.allocs v hr]
    cases r with
    | rxdescCtrl n | rxfillRingEn n | txdescCtrl n =>
      simp [enabledRegs, regsAfterInit, hids, hvregs, huregs, disabledRegs,
        ctrlAfterInit_eq (hlim _)]
    | txdescProdIdx n | rxfillProdIdx n => cases hr
    | _ => simp [enabledRegs, regsAfterInit, hvregs, huregs, disabledRegs]

theorem edmaHwInit_regs_shared : ∃ t,
    edmaHwInit .ipq807x allocsOk (freshInit.setPdata sharedPdata) = .ok t ∧
      t.cfg.dev.ehw.edmaInitialized = true ∧
        ∀ r, r.isProdIdx = false →
          t.cfg.dev.ehw.regs r = regsAfterInit .ipq807x sharedPdata (fun _ => 0#32) r := by
  obtain ⟨t, ht⟩ := @edmaHwInit_returns .ipq807x allocsOk (freshInit.setPdata sharedPdata) rfl
    (by decide)
  have hreset : allocsOk.reset = some ⟨fun _ => 0#32, fun _ => 0#32, fun _ => 0xffffffff#32⟩ := rfl
  exact ⟨t, ht, edmaHwInit_regs (edmaOfGetPdata_dtOf _ _) sharedPdata_inLimits hreset ht⟩

end NssDp.Edma
