import NssDp.Edma.Proofs.RingLayout
import NssDp.Misc.RegTable

/-!
# The maps between the rings

The map registers are tables with ten entries of three bits in a register. The rings of the driver
have one entry each, so each entry ends up with what its ring is given: the TXDESC rings take the
TXCMPL rings in turn, and the RXDESC rings the RXFILL rings they share.
-/

namespace NssDp.Edma

open Word

/-- Ten entries of three bits fit in a register. -/
def mapField (i : Nat) : BitField := ⟨i % 10 * 3, 3⟩

/-- `TXDESC2CMPL_MAP_0`, `_1` and `_2`. -/
def txdesc2cmpl : RegTable InitReg where
  reg i := if i ≤ 9 then .txdesc2cmplMap 0
    else if 10 ≤ i ∧ i ≤ 19 then .txdesc2cmplMap 1
    else .txdesc2cmplMap 2
  field := mapField

/-- `RXDESC2FILL_MAP_0` and `_1`. -/
def rxdesc2fill : RegTable InitReg where
  reg i := if i ≤ 9 then .rxdesc2fillMap 0 else .rxdesc2fillMap 1
  field := mapField

/-- Ring `i` is one of the driver's. -/
def RingRange.Owns (range : RingRange) (i : Nat) : Prop :=
  range.ringStart.toNat ≤ i ∧ i < range.ringStart.toNat + range.rings.toNat

instance (range : RingRange) (i : Nat) : Decidable (range.Owns i) :=
  inferInstanceAs (Decidable (_ ∧ _))

/-- The entry of every ring is what the driver takes for it, and the entries of other rings are
    zero. -/
structure MapsAgree (pdata : RingKind → RingRange) (t : HwInit) : Prop where
  txdesc : ∀ i, (pdata .txdesc).Owns i → (txdesc2cmpl.entry t.initRegs i).toNat =
    (pdata .txcmpl).ringStart.toNat +
      (i - (pdata .txdesc).ringStart.toNat) % (pdata .txcmpl).rings.toNat
  rxdesc : ∀ k < (pdata .rxdesc).rings.toNat,
    (t.cfg.dev.ehw.rxdescRing k).id = (pdata .rxdesc).ringStart.toNat + k ∧
      (rxdesc2fill.entry t.initRegs (t.cfg.dev.ehw.rxdescRing k).id).toNat =
        (t.cfg.dev.rxOf k).rxfill.id
  txdescOther : ∀ i < edmaMaxRings .ipq807x .txdesc, ¬ (pdata .txdesc).Owns i →
    txdesc2cmpl.entry t.initRegs i = 0#32
  rxdescOther : ∀ i < edmaMaxRings .ipq807x .rxdesc, ¬ (pdata .rxdesc).Owns i →
    rxdesc2fill.entry t.initRegs i = 0#32

/-! The tables -/

theorem mapField_apart {i j : Nat} (h : i % 10 ≠ j % 10) : (mapField i).Apart (mapField j) := by
  simp only [mapField, BitField.Apart]
  omega

theorem mapField_inside (i : Nat) : (mapField i).lsb + (mapField i).width ≤ 32 := by
  simp only [mapField]
  omega

theorem mapField_fits (i : Nat) (a : BitVec 32) : (mapField i).Fits (a &&& 0x7#32) := by
  have hle : (a &&& 0x7#32).toNat ≤ 7 := by
    rw [BitVec.toNat_and]
    exact Nat.and_le_right
  exact Nat.lt_succ_of_le hle

theorem txdesc2cmpl_apart : txdesc2cmpl.Apart 32 (edmaMaxRings .ipq807x .txdesc) := by
  refine ⟨?_, fun i _ => mapField_inside i⟩
  intro i hi j hj hne hreg
  simp only [edmaMaxRings] at hi hj
  apply mapField_apart
  simp only [txdesc2cmpl] at hreg
  split at hreg <;> split at hreg <;> grind

theorem rxdesc2fill_apart : rxdesc2fill.Apart 32 (edmaMaxRings .ipq807x .rxdesc) := by
  refine ⟨?_, fun i _ => mapField_inside i⟩
  intro i hi j hj hne hreg
  simp only [edmaMaxRings] at hi hj
  apply mapField_apart
  simp only [rxdesc2fill] at hreg
  split at hreg <;> grind

/-- A value of three bits is put into an entry as it is. -/
theorem ofNat_and_seven {n : Nat} (hn : n < 8) : (BitVec.ofNat 32 n &&& 0x7#32).toNat = n := by
  rw [BitVec.toNat_and, BitVec.toNat_ofNat, Nat.mod_eq_of_lt (by omega)]
  exact (Nat.and_two_pow_sub_one_eq_mod n 3).trans (Nat.mod_eq_of_lt hn)

section Maps

variable {s : HwInit} {pdata : RingKind → RingRange}

/-! The TXDESC rings -/

/-- The TXCMPL ring that the loop has come to after `k` turns. -/
def cmplAfter (pdata : RingKind → RingRange) (k : Nat) : Nat :=
  (pdata .txcmpl).ringStart.toNat + k % (pdata .txcmpl).rings.toNat

/-- What the driver takes for a TXDESC ring. -/
def cmplOf (pdata : RingKind → RingRange) (i : Nat) : BitVec 32 :=
  BitVec.ofNat 32 (cmplAfter pdata (i - (pdata .txdesc).ringStart.toNat)) &&& 0x7#32

/-- After the last ring comes the first again. -/
theorem cmplAfter_succ (hlim : (pdata .txcmpl).InLimits 8)
    (hend : (pdata .txcmpl).ringEnd = (pdata .txcmpl).ringStart + (pdata .txcmpl).rings) (k : Nat) :
    (if (BitVec.ofNat 32 (cmplAfter pdata k) + 1).toNat = (pdata .txcmpl).ringEnd.toNat then
        BitVec.ofNat 32 (pdata .txcmpl).ringStart.toNat
      else BitVec.ofNat 32 (cmplAfter pdata k) + 1) =
      BitVec.ofNat 32 (cmplAfter pdata (k + 1)) := by
  have hpos := hlim.pos
  have hle := hlim.le
  have hlt : k % (pdata .txcmpl).rings.toNat < (pdata .txcmpl).rings.toNat := Nat.mod_lt _ hpos
  have hnext : BitVec.ofNat 32 (cmplAfter pdata k) + 1 = BitVec.ofNat 32 (cmplAfter pdata k + 1) :=
    (BitVec.ofNat_add _ _).symm
  have hstop : (pdata .txcmpl).ringEnd.toNat =
      (pdata .txcmpl).ringStart.toNat + (pdata .txcmpl).rings.toNat := by
    rw [hend, BitVec.toNat_add, Nat.mod_eq_of_lt (by omega)]
  rw [hnext, hstop, BitVec.toNat_ofNat, cmplAfter, Nat.mod_eq_of_lt (by omega), cmplAfter,
    ← Nat.mod_add_mod]
  by_cases hlast : k % (pdata .txcmpl).rings.toNat + 1 = (pdata .txcmpl).rings.toNat
  · rw [if_pos (by omega), hlast, Nat.mod_self, Nat.add_zero]
  · have hsucc : k % (pdata .txcmpl).rings.toNat + 1 < (pdata .txcmpl).rings.toNat := by omega
    rw [if_neg (by omega), Nat.mod_eq_of_lt hsucc, Nat.add_assoc]

/-- The registers with the entries of the first `k` TXDESC rings filled. -/
def fillTxdesc (pdata : RingKind → RingRange) (regs : InitReg → BitVec 32) (k : Nat) :
    InitReg → BitVec 32 :=
  (List.range' (pdata .txdesc).ringStart.toNat k).foldl
    (fun regs i => txdesc2cmpl.fill regs i (cmplOf pdata i)) regs

/-- The loop over the TXDESC rings, by induction on its turns: the rings before are filled, and
    the index is where the turns have brought it. -/
theorem mapTxdescLoop (hs : s.layout.Of pdata) (hlim : (pdata .txcmpl).InLimits 8)
    (hend : (pdata .txcmpl).ringEnd = (pdata .txcmpl).ringStart + (pdata .txcmpl).rings) (k : Nat) :
    (List.range' (pdata .txdesc).ringStart.toNat k).foldl HwInit.mapTxdescTurn
        (s, BitVec.ofNat 32 s.txcmplRingStart) =
      ({ s with initRegs := fillTxdesc pdata s.initRegs k },
        BitVec.ofNat 32 (cmplAfter pdata k)) := by
  have hstart : s.txcmplRingStart = (pdata .txcmpl).ringStart.toNat := hs.ringStart .txcmpl
  have hringEnd : s.ringEnd .txcmpl = (pdata .txcmpl).ringEnd.toNat := hs.ringEnd .txcmpl
  induction k with
  | zero =>
    rw [cmplAfter, Nat.zero_mod, Nat.add_zero, ← hstart]
    rfl
  | succ k ih =>
    rw [fillTxdesc, List.range'_1_concat, List.foldl_append, ih, List.foldl_append,
      ← fillTxdesc, List.foldl_cons, List.foldl_cons, List.foldl_nil, List.foldl_nil]
    refine Prod.ext ?_ ?_
    · have hk : (pdata .txdesc).ringStart.toNat + k - (pdata .txdesc).ringStart.toNat = k :=
        Nat.add_sub_cancel_left _ _
      rw [cmplOf, hk]
      rfl
    · rw [← cmplAfter_succ hlim hend, ← hringEnd, ← hstart]
      rfl

theorem mem_ringIds {range : RingRange} {i : Nat} :
    i ∈ List.range' range.ringStart.toNat range.rings.toNat ↔ range.Owns i :=
  List.mem_range'_1

/-- The entries after the loop over the TXDESC rings. -/
theorem mapTxdesc_entry (hs : s.layout.Of pdata)
    (hlim : ∀ kind, (pdata kind).InLimits (edmaMaxRings .ipq807x kind))
    (hend : ∀ kind, (pdata kind).ringEnd = (pdata kind).ringStart + (pdata kind).rings)
    {i : Nat} (hi : i < edmaMaxRings .ipq807x .txdesc) :
    txdesc2cmpl.entry s.mapTxdesc.initRegs i =
      if (pdata .txdesc).Owns i then cmplOf pdata i else 0#32 := by
  obtain ⟨u, hu⟩ : ∃ u, u = ((s.regWrite (.txdesc2cmplMap 0) 0#32).regWrite
    (.txdesc2cmplMap 1) 0#32).regWrite (.txdesc2cmplMap 2) 0#32 := ⟨_, rfl⟩
  have hof : u.layout.Of pdata := by
    rw [hu]
    exact hs
  have hzero (j : Nat) : txdesc2cmpl.entry u.initRegs j = 0#32 := by
    apply RegTable.entry_of_zero
    rw [hu]
    simp only [txdesc2cmpl, HwInit.regWrite]
    split
    · simp
    · split <;> simp
  have hids := hof.ringIds (hlim .txdesc) (by decide) (hend .txdesc)
  have hloop : s.mapTxdesc.initRegs = fillTxdesc pdata u.initRegs (pdata .txdesc).rings.toNat := by
    have h : s.mapTxdesc = ((u.ringIds .txdesc).foldl HwInit.mapTxdescTurn
        (u, BitVec.ofNat 32 u.txcmplRingStart)).1 := by
      unfold HwInit.mapTxdesc
      dsimp only
      rw [hu]
    rw [h, hids, mapTxdescLoop hof (hlim .txcmpl) (hend .txcmpl)]
  rw [hloop, fillTxdesc, RegTable.entry_foldl txdesc2cmpl_apart List.nodup_range' ?_ ?_ hi, hzero]
  · simp only [mem_ringIds, BitVec.zero_or]
  · intro j hj
    exact Nat.lt_of_lt_of_le (mem_ringIds.mp hj).2 (hlim .txdesc).le
  · exact fun j _ => mapField_fits j _

/-! The RXDESC rings -/

/-- What the driver takes for an RXDESC ring. -/
def fillOf (l : RingLayout) (i : Nat) : BitVec 32 :=
  BitVec.ofNat 32 (l.rxfillRing (l.rxdescFill (i - l.ringStart .rxdesc))).id &&& 0x7#32

theorem mapRxdescLoop (is : List Nat) (s : HwInit) :
    is.foldl HwInit.mapRxdescTurn s = { s with
      initRegs := is.foldl (fun regs i => rxdesc2fill.fill regs i (fillOf s.layout i))
        s.initRegs } := by
  induction is generalizing s with
  | nil => rfl
  | cons i is ih =>
    rw [List.foldl_cons, ih]
    rfl

/-- The entries after the loop over the RXDESC rings. -/
theorem mapRxdesc_entry (hs : s.layout.Of pdata)
    (hlim : (pdata .rxdesc).InLimits (edmaMaxRings .ipq807x .rxdesc))
    (hend : (pdata .rxdesc).ringEnd = (pdata .rxdesc).ringStart + (pdata .rxdesc).rings)
    {i : Nat} (hi : i < edmaMaxRings .ipq807x .rxdesc) :
    rxdesc2fill.entry s.mapRxdesc.initRegs i =
      if (pdata .rxdesc).Owns i then fillOf s.layout i else 0#32 := by
  obtain ⟨u, hu⟩ : ∃ u, u = (s.regWrite (.rxdesc2fillMap 0) 0#32).regWrite
    (.rxdesc2fillMap 1) 0#32 := ⟨_, rfl⟩
  have hlayout : u.layout = s.layout := by
    rw [hu]
    rfl
  have hzero (j : Nat) : rxdesc2fill.entry u.initRegs j = 0#32 := by
    apply RegTable.entry_of_zero
    rw [hu]
    simp only [rxdesc2fill, HwInit.regWrite]
    split <;> simp
  have hof : u.layout.Of pdata := hlayout ▸ hs
  have hids := hof.ringIds hlim (by decide) hend
  have hloop : s.mapRxdesc = (u.ringIds .rxdesc).foldl HwInit.mapRxdescTurn u := by
    unfold HwInit.mapRxdesc
    dsimp only
    rw [hu]
  rw [hloop, hids, mapRxdescLoop, hlayout,
    RegTable.entry_foldl rxdesc2fill_apart List.nodup_range' ?_ ?_ hi, hzero]
  · simp only [mem_ringIds, BitVec.zero_or]
  · intro j hj
    exact Nat.lt_of_lt_of_le (mem_ringIds.mp hj).2 hlim.le
  · exact fun j _ => mapField_fits j _

/-! The whole initialisation -/

theorem txdesc2cmpl_reg (i : Nat) : ∃ n, txdesc2cmpl.reg i = .txdesc2cmplMap n := by
  simp only [txdesc2cmpl]
  split
  · exact ⟨0, rfl⟩
  · split
    · exact ⟨1, rfl⟩
    · exact ⟨2, rfl⟩

theorem rxdesc2fill_reg (i : Nat) : ∃ n, rxdesc2fill.reg i = .rxdesc2fillMap n := by
  simp only [rxdesc2fill]
  split
  · exact ⟨0, rfl⟩
  · exact ⟨1, rfl⟩

theorem mapRxdesc_txdesc2cmpl (s : HwInit) (n : Nat) :
    s.mapRxdesc.initRegs (.txdesc2cmplMap n) = s.initRegs (.txdesc2cmplMap n) := by
  have hne (i : Nat) : InitReg.txdesc2cmplMap n ≠ rxdesc2fill.reg i := by
    obtain ⟨m, hm⟩ := rxdesc2fill_reg i
    rw [hm]
    simp
  unfold HwInit.mapRxdesc
  dsimp only
  rw [mapRxdescLoop]
  exact (RegTable.foldl_of_ne hne _).trans (by simp [HwInit.regWrite])

/-- The last part of the initialisation leaves the maps alone. -/
theorem setupMisc_initRegs {s : HwInit} {reg : InitReg} (hdmar : reg ≠ .dmarCtrl) :
    (s.setupMisc .ipq807x).initRegs reg = s.initRegs reg := by
  simp [HwInit.setupMisc, HwInit.setEhw, HwInit.regWrite, hdmar]

/-- The entries for the TXDESC rings are written before the rings are set up. -/
theorem beforeRings_txdesc2cmpl (s : HwInit) (n : Nat) :
    (s.beforeRings .ipq807x).initRegs (.txdesc2cmplMap n) =
      (s.disable .ipq807x).mapTxdesc.initRegs (.txdesc2cmplMap n) := by
  simp [HwInit.beforeRings, HwInit.mapQid, HwInit.regWrite]

theorem afterRings_txdesc2cmpl (allocs : Nat → List EdmaRxAlloc) (s : HwInit) (n : Nat) :
    (s.afterRings .ipq807x allocs).initRegs (.txdesc2cmplMap n) =
      s.initRegs (.txdesc2cmplMap n) := by
  unfold HwInit.afterRings
  dsimp only
  rw [HwInit.setEhw_initRegs, HwInit.enable_initRegs, setupMisc_initRegs (by simp),
    mapRxdesc_txdesc2cmpl]

/-- The entries for the RXDESC rings are written after the rings have been configured. -/
theorem afterRings_rxdesc2fill (allocs : Nat → List EdmaRxAlloc) (s : HwInit) (n : Nat) :
    (s.afterRings .ipq807x allocs).initRegs (.rxdesc2fillMap n) =
      ({ s with cfg := edmaConfigureRings allocs s.cfg } : HwInit).mapRxdesc.initRegs
        (.rxdesc2fillMap n) := by
  unfold HwInit.afterRings
  dsimp only
  rw [HwInit.setEhw_initRegs, HwInit.enable_initRegs, setupMisc_initRegs (by simp)]

end Maps

/-- On IPQ807x, for all ring numbers that are read from a device tree and in the limits: after
    `edma_hw_init` the maps agree with the rings. -/
theorem edmaHwInit_maps {dt : EdmaDt} {pdata : RingKind → RingRange} {env : HwInitEnv}
    {s t : HwInit} (hdt : edmaOfGetPdata dt = .ok pdata)
    (hlim : ∀ kind, (pdata kind).InLimits (edmaMaxRings .ipq807x kind))
    (h : edmaHwInit .ipq807x env (s.setPdata pdata) = .ok t) : MapsAgree pdata t := by
  have hend := edmaOfGetPdata_ringEnd hdt
  obtain ⟨hw, u, hu, hret, ht⟩ := edmaHwInit_ok h
  -- the numbers are those of the device tree to the end
  obtain ⟨d, hd⟩ : ∃ d, d = ((s.setPdata pdata).setupPrivate.setRegs hw).disable .ipq807x :=
    ⟨_, rfl⟩
  have hdOf : d.layout.Of pdata := by
    rw [hd, HwInit.disable_layout]
    exact setPdata_layout s pdata
  have huOf : u.layout.Of pdata := by
    rw [hu, beforeRings_layout, ← HwInit.disable_layout .ipq807x, ← hd]
    exact hdOf
  have hv := edmaInitRings_setUp huOf hlim hret env.ringDma
  generalize (edmaInitRings u.rings env.rings).2.foldl (HwInit.ringOp env.ringDma) u = v at ht hv
  have hlayout : t.layout = v.layout := by
    rw [ht, afterRings_layout]
  have hdesc (k : Nat) : t.cfg.dev.ehw.rxdescRing k = v.cfg.dev.ehw.rxdescRing k :=
    congrFun (congrArg RingLayout.rxdescRing hlayout) k
  have hfill (k : Nat) : (t.cfg.dev.rxOf k).rxfill.id =
      (v.cfg.dev.ehw.rxfillRing (v.cfg.dev.rxdescFill k)).id :=
    congrArg (fun l : RingLayout => (l.rxfillRing (l.rxdescFill k)).id) hlayout
  have htx {i : Nat} (hi : i < edmaMaxRings .ipq807x .txdesc) :
      txdesc2cmpl.entry t.initRegs i =
        if (pdata .txdesc).Owns i then cmplOf pdata i else 0#32 := by
    rw [← mapTxdesc_entry hdOf hlim hend hi]
    apply RegTable.entry_congr
    obtain ⟨n, hn⟩ := txdesc2cmpl_reg i
    rw [hn, ht, afterRings_txdesc2cmpl, hv.initRegs, hu, beforeRings_txdesc2cmpl, ← hd]
  have hrx {i : Nat} (hi : i < edmaMaxRings .ipq807x .rxdesc) :
      rxdesc2fill.entry t.initRegs i =
        if (pdata .rxdesc).Owns i then fillOf v.layout i else 0#32 := by
    have hof :
        ({ v with cfg := edmaConfigureRings env.allocs v.cfg } : HwInit).layout.Of pdata := by
      rw [configureRings_layout]
      exact hv.layout
    rw [← configureRings_layout env.allocs v,
      ← mapRxdesc_entry hof (hlim .rxdesc) (hend .rxdesc) hi]
    apply RegTable.entry_congr
    obtain ⟨n, hn⟩ := rxdesc2fill_reg i
    rw [hn, ht, afterRings_rxdesc2fill]
  refine ⟨?_, ?_, ?_, ?_⟩
  · intro i hi
    have hlt := Nat.mod_lt (i - (pdata .txdesc).ringStart.toNat) (hlim .txcmpl).pos
    have hle : _ ≤ 8 := (hlim .txcmpl).le
    rw [htx (Nat.lt_of_lt_of_le hi.2 (hlim .txdesc).le), if_pos hi, cmplOf, cmplAfter,
      ofNat_and_seven (by omega)]
  · intro k hk
    have hid := hv.rxdesc k hk
    have hlt := Nat.mod_lt k (hlim .rxfill).pos
    have hle : _ ≤ 8 := (hlim .rxfill).le
    have howns : (pdata .rxdesc).Owns ((pdata .rxdesc).ringStart.toNat + k) := ⟨by omega, by omega⟩
    have hstart : v.layout.ringStart .rxdesc = (pdata .rxdesc).ringStart.toNat :=
      hv.layout.ringStart .rxdesc
    have hindex : (pdata .rxdesc).ringStart.toNat + k - (pdata .rxdesc).ringStart.toNat = k :=
      Nat.add_sub_cancel_left _ _
    have hrxfill : (v.layout.rxfillRing (v.layout.rxdescFill k)).id =
        (pdata .rxfill).ringStart.toNat + k % (pdata .rxfill).rings.toNat := by
      rw [← hv.rxfill _ hlt, ← hv.share k hk]
      rfl
    refine ⟨by rw [hdesc, hid], ?_⟩
    rw [hdesc, hid, hfill, hrx (Nat.lt_of_lt_of_le howns.2 (hlim .rxdesc).le), if_pos howns, fillOf,
      hstart, hindex, ofNat_and_seven (by omega)]
    rfl
  · intro i hi hother
    rw [htx hi, if_neg hother]
  · intro i hi hother
    rw [hrx hi, if_neg hother]

/-- Sixteen TXDESC rings with five TXCMPL rings, and eight RXDESC rings with three RXFILL rings. -/
def sharedPdata : RingKind → RingRange :=
  pdataOf (perKind 8#32 3#32 2#32 7#32) (perKind 16#32 5#32 3#32 8#32)

theorem sharedPdata_inLimits (kind : RingKind) :
    (sharedPdata kind).InLimits (edmaMaxRings .ipq807x kind) := by
  cases kind <;> exact ⟨by decide, by decide⟩

theorem edmaHwInit_maps_shared : ∃ t,
    edmaHwInit .ipq807x allocsOk (freshInit.setPdata sharedPdata) = .ok t ∧
      MapsAgree sharedPdata t := by
  obtain ⟨t, ht⟩ := @edmaHwInit_returns .ipq807x allocsOk (freshInit.setPdata sharedPdata) rfl
    (by decide)
  exact ⟨t, ht, edmaHwInit_maps (edmaOfGetPdata_dtOf _ _) sharedPdata_inLimits ht⟩

end NssDp.Edma
