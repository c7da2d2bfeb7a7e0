import NssDp.Edma.HwInit
import NssDp.Edma.Proofs.RingSetup
import NssDp.Edma.Proofs.RingsReady
import NssDp.Misc.Except

/-!
# The rings that the initialisation sets up

The numbers of the rings are those of the device tree from the beginning of `edma_hw_init` to its
end. The setup gives the rings of each kind consecutive ids and lets the RXDESC rings share the
RXFILL rings in turn; nothing after it changes this.
-/

namespace NssDp.Edma

open Word

/-- There are rings of a kind, and their ids are in the limit of the hardware. -/
structure RingRange.InLimits (range : RingRange) (max : Nat) : Prop where
  pos : 0 < range.rings.toNat
  le : range.ringStart.toNat + range.rings.toNat ≤ max

theorem RingRange.InLimits.toNat_ringEnd {range : RingRange} {max : Nat} (h : range.InLimits max)
    (hmax : max < 2 ^ 32) (hend : range.ringEnd = range.ringStart + range.rings) :
    range.ringEnd.toNat = range.ringStart.toNat + range.rings.toNat := by
  have hle := h.le
  rw [hend, BitVec.toNat_add, Nat.mod_eq_of_lt (by omega)]

/-- The numbers of the rings, the rings of the receive side, and which of them share. -/
structure RingLayout where
  rings : RingKind → Nat
  ringStart : RingKind → Nat
  ringEnd : RingKind → Nat
  rxfillRing : Nat → EdmaRxfillRing
  rxdescRing : Nat → EdmaRxdescRing
  rxdescFill : Nat → Nat

def HwInit.layout (s : HwInit) : RingLayout where
  rings := s.rings
  ringStart := s.ringStart
  ringEnd := s.ringEnd
  rxfillRing := s.cfg.dev.ehw.rxfillRing
  rxdescRing := s.cfg.dev.ehw.rxdescRing
  rxdescFill := s.cfg.dev.rxdescFill

/-- The part of a layout that the device tree gives. -/
structure RingLayout.Of (l : RingLayout) (pdata : RingKind → RingRange) : Prop where
  rings : ∀ kind, l.rings kind = (pdata kind).rings.toNat
  ringStart : ∀ kind, l.ringStart kind = (pdata kind).ringStart.toNat
  ringEnd : ∀ kind, l.ringEnd kind = (pdata kind).ringEnd.toNat

theorem setPdata_layout (s : HwInit) (pdata : RingKind → RingRange) :
    (s.setPdata pdata).layout.Of pdata := by
  refine ⟨?_, ?_, fun _ => rfl⟩
  · intro kind
    cases kind <;> rfl
  · intro kind
    cases kind <;> rfl

/-- Two states of `struct edma_hw` that differ in registers and log at most. -/
def RegsOnly (ehw ehw' : EdmaHw) : Prop := ∃ regs log, ehw' = { ehw with regs, log }

theorem RegsOnly.trans {ehw₁ ehw₂ ehw₃ : EdmaHw} (h₁ : RegsOnly ehw₁ ehw₂)
    (h₂ : RegsOnly ehw₂ ehw₃) : RegsOnly ehw₁ ehw₃ := by
  obtain ⟨_, _, rfl⟩ := h₁
  obtain ⟨regs, log, rfl⟩ := h₂
  exact ⟨regs, log, rfl⟩

theorem writeRegs_regsOnly (ehw : EdmaHw) (rs : List EdmaReg) (val : BitVec 32) :
    RegsOnly ehw (ehw.writeRegs rs val) :=
  ⟨_, _, EdmaHw.writeRegs_eq ehw val rs⟩

theorem modifyRegs_regsOnly (ehw : EdmaHw) (rs : List EdmaReg) (f : BitVec 32 → BitVec 32) :
    RegsOnly ehw (ehw.modifyRegs rs f) := by
  induction rs generalizing ehw with
  | nil => exact ⟨ehw.regs, ehw.log, rfl⟩
  | cons r rs ih =>
    have hstep : RegsOnly ehw ((ehw.touch [.regRead r]).regWrite r (f (ehw.regs r))) :=
      ⟨_, _, rfl⟩
    exact hstep.trans (ih _)

namespace HwInit

@[simp] theorem regWrite_layout (s : HwInit) (reg : InitReg) (val : BitVec 32) :
    (s.regWrite reg val).layout = s.layout := rfl

@[simp] theorem setEhw_initRegs (s : HwInit) (ehw : EdmaHw) :
    (s.setEhw ehw).initRegs = s.initRegs := rfl

theorem enable_initRegs (s : HwInit) : s.enable.initRegs = s.initRegs := rfl

theorem setEhw_layout {s : HwInit} {ehw : EdmaHw} (h : RegsOnly s.cfg.dev.ehw ehw) :
    (s.setEhw ehw).layout = s.layout := by
  obtain ⟨_, _, rfl⟩ := h
  rfl

theorem disable_layout (soc : Soc) (s : HwInit) : (s.disable soc).layout = s.layout := by
  have hdev (is : List Nat) (cfg : RingConfig) :
      (is.foldl (fun cfg i => RingConfig.regWrite cfg (.rxIntCtrl i) 0#32) cfg).dev = cfg.dev :=
    List.foldlRecOn (motive := fun c : RingConfig => c.dev = cfg.dev) is _ rfl fun _ hc _ _ => hc
  unfold disable
  dsimp only
  rw [hdev]
  apply setEhw_layout
  refine RegsOnly.trans ?_ (modifyRegs_regsOnly _ _ _)
  refine RegsOnly.trans ?_ (modifyRegs_regsOnly _ _ _)
  refine RegsOnly.trans ?_ (modifyRegs_regsOnly _ _ _)
  exact (writeRegs_regsOnly _ _ _).trans (writeRegs_regsOnly _ _ _)

theorem mapTxdesc_layout (s : HwInit) : s.mapTxdesc.layout = s.layout :=
  List.foldlRecOn (motive := fun t : HwInit × BitVec 32 => t.1.layout = s.layout) _ _ rfl
    fun _ ht _ _ => ht

theorem mapRxdesc_layout (s : HwInit) : s.mapRxdesc.layout = s.layout :=
  List.foldlRecOn (motive := fun t : HwInit => t.layout = s.layout) _ _ rfl fun _ ht _ _ => ht

theorem setupMisc_layout (soc : Soc) (s : HwInit) : (s.setupMisc soc).layout = s.layout := by
  unfold setupMisc
  dsimp only
  split <;> rfl

theorem enable_layout (s : HwInit) : s.enable.layout = s.layout := by
  apply setEhw_layout
  apply RegsOnly.trans _ (modifyRegs_regsOnly _ _ _)
  exact (modifyRegs_regsOnly _ _ _).trans (modifyRegs_regsOnly _ _ _)

end HwInit

section Parts

variable {pdata : RingKind → RingRange}

theorem range_ringEnd {props : RingProps} {range : RingRange} (h : props.range = .ok range) :
    range.ringEnd = range.ringStart + range.rings := by
  unfold RingProps.range at h
  split at h
  · cases h
  split at h
  · cases h
  · cases h
    rfl

/-- The end of the rings of each kind as it is read from the device tree. -/
theorem edmaOfGetPdata_ringEnd {dt : EdmaDt} (h : edmaOfGetPdata dt = .ok pdata)
    (kind : RingKind) : (pdata kind).ringEnd = (pdata kind).ringStart + (pdata kind).rings := by
  unfold edmaOfGetPdata at h
  split at h
  · cases h
  split at h
  · cases h
  split at h
  · cases h
  obtain ⟨txdesc, htxdesc, h⟩ := Except.bind_eq_ok_iff.mp h
  obtain ⟨txcmpl, htxcmpl, h⟩ := Except.bind_eq_ok_iff.mp h
  obtain ⟨rxfill, hrxfill, h⟩ := Except.bind_eq_ok_iff.mp h
  obtain ⟨rxdesc, hrxdesc, h⟩ := Except.bind_eq_ok_iff.mp h
  cases h
  cases kind with
  | txdesc => exact range_ringEnd htxdesc
  | txcmpl => exact range_ringEnd htxcmpl
  | rxfill => exact range_ringEnd hrxfill
  | rxdesc => exact range_ringEnd hrxdesc

/-! The setup of the rings -/

/-- What is done to the rings where everything succeeds. -/
def ringSetup (n : RingKind → Nat) : List RingOp :=
  setupOps (assignRing .txdesc) .txdesc (List.range (n .txdesc)) ++
    setupOps (assignRing .txcmpl) .txcmpl (List.range (n .txcmpl)) ++
    setupOps (assignRing .rxfill) .rxfill (List.range (n .rxfill)) ++
    setupOps (assignRxdesc n) .rxdesc (List.range (n .rxdesc))

theorem setupRings_none {pre : Nat → List RingOp} {kind : RingKind} {ok : Nat → Bool} {n : Nat}
    (h : (setupRings pre kind ok n 0).2 = none) :
    (setupRings pre kind ok n 0).1 = setupOps pre kind (List.range n) := by
  rcases setupRings_cases pre kind ok n 0 with ⟨hall, -⟩ | ⟨k, -, hfail, -⟩
  · rw [hall, List.range_eq_range']
  · rw [hfail] at h
    cases h

theorem edmaSetupRingResources_ops {n : RingKind → Nat} {env : RingEnv}
    (h : (edmaSetupRingResources n env).1 = 0) :
    (edmaSetupRingResources n env).2 = ringSetup n := by
  unfold edmaSetupRingResources at h ⊢
  dsimp only at h ⊢
  split at h
  · cases h
  split at h
  · cases h
  split at h
  · cases h
  split at h
  · cases h
  rename_i htxdesc _ htxcmpl _ hrxfill _ hrxdesc
  rw [setupRings_none htxdesc, setupRings_none htxcmpl, setupRings_none hrxfill,
    setupRings_none hrxdesc, ringSetup]

theorem edmaInitRings_ops {n : RingKind → Nat} {env : RingEnv} (h : (edmaInitRings n env).1 = 0) :
    (edmaInitRings n env).2 =
      [.kzalloc .rxfill, .kzalloc .rxdesc, .kzalloc .txdesc, .kzalloc .txcmpl] ++ ringSetup n := by
  have harray : ∀ kind, env.array kind = true := by
    intro kind
    by_contra hbad
    have hret := (edmaAllocRings_unwound n ⟨kind, Bool.eq_false_iff.mpr hbad⟩).ret
    rw [edmaInitRings, if_pos (by rw [hret]; decide), hret] at h
    cases h
  rw [edmaInitRings, edmaAllocRings_ok harray] at h ⊢
  rw [← edmaSetupRingResources_ops h]
  rfl

/-- What is done to a ring that is set up. -/
def RingOp.IsSetup (n : RingKind → Nat) : RingOp → Prop
  | .assign _ ring | .dmaAllocCoherent _ ring => ∃ i : Nat, ring = i
  | .mapRxfill rxdesc rxfill => ∃ i : Nat, rxdesc = i ∧ rxfill = (i % n .rxfill : Nat)
  | .kzalloc _ | .kfree _ | .cleanup .. => False

theorem setupOps_isSetup {n : RingKind → Nat} {pre : Nat → List RingOp}
    (hpre : ∀ i, ∀ op ∈ pre i, op.IsSetup n) (kind : RingKind) (rings : List Nat) :
    ∀ op ∈ setupOps pre kind rings, op.IsSetup n := by
  intro op hop
  obtain ⟨i, -, hop⟩ := List.mem_flatMap.mp hop
  rcases List.mem_append.mp hop with hop | hop
  · exact hpre i op hop
  · rw [List.mem_singleton.mp hop]
    exact ⟨i, rfl⟩

theorem ringSetup_isSetup (n : RingKind → Nat) : ∀ op ∈ ringSetup n, op.IsSetup n := by
  have hassign (kind : RingKind) : ∀ i, ∀ op ∈ assignRing kind i, op.IsSetup n := by
    intro i op hop
    rw [List.mem_singleton.mp hop]
    exact ⟨i, rfl⟩
  have hrxdesc : ∀ i, ∀ op ∈ assignRxdesc n i, op.IsSetup n := by
    intro i op hop
    rcases List.mem_pair.mp hop with rfl | rfl
    · exact ⟨i, rfl⟩
    · exact ⟨i, rfl, rfl⟩
  unfold ringSetup
  simp only [List.forall_mem_append]
  exact ⟨⟨⟨setupOps_isSetup (hassign _) _ _, setupOps_isSetup (hassign _) _ _⟩,
    setupOps_isSetup (hassign _) _ _⟩, setupOps_isSetup hrxdesc _ _⟩

/-- What is done to ring `i` before its allocation is done in the loop. -/
theorem mem_setupOps {pre : Nat → List RingOp} {kind : RingKind} {n i : Nat} {op : RingOp}
    (hi : i < n) (hop : op ∈ pre i) : op ∈ setupOps pre kind (List.range n) :=
  List.mem_flatMap.mpr ⟨i, List.mem_range.mpr hi, List.mem_append_left _ hop⟩

/-- What one turn of a loop makes true, and every turn keeps, is true after the loop. -/
theorem foldl_of_mem {σ α : Type*} {P : σ → Prop} {f : σ → α → σ} {as : List α} {a : α}
    (hmem : a ∈ as) (hset : ∀ s, P (f s a)) (hkeep : ∀ b ∈ as, ∀ s, P s → P (f s b)) (s : σ) :
    P (as.foldl f s) := by
  obtain ⟨pre, post, rfl⟩ := List.append_of_mem hmem
  rw [List.foldl_append, List.foldl_cons]
  apply List.foldlRecOn
  · exact hset _
  · intro s hs b hb
    exact hkeep b (List.mem_append_right pre (List.mem_cons_of_mem a hb)) s hs

/-- The id of a ring. -/
def HwInit.ringId (s : HwInit) (kind : RingKind) (k : Nat) : Nat :=
  match kind with
  | .txdesc => (s.cfg.dev.ehw.txdescRing k).id
  | .txcmpl => (s.cfg.dev.ehw.txcmplRing k).id
  | .rxfill => (s.cfg.dev.ehw.rxfillRing k).id
  | .rxdesc => (s.cfg.dev.ehw.rxdescRing k).id

/-- What the setup of the rings makes of the receive side: the rings have consecutive ids, and
    the RXDESC rings share the RXFILL rings in turn. -/
structure RxLaidOut (n : RingKind → Nat) (s : HwInit) : Prop where
  rxfill : ∀ k < n .rxfill, (s.cfg.dev.ehw.rxfillRing k).id = u32 (s.ringStart .rxfill + k)
  rxdesc : ∀ k < n .rxdesc, (s.cfg.dev.ehw.rxdescRing k).id = u32 (s.ringStart .rxdesc + k)
  share : ∀ k < n .rxdesc, s.cfg.dev.rxdescFill k = k % n .rxfill

/-- The loops over the rings of a kind go through the driver's own. -/
theorem RingLayout.Of.ringIds {s : HwInit} (hs : s.layout.Of pdata) {kind : RingKind} {max : Nat}
    (hlim : (pdata kind).InLimits max) (hmax : max < 2 ^ 32)
    (hend : (pdata kind).ringEnd = (pdata kind).ringStart + (pdata kind).rings) :
    s.ringIds kind = List.range' (pdata kind).ringStart.toNat (pdata kind).rings.toNat := by
  have hstart : s.ringStart kind = _ := hs.ringStart kind
  have hringEnd : s.ringEnd kind = _ := hs.ringEnd kind
  rw [HwInit.ringIds, hstart, hringEnd, hlim.toNat_ringEnd hmax hend, Nat.add_sub_cancel_left]

section RingOps

variable (ringDma : RingKind → Nat → BitVec 64)

/-- The assignment of a ring sets its id, and every other operation keeps it. -/
theorem assign_ringId (s : HwInit) (kind : RingKind) (k : Nat) :
    (s.ringOp ringDma (.assign kind k)).ringId kind k = u32 (s.ringStart kind + k) := by
  cases kind <;>
    simp [HwInit.ringOp, HwInit.assign, HwInit.setEhw, RingConfig.setEhw, HwInit.ringId]

theorem ringOp_ringStart (s : HwInit) (op : RingOp) :
    (s.ringOp ringDma op).ringStart = s.ringStart := by
  funext kind
  cases op with
  | assign kind' | kzalloc kind' | dmaAllocCoherent kind' => cases kind' <;> cases kind <;> rfl
  | mapRxfill | kfree | cleanup => cases kind <;> rfl

theorem ringOp_ringId {n : RingKind → Nat} (kind : RingKind) (k : Nat) {op : RingOp}
    (hop : op.IsSetup n) (s : HwInit) (h : s.ringId kind k = u32 (s.ringStart kind + k)) :
    (s.ringOp ringDma op).ringId kind k = u32 ((s.ringOp ringDma op).ringStart kind + k) := by
  rw [ringOp_ringStart]
  cases op with
  | assign kind' ring =>
    obtain ⟨i, rfl⟩ := hop
    rcases eq_or_ne kind' kind with rfl | hkind
    · rcases eq_or_ne k i with rfl | hne
      · exact assign_ringId ringDma s kind' k
      · refine Eq.trans ?_ h
        cases kind' <;> simp [HwInit.ringOp, HwInit.assign, HwInit.setEhw, RingConfig.setEhw,
          HwInit.ringId, hne]
    · refine Eq.trans ?_ h
      cases kind' <;> cases kind <;> first | rfl | exact absurd rfl hkind
  | mapRxfill rxdesc rxfill =>
    refine Eq.trans ?_ h
    cases kind <;> rfl
  | dmaAllocCoherent kind' ring =>
    obtain ⟨i, rfl⟩ := hop
    refine Eq.trans ?_ h
    rcases eq_or_ne k i with rfl | hne
    · cases kind' <;> cases kind <;> simp [HwInit.ringOp, HwInit.allocDesc, HwInit.setEhw,
        RingConfig.setEhw, HwInit.ringId]
    · cases kind' <;> cases kind <;> simp [HwInit.ringOp, HwInit.allocDesc, HwInit.setEhw,
        RingConfig.setEhw, HwInit.ringId, hne]
  | kzalloc | kfree | cleanup => cases hop

theorem mapRxfill_share (s : HwInit) (k fill : Nat) :
    (s.ringOp ringDma (.mapRxfill k fill)).cfg.dev.rxdescFill k = fill := by
  simp only [HwInit.ringOp, Int.toNat_natCast, Function.update_self]

theorem ringOp_share {n : RingKind → Nat} (k : Nat) {op : RingOp} (hop : op.IsSetup n) (s : HwInit)
    (h : s.cfg.dev.rxdescFill k = k % n .rxfill) :
    (s.ringOp ringDma op).cfg.dev.rxdescFill k = k % n .rxfill := by
  cases op with
  | assign kind ring => cases kind <;> exact h
  | mapRxfill rxdesc rxfill =>
    obtain ⟨i, rfl, rfl⟩ := hop
    rcases eq_or_ne k i with rfl | hne
    · exact mapRxfill_share ringDma s k _
    · simpa [HwInit.ringOp, hne] using h
  | dmaAllocCoherent kind ring => cases kind <;> exact h
  | kzalloc | kfree | cleanup => cases hop

/-- After the setup, by the turn of each ring. -/
theorem ringSetup_laidOut (n : RingKind → Nat) (s : HwInit) :
    RxLaidOut n ((ringSetup n).foldl (HwInit.ringOp ringDma) s) := by
  have hsetup := ringSetup_isSetup n
  have hrxdesc {k : Nat} (hk : k < n .rxdesc) {op : RingOp} (hop : op ∈ assignRxdesc n k) :
      op ∈ ringSetup n :=
    List.mem_append_right _ (mem_setupOps hk hop)
  have hid {kind : RingKind} {k : Nat} (hmem : RingOp.assign kind k ∈ ringSetup n) :=
    foldl_of_mem (P := fun s : HwInit => s.ringId kind k = u32 (s.ringStart kind + k)) hmem
      (fun s => (ringOp_ringStart ringDma s _).symm ▸ assign_ringId ringDma s kind k)
      (fun op hop => ringOp_ringId ringDma kind k (hsetup op hop)) s
  refine ⟨?_, ?_, ?_⟩
  · intro k hk
    have hfill : RingOp.assign .rxfill k ∈ ringSetup n := by
      apply List.mem_append_left
      apply List.mem_append_right
      exact mem_setupOps hk (List.mem_singleton.mpr rfl)
    exact hid hfill
  · intro k hk
    have hdesc : RingOp.assign .rxdesc k ∈ ringSetup n := hrxdesc hk List.mem_cons_self
    exact hid hdesc
  · intro k hk
    exact foldl_of_mem (P := fun s : HwInit => s.cfg.dev.rxdescFill k = k % n .rxfill)
      (hrxdesc hk (List.mem_cons_of_mem _ List.mem_cons_self))
      (fun s => mapRxfill_share ringDma s k _)
      (fun op hop => ringOp_share ringDma k (hsetup op hop)) s

theorem ringOp_of (s : HwInit) (op : RingOp) (h : s.layout.Of pdata) :
    (s.ringOp ringDma op).layout.Of pdata := by
  cases op with
  | assign kind ring | kzalloc kind | dmaAllocCoherent kind ring =>
    cases kind <;> exact ⟨h.rings, h.ringStart, h.ringEnd⟩
  | mapRxfill | kfree | cleanup => exact ⟨h.rings, h.ringStart, h.ringEnd⟩

theorem ringOp_initRegs (s : HwInit) (op : RingOp) :
    (s.ringOp ringDma op).initRegs = s.initRegs := by
  cases op with
  | assign kind ring | kzalloc kind | dmaAllocCoherent kind ring => cases kind <;> rfl
  | mapRxfill | kfree | cleanup => rfl

end RingOps

/-- The configuration of the rings changes nothing of this. -/
theorem configureRings_layout (allocs : Nat → List EdmaRxAlloc) (s : HwInit) :
    ({ s with cfg := edmaConfigureRings allocs s.cfg } : HwInit).layout = s.layout := by
  have hdev {cfg cfg' : RingConfig} (h : cfg'.dev = cfg.dev) :
      ({ s with cfg := cfg' } : HwInit).layout = { s with cfg }.layout := by
    cases cfg
    cases cfg'
    cases h
    rfl
  have hrxfill (is : List Nat) (cfg : RingConfig) :
      ({ s with cfg := is.foldl (edmaConfigureRxfillRing allocs) cfg } : HwInit).layout =
        { s with cfg }.layout := by
    induction is generalizing cfg with
    | nil => rfl
    | cons i is ih =>
      obtain ⟨regs, log, hehw, -⟩ := edmaAllocRxBuffer_ehw (cfg.dev.rx 0 i) (allocs i)
      rw [List.foldl_cons, ih]
      exact HwInit.setEhw_layout (s := { s with cfg }) ⟨regs, log, hehw⟩
  obtain ⟨log, htxdesc⟩ := txdescLoop_dev (List.range s.cfg.clearStores.dev.ehw.txdescRings)
    s.cfg.clearStores
  unfold edmaConfigureRings
  dsimp only
  rw [hdev (rxdescLoop_dev _ _), hrxfill, hdev (txcmplLoop_dev _ _)]
  cases hcfg : (List.range s.cfg.clearStores.dev.ehw.txdescRings).foldl edmaConfigureTxdescRing
    s.cfg.clearStores
  rw [hcfg] at htxdesc
  cases htxdesc
  rfl

/-! The parts of the initialisation -/

theorem beforeRings_layout (soc : Soc) (s : HwInit) : (s.beforeRings soc).layout = s.layout := by
  unfold HwInit.beforeRings
  dsimp only
  rw [HwInit.mapQid, HwInit.regWrite_layout]
  split
  · rw [HwInit.mapTxdesc_layout, HwInit.disable_layout]
  · exact HwInit.disable_layout soc s

theorem afterRings_layout (soc : Soc) (allocs : Nat → List EdmaRxAlloc) (s : HwInit) :
    (s.afterRings soc allocs).layout = s.layout := by
  have hlast (u : HwInit) : (u.setEhw { u.cfg.dev.ehw with edmaInitialized := true }).layout =
      u.layout := rfl
  rw [HwInit.afterRings, hlast, HwInit.enable_layout, HwInit.setupMisc_layout,
    HwInit.mapRxdesc_layout, configureRings_layout]

/-- What `edma_hw_init` has done where it succeeds. -/
theorem edmaHwInit_ok {soc : Soc} {env : HwInitEnv} {s t : HwInit}
    (h : edmaHwInit soc env s = .ok t) : ∃ hw, ∃ u : HwInit,
      u = (s.setupPrivate.setRegs hw).beforeRings soc ∧
      (edmaInitRings u.rings env.rings).1 = 0 ∧
      t = ((edmaInitRings u.rings env.rings).2.foldl (HwInit.ringOp env.ringDma) u).afterRings soc
        env.allocs := by
  unfold edmaHwInit at h
  cases hreset : env.reset with
  | none =>
    rw [hreset] at h
    cases h
  | some hw =>
    rw [hreset] at h
    dsimp only at h
    by_cases hret : (edmaInitRings ((s.setupPrivate.setRegs hw).beforeRings soc).rings
      env.rings).1 = 0
    · rw [if_neg (not_not.mpr hret)] at h
      exact ⟨hw, _, rfl, hret, (Except.ok.inj h).symm⟩
    · rw [if_pos hret] at h
      cases h

/-- The initialisation succeeds where the reset control is found and the rings are set up. -/
theorem edmaHwInit_returns {soc : Soc} {env : HwInitEnv} {s : HwInit} (hreset : env.reset.isSome)
    (hrings : (edmaInitRings s.rings env.rings).1 = 0) : ∃ t, edmaHwInit soc env s = .ok t := by
  obtain ⟨hw, hhw⟩ := Option.isSome_iff_exists.mp hreset
  have hn : ((s.setupPrivate.setRegs hw).beforeRings soc).rings = s.rings :=
    congrArg RingLayout.rings (beforeRings_layout soc (s.setupPrivate.setRegs hw))
  rw [edmaHwInit, hhw]
  dsimp only
  rw [hn, if_neg (not_not.mpr hrings)]
  exact ⟨_, rfl⟩

/-- The setup of the rings, between the parts that write the maps: the maps are left alone, and
    the numbers are those that the maps are computed from. -/
structure RingsSetUp (pdata : RingKind → RingRange) (u v : HwInit) : Prop where
  layout : v.layout.Of pdata
  initRegs : v.initRegs = u.initRegs
  rxfill : ∀ k < (pdata .rxfill).rings.toNat,
    (v.cfg.dev.ehw.rxfillRing k).id = (pdata .rxfill).ringStart.toNat + k
  rxdesc : ∀ k < (pdata .rxdesc).rings.toNat,
    (v.cfg.dev.ehw.rxdescRing k).id = (pdata .rxdesc).ringStart.toNat + k
  share : ∀ k < (pdata .rxdesc).rings.toNat,
    v.cfg.dev.rxdescFill k = k % (pdata .rxfill).rings.toNat

theorem edmaInitRings_setUp {env : RingEnv} {u : HwInit} (hu : u.layout.Of pdata)
    (hlim : ∀ kind, (pdata kind).InLimits (edmaMaxRings .ipq807x kind))
    (hret : (edmaInitRings u.rings env).1 = 0) (ringDma : RingKind → Nat → BitVec 64) :
    RingsSetUp pdata u ((edmaInitRings u.rings env).2.foldl (HwInit.ringOp ringDma) u) := by
  have hlaid : RxLaidOut u.rings
      ((edmaInitRings u.rings env).2.foldl (HwInit.ringOp ringDma) u) := by
    rw [edmaInitRings_ops hret, List.foldl_append]
    exact ringSetup_laidOut ringDma u.rings _
  have hof : ((edmaInitRings u.rings env).2.foldl (HwInit.ringOp ringDma) u).layout.Of pdata :=
    List.foldlRecOn (motive := fun v : HwInit => v.layout.Of pdata) _ _ hu
      fun v hv op _ => ringOp_of ringDma v op hv
  have hregs : ((edmaInitRings u.rings env).2.foldl (HwInit.ringOp ringDma) u).initRegs =
      u.initRegs :=
    List.foldlRecOn (motive := fun v : HwInit => v.initRegs = u.initRegs) _ _ rfl
      fun v hv op _ => (ringOp_initRegs ringDma v op).trans hv
  have hrings (kind : RingKind) : u.rings kind = (pdata kind).rings.toNat := hu.rings kind
  generalize (edmaInitRings u.rings env).2.foldl (HwInit.ringOp ringDma) u = v at hlaid hof hregs ⊢
  have hstart (kind : RingKind) : v.ringStart kind = (pdata kind).ringStart.toNat :=
    hof.ringStart kind
  refine ⟨hof, hregs, ?_, ?_, ?_⟩
  · intro k hk
    have hle := (hlim .rxfill).le
    simp only [edmaMaxRings] at hle
    rw [hlaid.rxfill k (by rwa [hrings]), hstart, u32_of_lt (by omega)]
  · intro k hk
    have hle := (hlim .rxdesc).le
    simp only [edmaMaxRings] at hle
    rw [hlaid.rxdesc k (by rwa [hrings]), hstart, u32_of_lt (by omega)]
  · intro k hk
    rw [hlaid.share k (by rwa [hrings]), hrings]

end Parts

/-! Device trees with all properties -/

/-- A number for each kind of rings. -/
def perKind {α : Type*} (txdesc txcmpl rxfill rxdesc : α) : RingKind → α
  | .txdesc => txdesc
  | .txcmpl => txcmpl
  | .rxfill => rxfill
  | .rxdesc => rxdesc

def dtOf (ringStart rings : RingKind → BitVec 32) : EdmaDt where
  deviceNode := true
  pdev := true
  edmaRes := true
  props kind := ⟨some (ringStart kind), some (rings kind)⟩

def pdataOf (ringStart rings : RingKind → BitVec 32) (kind : RingKind) : RingRange :=
  ⟨ringStart kind, rings kind, ringStart kind + rings kind⟩

/-- Whatever the properties say, they are accepted. -/
theorem edmaOfGetPdata_dtOf (ringStart rings : RingKind → BitVec 32) :
    edmaOfGetPdata (dtOf ringStart rings) = .ok (pdataOf ringStart rings) := by
  refine congrArg Except.ok (funext fun kind => ?_)
  cases kind <;> rfl

/-- The reset and all allocations succeed. -/
def allocsOk : HwInitEnv where
  reset := some ⟨fun _ => 0#32, fun _ => 0#32, fun _ => 0xffffffff#32⟩
  rings := ⟨fun _ => true, fun _ _ => true⟩
  ringDma _ _ := 0#64
  allocs := ringBuffers

/-- The instance before its initialisation. -/
def freshInit : HwInit := ⟨configOf 0 0, 0, fun _ => 0, fun _ => 0xffffffff#32⟩

end NssDp.Edma
