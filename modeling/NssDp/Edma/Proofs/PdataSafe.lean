import NssDp.Edma.DataPlane
import NssDp.Edma.Proofs.RingLayout

/-!
# The ring numbers of the device tree

`edma_of_get_pdata` takes the numbers as it finds them. The ring arrays have an element for each
ring, so the loops over the rings stay in them, but for the unwinding of the two transmit loops;
the arrays with the interrupts are of a fixed length, and nothing compares the numbers with it.
-/

namespace NssDp.Edma

/-- The arrays that the initialisation indexes. -/
inductive InitArray where
  | rings (kind : RingKind)
  | txcmplIntr
  | rxfillIntr
  | rxdescIntr
  deriving DecidableEq, Repr

/-- Their lengths, with `n` rings of each kind. -/
def InitArray.length (soc : Soc) (n : RingKind → Nat) : InitArray → Nat
  | .rings kind => n kind
  | .txcmplIntr => edmaMaxRings soc .txcmpl
  | .rxfillIntr => edmaMaxRings soc .rxfill
  | .rxdescIntr => edmaMaxRings soc .rxdesc

/-- An index into an array. -/
structure ArrayIndex where
  array : InitArray
  index : Int
  deriving DecidableEq, Repr

def ArrayIndex.InArray (soc : Soc) (n : RingKind → Nat) (x : ArrayIndex) : Prop :=
  0 ≤ x.index ∧ x.index < x.array.length soc n

/-- A loop over an array. -/
def indexLoop (array : InitArray) (count : Nat) : List ArrayIndex :=
  (List.range count).map fun i : Nat => ⟨array, i⟩

def RingOp.indices : RingOp → List ArrayIndex
  | .assign kind ring | .dmaAllocCoherent kind ring | .cleanup kind ring => [⟨.rings kind, ring⟩]
  | .mapRxfill rxdesc rxfill => [⟨.rings .rxdesc, rxdesc⟩, ⟨.rings .rxfill, rxfill⟩]
  | .kzalloc _ | .kfree _ => []

/-- The loops of `edma_configure_rings`. -/
def HwInit.configureIndices (s : HwInit) : List ArrayIndex :=
  indexLoop (.rings .txdesc) (s.rings .txdesc) ++ indexLoop (.rings .txcmpl) (s.rings .txcmpl) ++
    indexLoop (.rings .rxfill) (s.rings .rxfill) ++ indexLoop (.rings .rxdesc) (s.rings .rxdesc)

/-- The loop of `edma_hw_init` over the ids of the RXDESC rings. -/
def HwInit.mapIndices (s : HwInit) : List ArrayIndex :=
  (s.ringIds .rxdesc).map fun i => ⟨.rings .rxdesc, (i - s.ringStart .rxdesc : Nat)⟩

/-- The loops of `edma_irq_init` that get the interrupts, and those that set the masks. -/
def EdmaHw.irqIndices (ehw : EdmaHw) : List ArrayIndex :=
  indexLoop .txcmplIntr ehw.txcmplRings ++ indexLoop .rxfillIntr ehw.rxfillRings ++
    indexLoop .rxdescIntr ehw.rxdescRings ++ indexLoop (.rings .rxfill) ehw.rxfillRings ++
    indexLoop (.rings .txcmpl) ehw.txcmplRings ++ indexLoop (.rings .rxdesc) ehw.rxdescRings

/-- What `edma_hw_init` does to the rings. -/
def hwInitOps (env : HwInitEnv) (s : HwInit) : List RingOp :=
  if env.reset.isSome then (edmaInitRings s.rings env.rings).2 else []

/-- The indices that `edma_hw_init` forms, and `edma_irq_init` after it. -/
def initIndices (soc : Soc) (env : HwInitEnv) (s : HwInit) : List ArrayIndex :=
  (hwInitOps env s).flatMap RingOp.indices ++
    match edmaHwInit soc env s with
    | .error _ => []
    | .ok t => s.configureIndices ++ s.mapIndices ++ t.cfg.dev.ehw.irqIndices

/-- How many rings of each kind there are. -/
def ringCounts (pdata : RingKind → RingRange) (kind : RingKind) : Nat := (pdata kind).rings.toNat

/-- What has been read is safe to use: no sum wraps, every index is in its array, and the remainder
    by the number of RXFILL rings is not taken where there are none. -/
structure SafeToUse (soc : Soc) (env : HwInitEnv) (pdata : RingKind → RingRange) (s : HwInit) :
    Prop where
  sums : ∀ kind, (pdata kind).ringStart.toNat + (pdata kind).rings.toNat < 2 ^ 32
  indices : ∀ x ∈ initIndices soc env s, x.InArray soc (ringCounts pdata)
  remainder : ∀ rxdesc rxfill, .mapRxfill rxdesc rxfill ∈ hwInitOps env s →
    (pdata .rxfill).rings ≠ 0#32

/-- The numbers fit one another and the arrays, as far as the initialisation comes: the transmit
    loops unwind if an allocation fails, and the interrupts follow if none does. -/
structure RingsFit (soc : Soc) (env : HwInitEnv) (pdata : RingKind → RingRange) : Prop where
  sums : ∀ kind, (pdata kind).ringStart.toNat + (pdata kind).rings.toNat < 2 ^ 32
  setup : env.reset.isSome → (∀ kind, env.rings.array kind = true) →
    env.rings.TxOk (ringCounts pdata) ∧ Shared (ringCounts pdata)
  intr : env.reset.isSome → (∀ kind, env.rings.array kind = true) →
    (∀ kind, ∀ i < ringCounts pdata kind, env.rings.desc kind i = true) →
      ringCounts pdata .txcmpl ≤ edmaMaxRings soc .txcmpl ∧
        ringCounts pdata .rxfill ≤ edmaMaxRings soc .rxfill ∧
        ringCounts pdata .rxdesc ≤ edmaMaxRings soc .rxdesc

section Indices

variable {soc : Soc} {n : RingKind → Nat}

theorem indexLoop_inArray_iff {array : InitArray} {count : Nat} :
    (∀ x ∈ indexLoop array count, x.InArray soc n) ↔ count ≤ array.length soc n := by
  constructor
  · intro h
    rcases Nat.eq_zero_or_pos count with rfl | hpos
    · exact Nat.zero_le _
    · have hlast := h ⟨array, (count - 1 : Nat)⟩
        (List.mem_map_of_mem (List.mem_range.mpr (Nat.sub_one_lt_of_lt hpos)))
      have hlt : count - 1 < array.length soc n := Int.ofNat_lt.mp hlast.2
      omega
  · intro hle x hx
    obtain ⟨i, hi, rfl⟩ := List.mem_map.mp hx
    exact ⟨Int.natCast_nonneg i, Int.ofNat_lt.mpr (Nat.lt_of_lt_of_le (List.mem_range.mp hi) hle)⟩

theorem opIndices_inArray_iff (op : RingOp) :
    (∀ x ∈ op.indices, x.InArray soc n) ↔ op.InRange n := by
  cases op <;> simp [RingOp.indices, RingOp.InRange, ArrayIndex.InArray, InitArray.length]

/-! The setup of the rings -/

theorem edmaInitRings_arrays {env : RingEnv} (harray : ∀ kind, env.array kind = true) :
    edmaInitRings n env = ((edmaSetupRingResources n env).1,
      [.kzalloc .rxfill, .kzalloc .rxdesc, .kzalloc .txdesc, .kzalloc .txcmpl] ++
        (edmaSetupRingResources n env).2) := by
  rw [edmaInitRings, edmaAllocRings_ok harray]
  rfl

theorem edmaInitRings_inRange {env : RingEnv}
    (h : (∀ kind, env.array kind = true) → env.TxOk n ∧ Shared n) :
    ∀ op ∈ (edmaInitRings n env).2, op.InRange n := by
  by_cases harray : ∀ kind, env.array kind = true
  · obtain ⟨htx, hshared⟩ := h harray
    have hsetup : ∀ op ∈ (edmaSetupRingResources n env).2, op.InRange n := by
      rcases edmaSetupRingResources_cases n env with ⟨-, -, hin⟩ | ⟨-, hbad, -⟩ | ⟨-, -, -, -, hin⟩
      · exact hin hshared
      · exact absurd htx hbad
      · exact hin hshared
    rw [edmaInitRings_arrays harray]
    intro op hop
    rcases List.mem_append.mp hop with hop | hop
    · simp only [List.mem_cons, List.not_mem_nil, or_false] at hop
      rcases hop with rfl | rfl | rfl | rfl <;> trivial
    · exact hsetup op hop
  · have hfail : ∃ kind, env.array kind = false := by
      simpa using harray
    have hunwound := edmaAllocRings_unwound n hfail
    have hinit : edmaInitRings n env = edmaAllocRings env := by
      rw [edmaInitRings, if_pos (by rw [hunwound.ret]; decide)]
    rw [hinit]
    exact hunwound.inRange

/-- All allocations succeed. -/
def RingEnv.AllOk (n : RingKind → Nat) (env : RingEnv) : Prop :=
  (∀ kind, env.array kind = true) ∧ ∀ kind, ∀ i < n kind, env.desc kind i = true

theorem edmaInitRings_eq_zero_iff {env : RingEnv} : (edmaInitRings n env).1 = 0 ↔ env.AllOk n := by
  by_cases harray : ∀ kind, env.array kind = true
  · rw [edmaInitRings_arrays harray]
    rcases edmaSetupRingResources_cases n env with ⟨hret, hok, -⟩ | ⟨hret, htx, -⟩ |
      ⟨hret, -, ⟨kind, i, hi, hbad⟩, -⟩
    · exact iff_of_true hret ⟨harray, hok⟩
    · refine iff_of_false (by rw [hret]; decide) ?_
      intro h
      exact htx ⟨h.2 .txdesc, h.2 .txcmpl⟩
    · refine iff_of_false (by rw [hret]; decide) ?_
      intro h
      rw [h.2 kind i hi] at hbad
      cases hbad
  · refine iff_of_false ?_ fun h => harray h.1
    have hfail : ∃ kind, env.array kind = false := by
      simpa using harray
    have hret := (edmaAllocRings_unwound n hfail).ret
    rw [edmaInitRings, if_pos (by rw [hret]; decide), hret]
    decide

/-- The first ring of a loop is assigned whether its allocation succeeds or not. -/
theorem mem_setupRings {pre : Nat → List RingOp} {op : RingOp} {left i : Nat} (hop : op ∈ pre i)
    (hleft : 0 < left) (kind : RingKind) (ok : Nat → Bool) :
    op ∈ (setupRings pre kind ok left i).1 := by
  cases left with
  | zero => cases hleft
  | succ left =>
    rw [setupRings]
    split
    · exact List.mem_append_left _ hop
    · exact hop

/-- Where no transmit ring fails and there is no RXFILL ring, the first RXDESC ring is given one
    all the same. -/
theorem mapRxfill_mem {env : RingEnv} (htx : env.TxOk n) (hfill : n .rxfill = 0)
    (hdesc : 0 < n .rxdesc) : .mapRxfill 0 0 ∈ (edmaSetupRingResources n env).2 := by
  have hop : RingOp.mapRxfill 0 0 ∈ assignRxdesc n 0 := by
    rw [assignRxdesc, Nat.zero_mod]
    exact List.mem_cons_of_mem _ List.mem_cons_self
  have hmem := mem_setupRings hop hdesc .rxdesc (env.desc .rxdesc)
  rcases setupRings_setsUp (assignRing_prepares n .txdesc) (env.desc .txdesc) with
    ⟨txdesc, heq₁, -⟩ | ⟨-, i, hi, -, hbad, -⟩
  swap
  · rw [htx.1 i hi] at hbad
    cases hbad
  rcases setupRings_setsUp (assignRing_prepares n .txcmpl) (env.desc .txcmpl) with
    ⟨txcmpl, heq₂, -⟩ | ⟨-, i, hi, -, hbad, -⟩
  swap
  · rw [htx.2 i hi] at hbad
    cases hbad
  simp only [edmaSetupRingResources, heq₁, heq₂, hfill, setupRings]
  split
  · simp [hmem]
  · exact List.mem_append_right _ hmem

end Indices

section Safe

variable {soc : Soc} {env : HwInitEnv} {pdata : RingKind → RingRange} {s : HwInit}

theorem setPdata_rings (s : HwInit) (pdata : RingKind → RingRange) :
    (s.setPdata pdata).rings = ringCounts pdata :=
  funext (setPdata_layout s pdata).rings

/-- The initialisation succeeds just when the reset and all allocations do. -/
theorem edmaHwInit_ok_iff : (∃ t, edmaHwInit soc env (s.setPdata pdata) = .ok t) ↔
    env.reset.isSome ∧ env.rings.AllOk (ringCounts pdata) := by
  rw [← edmaInitRings_eq_zero_iff, ← setPdata_rings s pdata]
  constructor
  · rintro ⟨t, h⟩
    obtain ⟨hw, u, hu, hret, -⟩ := edmaHwInit_ok h
    have hrings : u.rings = (s.setPdata pdata).rings := by
      rw [hu]
      exact congrArg RingLayout.rings (beforeRings_layout soc _)
    refine ⟨?_, by rwa [← hrings]⟩
    cases hreset : env.reset with
    | none =>
      rw [edmaHwInit, hreset] at h
      cases h
    | some hw => rfl
  · rintro ⟨hreset, hret⟩
    exact edmaHwInit_returns hreset hret

/-- The interrupts are registered for the same numbers of rings. -/
theorem edmaHwInit_rings {t : HwInit} (h : edmaHwInit soc env (s.setPdata pdata) = .ok t) :
    t.rings = ringCounts pdata := by
  obtain ⟨hw, u, hu, -, ht⟩ := edmaHwInit_ok h
  have hof : u.layout.Of pdata := by
    rw [hu, beforeRings_layout]
    exact setPdata_layout s pdata
  have hof' : t.layout.Of pdata := by
    rw [ht, afterRings_layout]
    exact List.foldlRecOn (motive := fun v : HwInit => v.layout.Of pdata) _ _ hof
      fun v hv op _ => ringOp_of env.ringDma v op hv
  exact funext hof'.rings

/-- The loop over the ids is empty where their end has wrapped. -/
theorem mapIndices_inArray
    (hend : (pdata .rxdesc).ringEnd = (pdata .rxdesc).ringStart + (pdata .rxdesc).rings) :
    ∀ x ∈ (s.setPdata pdata).mapIndices, x.InArray soc (ringCounts pdata) := by
  intro x hx
  obtain ⟨i, hi, rfl⟩ := List.mem_map.mp hx
  have hi' := List.mem_range'_1.mp hi
  have hstart : (s.setPdata pdata).ringStart .rxdesc = (pdata .rxdesc).ringStart.toNat := rfl
  have hringEnd : (s.setPdata pdata).ringEnd .rxdesc = (pdata .rxdesc).ringEnd.toNat := rfl
  rw [hstart, hringEnd, hend, BitVec.toNat_add] at hi'
  refine ⟨Int.natCast_nonneg _, Int.ofNat_lt.mpr ?_⟩
  rw [hstart]
  have hlt : i - (pdata .rxdesc).ringStart.toNat < (pdata .rxdesc).rings.toNat := by
    have h₁ := (pdata .rxdesc).ringStart.isLt
    have h₂ := (pdata .rxdesc).rings.isLt
    omega
  exact hlt

/-- The operations of the setup are on rings in the arrays just when no transmit ring fails and
    the RXDESC rings have an RXFILL ring to share. -/
theorem hwInitOps_inRange (h : env.reset.isSome → (∀ kind, env.rings.array kind = true) →
      env.rings.TxOk (ringCounts pdata) ∧ Shared (ringCounts pdata)) :
    ∀ op ∈ hwInitOps env (s.setPdata pdata), op.InRange (ringCounts pdata) := by
  rw [hwInitOps, setPdata_rings]
  split
  · rename_i hreset
    exact edmaInitRings_inRange (h hreset)
  · intro op hop
    cases hop

/-- The arrays of the interrupts are long enough. -/
theorem irqIndices_inArray_iff {ehw : EdmaHw} {n : RingKind → Nat}
    (htxcmpl : ehw.txcmplRings = n .txcmpl) (hrxfill : ehw.rxfillRings = n .rxfill)
    (hrxdesc : ehw.rxdescRings = n .rxdesc) : (∀ x ∈ ehw.irqIndices, x.InArray soc n) ↔
      n .txcmpl ≤ edmaMaxRings soc .txcmpl ∧ n .rxfill ≤ edmaMaxRings soc .rxfill ∧
        n .rxdesc ≤ edmaMaxRings soc .rxdesc := by
  simp only [EdmaHw.irqIndices, List.forall_mem_append, indexLoop_inArray_iff, InitArray.length,
    htxcmpl, hrxfill, hrxdesc, Nat.le_refl, and_true, and_assoc]

theorem configureIndices_inArray :
    ∀ x ∈ (s.setPdata pdata).configureIndices, x.InArray soc (ringCounts pdata) := by
  simp only [HwInit.configureIndices, List.forall_mem_append, indexLoop_inArray_iff,
    InitArray.length, setPdata_rings, Nat.le_refl, and_true]

/-- The indices are those of the setup, and those of the interrupts where the initialisation
    succeeds; the other loops are in their arrays in any case. -/
theorem initIndices_inArray_iff
    (hend : (pdata .rxdesc).ringEnd = (pdata .rxdesc).ringStart + (pdata .rxdesc).rings) :
    (∀ x ∈ initIndices soc env (s.setPdata pdata), x.InArray soc (ringCounts pdata)) ↔
      (∀ op ∈ hwInitOps env (s.setPdata pdata), op.InRange (ringCounts pdata)) ∧
      (env.reset.isSome → env.rings.AllOk (ringCounts pdata) →
        ringCounts pdata .txcmpl ≤ edmaMaxRings soc .txcmpl ∧
          ringCounts pdata .rxfill ≤ edmaMaxRings soc .rxfill ∧
          ringCounts pdata .rxdesc ≤ edmaMaxRings soc .rxdesc) := by
  rw [initIndices, List.forall_mem_append, List.forall_mem_flatMap]
  refine and_congr (forall₂_congr fun op _ => opIndices_inArray_iff op) ?_
  have hok := @edmaHwInit_ok_iff soc env pdata s
  cases hinit : edmaHwInit soc env (s.setPdata pdata) with
  | error e =>
    have hnot : ¬ (env.reset.isSome ∧ env.rings.AllOk (ringCounts pdata)) := by
      rw [← hok, hinit]
      rintro ⟨t, ht⟩
      cases ht
    exact iff_of_true (fun x hx => absurd hx List.not_mem_nil)
      fun hreset hall => absurd ⟨hreset, hall⟩ hnot
  | ok t =>
    obtain ⟨hreset, hall⟩ := hok.mp ⟨t, hinit⟩
    have hrings := edmaHwInit_rings hinit
    rw [List.forall_mem_append, List.forall_mem_append,
      irqIndices_inArray_iff (congrFun hrings .txcmpl) (congrFun hrings .rxfill)
        (congrFun hrings .rxdesc)]
    constructor
    · exact fun h _ _ => h.2
    · exact fun h => ⟨⟨configureIndices_inArray, mapIndices_inArray hend⟩, h hreset hall⟩

/-- For every device tree that is accepted, every SoC and every outcome of the allocations: what
    has been read is safe to use if and only if the numbers fit. -/
theorem edmaOfGetPdata_safe_iff {dt : EdmaDt} (hdt : edmaOfGetPdata dt = .ok pdata) :
    SafeToUse soc env pdata (s.setPdata pdata) ↔ RingsFit soc env pdata := by
  have hindices := @initIndices_inArray_iff soc env pdata s (edmaOfGetPdata_ringEnd hdt .rxdesc)
  constructor
  · intro h
    obtain ⟨hops, hintr⟩ := hindices.mp h.indices
    refine ⟨h.sums, ?_, fun hreset harray hdesc => hintr hreset ⟨harray, hdesc⟩⟩
    intro hreset harray
    have hmem {op : RingOp} (hop : op ∈ (edmaSetupRingResources (ringCounts pdata) env.rings).2) :
        op ∈ hwInitOps env (s.setPdata pdata) := by
      rw [hwInitOps, if_pos hreset, setPdata_rings, edmaInitRings_arrays harray]
      exact List.mem_append_right _ hop
    have htx : env.rings.TxOk (ringCounts pdata) := by
      by_contra hbad
      rcases edmaSetupRingResources_cases (ringCounts pdata) env.rings with ⟨-, hok, -⟩ |
        ⟨-, -, ⟨kind, hop⟩, -⟩ | ⟨-, htx, -⟩
      · exact hbad ⟨hok .txdesc, hok .txcmpl⟩
      · exact absurd (hops _ (hmem hop)).1 (by decide)
      · exact hbad htx
    refine ⟨htx, ?_⟩
    intro hdesc
    rcases Nat.eq_zero_or_pos (ringCounts pdata .rxfill) with hfill | hfill
    · refine absurd ?_ (h.remainder 0 0 (hmem (mapRxfill_mem htx hfill hdesc)))
      exact BitVec.eq_of_toNat_eq hfill
    · exact hfill
  · intro h
    have hops := @hwInitOps_inRange env pdata s h.setup
    refine ⟨h.sums, hindices.mpr ⟨hops, fun hreset hall => h.intr hreset hall.1 hall.2⟩, ?_⟩
    rintro rxdesc rxfill hop hzero
    obtain ⟨-, hpos, hlt⟩ := hops _ hop
    rw [ringCounts, hzero] at hlt
    exact absurd (Int.lt_of_le_of_lt hpos hlt) (by decide)

end Safe

/-- One ring of each kind, the last that the hardware has. -/
def oneEach : RingKind → RingRange :=
  pdataOf (perKind 23#32 7#32 7#32 15#32) (perKind 1#32 1#32 1#32 1#32)

theorem edmaOfGetPdata_safe_oneEach :
    SafeToUse .ipq807x allocsOk oneEach (freshInit.setPdata oneEach) := by
  refine (edmaOfGetPdata_safe_iff (edmaOfGetPdata_dtOf _ _)).mpr ⟨?_, ?_, ?_⟩
  · intro kind
    cases kind <;> decide
  · intro _ _
    exact ⟨⟨fun _ _ => rfl, fun _ _ => rfl⟩, fun _ => by decide⟩
  · intro _ _ _
    decide

/-- Nine TXCMPL rings. -/
def nineTxcmpl : RingKind → RingRange :=
  pdataOf (perKind 0#32 0#32 0#32 0#32) (perKind 9#32 9#32 1#32 1#32)

/-- No RXFILL ring. -/
def noRxfill : RingKind → RingRange :=
  pdataOf (perKind 0#32 0#32 0#32 0#32) (perKind 1#32 1#32 0#32 1#32)

/-- The ids of the TXDESC rings wrap. -/
def wrappedIds : RingKind → RingRange :=
  pdataOf (perKind 0xffffffff#32 0#32 0#32 0#32) (perKind 1#32 1#32 1#32 1#32)

/-- A device tree with these numbers is accepted, and they are not safe to use. -/
def AcceptedNotSafe (env : HwInitEnv) (pdata : RingKind → RingRange) : Prop :=
  (∃ dt, edmaOfGetPdata dt = .ok pdata) ∧
    ¬ SafeToUse .ipq807x env pdata (freshInit.setPdata pdata)

/-- The first three are accepted on IPQ807x and initialised with all allocations: the ninth
    interrupt is past its array, the remainder is taken by zero, the sum wraps. Numbers that fit are
    not safe where the descriptors of the first TXDESC ring cannot be allocated. -/
theorem edmaOfGetPdata_notSafe :
    AcceptedNotSafe allocsOk nineTxcmpl ∧ AcceptedNotSafe allocsOk noRxfill ∧
    AcceptedNotSafe allocsOk wrappedIds ∧
    AcceptedNotSafe { allocsOk with rings := noTxdescDesc } oneEach := by
  refine ⟨⟨⟨_, edmaOfGetPdata_dtOf _ _⟩, ?_⟩, ⟨⟨_, edmaOfGetPdata_dtOf _ _⟩, ?_⟩,
    ⟨⟨_, edmaOfGetPdata_dtOf _ _⟩, ?_⟩, ⟨⟨_, edmaOfGetPdata_dtOf _ _⟩, ?_⟩⟩
  · intro h
    have hintr := ((initIndices_inArray_iff rfl).mp h.indices).2 rfl
      ⟨fun _ => rfl, fun _ _ _ => rfl⟩
    exact absurd hintr.1 (by decide)
  · intro h
    exact h.remainder 0 0 (by decide) rfl
  · intro h
    exact absurd (h.sums .txdesc) (by decide)
  · intro h
    have hops := ((initIndices_inArray_iff rfl).mp h.indices).1
    exact absurd (hops (.cleanup .txdesc (-1)) (by decide)).1 (by decide)

end NssDp.Edma
