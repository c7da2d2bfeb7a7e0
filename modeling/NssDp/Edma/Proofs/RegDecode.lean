import Mathlib.Tactic.IntervalCases
import NssDp.Edma.RegOffsets
import NssDp.Misc.MemoryMap

/-!
# The registers of EDMA have places of their own

The map of the registers in blocks of pages, a page for each ring. On every SoC the blocks just
fit: a ring more of a kind would have its registers where those of another kind begin. Within
the limits no two registers are at one offset, so that naming registers, as the rest of this
development does, is the same as accessing words at `reg_base`.
-/

namespace NssDp.Edma

open MemoryMap RegOp

/-! The pages, with the registers by the lower bits of their offsets -/

def txdescAt (n : Nat) : Nat → Option MmioReg
  | 0x0 => some (.ring (.txdescBa n))
  | 0x4 => some (.dev (.txdescProdIdx n))
  | 0x8 => some (.dev (.txdescConsIdx n))
  | 0xc => some (.ring (.txdescRingSize n))
  | 0x10 => some (.dev (.txdescCtrl n))
  | _ => none

def txcmplAt (n : Nat) : Nat → Option MmioReg
  | 0x0 => some (.ring (.txcmplBa n))
  | 0x4 => some (.dev (.txcmplProdIdx n))
  | 0x8 => some (.dev (.txcmplConsIdx n))
  | 0xc => some (.ring (.txcmplRingSize n))
  | 0x14 => some (.ring (.txcmplCtrl n))
  | _ => none

def txAt (n : Nat) : Nat → Option MmioReg
  | 0x0 => some (.dev (.txIntStat n))
  | 0x4 => some (.dev (.txIntMask n))
  | 0x8 => some (.ring (.txModTimer n))
  | 0xc => some (.ring (.txIntCtrl n))
  | _ => none

def rxfillAt (n : Nat) : Nat → Option MmioReg
  | 0x0 => some (.ring (.rxfillBa n))
  | 0x4 => some (.dev (.rxfillProdIdx n))
  | 0x8 => some (.dev (.rxfillConsIdx n))
  | 0xc => some (.ring (.rxfillRingSize n))
  | 0x1c => some (.dev (.rxfillRingEn n))
  | _ => none

def rxfillIntAt (n : Nat) : Nat → Option MmioReg
  | 0x0 => some (.dev (.rxfillIntStat n))
  | 0x4 => some (.dev (.rxfillIntMask n))
  | _ => none

def rxdescAt (n : Nat) : Nat → Option MmioReg
  | 0x0 => some (.ring (.rxdescBa n))
  | 0x4 => some (.dev (.rxdescProdIdx n))
  | 0x8 => some (.dev (.rxdescConsIdx n))
  | 0xc => some (.ring (.rxdescRingSize n))
  | 0x18 => some (.dev (.rxdescCtrl n))
  | _ => none

def rxAt (n : Nat) : Nat → Option MmioReg
  | 0x0 => some (.dev (.rxdescIntStat n))
  | 0x4 => some (.dev (.rxdescIntMask n))
  | 0x8 => some (.ring (.rxModTimer n))
  | 0xc => some (.ring (.rxIntCtrl n))
  | _ => none

def globalAt (soc : Soc) : Nat → Option MmioReg
  | 0x4 => some (.dev .portCtrl)
  | 0xc => if soc = .ipq807x then some (.init (.txdesc2cmplMap 0)) else none
  | 0x10 => if soc = .ipq807x then some (.init (.txdesc2cmplMap 1)) else none
  | 0x14 => if soc = .ipq807x then some (.init (.txdesc2cmplMap 2)) else none
  | 0x18 => some (.init (.rxdesc2fillMap 0))
  | 0x1c => some (.init (.rxdesc2fillMap 1))
  | 0x48 => some (.init .dmarCtrl)
  | 0x50 => some (.init .axiwCtrl)
  | 0x60 => some (.dev .miscIntMask)
  | _ => none

def qidAt (low : Nat) : Option MmioReg :=
  if low % 4 = 0 ∧ low < 0x200 then some (.init (.qid2ridTableMem (low / 4))) else none

/-- The map. -/
def edmaBlocks (soc : Soc) : List (Block MmioReg) :=
  [⟨0x0, 1, fun _ => globalAt soc⟩, ⟨0x1, edmaMaxRings soc .txdesc, txdescAt⟩,
    ⟨edmaRegTxcmplBase soc / 0x1000, edmaMaxRings soc .txcmpl, txcmplAt⟩,
    ⟨edmaRegTxBase soc / 0x1000, edmaMaxRings soc .txcmpl, txAt⟩,
    ⟨0x29, edmaMaxRings soc .rxfill, rxfillAt⟩, ⟨0x31, edmaMaxRings soc .rxfill, rxfillIntAt⟩,
    ⟨0x39, edmaMaxRings soc .rxdesc, rxdescAt⟩, ⟨0x49, edmaMaxRings soc .rxdesc, rxAt⟩,
    ⟨0x5a, 1, fun _ => qidAt⟩]

theorem edmaBlocks_apart (soc : Soc) : (edmaBlocks soc).Pairwise Block.Apart := by
  cases soc <;> decide

section Blocks

variable {soc : Soc} {reg : MmioReg} {off : Nat}

theorem global_mem : ⟨0x0, 1, fun _ => globalAt soc⟩ ∈ edmaBlocks soc := by simp [edmaBlocks]

theorem txdesc_mem : ⟨0x1, edmaMaxRings soc .txdesc, txdescAt⟩ ∈ edmaBlocks soc := by
  simp [edmaBlocks]

theorem txcmpl_mem :
    ⟨edmaRegTxcmplBase soc / 0x1000, edmaMaxRings soc .txcmpl, txcmplAt⟩ ∈ edmaBlocks soc := by
  simp [edmaBlocks]

theorem tx_mem : ⟨edmaRegTxBase soc / 0x1000, edmaMaxRings soc .txcmpl, txAt⟩ ∈ edmaBlocks soc := by
  simp [edmaBlocks]

theorem rxfill_mem : ⟨0x29, edmaMaxRings soc .rxfill, rxfillAt⟩ ∈ edmaBlocks soc := by
  simp [edmaBlocks]

theorem rxfillInt_mem : ⟨0x31, edmaMaxRings soc .rxfill, rxfillIntAt⟩ ∈ edmaBlocks soc := by
  simp [edmaBlocks]

theorem rxdesc_mem : ⟨0x39, edmaMaxRings soc .rxdesc, rxdescAt⟩ ∈ edmaBlocks soc := by
  simp [edmaBlocks]

theorem rx_mem : ⟨0x49, edmaMaxRings soc .rxdesc, rxAt⟩ ∈ edmaBlocks soc := by simp [edmaBlocks]

theorem qid_mem : ⟨0x5a, 1, fun _ => qidAt⟩ ∈ edmaBlocks soc := by simp [edmaBlocks]

/-- The bases are those of pages. -/
theorem base_page (soc : Soc) : edmaRegTxcmplBase soc = 0x1000 * (edmaRegTxcmplBase soc / 0x1000) ∧
    edmaRegTxBase soc = 0x1000 * (edmaRegTxBase soc / 0x1000) := by
  cases soc <;> decide

theorem has_of_block {b : Block MmioReg} (hb : b ∈ edmaBlocks soc) {n base : Nat} (hn : n < b.pages)
    (place : Nat) (hplace : place < 0x1000) (hreg : b.reg n place = some reg)
    (hbase : base = 0x1000 * b.first) (hoff : reg.offset soc = base + place + 0x1000 * n) :
    ∃ b ∈ edmaBlocks soc, b.Has 0x1000 reg (reg.offset soc) := by
  refine ⟨b, hb, n, hn, place, hplace, ?_, hreg⟩
  rw [hoff, hbase, Nat.mul_add]
  omega

/-- A register that exists is in a block at its offset. -/
theorem exists_has (h : reg.exists soc = true) :
    ∃ b ∈ edmaBlocks soc, b.Has 0x1000 reg (reg.offset soc) := by
  obtain ⟨hcmpl, htx⟩ := base_page soc
  cases reg with
  | dev reg =>
    cases reg with
    | portCtrl => exact has_of_block global_mem Nat.one_pos 0x4 (by decide) rfl rfl rfl
    | miscIntMask => exact has_of_block global_mem Nat.one_pos 0x60 (by decide) rfl rfl rfl
    | txdescProdIdx n =>
      exact has_of_block txdesc_mem (of_decide_eq_true h) 0x4 (by decide) rfl rfl rfl
    | txdescConsIdx n =>
      exact has_of_block txdesc_mem (of_decide_eq_true h) 0x8 (by decide) rfl rfl rfl
    | txdescCtrl n =>
      exact has_of_block txdesc_mem (of_decide_eq_true h) 0x10 (by decide) rfl rfl rfl
    | txcmplProdIdx n =>
      exact has_of_block txcmpl_mem (of_decide_eq_true h) 0x4 (by decide) rfl hcmpl rfl
    | txcmplConsIdx n =>
      exact has_of_block txcmpl_mem (of_decide_eq_true h) 0x8 (by decide) rfl hcmpl rfl
    | txIntStat n => exact has_of_block tx_mem (of_decide_eq_true h) 0x0 (by decide) rfl htx rfl
    | txIntMask n => exact has_of_block tx_mem (of_decide_eq_true h) 0x4 (by decide) rfl htx rfl
    | rxfillProdIdx n =>
      exact has_of_block rxfill_mem (of_decide_eq_true h) 0x4 (by decide) rfl rfl rfl
    | rxfillConsIdx n =>
      exact has_of_block rxfill_mem (of_decide_eq_true h) 0x8 (by decide) rfl rfl rfl
    | rxfillRingEn n =>
      exact has_of_block rxfill_mem (of_decide_eq_true h) 0x1c (by decide) rfl rfl rfl
    | rxfillIntStat n =>
      exact has_of_block rxfillInt_mem (of_decide_eq_true h) 0x0 (by decide) rfl rfl rfl
    | rxfillIntMask n =>
      exact has_of_block rxfillInt_mem (of_decide_eq_true h) 0x4 (by decide) rfl rfl rfl
    | rxdescProdIdx n =>
      exact has_of_block rxdesc_mem (of_decide_eq_true h) 0x4 (by decide) rfl rfl rfl
    | rxdescConsIdx n =>
      exact has_of_block rxdesc_mem (of_decide_eq_true h) 0x8 (by decide) rfl rfl rfl
    | rxdescCtrl n =>
      exact has_of_block rxdesc_mem (of_decide_eq_true h) 0x18 (by decide) rfl rfl rfl
    | rxdescIntStat n => exact has_of_block rx_mem (of_decide_eq_true h) 0x0 (by decide) rfl rfl rfl
    | rxdescIntMask n => exact has_of_block rx_mem (of_decide_eq_true h) 0x4 (by decide) rfl rfl rfl
  | ring reg =>
    cases reg with
    | txdescBa n => exact has_of_block txdesc_mem (of_decide_eq_true h) 0x0 (by decide) rfl rfl rfl
    | txdescRingSize n =>
      exact has_of_block txdesc_mem (of_decide_eq_true h) 0xc (by decide) rfl rfl rfl
    | txcmplBa n =>
      exact has_of_block txcmpl_mem (of_decide_eq_true h) 0x0 (by decide) rfl hcmpl rfl
    | txcmplRingSize n =>
      exact has_of_block txcmpl_mem (of_decide_eq_true h) 0xc (by decide) rfl hcmpl rfl
    | txcmplCtrl n =>
      exact has_of_block txcmpl_mem (of_decide_eq_true h) 0x14 (by decide) rfl hcmpl rfl
    | txModTimer n => exact has_of_block tx_mem (of_decide_eq_true h) 0x8 (by decide) rfl htx rfl
    | txIntCtrl n => exact has_of_block tx_mem (of_decide_eq_true h) 0xc (by decide) rfl htx rfl
    | rxfillBa n => exact has_of_block rxfill_mem (of_decide_eq_true h) 0x0 (by decide) rfl rfl rfl
    | rxfillRingSize n =>
      exact has_of_block rxfill_mem (of_decide_eq_true h) 0xc (by decide) rfl rfl rfl
    | rxdescBa n => exact has_of_block rxdesc_mem (of_decide_eq_true h) 0x0 (by decide) rfl rfl rfl
    | rxdescRingSize n =>
      exact has_of_block rxdesc_mem (of_decide_eq_true h) 0xc (by decide) rfl rfl rfl
    | rxModTimer n => exact has_of_block rx_mem (of_decide_eq_true h) 0x8 (by decide) rfl rfl rfl
    | rxIntCtrl n => exact has_of_block rx_mem (of_decide_eq_true h) 0xc (by decide) rfl rfl rfl
  | init reg =>
    cases reg with
    | txdesc2cmplMap n =>
      obtain ⟨rfl, hn⟩ := of_decide_eq_true h
      interval_cases n
      · exact has_of_block global_mem Nat.one_pos 0xc (by decide) rfl rfl rfl
      · exact has_of_block global_mem Nat.one_pos 0x10 (by decide) rfl rfl rfl
      · exact has_of_block global_mem Nat.one_pos 0x14 (by decide) rfl rfl rfl
    | rxdesc2fillMap n =>
      have hn : n < 2 := of_decide_eq_true h
      interval_cases n
      · exact has_of_block global_mem Nat.one_pos 0x18 (by decide) rfl rfl rfl
      · exact has_of_block global_mem Nat.one_pos 0x1c (by decide) rfl rfl rfl
    | qid2ridTableMem q =>
      have hq : q < 128 := of_decide_eq_true h
      have hat : qidAt (0x4 * q) = some (.init (.qid2ridTableMem q)) := by
        rw [qidAt, if_pos (by omega), Nat.mul_div_cancel_left q (by decide)]
      exact has_of_block qid_mem Nat.one_pos (0x4 * q) (by omega) hat rfl rfl
    | dmarCtrl => exact has_of_block global_mem Nat.one_pos 0x48 (by decide) rfl rfl rfl
    | axiwCtrl => exact has_of_block global_mem Nat.one_pos 0x50 (by decide) rfl rfl rfl

/-- A register of a block's page exists where there is such a ring, and is at its offset. -/
def OnPage (soc : Soc) (kind : RingKind) (base : Nat) (page : Nat → Nat → Option MmioReg) : Prop :=
  ∀ n place reg, n < edmaMaxRings soc kind → page n place = some reg →
    reg.exists soc = true ∧ reg.offset soc = base + place + 0x1000 * n

theorem txdescAt_onPage (soc : Soc) : OnPage soc .txdesc 0x1000 txdescAt := by
  intro n place reg hn h
  unfold txdescAt at h
  split at h <;> cases h <;> exact ⟨decide_eq_true hn, rfl⟩

theorem txcmplAt_onPage (soc : Soc) : OnPage soc .txcmpl (edmaRegTxcmplBase soc) txcmplAt := by
  intro n place reg hn h
  unfold txcmplAt at h
  split at h <;> cases h <;> exact ⟨decide_eq_true hn, rfl⟩

theorem txAt_onPage (soc : Soc) : OnPage soc .txcmpl (edmaRegTxBase soc) txAt := by
  intro n place reg hn h
  unfold txAt at h
  split at h <;> cases h <;> exact ⟨decide_eq_true hn, rfl⟩

theorem rxfillAt_onPage (soc : Soc) : OnPage soc .rxfill 0x29000 rxfillAt := by
  intro n place reg hn h
  unfold rxfillAt at h
  split at h <;> cases h <;> exact ⟨decide_eq_true hn, rfl⟩

theorem rxfillIntAt_onPage (soc : Soc) : OnPage soc .rxfill 0x31000 rxfillIntAt := by
  intro n place reg hn h
  unfold rxfillIntAt at h
  split at h <;> cases h <;> exact ⟨decide_eq_true hn, rfl⟩

theorem rxdescAt_onPage (soc : Soc) : OnPage soc .rxdesc 0x39000 rxdescAt := by
  intro n place reg hn h
  unfold rxdescAt at h
  split at h <;> cases h <;> exact ⟨decide_eq_true hn, rfl⟩

theorem rxAt_onPage (soc : Soc) : OnPage soc .rxdesc 0x49000 rxAt := by
  intro n place reg hn h
  unfold rxAt at h
  split at h <;> cases h <;> exact ⟨decide_eq_true hn, rfl⟩

theorem globalAt_some {place : Nat} (h : globalAt soc place = some reg) :
    reg.exists soc = true ∧ reg.offset soc = place := by
  unfold globalAt at h
  split at h
  case h_2 | h_3 | h_4 =>
    split at h
    · rename_i hsoc
      cases h
      exact ⟨decide_eq_true ⟨hsoc, by decide⟩, rfl⟩
    · cases h
  all_goals
    cases h
    try exact ⟨rfl, rfl⟩

theorem qidAt_some {place : Nat} (h : qidAt place = some reg) :
    reg.exists soc = true ∧ reg.offset soc = 0x5a000 + place := by
  unfold qidAt at h
  split at h
  · rename_i hplace
    cases h
    refine ⟨decide_eq_true (by omega), ?_⟩
    simp only [MmioReg.offset, InitReg.offset]
    omega
  · cases h

theorem OnPage.has {kind : RingKind} {base first : Nat} {page : Nat → Nat → Option MmioReg}
    (h : OnPage soc kind base page) (hbase : base = 0x1000 * first)
    (hhas : (⟨first, edmaMaxRings soc kind, page⟩ : Block MmioReg).Has 0x1000 reg off) :
    reg.exists soc = true ∧ reg.offset soc = off := by
  obtain ⟨n, hn, place, -, rfl, hreg⟩ := hhas
  obtain ⟨hexists, hoff⟩ := h n place reg hn hreg
  refine ⟨hexists, ?_⟩
  rw [hoff, hbase, Nat.mul_add]
  exact Nat.add_right_comm _ _ _

/-- What a block has exists, and is at its offset. -/
theorem has_exists {b : Block MmioReg} (hb : b ∈ edmaBlocks soc) (h : b.Has 0x1000 reg off) :
    reg.exists soc = true ∧ reg.offset soc = off := by
  obtain ⟨hcmpl, htx⟩ := base_page soc
  simp only [edmaBlocks, List.mem_cons, List.not_mem_nil, or_false] at hb
  rcases hb with rfl | rfl | rfl | rfl | rfl | rfl | rfl | rfl | rfl
  · obtain ⟨n, hn, place, -, rfl, hreg⟩ := h
    obtain rfl : n = 0 := Nat.lt_one_iff.mp hn
    simpa using globalAt_some hreg
  · exact (txdescAt_onPage soc).has rfl h
  · exact (txcmplAt_onPage soc).has hcmpl h
  · exact (txAt_onPage soc).has htx h
  · exact (rxfillAt_onPage soc).has rfl h
  · exact (rxfillIntAt_onPage soc).has rfl h
  · exact (rxdescAt_onPage soc).has rfl h
  · exact (rxAt_onPage soc).has rfl h
  · obtain ⟨n, hn, place, -, rfl, hreg⟩ := h
    obtain rfl : n = 0 := Nat.lt_one_iff.mp hn
    exact qidAt_some hreg

end Blocks

/-- The register at an offset. -/
def edmaRegAt (soc : Soc) (off : Nat) : Option MmioReg := decode 0x1000 (edmaBlocks soc) off

theorem edmaRegAt_eq_some {soc : Soc} {off : Nat} {reg : MmioReg} :
    edmaRegAt soc off = some reg ↔ reg.exists soc = true ∧ reg.offset soc = off := by
  rw [edmaRegAt, decode_eq_some (by decide) (edmaBlocks_apart soc)]
  constructor
  · rintro ⟨b, hb, hhas⟩
    exact has_exists hb hhas
  · rintro ⟨hexists, rfl⟩
    exact exists_has hexists

/-- On every SoC, the registers within the limits are at offsets of their own, from which they can
    be found; and any sequence of accesses to them is, on the words at `reg_base`, what it is on
    registers that are told apart by their names, and touches no other word. -/
theorem edmaRegs_apart (soc : Soc) :
    (∀ off reg, edmaRegAt soc off = some reg ↔ reg.exists soc = true ∧ reg.offset soc = off) ∧
      ∀ (mem : Nat → BitVec 32) (ops : List (RegOp MmioReg 32)),
        (∀ op ∈ ops, op.reg.exists soc = true) →
        (∀ reg, reg.exists soc = true →
          edmaRegRead soc (ops.foldl (edmaRegOp soc) mem) reg =
            ops.foldl RegOp.apply (edmaRegRead soc mem) reg) ∧
        ∀ off, (∀ op ∈ ops, op.reg.offset soc ≠ off) →
          ops.foldl (edmaRegOp soc) mem off = mem off := by
  refine ⟨fun _ _ => edmaRegAt_eq_some, ?_⟩
  intro mem ops hops
  refine ⟨?_, ?_⟩
  · apply foldl_applyAt (P := fun reg : MmioReg => reg.exists soc = true) ?_ hops fun _ _ => rfl
    intro reg reg' hreg hreg' hoff
    have hat := edmaRegAt_eq_some.mpr ⟨hreg, hoff⟩
    rw [edmaRegAt_eq_some.mpr ⟨hreg', rfl⟩] at hat
    exact (Option.some.inj hat).symm
  · intro off hoff
    exact foldl_applyAt_of_ne hoff

/-- One TXDESC ring more would have its producer index in that of the first TXCMPL ring. -/
example : (EdmaReg.txdescProdIdx (edmaMaxRings .ipq807x .txdesc)).offset .ipq807x =
    (EdmaReg.txcmplProdIdx 0).offset .ipq807x := rfl

end NssDp.Edma
