import Mathlib.Logic.Function.Basic
import NssDp.Kernel.NetDevice
import NssDp.Kernel.SkBuff

/-!
# The EDMA instance

The registers by name (`hal/edma/edma_regs.h`), the rings and `struct edma_hw`
(`hal/edma/edma_data_plane.h`). Beside the fields of the source, `log` lists the accesses
to device memory, to the ring arrays and to the resources behind them, in the order in which
they are made.
-/

namespace NssDp.Edma

/-- The registers, one constructor for each offset macro; the argument is the ring id. -/
inductive EdmaReg where
  | portCtrl
  | miscIntMask
  | txdescProdIdx (n : Nat)
  | txdescConsIdx (n : Nat)
  | txdescCtrl (n : Nat)
  | txcmplProdIdx (n : Nat)
  | txcmplConsIdx (n : Nat)
  | txIntStat (n : Nat)
  | txIntMask (n : Nat)
  | rxfillProdIdx (n : Nat)
  | rxfillConsIdx (n : Nat)
  | rxfillRingEn (n : Nat)
  | rxfillIntStat (n : Nat)
  | rxfillIntMask (n : Nat)
  | rxdescProdIdx (n : Nat)
  | rxdescConsIdx (n : Nat)
  | rxdescCtrl (n : Nat)
  | rxdescIntStat (n : Nat)
  | rxdescIntMask (n : Nat)
  deriving DecidableEq, Repr

/-- The index masks of the producer and consumer registers are all `0xffff`. -/
def edmaIdxMask : BitVec 32 := 0xffff#32

def edmaDisable : BitVec 32 := 0#32
def edmaRingDisable : BitVec 32 := 0#32
def edmaMaskIntDisable : BitVec 32 := 0#32
def edmaMaskIntClear : BitVec 32 := 0#32
def edmaRxdescRingIntStatusMask : BitVec 32 := 0x3#32
def edmaTxcmplRingIntStatusMask : BitVec 32 := 0x3#32
def edmaRxfillRingIntStatusMask : BitVec 32 := 0x1#32
def edmaTxdescPreheaderShift : Nat := 29
def edmaTxdescDataOffsetShift : Nat := 16
def edmaTxdescDataOffsetMask : BitVec 32 := 0xff#32
def edmaTxdescDataLengthShift : Nat := 0
def edmaTxdescDataLengthMask : BitVec 32 := 0xffff#32
def edmaPrehdrDstinfoPortidInd : BitVec 16 := 0x20#16

/-- `sizeof(struct edma_tx_preheader)`. -/
def edmaTxPrehdrSize : Nat := 32

/-- Descriptors in every ring, and slots in every store (`EDMA_RING_SIZE`). -/
def edmaRingSize : Nat := 128

/-- `ETH_HLEN`. -/
def ethHlen : Nat := 14

/-- `struct edma_txdesc_desc`. -/
structure EdmaTxdescDesc where
  bufferAddr : BitVec 32
  word1 : BitVec 32
  deriving DecidableEq, Repr

/-- `struct edma_txcmpl_desc`. -/
structure EdmaTxcmplDesc where
  bufferAddr : BitVec 32
  status : BitVec 32
  deriving DecidableEq, Repr

/-- `struct edma_txdesc_ring`. -/
structure EdmaTxdescRing where
  id : Nat
  count : Nat
  desc : Nat → EdmaTxdescDesc

/-- `struct edma_txcmpl_ring`. -/
structure EdmaTxcmplRing where
  id : Nat
  count : Nat
  desc : Nat → EdmaTxcmplDesc

/-- `struct edma_rxfill_ring`. -/
structure EdmaRxfillRing where
  id : Nat
  deriving DecidableEq, Repr

/-- `struct edma_rxdesc_ring`. -/
structure EdmaRxdescRing where
  id : Nat
  deriving DecidableEq, Repr

/-- The four kinds of rings. -/
inductive RingKind where
  | txdesc
  | txcmpl
  | rxfill
  | rxdesc
  deriving DecidableEq, Repr

/-- What is done to device memory, the ring arrays and the resources of the instance.
    `freeIrqOther` is a `free_irq` with another `dev_id` than the one the line was requested
    with. -/
inductive EdmaAccess where
  | regRead (reg : EdmaReg)
  | regWrite (reg : EdmaReg)
  | ringArray
  | freeDesc (kind : RingKind) (ring : Nat)
  | requestIrq (irq : Nat)
  | freeIrq (irq : Nat)
  | freeIrqOther (irq : Nat)
  | freeRings
  | iounmap
  | releaseMemRegion
  deriving DecidableEq, Repr

/-- `struct edma_hw`. -/
structure EdmaHw where
  netdevArr : Nat → Option Nat
  active : Int
  napiAdded : Bool
  napi : NapiState
  txSkbStore : Nat → Option SkBuff
  txdescRing : Nat → EdmaTxdescRing
  txcmplRing : Nat → EdmaTxcmplRing
  rxfillRing : Nat → EdmaRxfillRing
  rxdescRing : Nat → EdmaRxdescRing
  txdescRings : Nat
  txdescRingStart : Nat
  txcmplRings : Nat
  rxfillRings : Nat
  rxfillRingStart : Nat
  rxdescRings : Nat
  rxdescRingStart : Nat
  txcmplIntr : Nat → Nat
  rxfillIntr : Nat → Nat
  rxdescIntr : Nat → Nat
  miscIntr : Nat
  rxfillIntrMask : BitVec 32
  rxdescIntrMask : BitVec 32
  txcmplIntrMask : BitVec 32
  miscIntrMask : BitVec 32
  dpOverrideCnt : Nat
  edmaInitialized : Bool
  regs : EdmaReg → BitVec 32
  log : List EdmaAccess

namespace EdmaHw

/-- Add accesses to the log. -/
def touch (ehw : EdmaHw) (accesses : List EdmaAccess) : EdmaHw :=
  { ehw with log := ehw.log ++ accesses }

/-- `edma_reg_write` (`hal/edma/edma_data_plane.c:66-69`). -/
def regWrite (ehw : EdmaHw) (reg : EdmaReg) (val : BitVec 32) : EdmaHw :=
  { ehw with regs := Function.update ehw.regs reg val, log := ehw.log ++ [.regWrite reg] }

/-- A loop that writes one value to registers. -/
def writeRegs (ehw : EdmaHw) (regs : List EdmaReg) (val : BitVec 32) : EdmaHw :=
  regs.foldl (fun ehw reg => ehw.regWrite reg val) ehw

/-- A loop over rings that writes one value to a register of each; the number of the ring is
    read from the ring array. -/
def writeRings (ehw : EdmaHw) (regs : List EdmaReg) (val : BitVec 32) : EdmaHw :=
  regs.foldl (fun ehw reg => (ehw.touch [.ringArray]).regWrite reg val) ehw

/-- The interrupt mask registers of the driver's rings. -/
def rxdescIntMasks (ehw : EdmaHw) : List EdmaReg :=
  (List.range ehw.rxdescRings).map fun i => .rxdescIntMask (ehw.rxdescRing i).id

def txcmplIntMasks (ehw : EdmaHw) : List EdmaReg :=
  (List.range ehw.txcmplRings).map fun i => .txIntMask (ehw.txcmplRing i).id

def rxfillIntMasks (ehw : EdmaHw) : List EdmaReg :=
  (List.range ehw.rxfillRings).map fun i => .rxfillIntMask (ehw.rxfillRing i).id

/-- The index in a producer or consumer register. -/
def regIdx (ehw : EdmaHw) (reg : EdmaReg) : Nat := (ehw.regs reg &&& edmaIdxMask).toNat

/-- A descriptor of a TXDESC ring is written. -/
def setTxdesc (ehw : EdmaHw) (ring idx : Nat) (txdesc : EdmaTxdescDesc) : EdmaHw :=
  { ehw with
    txdescRing := Function.update ehw.txdescRing ring
      { ehw.txdescRing ring with desc := Function.update (ehw.txdescRing ring).desc idx txdesc } }

/-- A slot of the transmit store is written. -/
def setTxStore (ehw : EdmaHw) (idx : Nat) (skb : Option SkBuff) : EdmaHw :=
  { ehw with txSkbStore := Function.update ehw.txSkbStore idx skb }

variable (ehw : EdmaHw) (accesses : List EdmaAccess) (reg : EdmaReg) (val : BitVec 32)
variable (ring idx : Nat) (txdesc : EdmaTxdescDesc) (skb : Option SkBuff)

@[simp] theorem touch_regs : (ehw.touch accesses).regs = ehw.regs := rfl

@[simp] theorem touch_regIdx (r : EdmaReg) : (ehw.touch accesses).regIdx r = ehw.regIdx r := rfl

@[simp] theorem touch_txSkbStore : (ehw.touch accesses).txSkbStore = ehw.txSkbStore := rfl

@[simp] theorem touch_txdescRing : (ehw.touch accesses).txdescRing = ehw.txdescRing := rfl

@[simp] theorem touch_txcmplRing : (ehw.touch accesses).txcmplRing = ehw.txcmplRing := rfl

@[simp] theorem regWrite_txSkbStore : (ehw.regWrite reg val).txSkbStore = ehw.txSkbStore := rfl

@[simp] theorem regWrite_txdescRing : (ehw.regWrite reg val).txdescRing = ehw.txdescRing := rfl

@[simp] theorem regWrite_txcmplRing : (ehw.regWrite reg val).txcmplRing = ehw.txcmplRing := rfl

@[simp] theorem setTxStore_regs : (ehw.setTxStore idx skb).regs = ehw.regs := rfl

@[simp] theorem setTxStore_regIdx (r : EdmaReg) : (ehw.setTxStore idx skb).regIdx r =
    ehw.regIdx r :=
  rfl

@[simp] theorem setTxStore_txdescRing : (ehw.setTxStore idx skb).txdescRing = ehw.txdescRing := rfl

@[simp] theorem setTxStore_txcmplRing : (ehw.setTxStore idx skb).txcmplRing = ehw.txcmplRing := rfl

@[simp] theorem setTxStore_txSkbStore :
    (ehw.setTxStore idx skb).txSkbStore = Function.update ehw.txSkbStore idx skb := rfl

@[simp] theorem setTxdesc_regs : (ehw.setTxdesc ring idx txdesc).regs = ehw.regs := rfl

@[simp] theorem setTxdesc_regIdx (r : EdmaReg) :
    (ehw.setTxdesc ring idx txdesc).regIdx r = ehw.regIdx r := rfl

@[simp] theorem setTxdesc_txSkbStore :
    (ehw.setTxdesc ring idx txdesc).txSkbStore = ehw.txSkbStore := rfl

@[simp] theorem setTxdesc_txcmplRing :
    (ehw.setTxdesc ring idx txdesc).txcmplRing = ehw.txcmplRing := rfl

/-- Writing a descriptor leaves the number and the size of every ring alone. -/
@[simp] theorem setTxdesc_id (r : Nat) :
    ((ehw.setTxdesc ring idx txdesc).txdescRing r).id = (ehw.txdescRing r).id := by
  rcases eq_or_ne r ring with rfl | hne
  · simp [setTxdesc]
  · simp [setTxdesc, Function.update_of_ne hne]

@[simp] theorem setTxdesc_count (r : Nat) :
    ((ehw.setTxdesc ring idx txdesc).txdescRing r).count = (ehw.txdescRing r).count := by
  rcases eq_or_ne r ring with rfl | hne
  · simp [setTxdesc]
  · simp [setTxdesc, Function.update_of_ne hne]

theorem writeRegs_eq (regs : List EdmaReg) : ehw.writeRegs regs val = { ehw with
    regs := fun r => if r ∈ regs then val else ehw.regs r
    log := ehw.log ++ regs.map .regWrite } := by
  induction regs generalizing ehw with
  | nil => simp [writeRegs]
  | cons reg regs ih =>
    rw [writeRegs, List.foldl_cons, ← writeRegs, ih]
    simp only [regWrite, List.map_cons, List.append_assoc, List.cons_append, List.nil_append,
      mk.injEq, true_and]
    refine ⟨funext fun r => ?_, trivial⟩
    by_cases hmem : r ∈ regs
    · simp [hmem]
    · rcases eq_or_ne r reg with rfl | hne
      · simp [hmem]
      · simp [hmem, hne]

theorem writeRings_eq (regs : List EdmaReg) : ehw.writeRings regs val = { ehw with
    regs := fun r => if r ∈ regs then val else ehw.regs r
    log := ehw.log ++ regs.flatMap fun r => [.ringArray, .regWrite r] } := by
  induction regs generalizing ehw with
  | nil => simp [writeRings]
  | cons reg regs ih =>
    rw [writeRings, List.foldl_cons, ← writeRings, ih]
    simp only [regWrite, touch, List.flatMap_cons, List.append_assoc, List.cons_append,
      List.nil_append, mk.injEq, true_and]
    refine ⟨funext fun r => ?_, trivial⟩
    by_cases hmem : r ∈ regs
    · simp [hmem]
    · rcases eq_or_ne r reg with rfl | hne
      · simp [hmem]
      · simp [hmem, hne]

/-- An index that fits 16 bits is read back as it was written. -/
theorem regWrite_regIdx_self {n : Nat} (hn : n < 2 ^ 16) :
    (ehw.regWrite reg (BitVec.ofNat 32 n)).regIdx reg = n := by
  simp only [regIdx, regWrite, Function.update_self, edmaIdxMask, BitVec.toNat_and,
    BitVec.toNat_ofNat]
  rw [Nat.mod_eq_of_lt (by omega), show 65535 % 2 ^ 32 = 2 ^ 16 - 1 by decide,
    Nat.and_two_pow_sub_one_eq_mod, Nat.mod_eq_of_lt hn]

theorem regWrite_regIdx_of_ne {r : EdmaReg} (hne : r ≠ reg) :
    (ehw.regWrite reg val).regIdx r = ehw.regIdx r := by
  simp only [regIdx, regWrite, Function.update_of_ne hne]

end EdmaHw

end NssDp.Edma
