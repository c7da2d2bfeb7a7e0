import NssDp.Misc.Word

/-!
# Synopsys DMA descriptors

The descriptor of the two rings, the status and length bits its users read
(`hal/syn_gmac_dp/syn_dma_desc.h`), and the DMA engine's write-back, which is not driver
code: the engine gives a transmit descriptor back with the control bits it was given and
status bits of its own, and a receive descriptor with a new status word.
-/

namespace NssDp.SynGmacDp

/-! `enum dma_descriptor_status` -/

def descOwnByDma : BitVec 32 := 0x80000000#32
def descTxIntEnable : BitVec 32 := 0x40000000#32
def descTxLast : BitVec 32 := 0x20000000#32
def descTxFirst : BitVec 32 := 0x10000000#32
def descTxDisableCrc : BitVec 32 := 0x08000000#32
def descTxDisablePadd : BitVec 32 := 0x04000000#32
def descTxCisMask : BitVec 32 := 0x00c00000#32
def descTxCisTcpPseudoCs : BitVec 32 := 0x00c00000#32
def descTxDescEndOfRing : BitVec 32 := 0x00200000#32
def descTxDescChain : BitVec 32 := 0x00100000#32
def descTxIpv4ChkError : BitVec 32 := 0x00010000#32
def descTxError : BitVec 32 := 0x00008000#32
def descTxTimeout : BitVec 32 := 0x00004000#32
def descTxFrameFlushed : BitVec 32 := 0x00002000#32
def descTxPayChkError : BitVec 32 := 0x00001000#32
def descTxLostCarrier : BitVec 32 := 0x00000800#32
def descTxNoCarrier : BitVec 32 := 0x00000400#32
def descTxLateCollision : BitVec 32 := 0x00000200#32
def descTxExcCollisions : BitVec 32 := 0x00000100#32
def descTxCollMask : BitVec 32 := 0x00000078#32
def descTxCollShift : Nat := 3
def descTxExcDeferral : BitVec 32 := 0x00000004#32
def descTxUnderflow : BitVec 32 := 0x00000002#32
def descRxFrameLengthMask : BitVec 32 := 0x3FFF0000#32
def descRxFrameLengthShift : Nat := 16
def descRxError : BitVec 32 := 0x00008000#32
def descRxLengthError : BitVec 32 := 0x00001000#32
def descRxOverflow : BitVec 32 := 0x00000800#32
def descRxFirst : BitVec 32 := 0x00000200#32
def descRxLast : BitVec 32 := 0x00000100#32
def descRxCollision : BitVec 32 := 0x00000040#32
def descRxDribbling : BitVec 32 := 0x00000004#32
def descRxCrc : BitVec 32 := 0x00000002#32

/-! The length word -/

def descRxDescEndOfRing : BitVec 32 := 0x00008000#32
def descSize2Mask : BitVec 32 := 0x1FFF0000#32
def descSize2Shift : Nat := 16
def descSize1Mask : BitVec 32 := 0x00001FFF#32
def descSize1Shift : Nat := 0

/-- `struct dma_desc`. -/
structure DmaDesc where
  status : BitVec 32
  length : BitVec 32
  buffer1 : BitVec 32
  data1 : BitVec 32
  extstatus : BitVec 32
  reserved1 : BitVec 32
  timestamplow : BitVec 32
  timestamphigh : BitVec 32
  deriving DecidableEq, Repr

namespace DmaDesc

/-- A descriptor after `memset(desc, 0, …)`. -/
def zero : DmaDesc := ⟨0#32, 0#32, 0#32, 0#32, 0#32, 0#32, 0#32, 0#32⟩

/-- `syn_dp_gmac_is_desc_owned_by_dma` (`syn_dma_desc.h:312-319`). -/
def isDescOwnedByDma (desc : DmaDesc) : Bool := desc.status &&& descOwnByDma == descOwnByDma

/-- `syn_dp_gmac_is_desc_empty` (`syn_dma_desc.h:321-331`). -/
def isDescEmpty (desc : DmaDesc) : Bool := desc.length &&& descSize1Mask == 0#32

/-- `syn_dp_gmac_tx_checksum_offload_tcp_pseudo` (`syn_dma_desc.h:262-269`). -/
def txChecksumOffloadTcpPseudo (desc : DmaDesc) : DmaDesc :=
  { desc with status := (desc.status &&& ~~~descTxCisMask) ||| descTxCisTcpPseudoCs }

/-- The descriptor part of `syn_dp_reset_tx_qptr` (`syn_dp_tx_rx.c:235-239`). -/
def resetTx (desc : DmaDesc) : DmaDesc :=
  { desc with status := desc.status &&& descTxDescEndOfRing, length := 0#32, buffer1 := 0#32,
              data1 := 0#32, reserved1 := 0#32 }

/-- The descriptor part of `syn_dp_reset_rx_qptr` (`syn_dp_tx_rx.c:45-49`). -/
def resetRx (desc : DmaDesc) : DmaDesc :=
  { desc with status := 0#32, length := desc.length &&& descRxDescEndOfRing, buffer1 := 0#32,
              data1 := 0#32, reserved1 := 0#32 }

end DmaDesc

/-- `syn_dp_gmac_is_rx_desc_valid` (`syn_dma_desc.h:293-301`). -/
def isRxDescValid (status : BitVec 32) : Bool :=
  status &&& (descRxError ||| descRxFirst ||| descRxLast) == descRxFirst ||| descRxLast

/-- `syn_dp_gmac_get_rx_desc_frame_length` (`syn_dma_desc.h:303-310`). -/
def getRxDescFrameLength (status : BitVec 32) : BitVec 32 :=
  (status &&& descRxFrameLengthMask) >>> descRxFrameLengthShift

/-- `syn_dp_gmac_get_tx_collision_count` (`syn_dma_desc.h:333-340`). -/
def getTxCollisionCount (status : BitVec 32) : BitVec 32 :=
  (status &&& descTxCollMask) >>> descTxCollShift

/-- `syn_dp_gmac_tx_desc_init_ring` (`syn_dma_desc.h:271-280`). -/
def txDescInitRing (noOfDesc : Nat) (i : Nat) : DmaDesc :=
  if i = noOfDesc - 1 then { DmaDesc.zero with status := descTxDescEndOfRing } else DmaDesc.zero

/-- `syn_dp_gmac_rx_desc_init_ring` (`syn_dma_desc.h:282-291`). -/
def rxDescInitRing (noOfDesc : Nat) (i : Nat) : DmaDesc :=
  if i = noOfDesc - 1 then { DmaDesc.zero with length := descRxDescEndOfRing } else DmaDesc.zero

/-- The control bits of the status word of a transmit descriptor (TDES0). -/
def txCtrlBits : BitVec 32 :=
  descTxIntEnable ||| descTxLast ||| descTxFirst ||| descTxDisableCrc ||| descTxDisablePadd |||
    descTxCisMask ||| descTxDescEndOfRing ||| descTxDescChain

/-- The engine gives a descriptor back: own is clear, the control bits are kept, and every
    other bit of the status word is the engine's report `wb`. -/
def DmaDesc.writeBack (desc : DmaDesc) (wb : BitVec 32) : DmaDesc :=
  { desc with status := (desc.status &&& txCtrlBits) ||| (wb &&& ~~~(txCtrlBits ||| descOwnByDma)) }

/-- What the engine writes into a receive descriptor beside the data of the frame. -/
structure RxReport where
  status : BitVec 32
  extstatus : BitVec 32
  timestamplow : BitVec 32
  timestamphigh : BitVec 32
  deriving DecidableEq, Repr

/-- The engine gives a receive descriptor back: own is clear, and the length word is kept. -/
def DmaDesc.writeBackRx (desc : DmaDesc) (wb : RxReport) : DmaDesc :=
  { desc with status := wb.status &&& ~~~descOwnByDma, extstatus := wb.extstatus,
              timestamplow := wb.timestamplow, timestamphigh := wb.timestamphigh }

namespace DmaDesc

/-- A control bit reads the same after a write-back. -/
theorem writeBack_ctrl (desc : DmaDesc) (wb : BitVec 32) {m : BitVec 32}
    (hm : txCtrlBits &&& m = m) : (desc.writeBack wb).status &&& m = desc.status &&& m := by
  simp only [writeBack]
  rw [Word.masked_or_of_disjoint, Word.masked_and hm]
  rw [← hm, BitVec.and_assoc, ← BitVec.and_assoc (~~~_),
    show ~~~(txCtrlBits ||| descOwnByDma) &&& txCtrlBits = 0#32 by decide]
  simp

@[simp] theorem writeBack_length (desc : DmaDesc) (wb : BitVec 32) :
    (desc.writeBack wb).length = desc.length := rfl

@[simp] theorem writeBack_buffer1 (desc : DmaDesc) (wb : BitVec 32) :
    (desc.writeBack wb).buffer1 = desc.buffer1 := rfl

@[simp] theorem resetTx_length (desc : DmaDesc) : desc.resetTx.length = 0#32 := rfl

@[simp] theorem resetTx_status (desc : DmaDesc) :
    desc.resetTx.status = desc.status &&& descTxDescEndOfRing := rfl

/-- A descriptor whose status shows the end-of-ring bit at most is not owned. -/
theorem not_owned_of_status {desc : DmaDesc}
    (h : desc.status &&& descTxDescEndOfRing = desc.status) : desc.isDescOwnedByDma = false := by
  have hzero : desc.status &&& descOwnByDma = 0#32 := by
    rw [← h, BitVec.and_assoc, show descTxDescEndOfRing &&& descOwnByDma = 0#32 by decide]
    simp
  rw [isDescOwnedByDma, hzero]
  decide

theorem isDescEmpty_of_length {desc : DmaDesc} (h : desc.length = 0#32) :
    desc.isDescEmpty = true := by
  simp [isDescEmpty, h]

end DmaDesc

end NssDp.SynGmacDp
