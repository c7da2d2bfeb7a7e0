import NssDp.Edma.PollSteps

/-!
# The configuration of the EDMA rings

`edma_configure_rings` and what it calls (`hal/edma/edma_cfg.c`): the stores are cleared, and
every ring is given its base, its size and its indices; the RXFILL rings are filled one after
another. The registers that are only written here stand beside those of `struct edma_hw`, and
are not in its log.
-/

namespace NssDp.Edma

def edmaTxModTimer : BitVec 32 := 150#32
def edmaTxModTimerInitMask : BitVec 32 := 0xffff#32
def edmaTxModTimerInitShift : Nat := 0
def edmaRxModTimerInit : BitVec 32 := 1000#32
def edmaRxModTimerInitMask : BitVec 32 := 0xffff#32
def edmaRxModTimerInitShift : Nat := 0
def edmaTxcmplRetmodeOpaque : BitVec 32 := 0#32
def edmaRxdescPlOffsetMask : BitVec 32 := 0x1ff#32
def edmaRxdescPlOffsetShift : Nat := 16
def edmaRingDmaMask : BitVec 64 := 0xffffffff#64

/-- The size masks of the four kinds of rings are all `0xffff`. -/
def edmaRingSizeMask : BitVec 32 := 0xffff#32

/-- The registers of a ring that its configuration writes beside the indices. -/
inductive RingReg where
  | txdescBa (n : Nat)
  | txdescRingSize (n : Nat)
  | txcmplBa (n : Nat)
  | txcmplRingSize (n : Nat)
  | txcmplCtrl (n : Nat)
  | txModTimer (n : Nat)
  | txIntCtrl (n : Nat)
  | rxfillBa (n : Nat)
  | rxfillRingSize (n : Nat)
  | rxdescBa (n : Nat)
  | rxdescRingSize (n : Nat)
  | rxModTimer (n : Nat)
  | rxIntCtrl (n : Nat)
  deriving DecidableEq, Repr

/-- The instance with the registers above, the `dma` of each ring and `rx_payload_offset`. -/
structure RingConfig where
  dev : EdmaPoll
  ringRegs : RingReg → BitVec 32
  ringDma : RingKind → Nat → BitVec 64
  rxPayloadOffset : BitVec 16

namespace RingConfig

/-- A register that is only written here. -/
def regWrite (s : RingConfig) (reg : RingReg) (val : BitVec 32) : RingConfig :=
  { s with ringRegs := Function.update s.ringRegs reg val }

/-- What is done to `struct edma_hw` alone. -/
def setEhw (s : RingConfig) (ehw : EdmaHw) : RingConfig := { s with dev := { s.dev with ehw } }

/-- The lower half of the address of a ring. -/
def ringBa (s : RingConfig) (kind : RingKind) (i : Nat) : BitVec 32 :=
  (s.ringDma kind i &&& edmaRingDmaMask).setWidth 32

@[simp] theorem regWrite_dev (s : RingConfig) (reg : RingReg) (val : BitVec 32) :
    (s.regWrite reg val).dev = s.dev := rfl

end RingConfig

/-- `edma_configure_txdesc_ring` (`edma_cfg.c:560-585`). -/
def edmaConfigureTxdescRing (s : RingConfig) (i : Nat) : RingConfig :=
  let ring := s.dev.ehw.txdescRing i
  let s := s.regWrite (.txdescBa ring.id) (s.ringBa .txdesc i)
  let s := s.regWrite (.txdescRingSize ring.id) (BitVec.ofNat 32 ring.count &&& edmaRingSizeMask)
  let ehw := s.dev.ehw.touch [.regRead (.txdescConsIdx ring.id)]
  let data := ehw.regs (.txdescConsIdx ring.id) &&& ~~~edmaIdxMask
  let hwConsIdx : BitVec 16 := data.setWidth 16
  let ehw := ehw.touch [.regRead (.txdescProdIdx ring.id)]
  let data := ehw.regs (.txdescProdIdx ring.id) &&& ~~~edmaIdxMask
  let data := data ||| (hwConsIdx.setWidth 32 &&& edmaIdxMask)
  s.setEhw (ehw.regWrite (.txdescProdIdx ring.id) data)

/-- `edma_configure_txcmpl_ring` (`edma_cfg.c:591-617`). -/
def edmaConfigureTxcmplRing (s : RingConfig) (i : Nat) : RingConfig :=
  let ring := s.dev.ehw.txcmplRing i
  let s := s.regWrite (.txcmplBa ring.id) (s.ringBa .txcmpl i)
  let s := s.regWrite (.txcmplRingSize ring.id) (BitVec.ofNat 32 ring.count &&& edmaRingSizeMask)
  let s := s.regWrite (.txcmplCtrl ring.id) edmaTxcmplRetmodeOpaque
  let s := s.regWrite (.txModTimer ring.id)
    ((edmaTxModTimer &&& edmaTxModTimerInitMask) <<< edmaTxModTimerInitShift)
  s.regWrite (.txIntCtrl ring.id) 2#32

/-- `edma_configure_rxdesc_ring` (`edma_cfg.c:623-644`). -/
def edmaConfigureRxdescRing (s : RingConfig) (i : Nat) : RingConfig :=
  let id := (s.dev.ehw.rxdescRing i).id
  let s := s.regWrite (.rxdescBa id) (s.ringBa .rxdesc i)
  let data := BitVec.ofNat 32 (s.dev.rxdescCount i) &&& edmaRingSizeMask
  let data := data |||
    ((s.rxPayloadOffset.setWidth 32 &&& edmaRxdescPlOffsetMask) <<< edmaRxdescPlOffsetShift)
  let s := s.regWrite (.rxdescRingSize id) data
  let s := s.regWrite (.rxModTimer id)
    ((edmaRxModTimerInit &&& edmaRxModTimerInitMask) <<< edmaRxModTimerInitShift)
  s.regWrite (.rxIntCtrl id) 2#32

/-- `edma_configure_rxfill_ring` (`edma_cfg.c:650-665`); `allocs` is what the allocator and the
    mappings give. -/
def edmaConfigureRxfillRing (allocs : Nat → List EdmaRxAlloc) (s : RingConfig) (i : Nat) :
    RingConfig :=
  let id := (s.dev.ehw.rxfillRing i).id
  let s := s.regWrite (.rxfillBa id) (s.ringBa .rxfill i)
  let s := s.regWrite (.rxfillRingSize id)
    (BitVec.ofNat 32 (s.dev.rxfillCount i) &&& edmaRingSizeMask)
  { s with dev := s.dev.setRx i (edmaAllocRxBuffer (s.dev.rx 0 i) (allocs i)).2 }

/-- The loop that initialises the two stores. -/
def RingConfig.clearStores (s : RingConfig) : RingConfig :=
  { s with
    dev := { s.dev with
      ehw := { s.dev.ehw with
        txSkbStore := fun i => if i < edmaRingSize then none else s.dev.ehw.txSkbStore i }
      rxSkbStore := fun i => if i < edmaRingSize then none else s.dev.rxSkbStore i } }

/-- `edma_configure_rings` (`edma_cfg.c:671-706`); `allocs` gives the buffers for each RXFILL
    ring. -/
def edmaConfigureRings (allocs : Nat → List EdmaRxAlloc) (s : RingConfig) : RingConfig :=
  let s := s.clearStores
  let s := (List.range s.dev.ehw.txdescRings).foldl edmaConfigureTxdescRing s
  let s := (List.range s.dev.ehw.txcmplRings).foldl edmaConfigureTxcmplRing s
  let s := (List.range s.dev.ehw.rxfillRings).foldl (edmaConfigureRxfillRing allocs) s
  (List.range s.dev.ehw.rxdescRings).foldl edmaConfigureRxdescRing s

end NssDp.Edma
