import NssDp.Kernel.Napi
import NssDp.Misc.Word

/-!
# Open, close and the interrupt of a Synopsys port, statement by statement

`syn_dp_if_open`, `syn_dp_if_close`, `syn_dp_handle_irq` and the end of `syn_dp_napi_poll`
(`hal/syn_gmac_dp/syn_data_plane.c`) run on different processors, so each takes one statement a
step; what they write in the MAC is in `hal/gmac_hal_ops/syn/gmac/syn_if.c`.
-/

namespace NssDp.SynGmacDp

/-! The registers of the MAC that these functions use, and their bits (`syn_reg.h`) -/

def synDmaIntNormal : BitVec 32 := 0x00010000#32
def synDmaIntAbnormal : BitVec 32 := 0x00008000#32
def synDmaIntBusError : BitVec 32 := 0x00002000#32
def synDmaIntRxStopped : BitVec 32 := 0x00000100#32
def synDmaIntRxNoBuffer : BitVec 32 := 0x00000080#32
def synDmaIntRxCompleted : BitVec 32 := 0x00000040#32
def synDmaIntTxUnderflow : BitVec 32 := 0x00000020#32
def synDmaIntTxStopped : BitVec 32 := 0x00000002#32
def synDmaIntTxCompleted : BitVec 32 := 0x00000001#32
def synDmaTxStart : BitVec 32 := 0x00002000#32
def synDmaRxStart : BitVec 32 := 0x00000002#32

/-- `SYN_DMA_INT_EN`. -/
def synDmaIntEn : BitVec 32 :=
  synDmaIntNormal ||| synDmaIntAbnormal ||| synDmaIntBusError ||| synDmaIntRxNoBuffer |||
    synDmaIntRxCompleted ||| synDmaIntRxStopped ||| synDmaIntTxUnderflow |||
    synDmaIntTxCompleted ||| synDmaIntTxStopped

/-- `SYN_DMA_INT_DISABLE`. -/
def synDmaIntDisable : BitVec 32 := 0#32

/-- `SYN_DMA_STATUS`, `SYN_DMA_OPERATION_MODE` and `SYN_DMA_INT_ENABLE`. -/
structure SynMac where
  dmaStatus : BitVec 32
  dmaOperationMode : BitVec 32
  dmaIntEnable : BitVec 32
  deriving DecidableEq, Repr

namespace SynMac

/-- `syn_disable_dma_interrupt` (`syn_if.c:292-295`). -/
def disableDmaInterrupt (mac : SynMac) : SynMac := { mac with dmaIntEnable := synDmaIntDisable }

/-- `syn_enable_dma_interrupt` (`syn_if.c:301-304`). -/
def enableDmaInterrupt (mac : SynMac) : SynMac := { mac with dmaIntEnable := synDmaIntEn }

/-- `syn_clear_dma_status` (`syn_if.c:332-338`): what is read is written back, and a one that is
    written clears its bit. -/
def clearDmaStatus (mac : SynMac) : SynMac :=
  let data := mac.dmaStatus
  { mac with dmaStatus := mac.dmaStatus &&& ~~~data }

/-- `syn_enable_dma_rx` (`syn_if.c:344-351`). -/
def enableDmaRx (mac : SynMac) : SynMac :=
  { mac with dmaOperationMode := mac.dmaOperationMode ||| synDmaRxStart }

/-- `syn_disable_dma_rx` (`syn_if.c:357-364`). -/
def disableDmaRx (mac : SynMac) : SynMac :=
  { mac with dmaOperationMode := mac.dmaOperationMode &&& ~~~synDmaRxStart }

/-- `syn_enable_dma_tx` (`syn_if.c:370-377`). -/
def enableDmaTx (mac : SynMac) : SynMac :=
  { mac with dmaOperationMode := mac.dmaOperationMode ||| synDmaTxStart }

/-- `syn_disable_dma_tx` (`syn_if.c:383-390`). -/
def disableDmaTx (mac : SynMac) : SynMac :=
  { mac with dmaOperationMode := mac.dmaOperationMode &&& ~~~synDmaTxStart }

end SynMac

/-- The statement that `syn_dp_if_open` comes to next. -/
inductive OpenPc where
  | enableDmaRx
  | enableDmaTx
  | napiEnable
  | enableDmaInterrupt
  deriving DecidableEq, Repr

/-- The statement that `syn_dp_if_close` comes to next, with the wait of `napi_disable`. -/
inductive ClosePc where
  | disableDmaRx
  | disableDmaTx
  | disableDmaInterrupt
  | napiDisable
  | napiDisableWait
  deriving DecidableEq, Repr

/-- The statement that `syn_dp_handle_irq` comes to next. -/
inductive IrqPc where
  | clearDmaStatus
  | disableDmaInterrupt
  | napiSchedule
  deriving DecidableEq, Repr

/-- The port is closed or open, or one of the two functions is on the way. -/
inductive IfPhase where
  | closed
  | opening (pc : OpenPc)
  | opened
  | closing (pc : ClosePc)
  deriving DecidableEq, Repr

/-- A port with the functions that are on the way: the handler runs once at a time, and `tails`
    polls have called `napi_complete` and not yet enabled the interrupts. -/
structure SynIf where
  mac : SynMac
  napi : Napi
  phase : IfPhase
  irq : Option IrqPc
  tails : Nat
  deriving DecidableEq, Repr

/-- A statement of `syn_dp_if_open` (`syn_data_plane.c:141-158`). -/
def synDpIfOpen (s : SynIf) : Option SynIf :=
  match s.phase with
  | .closed => some { s with phase := .opening .enableDmaRx }
  | .opening .enableDmaRx =>
    some { s with mac := s.mac.enableDmaRx, phase := .opening .enableDmaTx }
  | .opening .enableDmaTx =>
    some { s with mac := s.mac.enableDmaTx, phase := .opening .napiEnable }
  | .opening .napiEnable =>
    s.napi.enable.map fun napi => { s with napi, phase := .opening .enableDmaInterrupt }
  | .opening .enableDmaInterrupt =>
    some { s with mac := s.mac.enableDmaInterrupt, phase := .opened }
  | .opened => none
  | .closing _ => none

/-- A statement of `syn_dp_if_close` (`syn_data_plane.c:164-180`). -/
def synDpIfClose (s : SynIf) : Option SynIf :=
  match s.phase with
  | .opened => some { s with phase := .closing .disableDmaRx }
  | .closing .disableDmaRx =>
    some { s with mac := s.mac.disableDmaRx, phase := .closing .disableDmaTx }
  | .closing .disableDmaTx =>
    some { s with mac := s.mac.disableDmaTx, phase := .closing .disableDmaInterrupt }
  | .closing .disableDmaInterrupt =>
    some { s with mac := s.mac.disableDmaInterrupt, phase := .closing .napiDisable }
  | .closing .napiDisable =>
    some { s with napi := s.napi.announceDisable, phase := .closing .napiDisableWait }
  | .closing .napiDisableWait =>
    s.napi.takeDisabled.map fun napi => { s with napi, phase := .closed }
  | .closed => none
  | .opening _ => none

/-- A statement of `syn_dp_handle_irq` (`syn_data_plane.c:62-76`), which is called while the
    interrupts are enabled. -/
def synDpHandleIrq (s : SynIf) : Option SynIf :=
  match s.irq with
  | none =>
    if s.mac.dmaIntEnable = synDmaIntDisable then none
    else some { s with irq := some .clearDmaStatus }
  | some .clearDmaStatus =>
    some { s with mac := s.mac.clearDmaStatus, irq := some .disableDmaInterrupt }
  | some .disableDmaInterrupt =>
    some { s with mac := s.mac.disableDmaInterrupt, irq := some .napiSchedule }
  | some .napiSchedule => some { s with napi := s.napi.schedule, irq := none }

/-- The poll has done its work (`syn_data_plane.c:50-55`): below its budget it calls
    `napi_complete` and has the interrupts still to enable. -/
def synDpNapiPollReturn (s : SynIf) (workDone budget : Int) : Option SynIf :=
  if workDone < budget then
    s.napi.complete.map fun napi => { s with napi, tails := s.tails + 1 }
  else s.napi.exhaust.map fun napi => { s with napi }

/-- The last statement of a poll that has called `napi_complete` (`syn_data_plane.c:52`). -/
def synDpNapiPollTail (s : SynIf) : Option SynIf :=
  if s.tails = 0 then none
  else some { s with mac := s.mac.enableDmaInterrupt, tails := s.tails - 1 }

end NssDp.SynGmacDp
