import NssDp.Edma.Hw

/-!
# The interrupt handler and the end of the poll

`edma_handle_irq` and the completing part of `edma_napi` (`hal/edma/edma_tx_rx.c`).
-/

namespace NssDp.Edma

/-- `EDMA_NAPI_WORK`. -/
def edmaNapiWork : Nat := 100

/-- One of the three loops of `edma_handle_irq` (`edma_tx_rx.c:706-754`): for each ring its
    status is read and its interrupt masked. -/
def irqStatusLoop (ehw : EdmaHw) (stat mask : Nat → EdmaReg) (statusMask : BitVec 32)
    (ids : List Nat) : BitVec 32 × EdmaHw :=
  ids.foldl (fun (status, ehw) id =>
    (status ||| (ehw.regs (stat id) &&& statusMask),
      (ehw.touch [.ringArray, .regRead (stat id)]).regWrite (mask id) edmaMaskIntDisable))
    (0#32, ehw)

/-- `edma_handle_irq` (`edma_tx_rx.c:684-773`). -/
def edmaHandleIrq (ehw : EdmaHw) : IrqReturn × EdmaHw :=
  let rxdesc := irqStatusLoop ehw .rxdescIntStat .rxdescIntMask edmaRxdescRingIntStatusMask
    ((List.range ehw.rxdescRings).map fun i => (ehw.rxdescRing i).id)
  let txcmpl := irqStatusLoop rxdesc.2 .txIntStat .txIntMask edmaTxcmplRingIntStatusMask
    ((List.range ehw.txcmplRings).map fun i => (ehw.txcmplRing i).id)
  let rxfill := irqStatusLoop txcmpl.2 .rxfillIntStat .rxfillIntMask edmaRxfillRingIntStatusMask
    ((List.range ehw.rxfillRings).map fun i => (ehw.rxfillRing i).id)
  if rxdesc.1 = 0#32 ∧ txcmpl.1 = 0#32 ∧ rxfill.1 = 0#32 then (.none, rxfill.2)
  else
    let ehw := rxfill.2.writeRings rxfill.2.rxdescIntMasks edmaMaskIntDisable
    (.handled, { ehw with napi := ehw.napi.schedule })

/-- The loops that set the interrupt masks at the end of `edma_napi`
    (`edma_tx_rx.c:488-511`). -/
def EdmaHw.enableRingIrqs (ehw : EdmaHw) : EdmaHw :=
  let ehw := ehw.writeRings ehw.rxdescIntMasks ehw.rxdescIntrMask
  let ehw := ehw.writeRings ehw.txcmplIntMasks ehw.txcmplIntrMask
  ehw.writeRings ehw.rxfillIntMasks ehw.rxfillIntrMask

/-- `edma_napi` from the test of its budget on (`edma_tx_rx.c:479-513`); `workDone` is what
    the loops over the rings have added up. -/
def edmaNapiFinish (ehw : EdmaHw) (workDone budget : Nat) : EdmaHw :=
  if workDone < budget then { ehw with napi := ehw.napi.complete }.enableRingIrqs else ehw

/-- `napi_disable(&edma_hw.napi)`. It waits for a poll that is scheduled, which does
    `workDone`; a poll that has used its budget is completed by the core instead of being
    scheduled again. It does not return from an instance that is disabled. -/
def edmaNapiDisable (ehw : EdmaHw) (workDone : Nat) : Option EdmaHw :=
  match ehw.napi with
  | .disabled => none
  | .idle => some { ehw with napi := .disabled }
  | .scheduled => some { edmaNapiFinish ehw workDone edmaNapiWork with napi := .disabled }

end NssDp.Edma
