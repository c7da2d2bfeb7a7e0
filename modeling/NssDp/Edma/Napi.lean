import NssDp.Edma.Irq
import NssDp.Edma.TxRx

/-!
# The transmit side of the EDMA poll

The loops of `edma_napi` (`hal/edma/edma_tx_rx.c`) over the TXCMPL rings and over the network
devices whose queues it resumes. The receive loops only add to the work done.
-/

namespace NssDp.Edma

/-- The loop over the TXCMPL rings `qs` (`edma_tx_rx.c:449-452`), with the work it adds up;
    `none` where `edma_clean_tx` does not return. -/
def napiCleanTx (virtToPhys : Nat → BitVec 32) : List Nat → EdmaHw → Option (Nat × EdmaHw)
  | [], ehw => some (0, ehw)
  | q :: qs, ehw =>
    match edmaCleanTx virtToPhys ehw q with
    | none => none
    | some r => (napiCleanTx virtToPhys qs r.ehw).map fun rest => (r.ret + rest.1, rest.2)

/-- One turn of the loop that resumes the queues, on a device that is there
    (`edma_tx_rx.c:471-472`). -/
def napiResume (ndev : NetDevice) : NetDevice :=
  if ndev.queueStopped && ndev.carrierOk then { ndev with queueStopped := false } else ndev

/-- The network devices after the turn at `netdev_arr[i]` (`edma_tx_rx.c:466-473`). -/
def napiResumeAt (ehw : EdmaHw) (devs : Nat → NetDevice) (i : Nat) : Nat → NetDevice :=
  match ehw.netdevArr i with
  | none => devs
  | some ndev => Function.update devs ndev (napiResume (devs ndev))

/-- A poll past its loops over the rings: the work it has done, and the index at which the
    loop over the devices stands. -/
structure PollAt where
  workDone : Nat
  next : Nat
  deriving DecidableEq, Repr

end NssDp.Edma
