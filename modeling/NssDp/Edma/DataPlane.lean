import Mathlib.Algebra.Group.Int.Defs
import NssDp.ApiIf
import NssDp.Edma.Irq
import NssDp.Edma.TxRx

/-!
# The EDMA data plane

The callbacks of `nss_dp_edma_ops` besides `xmit`, the registration of the interrupts and the
cleanup (`hal/edma/edma_data_plane.c`), with the release of the rings
(`hal/edma/edma_cfg.c`). `none` stands for a call that does not return.
-/

namespace NssDp.Edma

open Word

/-- `edma_if_open` (`edma_data_plane.c:74-89`). -/
def edmaIfOpen (ehw : EdmaHw) (dpc : NssDpDataPlaneCtx) : Option (NssDpRet × EdmaHw) :=
  if dpc.dev = none then some (.failure, ehw)
  else
    let opened := { ehw with active := ehw.active + 1 }
    if ehw.active ≠ 0 then some (.success, opened)
    else opened.napi.enable.map fun napi => (.success, { opened with napi })

/-- `edma_if_close` (`edma_data_plane.c:95-105`); `workDone` is what a poll does that is
    scheduled when the last port is closed. -/
def edmaIfClose (ehw : EdmaHw) (workDone : Nat) : Option (NssDpRet × EdmaHw) :=
  let closed := { ehw with active := ehw.active - 1 }
  if closed.active ≠ 0 then some (.success, closed)
  else (edmaNapiDisable closed workDone).map fun ehw => (.success, ehw)

/-- The callbacks that only answer (`edma_data_plane.c:107-131`, `:221-231`, `:276-286`). -/
def edmaIfLinkState (_dpc : NssDpDataPlaneCtx) : NssDpRet := .success

def edmaIfMacAddr (_dpc : NssDpDataPlaneCtx) : NssDpRet := .success

def edmaIfChangeMtu (_dpc : NssDpDataPlaneCtx) : NssDpRet := .success

def edmaIfPauseOnOff (_dpc : NssDpDataPlaneCtx) : NssDpRet := .success

def edmaIfRxFlowSteer (_dpc : NssDpDataPlaneCtx) : NssDpRet := .success

/-- `edma_get_port_num_from_netdev`; `none` is -1. -/
def edmaGetPortNumFromNetdev (soc : Soc) (ehw : EdmaHw) (netdev : Option Nat) : Option Nat :=
  ((List.range soc.maxPorts).find? fun i => ehw.netdevArr i = netdev).map (· + 1)

/-- A call of `fal_port_vsi_set(0, port, vsi)`. -/
structure FalPortVsiSet where
  port : Nat
  vsi : Nat
  deriving DecidableEq, Repr

/-- `edma_if_vsi_assign` (`edma_data_plane.c:238-252`), with the calls into the FAL; `fal` says
    whether these succeed. -/
def edmaIfVsiAssign (soc : Soc) (ehw : EdmaHw) (dpc : NssDpDataPlaneCtx) (vsi : Nat) (fal : Bool) :
    NssDpRet × List FalPortVsiSet :=
  match edmaGetPortNumFromNetdev soc ehw dpc.dev with
  | none => (.failure, [])
  | some portNum => (if fal then .success else .failure, [⟨portNum, vsi⟩])

/-- `edma_if_vsi_unassign` (`edma_data_plane.c:259-273`). The port number is unsigned here, so
    -1 passes the test for a negative number. -/
def edmaIfVsiUnassign (soc : Soc) (ehw : EdmaHw) (dpc : NssDpDataPlaneCtx) (fal : Bool) :
    NssDpRet × List FalPortVsiSet :=
  let portNum := (edmaGetPortNumFromNetdev soc ehw dpc.dev).getD (2 ^ 32 - 1)
  (if fal then .success else .failure, [⟨portNum, 0xffff⟩])

/-- What `platform_get_irq` returns for each entry, and whether `request_irq` grants the
    interrupt of that entry. -/
structure IrqEnv where
  getIrq : Nat → Int
  requestOk : Nat → Bool

/-- An `int` in an unsigned field. -/
def toU32 (z : Int) : Nat := (z % 2 ^ 32).toNat

/-- The first part of `edma_irq_init` (`edma_data_plane.c:320-378`). The fields are unsigned,
    so none of its tests for a negative number succeeds. -/
def edmaIrqGet (ehw : EdmaHw) (env : IrqEnv) : EdmaHw :=
  { ehw with
    txcmplIntr := fun i => if i < ehw.txcmplRings then toU32 (env.getIrq i) else ehw.txcmplIntr i
    rxfillIntr := fun i =>
      if i < ehw.rxfillRings then toU32 (env.getIrq (ehw.txcmplRings + i)) else ehw.rxfillIntr i
    rxdescIntr := fun i =>
      if i < ehw.rxdescRings then toU32 (env.getIrq (ehw.txcmplRings + ehw.rxfillRings + i))
      else ehw.rxdescIntr i
    miscIntr := toU32 (env.getIrq (ehw.txcmplRings + ehw.rxfillRings + ehw.rxdescRings)) }

/-- The interrupts of the driver's rings. -/
def EdmaHw.txcmplIrqs (ehw : EdmaHw) : List Nat := (List.range ehw.txcmplRings).map ehw.txcmplIntr

def EdmaHw.rxfillIrqs (ehw : EdmaHw) : List Nat := (List.range ehw.rxfillRings).map ehw.rxfillIntr

def EdmaHw.rxdescIrqs (ehw : EdmaHw) : List Nat := (List.range ehw.rxdescRings).map ehw.rxdescIntr

/-- A loop of `request_irq` over the interrupts of one kind of ring, the first of which is
    entry `entry`: the loop is left at the first refusal. -/
def requestIrqs (env : IrqEnv) (entry : Nat) (ehw : EdmaHw) : List Nat → Bool × EdmaHw
  | [] => (true, ehw)
  | irq :: irqs =>
    if env.requestOk entry then requestIrqs env (entry + 1) (ehw.touch [.requestIrq irq]) irqs
    else (false, ehw)

/-- A loop of `free_irq` on the failure path, where the `dev_id` is `&pdev->dev` and not the
    `pdev` that the interrupts were requested with. -/
def EdmaHw.freeIrqsOther (ehw : EdmaHw) (irqs : List Nat) : EdmaHw :=
  ehw.touch (irqs.map .freeIrqOther)

/-- The part of `edma_irq_init` that sets the interrupt masks (`edma_data_plane.c:436-457`). -/
def EdmaHw.setIrqMasks (ehw : EdmaHw) : EdmaHw :=
  let ehw := ehw.writeRings ehw.rxfillIntMasks ehw.rxfillIntrMask
  let ehw := ehw.writeRings ehw.txcmplIntMasks ehw.txcmplIntrMask
  let ehw := ehw.writeRings ehw.rxdescIntMasks ehw.rxdescIntrMask
  ehw.regWrite .miscIntMask ehw.miscIntrMask

/-- `edma_irq_init` (`edma_data_plane.c:312-495`): whether it returns 0. -/
def edmaIrqInit (ehw : EdmaHw) (env : IrqEnv) : Bool × EdmaHw :=
  let ehw := edmaIrqGet ehw env
  let txcmpl := requestIrqs env 0 ehw ehw.txcmplIrqs
  if txcmpl.1 = false then (false, txcmpl.2)
  else
    let rxfill := requestIrqs env ehw.txcmplRings txcmpl.2 ehw.rxfillIrqs
    if rxfill.1 = false then (false, rxfill.2.freeIrqsOther ehw.txcmplIrqs)
    else
      let rxdesc := requestIrqs env (ehw.txcmplRings + ehw.rxfillRings) rxfill.2 ehw.rxdescIrqs
      if rxdesc.1 = false then
        (false, (rxdesc.2.freeIrqsOther ehw.rxfillIrqs).freeIrqsOther ehw.txcmplIrqs)
      else if env.requestOk (ehw.txcmplRings + ehw.rxfillRings + ehw.rxdescRings) = false then
        (false, ((rxdesc.2.freeIrqsOther ehw.rxdescIrqs).freeIrqsOther ehw.rxfillIrqs).freeIrqsOther
          ehw.txcmplIrqs)
      else (true, (rxdesc.2.touch [.requestIrq ehw.miscIntr]).setIrqMasks)

/-- A port is entered in the table of net devices. -/
def EdmaHw.setNetdev (ehw : EdmaHw) (macid : Nat) : EdmaHw :=
  { ehw with netdevArr := Function.update ehw.netdevArr (macid - 1) (some macid) }

/-- `netif_napi_add` leaves the NAPI instance disabled, whatever its state was. -/
def EdmaHw.netifNapiAdd (ehw : EdmaHw) : EdmaHw := { ehw with napi := .disabled }

/-- `edma_register_netdevice` (`edma_data_plane.c:501-540`): whether it returns 0. -/
def edmaRegisterNetdevice (soc : Soc) (ehw : EdmaHw) (netdev : NetDevice) (env : IrqEnv) :
    Bool × EdmaHw :=
  if netdev.macid < soc.startIfnum ∨ soc.maxPorts < netdev.macid then (false, ehw)
  else
    let ehw := ehw.setNetdev netdev.macid
    if ehw.napiAdded then (true, ehw)
    else
      let irq := edmaIrqInit ehw.netifNapiAdd env
      if irq.1 then (true, { irq.2 with napiAdded := true }) else (false, irq.2)

/-- `edma_if_init` (`edma_data_plane.c:546-570`). -/
def edmaIfInit (soc : Soc) (ehw : EdmaHw) (netdev : NetDevice) (env : IrqEnv) :
    NssDpRet × EdmaHw × NetDevice :=
  let registered := edmaRegisterNetdevice soc ehw netdev env
  if registered.1 then
    (.success, registered.2,
      { netdev with neededHeadroom := u16 (netdev.neededHeadroom + edmaTxPrehdrSize) })
  else (.failure, registered.2, netdev)

/-- The loop of `edma_cleanup_txdesc_ring_res` (`edma_cfg.c:270-288`), with `fuel` tests of its
    condition. The address in a descriptor serves as index into the store; what is read there
    is dereferenced. The consumer index is advanced twice. -/
def cleanupTxdescLoop (ring : EdmaTxdescRing) (prodIdx : Nat) :
    Nat → Nat → (Nat → Option SkBuff) → Option ((Nat → Option SkBuff) × List KernelEvent)
  | 0, _, _ => none
  | fuel + 1, consIdx, store =>
    if consIdx = prodIdx then some (store, [])
    else
      let txdesc := ring.desc consIdx
      let storeIdx := txdesc.bufferAddr.toNat
      match if storeIdx < edmaRingSize then store storeIdx else none with
      | none => none
      | some skb =>
        let bufLen := ((txdesc.word1 &&& edmaTxdescDataLengthMask)
          >>> edmaTxdescDataLengthShift).toNat
        let next := u16 (consIdx + 1 &&& ring.count - 1)
        let next := if u16 (next + 1) = ring.count then 0 else u16 (next + 1)
        (cleanupTxdescLoop ring prodIdx fuel next (Function.update store storeIdx none)).map
          fun r => (r.1, [.dmaUnmapSingle .pdev (BitVec.ofNat 32 skb.data)
            (bufLen + edmaTxPrehdrSize) .toDevice, .devKfreeSkb skb] ++ r.2)

/-- `edma_cleanup_txdesc_ring_res` (`edma_cfg.c:250-298`). A turn of the loop empties an
    occupied slot, so a loop that has not ended after `2 ^ 16` tests does not end well. -/
def edmaCleanupTxdescRingRes (ehw : EdmaHw) (ring : Nat) : Option (EdmaHw × List KernelEvent) :=
  let id := (ehw.txdescRing ring).id
  let ehw := ehw.touch [.ringArray, .regRead (.txdescProdIdx id), .regRead (.txdescConsIdx id)]
  (cleanupTxdescLoop (ehw.txdescRing ring) (ehw.regIdx (.txdescProdIdx id)) (2 ^ 16)
    (ehw.regIdx (.txdescConsIdx id)) ehw.txSkbStore).map fun r =>
      ({ ehw with txSkbStore := r.1 }.touch [.freeDesc .txdesc ring], r.2)

/-- `edma_cleanup_txcmpl_ring_res` (`edma_cfg.c:200-217`). -/
def edmaCleanupTxcmplRingRes (virtToPhys : Nat → BitVec 32) (ehw : EdmaHw) (ring : Nat) :
    Option (EdmaHw × List KernelEvent) :=
  (edmaCleanTx virtToPhys ehw ring).map fun r => (r.ehw.touch [.freeDesc .txcmpl ring], r.events)

/-- The accesses of `edma_cleanup_rxfill_ring_res` (`edma_cfg.c:33-90`). -/
def edmaCleanupRxfillRingRes (ehw : EdmaHw) (ring : Nat) : EdmaHw :=
  let id := (ehw.rxfillRing ring).id
  ehw.touch [.ringArray, .regRead (.rxfillProdIdx id), .regRead (.rxfillConsIdx id),
    .freeDesc .rxfill ring]

/-- The accesses of `edma_cleanup_rxdesc_ring_res` (`edma_cfg.c:147-194`). -/
def edmaCleanupRxdescRingRes (ehw : EdmaHw) (ring : Nat) : EdmaHw :=
  let id := (ehw.rxdescRing ring).id
  ehw.touch [.ringArray, .regRead (.rxdescConsIdx id), .regRead (.rxdescProdIdx id),
    .freeDesc .rxdesc ring]

/-- A loop over rings that collects what is done to buffers. -/
def forRings (f : EdmaHw → Nat → Option (EdmaHw × List KernelEvent)) :
    List Nat → EdmaHw → Option (EdmaHw × List KernelEvent)
  | [], ehw => some (ehw, [])
  | i :: is, ehw => (f ehw i).bind fun r => (forRings f is r.1).map fun r' => (r'.1, r.2 ++ r'.2)

/-- `edma_cleanup_rings` (`edma_cfg.c:506-535`), with `edma_free_rings` at its end. -/
def edmaCleanupRings (virtToPhys : Nat → BitVec 32) (ehw : EdmaHw) :
    Option (EdmaHw × List KernelEvent) :=
  (forRings edmaCleanupTxdescRingRes (List.range ehw.txdescRings) ehw).bind fun r =>
    (forRings (edmaCleanupTxcmplRingRes virtToPhys) (List.range ehw.txcmplRings) r.1).map fun r' =>
      let ehw := (List.range ehw.rxfillRings).foldl edmaCleanupRxfillRingRes r'.1
      let ehw := (List.range ehw.rxdescRings).foldl edmaCleanupRxdescRingRes ehw
      (ehw.touch [.freeRings], r.2 ++ r'.2)

/-- `edma_disable_port`. -/
def edmaDisablePort (ehw : EdmaHw) : EdmaHw := ehw.regWrite .portCtrl edmaDisable

/-- The interrupts that `edma_cleanup` frees. -/
def EdmaHw.irqs (ehw : EdmaHw) : List Nat :=
  ehw.txcmplIrqs ++ ehw.rxfillIrqs ++ ehw.rxdescIrqs ++ [ehw.miscIntr]

/-- The registers of `edma_cleanup` that disable rings, by hardware ring number. -/
def EdmaHw.rxdescCtrls (ehw : EdmaHw) : List EdmaReg :=
  (List.range' ehw.rxdescRingStart ehw.rxdescRings).map .rxdescCtrl

def EdmaHw.txdescCtrls (ehw : EdmaHw) : List EdmaReg :=
  (List.range' ehw.txdescRingStart ehw.txdescRings).map .txdescCtrl

def EdmaHw.rxfillRingEns (ehw : EdmaHw) : List EdmaReg :=
  (List.range' ehw.rxfillRingStart ehw.rxfillRings).map .rxfillRingEn

/-- The part of `edma_cleanup` that disables the rings and clears the interrupt masks
    (`edma_data_plane.c:806-841`). -/
def edmaDisableRings (ehw : EdmaHw) : EdmaHw :=
  let ehw := ehw.writeRegs ehw.rxdescCtrls edmaRingDisable
  let ehw := ehw.writeRegs ehw.txdescCtrls edmaRingDisable
  let ehw := ehw.writeRegs ehw.rxfillRingEns edmaRingDisable
  let ehw := ehw.writeRings ehw.rxdescIntMasks edmaMaskIntClear
  let ehw := ehw.writeRings ehw.txcmplIntMasks edmaMaskIntClear
  ehw.regWrite .miscIntMask edmaMaskIntClear

/-- The part of `edma_cleanup` that removes the interrupt handlers and NAPI
    (`edma_data_plane.c:842-881`). -/
def edmaRemoveIrqs (ehw : EdmaHw) : EdmaHw :=
  if ehw.napiAdded then { ehw.touch (ehw.irqs.map .freeIrq) with napiAdded := false } else ehw

/-- `edma_cleanup` (`edma_data_plane.c:785-906`). -/
def edmaCleanup (virtToPhys : Nat → BitVec 32) (ehw : EdmaHw) (isDpOverride : Bool) :
    Option (EdmaHw × List KernelEvent) :=
  if ehw.edmaInitialized then
    let ehw := edmaRemoveIrqs (edmaDisableRings ehw)
    let ehw := if isDpOverride then ehw else edmaDisablePort ehw
    (edmaCleanupRings virtToPhys ehw).map fun r =>
      ({ r.1.touch [.iounmap, .releaseMemRegion] with edmaInitialized := false }, r.2)
  else some (if isDpOverride then ehw else edmaDisablePort ehw, [])

/-- `edma_if_deinit` (`edma_data_plane.c:293-306`). -/
def edmaIfDeinit (soc : Soc) (virtToPhys : Nat → BitVec 32) (ehw : EdmaHw) :
    Option (NssDpRet × EdmaHw) :=
  if ehw.dpOverrideCnt = soc.maxPorts - 1 then
    (edmaCleanup virtToPhys ehw true).map fun r => (.success, r.1)
  else some (.success, { ehw with dpOverrideCnt := u32 (ehw.dpOverrideCnt + 1) })

end NssDp.Edma
