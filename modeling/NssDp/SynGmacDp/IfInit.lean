import NssDp.ApiIf
import NssDp.SynGmacDp.DataPlane

/-!
# The initialisation of the Synopsys data plane

`syn_dp_if_init` (`hal/syn_gmac_dp/syn_data_plane.c`), `syn_dp_setup_rings`
(`hal/syn_gmac_dp/syn_dp_cfg.c`) and the guard in `nss_dp_open` that calls them. The calls on
the kernel and the writes of the ring addresses are listed in order.
-/

namespace NssDp.SynGmacDp

/-- The calls of the initialisation that succeed. -/
inductive InitCall where
  | netifNapiAdd
  | requestIrq
  | dmaAllocRx (dma : BitVec 32)
  | dmaAllocTx (dma : BitVec 32)
  | rx (e : RxEvent)
  | initTxDescBase (dma : BitVec 32)
  | initRxDescBase (dma : BitVec 32)
  deriving DecidableEq, Repr

/-- A port with its entry of `dp_info`; `irqRequested` and `initDone` are the bits
    `IRQ_REQUESTED` and `INIT_DONE` of its `drv_flags`. -/
structure SynPort where
  info : SynDpInfo
  rxDescDma : BitVec 32
  txDescDma : BitVec 32
  napiAdded : Bool
  irqRequested : Bool
  initDone : Bool
  calls : List InitCall

/-- The zero-filled entry and the flags that a port starts with. -/
def SynPort.zero : SynPort := ⟨SynDpInfo.zero, 0, 0, false, false, false, []⟩

/-- The outcomes of one initialisation: of `request_irq`, of the two allocations of descriptors,
    and of the allocations of the refill. -/
structure InitEnv where
  requestIrq : Bool
  rxDma : Option (BitVec 32)
  txDma : Option (BitVec 32)
  allocs : List RxAlloc

/-- The assertion that stops an initialisation. -/
inductive SynInitBug where
  | tx (bug : SynBug)
  | rx (bug : SynRxBug)
  deriving DecidableEq, Repr

namespace SynPort

/-- A port makes more calls. -/
def call (s : SynPort) (calls : List InitCall) : SynPort := { s with calls := s.calls ++ calls }

/-- The receive part of `dp_info` after `syn_dp_setup_rx_desc_queue`. -/
def setRx (s : SynPort) (rx : SynDpRxInfo) : Option (BitVec 32) → SynPort
  | none => { s with info := { s.info with rx } }
  | some dma => { s.call [.dmaAllocRx dma] with
      info := { s.info with rx }
      rxDescDma := dma }

/-- The transmit part of `dp_info` after `syn_dp_setup_tx_desc_queue`. -/
def setTx (s : SynPort) (tx : SynDpTxInfo) : Option (BitVec 32) → SynPort
  | none => { s with info := { s.info with tx } }
  | some dma => { s.call [.dmaAllocTx dma] with
      info := { s.info with tx }
      txDescDma := dma }

end SynPort

/-- `syn_dp_setup_rings` (`syn_dp_cfg.c:107-130`). -/
def synDpSetupRings (s : SynPort) (env : InitEnv) : Except SynInitBug (NssDpRet × SynPort) :=
  match synDpSetupRxDescQueue s.info.rx synDpRxDescSize .ringMode env.rxDma.isSome with
  | .error bug => .error (.rx bug)
  | .ok (err, rx) =>
    let s := s.setRx rx env.rxDma
    if err ≠ 0 then .ok (.failure, s)
    else
      match synDpSetupTxDescQueue s.info.tx synDpTxDescSize .ringMode env.txDma.isSome with
      | .error bug => .error (.tx bug)
      | .ok (err, tx) =>
        let s := s.setTx tx env.txDma
        if err ≠ 0 then .ok (.failure, s)
        else
          match synDpRxRefill ⟨s.info.rx, []⟩ env.allocs with
          | .error halt => .error (.rx halt.bug)
          | .ok port =>
            let s := { s.call (port.events.map .rx) with info := { s.info with rx := port.info } }
            .ok (.success, s.call [.initTxDescBase s.txDescDma, .initRxDescBase s.rxDescDma])

/-- The first part of `syn_dp_if_init`, which adds NAPI and requests the interrupt
    (`syn_data_plane.c:99-116`): whether it goes on. -/
def synDpIfRegister (s : SynPort) (env : InitEnv) : Bool × SynPort :=
  if s.napiAdded then (true, s)
  else
    let s := s.call [.netifNapiAdd]
    if env.requestIrq then
      (true, { s.call [.requestIrq] with
        irqRequested := true
        napiAdded := true })
    else (false, s)

/-- `syn_dp_if_init` (`syn_data_plane.c:82-135`). -/
def synDpIfInit (s : SynPort) (env : InitEnv) : Except SynInitBug (NssDpRet × SynPort) :=
  let registered := synDpIfRegister s env
  if registered.1 then synDpSetupRings registered.2 env else .ok (.failure, registered.2)

/-- An attempt of `nss_dp_open` to initialise the data plane (`nss_dp_main.c:241-248`); none is
    made once `INIT_DONE` is set. -/
def initStep (s : SynPort) (env : InitEnv) : Option SynPort :=
  if s.initDone then none
  else (synDpIfInit s env).toOption.map fun r =>
    if r.1 = .success then { r.2 with initDone := true } else r.2

end NssDp.SynGmacDp
