import NssDp.SynGmacDp.Cleanup
import NssDp.SynGmacDp.IfInit

/-!
# The removal of the Synopsys data plane

`syn_dp_if_deinit` (`hal/syn_gmac_dp/syn_data_plane.c`) with `syn_dp_cleanup_rings`
(`hal/syn_gmac_dp/syn_dp_cfg.c`), and the guard in `nss_dp_override_data_plane` that calls it. A
life of a port is attempts to initialise it and removals in any order, with whatever polls and
transmissions make of its rings while it is initialised.
-/

namespace NssDp.SynGmacDp

/-- The calls of the removal. -/
inductive DeinitCall where
  | synchronizeIrq
  | freeIrq
  | netifNapiDel
  | rx (e : RxEvent)
  | dmaFreeRx (dma : BitVec 32)
  | tx (e : KernelEvent)
  | dmaFreeTx (dma : BitVec 32)
  deriving DecidableEq, Repr

/-- The first part of `syn_dp_if_deinit`, which gives back the interrupt and NAPI
    (`syn_data_plane.c:297-310`). -/
def synDpIfUnregister (s : SynPort) : List DeinitCall × SynPort :=
  if s.napiAdded then
    if s.irqRequested then
      ([.synchronizeIrq, .freeIrq, .netifNapiDel],
        { s with irqRequested := false, napiAdded := false })
    else ([.netifNapiDel], { s with napiAdded := false })
  else ([], s)

/-- The calls of `syn_dp_cleanup_rings`, where `r` is what its two loops do. -/
def SynPort.cleanupCalls (s : SynPort) (r : RingsCleanup) : List DeinitCall :=
  (r.rxTurns.flatMap (rxTurnCalls s.info.rx)).map .rx ++ [.dmaFreeRx s.rxDescDma] ++
    (r.txTurns.flatMap (txTurnCalls s.info.tx)).map .tx ++ [.dmaFreeTx s.txDescDma]

/-- `syn_dp_if_deinit` (`syn_data_plane.c:291-318`), which always succeeds. -/
def synDpIfDeinit (s : SynPort) : List DeinitCall × SynPort :=
  let (calls, s) := synDpIfUnregister s
  let r := synDpCleanupRings s.info.rx s.info.tx
  (calls ++ s.cleanupCalls r, { s with info := { s.info with
    rx := { s.info.rx with rxSkbList := r.rxSkbList }
    tx := { s.info.tx with txSkbList := r.txSkbList } } })

/-- A call of either end of a life. -/
inductive LifeCall where
  | init (call : InitCall)
  | deinit (call : DeinitCall)
  deriving DecidableEq, Repr

/-- A port with the calls of all attempts and removals; its own are those of the last attempt. -/
structure SynLife where
  port : SynPort
  calls : List LifeCall

/-- A port on which nothing has happened. -/
def SynLife.start : SynLife := ⟨SynPort.zero, []⟩

/-- What happens to a port. -/
inductive LifeLabel where
  | attempt (env : InitEnv)
  | use (info : SynDpInfo)
  | deinit

/-- One step of a life. The rings of an initialised port may become anything; it is removed with
    `INIT_DONE` set only, which is cleared then (`nss_dp_attach.c:106-113`). -/
def lifeStep (s : SynLife) : LifeLabel → Option SynLife
  | .attempt env => (initStep { s.port with calls := [] } env).map fun port =>
    ⟨port, s.calls ++ port.calls.map .init⟩
  | .use info => if s.port.initDone then some { s with port := { s.port with info } } else none
  | .deinit =>
    if s.port.initDone then
      let (calls, port) := synDpIfDeinit s.port
      some ⟨{ port with initDone := false }, s.calls ++ calls.map .deinit⟩
    else none

end NssDp.SynGmacDp
