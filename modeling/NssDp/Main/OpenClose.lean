import NssDp.Main.Dev

/-!
# Opening, closing and transmission

The net device operations `nss_dp_open`, `nss_dp_close` and `nss_dp_xmit`, and the end of the
module (`nss_dp_main.c`).
-/

namespace NssDp

open Edma

/-- What the operations return: 0 or `NSS_DP_SUCCESS`, an error number, or `NSS_DP_FAILURE`. -/
inductive DevRet where
  | ok
  | eagain
  | enomem
  | einval
  | ebusy
  | eaddrnotavail
  | failure
  deriving DecidableEq, Repr

/-- A call after which the operation goes on, or returns `err` where it failed. -/
def orReturn (err : DevRet) (r : Except Halt (Bool × Driver))
    (next : Driver → Except Halt (DevRet × Driver)) : Except Halt (DevRet × Driver) :=
  r.bind fun r => if r.1 then next r.2 else .ok (err, r.2)

/-- `nss_dp_close` (`nss_dp_main.c:185-224`), less the calls that stop the PHY. -/
def nssDpClose (plat : Platform) (s : Driver) (p : Nat) (env : CallEnv) :
    Except Halt (DevRet × Driver) :=
  let s := (s.setQueueStopped p true).setCarrier p false
  orReturn .eagain (s.ownCallback plat p env .linkState) fun s =>
  let s := s.setLinkState p .down
  orReturn .eagain
    (if plat.soc.ppeSupport then s.ownCallback plat p env .vsiUnassign else .ok (true, s)) fun s =>
  orReturn .eagain (s.ownCallback plat p env .close) fun s =>
  .ok (.ok, s.setUp p false)

/-- The first part of `nss_dp_open`, which initialises the data plane once
    (`nss_dp_main.c:241-248`). -/
def initOnce (plat : Platform) (s : Driver) (p : Nat) (env : CallEnv) :
    Except Halt (Bool × Driver) :=
  if (s.dev p).initDone then .ok (true, s)
  else (s.ownCallback plat p env .init).map fun r =>
    (r.1, if r.1 then r.2.setInitDone p true else r.2)

/-- `nss_dp_open` (`nss_dp_main.c:229-298`), less the calls that start the PHY. -/
def nssDpOpen (plat : Platform) (s : Driver) (p : Nat) (env : CallEnv) :
    Except Halt (DevRet × Driver) :=
  orReturn .enomem (initOnce plat (s.setCarrier p false) p env) fun s =>
  (s.ownCallback plat p env .setFeatures).bind fun r =>
  let s := r.2.setUp p true
  orReturn .eagain
    (if plat.soc.ppeSupport then s.ownCallback plat p env .vsiAssign else .ok (true, s)) fun s =>
  orReturn .eagain (s.ownCallback plat p env .macAddr) fun s =>
  orReturn .eagain (s.ownCallback plat p env .changeMtu) fun s =>
  orReturn .eagain (s.ownCallback plat p env .open) fun s =>
  let s := s.setQueueStopped p false
  if (s.dev p).linkPoll then .ok (.ok, s.setLinkState p .down)
  else
    orReturn .eagain (s.ownCallback plat p env .linkState) fun s =>
    .ok (.ok, (s.setLinkState p .up).setCarrier p true)

/-- `nss_dp_xmit` (`nss_dp_main.c:169-180`). `accept` is the answer of a data plane other than
    EDMA. -/
def nssDpXmit (s : Driver) (p : Nat) (skb : SkBuff) (env : XmitEnv) (accept : Bool) :
    Except Halt (NetdevTx × Driver) :=
  let d := s.dev p
  if .xmit ∈ d.dataPlaneOps.missing then .error (.nullCallback p .xmit)
  else
    let sent : Option (NetdevTx × Driver) := match d.dataPlaneOps with
      | .edma => (s.ctx d.dpc).dev.bind fun q =>
          (edmaIfXmit s.edmaHw (s.dev q).netdev skb env).toOption.map fun r =>
            (r.ret, { s.modifyNetdev q fun _ => r.netdev with edmaHw := r.ehw })
      | .synGmac | .overlay .. => some (if accept then .ok else .busy, s)
    (returned sent).map fun r => (r.1, r.2.record (.call p d.dataPlaneOps d.dpc .xmit (r.1 = .ok)))

/-- `nss_dp_select_queue` (`nss_dp_main.c:394-402`): the TX queue of a packet that the processor
    `cpu` sends. -/
def nssDpSelectQueue (cpu : Nat) : Nat := cpu

/-- `nss_dp_hal_cleanup` (`hal/arch`), less the tables of the GMAC operations. -/
def nssDpHalCleanup (plat : Platform) (s : Driver) : Except Halt Driver :=
  if plat.soc.ppeSupport then
    (returned (edmaCleanup plat.virtToPhys s.edmaHw false)).map fun r => s.setEdmaHw plat none r.1
  else .ok s

/-- The loop of `nss_dp_remove` (`nss_dp_main.c:738-750`): `unregister_netdev` has the kernel
    stop each interface it has open. -/
def nssDpRemove (plat : Platform) (envs : Nat → CallEnv) :
    Driver → List Nat → Except Halt Driver
  | s, [] => .ok s
  | s, p :: ps =>
    if (s.dev p).netdev.running then
      (nssDpClose plat s p (envs p)).bind fun r => nssDpRemove plat envs (r.2.setRunning p false) ps
    else nssDpRemove plat envs s ps

/-- `nss_dp_exit` (`nss_dp_main.c:812-824`). -/
def nssDpExit (plat : Platform) (s : Driver) (envs : Nat → CallEnv) : Except Halt Driver :=
  (if s.commonInitDone then
    (nssDpHalCleanup plat s).map fun s => { s with commonInitDone := false }
  else .ok s).bind fun s => nssDpRemove plat envs s (List.range' 1 plat.soc.maxPorts)

end NssDp
