import NssDp.Main.OpenClose

/-!
# The other operations of a port

The operations of the net device besides opening, closing and transmission, and the handler of
PHY events (`nss_dp_main.c`).
-/

namespace NssDp

/-- `nss_dp_change_mtu` (`nss_dp_main.c:76-95`). -/
def nssDpChangeMtu (plat : Platform) (s : Driver) (p newmtu : Nat) (env : CallEnv) :
    Except Halt (DevRet × Driver) :=
  orReturn .einval (s.ownCallback plat p env .changeMtu) fun s =>
  .ok (.ok, s.modify p fun d => { d with mtu := newmtu })

/-- `nss_dp_set_mac_address` (`nss_dp_main.c:100-131`), less the write to the GMAC; `prepare` is
    what `eth_prepare_mac_addr_change` returns. -/
def nssDpSetMacAddress (plat : Platform) (s : Driver) (p macaddr : Nat) (prepare : DevRet)
    (env : CallEnv) : Except Halt (DevRet × Driver) :=
  if prepare ≠ .ok then .ok (prepare, s)
  else
    orReturn .eagain (s.ownCallback plat p env .macAddr) fun s =>
    .ok (.ok, s.modify p fun d => { d with devAddr := macaddr })

/-- Whether the GMACs of the SoC take their statistics from the data plane: those of
    `gmac_hal_ops/syn/gmac` do. -/
def Soc.statsFromDataPlane : Soc → Bool
  | .ipq807x | .ipq60xx => false
  | .ipq50xx => true

/-- `nss_dp_get_stats64` (`nss_dp_main.c:137-163`) and `nss_dp_get_ethtool_stats`
    (`nss_dp_ethtools.c:29-35`), with the part of the GMAC operations that calls the data plane
    (`syn_get_stats`, `syn_if.c:499-517`). -/
def nssDpGetStats (plat : Platform) (s : Driver) (p : Nat) (env : CallEnv) :
    Except Halt Driver :=
  if plat.soc.statsFromDataPlane then (s.ownCallback plat p env .getStats).map Prod.snd else .ok s

/-- The CPU that receives a flow and the CPU that wants it, as `nss_dp_rx_flow_steer` finds them
    in the tables of the kernel. -/
structure RxFlow where
  rxcpu : Nat
  rfscpu : Nat
  deriving DecidableEq, Repr

/-- `nss_dp_rx_flow_steer` (`nss_dp_main.c:305-380`); `flow` is `none` where a table is missing,
    and the callback is called with `del` and then with `add`. -/
def nssDpRxFlowSteer (plat : Platform) (s : Driver) (p : Nat) (flow : Option RxFlow)
    (del add : CallEnv) : Except Halt (DevRet × Driver) :=
  match flow with
  | none => .ok (.einval, s)
  | some flow =>
    if flow.rxcpu = flow.rfscpu then .ok (.ok, s)
    else if .rxFlowSteer ∈ (s.dev p).dataPlaneOps.missing then .ok (.einval, s)
    else
      orReturn .eagain (s.ownCallback plat p del .rxFlowSteer) fun s =>
      orReturn .eagain (s.ownCallback plat p add .rxFlowSteer) fun s =>
      .ok (.ok, s)

/-- `nss_dp_adjust_link` (`nss_dp_main.c:550-582`); `link` is the state of the PHY. -/
def nssDpAdjustLink (plat : Platform) (s : Driver) (p : Nat) (link : Bool) (env : CallEnv) :
    Except Halt Driver :=
  let currentState := (s.dev p).linkState
  if (s.dev p).up = false then .ok s
  else if link = true ∧ currentState = .up then .ok s
  else if link = false ∧ currentState = .down then .ok s
  else match currentState with
    | .down => (s.ownCallback plat p env .linkState).map fun r =>
        if r.1 then (r.2.setLinkState p .up).setCarrier p true else r.2
    | .up => (s.ownCallback plat p env .linkState).map fun r =>
        if r.1 then (r.2.setLinkState p .down).setCarrier p false else r.2

end NssDp
