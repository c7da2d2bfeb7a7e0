import NssDp.Hal.GmacOps
import NssDp.Main.OpenClose

/-!
# Setting the MAC address

`nss_dp_set_mac_address` and the call of the data plane's `mac_addr` in `nss_dp_open`
(`nss_dp_main.c`), with the address each gives to the data plane: the six bytes at the pointer
that is passed. The driver runs on little-endian processors.
-/

namespace NssDp.MacAddress

/-- A `struct sockaddr`, of `sa_data` the six bytes that hold an address. -/
structure Sockaddr where
  saFamily : BitVec 16
  saData : EtherAddr
  deriving DecidableEq, Repr

/-- The first six bytes of the structure in memory. -/
def Sockaddr.bytes (addr : Sockaddr) : EtherAddr where
  b0 := addr.saFamily.setWidth 8
  b1 := (addr.saFamily >>> 8).setWidth 8
  b2 := addr.saData.b0
  b3 := addr.saData.b1
  b4 := addr.saData.b2
  b5 := addr.saData.b3

/-- What does not change for a port: its HAL, whether the build has the PPE, and whether the link is
    polled. -/
structure PortConfig where
  hal : GmacHal
  ppeSupport : Bool
  linkPoll : Bool

/-- The address of a port, in the net device and in the registers of the GMAC. `macAddrCalls` lists
    the six bytes at each pointer that the data plane's `mac_addr` was called with. -/
structure MacPort where
  devAddr : EtherAddr
  regs : MacAddrRegs
  initDone : Bool
  macAddrCalls : List EtherAddr

/-- What `eth_prepare_mac_addr_change` returns, and which callbacks of the data plane succeed. -/
structure MacEnv where
  prepare : DevRet
  ok : DpCallback → Bool

/-- The data plane's `mac_addr` is called. -/
def MacPort.macAddr (s : MacPort) (addr : EtherAddr) : MacPort :=
  { s with macAddrCalls := s.macAddrCalls ++ [addr] }

/-- `nss_dp_set_mac_address` (`nss_dp_main.c:100-131`). -/
def nssDpSetMacAddress (cfg : PortConfig) (s : MacPort) (macaddr : Sockaddr) (env : MacEnv) :
    DevRet × MacPort :=
  if env.prepare ≠ .ok then (env.prepare, s)
  else
    -- the pointer to the whole structure is passed on
    let s := s.macAddr macaddr.bytes
    if env.ok .macAddr then
      (.ok, { s with
        devAddr := macaddr.saData
        regs := cfg.hal.setmacaddr macaddr.saData })
    else (.eagain, s)

/-- `nss_dp_open` (`nss_dp_main.c:229-298`), as far as the callbacks go. -/
def nssDpOpen (cfg : PortConfig) (s : MacPort) (env : MacEnv) : DevRet × MacPort :=
  if !s.initDone && !env.ok .init then (.enomem, s)
  else
    let s := { s with initDone := true }
    if cfg.ppeSupport && !env.ok .vsiAssign then (.eagain, s)
    else
      let s := s.macAddr s.devAddr
      if !env.ok .macAddr then (.eagain, s)
      else if !env.ok .changeMtu then (.eagain, s)
      else if !env.ok .open then (.eagain, s)
      else if !cfg.linkPoll && !env.ok .linkState then (.eagain, s)
      else (.ok, s)

/-- The calls of the kernel that concern the address. -/
inductive MacCall where
  | setMacAddress (macaddr : Sockaddr) (env : MacEnv)
  | «open» (env : MacEnv)

/-- A port with the address that was last set with success. -/
structure MacState where
  port : MacPort
  requested : Option EtherAddr

/-- A call of the kernel. -/
def macStep (cfg : PortConfig) (s : MacState) : MacCall → Option MacState
  | .setMacAddress macaddr env =>
      let r := nssDpSetMacAddress cfg s.port macaddr env
      some ⟨r.2, if r.1 = .ok then some macaddr.saData else s.requested⟩
  | .open env => some ⟨(nssDpOpen cfg s.port env).2, s.requested⟩

end NssDp.MacAddress
