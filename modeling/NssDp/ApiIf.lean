import Mathlib.Tactic.Common

/-!
# The interface between the driver and its data planes

The constants of the SoCs (`hal/arch`) and what `exports/nss_dp_api_if.h` defines.
-/

namespace NssDp

/-- The SoCs the driver is built for. -/
inductive Soc where
  | ipq807x
  | ipq60xx
  | ipq50xx
  deriving DecidableEq, Repr

/-- `NSS_DP_HAL_MAX_PORTS`. -/
def Soc.maxPorts : Soc → Nat
  | .ipq807x => 6
  | .ipq60xx => 5
  | .ipq50xx => 2

/-- `NSS_DP_HAL_CPU_NUM`, which is also the number of TX queues of a net device
    (`nss_dp_main.c:39`). -/
def Soc.cpuNum : Soc → Nat
  | .ipq807x | .ipq60xx => 4
  | .ipq50xx => 2

/-- `NSS_DP_START_IFNUM`. -/
def Soc.startIfnum : Soc → Nat
  | .ipq807x | .ipq60xx => 1
  | .ipq50xx => 0

/-- `NSS_DP_PPE_SUPPORT` (`Makefile:35-37`); the build has EDMA where it is set. -/
def Soc.ppeSupport : Soc → Bool
  | .ipq807x | .ipq60xx => true
  | .ipq50xx => false

/-- `NSS_DP_SUCCESS` and `NSS_DP_FAILURE`. -/
inductive NssDpRet where
  | success
  | failure
  deriving DecidableEq, Repr

/-- `struct nss_dp_data_plane_ctx`, with the number of the port for its net device. -/
structure NssDpDataPlaneCtx where
  dev : Option Nat
  deriving DecidableEq, Repr

end NssDp
