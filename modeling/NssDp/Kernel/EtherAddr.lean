import Mathlib.Tactic.Common

/-!
# MAC addresses

The six bytes of an address, in the order in which they are in memory.
-/

namespace NssDp

@[ext]
structure EtherAddr where
  b0 : BitVec 8
  b1 : BitVec 8
  b2 : BitVec 8
  b3 : BitVec 8
  b4 : BitVec 8
  b5 : BitVec 8
  deriving DecidableEq, Repr

namespace EtherAddr

def zero : EtherAddr := ⟨0, 0, 0, 0, 0, 0⟩

/-- `is_multicast_ether_addr`. -/
def isMulticast (a : EtherAddr) : Bool := a.b0 &&& 1#8 ≠ 0#8

/-- `is_valid_ether_addr`. -/
def isValid (a : EtherAddr) : Bool := !a.isMulticast && a ≠ zero

end EtherAddr

end NssDp
