import Mathlib.Data.List.Basic
import NssDp.Kernel.SkBuff

/-!
# Receive buffers

A buffer of a receive ring is empty until the device has written to it, so of `struct
sk_buff` only its identity and the room behind its data are left. The calls on receive
buffers that other code can observe are listed in order: where each comes from, its mappings,
and where it goes.
-/

namespace NssDp

/-- An empty `struct sk_buff`; `tailroom` bytes may be put behind its data. -/
structure RxSkb where
  id : Nat
  tailroom : Nat
  deriving DecidableEq, Repr

/-- `skb_put(skb, len)` runs into `skb_over_panic`. A negative `len` is a large unsigned
    number that wraps the tail round and passes the check. -/
def RxSkb.putOverflows (skb : RxSkb) (len : Int) : Bool := (skb.tailroom : Int) < len

/-- The calls into the kernel that allocate, map, deliver and free receive buffers.
    `napiGroReceive`, `netifReceiveSkb` and `nssPhyTstampRxBuf` hand the buffer to other code
    with `len` bytes in it. -/
inductive RxEvent where
  | allocSkb (skb : RxSkb)
  | dmaMapSingle (dev : DmaDev) (addr : BitVec 32) (len : Nat) (dir : DmaDir)
  | dmaUnmapSingle (dev : DmaDev) (addr : BitVec 32) (len : Nat) (dir : DmaDir)
  | napiGroReceive (skb : RxSkb) (len : Int)
  | netifReceiveSkb (netdev : Nat) (skb : RxSkb) (len : Int)
  | nssPhyTstampRxBuf (netdev : Nat) (skb : RxSkb) (len : Int)
  | devKfreeSkb (skb : RxSkb)
  deriving DecidableEq, Repr

/-- The buffer a call brings into the driver. -/
def RxEvent.allocated : RxEvent → Option RxSkb
  | .allocSkb skb => some skb
  | _ => none

/-- The buffer a call gives to the stack. -/
def RxEvent.delivered : RxEvent → Option RxSkb
  | .napiGroReceive skb _ | .netifReceiveSkb _ skb _ | .nssPhyTstampRxBuf _ skb _ => some skb
  | _ => none

/-- The device a call gives a buffer to. -/
def RxEvent.receiver : RxEvent → Option Nat
  | .netifReceiveSkb netdev _ _ | .nssPhyTstampRxBuf netdev _ _ => some netdev
  | _ => none

/-- The buffer a call frees. -/
def RxEvent.freed : RxEvent → Option RxSkb
  | .devKfreeSkb skb => some skb
  | _ => none

/-- The buffer that leaves the driver with a call. -/
def RxEvent.left (e : RxEvent) : Option RxSkb := e.delivered.or e.freed

/-- The buffers allocated by a sequence of calls, in order. -/
def allocatedSkbs (events : List RxEvent) : List RxSkb := events.filterMap RxEvent.allocated

/-- The buffers that leave the driver in a sequence of calls, in order. -/
def leftSkbs (events : List RxEvent) : List RxSkb := events.filterMap RxEvent.left

/-- The buffers that are allocated and mapped at once in a sequence of calls, in order. -/
def mappedSkbs : List RxEvent → List (RxSkb × BitVec 32)
  | .allocSkb skb :: .dmaMapSingle _ addr _ _ :: es => (skb, addr) :: mappedSkbs es
  | _ :: es => mappedSkbs es
  | [] => []

/-- The calls that directly follow the unmapping of a buffer, with its address, in order. -/
def handedSkbs : List RxEvent → List (BitVec 32 × RxEvent)
  | .dmaUnmapSingle _ addr _ _ :: e :: es => (addr, e) :: handedSkbs es
  | _ :: es => handedSkbs es
  | [] => []

/-- A device is given a buffer only by a call that delivers one. -/
theorem RxEvent.receiver_of_delivered {e : RxEvent} (h : e.delivered = none) :
    e.receiver = none := by
  cases e with
  | netifReceiveSkb | nssPhyTstampRxBuf => cases h
  | _ => rfl

@[simp] theorem allocatedSkbs_nil : allocatedSkbs [] = [] := rfl

@[simp] theorem allocatedSkbs_append (xs ys : List RxEvent) :
    allocatedSkbs (xs ++ ys) = allocatedSkbs xs ++ allocatedSkbs ys := List.filterMap_append

@[simp] theorem leftSkbs_nil : leftSkbs [] = [] := rfl

@[simp] theorem leftSkbs_append (xs ys : List RxEvent) :
    leftSkbs (xs ++ ys) = leftSkbs xs ++ leftSkbs ys := List.filterMap_append

end NssDp
