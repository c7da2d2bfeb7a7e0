import NssDp.Misc.Word

/-!
# Socket buffers and the kernel calls the data planes make on them

What the two data planes read of `struct sk_buff`, and the calls on it that other code can
observe: DMA mappings, unmappings and frees. `id` is the identity of the buffer, so a freed
buffer and its successor at the same address are different buffers. A DMA address is a
32-bit word: both data planes leave the devices at a 32-bit DMA mask, so `dma_map_single`
returns no address above it.
-/

namespace NssDp

open Word

/-- The fields of `struct sk_buff` that the data planes read. The linear data is `payload`,
    starting at the virtual address `data`; `dataLen` bytes follow in fragments. -/
structure SkBuff where
  id : Nat
  data : Nat
  headroom : Nat
  payload : List (BitVec 8)
  dataLen : Nat
  nrFrags : Nat
  cloned : Bool
  csumPartial : Bool
  hwTstamp : Bool
  queueMapping : Nat
  deriving DecidableEq, Repr

namespace SkBuff

/-- `skb->len`, an `unsigned int`. -/
def len (skb : SkBuff) : Nat := u32 (skb.payload.length + skb.dataLen)

/-- `skb_headlen`: `skb->len - skb->data_len`. -/
def headlen (skb : SkBuff) : Nat := u32Sub skb.len (u32 skb.dataLen)

/-- `skb_is_nonlinear`. -/
def isNonlinear (skb : SkBuff) : Bool := skb.dataLen != 0

/-- The length of the linear data is what `skb_headlen` returns. -/
theorem headlen_eq (skb : SkBuff) : skb.headlen = u32 skb.payload.length := by
  simp only [headlen, len, u32Sub, u32]
  omega

/-- `skb_push(skb, bytes.length)` followed by writing `bytes` to the new front. There is
    nothing left to return to where the headroom is too small: `skb_under_panic`. -/
def push (skb : SkBuff) (bytes : List (BitVec 8)) : Option SkBuff :=
  if skb.headroom < bytes.length then none
  else some { skb with
    data := skb.data - bytes.length
    headroom := skb.headroom - bytes.length
    payload := bytes ++ skb.payload }

/-- `memcpy(skb->data, bytes, bytes.length)`. -/
def overwrite (skb : SkBuff) (bytes : List (BitVec 8)) : SkBuff :=
  { skb with payload := bytes ++ skb.payload.drop bytes.length }

/-- `pskb_expand_head(skb, nhead, ntail, GFP_ATOMIC)` where it succeeds: the data moves to a
    new buffer at `data` with `nhead` more bytes of headroom, and is not shared. -/
def expandHead (skb : SkBuff) (nhead data : Nat) : SkBuff :=
  { skb with data, headroom := skb.headroom + nhead, cloned := false }

end SkBuff

/-- The `struct device` a mapping is made for. -/
inductive DmaDev where
  | pdev
  | netdev
  deriving DecidableEq, Repr

/-- `enum dma_data_direction`. -/
inductive DmaDir where
  | toDevice
  | fromDevice
  deriving DecidableEq, Repr

/-- The calls into the kernel that end or begin the ownership of memory, and the delivery of
    a buffer to the PHY driver for timestamping. -/
inductive KernelEvent where
  | dmaMapSingle (dev : DmaDev) (addr : BitVec 32) (len : Nat) (dir : DmaDir)
  | dmaUnmapSingle (dev : DmaDev) (addr : BitVec 32) (len : Nat) (dir : DmaDir)
  | devKfreeSkb (skb : SkBuff)
  | phyTxTstamp (skb : SkBuff)
  deriving DecidableEq, Repr

/-- The buffer a call frees. -/
def KernelEvent.freed : KernelEvent → Option SkBuff
  | .devKfreeSkb skb => some skb
  | _ => none

/-- The buffers freed by a sequence of calls, in order. -/
def freedSkbs (events : List KernelEvent) : List SkBuff := events.filterMap KernelEvent.freed

@[simp] theorem freedSkbs_nil : freedSkbs [] = [] := rfl

@[simp] theorem freedSkbs_append (xs ys : List KernelEvent) :
    freedSkbs (xs ++ ys) = freedSkbs xs ++ freedSkbs ys := List.filterMap_append

@[simp] theorem freedSkbs_map (dev : DmaDev) (addr : BitVec 32) (len : Nat) (dir : DmaDir)
    (xs : List KernelEvent) :
    freedSkbs (.dmaMapSingle dev addr len dir :: xs) = freedSkbs xs := rfl

@[simp] theorem freedSkbs_unmap (dev : DmaDev) (addr : BitVec 32) (len : Nat) (dir : DmaDir)
    (xs : List KernelEvent) :
    freedSkbs (.dmaUnmapSingle dev addr len dir :: xs) = freedSkbs xs := rfl

@[simp] theorem freedSkbs_free (skb : SkBuff) (xs : List KernelEvent) :
    freedSkbs (.devKfreeSkb skb :: xs) = skb :: freedSkbs xs := rfl

@[simp] theorem freedSkbs_tstamp (skb : SkBuff) (xs : List KernelEvent) :
    freedSkbs (.phyTxTstamp skb :: xs) = freedSkbs xs := rfl

/-- `netdev_tx_t`, the answer of a transmit callback to the stack. -/
inductive NetdevTx where
  | ok
  | busy
  deriving DecidableEq, Repr

end NssDp
