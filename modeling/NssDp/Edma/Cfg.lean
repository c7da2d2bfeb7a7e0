import NssDp.Edma.Hw

/-!
# The setup of the EDMA rings

`edma_init_rings` and what it calls (`hal/edma/edma_cfg.c`), as the sequence of what is done to
the ring arrays and to the rings in them. The hardware indices of every ring are equal, as
after a reset, so the release of a ring finds no buffers and frees its descriptors only.
-/

namespace NssDp.Edma

def eNoMem : Int := -12

/-- What the setup does. A ring is given by its index in the array of its kind, which the code
    keeps in an `int`. -/
inductive RingOp where
  | kzalloc (kind : RingKind)
  | kfree (kind : RingKind)
  | assign (kind : RingKind) (ring : Int)
  | mapRxfill (rxdesc rxfill : Int)
  | dmaAllocCoherent (kind : RingKind) (ring : Int)
  | cleanup (kind : RingKind) (ring : Int)
  deriving DecidableEq, Repr

/-- Which allocations succeed: those of the ring arrays, and those of the descriptors. -/
structure RingEnv where
  array : RingKind → Bool
  desc : RingKind → Nat → Bool

/-- One of the four allocation loops of `edma_setup_ring_resources`, with `left` rings to go
    from ring `i` on, and the ring whose allocation fails. `pre` is what is done to a ring
    before. -/
def setupRings (pre : Nat → List RingOp) (kind : RingKind) (ok : Nat → Bool) :
    Nat → Nat → List RingOp × Option Nat
  | 0, _ => ([], none)
  | left + 1, i =>
    if ok i then
      let rest := setupRings pre kind ok left (i + 1)
      (pre i ++ .dmaAllocCoherent kind i :: rest.1, rest.2)
    else (pre i, some i)

/-- `while (i-- >= 0)`, the unwinding of the two transmit loops. -/
def unwindPost (kind : RingKind) : Nat → List RingOp
  | 0 => [.cleanup kind (-1)]
  | i + 1 => .cleanup kind i :: unwindPost kind i

/-- `while (--i >= 0)`, the unwinding of the two receive loops. -/
def unwindPre (kind : RingKind) : Nat → List RingOp
  | 0 => []
  | i + 1 => .cleanup kind i :: unwindPre kind i

/-- A loop over all rings of a kind at one of the labels. -/
def cleanupRings (n : RingKind → Nat) (kind : RingKind) : List RingOp :=
  (List.range (n kind)).map fun i : Nat => .cleanup kind i

/-- The number and the size of a ring are set. -/
def assignRing (kind : RingKind) (i : Nat) : List RingOp := [.assign kind i]

/-- An RXDESC ring is also given the RXFILL ring it shares with others. -/
def assignRxdesc (n : RingKind → Nat) (i : Nat) : List RingOp :=
  [.assign .rxdesc i, .mapRxfill i ((i % n .rxfill : Nat) : Int)]

/-- `edma_setup_ring_resources` (`edma_cfg.c:331-440`) with `n` rings of each kind. -/
def edmaSetupRingResources (n : RingKind → Nat) (env : RingEnv) : Int × List RingOp :=
  let txdesc := setupRings (assignRing .txdesc) .txdesc (env.desc .txdesc) (n .txdesc) 0
  match txdesc.2 with
  | some i => (eNoMem, txdesc.1 ++ unwindPost .txdesc i)
  | none =>
    let txcmpl := setupRings (assignRing .txcmpl) .txcmpl (env.desc .txcmpl) (n .txcmpl) 0
    match txcmpl.2 with
    | some i =>
      (eNoMem, txdesc.1 ++ txcmpl.1 ++ unwindPost .txcmpl i ++ cleanupRings n .txdesc)
    | none =>
      let rxfill := setupRings (assignRing .rxfill) .rxfill (env.desc .rxfill) (n .rxfill) 0
      match rxfill.2 with
      | some i =>
        (eNoMem, txdesc.1 ++ txcmpl.1 ++ rxfill.1 ++ unwindPre .rxfill i ++
          cleanupRings n .txcmpl ++ cleanupRings n .txdesc)
      | none =>
        let rxdesc := setupRings (assignRxdesc n) .rxdesc (env.desc .rxdesc) (n .rxdesc) 0
        match rxdesc.2 with
        | some i =>
          (eNoMem, txdesc.1 ++ txcmpl.1 ++ rxfill.1 ++ rxdesc.1 ++ unwindPre .rxdesc i ++
            cleanupRings n .rxfill ++ cleanupRings n .txcmpl ++ cleanupRings n .txdesc)
        | none => (0, txdesc.1 ++ txcmpl.1 ++ rxfill.1 ++ rxdesc.1)

/-- `edma_alloc_rings` (`edma_cfg.c:458-500`). -/
def edmaAllocRings (env : RingEnv) : Int × List RingOp :=
  if !env.array .rxfill then (eNoMem, [])
  else if !env.array .rxdesc then (eNoMem, [.kzalloc .rxfill, .kfree .rxfill])
  else if !env.array .txdesc then
    (eNoMem, [.kzalloc .rxfill, .kzalloc .rxdesc, .kfree .rxdesc, .kfree .rxfill])
  else if !env.array .txcmpl then
    (eNoMem, [.kzalloc .rxfill, .kzalloc .rxdesc, .kzalloc .txdesc, .kfree .txdesc,
      .kfree .rxdesc, .kfree .rxfill])
  else (0, [.kzalloc .rxfill, .kzalloc .rxdesc, .kzalloc .txdesc, .kzalloc .txcmpl])

/-- `edma_init_rings` (`edma_cfg.c:541-554`). -/
def edmaInitRings (n : RingKind → Nat) (env : RingEnv) : Int × List RingOp :=
  let alloc := edmaAllocRings env
  if alloc.1 ≠ 0 then alloc
  else
    let setup := edmaSetupRingResources n env
    (setup.1, alloc.2 ++ setup.2)

end NssDp.Edma
