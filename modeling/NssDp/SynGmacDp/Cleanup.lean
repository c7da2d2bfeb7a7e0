import NssDp.SynGmacDp.Rx

/-!
# The cleanup of the two rings of a Synopsys port

`syn_dp_cleanup_rings` (`hal/syn_gmac_dp/syn_dp_cfg.c`): one loop for each ring, with a turn
for each busy descriptor, and what each turn unmaps and frees. The descriptors themselves,
which are freed after a loop, are no part of the model.
-/

namespace NssDp.SynGmacDp

open Word

/-- A turn of a cleanup loop: the descriptor it reads, and the buffer it finds and frees. -/
structure CleanupTurn (β : Type*) where
  desc : Nat
  skb : Option β

/-- `turns` turns of a cleanup loop (`syn_dp_cfg.c:151-164`, `:174-187`) on a ring of `descCount`
    descriptors, from `skbIndex` on, with what is left in `skbList`. The index is masked but not
    moved on, and the descriptor is the cached one. -/
def cleanupLoop {β : Type*} (descCount busyDesc : Nat) :
    Nat → Nat → (Nat → Option β) → List (CleanupTurn β) × (Nat → Option β)
  | 0, _, skbList => ([], skbList)
  | turns + 1, skbIndex, skbList =>
    let skbIndex := skbIndex &&& u32Sub descCount 1
    let rest := cleanupLoop descCount busyDesc turns skbIndex
      (Function.update skbList skbIndex none)
    (⟨busyDesc, skbList skbIndex⟩ :: rest.1, rest.2)

/-- What the cleanup leaves in the two lists, and the turns of its two loops. -/
structure RingsCleanup where
  rxSkbList : Nat → Option RxSkb
  txSkbList : Nat → Option SkBuff
  rxTurns : List (CleanupTurn RxSkb)
  txTurns : List (CleanupTurn SkBuff)

/-- `syn_dp_cleanup_rings` (`syn_dp_cfg.c:136-195`). -/
def synDpCleanupRings (rx : SynDpRxInfo) (tx : SynDpTxInfo) : RingsCleanup :=
  let rxLoop := cleanupLoop rx.rxDescCount rx.rxBusyDesc rx.busyRxDesc rx.rxBusy rx.rxSkbList
  let txLoop := cleanupLoop tx.txDescCount tx.txBusyDesc tx.busyTxDesc tx.txBusy tx.txSkbList
  ⟨rxLoop.2, txLoop.2, rxLoop.1, txLoop.1⟩

/-- The calls of a turn on the receive ring. -/
def rxTurnCalls (rx : SynDpRxInfo) (turn : CleanupTurn RxSkb) : List RxEvent :=
  .dmaUnmapSingle .netdev (rx.rxDesc turn.desc).buffer1 synDpMiniJumboFrameMtu .fromDevice ::
    turn.skb.toList.map .devKfreeSkb

/-- The calls of a turn on the transmit ring, which has the length and the direction of the
    receive ring. -/
def txTurnCalls (tx : SynDpTxInfo) (turn : CleanupTurn SkBuff) : List KernelEvent :=
  .dmaUnmapSingle .netdev (tx.txDesc turn.desc).buffer1 synDpMiniJumboFrameMtu .fromDevice ::
    turn.skb.toList.map .devKfreeSkb

/-- The descriptors that a loop reads, one a turn. -/
def visitedDescs {β : Type*} (turns : List (CleanupTurn β)) : List Nat :=
  turns.map CleanupTurn.desc

/-- The buffers that a loop frees, in order. -/
def turnSkbs {β : Type*} (turns : List (CleanupTurn β)) : List β :=
  turns.filterMap CleanupTurn.skb

/-- Where the index is inside the ring, every turn after the first finds what the first left. -/
theorem cleanupLoop_eq {β : Type*} {descCount busyDesc skbIndex : Nat}
    (hindex : skbIndex &&& u32Sub descCount 1 = skbIndex) (turns : Nat)
    (skbList : Nat → Option β) :
    cleanupLoop descCount busyDesc (turns + 1) skbIndex skbList =
      (⟨busyDesc, skbList skbIndex⟩ :: List.replicate turns ⟨busyDesc, none⟩,
        Function.update skbList skbIndex none) := by
  induction turns generalizing skbList with
  | zero => simp only [cleanupLoop, hindex, List.replicate_zero]
  | succ turns ih =>
    rw [cleanupLoop]
    simp only [hindex, ih, Function.update_self, Function.update_idem, List.replicate_succ]

end NssDp.SynGmacDp
