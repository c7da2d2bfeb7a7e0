import Mathlib.Data.BitVec
import NssDp.SynGmacDp.Proofs.RxOrder
import NssDp.SynGmacDp.Proofs.RxWork

/-!
# The accounts of a receive port

Each report of the engine is counted once, when a poll takes it, and in the order in which the
engine reports; the frame at which the kernel stops in `skb_put` is counted too. So every buffer
that a refill has posted is in one counter or in the ring.
-/

namespace NssDp.SynGmacDp

open Lts Cyclic Handover

/-- Every report is in one counter. -/
theorem RxStats.frames_account (stats : RxStats) (fill : RxFill) :
    (stats.account fill).frames = stats.frames + 1 := by
  rw [account]
  split
  · exact rxGood_frames _ _
  · exact rxBad_frames _ _

theorem RxStats.frames_foldl (fills : List RxFill) (stats : RxStats) :
    (fills.foldl RxStats.account stats).frames = stats.frames + BitVec.ofNat 64 fills.length := by
  induction fills generalizing stats with
  | nil => exact (BitVec.add_zero _).symm
  | cons fill fills ih =>
    rw [List.foldl_cons, ih, frames_account, List.length_cons, BitVec.ofNat_add]
    ac_rfl

/-- Every busy descriptor has a buffer, the engine's or one that is given back. -/
theorem RxRingInv.length_parts {info : SynDpRxInfo} (h : RxRingInv info) :
    info.received.length + info.postedBufs.length = info.busyRxDesc := by
  have hheld : ∀ i ∈ info.busyWindow, (info.fillAt i).isSome = true := by
    intro i hi
    rw [SynDpRxInfo.fillAt, Option.isSome_map]
    exact (h.held i hi).1
  rw [SynDpRxInfo.received, SynDpRxInfo.postedBufs, List.length_map, ← List.length_append,
    given_append_kept, length_filterMap_of_isSome hheld]
  exact length_window _ _ _

namespace RxOrderInv

/-- The kernel has stopped at one frame, or runs. -/
theorem length_panicked {s : RxRun} (h : RxOrderInv s) :
    s.panicked.length = if s.bug.isSome then 1 else 0 := by
  rw [RxRun.panicked]
  split
  · rename_i hbug
    obtain ⟨fill, rest, hreceived, -⟩ := h.stopped hbug
    rw [hreceived]
    rfl
  · rfl

theorem overruns {s : RxRun} (h : RxOrderInv s) : ∀ fill ∈ s.panicked, fill.Overruns := by
  intro fill hfill
  rw [RxRun.panicked] at hfill
  split at hfill
  · rename_i hbug
    obtain ⟨first, rest, hreceived, hover⟩ := h.stopped hbug
    rw [hreceived] at hfill
    rw [List.mem_singleton.mp hfill]
    exact hover
  · cases hfill

end RxOrderInv

/-- The state with the counters that the reports taken before it have made. -/
structure RxCounted (taken : List RxFill) (s : RxRun) : Prop where
  inv : RxOrderInv s
  stats : s.port.info.stats = (taken ++ s.panicked).foldl RxStats.account RxStats.zero

/-- A step counts what it takes; no step is possible where the kernel has stopped. -/
theorem RxCounted.step {taken : List RxFill} {s t : RxRun} {a : RxLabel} (h : RxCounted taken s)
    (hstep : rxStep s a = some t) : RxCounted (taken ++ s.takes a) t := by
  have hmoves := h.inv.moves hstep
  have hruns : s.panicked = [] := by
    rw [RxRun.panicked]
    unfold rxStep at hstep
    split at hstep
    · cases hstep
    · rename_i hbug
      rw [if_neg hbug]
  have hstats := h.stats
  rw [hruns, List.append_nil] at hstats
  refine ⟨hmoves.next, ?_⟩
  rw [hmoves.stats, hstats, List.append_assoc]
  exact List.foldl_append.symm

section Runs

variable {info : SynDpRxInfo} {allocOk : Bool} {as : List RxLabel} {u : RxRun}

/-- A run counts what it takes. -/
theorem rxPort_counted
    (hsetup : synDpSetupRxDescQueue SynDpRxInfo.zero synDpRxDescSize .ringMode allocOk =
      .ok (0, info)) (hrun : run rxStep (.start info) as = some u) :
    RxCounted (trace rxStep RxRun.takes (.start info) as) u := by
  have hzero : RxCounted [] (.start info) := by
    refine ⟨(RxOrderInv.setup hsetup).1, ?_⟩
    rw [synDpSetupRxDescQueue_ok hsetup]
    rfl
  exact run_trace_inv (fun _ _ _ _ h hstep => h.step hstep) hzero hrun

/-- The reports are those taken and those that are still in the ring. -/
theorem rxPort_taken
    (hsetup : synDpSetupRxDescQueue SynDpRxInfo.zero synDpRxDescSize .ringMode allocOk =
      .ok (0, info)) (hrun : run rxStep (.start info) as = some u) :
    trace rxStep RxRun.fills (.start info) as =
      trace rxStep RxRun.takes (.start info) as ++ u.port.info.received := by
  obtain ⟨hstart, hwindow⟩ := RxOrderInv.setup hsetup
  have hring := received_fifo.run hstart (StepsMeet.of_forall fun _ _ => trivial) hrun
  rwa [RxRun.start, SynDpRxInfo.received, hwindow, given_nil, List.nil_append] at hring

/-- Every buffer posted is in `rx_packets`, in `rx_errors` or in the ring; the one at which the
    kernel has stopped is in two of them. -/
theorem rxPort_counts
    (hsetup : synDpSetupRxDescQueue SynDpRxInfo.zero synDpRxDescSize .ringMode allocOk =
      .ok (0, info)) (hrun : run rxStep (.start info) as = some u) :
    BitVec.ofNat 64 ((trace rxStep RxRun.posts (.start info) as).length + u.panicked.length) =
      u.port.info.stats.rxPackets + u.port.info.stats.rxErrors +
        BitVec.ofNat 64 u.port.info.busyRxDesc := by
  obtain ⟨hstart, hwindow⟩ := RxOrderInv.setup hsetup
  have hcounted := rxPort_counted hsetup hrun
  have hposted := congrArg List.length
    (posted_fifo.run hstart (StepsMeet.of_forall fun _ _ => trivial) hrun)
  rw [trace_map, List.length_append, List.length_append, List.length_map,
    show (RxRun.start info).port.info.postedBufs = [] by
      rw [RxRun.start, SynDpRxInfo.postedBufs, hwindow]
      rfl] at hposted
  have hlength := congrArg List.length (rxPort_taken hsetup hrun)
  rw [List.length_append] at hlength
  have hframes := RxStats.frames_foldl
    (trace rxStep RxRun.takes (.start info) as ++ u.panicked) RxStats.zero
  rw [← hcounted.stats] at hframes
  have hframes : u.port.info.stats.rxPackets + u.port.info.stats.rxErrors =
      BitVec.ofNat 64 (trace rxStep RxRun.takes (.start info) as ++ u.panicked).length :=
    hframes.trans (BitVec.zero_add _)
  have hbusy := hcounted.inv.run.port.ring.length_parts
  rw [hframes, ← BitVec.ofNat_add, List.length_append]
  congr 1
  rw [List.length_nil] at hposted
  omega

end Runs

/-- Four buffers are posted, the third of 40 bytes; a good frame, one with a wrong checksum and
    another good one arrive, and a poll stops at the third. -/
def stoppedAtThird : List RxLabel :=
  [.refill [.mapped ⟨0, 2000⟩ 0x1000#32, .mapped ⟨1, 2000⟩ 0x2000#32, .mapped ⟨2, 40⟩ 0x3000#32,
      .mapped ⟨3, 2000⟩ 0x4000#32],
    .dma ⟨0x00400300#32, 0#32, 0#32, 0#32⟩, .dma ⟨0x00008302#32, 0#32, 0#32, 0#32⟩,
    .dma ⟨0x00400300#32, 0#32, 0#32, 0#32⟩, .rx 64]

end NssDp.SynGmacDp
