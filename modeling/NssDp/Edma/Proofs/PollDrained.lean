import Mathlib.Algebra.Order.BigOperators.Group.List
import Mathlib.Algebra.Order.Ring.Nat
import Mathlib.Algebra.Group.Action.Defs
import NssDp.Edma.Proofs.PollPieces
import NssDp.Misc.Fifo

/-!
# How a poll leaves its rings

A poll leaves the loop over an RXDESC ring where its consumer index has met the producer index
or where the ring has had the whole budget, and it takes all the completions there are. The
hardware goes on while it does so. A poll that returns less than its budget, and is not called
again before an interrupt, has seen every RXDESC ring empty, and has told the hardware so.
-/

namespace NssDp.Edma

open Lts

/-- How the loop over an RXDESC ring ends: with the locals of the call and the producer index
    that it has read last. -/
structure RxSeen where
  ring : Nat
  call : CleanRx
  prodIdx : Nat
  deriving DecidableEq, Repr

/-- The loop over an RXDESC ring that a piece ends. -/
def rxSeen (s : PollRun) : PollLabel → List RxSeen
  | .hw _ => []
  | .next _ =>
    match s.pc with
    | .rxLoop i call =>
      if FrameFound (s.dev.rxOf i) call then [] else [⟨i, call, (s.dev.rxOf i).descProd⟩]
    | _ => []

/-- The TXCMPL ring that a piece reaps, with the producer index that it reads. -/
def txSeen (s : PollRun) : PollLabel → List (Nat × Nat)
  | .hw _ => []
  | .next _ =>
    match s.pc with
    | .tx i => if i < s.dev.ehw.txcmplRings then [(i, s.dev.ehw.cmplProd i)] else []
    | _ => []

/-- The rings of each kind that a poll has been through. -/
def PollPc.rxThrough (rings : Nat) : PollPc → Nat
  | .rxStart i | .rxLoop i _ => i
  | .rxEnd i _ => i + 1
  | _ => rings

def PollPc.txThrough (rings : Nat) : PollPc → Nat
  | .rxStart _ | .rxLoop .. | .rxEnd .. => 0
  | .tx i => i
  | _ => rings

def PollPc.fillThrough (rings : Nat) : PollPc → Nat
  | .rxStart _ | .rxLoop .. | .rxEnd .. | .tx _ => 0
  | .fill i => i
  | _ => rings

/-- The rings of the last two kinds, each of which adds at most `2 ^ 16` to the work done. -/
def PollRun.others (s : PollRun) : Nat :=
  s.pc.txThrough s.dev.ehw.txcmplRings + s.pc.fillThrough s.dev.ehw.rxfillRings

/-- The loop that has ended, where its work is not yet added to the work done. -/
def PollPc.ended : PollPc → Option (Nat × CleanRx)
  | .rxEnd i call => some (i, call)
  | _ => none

def PollPc.pending (pc : PollPc) : Nat := pc.ended.elim 0 fun p => p.2.workDone

theorem PollPc.ended_eq_some {pc : PollPc} {i : Nat} {call : CleanRx} :
    pc.ended = some (i, call) ↔ pc = .rxEnd i call := by
  cases pc <;> simp [PollPc.ended]

/-- The poll has been through rings that are there, and the loop that it is in has its budget. -/
structure PollPlace (budget : Nat) (s : PollRun) : Prop where
  rx : s.pc.rxThrough s.dev.ehw.rxdescRings ≤ s.dev.ehw.rxdescRings
  tx : s.pc.txThrough s.dev.ehw.txcmplRings ≤ s.dev.ehw.txcmplRings
  fill : s.pc.fillThrough s.dev.ehw.rxfillRings ≤ s.dev.ehw.rxfillRings
  loop : ∀ i call, s.pc = .rxLoop i call → i < s.dev.ehw.rxdescRings ∧ call.workToDo = budget ∧
    call.workDone ≤ rxBudget budget

section Place

variable {maxGmacs budget work : Nat} {s t : PollRun} {written : List EdmaReg} {pc : PollPc}

theorem PollGoes.place (hgo : PollGoes written s t pc work)
    (hrx : pc.rxThrough s.dev.ehw.rxdescRings ≤ s.dev.ehw.rxdescRings)
    (htx : pc.txThrough s.dev.ehw.txcmplRings ≤ s.dev.ehw.txcmplRings)
    (hfill : pc.fillThrough s.dev.ehw.rxfillRings ≤ s.dev.ehw.rxfillRings)
    (hloop : ∀ i call, pc = .rxLoop i call → i < s.dev.ehw.rxdescRings ∧
      call.workToDo = budget ∧ call.workDone ≤ rxBudget budget) : PollPlace budget t := by
  refine ⟨?_, ?_, ?_, ?_⟩
  · rwa [hgo.pc, hgo.kept.rxdescRings]
  · rwa [hgo.pc, hgo.kept.txcmplRings]
  · rwa [hgo.pc, hgo.kept.rxfillRings]
  · rwa [hgo.pc, hgo.kept.rxdescRings]

theorem PollPiece.place (h : PollPiece maxGmacs budget s t) (hs : PollPlace budget s) :
    PollPlace budget t := by
  cases h with
  | rxOpen i hpc hi cons hgo =>
    refine hgo.place (Nat.le_of_lt hi) (Nat.zero_le _) (Nat.zero_le _) ?_
    rintro _ _ ⟨⟩
    exact ⟨hi, rfl, Nat.zero_le _⟩
  | rxFrame i call hpc hfound cons hgo =>
    obtain ⟨hi, hbudget, -⟩ := hs.loop i call hpc
    refine hgo.place (Nat.le_of_lt hi) (Nat.zero_le _) (Nat.zero_le _) ?_
    rintro _ _ ⟨⟩
    refine ⟨hi, hbudget, ?_⟩
    rw [rxBudget, ← hbudget]
    exact hfound.2
  | rxDone i call hpc hnone hgo =>
    obtain ⟨hi, -⟩ := hs.loop i call hpc
    exact hgo.place hi (Nat.zero_le _) (Nat.zero_le _) fun _ _ => PollPc.noConfusion
  | rxClose i call hpc hgo hcons =>
    have hi := hs.rx
    rw [hpc] at hi
    exact hgo.place hi (Nat.zero_le _) (Nat.zero_le _) fun _ _ => PollPc.noConfusion
  | rxOver i hpc hi hgo =>
    exact hgo.place le_rfl (Nat.zero_le _) (Nat.zero_le _) fun _ _ => PollPc.noConfusion
  | txClean i hpc hi k hk hgo hcons =>
    exact hgo.place le_rfl hi (Nat.zero_le _) fun _ _ => PollPc.noConfusion
  | txOver i hpc hi hgo =>
    exact hgo.place le_rfl le_rfl (Nat.zero_le _) fun _ _ => PollPc.noConfusion
  | fill i hpc hi k hk hgo => exact hgo.place le_rfl le_rfl hi fun _ _ => PollPc.noConfusion
  | fillOver i hpc hi hgo => exact hgo.place le_rfl le_rfl le_rfl fun _ _ => PollPc.noConfusion
  | resume i hpc hi hgo => exact hgo.place le_rfl le_rfl le_rfl fun _ _ => PollPc.noConfusion
  | resumeOver i hpc hi hgo => exact hgo.place le_rfl le_rfl le_rfl fun _ _ => PollPc.noConfusion
  | finish hpc hgo => exact hgo.place le_rfl le_rfl le_rfl fun _ _ => PollPc.noConfusion

end Place

/-- What is known of the RXDESC rings that a poll on `dev` has left, and of the work done. -/
structure RxHist (dev : EdmaPoll) (budget : Nat) (l : List RxSeen) (s : PollRun) : Prop where
  kept : ∃ written, RingsKept written dev.ehw s.dev.ehw
  place : PollPlace budget s
  rings : l.map RxSeen.ring = List.range (s.pc.rxThrough dev.ehw.rxdescRings)
  left : ∀ x ∈ l, x.call.workDone ≤ rxBudget budget ∧
    (x.call.consIdx = x.prodIdx ∨ x.call.workDone = rxBudget budget)
  current : ∀ i call, s.pc = .rxEnd i call → ∀ x ∈ l, x.ring = i → x.call = call
  told : ∀ x ∈ l, s.pc ≠ .rxEnd x.ring x.call →
    s.dev.ehw.regs (.rxdescConsIdx (dev.ehw.rxdescRing x.ring).id) =
      BitVec.ofNat 32 x.call.consIdx
  work : ∃ other ≤ 2 ^ 16 * s.others, s.workDone + BitVec.ofNat 32 s.pc.pending =
    BitVec.ofNat 32 ((l.map fun x => x.call.workDone).sum + other)

section Hist

variable {dev : EdmaPoll} {maxGmacs budget work : Nat} {s t : PollRun} {l : List RxSeen}
variable {written : List EdmaReg} {pc : PollPc} {allocs : List EdmaRxAlloc}

/-- A piece that leaves no RXDESC ring and tells the hardware of none. -/
theorem RxHist.goes (h : RxHist dev budget l s) (hgo : PollGoes written s t pc work)
    (hplace : PollPlace budget t)
    (hrx : pc.rxThrough dev.ehw.rxdescRings = s.pc.rxThrough dev.ehw.rxdescRings)
    (hended : pc.ended = s.pc.ended) (hwritten : ∀ n, EdmaReg.rxdescConsIdx n ∉ written)
    (hwork : 2 ^ 16 * s.others + work ≤ 2 ^ 16 * t.others) : RxHist dev budget l t := by
  obtain ⟨before, hkept⟩ := h.kept
  have hend : ∀ i call, pc = .rxEnd i call ↔ s.pc = .rxEnd i call := by
    intro i call
    rw [← PollPc.ended_eq_some, hended, PollPc.ended_eq_some]
  refine ⟨⟨_, hkept.trans hgo.kept⟩, hplace, ?_, h.left, ?_, ?_, ?_⟩
  · rw [hgo.pc, hrx]
    exact h.rings
  · intro i call hpc
    rw [hgo.pc] at hpc
    exact h.current i call ((hend i call).mp hpc)
  · intro x hx hpc
    rw [hgo.kept.consIdx _ rfl (hwritten _)]
    rw [hgo.pc] at hpc
    exact h.told x hx fun hs => hpc ((hend _ _).mpr hs)
  · obtain ⟨other, hother, hsum⟩ := h.work
    refine ⟨other + work, by omega, ?_⟩
    rw [hgo.pc, hgo.work, PollPc.pending, hended, ← Nat.add_assoc, BitVec.ofNat_add, ← hsum]
    exact add_right_comm _ _ _

/-- The rings that have been left are different ones. -/
theorem RxHist.ring_lt (h : RxHist dev budget l s) {x : RxSeen} (hx : x ∈ l) :
    x.ring < s.pc.rxThrough dev.ehw.rxdescRings := by
  rw [← List.mem_range, ← h.rings]
  exact List.mem_map_of_mem hx

/-- The loop over an RXDESC ring ends. -/
theorem RxHist.leave (h : RxHist dev budget l s) {i : Nat} {call : CleanRx}
    (hpc : s.pc = .rxLoop i call) (hnone : ¬ FrameFound (s.dev.rxOf i) call)
    (hgo : PollGoes [] s t (.rxEnd i call) 0) (hplace : PollPlace budget t) :
    RxHist dev budget (l ++ [⟨i, call, (s.dev.rxOf i).descProd⟩]) t := by
  obtain ⟨before, hkept⟩ := h.kept
  obtain ⟨-, hbudget, hle⟩ := h.place.loop i call hpc
  have hlt : ∀ x ∈ l, x.ring < i := by
    intro x hx
    have := h.ring_lt hx
    rwa [hpc] at this
  refine ⟨⟨_, hkept.trans hgo.kept⟩, hplace, ?_, ?_, ?_, ?_, ?_⟩
  · rw [hgo.pc, List.map_append, h.rings, hpc]
    exact List.range_succ.symm
  · intro x hx
    rw [List.mem_append, List.mem_singleton] at hx
    rcases hx with hx | rfl
    · exact h.left x hx
    · refine ⟨hle, ?_⟩
      rw [FrameFound, not_and_or, not_not, Nat.not_lt, hbudget] at hnone
      exact hnone.imp_right fun hused => Nat.le_antisymm hle hused
  · intro j call' hend x hx hring
    rw [hgo.pc] at hend
    cases hend
    rw [List.mem_append, List.mem_singleton] at hx
    rcases hx with hx | rfl
    · exact absurd hring (Nat.ne_of_lt (hlt x hx))
    · rfl
  · intro x hx hend
    rw [List.mem_append, List.mem_singleton] at hx
    rcases hx with hx | rfl
    · rw [hgo.kept.consIdx _ rfl List.not_mem_nil]
      exact h.told x hx (by rw [hpc]; exact PollPc.noConfusion)
    · exact absurd hgo.pc hend
  · obtain ⟨other, hother, hsum⟩ := h.work
    refine ⟨other, ?_, ?_⟩
    · rw [PollRun.others, hpc] at hother
      exact hother.trans (Nat.mul_le_mul_left _ (Nat.zero_le _))
    · rw [hpc] at hsum
      rw [hgo.pc, hgo.work, List.map_append, List.sum_append, Nat.add_right_comm,
        BitVec.ofNat_add, ← hsum]
      simp [PollPc.pending, PollPc.ended]

/-- The hardware is told how far an RXDESC ring has been emptied. -/
theorem RxHist.tell (h : RxHist dev budget l s) {i : Nat} {call : CleanRx}
    (hids : ∀ i < dev.ehw.rxdescRings, ∀ j < dev.ehw.rxdescRings,
      (dev.ehw.rxdescRing i).id = (dev.ehw.rxdescRing j).id → i = j)
    (hpc : s.pc = .rxEnd i call)
    (hgo : PollGoes [.rxdescConsIdx (s.dev.ehw.rxdescRing i).id] s t (.rxStart (i + 1))
      call.workDone)
    (hcons : t.dev.ehw.regs (.rxdescConsIdx (s.dev.ehw.rxdescRing i).id) =
      BitVec.ofNat 32 call.consIdx) (hplace : PollPlace budget t) : RxHist dev budget l t := by
  obtain ⟨before, hkept⟩ := h.kept
  have hi := h.place.rx
  rw [hpc] at hi
  refine ⟨⟨_, hkept.trans hgo.kept⟩, hplace, ?_, h.left, ?_, ?_, ?_⟩
  · rw [hgo.pc, h.rings, hpc]
    rfl
  · intro j call' hend
    rw [hgo.pc] at hend
    cases hend
  · intro x hx _
    rcases eq_or_ne x.ring i with rfl | hne
    · rw [h.current x.ring call hpc x hx rfl, ← hkept.rxdescRing]
      exact hcons
    · have hne' : EdmaReg.rxdescConsIdx (dev.ehw.rxdescRing x.ring).id ≠
          .rxdescConsIdx (s.dev.ehw.rxdescRing i).id := by
        rw [hkept.rxdescRing]
        intro heq
        have hlt := h.ring_lt hx
        rw [hpc] at hlt
        rw [hkept.rxdescRings] at hi
        exact hne (hids x.ring (Nat.lt_of_lt_of_le hlt hi) i hi (EdmaReg.rxdescConsIdx.inj heq))
      rw [hgo.kept.consIdx _ rfl (fun hmem => hne' (List.mem_singleton.mp hmem))]
      apply h.told x hx
      rw [hpc]
      intro heq
      exact hne (PollPc.rxEnd.inj heq).1.symm
  · obtain ⟨other, hother, hsum⟩ := h.work
    refine ⟨other, ?_, ?_⟩
    · rw [PollRun.others, hpc] at hother
      exact hother.trans (Nat.mul_le_mul_left _ (Nat.zero_le _))
    · rw [← hsum, hgo.pc, hgo.work, hpc]
      exact BitVec.add_zero _

/-- A piece of the poll. -/
theorem RxHist.piece (h : RxHist dev budget l s)
    (hids : ∀ i < dev.ehw.rxdescRings, ∀ j < dev.ehw.rxdescRings,
      (dev.ehw.rxdescRing i).id = (dev.ehw.rxdescRing j).id → i = j)
    (hpiece : PollPiece maxGmacs budget s t) :
    RxHist dev budget (l ++ rxSeen s (.next allocs)) t := by
  have hplace := hpiece.place h.place
  have hskip : rxSeen s (.next allocs) = [] → RxHist dev budget l t →
      RxHist dev budget (l ++ rxSeen s (.next allocs)) t := by
    intro hseen ht
    rwa [hseen, List.append_nil]
  obtain ⟨_, hkept⟩ := h.kept
  cases hpiece with
  | rxOpen i hpc hi cons hgo =>
    refine hskip (by simp only [rxSeen, hpc]) (h.goes hgo hplace ?_ ?_ nofun ?_)
    · rw [hpc]; rfl
    · rw [hpc]; rfl
    · rw [PollRun.others, hpc]; exact Nat.zero_le _
  | rxFrame i call hpc hfound cons hgo =>
    refine hskip (by simp only [rxSeen, hpc, if_pos hfound])
      (h.goes hgo hplace ?_ ?_ nofun ?_)
    · rw [hpc]; rfl
    · rw [hpc]; rfl
    · rw [PollRun.others, hpc]; exact Nat.zero_le _
  | rxDone i call hpc hnone hgo =>
    have hseen : rxSeen s (.next allocs) = [⟨i, call, (s.dev.rxOf i).descProd⟩] := by
      simp only [rxSeen, hpc, if_neg hnone]
    rw [hseen]
    exact h.leave hpc hnone hgo hplace
  | rxClose i call hpc hgo hcons =>
    exact hskip (by simp only [rxSeen, hpc]) (h.tell hids hpc hgo hcons hplace)
  | rxOver i hpc hi hgo =>
    have hle := h.place.rx
    rw [hpc] at hle
    refine hskip (by simp only [rxSeen, hpc]) (h.goes hgo hplace ?_ ?_ nofun ?_)
    · rw [hpc, ← hkept.rxdescRings]; exact Nat.le_antisymm hi hle
    · rw [hpc]; rfl
    · rw [PollRun.others, hpc]; exact Nat.zero_le _
  | txClean i hpc hi k hk hgo hcons =>
    refine hskip (by simp only [rxSeen, hpc]) (h.goes hgo hplace ?_ ?_ (by simp) ?_)
    · rw [hpc]; rfl
    · rw [hpc]; rfl
    · simp only [PollRun.others, hpc, hgo.pc, PollPc.txThrough, PollPc.fillThrough]; omega
  | txOver i hpc hi hgo =>
    refine hskip (by simp only [rxSeen, hpc]) (h.goes hgo hplace ?_ ?_ nofun ?_)
    · rw [hpc]; rfl
    · rw [hpc]; rfl
    · have hle := h.place.tx
      rw [hpc] at hle
      simp only [PollRun.others, hpc, hgo.pc, PollPc.txThrough, PollPc.fillThrough,
        hgo.kept.txcmplRings] at hle ⊢
      omega
  | fill i hpc hi k hk hgo =>
    refine hskip (by simp only [rxSeen, hpc]) (h.goes hgo hplace ?_ ?_ nofun ?_)
    · rw [hpc]; rfl
    · rw [hpc]; rfl
    · simp only [PollRun.others, hpc, hgo.pc, PollPc.txThrough, PollPc.fillThrough,
        hgo.kept.txcmplRings]
      omega
  | fillOver i hpc hi hgo =>
    refine hskip (by simp only [rxSeen, hpc]) (h.goes hgo hplace ?_ ?_ nofun ?_)
    · rw [hpc]; rfl
    · rw [hpc]; rfl
    · have hle := h.place.fill
      rw [hpc] at hle
      simp only [PollRun.others, hpc, hgo.pc, PollPc.txThrough, PollPc.fillThrough,
        hgo.kept.txcmplRings, hgo.kept.rxfillRings] at hle ⊢
      omega
  | resume i hpc hi hgo | resumeOver i hpc hi hgo | finish hpc hgo =>
    refine hskip (by simp only [rxSeen, hpc]) (h.goes hgo hplace ?_ ?_ nofun ?_)
    · rw [hpc]; rfl
    · rw [hpc]; rfl
    · simp only [PollRun.others, hpc, hgo.pc, PollPc.txThrough, PollPc.fillThrough,
        hgo.kept.txcmplRings, hgo.kept.rxfillRings, Nat.add_zero, le_refl]

end Hist

/-- What is known of the TXCMPL rings that a poll on `dev` has reaped. -/
structure TxHist (dev : EdmaPoll) (l : List (Nat × Nat)) (s : PollRun) : Prop where
  kept : ∃ written, RingsKept written dev.ehw s.dev.ehw
  place : s.pc.txThrough dev.ehw.txcmplRings ≤ dev.ehw.txcmplRings
  rings : l.map Prod.fst = List.range (s.pc.txThrough dev.ehw.txcmplRings)
  told : ∀ p ∈ l, s.dev.ehw.cmplCons p.1 = p.2

section TxHist

variable {dev : EdmaPoll} {maxGmacs budget work : Nat} {s t : PollRun} {l : List (Nat × Nat)}
variable {written : List EdmaReg} {pc : PollPc} {allocs : List EdmaRxAlloc}

theorem RingsKept.cmplCons {ehw ehw' : EdmaHw} (h : RingsKept written ehw ehw') {q : Nat}
    (hq : EdmaReg.txcmplConsIdx (ehw.txcmplRing q).id ∉ written) :
    ehw'.cmplCons q = ehw.cmplCons q := by
  rw [EdmaHw.cmplCons, EdmaHw.cmplCons, EdmaHw.regIdx, EdmaHw.regIdx, h.txcmplId,
    h.consIdx _ rfl hq]

/-- A piece that reaps no TXCMPL ring. -/
theorem TxHist.goes (h : TxHist dev l s) (hgo : PollGoes written s t pc work)
    (htx : pc.txThrough dev.ehw.txcmplRings = s.pc.txThrough dev.ehw.txcmplRings)
    (hwritten : ∀ n, EdmaReg.txcmplConsIdx n ∉ written) : TxHist dev l t := by
  obtain ⟨before, hkept⟩ := h.kept
  refine ⟨⟨_, hkept.trans hgo.kept⟩, ?_, ?_, ?_⟩
  · rw [hgo.pc, htx]
    exact h.place
  · rw [hgo.pc, htx]
    exact h.rings
  · intro p hp
    rw [hgo.kept.cmplCons (hwritten _)]
    exact h.told p hp

/-- A TXCMPL ring is reaped. -/
theorem TxHist.reap (h : TxHist dev l s) {i k : Nat}
    (hids : ∀ i < dev.ehw.txcmplRings, ∀ j < dev.ehw.txcmplRings,
      (dev.ehw.txcmplRing i).id = (dev.ehw.txcmplRing j).id → i = j)
    (hpc : s.pc = .tx i) (hi : i < s.dev.ehw.txcmplRings)
    (hgo : PollGoes [.txcmplConsIdx (s.dev.ehw.txcmplRing i).id] s t (.tx (i + 1)) k)
    (hcons : t.dev.ehw.cmplCons i = s.dev.ehw.cmplProd i) :
    TxHist dev (l ++ [(i, s.dev.ehw.cmplProd i)]) t := by
  obtain ⟨before, hkept⟩ := h.kept
  rw [hkept.txcmplRings] at hi
  refine ⟨⟨_, hkept.trans hgo.kept⟩, ?_, ?_, ?_⟩
  · rw [hgo.pc]
    exact hi
  · rw [hgo.pc, List.map_append, h.rings, hpc]
    exact List.range_succ.symm
  · intro p hp
    rw [List.mem_append, List.mem_singleton] at hp
    rcases hp with hp | rfl
    · have hlt : p.1 < i := by
        have hmem := List.mem_map_of_mem (f := Prod.fst) hp
        rw [h.rings, hpc] at hmem
        exact List.mem_range.mp hmem
      rw [hgo.kept.cmplCons, h.told p hp]
      intro hmem
      have heq := EdmaReg.txcmplConsIdx.inj (List.mem_singleton.mp hmem)
      rw [hkept.txcmplId, hkept.txcmplId] at heq
      exact absurd (hids p.1 (hlt.trans hi) i hi heq) (Nat.ne_of_lt hlt)
    · exact hcons

theorem TxHist.piece (h : TxHist dev l s)
    (hids : ∀ i < dev.ehw.txcmplRings, ∀ j < dev.ehw.txcmplRings,
      (dev.ehw.txcmplRing i).id = (dev.ehw.txcmplRing j).id → i = j)
    (hpiece : PollPiece maxGmacs budget s t) : TxHist dev (l ++ txSeen s (.next allocs)) t := by
  have hskip : txSeen s (.next allocs) = [] → TxHist dev l t →
      TxHist dev (l ++ txSeen s (.next allocs)) t := by
    intro hseen ht
    rwa [hseen, List.append_nil]
  obtain ⟨_, hkept⟩ := h.kept
  cases hpiece with
  | rxOpen i hpc hi cons hgo | rxOver i hpc hi hgo | resume i hpc hi hgo
  | resumeOver i hpc hi hgo | fillOver i hpc hi hgo | rxFrame i call hpc hfound cons hgo
  | rxDone i call hpc hnone hgo | finish hpc hgo =>
    exact hskip (by simp only [txSeen, hpc]) (h.goes hgo (by rw [hpc]; rfl) nofun)
  | rxClose i call hpc hgo hcons =>
    exact hskip (by simp only [txSeen, hpc]) (h.goes hgo (by rw [hpc]; rfl) (by simp))
  | fill i hpc hi k hk hgo =>
    exact hskip (by simp only [txSeen, hpc]) (h.goes hgo (by rw [hpc]; rfl) nofun)
  | txClean i hpc hi k hk hgo hcons =>
    have hseen : txSeen s (.next allocs) = [(i, s.dev.ehw.cmplProd i)] := by
      simp only [txSeen, hpc, if_pos hi]
    rw [hseen]
    exact h.reap hids hpc hi hgo hcons
  | txOver i hpc hi hgo =>
    have hle := h.place
    rw [hkept.txcmplRings] at hi
    rw [hpc] at hle
    refine hskip ?_ (h.goes hgo ?_ nofun)
    · simp only [txSeen, hpc, hkept.txcmplRings, if_neg (Nat.not_lt.mpr hi)]
    · rw [hpc]
      exact Nat.le_antisymm hi hle

end TxHist

section Drained

variable {soc : Soc} {virtToPhys : Nat → BitVec 32} {maxGmacs budget : Nat} {s t : PollRun}
variable {dev : EdmaPoll}

/-- The rings of a kind have ids of their own. -/
structure OwnIds (ehw : EdmaHw) : Prop where
  rxdesc : ∀ i < ehw.rxdescRings, ∀ j < ehw.rxdescRings,
    (ehw.rxdescRing i).id = (ehw.rxdescRing j).id → i = j
  txcmpl : ∀ i < ehw.txcmplRings, ∀ j < ehw.txcmplRings,
    (ehw.txcmplRing i).id = (ehw.txcmplRing j).id → i = j

theorem goes_progress (hw : HwProgress) (s : PollRun) :
    PollGoes [] s { s with dev := s.dev.progress hw } s.pc 0 :=
  ⟨rfl, (BitVec.add_zero _).symm, ringsKept_progress _ _⟩

theorem RxHist.step (hids : OwnIds dev.ehw) {l : List RxSeen} {a : PollLabel}
    (h : RxHist dev budget l s) (hstep : pollStep soc virtToPhys maxGmacs budget s a = some t) :
    RxHist dev budget (l ++ rxSeen s a) t := by
  cases a with
  | next allocs => exact h.piece hids.rxdesc (napiNext_piece hstep)
  | hw progress =>
    simp only [pollStep] at hstep
    split at hstep
    · cases hstep
    · cases hstep
      rw [rxSeen, List.append_nil]
      have hplace : PollPlace budget { s with dev := s.dev.progress progress } :=
        (goes_progress progress s).place h.place.rx h.place.tx h.place.fill h.place.loop
      exact h.goes (goes_progress progress s) hplace rfl rfl (fun _ => List.not_mem_nil) le_rfl

theorem TxHist.step (hids : OwnIds dev.ehw) {l : List (Nat × Nat)} {a : PollLabel}
    (h : TxHist dev l s) (hstep : pollStep soc virtToPhys maxGmacs budget s a = some t) :
    TxHist dev (l ++ txSeen s a) t := by
  cases a with
  | next allocs => exact h.piece hids.txcmpl (napiNext_piece hstep)
  | hw progress =>
    simp only [pollStep] at hstep
    split at hstep
    · cases hstep
    · cases hstep
      rw [txSeen, List.append_nil]
      exact h.goes (goes_progress progress s) rfl fun _ => List.not_mem_nil

theorem RxHist.start (budget : Nat) (dev : EdmaPoll) : RxHist dev budget [] (.start dev) := by
  refine ⟨⟨[], .refl _⟩, ⟨Nat.zero_le _, Nat.zero_le _, Nat.zero_le _, nofun⟩, rfl, nofun, nofun,
    nofun, 0, Nat.zero_le _, rfl⟩

theorem TxHist.start (dev : EdmaPoll) : TxHist dev [] (.start dev) :=
  ⟨⟨[], .refl _⟩, Nat.zero_le _, rfl, nofun⟩

theorem rxBudget_of_lt (h : budget < 2 ^ 31) : rxBudget budget = budget := by
  rw [rxBudget, BitVec.ofInt_natCast, BitVec.toNat_ofNat]
  exact Nat.mod_eq_of_lt (by omega)

/-- The work done is that of the RXDESC rings and what the others add, with no overflow. -/
theorem RxHist.work_le {l : List RxSeen} (h : RxHist dev budget l t)
    (hsize : (dev.ehw.rxdescRings + 1) * budget +
      (dev.ehw.txcmplRings + dev.ehw.rxfillRings) * 2 ^ 16 < 2 ^ 31)
    (hret : t.pc = .returned) {x : RxSeen} (hx : x ∈ l) :
    (x.call.workDone : Int) ≤ t.workDone.toInt := by
  obtain ⟨written, hkept⟩ := h.kept
  obtain ⟨other, hother, hsum⟩ := h.work
  have hbudget : rxBudget budget = budget := by
    apply rxBudget_of_lt
    rw [Nat.succ_mul] at hsize
    omega
  have hlen : l.length = dev.ehw.rxdescRings := by
    rw [← List.length_map RxSeen.ring, h.rings, hret]
    exact List.length_range
  have hle : (l.map fun x => x.call.workDone).sum ≤ dev.ehw.rxdescRings * budget := by
    have hall : ∀ w ∈ l.map fun x : RxSeen => x.call.workDone, w ≤ budget := by
      intro w hw
      obtain ⟨y, hy, rfl⟩ := List.mem_map.mp hw
      exact hbudget ▸ (h.left y hy).1
    have := List.sum_le_card_nsmul _ _ hall
    rwa [List.length_map, hlen, smul_eq_mul] at this
  have hmem : x.call.workDone ≤ (l.map fun x => x.call.workDone).sum :=
    List.single_le_sum (fun _ _ => Nat.zero_le _) _ (List.mem_map_of_mem hx)
  simp only [PollRun.others, hret, PollPc.txThrough, PollPc.fillThrough, hkept.txcmplRings,
    hkept.rxfillRings] at hother
  have hwork : t.workDone =
      BitVec.ofNat 32 ((l.map fun x => x.call.workDone).sum + other) := by
    rw [← hsum, hret]
    exact (BitVec.add_zero _).symm
  rw [Nat.succ_mul] at hsize
  have hint := Word.i32_of_lt (n := (l.map fun x => x.call.workDone).sum + other) (by omega)
  rw [Word.i32, ← hwork] at hint
  omega

/-- Every poll that returns has left each RXDESC ring once, with the consumer index told to the
    hardware, where it had met the producer index or the ring had had the whole budget; and it has
    taken what it found in each TXCMPL ring. One that returns less than its budget, and so is
    completed, has found every RXDESC ring empty. -/
theorem pollRun_drains (hids : OwnIds dev.ehw) {labels : List PollLabel}
    (hsize : (dev.ehw.rxdescRings + 1) * budget +
      (dev.ehw.txcmplRings + dev.ehw.rxfillRings) * 2 ^ 16 < 2 ^ 31)
    (hrun : run (pollStep soc virtToPhys maxGmacs budget) (.start dev) labels = some t)
    (hret : t.pc = .returned) :
    let step := pollStep soc virtToPhys maxGmacs budget
    let rxRings := trace step rxSeen (.start dev) labels
    let txRings := trace step txSeen (.start dev) labels
    rxRings.map RxSeen.ring = List.range dev.ehw.rxdescRings ∧
      (∀ x ∈ rxRings,
        t.dev.ehw.regs (.rxdescConsIdx (dev.ehw.rxdescRing x.ring).id) =
            BitVec.ofNat 32 x.call.consIdx ∧
          (x.call.consIdx = x.prodIdx ∨ x.call.workDone = budget)) ∧
      txRings.map Prod.fst = List.range dev.ehw.txcmplRings ∧
      (∀ p ∈ txRings, t.dev.ehw.cmplCons p.1 = p.2) ∧
      (t.workDone.toInt < budget → ∀ x ∈ rxRings, x.call.consIdx = x.prodIdx) := by
  intro step rxRings txRings
  have hrx : RxHist dev budget rxRings t :=
    run_trace_inv (fun _ _ _ _ h hstep => h.step hids hstep) (RxHist.start budget dev) hrun
  have htx : TxHist dev txRings t :=
    run_trace_inv (fun _ _ _ _ h hstep => h.step hids hstep) (TxHist.start dev) hrun
  have hbudget : rxBudget budget = budget := by
    apply rxBudget_of_lt
    rw [Nat.succ_mul] at hsize
    omega
  have hleft : ∀ x ∈ rxRings, x.call.consIdx = x.prodIdx ∨ x.call.workDone = budget :=
    fun x hx => hbudget ▸ (hrx.left x hx).2
  refine ⟨?_, ?_, ?_, htx.told, ?_⟩
  · rw [hrx.rings, hret]
    rfl
  · intro x hx
    exact ⟨hrx.told x hx (by rw [hret]; nofun), hleft x hx⟩
  · rw [htx.rings, hret]
    rfl
  · intro hless x hx
    have hwork := hrx.work_le hsize hret hx
    exact (hleft x hx).resolve_right (by omega)

end Drained

/-- A poll that is completed, and has taken the two frames there were. -/
theorem pollRun_drains_four : ∃ t,
    run (pollStep .ipq807x (BitVec.ofNat 32) 6 edmaNapiWork) (.start (framesOf 2)) pollTwo =
        some t ∧
      (trace (pollStep .ipq807x (BitVec.ofNat 32) 6 edmaNapiWork) rxSeen (.start (framesOf 2))
        pollTwo).map (fun x => (x.ring, x.call.workDone)) = [(0, 2)] ∧
      ∀ x ∈ trace (pollStep .ipq807x (BitVec.ofNat 32) 6 edmaNapiWork) rxSeen
        (.start (framesOf 2)) pollTwo, x.call.consIdx = x.prodIdx := by
  have hmap : (run (pollStep .ipq807x (BitVec.ofNat 32) 6 edmaNapiWork) (.start (framesOf 2))
      pollTwo).map (fun t => (t.pc, t.workDone)) = some (.returned, 4#32) := by decide +kernel
  obtain ⟨t, hrun, ht⟩ := Option.map_eq_some_iff.mp hmap
  obtain ⟨hret, hwork⟩ := Prod.mk.inj ht
  have hids : OwnIds (framesOf 2).ehw := ⟨fun _ _ _ _ h => h, fun _ _ _ _ h => h⟩
  refine ⟨t, hrun, by decide +kernel,
    (pollRun_drains hids (by decide) hrun hret).2.2.2.2 ?_⟩
  rw [hwork]
  decide

end NssDp.Edma
