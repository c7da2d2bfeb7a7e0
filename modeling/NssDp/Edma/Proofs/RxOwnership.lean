import NssDp.Misc.Lts
import NssDp.Edma.Proofs.RxBooks
import NssDp.Edma.Proofs.TxOwnership

/-!
# Who owns a receive buffer of EDMA

One RXFILL and one RXDESC ring, and the buffers on their way through them. The poll goes
through its loop turn by turn with the hardware between the turns. What the hardware has
taken from the one ring and not yet returned in the other is out as well, in no ring and
still in the store.
-/

namespace NssDp.Edma

open Lts Cyclic Word

/-- The receive side, the buffers the hardware holds, the poll in its loop, whether the kernel
    has stopped in `skb_put`, and whether the rings have been released. -/
structure RxDmaRun where
  rx : EdmaRx
  held : List (BitVec 32)
  call : Option CleanRx
  panicked : Bool
  ended : Bool

/-- A call of the driver or a part of the poll, a step of the hardware, or a change of the
    devices. -/
inductive RxDmaLabel where
  | alloc (allocs : List EdmaRxAlloc)
  | start (workToDo : Int)
  | turn
  | finish (allocs : List EdmaRxAlloc)
  | take
  | ret (addr : BitVec 32) (srcInfo : BitVec 16) (rxPre4 status : BitVec 32)
  | devices (netdevArr : Nat → Option Nat) (running : Nat → Bool)
  | cleanup

/-- Nothing has happened on the rings. -/
def RxDmaRun.start (rx : EdmaRx) : RxDmaRun := ⟨rx, [], none, false, false⟩

/-- Where the driver stands in the RXDESC ring. -/
def RxDmaRun.descCons (s : RxDmaRun) : Nat :=
  match s.call with
  | some call => call.consIdx
  | none => s.rx.descCons

/-- The buffers that are out: posted, held by the hardware, or returned and not reaped. -/
def RxDmaRun.outstanding (s : RxDmaRun) : List (BitVec 32) :=
  if s.ended then s.held else s.rx.out s.held s.rx.fillProd s.descCons

/-- The allocator returns no buffer twice and no memory that is in use, and the buffers are as
    large as they were asked for. -/
def FreshBuffers (s : RxDmaRun) (allocs : List EdmaRxAlloc) : Prop :=
  ((allocatedSkbs s.rx.events ++ allocs.map EdmaRxAlloc.skb).map RxSkb.id).Nodup ∧
    (∀ alloc ∈ allocs, edmaRxBuffSize ≤ alloc.skb.tailroom) ∧
    (s.outstanding ++ (allocs.map EdmaRxAlloc.dma).filter (· ≠ 0#32)).Nodup

instance (s : RxDmaRun) (allocs : List EdmaRxAlloc) : Decidable (FreshBuffers s allocs) :=
  inferInstanceAs (Decidable (List.Nodup _ ∧ (∀ alloc ∈ allocs, _ ≤ _) ∧ List.Nodup _))

/-- The hardware takes the first posted buffer. -/
def EdmaRx.hwTake (rx : EdmaRx) : EdmaRx :=
  { rx with
    ehw := rx.ehw.hwIdx (.rxfillConsIdx rx.rxfill.id) ((rx.fillCons + 1) % rx.rxfill.count) }

/-- A buffer comes back with what the hardware writes: all of the preheader but its opaque
    word, and a descriptor. -/
def EdmaRx.hwReturn (rx : EdmaRx) (addr : BitVec 32) (srcInfo : BitVec 16)
    (rxPre4 status : BitVec 32) : EdmaRx :=
  { rx with
    rxph := Function.update rx.rxph addr ⟨(rx.rxph addr).opaqueWord, srcInfo, rxPre4⟩
    rxdesc := { rx.rxdesc with desc := Function.update rx.rxdesc.desc rx.descProd ⟨addr, status⟩ }
    ehw := rx.ehw.hwIdx (.rxdescProdIdx rx.rxdesc.id) ((rx.descProd + 1) % rx.rxdesc.count) }

/-- The hardware takes posted buffers in ring order, and returns what it has taken in any order
    while the RXDESC ring has room. The poll is one at a time, and what it calls runs in it. -/
def rxDmaStep (soc : Soc) (s : RxDmaRun) (a : RxDmaLabel) : Option RxDmaRun :=
  if s.panicked = true ∨ s.ended = true then none
  else
    match a with
    | .alloc allocs =>
      if s.call.isSome = true ∨ ¬ FreshBuffers s allocs then none
      else some { s with rx := (edmaAllocRxBuffer s.rx allocs).2 }
    | .start workToDo =>
      if s.call.isSome = true then none
      else
        let r := edmaCleanRxStart s.rx workToDo
        some { s with rx := r.1, call := some r.2 }
    | .turn =>
      s.call.bind fun call =>
        match edmaCleanRxTurn soc s.rx call with
        | .done _ => none
        | .next rx call => some { s with rx, call := some call }
        | .panic rx => some { s with rx, panicked := true }
    | .finish allocs =>
      s.call.bind fun call =>
        match edmaCleanRxTurn soc s.rx call with
        | .done rx =>
          if FreshBuffers s allocs then
            some { s with rx := (edmaCleanRxEnd rx call allocs).2, call := none }
          else none
        | _ => none
    | .take =>
      if s.rx.fillCons = s.rx.fillProd then none
      else
        some { s with
          held := s.held ++ [s.rx.fillAddr s.rx.fillCons]
          rx := s.rx.hwTake }
    | .ret addr srcInfo rxPre4 status =>
      if addr ∉ s.held ∨ (s.rx.descProd + 1) % s.rx.rxdesc.count = s.rx.descCons then none
      else
        some { s with
          held := s.held.erase addr
          rx := s.rx.hwReturn addr srcInfo rxPre4 status }
    | .devices netdevArr running =>
      some { s with rx := { s.rx with ehw := { s.rx.ehw with netdevArr }, running } }
    | .cleanup =>
      if s.call.isSome = true then none
      else
        (s.rx.cleanupRxfillRingRes.bind EdmaRx.cleanupRxdescRingRes).map fun rx =>
          { s with rx, ended := true }

/-- The rings and the store before the first buffer. -/
structure RxIdle (rx : EdmaRx) : Prop where
  count : ∃ k ≤ 15, rx.rxfill.count = 2 ^ k
  descCount : ∃ k ≤ 15, rx.rxdesc.count = 2 ^ k
  fill : rx.fillProd = rx.fillCons
  fill_lt : rx.fillCons < rx.rxfill.count
  desc : rx.descProd = rx.descCons
  desc_lt : rx.descCons < rx.rxdesc.count
  store : ∀ i, rx.rxSkbStore i = none
  events : rx.events = []

/-- Every buffer that was allocated is in one slot of the store or has left the driver once, a
    slot is in use where a buffer that is out carries its number, and the two functions that
    release the rings return and leave only what the hardware holds. -/
structure RxDmaOwned (s : RxDmaRun) : Prop where
  running : s.panicked = false
  store : ∀ i, (s.rx.rxSkbStore i).isSome = true ↔ ∃ addr ∈ s.outstanding, s.rx.opaqueAt addr = i
  apart : (s.outstanding.map s.rx.opaqueAt).Nodup
  owned : ∀ skb ∈ allocatedSkbs s.rx.events,
    ((∃! i, s.rx.rxSkbStore i = some skb) ∧ (leftSkbs s.rx.events).count skb = 0) ∨
      ((∀ i, s.rx.rxSkbStore i ≠ some skb) ∧ (leftSkbs s.rx.events).count skb = 1)
  cleanup : s.ended = false → s.call = none →
    ∃ rx, s.rx.cleanupRxfillRingRes.bind EdmaRx.cleanupRxdescRingRes = some rx ∧
      (s.held = [] → ∀ i, rx.rxSkbStore i = none)

/-- A step that gives a buffer to other code is a turn of the poll; the preheader of the buffer
    names a port by its number, and the buffer goes to the open device of that port. -/
def DeliveredToPort (soc : Soc) (s : RxDmaRun) (a : RxDmaLabel) : Prop :=
  ∀ t, rxDmaStep soc s a = some t → ∃ es, t.rx.events = s.rx.events ++ es ∧
    ∀ e ∈ es, ∀ skb, e.delivered = some skb → ∃ call ndev len,
      a = .turn ∧ s.call = some call ∧
      (e = .netifReceiveSkb ndev skb len ∨ e = .nssPhyTstampRxBuf ndev skb len) ∧
      (s.rx.rxph (s.rx.descAddr call.consIdx)).srcInfoType = edmaPrehdrDstinfoPortidInd ∧
      1 ≤ (s.rx.rxph (s.rx.descAddr call.consIdx)).srcPortNum ∧
      (s.rx.rxph (s.rx.descAddr call.consIdx)).srcPortNum ≤ soc.maxPorts ∧
      s.rx.ehw.netdevArr ((s.rx.rxph (s.rx.descAddr call.consIdx)).srcPortNum - 1) = some ndev ∧
      s.rx.running ndev = true

/-- The length the hardware reports fits the buffer it was given. -/
def LengthFits (_ : RxDmaRun) : RxDmaLabel → Prop
  | .ret _ _ _ status => (status &&& edmaRxdescPacketLenMask).toNat ≤ edmaRxBuffSize
  | _ => True

/-- What every step keeps. The driver stands between the consumer index in the register, which
    it writes at the end of a poll, and the producer index. -/
structure RxDmaInv (s : RxDmaRun) : Prop where
  running : s.panicked = false
  shape : RxShape s.rx
  books : RxBooks s.rx s.outstanding
  cons_lt : s.descCons < s.rx.rxdesc.count
  between : gap s.rx.rxdesc.count s.rx.descCons s.descCons +
    gap s.rx.rxdesc.count s.descCons s.rx.descProd =
      gap s.rx.rxdesc.count s.rx.descCons s.rx.descProd
  fits : ∀ i ∈ s.rx.descWindow s.descCons s.rx.descProd,
    ((s.rx.rxdesc.desc i).status &&& edmaRxdescPacketLenMask).toNat ≤ edmaRxBuffSize

/-- What the steps do. -/
inductive RxDmaDoes (soc : Soc) (s : RxDmaRun) : RxDmaLabel → RxDmaRun → Prop
  | alloc {allocs : List EdmaRxAlloc} (hcall : s.call = none) (hfresh : FreshBuffers s allocs) :
    RxDmaDoes soc s (.alloc allocs) { s with rx := (edmaAllocRxBuffer s.rx allocs).2 }
  | start {workToDo : Int} (hcall : s.call = none) :
    RxDmaDoes soc s (.start workToDo)
      { s with
        rx := (edmaCleanRxStart s.rx workToDo).1
        call := some (edmaCleanRxStart s.rx workToDo).2 }
  | next {call call' : CleanRx} {rx : EdmaRx} (hcall : s.call = some call)
      (hturn : edmaCleanRxTurn soc s.rx call = .next rx call') :
    RxDmaDoes soc s .turn { s with rx, call := some call' }
  | panic {call : CleanRx} {rx : EdmaRx} (hcall : s.call = some call)
      (hturn : edmaCleanRxTurn soc s.rx call = .panic rx) :
    RxDmaDoes soc s .turn { s with rx, panicked := true }
  | finish {allocs : List EdmaRxAlloc} {call : CleanRx} {rx : EdmaRx} (hcall : s.call = some call)
      (hturn : edmaCleanRxTurn soc s.rx call = .done rx) (hfresh : FreshBuffers s allocs) :
    RxDmaDoes soc s (.finish allocs)
      { s with rx := (edmaCleanRxEnd rx call allocs).2, call := none }
  | take (hne : s.rx.fillCons ≠ s.rx.fillProd) :
    RxDmaDoes soc s .take
      { s with
        held := s.held ++ [s.rx.fillAddr s.rx.fillCons]
        rx := s.rx.hwTake }
  | ret {addr : BitVec 32} {srcInfo : BitVec 16} {rxPre4 status : BitVec 32}
      (haddr : addr ∈ s.held)
      (hroom : (s.rx.descProd + 1) % s.rx.rxdesc.count ≠ s.rx.descCons) :
    RxDmaDoes soc s (.ret addr srcInfo rxPre4 status)
      { s with
        held := s.held.erase addr
        rx := s.rx.hwReturn addr srcInfo rxPre4 status }
  | devices {netdevArr : Nat → Option Nat} {running : Nat → Bool} :
    RxDmaDoes soc s (.devices netdevArr running)
      { s with rx := { s.rx with ehw := { s.rx.ehw with netdevArr }, running } }
  | cleanup {rx : EdmaRx} (hcall : s.call = none)
      (hrx : s.rx.cleanupRxfillRingRes.bind EdmaRx.cleanupRxdescRingRes = some rx) :
    RxDmaDoes soc s .cleanup { s with rx, ended := true }

theorem rxDmaStep_does {soc : Soc} {s s' : RxDmaRun} {a : RxDmaLabel}
    (hstep : rxDmaStep soc s a = some s') : RxDmaDoes soc s a s' := by
  unfold rxDmaStep at hstep
  split at hstep
  · cases hstep
  · cases a with
    | alloc allocs =>
      simp only at hstep
      split at hstep
      · cases hstep
      · rename_i henabled
        rw [not_or, not_not, Option.not_isSome_iff_eq_none] at henabled
        cases hstep
        exact .alloc henabled.1 henabled.2
    | start workToDo =>
      simp only at hstep
      split at hstep
      · cases hstep
      · rename_i hidle
        cases hstep
        exact .start (Option.not_isSome_iff_eq_none.mp hidle)
    | turn =>
      obtain ⟨call, hcall, hturn⟩ := Option.bind_eq_some_iff.mp hstep
      split at hturn
      · cases hturn
      · rename_i hnext
        cases hturn
        exact .next hcall hnext
      · rename_i hpanic
        cases hturn
        exact .panic hcall hpanic
    | finish allocs =>
      obtain ⟨call, hcall, hturn⟩ := Option.bind_eq_some_iff.mp hstep
      split at hturn
      · rename_i hdone
        split at hturn
        · rename_i hfresh
          cases hturn
          exact .finish hcall hdone hfresh
        · cases hturn
      · cases hturn
    | take =>
      simp only at hstep
      split at hstep
      · cases hstep
      · rename_i hne
        cases hstep
        exact .take hne
    | ret addr srcInfo rxPre4 status =>
      simp only at hstep
      split at hstep
      · cases hstep
      · rename_i henabled
        rw [not_or, not_not] at henabled
        cases hstep
        exact .ret henabled.1 henabled.2
    | devices netdevArr running =>
      cases hstep
      exact .devices
    | cleanup =>
      simp only at hstep
      split at hstep
      · cases hstep
      · rename_i hidle
        obtain ⟨rx, hrx, rfl⟩ := Option.map_eq_some_iff.mp hstep
        exact .cleanup (Option.not_isSome_iff_eq_none.mp hidle) hrx

/-- The kernel runs, and the rings are not released. -/
theorem rxDmaStep_running {soc : Soc} {s s' : RxDmaRun} {a : RxDmaLabel}
    (hstep : rxDmaStep soc s a = some s') : s.panicked = false ∧ s.ended = false := by
  unfold rxDmaStep at hstep
  split at hstep
  · cases hstep
  · rename_i halive
    rwa [not_or, Bool.not_eq_true, Bool.not_eq_true] at halive

section Hardware

variable {rx rx' : EdmaRx} {held : List (BitVec 32)} {cons : Nat}

/-- The poll has told the hardware up to where it has reaped. -/
structure ConsWritten (rx rx' : EdmaRx) (cons : Nat) : Prop where
  rxfill : rx'.rxfill = rx.rxfill
  rxdesc : rx'.rxdesc = rx.rxdesc
  rxph : rx'.rxph = rx.rxph
  store : rx'.rxSkbStore = rx.rxSkbStore
  events : rx'.events = rx.events
  fillCons : rx'.fillCons = rx.fillCons
  fillProd : rx'.fillProd = rx.fillProd
  descProd : rx'.descProd = rx.descProd
  descCons : rx'.descCons = cons

theorem RxShape.writeCons (h : RxShape rx) (hcons : cons < rx.rxdesc.count) :
    ConsWritten rx (rx.regWrite (.rxdescConsIdx rx.rxdesc.id) (BitVec.ofNat 32 cons)) cons := by
  have hothers : ∀ reg, reg ≠ .rxdescConsIdx rx.rxdesc.id →
      (rx.regWrite (.rxdescConsIdx rx.rxdesc.id) (BitVec.ofNat 32 cons)).ehw.regIdx reg =
        rx.ehw.regIdx reg := fun reg hreg => EdmaHw.regWrite_regIdx_of_ne _ _ _ hreg
  exact ⟨rfl, rfl, rfl, rfl, rfl, hothers _ (by simp), hothers _ (by simp), hothers _ (by simp),
    EdmaHw.regWrite_regIdx_self _ _ (hcons.trans (lt_of_pow h.descCount))⟩

theorem ConsWritten.shape (h : ConsWritten rx rx' cons) (hshape : RxShape rx)
    (hcons : cons < rx.rxdesc.count) : RxShape rx' := by
  refine ⟨h.rxfill.symm ▸ hshape.count, h.rxdesc.symm ▸ hshape.descCount, ?_, ?_, ?_, ?_⟩
  · rw [h.fillProd, h.rxfill]
    exact hshape.fillProd_lt
  · rw [h.fillCons, h.rxfill]
    exact hshape.fillCons_lt
  · rw [h.descProd, h.rxdesc]
    exact hshape.descProd_lt
  · rw [h.descCons, h.rxdesc]
    exact hcons

/-- What is left where the hardware has taken a posted buffer: one index has moved. -/
structure Taken (rx rx' : EdmaRx) : Prop where
  fillCons : rx'.fillCons = (rx.fillCons + 1) % rx.rxfill.count
  fillProd : rx'.fillProd = rx.fillProd
  descProd : rx'.descProd = rx.descProd
  descCons : rx'.descCons = rx.descCons

theorem RxShape.hwTake (h : RxShape rx) : Taken rx rx.hwTake := by
  have hnext := Nat.mod_lt (rx.fillCons + 1) (Nat.zero_lt_of_lt h.fillCons_lt)
  exact ⟨hwIdx_regIdx_self _ _ (hnext.trans (lt_of_pow h.count)),
    hwIdx_regIdx_of_ne _ _ (by simp), hwIdx_regIdx_of_ne _ _ (by simp),
    hwIdx_regIdx_of_ne _ _ (by simp)⟩

/-- The buffer that is taken is the first in the RXFILL ring. -/
theorem RxShape.fillWindow_take (h : RxShape rx) (hne : rx.fillCons ≠ rx.fillProd) :
    rx.fillWindow rx.fillCons rx.fillProd =
      rx.fillCons :: rx.hwTake.fillWindow rx.hwTake.fillCons rx.hwTake.fillProd := by
  rw [h.hwTake.fillCons, h.hwTake.fillProd]
  exact window_take h.fillCons_lt h.fillProd_lt hne

/-- What is left where the hardware has returned a buffer: the descriptor at the producer index
    and the preheader are written, and the index has moved. -/
structure Returned (rx rx' : EdmaRx) (addr : BitVec 32) (srcInfo : BitVec 16)
    (rxPre4 status : BitVec 32) : Prop where
  rxfill : rx'.rxfill = rx.rxfill
  count : rx'.rxdesc.count = rx.rxdesc.count
  desc : rx'.rxdesc.desc = Function.update rx.rxdesc.desc rx.descProd ⟨addr, status⟩
  rxph : rx'.rxph = Function.update rx.rxph addr ⟨(rx.rxph addr).opaqueWord, srcInfo, rxPre4⟩
  store : rx'.rxSkbStore = rx.rxSkbStore
  events : rx'.events = rx.events
  fillCons : rx'.fillCons = rx.fillCons
  fillProd : rx'.fillProd = rx.fillProd
  descProd : rx'.descProd = (rx.descProd + 1) % rx.rxdesc.count
  descCons : rx'.descCons = rx.descCons

theorem RxShape.hwReturn (h : RxShape rx) (addr : BitVec 32) (srcInfo : BitVec 16)
    (rxPre4 status : BitVec 32) :
    Returned rx (rx.hwReturn addr srcInfo rxPre4 status) addr srcInfo rxPre4 status := by
  have hnext := Nat.mod_lt (rx.descProd + 1) (Nat.zero_lt_of_lt h.descCons_lt)
  exact ⟨rfl, rfl, rfl, rfl, rfl, rfl, hwIdx_regIdx_of_ne _ _ (by simp),
    hwIdx_regIdx_of_ne _ _ (by simp), hwIdx_regIdx_self _ _ (hnext.trans (lt_of_pow h.descCount)),
    hwIdx_regIdx_of_ne _ _ (by simp [EdmaRx.hwReturn])⟩

namespace Returned

variable {addr : BitVec 32} {srcInfo : BitVec 16} {rxPre4 status : BitVec 32}

/-- The hardware keeps the opaque words. -/
theorem opaqueAt (h : Returned rx rx' addr srcInfo rxPre4 status) (a : BitVec 32) :
    rx'.opaqueAt a = rx.opaqueAt a := by
  rw [EdmaRx.opaqueAt, EdmaRx.opaqueAt, h.rxph]
  by_cases ha : a = addr
  · rw [ha, Function.update_self]
  · rw [Function.update_of_ne ha]

theorem shape (h : Returned rx rx' addr srcInfo rxPre4 status) (hshape : RxShape rx) :
    RxShape rx' := by
  have hnext := Nat.mod_lt (rx.descProd + 1) (Nat.zero_lt_of_lt hshape.descCons_lt)
  refine ⟨h.rxfill.symm ▸ hshape.count, h.count.symm ▸ hshape.descCount, ?_, ?_, ?_, ?_⟩
  · rw [h.fillProd, h.rxfill]
    exact hshape.fillProd_lt
  · rw [h.fillCons, h.rxfill]
    exact hshape.fillCons_lt
  · rw [h.descProd, h.count]
    exact hnext
  · rw [h.descCons, h.count]
    exact hshape.descCons_lt

/-- The RXFILL ring is left alone. -/
theorem posted (h : Returned rx rx' addr srcInfo rxPre4 status) :
    (rx'.fillWindow rx'.fillCons rx'.fillProd).map rx'.fillAddr =
      (rx.fillWindow rx.fillCons rx.fillProd).map rx.fillAddr := by
  have hfillAddr : rx'.fillAddr = rx.fillAddr := by
    unfold EdmaRx.fillAddr
    rw [h.rxfill]
  rw [h.fillCons, h.fillProd, hfillAddr, EdmaRx.fillWindow, EdmaRx.fillWindow, h.rxfill]

/-- The descriptor that is written is the last of those the driver is to reap. -/
theorem descWindow (h : Returned rx rx' addr srcInfo rxPre4 status) (hshape : RxShape rx)
    (hcons : cons < rx.rxdesc.count) (hroom : (rx.descProd + 1) % rx.rxdesc.count ≠ cons) :
    rx'.descWindow cons rx'.descProd = rx.descWindow cons rx.descProd ++ [rx.descProd] := by
  rw [h.descProd, EdmaRx.descWindow, h.count]
  exact window_push hcons hshape.descProd_lt hroom

theorem desc_new (h : Returned rx rx' addr srcInfo rxPre4 status) :
    rx'.rxdesc.desc rx.descProd = ⟨addr, status⟩ := by
  rw [h.desc, Function.update_self]

/-- The others stay as they are. -/
theorem desc_old (h : Returned rx rx' addr srcInfo rxPre4 status) (hshape : RxShape rx)
    (hcons : cons < rx.rxdesc.count) {i : Nat} (hi : i ∈ rx.descWindow cons rx.descProd) :
    rx'.rxdesc.desc i = rx.rxdesc.desc i := by
  have hnot : rx.descProd ∉ rx.descWindow cons rx.descProd :=
    prod_notMem_window hcons hshape.descProd_lt
  rw [h.desc, Function.update_of_ne (ne_of_mem_of_not_mem hi hnot)]

theorem descAddrs (h : Returned rx rx' addr srcInfo rxPre4 status) (hshape : RxShape rx)
    (hcons : cons < rx.rxdesc.count) (hroom : (rx.descProd + 1) % rx.rxdesc.count ≠ cons) :
    (rx'.descWindow cons rx'.descProd).map rx'.descAddr =
      (rx.descWindow cons rx.descProd).map rx.descAddr ++ [addr] := by
  rw [h.descWindow hshape hcons hroom, List.map_append, List.map_singleton]
  congr 1
  · apply List.map_congr_left
    intro i hi
    rw [EdmaRx.descAddr, h.desc_old hshape hcons hi, EdmaRx.descAddr]
  · rw [EdmaRx.descAddr, h.desc_new]

/-- A buffer that the hardware held is in the RXDESC ring, and no other has moved. -/
theorem out_perm (h : Returned rx rx' addr srcInfo rxPre4 status) (hshape : RxShape rx)
    (hcons : cons < rx.rxdesc.count) (hroom : (rx.descProd + 1) % rx.rxdesc.count ≠ cons)
    (haddr : addr ∈ held) :
    (rx.out held rx.fillProd cons).Perm (rx'.out (held.erase addr) rx'.fillProd cons) := by
  rw [EdmaRx.out, EdmaRx.out, h.posted, h.descAddrs hshape hcons hroom, List.append_assoc,
    List.append_assoc]
  apply List.Perm.append_left _
  apply ((List.perm_cons_erase haddr).append_right _).trans
  rw [← List.append_assoc]
  exact (List.perm_append_singleton _ _).symm

end Returned

end Hardware

namespace RxDmaInv

variable {s s' : RxDmaRun}

theorem start {rx : EdmaRx} (hidle : RxIdle rx) : RxDmaInv (.start rx) := by
  have hprod := hidle.fill.symm ▸ hidle.fill_lt
  have hdescProd := hidle.desc.symm ▸ hidle.desc_lt
  have hout : RxDmaRun.outstanding (.start rx) = [] := by
    show rx.out [] rx.fillProd rx.descCons = []
    simp only [EdmaRx.out, EdmaRx.fillWindow, EdmaRx.descWindow, hidle.fill, hidle.desc, gap_self,
      window_zero, List.map_nil, List.append_nil]
  have hcons : RxDmaRun.descCons (.start rx) = rx.descCons := rfl
  refine ⟨rfl, ⟨hidle.count, hidle.descCount, hprod, hidle.fill_lt, hdescProd, hidle.desc_lt⟩, ?_,
    hidle.desc_lt, ?_, ?_⟩
  · rw [hout]
    refine ⟨?_, ?_, ?_⟩
    · show Ledger [] rx.rxSkbStore (allocatedSkbs rx.events) (leftSkbs rx.events)
      rw [hidle.events]
      exact Ledger.empty hidle.store
    · show ((allocatedSkbs rx.events).map RxSkb.id).Nodup
      rw [hidle.events]
      exact List.nodup_nil
    · intro i skb hskb
      cases (hidle.store i).symm.trans hskb
  · rw [hcons]
    show gap rx.rxdesc.count rx.descCons rx.descCons + _ = _
    rw [gap_self, Nat.zero_add]
    rfl
  · intro i hi
    rw [hcons] at hi
    have hnil : rx.descWindow rx.descCons rx.descProd = [] := by
      rw [EdmaRx.descWindow, hidle.desc, gap_self, window_zero]
    cases hnil ▸ hi

/-- A step that leaves the rings, the store and the buffers that are out as they are. -/
theorem same (h : RxDmaInv s) (hsame : SameRx s.rx s'.rx)
    (hstore : s'.rx.rxSkbStore = s.rx.rxSkbStore) (hrxph : s'.rx.rxph = s.rx.rxph)
    (hevents : s'.rx.events = s.rx.events) (hheld : s'.held = s.held)
    (hended : s'.ended = s.ended) (hpanicked : s'.panicked = s.panicked)
    (hcons : s'.descCons = s.descCons) : RxDmaInv s' := by
  have hout : s'.outstanding = s.outstanding := by
    rw [RxDmaRun.outstanding, RxDmaRun.outstanding, hended, hheld, hcons, hsame.fillProd_eq,
      hsame.out_eq]
  refine ⟨hpanicked.trans h.running, hsame.shape h.shape, ?_, ?_, ?_, ?_⟩
  · rw [hout]
    refine h.books.same hstore ?_ hevents
    intro a _
    rw [EdmaRx.opaqueAt, hrxph, EdmaRx.opaqueAt]
  · rw [hcons, hsame.rxdesc]
    exact h.cons_lt
  · rw [hcons, hsame.rxdesc, hsame.descCons_eq, hsame.descProd_eq]
    exact h.between
  · rw [hcons, hsame.descProd_eq, EdmaRx.descWindow, hsame.rxdesc]
    exact h.fits

theorem outstanding_eq (hended : s.ended = false) :
    s.outstanding = s.rx.out s.held s.rx.fillProd s.descCons := by
  rw [RxDmaRun.outstanding, hended]
  rfl

theorem fresh (hended : s.ended = false) {allocs : List EdmaRxAlloc} (h : FreshBuffers s allocs) :
    AllocFresh s.rx (s.rx.out s.held s.rx.fillProd s.descCons) allocs := by
  obtain ⟨hnames, hroom, haddrs⟩ := h
  rw [outstanding_eq hended] at haddrs
  exact ⟨hnames, hroom, haddrs⟩

/-- The ring is filled up outside the poll. -/
theorem alloc (h : RxDmaInv s) (hended : s.ended = false) (hcall : s.call = none)
    {allocs : List EdmaRxAlloc} (hfresh : FreshBuffers s allocs)
    (hs' : s' = { s with rx := (edmaAllocRxBuffer s.rx allocs).2 }) : RxDmaInv s' := by
  have hbooks := h.books
  rw [outstanding_eq hended] at hbooks
  obtain ⟨n, rx', hrx', hshape, hsame, hbooks'⟩ := allocRxBuffer_books h.shape hbooks
    (fresh hended hfresh)
  rw [hrx'] at hs'
  have hcons : s'.descCons = s.descCons := by
    rw [hs', RxDmaRun.descCons, RxDmaRun.descCons, hcall]
    exact hsame.descCons
  have hrx : s'.rx = rx' := by rw [hs']
  have hended' : s'.ended = false := by rw [hs', hended]
  refine ⟨by rw [hs']; exact h.running, hrx ▸ hshape, ?_, ?_, ?_, ?_⟩
  · rw [outstanding_eq hended', hcons, hrx, hs']
    exact hbooks'
  · rw [hcons, hrx, hsame.rxdesc]
    exact h.cons_lt
  · rw [hcons, hrx, hsame.rxdesc, hsame.descCons, hsame.descProd]
    exact h.between
  · rw [hcons, hrx, hsame.descProd, EdmaRx.descWindow, hsame.rxdesc]
    exact h.fits

/-- A turn of the poll that goes on. -/
theorem turn (h : RxDmaInv s) (hended : s.ended = false) (soc : Soc) {call : CleanRx}
    (hcall : s.call = some call) :
    edmaCleanRxTurn soc s.rx call =
        .done (s.rx.touch [.regRead (.rxdescProdIdx s.rx.rxdesc.id)]) ∨
      ∃ rx' call', edmaCleanRxTurn soc s.rx call = .next rx' call' ∧
        RxDmaInv { s with rx := rx', call := some call' } := by
  have hcons : s.descCons = call.consIdx := by rw [RxDmaRun.descCons, hcall]
  have hlt := h.cons_lt
  have hbetween := h.between
  have hfits := h.fits
  have hbooks := h.books
  rw [hcons] at hlt hbetween hfits
  rw [outstanding_eq hended, hcons] at hbooks
  rcases cleanRxTurn_books soc h.shape hlt hfits hbooks with
    hdone | ⟨rx', call', hnext, hne, hcons', hsame, hbooks'⟩
  · exact Or.inl hdone
  · refine Or.inr ⟨rx', call', hnext, ?_⟩
    have hstand : RxDmaRun.descCons { s with rx := rx', call := some call' } = call'.consIdx := rfl
    have hpos := Nat.zero_lt_of_lt hlt
    have htake := gap_cons_succ hlt h.shape.descProd_lt hne
    have hroom : (call.consIdx + 1) % s.rx.rxdesc.count ≠ s.rx.descCons := by
      have hgap := gap_lt hpos s.rx.descCons s.rx.descProd
      exact (room_iff h.shape.descCons_lt hlt).mpr (by omega)
    have hmoved := gap_prod_succ h.shape.descCons_lt hlt hroom
    refine ⟨h.running, hsame.shape h.shape, ?_, ?_, ?_, ?_⟩
    · have hended' : RxDmaRun.ended { s with rx := rx', call := some call' } = false := hended
      rw [outstanding_eq hended', hstand]
      show RxBooks rx' (rx'.out s.held rx'.fillProd call'.consIdx)
      rw [hsame.fillProd_eq]
      exact hbooks'
    · rw [hstand, hcons', hsame.rxdesc]
      exact Nat.mod_lt _ hpos
    · rw [hstand, hcons', hsame.rxdesc, hsame.descCons_eq, hsame.descProd_eq]
      omega
    · intro i hi
      rw [hstand, hcons', hsame.descProd_eq, EdmaRx.descWindow, hsame.rxdesc] at hi
      show ((rx'.rxdesc.desc i).status &&& edmaRxdescPacketLenMask).toNat ≤ edmaRxBuffSize
      rw [hsame.rxdesc]
      apply hfits i
      rw [EdmaRx.descWindow, window_take hlt h.shape.descProd_lt hne]
      exact List.mem_cons_of_mem _ hi

/-- A turn that ends the loop has read a register. -/
theorem done_eq (h : RxDmaInv s) (hended : s.ended = false) {soc : Soc} {call : CleanRx}
    {rx : EdmaRx} (hcall : s.call = some call)
    (hdone : edmaCleanRxTurn soc s.rx call = .done rx) :
    rx = s.rx.touch [.regRead (.rxdescProdIdx s.rx.rxdesc.id)] := by
  rcases h.turn hended soc hcall with hdone' | ⟨rx', call', hnext, -⟩
  · cases hdone.symm.trans hdone'
    rfl
  · cases hdone.symm.trans hnext

/-- The poll fills the ring up and writes the consumer index. -/
theorem finish (h : RxDmaInv s) (hended : s.ended = false) {soc : Soc} {call : CleanRx}
    {rx : EdmaRx}
    (hcall : s.call = some call) (hdone : edmaCleanRxTurn soc s.rx call = .done rx)
    {allocs : List EdmaRxAlloc} (hfresh : FreshBuffers s allocs)
    (hs' : s' = { s with rx := (edmaCleanRxEnd rx call allocs).2, call := none }) :
    RxDmaInv s' := by
  have hcons : s.descCons = call.consIdx := by rw [RxDmaRun.descCons, hcall]
  have hlt : call.consIdx < s.rx.rxdesc.count := hcons ▸ h.cons_lt
  have hrx := h.done_eq hended hcall hdone
  have hsame₀ : SameRx s.rx rx := by
    rw [hrx]
    exact ⟨rfl, rfl, fun _ => rfl⟩
  have hbooks := h.books
  rw [outstanding_eq hended, hcons] at hbooks
  have hbooks₀ : RxBooks rx (rx.out s.held rx.fillProd call.consIdx) := by
    rw [hsame₀.fillProd_eq, hsame₀.out_eq, hrx]
    exact hbooks.same rfl (fun _ _ => rfl) rfl
  have hfresh₀ : AllocFresh rx (rx.out s.held rx.fillProd call.consIdx) allocs := by
    have hfresh' := fresh hended hfresh
    rw [hcons] at hfresh'
    rw [hsame₀.fillProd_eq, hsame₀.out_eq, hrx]
    exact ⟨hfresh'.names, hfresh'.room, hfresh'.addrs⟩
  obtain ⟨n, rx', hrx', hshape, hsame, hbooks'⟩ :=
    allocRxBuffer_books (hsame₀.shape h.shape) hbooks₀ hfresh₀
  have hdesc : rx'.rxdesc = s.rx.rxdesc := hsame.rxdesc.trans hsame₀.rxdesc
  have hprod : rx'.descProd = s.rx.descProd := hsame.descProd.trans hsame₀.descProd_eq
  have hlt' : call.consIdx < rx'.rxdesc.count := hdesc.symm ▸ hlt
  obtain ⟨rx'', hrx''⟩ : ∃ r, r = rx'.regWrite (.rxdescConsIdx rx'.rxdesc.id)
      (BitVec.ofNat 32 call.consIdx) := ⟨_, rfl⟩
  have hend : (edmaCleanRxEnd rx call allocs).2 = rx'' := by
    rw [edmaCleanRxEnd, hrx', hrx'']
  have htold : ConsWritten rx' rx'' call.consIdx := hrx'' ▸ hshape.writeCons hlt'
  have hstand : s'.descCons = call.consIdx := by
    rw [hs', RxDmaRun.descCons, hend]
    exact htold.descCons
  have hended' : s'.ended = false := by rw [hs', hended]
  have hrxs : s'.rx = rx'' := by rw [hs', hend]
  refine ⟨by rw [hs']; exact h.running, hrxs ▸ htold.shape hshape hlt', ?_, ?_, ?_, ?_⟩
  · rw [outstanding_eq hended', hstand, hrxs, htold.fillProd,
      out_congr htold.rxfill htold.rxdesc htold.fillCons htold.descProd, hs']
    refine hbooks'.same htold.store (fun a _ => ?_) htold.events
    rw [EdmaRx.opaqueAt, htold.rxph, EdmaRx.opaqueAt]
  · rw [hstand, hrxs, htold.rxdesc, hdesc]
    exact hlt
  · rw [hstand, hrxs, htold.descCons, gap_self, Nat.zero_add]
  · rw [hstand, hrxs, htold.descProd, hprod, EdmaRx.descWindow, htold.rxdesc, hdesc, ← hcons]
    exact h.fits

/-- The hardware takes a posted buffer. -/
theorem take (h : RxDmaInv s) (hended : s.ended = false) (hne : s.rx.fillCons ≠ s.rx.fillProd)
    (hs' : s' = { s with
      held := s.held ++ [s.rx.fillAddr s.rx.fillCons]
      rx := s.rx.hwTake }) : RxDmaInv s' := by
  have htaken := h.shape.hwTake
  have hnext := Nat.mod_lt (s.rx.fillCons + 1) (Nat.zero_lt_of_lt h.shape.fillCons_lt)
  have hcons : s'.descCons = s.descCons := by
    rw [hs', RxDmaRun.descCons, RxDmaRun.descCons]
    dsimp only
    rw [htaken.descCons]
  have hended' : s'.ended = false := by rw [hs', hended]
  have hout : (s.rx.out s.held s.rx.fillProd s.descCons).Perm
      (s.rx.hwTake.out (s.held ++ [s.rx.fillAddr s.rx.fillCons]) s.rx.hwTake.fillProd
        s.descCons) := by
    rw [EdmaRx.out, EdmaRx.out, h.shape.fillWindow_take hne, htaken.descProd, List.map_cons]
    simp only [List.append_assoc, List.cons_append, List.nil_append]
    rw [← List.append_assoc, ← List.append_assoc]
    exact List.perm_middle.symm
  have hbooks := h.books
  rw [outstanding_eq hended] at hbooks
  have hbooks' : RxBooks s.rx.hwTake _ := (hbooks.perm hout).same rfl (fun _ _ => rfl) rfl
  subst hs'
  refine ⟨h.running, ⟨h.shape.count, h.shape.descCount, ?_, ?_, ?_, ?_⟩, ?_, ?_, ?_, ?_⟩
  · rw [htaken.fillProd]
    exact h.shape.fillProd_lt
  · rw [htaken.fillCons]
    exact hnext
  · rw [htaken.descProd]
    exact h.shape.descProd_lt
  · rw [htaken.descCons]
    exact h.shape.descCons_lt
  · rw [outstanding_eq hended', hcons]
    exact hbooks'
  · rw [hcons]
    exact h.cons_lt
  · rw [hcons, htaken.descCons, htaken.descProd]
    exact h.between
  · rw [hcons, htaken.descProd]
    exact h.fits

/-- Where there is room before the register, there is room before the driver, which stands
    behind it. -/
theorem room (h : RxDmaInv s)
    (hroom : (s.rx.descProd + 1) % s.rx.rxdesc.count ≠ s.rx.descCons) :
    (s.rx.descProd + 1) % s.rx.rxdesc.count ≠ s.descCons := by
  have hfree := (room_iff h.shape.descCons_lt h.shape.descProd_lt).mp hroom
  have hbetween := h.between
  exact (room_iff h.cons_lt h.shape.descProd_lt).mpr (by omega)

/-- The hardware returns a buffer. -/
theorem ret (h : RxDmaInv s) (hended : s.ended = false) {addr : BitVec 32} {srcInfo : BitVec 16}
    {rxPre4 status : BitVec 32} (haddr : addr ∈ s.held)
    (hroom : (s.rx.descProd + 1) % s.rx.rxdesc.count ≠ s.rx.descCons)
    (hlen : (status &&& edmaRxdescPacketLenMask).toNat ≤ edmaRxBuffSize)
    (hs' : s' = { s with
      held := s.held.erase addr
      rx := s.rx.hwReturn addr srcInfo rxPre4 status }) : RxDmaInv s' := by
  have hret := h.shape.hwReturn addr srcInfo rxPre4 status
  have hstand := h.room hroom
  have hcons : s'.descCons = s.descCons := by
    rw [hs', RxDmaRun.descCons, RxDmaRun.descCons]
    dsimp only
    rw [hret.descCons]
  have hended' : s'.ended = false := by rw [hs', hended]
  have hwindow := hret.descWindow h.shape h.cons_lt hstand
  have hbooks := h.books
  rw [outstanding_eq hended] at hbooks
  have hbooks' := (hbooks.perm (hret.out_perm h.shape h.cons_lt hstand haddr)).same hret.store
    (fun a _ => hret.opaqueAt a) hret.events
  subst hs'
  refine ⟨h.running, hret.shape h.shape, ?_, ?_, ?_, ?_⟩
  · rw [outstanding_eq hended', hcons]
    exact hbooks'
  · rw [hcons, hret.count]
    exact h.cons_lt
  · rw [hcons, hret.count, hret.descCons, hret.descProd,
      gap_prod_succ h.cons_lt h.shape.descProd_lt hstand,
      gap_prod_succ h.shape.descCons_lt h.shape.descProd_lt hroom, ← Nat.add_assoc, h.between]
  · intro i hi
    rw [hcons, hwindow] at hi
    rcases List.mem_append.mp hi with hi | hi
    · rw [hret.desc_old h.shape h.cons_lt hi]
      exact h.fits i hi
    · rw [List.mem_singleton.mp hi, hret.desc_new]
      exact hlen

/-- The rings are released. -/
theorem cleanup (h : RxDmaInv s) (hended : s.ended = false) (hcall : s.call = none) :
    ∃ rx', s.rx.cleanupRxfillRingRes.bind EdmaRx.cleanupRxdescRingRes = some rx' ∧
      RxBooks rx' s.held ∧ RxDmaInv { s with rx := rx', ended := true } := by
  have hcons : s.descCons = s.rx.descCons := by rw [RxDmaRun.descCons, hcall]
  have hbooks := h.books
  rw [outstanding_eq hended, hcons] at hbooks
  obtain ⟨rx', hrx', hsame, hbooks'⟩ := cleanup_books h.shape hbooks
  have hcons' : RxDmaRun.descCons { s with rx := rx', ended := true } = s.descCons := by
    rw [hcons, RxDmaRun.descCons]
    dsimp only
    rw [hcall]
    exact hsame.descCons_eq
  refine ⟨rx', hrx', hbooks', h.running, hsame.shape h.shape, hbooks', ?_, ?_, ?_⟩
  · rw [hcons', hsame.rxdesc]
    exact h.cons_lt
  · rw [hcons', hsame.rxdesc, hsame.descCons_eq, hsame.descProd_eq]
    exact h.between
  · intro i hi
    rw [hcons', hsame.descProd_eq, EdmaRx.descWindow, hsame.rxdesc] at hi
    show ((rx'.rxdesc.desc i).status &&& edmaRxdescPacketLenMask).toNat ≤ edmaRxBuffSize
    rw [hsame.rxdesc]
    exact h.fits i hi

theorem step (h : RxDmaInv s) {soc : Soc} {a : RxDmaLabel} (hlen : LengthFits s a)
    (hstep : rxDmaStep soc s a = some s') : RxDmaInv s' := by
  obtain ⟨-, hended⟩ := rxDmaStep_running hstep
  cases rxDmaStep_does hstep with
  | alloc hcall hfresh => exact h.alloc hended hcall hfresh rfl
  | start hcall =>
    refine h.same ⟨rfl, rfl, fun _ => rfl⟩ rfl rfl rfl rfl rfl rfl ?_
    rw [RxDmaRun.descCons, RxDmaRun.descCons, hcall]
    rfl
  | next hcall hturn =>
    rcases h.turn hended soc hcall with hdone | ⟨rx', call', hnext, hinv⟩
    · cases hturn.symm.trans hdone
    · cases hturn.symm.trans hnext
      exact hinv
  | panic hcall hturn =>
    rcases h.turn hended soc hcall with hdone | ⟨rx', call', hnext, -⟩
    · cases hturn.symm.trans hdone
    · cases hturn.symm.trans hnext
  | finish hcall hturn hfresh => exact h.finish hended hcall hturn hfresh rfl
  | take hne => exact h.take hended hne rfl
  | ret haddr hroom => exact h.ret hended haddr hroom hlen rfl
  | devices => exact h.same ⟨rfl, rfl, fun _ => rfl⟩ rfl rfl rfl rfl rfl rfl rfl
  | cleanup hcall hrx =>
    obtain ⟨rx', hrx', -, hinv⟩ := h.cleanup hended hcall
    cases hrx.symm.trans hrx'
    exact hinv

theorem rxDmaOwned (h : RxDmaInv s) : RxDmaOwned s := by
  refine ⟨h.running, ?_, h.books.ledger.nodup,
    fun _ hskb => h.books.ledger.owned h.books.names hskb, ?_⟩
  · intro i
    rw [h.books.ledger.used i, List.mem_map]
  · intro hended hcall
    obtain ⟨rx', hrx', hbooks, -⟩ := h.cleanup hended hcall
    refine ⟨rx', hrx', ?_⟩
    intro hheld i
    have hused := hbooks.ledger.used i
    rw [hheld, List.map_nil, List.mem_nil_iff, iff_false, Bool.not_eq_true,
      Option.isSome_eq_false_iff, Option.isNone_iff_eq_none] at hused
    exact hused

end RxDmaInv

/-- Calls are made on buffers, and none of them gives a buffer to other code. -/
def KeptBack (rx rx' : EdmaRx) : Prop :=
  ∃ es, rx'.events = rx.events ++ es ∧ ∀ e ∈ es, e.delivered = none

namespace KeptBack

variable {rx rx' rx'' : EdmaRx}

theorem of_events (h : rx'.events = rx.events) : KeptBack rx rx' :=
  ⟨[], by rw [h, List.append_nil], fun _ he => nomatch he⟩

theorem refl (rx : EdmaRx) : KeptBack rx rx := of_events rfl

theorem trans (h : KeptBack rx rx') (h' : KeptBack rx' rx'') : KeptBack rx rx'' := by
  obtain ⟨es, hes, hkept⟩ := h
  obtain ⟨es', hes', hkept'⟩ := h'
  refine ⟨es ++ es', by rw [hes', hes, List.append_assoc], ?_⟩
  intro e he
  rcases List.mem_append.mp he with he | he
  · exact hkept e he
  · exact hkept' e he

/-- Of what is delivered, anything can be said. -/
theorem delivers_none (h : KeptBack rx rx') {P : RxEvent → RxSkb → Prop} :
    ∃ es, rx'.events = rx.events ++ es ∧ ∀ e ∈ es, ∀ skb, e.delivered = some skb → P e skb := by
  obtain ⟨es, hes, hkept⟩ := h
  refine ⟨es, hes, ?_⟩
  intro e he skb hskb
  rw [hkept e he] at hskb
  cases hskb

/-- The loop of the allocation, by induction on the buffers there are. -/
theorem allocRxLoop (cons : Nat) : ∀ (allocs : List EdmaRxAlloc) (l : AllocRxLoop),
    KeptBack l.rx (Edma.allocRxLoop cons allocs l).rx := by
  intro allocs
  induction allocs with
  | nil => exact fun l => refl l.rx
  | cons alloc allocs ih =>
    intro l
    unfold Edma.allocRxLoop
    simp only
    split
    · exact refl l.rx
    · split
      · exact ⟨[.allocSkb alloc.skb, .devKfreeSkb alloc.skb], List.append_assoc _ _ _, by
          simp [RxEvent.delivered]⟩
      · split
        · exact ⟨[.allocSkb alloc.skb, .devKfreeSkb alloc.skb], List.append_assoc _ _ _, by
            simp [RxEvent.delivered]⟩
        · refine trans ?_ (ih _)
          exact ⟨[.allocSkb alloc.skb, .dmaMapSingle .pdev alloc.dma edmaRxBuffSize .fromDevice],
            List.append_assoc _ _ _, by simp [RxEvent.delivered]⟩

theorem allocRxBuffer (rx : EdmaRx) (allocs : List EdmaRxAlloc) :
    KeptBack rx (edmaAllocRxBuffer rx allocs).2 := by
  unfold edmaAllocRxBuffer
  simp only
  have hloop := allocRxLoop
  split
  · exact hloop _ _ _
  · exact hloop _ _ _

/-- The loop that empties a ring, by induction on the tests of its condition. -/
theorem releaseRxLoop (addr : Nat → BitVec 32) (count prodIdx : Nat) :
    ∀ (fuel consIdx : Nat) (rx : EdmaRx) {rx' : EdmaRx},
      Edma.releaseRxLoop addr count prodIdx fuel consIdx rx = some rx' → KeptBack rx rx' := by
  intro fuel
  induction fuel with
  | zero =>
    intro consIdx rx rx' h
    cases h
  | succ fuel ih =>
    intro consIdx rx rx' h
    unfold Edma.releaseRxLoop at h
    split at h
    · cases h
      exact refl _
    · refine trans ?_ (ih _ _ h)
      refine ⟨_, List.append_assoc _ _ _, ?_⟩
      intro e he
      rcases List.mem_append.mp he with he | he
      · rw [List.mem_singleton.mp he]
        rfl
      · obtain ⟨skb, -, rfl⟩ := List.mem_map.mp he
        rfl

theorem cleanup (h : rx.cleanupRxfillRingRes.bind EdmaRx.cleanupRxdescRingRes = some rx'') :
    KeptBack rx rx'' := by
  obtain ⟨rx', hfill, hdesc⟩ := Option.bind_eq_some_iff.mp h
  rw [EdmaRx.cleanupRxfillRingRes] at hfill
  rw [EdmaRx.cleanupRxdescRingRes] at hdesc
  have hfirst : KeptBack rx rx' := releaseRxLoop _ _ _ _ _ (rx.touch _) hfill
  have hsecond : KeptBack rx' rx'' := releaseRxLoop _ _ _ _ _ (rx'.touch _) hdesc
  exact hfirst.trans hsecond

end KeptBack

/-- A step that keeps every buffer back delivers to no wrong port. -/
theorem deliveredToPort_of_keptBack {soc : Soc} {s : RxDmaRun} {a : RxDmaLabel}
    (h : ∀ t, rxDmaStep soc s a = some t → KeptBack s.rx t.rx) : DeliveredToPort soc s a := by
  exact fun t ht => (h t ht).delivers_none

/-- A turn of the poll that goes on has unmapped a buffer, and handed over what its slot held. -/
theorem cleanRxTurn_next {soc : Soc} {rx rx' : EdmaRx} {call call' : CleanRx}
    (h : edmaCleanRxTurn soc rx call = .next rx' call') :
    KeptBack rx rx' ∨ ∃ rx₀ skb e, rx₀.ehw.netdevArr = rx.ehw.netdevArr ∧
      rx₀.running = rx.running ∧
      edmaRxHandOver soc rx₀ (rx.rxph (rx.descAddr call.consIdx))
        (rx.rxdesc.desc call.consIdx).status skb = some e ∧
      rx'.events = rx.events ++
        [.dmaUnmapSingle .pdev (rx.descAddr call.consIdx) edmaRxBuffSize .fromDevice, e] := by
  unfold edmaCleanRxTurn at h
  simp only at h
  split at h
  · cases h
  · split at h
    · cases h
    · split at h
      · cases h
        exact Or.inl ⟨_, rfl, by simp [RxEvent.delivered]⟩
      · split at h
        · cases h
        · rename_i skb _ _ e he
          cases h
          exact Or.inr ⟨_, skb, e, rfl, rfl, he, List.append_assoc _ _ _⟩

/-- One that ends the loop has read a register. -/
theorem cleanRxTurn_done {soc : Soc} {rx rx' : EdmaRx} {call : CleanRx}
    (h : edmaCleanRxTurn soc rx call = .done rx') : KeptBack rx rx' := by
  unfold edmaCleanRxTurn at h
  simp only at h
  split at h
  · cases h
    exact KeptBack.of_events rfl
  · split at h
    · cases h
      exact KeptBack.of_events rfl
    · split at h
      · cases h
      · split at h
        · cases h
        · cases h

/-- One that stops in the kernel has only unmapped a buffer. -/
theorem cleanRxTurn_panic {soc : Soc} {rx rx' : EdmaRx} {call : CleanRx}
    (h : edmaCleanRxTurn soc rx call = .panic rx') : KeptBack rx rx' := by
  unfold edmaCleanRxTurn at h
  simp only at h
  split at h
  · cases h
  · split at h
    · cases h
    · split at h
      · cases h
      · split at h
        · cases h
          exact ⟨_, rfl, by simp [RxEvent.delivered]⟩
        · cases h

/-- What a turn of the poll delivers. -/
theorem deliveredToPort_turn {soc : Soc} (hsoc : soc.ppeSupport = true) (s : RxDmaRun) :
    DeliveredToPort soc s .turn := by
  have hstart : soc.startIfnum = 1 := by
    cases soc with
    | ipq807x => rfl
    | ipq60xx => rfl
    | ipq50xx => cases hsoc
  intro t ht
  cases rxDmaStep_does ht with
  | @next call call' rx hcall hnext =>
    rcases cleanRxTurn_next hnext with hkept | ⟨rx₀, skb, e, hnetdev, hrunning, he, hevents⟩
    · exact hkept.delivers_none
    · refine ⟨_, hevents, ?_⟩
      intro e' he' skb' hskb'
      rcases List.mem_cons.mp he' with rfl | he'
      · cases hskb'
      · rw [List.mem_singleton.mp he'] at hskb' ⊢
        obtain ⟨ndev, len, hto, htype, hlow, hhigh, harr, hopen⟩ := rxHandOver_delivered he hskb'
        rw [hnetdev] at harr
        rw [hrunning] at hopen
        exact ⟨call, ndev, len, rfl, hcall, hto, htype, hstart ▸ hlow, hhigh, harr, hopen⟩
  | panic hcall hpanic => exact (cleanRxTurn_panic hpanic).delivers_none

theorem deliveredToPort {soc : Soc} (hsoc : soc.ppeSupport = true) (s : RxDmaRun)
    (a : RxDmaLabel) : DeliveredToPort soc s a := by
  by_cases hturn : a = .turn
  · rw [hturn]
    exact deliveredToPort_turn hsoc s
  · apply deliveredToPort_of_keptBack
    intro t ht
    cases rxDmaStep_does ht with
    | alloc => exact KeptBack.allocRxBuffer s.rx _
    | start | take | ret | devices => exact KeptBack.of_events rfl
    | next => exact absurd rfl hturn
    | panic => exact absurd rfl hturn
    | @finish allocs call rx hcall hdone _ =>
      have hfilled : KeptBack rx (edmaCleanRxEnd rx call allocs).2 :=
        (KeptBack.allocRxBuffer rx allocs).trans (KeptBack.of_events rfl)
      exact (cleanRxTurn_done hdone).trans hfilled
    | cleanup hcall hrx => exact KeptBack.cleanup hrx

/-- In every run from idle rings in which each length the hardware reports fits its buffer, the
    store and the buffers that are out agree, every buffer is delivered or freed once or still
    in its slot, and it is delivered to the open device of the port it came from. -/
theorem rxDmaRun_owned {soc : Soc} (hsoc : soc.ppeSupport = true) {rx : EdmaRx} (hidle : RxIdle rx)
    {as : List RxDmaLabel} (hfits : StepsMeet (rxDmaStep soc) LengthFits (.start rx) as) :
    Always (rxDmaStep soc) RxDmaOwned (.start rx) as ∧
      StepsMeet (rxDmaStep soc) (DeliveredToPort soc) (.start rx) as := by
  have hstep : ∀ s a t, RxDmaInv s → LengthFits s a → rxDmaStep soc s a = some t → RxDmaInv t :=
    fun _ _ _ h hlen hstep => h.step hlen hstep
  have hinv := RxDmaInv.start hidle
  exact ⟨always_of_stepsMeet (fun _ h => h.rxDmaOwned) hstep hinv hfits,
    hfits.of_inv (fun s a _ _ => deliveredToPort hsoc s a) hstep hinv⟩

instance (s : RxDmaRun) (a : RxDmaLabel) : Decidable (LengthFits s a) :=
  match a with
  | .ret _ _ _ status => inferInstanceAs
      (Decidable ((status &&& edmaRxdescPacketLenMask).toNat ≤ edmaRxBuffSize))
  | .alloc _ => isTrue trivial
  | .start _ => isTrue trivial
  | .turn => isTrue trivial
  | .finish _ => isTrue trivial
  | .take => isTrue trivial
  | .devices _ _ => isTrue trivial
  | .cleanup => isTrue trivial

/-- The receive side before the first buffer; port 1 is open. -/
def idleEdmaRx : EdmaRx where
  ehw := { idleEdma with netdevArr := Function.update (fun _ => none) 0 (some 1) }
  rxfill := ⟨0, edmaRingSize, fun _ => ⟨0#32, 0#32⟩⟩
  rxdesc := ⟨0, edmaRingSize, fun _ => ⟨0#32, 0#32⟩⟩
  rxSkbStore _ := none
  rxph _ := ⟨0#32, 0#16, 0#32⟩
  running ndev := ndev = 1
  events := []

/-- The `i`th buffer and its address. -/
def rxAlloc (i : Nat) : EdmaRxAlloc := ⟨⟨i, edmaRxBuffSize⟩, BitVec.ofNat 32 (4096 * (i + 1))⟩

/-- Three buffers are posted and taken. The second comes back first, for port 1, then the third
    for no port; the first is still with the hardware when the rings are released. -/
theorem rxDmaRun_owned_three :
    Always (rxDmaStep .ipq807x) RxDmaOwned (.start idleEdmaRx)
        [.alloc [rxAlloc 0, rxAlloc 1, rxAlloc 2], .take, .take, .take,
          .ret 8192#32 0x2001#16 0#32 64#32, .start 64, .turn, .ret 12288#32 0#16 0#32 64#32,
          .turn, .finish [rxAlloc 3], .cleanup] ∧
      StepsMeet (rxDmaStep .ipq807x) (DeliveredToPort .ipq807x) (.start idleEdmaRx)
        [.alloc [rxAlloc 0, rxAlloc 1, rxAlloc 2], .take, .take, .take,
          .ret 8192#32 0x2001#16 0#32 64#32, .start 64, .turn, .ret 12288#32 0#16 0#32 64#32,
          .turn, .finish [rxAlloc 3], .cleanup] :=
  rxDmaRun_owned rfl
    ⟨⟨7, by decide, rfl⟩, ⟨7, by decide, rfl⟩, rfl, by decide, rfl, by decide, fun _ => rfl, rfl⟩
    (by decide +kernel)

/-- A buffer the hardware has taken is in neither ring and still in the store, and stays there
    when the rings are released; and a length beyond the buffer stops the kernel with the
    buffer neither in the store nor delivered nor freed. -/
theorem rxDmaRun_beyondRings :
    RxIdle idleEdmaRx ∧
      (∃ u, run (rxDmaStep .ipq807x) (.start idleEdmaRx) [.alloc [rxAlloc 0], .take] = some u ∧
        u.rx.out [] u.rx.fillProd u.descCons = [] ∧
        u.rx.rxSkbStore 0 = some (rxAlloc 0).skb) ∧
      (∃ u, run (rxDmaStep .ipq807x) (.start idleEdmaRx) [.alloc [rxAlloc 0], .take, .cleanup] =
          some u ∧ u.rx.rxSkbStore 0 = some (rxAlloc 0).skb) ∧
      ∃ u, run (rxDmaStep .ipq807x) (.start idleEdmaRx) [.alloc [rxAlloc 0], .take,
          .ret 4096#32 0x2001#16 0#32 0x3fff#32, .start 64, .turn] = some u ∧
        u.panicked = true ∧ (rxAlloc 0).skb ∈ allocatedSkbs u.rx.events ∧
        (∀ i, u.rx.rxSkbStore i = none) ∧ leftSkbs u.rx.events = [] := by
  refine ⟨⟨⟨7, by decide, rfl⟩, ⟨7, by decide, rfl⟩, rfl, by decide, rfl, by decide, fun _ => rfl,
    rfl⟩, ⟨_, rfl, rfl, rfl⟩, ⟨_, rfl, rfl⟩,
    ⟨_, rfl, rfl, by decide +kernel, ?_, by decide +kernel⟩⟩
  intro i
  show Function.update (Function.update (fun _ => none) 0 (some (rxAlloc 0).skb)) 0 none i = none
  by_cases hi : i = 0
  · rw [hi, Function.update_self]
  · rw [Function.update_of_ne hi, Function.update_of_ne hi]

end NssDp.Edma
