import NssDp.Edma.ConfigureRings
import NssDp.Edma.Proofs.PollBudget
import NssDp.Edma.Proofs.RxRefill

/-!
# The rings after their configuration

The consumer index of a TXDESC ring is masked away before it is copied, so the producer index
ends at zero whatever it was. An RXFILL ring is filled but for one descriptor while the slots of
the store it comes to are free; the store has no more slots than one ring has descriptors, so
only one ring finds them so.
-/

namespace NssDp.Edma

open Cyclic Word

/-- The addresses of the buffers that are posted in an RXFILL ring. -/
def EdmaPoll.posted (dev : EdmaPoll) (r : Nat) : List (BitVec 32) :=
  ((dev.rx 0 r).fillWindow (dev.rx 0 r).fillCons (dev.rx 0 r).fillProd).map (dev.rx 0 r).fillAddr

/-- The slot of the store that the buffer at an address names. -/
def EdmaPoll.slotAt (dev : EdmaPoll) (addr : BitVec 32) : Nat := (dev.rxph addr).opaqueWord.toNat

/-- What the configuration is to make of `s`: the TXDESC rings are empty, and the RXFILL rings
    are full, each buffer with a slot of its own. -/
structure RingsReady (allocs : Nat → List EdmaRxAlloc) (s t : RingConfig) : Prop where
  txEmpty : ∀ i < s.dev.ehw.txdescRings, t.dev.ehw.txProd i = t.dev.ehw.txCons i
  txOther : ∀ i < s.dev.ehw.txdescRings,
    t.dev.ehw.regs (.txdescProdIdx (s.dev.ehw.txdescRing i).id) &&& ~~~edmaIdxMask =
      s.dev.ehw.regs (.txdescProdIdx (s.dev.ehw.txdescRing i).id) &&& ~~~edmaIdxMask
  txStore : ∀ j < edmaRingSize, t.dev.ehw.txSkbStore j = none
  full : ∀ r < s.dev.ehw.rxfillRings, (t.dev.posted r).length = s.dev.rxfillCount r - 1
  stored : ∀ r < s.dev.ehw.rxfillRings, ∀ addr ∈ t.dev.posted r,
    t.dev.slotAt addr < edmaRingSize ∧
      ∃ alloc ∈ allocs r, alloc.dma = addr ∧ t.dev.rxSkbStore (t.dev.slotAt addr) = some alloc.skb
  own : ((List.range s.dev.ehw.rxfillRings).flatMap fun r =>
    (t.dev.posted r).map t.dev.slotAt).Nodup

/-- The RXFILL rings as they are set up, with equal indices. -/
structure FillRingsEmpty (s : RingConfig) : Prop where
  count : ∀ r < s.dev.ehw.rxfillRings, s.dev.rxfillCount r = edmaRingSize
  empty : ∀ r < s.dev.ehw.rxfillRings, (s.dev.rx 0 r).fillProd = (s.dev.rx 0 r).fillCons
  cons_lt : ∀ r < s.dev.ehw.rxfillRings, (s.dev.rx 0 r).fillCons < edmaRingSize

/-- For every RXFILL ring there are buffers enough, and all are mapped, at different addresses. -/
structure AllocsSucceed (allocs : Nat → List EdmaRxAlloc) (s : RingConfig) : Prop where
  enough : ∀ r < s.dev.ehw.rxfillRings, edmaRingSize ≤ (allocs r).length + 1
  mapped : ∀ r < s.dev.ehw.rxfillRings, ∀ alloc ∈ allocs r, alloc.dma ≠ 0#32
  apart : ∀ r < s.dev.ehw.rxfillRings, ((allocs r).map EdmaRxAlloc.dma).Nodup

/-! The TXDESC rings -/

/-- All of the index is masked away. -/
theorem consIdx_masked (data : BitVec 32) : (data &&& ~~~edmaIdxMask).setWidth 16 = 0#16 := by
  rw [BitVec.setWidth_and, show (~~~edmaIdxMask).setWidth 16 = 0#16 by decide, BitVec.and_zero]

/-- The instance after the configuration of one TXDESC ring. -/
theorem edmaConfigureTxdescRing_dev (s : RingConfig) (i : Nat) :
    (edmaConfigureTxdescRing s i).dev = { s.dev with
      ehw := (s.dev.ehw.touch [.regRead (.txdescConsIdx (s.dev.ehw.txdescRing i).id),
        .regRead (.txdescProdIdx (s.dev.ehw.txdescRing i).id)]).regWrite
          (.txdescProdIdx (s.dev.ehw.txdescRing i).id)
          (s.dev.ehw.regs (.txdescProdIdx (s.dev.ehw.txdescRing i).id) &&& ~~~edmaIdxMask) } := by
  simp only [edmaConfigureTxdescRing, RingConfig.setEhw, RingConfig.regWrite_dev,
    consIdx_masked, EdmaHw.touch, List.append_assoc, List.singleton_append]
  simp

/-- The register with the producer index of a TXDESC ring. -/
def txProdReg (ehw : EdmaHw) (i : Nat) : EdmaReg := .txdescProdIdx (ehw.txdescRing i).id

/-- The loop over the TXDESC rings clears the producer indices, by induction on the rings: a
    register that is written twice is cleared twice. -/
theorem txdescLoop_dev (is : List Nat) (s : RingConfig) : ∃ log,
    (is.foldl edmaConfigureTxdescRing s).dev = { s.dev with
      ehw := { s.dev.ehw with
        regs := fun r => if r ∈ is.map (txProdReg s.dev.ehw) then
          s.dev.ehw.regs r &&& ~~~edmaIdxMask else s.dev.ehw.regs r
        log } } := by
  induction is generalizing s with
  | nil => exact ⟨s.dev.ehw.log, by simp⟩
  | cons i is ih =>
    obtain ⟨log, h⟩ := ih (edmaConfigureTxdescRing s i)
    refine ⟨log, ?_⟩
    have hids : txProdReg (edmaConfigureTxdescRing s i).dev.ehw = txProdReg s.dev.ehw := by
      rw [edmaConfigureTxdescRing_dev]
      rfl
    rw [List.foldl_cons, h, hids, edmaConfigureTxdescRing_dev]
    simp only [EdmaHw.regWrite, EdmaHw.touch, List.map_cons, List.mem_cons]
    congr 2
    funext r
    rw [← txProdReg]
    by_cases hr : r = txProdReg s.dev.ehw i
    · rw [hr, Function.update_self, BitVec.and_assoc, BitVec.and_self]
      simp
    · rw [Function.update_of_ne hr]
      simp [hr]

/-! The loops that write no index -/

theorem txcmplLoop_dev (is : List Nat) (s : RingConfig) :
    (is.foldl edmaConfigureTxcmplRing s).dev = s.dev := by
  induction is generalizing s with
  | nil => rfl
  | cons i is ih =>
    rw [List.foldl_cons, ih]
    rfl

theorem rxdescLoop_dev (is : List Nat) (s : RingConfig) :
    (is.foldl edmaConfigureRxdescRing s).dev = s.dev := by
  induction is generalizing s with
  | nil => rfl
  | cons i is ih =>
    rw [List.foldl_cons, ih]
    rfl

/-! The RXFILL rings -/

/-- What the filling of rings leaves alone. -/
structure SameTx (dev dev' : EdmaPoll) : Prop where
  regs : ∀ r, (∀ n, r ≠ .rxfillProdIdx n) → dev'.ehw.regs r = dev.ehw.regs r
  txdescRing : dev'.ehw.txdescRing = dev.ehw.txdescRing
  txSkbStore : dev'.ehw.txSkbStore = dev.ehw.txSkbStore
  rxfillRings : dev'.ehw.rxfillRings = dev.ehw.rxfillRings

theorem SameTx.trans {dev₁ dev₂ dev₃ : EdmaPoll} (h₁ : SameTx dev₁ dev₂) (h₂ : SameTx dev₂ dev₃) :
    SameTx dev₁ dev₃ := by
  refine ⟨?_, h₂.txdescRing.trans h₁.txdescRing, h₂.txSkbStore.trans h₁.txSkbStore,
    h₂.rxfillRings.trans h₁.rxfillRings⟩
  intro r hr
  exact (h₂.regs r hr).trans (h₁.regs r hr)

/-- Of the instance, a refill changes one register and the log. -/
theorem edmaAllocRxBuffer_ehw (rx : EdmaRx) (allocs : List EdmaRxAlloc) : ∃ regs log,
    (edmaAllocRxBuffer rx allocs).2.ehw = { rx.ehw with regs, log } ∧
      ∀ r, r ≠ .rxfillProdIdx rx.rxfill.id → regs r = rx.ehw.regs r := by
  unfold edmaAllocRxBuffer
  dsimp only
  generalize hl : allocRxLoop _ allocs _ = l
  have hehw : l.rx.ehw = rx.ehw.touch [.regRead (.rxfillProdIdx rx.rxfill.id),
      .regRead (.rxfillConsIdx rx.rxfill.id)] :=
    (hl ▸ allocRxLoop_numAlloc _ allocs ⟨0, _, _⟩ (Nat.two_pow_pos 16)).2
  have hwrite (val : BitVec 32) : (l.rx.regWrite (.rxfillProdIdx rx.rxfill.id) val).ehw =
      (rx.ehw.touch [.regRead (.rxfillProdIdx rx.rxfill.id),
        .regRead (.rxfillConsIdx rx.rxfill.id)]).regWrite (.rxfillProdIdx rx.rxfill.id) val := by
    rw [← hehw]
    rfl
  split
  · exact ⟨_, _, hehw, fun _ _ => rfl⟩
  · exact ⟨_, _, hwrite _, fun r hr => Function.update_of_ne hr _ _⟩

theorem edmaConfigureRxfillRing_sameTx (allocs : Nat → List EdmaRxAlloc) (s : RingConfig)
    (i : Nat) : SameTx s.dev (edmaConfigureRxfillRing allocs s i).dev := by
  obtain ⟨regs, log, hehw, hregs⟩ := edmaAllocRxBuffer_ehw (s.dev.rx 0 i) (allocs i)
  have hdev : (edmaConfigureRxfillRing allocs s i).dev.ehw = { s.dev.ehw with regs, log } := hehw
  refine ⟨?_, ?_, ?_, ?_⟩
  · intro r hr
    rw [hdev]
    exact hregs r (hr _)
  · rw [hdev]
  · rw [hdev]
  · rw [hdev]

theorem rxfillLoop_sameTx (allocs : Nat → List EdmaRxAlloc) (is : List Nat) (s : RingConfig) :
    SameTx s.dev (is.foldl (edmaConfigureRxfillRing allocs) s).dev := by
  induction is generalizing s with
  | nil => exact ⟨fun _ _ => rfl, rfl, rfl, rfl⟩
  | cons i is ih => exact (edmaConfigureRxfillRing_sameTx allocs s i).trans (ih _)

/-! The filling of one ring -/

/-- The buffers `done` are posted from `cons` on, each in the slot it names, and the slots after
    them are free. -/
structure Filled (rx : EdmaRx) (cons : Nat) (done : List EdmaRxAlloc) : Prop where
  at_slot : ∀ k alloc, done[k]? = some alloc →
    rx.fillAddr (slot rx.rxfill.count cons k) = alloc.dma ∧
      rx.opaqueAt alloc.dma = slot rx.rxfill.count cons k ∧
      rx.rxSkbStore (slot rx.rxfill.count cons k) = some alloc.skb
  free : ∀ k, done.length ≤ k → k < rx.rxfill.count →
    rx.rxSkbStore (slot rx.rxfill.count cons k) = none

/-- An empty ring whose slots are free is filled but for one descriptor. -/
theorem edmaAllocRxBuffer_fill {rx : EdmaRx} {allocs : List EdmaRxAlloc}
    (hcount : rx.rxfill.count = edmaRingSize) (hempty : rx.fillProd = rx.fillCons)
    (hcons : rx.fillCons < edmaRingSize) (hfree : ∀ j < edmaRingSize, rx.rxSkbStore j = none)
    (henough : edmaRingSize ≤ allocs.length + 1) (hmapped : ∀ alloc ∈ allocs, alloc.dma ≠ 0#32)
    (hapart : (allocs.map EdmaRxAlloc.dma).Nodup) :
    ∃ rx' done, (edmaAllocRxBuffer rx allocs).2 = rx' ∧ rx'.rxfill.count = edmaRingSize ∧
      rx'.rxfill.id = rx.rxfill.id ∧ rx'.fillCons = rx.fillCons ∧
      rx'.fillProd = slot edmaRingSize rx.fillCons (edmaRingSize - 1) ∧
      done.length + 1 = edmaRingSize ∧ done ⊆ allocs ∧ Filled rx' rx.fillCons done := by
  have hroom : room edmaRingSize rx.fillCons rx.fillCons = edmaRingSize - 1 := by
    rw [room, Nat.add_sub_cancel_left]
    rfl
  have hprod : rx.fillProd < rx.rxfill.count := by
    rw [hempty, hcount]
    exact hcons
  have hslot (k : Nat) : rx.rxSkbStore (slot rx.rxfill.count rx.fillCons k) = none := by
    rw [hcount]
    exact hfree _ (slot_lt (by decide) _ _)
  obtain ⟨done, turned, hresult, hstops⟩ := edmaAllocRxBuffer_result ⟨7, by decide, hcount⟩ hprod
    (by rwa [hcount])
  rw [hempty, hcount, hroom] at hstops
  -- an attempt that does not succeed finds no buffer, and there are enough
  have hlen : done.length = edmaRingSize - 1 := by
    by_contra hne
    have hle := hstops.le
    have hlt : done.length < allocs.length := by omega
    apply hstops.last (by omega)
    exact ⟨allocs[done.length], List.getElem?_eq_getElem hlt, hslot _,
      hmapped _ (List.getElem_mem hlt)⟩
  have hget : ∀ k < done.length, done[k]? = allocs[k]? := fun k hk => (hstops.attempted k hk).symm
  have hsub : done ⊆ allocs := by
    intro alloc hmem
    obtain ⟨k, hk⟩ := List.mem_iff_getElem?.mp hmem
    rw [hget k (List.getElem?_eq_some_iff.mp hk).1] at hk
    exact List.mem_of_getElem? hk
  have hnodup : (done.map EdmaRxAlloc.dma).Nodup := by
    have hpre : done = allocs.take done.length := by
      apply List.ext_getElem?
      intro k
      rcases Nat.lt_or_ge k done.length with hk | hk
      · rw [hget k hk, List.getElem?_take_of_lt hk]
      · rw [List.getElem?_eq_none hk, List.getElem?_take_eq_none hk]
    rw [hpre]
    exact hapart.sublist ((List.take_sublist _ _).map _)
  have hrefilled := hresult.refilled
  have hehw := hresult.ehw
  rw [hempty, hcount, hlen] at hehw
  rw [hempty] at hrefilled
  refine ⟨_, done, rfl, hrefilled.count.trans hcount, hrefilled.id, ?_, ?_, by omega, hsub, ?_⟩
  · rw [EdmaRx.fillCons, hrefilled.id, hehw]
    exact EdmaHw.regWrite_regIdx_of_ne _ _ _ (by simp)
  · rw [EdmaRx.fillProd, hrefilled.id, hehw]
    exact EdmaHw.regWrite_regIdx_self _ _ (Nat.lt_trans (Nat.mod_lt _ (by decide)) (by decide))
  · refine ⟨fun k alloc hk => ?_, fun k hle hk => ?_⟩
    · obtain ⟨hdesc, hstore⟩ := hrefilled.at_slot k alloc hk
      rw [hrefilled.count]
      exact ⟨congrArg EdmaRxfillDesc.bufferAddr hdesc, hrefilled.opaqueAt hnodup k alloc hk, hstore⟩
    · rw [hrefilled.count] at hk ⊢
      rw [hrefilled.store _ fun hmem => ?_]
      · exact hslot k
      · obtain ⟨i, hi, heq⟩ := mem_window.mp hmem
        have hsame := slot_inj (by omega) hk heq
        omega

/-- What is posted in a ring that has been filled: each buffer names the slot of its own
    descriptor, and is there. -/
theorem Filled.posted {dev : EdmaPoll} {r cons : Nat} {rx' : EdmaRx} {done : List EdmaRxAlloc}
    (h : Filled rx' cons done) (hid : rx'.rxfill.id = (rx'.ehw.rxfillRing r).id)
    (hcount : rx'.rxfill.count = edmaRingSize) (hcount' : dev.rxfillCount r = edmaRingSize)
    (hfillCons : rx'.fillCons = cons) (hcons : cons < edmaRingSize)
    (hprod : rx'.fillProd = slot edmaRingSize cons (edmaRingSize - 1))
    (hlen : done.length + 1 = edmaRingSize) :
    (dev.setRx r rx').posted r = done.map EdmaRxAlloc.dma ∧
      ((dev.setRx r rx').posted r).map (dev.setRx r rx').slotAt =
        window edmaRingSize cons (edmaRingSize - 1) := by
  have hfill : ((dev.setRx r rx').rx 0 r).rxfill = rx'.rxfill := by
    simp only [EdmaPoll.rx, EdmaPoll.setRx, Function.update_self, hcount', ← hid, ← hcount]
  have hcons' : ((dev.setRx r rx').rx 0 r).fillCons = cons := by
    rw [← hfillCons, EdmaRx.fillCons, hfill]
    rfl
  have hprod' : ((dev.setRx r rx').rx 0 r).fillProd =
      slot edmaRingSize cons (edmaRingSize - 1) := by
    rw [← hprod, EdmaRx.fillProd, hfill]
    rfl
  have haddr : ((dev.setRx r rx').rx 0 r).fillAddr = rx'.fillAddr := by
    funext j
    rw [EdmaRx.fillAddr, hfill]
    rfl
  have hposted : (dev.setRx r rx').posted r =
      (window edmaRingSize cons (edmaRingSize - 1)).map rx'.fillAddr := by
    rw [EdmaPoll.posted, EdmaRx.fillWindow, hfill, hcons', hprod', haddr, hcount,
      gap_slot hcons (by decide)]
  have hslots (k : Nat) (hk : k < edmaRingSize - 1) : ∃ alloc, done[k]? = some alloc ∧
      rx'.fillAddr (slot edmaRingSize cons k) = alloc.dma ∧
      rx'.opaqueAt alloc.dma = slot edmaRingSize cons k := by
    have hlt : k < done.length := by omega
    obtain ⟨haddr, hword, -⟩ := h.at_slot k done[k] (List.getElem?_eq_getElem hlt)
    rw [hcount] at haddr hword
    exact ⟨done[k], List.getElem?_eq_getElem hlt, haddr, hword⟩
  constructor
  · rw [hposted, window, List.map_map]
    apply List.ext_getElem?
    intro k
    rw [List.getElem?_map, List.getElem?_map]
    rcases Nat.lt_or_ge k (edmaRingSize - 1) with hk | hk
    · obtain ⟨alloc, hget, haddr, -⟩ := hslots k hk
      rw [List.getElem?_range hk, hget]
      exact congrArg some haddr
    · rw [List.getElem?_eq_none (by rw [List.length_range]; exact hk),
        List.getElem?_eq_none (by omega)]
      rfl
  · rw [hposted, List.map_map]
    conv_rhs => rw [← List.map_id (window edmaRingSize cons (edmaRingSize - 1))]
    apply List.map_congr_left
    intro j hj
    obtain ⟨k, hk, rfl⟩ := mem_window.mp hj
    obtain ⟨alloc, -, haddr, hword⟩ := hslots k hk
    rw [Function.comp_apply, haddr]
    exact hword

/-! The whole configuration -/

/-- What the RXFILL rings find: the stores are clear, and so are the producer indices of the TXDESC
    rings; the rest is as it was. -/
structure RxfillStart (s u : RingConfig) : Prop where
  prod : ∀ i < s.dev.ehw.txdescRings, u.dev.ehw.regs (txProdReg s.dev.ehw i) =
    s.dev.ehw.regs (txProdReg s.dev.ehw i) &&& ~~~edmaIdxMask
  other : ∀ reg, (∀ i, reg ≠ txProdReg s.dev.ehw i) →
    u.dev.ehw.regIdx reg = s.dev.ehw.regIdx reg
  txdescRing : u.dev.ehw.txdescRing = s.dev.ehw.txdescRing
  rxfillRing : u.dev.ehw.rxfillRing = s.dev.ehw.rxfillRing
  rxfillCount : u.dev.rxfillCount = s.dev.rxfillCount
  txStore : ∀ j < edmaRingSize, u.dev.ehw.txSkbStore j = none
  rxStore : ∀ j < edmaRingSize, u.dev.rxSkbStore j = none

/-- The two loops before the RXFILL rings. -/
theorem txLoops_rxfillStart (s : RingConfig) (is : List Nat) :
    RxfillStart s (is.foldl edmaConfigureTxcmplRing
      ((List.range s.dev.ehw.txdescRings).foldl edmaConfigureTxdescRing s.clearStores)) := by
  obtain ⟨log, htx⟩ := txdescLoop_dev (List.range s.dev.ehw.txdescRings) s.clearStores
  have hregs (reg : EdmaReg) : (is.foldl edmaConfigureTxcmplRing
      ((List.range s.dev.ehw.txdescRings).foldl edmaConfigureTxdescRing
        s.clearStores)).dev.ehw.regs reg =
      if reg ∈ (List.range s.dev.ehw.txdescRings).map (txProdReg s.dev.ehw) then
        s.dev.ehw.regs reg &&& ~~~edmaIdxMask else s.dev.ehw.regs reg := by
    rw [txcmplLoop_dev, htx]
    rfl
  refine ⟨?_, ?_, ?_, ?_, ?_, ?_, ?_⟩
  · intro i hi
    rw [hregs, if_pos (List.mem_map_of_mem (List.mem_range.mpr hi))]
  · intro reg hreg
    rw [EdmaHw.regIdx, EdmaHw.regIdx, hregs, if_neg]
    intro hmem
    obtain ⟨i, -, hi⟩ := List.mem_map.mp hmem
    exact hreg i hi.symm
  · rw [txcmplLoop_dev, htx]
    rfl
  · rw [txcmplLoop_dev, htx]
    rfl
  · rw [txcmplLoop_dev, htx]
    rfl
  · intro j hj
    rw [txcmplLoop_dev, htx]
    exact if_pos hj
  · intro j hj
    rw [txcmplLoop_dev, htx]
    exact if_pos hj

/-- Nothing after the RXFILL rings changes the instance. -/
theorem edmaConfigureRings_dev (allocs : Nat → List EdmaRxAlloc) (s : RingConfig) :
    ∃ u, RxfillStart s u ∧ (edmaConfigureRings allocs s).dev =
      ((List.range s.dev.ehw.rxfillRings).foldl (edmaConfigureRxfillRing allocs) u).dev := by
  obtain ⟨log, htx⟩ := txdescLoop_dev (List.range s.dev.ehw.txdescRings) s.clearStores
  obtain ⟨v, hv⟩ : ∃ v, v = (List.range s.dev.ehw.txdescRings).foldl edmaConfigureTxdescRing
    s.clearStores := ⟨_, rfl⟩
  have hrings : ((List.range v.dev.ehw.txcmplRings).foldl edmaConfigureTxcmplRing
      v).dev.ehw.rxfillRings = s.dev.ehw.rxfillRings := by
    rw [txcmplLoop_dev, hv, htx]
    rfl
  refine ⟨(List.range v.dev.ehw.txcmplRings).foldl edmaConfigureTxcmplRing v, ?_, ?_⟩
  · rw [hv]
    apply txLoops_rxfillStart
  · rw [← hrings, hv, edmaConfigureRings, rxdescLoop_dev]
    rfl

namespace RxfillStart

variable {s u : RingConfig}

theorem fillCons (h : RxfillStart s u) (r : Nat) :
    (u.dev.rx 0 r).fillCons = (s.dev.rx 0 r).fillCons := by
  have hid : (u.dev.rx 0 r).rxfill.id = (s.dev.rx 0 r).rxfill.id := by
    simp only [EdmaPoll.rx, h.rxfillRing]
  rw [EdmaRx.fillCons, hid]
  apply h.other
  intro i
  simp [txProdReg]

theorem fillProd (h : RxfillStart s u) (r : Nat) :
    (u.dev.rx 0 r).fillProd = (s.dev.rx 0 r).fillProd := by
  have hid : (u.dev.rx 0 r).rxfill.id = (s.dev.rx 0 r).rxfill.id := by
    simp only [EdmaPoll.rx, h.rxfillRing]
  rw [EdmaRx.fillProd, hid]
  apply h.other
  intro i
  simp [txProdReg]

end RxfillStart

section Ready

variable {allocs : Nat → List EdmaRxAlloc} {s t : RingConfig}

/-- What the configuration makes of the transmit side, whatever the RXFILL rings. -/
structure TxConfigured (s t : RingConfig) : Prop where
  prod : ∀ i < s.dev.ehw.txdescRings, t.dev.ehw.regs (txProdReg s.dev.ehw i) =
    s.dev.ehw.regs (txProdReg s.dev.ehw i) &&& ~~~edmaIdxMask
  cons : ∀ i, t.dev.ehw.txCons i = s.dev.ehw.txCons i
  ring : t.dev.ehw.txdescRing = s.dev.ehw.txdescRing
  store : ∀ j < edmaRingSize, t.dev.ehw.txSkbStore j = none

theorem edmaConfigureRings_tx (allocs : Nat → List EdmaRxAlloc) (s : RingConfig) :
    TxConfigured s (edmaConfigureRings allocs s) := by
  obtain ⟨u, hu, hdev⟩ := edmaConfigureRings_dev allocs s
  have hsame := rxfillLoop_sameTx allocs (List.range s.dev.ehw.rxfillRings) u
  rw [← hdev] at hsame
  have hring : (edmaConfigureRings allocs s).dev.ehw.txdescRing = s.dev.ehw.txdescRing :=
    hsame.txdescRing.trans hu.txdescRing
  refine ⟨?_, ?_, hring, ?_⟩
  · intro i hi
    rw [hsame.regs _ (fun n => by simp [txProdReg])]
    exact hu.prod i hi
  · intro i
    rw [EdmaHw.txCons, hring, EdmaHw.regIdx, hsame.regs _ (fun n => by simp)]
    apply hu.other
    intro n
    simp [txProdReg]
  · intro j hj
    rw [hsame.txSkbStore]
    exact hu.txStore j hj

/-- The producer index of every TXDESC ring is zero. -/
theorem TxConfigured.txProd (h : TxConfigured s t) {i : Nat} (hi : i < s.dev.ehw.txdescRings) :
    t.dev.ehw.txProd i = 0 := by
  have hreg := h.prod i hi
  rw [txProdReg] at hreg
  rw [EdmaHw.txProd, EdmaHw.regIdx, h.ring, hreg, BitVec.and_assoc,
    show ~~~edmaIdxMask &&& edmaIdxMask = 0#32 by decide, BitVec.and_zero]
  rfl

/-- The store has no room for the buffers of a second ring. -/
theorem RingsReady.rings_le (h : RingsReady allocs s t) (hcount : FillRingsEmpty s) :
    s.dev.ehw.rxfillRings ≤ 1 := by
  have hlen : ((List.range s.dev.ehw.rxfillRings).flatMap fun r =>
      (t.dev.posted r).map t.dev.slotAt).length =
        s.dev.ehw.rxfillRings * (edmaRingSize - 1) := by
    have hring : ∀ r ∈ List.range s.dev.ehw.rxfillRings,
        ((t.dev.posted r).map t.dev.slotAt).length = edmaRingSize - 1 := by
      intro r hr
      rw [List.mem_range] at hr
      rw [List.length_map, h.full r hr, hcount.count r hr]
    rw [List.length_flatMap, List.map_congr_left hring, List.map_const', List.length_range,
      List.sum_replicate_nat]
  have hsub : ((List.range s.dev.ehw.rxfillRings).flatMap fun r =>
      (t.dev.posted r).map t.dev.slotAt) ⊆ List.range edmaRingSize := by
    intro j hj
    obtain ⟨r, hr, hj⟩ := List.mem_flatMap.mp hj
    obtain ⟨addr, haddr, rfl⟩ := List.mem_map.mp hj
    exact List.mem_range.mpr (h.stored r (List.mem_range.mp hr) addr haddr).1
  have hle := (List.subperm_of_subset h.own hsub).length_le
  rw [hlen, List.length_range] at hle
  unfold edmaRingSize at hle
  omega

/-- The only RXFILL ring is filled with buffers of the allocator, each in the slot it names. -/
theorem edmaConfigureRings_one (hs : FillRingsEmpty s) (hallocs : AllocsSucceed allocs s)
    (hone : s.dev.ehw.rxfillRings = 1) : ∃ (cons : Nat) (done : List EdmaRxAlloc),
      (edmaConfigureRings allocs s).dev.posted 0 = done.map EdmaRxAlloc.dma ∧
      ((edmaConfigureRings allocs s).dev.posted 0).map (edmaConfigureRings allocs s).dev.slotAt =
        window edmaRingSize cons (edmaRingSize - 1) ∧
      done.length + 1 = edmaRingSize ∧ done ⊆ allocs 0 ∧
      ∀ alloc ∈ done, (edmaConfigureRings allocs s).dev.rxSkbStore
        ((edmaConfigureRings allocs s).dev.slotAt alloc.dma) = some alloc.skb := by
  obtain ⟨u, hu, hdev⟩ := edmaConfigureRings_dev allocs s
  have hzero : 0 < s.dev.ehw.rxfillRings := by omega
  have hcount : u.dev.rxfillCount 0 = edmaRingSize := by
    rw [hu.rxfillCount]
    exact hs.count 0 hzero
  have hempty : (u.dev.rx 0 0).fillProd = (u.dev.rx 0 0).fillCons := by
    rw [hu.fillProd, hu.fillCons]
    exact hs.empty 0 hzero
  have hlt : (u.dev.rx 0 0).fillCons < edmaRingSize := by
    rw [hu.fillCons]
    exact hs.cons_lt 0 hzero
  obtain ⟨rx', done, hrx, hcount', hid', hcons', hprod', hlen, hsub, hfilled⟩ :=
    @edmaAllocRxBuffer_fill (u.dev.rx 0 0) (allocs 0) hcount hempty hlt hu.rxStore
      (hallocs.enough 0 hzero) (hallocs.mapped 0 hzero) (hallocs.apart 0 hzero)
  have hrings : rx'.ehw.rxfillRing = u.dev.ehw.rxfillRing := by
    obtain ⟨regs, log, hehw, -⟩ := edmaAllocRxBuffer_ehw (u.dev.rx 0 0) (allocs 0)
    rw [← hrx, hehw]
    rfl
  have ht : (edmaConfigureRings allocs s).dev = u.dev.setRx 0 rx' := by
    rw [hdev, hone, ← hrx]
    rfl
  have hring : rx'.rxfill.id = (rx'.ehw.rxfillRing 0).id := by
    rw [hid', hrings]
    rfl
  obtain ⟨hposted, hslots⟩ := hfilled.posted hring hcount' hcount hcons' hlt hprod' hlen
  rw [ht]
  refine ⟨_, done, hposted, hslots, hlen, hsub, ?_⟩
  intro alloc halloc
  obtain ⟨k, hk⟩ := List.getElem?_of_mem halloc
  obtain ⟨-, hword, hstore⟩ := hfilled.at_slot k alloc hk
  show rx'.rxSkbStore (rx'.opaqueAt alloc.dma) = some alloc.skb
  rw [hword, hstore]

/-- The configuration of the rings does what it is to do if and only if the consumer index of
    every TXDESC ring is zero and there is at most one RXFILL ring. -/
theorem edmaConfigureRings_ready_iff (hs : FillRingsEmpty s) (hallocs : AllocsSucceed allocs s) :
    RingsReady allocs s (edmaConfigureRings allocs s) ↔
      (∀ i < s.dev.ehw.txdescRings, s.dev.ehw.txCons i = 0) ∧ s.dev.ehw.rxfillRings ≤ 1 := by
  have htx := edmaConfigureRings_tx allocs s
  constructor
  · intro h
    refine ⟨?_, h.rings_le hs⟩
    intro i hi
    rw [← htx.cons i, ← h.txEmpty i hi, htx.txProd hi]
  · rintro ⟨hcons, hrings⟩
    have hother : ∀ i < s.dev.ehw.txdescRings,
        (edmaConfigureRings allocs s).dev.ehw.regs (txProdReg s.dev.ehw i) &&& ~~~edmaIdxMask =
          s.dev.ehw.regs (txProdReg s.dev.ehw i) &&& ~~~edmaIdxMask := by
      intro i hi
      rw [htx.prod i hi, BitVec.and_assoc, BitVec.and_self]
    have hempty : ∀ i < s.dev.ehw.txdescRings,
        (edmaConfigureRings allocs s).dev.ehw.txProd i =
          (edmaConfigureRings allocs s).dev.ehw.txCons i := by
      intro i hi
      rw [htx.txProd hi, htx.cons i, hcons i hi]
    rcases Nat.eq_zero_or_pos s.dev.ehw.rxfillRings with hnone | hpos
    · have hno : ∀ {p : Nat → Prop}, ∀ r < s.dev.ehw.rxfillRings, p r := by
        intro p r hr
        omega
      refine ⟨hempty, hother, htx.store, hno, hno, ?_⟩
      rw [hnone]
      exact List.nodup_nil
    · have hone : s.dev.ehw.rxfillRings = 1 := by omega
      obtain ⟨cons, done, hposted, hslots, hlen, hsub, hstored⟩ :=
        edmaConfigureRings_one hs hallocs hone
      refine ⟨hempty, hother, htx.store, ?_, ?_, ?_⟩
      · intro r hr
        obtain rfl : r = 0 := by omega
        rw [hposted, List.length_map, hs.count 0 hr]
        omega
      · intro r hr addr haddr
        obtain rfl : r = 0 := by omega
        have hslot : (edmaConfigureRings allocs s).dev.slotAt addr ∈
            window edmaRingSize cons (edmaRingSize - 1) := by
          rw [← hslots]
          exact List.mem_map_of_mem haddr
        rw [hposted] at haddr
        obtain ⟨alloc, halloc, rfl⟩ := List.mem_map.mp haddr
        exact ⟨lt_of_mem_window (by decide) hslot, alloc, hsub halloc, rfl, hstored alloc halloc⟩
      · rw [hone]
        simp only [List.range_one, List.flatMap_cons, List.flatMap_nil, List.append_nil]
        rw [hslots]
        exact nodup_window (by decide)

end Ready

/-- An instance with a number of RXFILL rings at index 0 and one TXDESC ring at the consumer index
    `cons`, whose producer register holds an old index and other bits. -/
def configOf (rxfillRings cons : Nat) : RingConfig where
  dev := { pollOf 0 with
    ehw := { idleEdma with
      rxfillRings
      regs := Function.update (Function.update idleEdma.regs (.txdescConsIdx 0)
        (BitVec.ofNat 32 cons)) (.txdescProdIdx 0) 0x70007#32 } }
  ringRegs _ := 0#32
  ringDma _ _ := 0#64
  rxPayloadOffset := 32#16

/-- Buffers for every descriptor of every ring but one. -/
def ringBuffers (r : Nat) : List EdmaRxAlloc :=
  (List.range (edmaRingSize - 1)).map fun k =>
    ⟨⟨edmaRingSize * r + k, edmaRxBuffSize⟩, BitVec.ofNat 32 (4096 * (edmaRingSize * r + k + 1))⟩

theorem configOf_fillRingsEmpty (rxfillRings cons : Nat) :
    FillRingsEmpty (configOf rxfillRings cons) := by
  have hcons (r : Nat) : ((configOf rxfillRings cons).dev.rx 0 r).fillCons = 0 := by
    simp [EdmaRx.fillCons, EdmaHw.regIdx, EdmaPoll.rx, configOf, idleEdma]
  refine ⟨fun _ _ => rfl, fun _ _ => rfl, ?_⟩
  intro r _
  rw [hcons]
  exact Nat.zero_lt_succ 127

theorem configOf_allocsSucceed {rxfillRings : Nat} (h : rxfillRings ≤ 8) (cons : Nat) :
    AllocsSucceed ringBuffers (configOf rxfillRings cons) := by
  have hdma : ∀ r < rxfillRings, ∀ k < edmaRingSize - 1,
      (BitVec.ofNat 32 (4096 * (edmaRingSize * r + k + 1))).toNat =
        4096 * (edmaRingSize * r + k + 1) := by
    intro r hr k hk
    unfold edmaRingSize at *
    rw [BitVec.toNat_ofNat]
    omega
  refine ⟨?_, ?_, ?_⟩
  · intro r _
    rw [ringBuffers, List.length_map, List.length_range]
    exact Nat.le_refl _
  · intro r hr alloc halloc
    obtain ⟨k, hk, rfl⟩ := List.mem_map.mp halloc
    intro hzero
    have hnat := congrArg BitVec.toNat hzero
    rw [hdma r hr k (List.mem_range.mp hk)] at hnat
    cases hnat
  · intro r hr
    rw [ringBuffers, List.map_map]
    apply List.Nodup.map_on _ List.nodup_range
    intro j hj k hk heq
    have hsame := congrArg BitVec.toNat heq
    rw [Function.comp_apply, Function.comp_apply, hdma r hr j (List.mem_range.mp hj),
      hdma r hr k (List.mem_range.mp hk)] at hsame
    omega

/-- One RXFILL ring and an empty TXDESC ring at index 0. -/
theorem edmaConfigureRings_ready_oneRing :
    RingsReady ringBuffers (configOf 1 0) (edmaConfigureRings ringBuffers (configOf 1 0)) :=
  (edmaConfigureRings_ready_iff (configOf_fillRingsEmpty 1 0)
    (configOf_allocsSucceed (by decide) 0)).mpr ⟨by decide, Nat.le_refl 1⟩

/-- A TXDESC ring that the hardware has left at index 5 is given the producer index 0; the second
    of two RXFILL rings is given no buffer. -/
theorem edmaConfigureRings_notReady :
    (FillRingsEmpty (configOf 1 5) ∧ AllocsSucceed ringBuffers (configOf 1 5) ∧
      ¬ RingsReady ringBuffers (configOf 1 5) (edmaConfigureRings ringBuffers (configOf 1 5))) ∧
    FillRingsEmpty (configOf 2 0) ∧ AllocsSucceed ringBuffers (configOf 2 0) ∧
      (edmaConfigureRings ringBuffers (configOf 2 0)).dev.posted 1 = [] ∧
      ¬ RingsReady ringBuffers (configOf 2 0) (edmaConfigureRings ringBuffers (configOf 2 0)) := by
  have htx := edmaConfigureRings_tx ringBuffers (configOf 1 5)
  have hnone : (edmaConfigureRings ringBuffers (configOf 2 0)).dev.posted 1 = [] := by
    decide +kernel
  refine ⟨⟨configOf_fillRingsEmpty 1 5, configOf_allocsSucceed (by decide) 5, ?_⟩,
    configOf_fillRingsEmpty 2 0, configOf_allocsSucceed (by decide) 0, hnone, ?_⟩
  · intro h
    have hempty := h.txEmpty 0 (by decide)
    rw [htx.txProd (by decide), htx.cons 0] at hempty
    exact absurd hempty (by decide)
  · intro h
    have hfull := h.full 1 (by decide)
    rw [hnone] at hfull
    exact absurd hfull (by decide)

end NssDp.Edma
