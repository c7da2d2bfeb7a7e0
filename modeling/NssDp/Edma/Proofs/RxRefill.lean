import Mathlib.Order.Bounds.Defs
import NssDp.Edma.Proofs.RxOwnership

/-!
# What a refill does

`edma_alloc_rx_buffer` posts buffers from the producer index on, until the ring has room for no
more, there is no buffer, the slot of the store is in use, or the mapping fails. Its result is
the number of attempts before the first that does not succeed.
-/

namespace NssDp.Edma

open Cyclic Word

/-- A buffer is posted in the descriptor `next`. -/
def EdmaRx.post (rx : EdmaRx) (next : Nat) (alloc : EdmaRxAlloc) : EdmaRx :=
  ((((rx.emit [.allocSkb alloc.skb]).setStore next (some alloc.skb)).setOpaque alloc.dma
    (BitVec.ofNat 32 next)).setFill next
      ⟨alloc.dma, BitVec.ofNat 32 edmaRxBuffSize &&& edmaRxfillBufSizeMask⟩).emit
        [.dmaMapSingle .pdev alloc.dma edmaRxBuffSize .fromDevice]

/-- A buffer is freed again, where its slot is in use. -/
def EdmaRx.turnAway (rx : EdmaRx) (alloc : EdmaRxAlloc) : EdmaRx :=
  (rx.emit [.allocSkb alloc.skb]).emit [.devKfreeSkb alloc.skb]

/-- A buffer is freed again, where it cannot be mapped. -/
def EdmaRx.mapFails (rx : EdmaRx) (next : Nat) (alloc : EdmaRxAlloc) : EdmaRx :=
  ((((rx.emit [.allocSkb alloc.skb]).setStore next (some alloc.skb)).setFill next
    ⟨0#32, BitVec.ofNat 32 edmaRxBuffSize &&& edmaRxfillBufSizeMask⟩).emit
      [.devKfreeSkb alloc.skb]).setStore next none

section Turns

variable {cons : Nat} {alloc : EdmaRxAlloc} {allocs : List EdmaRxAlloc} {l : AllocRxLoop}

theorem allocRxLoop_full (hfull : edmaIdxNext l.rx.rxfill.count l.next = cons) :
    allocRxLoop cons allocs l = l := by
  cases allocs with
  | nil => rfl
  | cons alloc allocs =>
    rw [allocRxLoop]
    dsimp only
    rw [if_pos hfull]

theorem allocRxLoop_busy (hroom : edmaIdxNext l.rx.rxfill.count l.next ≠ cons)
    (hbusy : l.rx.rxSkbStore l.next ≠ none) :
    allocRxLoop cons (alloc :: allocs) l = { l with rx := l.rx.turnAway alloc } := by
  have hslot : ((l.rx.emit [.allocSkb alloc.skb]).rxSkbStore l.next).isSome = true :=
    Option.isSome_iff_ne_none.mpr hbusy
  rw [allocRxLoop]
  dsimp only
  rw [if_neg hroom, if_pos hslot]
  rfl

theorem allocRxLoop_mapFails (hroom : edmaIdxNext l.rx.rxfill.count l.next ≠ cons)
    (hfree : l.rx.rxSkbStore l.next = none) (hdma : alloc.dma = 0#32) :
    allocRxLoop cons (alloc :: allocs) l = { l with rx := l.rx.mapFails l.next alloc } := by
  have hslot : ¬ ((l.rx.emit [.allocSkb alloc.skb]).rxSkbStore l.next).isSome = true := by
    show ¬ (l.rx.rxSkbStore l.next).isSome = true
    simp [hfree]
  rw [allocRxLoop]
  dsimp only
  rw [if_neg hroom, if_neg hslot, if_pos hdma]
  rfl

/-- A turn of the loop with a free slot and a buffer that is mapped. -/
theorem allocRxLoop_post (hroom : edmaIdxNext l.rx.rxfill.count l.next ≠ cons)
    (hfree : l.rx.rxSkbStore l.next = none) (hmapped : alloc.dma ≠ 0#32) :
    allocRxLoop cons (alloc :: allocs) l = allocRxLoop cons allocs
      ⟨u16 (l.numAlloc + 1), edmaIdxNext l.rx.rxfill.count l.next, l.rx.post l.next alloc⟩ := by
  have hslot : ¬ ((l.rx.emit [.allocSkb alloc.skb]).rxSkbStore l.next).isSome = true := by
    show ¬ (l.rx.rxSkbStore l.next).isSome = true
    simp [hfree]
  rw [allocRxLoop]
  dsimp only
  rw [if_neg hroom, if_neg hslot, if_neg hmapped]
  rfl

end Turns

/-- What is called for the buffers that are posted, and for one that is turned away. -/
def postEvents (done : List EdmaRxAlloc) : List RxEvent :=
  done.flatMap fun alloc =>
    [.allocSkb alloc.skb, .dmaMapSingle .pdev alloc.dma edmaRxBuffSize .fromDevice]

def turnEvents (turned : Option EdmaRxAlloc) : List RxEvent :=
  match turned with
  | none => []
  | some alloc => [.allocSkb alloc.skb, .devKfreeSkb alloc.skb]

/-- The buffers `done` have been posted from the slot `base` on, and `turned` has been allocated
    and freed. The descriptor behind the last one posted may have been begun. -/
structure Refilled (rx rx' : EdmaRx) (base : Nat) (done : List EdmaRxAlloc)
    (turned : Option EdmaRxAlloc) : Prop where
  id : rx'.rxfill.id = rx.rxfill.id
  count : rx'.rxfill.count = rx.rxfill.count
  rxdesc : rx'.rxdesc = rx.rxdesc
  running : rx'.running = rx.running
  at_slot : ∀ i alloc, done[i]? = some alloc →
    rx'.rxfill.desc (slot rx.rxfill.count base i) =
      ⟨alloc.dma, BitVec.ofNat 32 edmaRxBuffSize &&& edmaRxfillBufSizeMask⟩ ∧
    rx'.rxSkbStore (slot rx.rxfill.count base i) = some alloc.skb
  /-- A buffer is found by its address, so the addresses have to differ. -/
  opaqueAt : (done.map EdmaRxAlloc.dma).Nodup → ∀ i alloc, done[i]? = some alloc →
    rx'.opaqueAt alloc.dma = slot rx.rxfill.count base i
  store : ∀ j, j ∉ window rx.rxfill.count base done.length → rx'.rxSkbStore j = rx.rxSkbStore j
  desc : ∀ j, j ∉ window rx.rxfill.count base done.length →
    rx'.rxfill.desc j = rx.rxfill.desc j ∨
      j = slot rx.rxfill.count base done.length ∧ rx'.fillAddr j = 0#32
  rxph : ∀ addr, addr ∉ done.map EdmaRxAlloc.dma → rx'.rxph addr = rx.rxph addr
  events : rx'.events = rx.events ++ postEvents done ++ turnEvents turned

namespace Refilled

variable {rx rx' : EdmaRx} {base : Nat} {done : List EdmaRxAlloc} {alloc : EdmaRxAlloc}

theorem start (rx : EdmaRx) (base : Nat) : Refilled rx rx base [] none where
  id := rfl
  count := rfl
  rxdesc := rfl
  running := rfl
  at_slot i alloc h := by simp at h
  opaqueAt _ i alloc h := by simp at h
  store _ _ := rfl
  desc _ _ := Or.inl rfl
  rxph _ _ := rfl
  events := by simp [postEvents, turnEvents]

/-- The slot after the ones that are used is still as it was. -/
theorem store_next (h : Refilled rx rx' base done none) (hroom : done.length < rx.rxfill.count) :
    rx'.rxSkbStore (slot rx.rxfill.count base done.length) =
      rx.rxSkbStore (slot rx.rxfill.count base done.length) :=
  h.store _ (slot_notMem_window hroom)

/-- One more buffer is posted. -/
theorem post (h : Refilled rx rx' base done none) (alloc : EdmaRxAlloc)
    (hcount : rx.rxfill.count < 2 ^ 16)
    (hroom : done.length < rx.rxfill.count) :
    Refilled rx (rx'.post (slot rx.rxfill.count base done.length) alloc) base (done ++ [alloc])
      none := by
  have hpos : 0 < rx.rxfill.count := Nat.zero_lt_of_lt hroom
  have hlen : (done ++ [alloc]).length = done.length + 1 := by simp
  have hword : (BitVec.ofNat 32 (slot rx.rxfill.count base done.length)).toNat =
      slot rx.rxfill.count base done.length := by
    have hlt := slot_lt hpos base done.length
    rw [BitVec.toNat_ofNat, Nat.mod_eq_of_lt (by omega)]
  have hout : ∀ j, j ∉ window rx.rxfill.count base (done ++ [alloc]).length →
      j ∉ window rx.rxfill.count base done.length ∧
        j ≠ slot rx.rxfill.count base done.length := by
    intro j hj
    rw [hlen, window_succ, List.mem_append, List.mem_singleton, not_or] at hj
    exact hj
  have hlast : ∀ i a, done.length ≤ i → (done ++ [alloc])[i]? = some a →
      i = done.length ∧ a = alloc := by
    intro i a hge hi
    rw [List.getElem?_append_right hge, List.getElem?_singleton] at hi
    split at hi
    · cases hi
      exact ⟨by omega, rfl⟩
    · cases hi
  refine ⟨h.id, h.count, h.rxdesc, h.running, ?_, ?_, ?_, ?_, ?_, ?_⟩
  · intro i a hi
    show Function.update rx'.rxfill.desc (slot rx.rxfill.count base done.length) _
        (slot rx.rxfill.count base i) = _ ∧
      Function.update rx'.rxSkbStore (slot rx.rxfill.count base done.length) (some alloc.skb)
        (slot rx.rxfill.count base i) = some a.skb
    rcases Nat.lt_or_ge i done.length with hlt | hge
    · rw [List.getElem?_append_left hlt] at hi
      obtain ⟨hdesc, hstore⟩ := h.at_slot i a hi
      have hslot : slot rx.rxfill.count base i ≠ slot rx.rxfill.count base done.length := by
        intro heq
        have hsame := slot_inj (by omega) hroom heq
        omega
      rw [Function.update_of_ne hslot, Function.update_of_ne hslot]
      exact ⟨hdesc, hstore⟩
    · obtain ⟨rfl, rfl⟩ := hlast i a hge hi
      rw [Function.update_self, Function.update_self]
      exact ⟨rfl, rfl⟩
  · intro hapart i a hi
    rw [List.map_append, List.nodup_append] at hapart
    show (Function.update rx'.rxph alloc.dma _ a.dma).opaqueWord.toNat = _
    rcases Nat.lt_or_ge i done.length with hlt | hge
    · rw [List.getElem?_append_left hlt] at hi
      have hmem : a.dma ∈ done.map EdmaRxAlloc.dma := List.mem_map_of_mem (List.mem_of_getElem? hi)
      have hdma : a.dma ≠ alloc.dma := hapart.2.2 _ hmem _ (by simp)
      rw [Function.update_of_ne hdma]
      exact h.opaqueAt hapart.1 i a hi
    · obtain ⟨rfl, rfl⟩ := hlast i a hge hi
      rw [Function.update_self]
      exact hword
  · intro j hj
    obtain ⟨hwindow, hne⟩ := hout j hj
    exact (Function.update_of_ne hne _ _).trans (h.store j hwindow)
  · intro j hj
    obtain ⟨hwindow, hne⟩ := hout j hj
    left
    refine (Function.update_of_ne hne _ _).trans ?_
    exact (h.desc j hwindow).resolve_right fun hbegun => hne hbegun.1
  · intro addr haddr
    rw [List.map_append, List.mem_append, not_or] at haddr
    have hne : addr ≠ alloc.dma := by simpa using haddr.2
    exact (Function.update_of_ne hne _ _).trans (h.rxph addr haddr.1)
  · show rx'.events ++ [.allocSkb alloc.skb] ++
      [.dmaMapSingle .pdev alloc.dma edmaRxBuffSize .fromDevice] = _
    rw [h.events]
    simp [postEvents, turnEvents]

theorem turnAway (h : Refilled rx rx' base done none) (alloc : EdmaRxAlloc) :
    Refilled rx (rx'.turnAway alloc) base done (some alloc) := by
  refine ⟨h.id, h.count, h.rxdesc, h.running, h.at_slot, h.opaqueAt, h.store, h.desc,
    h.rxph, ?_⟩
  show rx'.events ++ [.allocSkb alloc.skb] ++ [.devKfreeSkb alloc.skb] = _
  rw [h.events]
  simp [turnEvents]

theorem mapFails (h : Refilled rx rx' base done none) (alloc : EdmaRxAlloc)
    (hroom : done.length < rx.rxfill.count)
    (hfree : rx.rxSkbStore (slot rx.rxfill.count base done.length) = none) :
    Refilled rx (rx'.mapFails (slot rx.rxfill.count base done.length) alloc) base done
      (some alloc) := by
  have hlast := @slot_notMem_window _ base _ hroom
  refine ⟨h.id, h.count, h.rxdesc, h.running, ?_, h.opaqueAt, ?_, ?_, h.rxph, ?_⟩
  · intro i a hi
    have hlt : i < done.length := (List.getElem?_eq_some_iff.mp hi).1
    have hne : slot rx.rxfill.count base i ≠ slot rx.rxfill.count base done.length := by
      intro heq
      apply hlast
      rw [← heq]
      exact mem_window.mpr ⟨i, hlt, rfl⟩
    obtain ⟨hdesc, hstore⟩ := h.at_slot i a hi
    refine ⟨(Function.update_of_ne hne _ _).trans hdesc, ?_⟩
    exact (Function.update_of_ne hne _ _).trans ((Function.update_of_ne hne _ _).trans hstore)
  · intro j hj
    show Function.update (Function.update rx'.rxSkbStore _ _) _ none j = _
    by_cases hlastj : j = slot rx.rxfill.count base done.length
    · rw [hlastj, Function.update_self, hfree]
    · rw [Function.update_of_ne hlastj, Function.update_of_ne hlastj, h.store j hj]
  · intro j hj
    by_cases hlastj : j = slot rx.rxfill.count base done.length
    · right
      refine ⟨hlastj, ?_⟩
      show (Function.update rx'.rxfill.desc _ _ j).bufferAddr = 0#32
      rw [hlastj, Function.update_self]
    · left
      refine (Function.update_of_ne hlastj _ _).trans ?_
      exact (h.desc j hj).resolve_right fun hbegun => hlastj hbegun.1
  · show rx'.events ++ [.allocSkb alloc.skb] ++ [.devKfreeSkb alloc.skb] = _
    rw [h.events]
    simp [turnEvents]

/-- The registers are not part of it. -/
theorem congr {rx₁ rx₂ : EdmaRx} {turned : Option EdmaRxAlloc}
    (h : Refilled rx rx' base done turned) {e e' : EdmaHw} (h₁ : rx₁ = { rx with ehw := e })
    (h₂ : rx₂ = { rx' with ehw := e' }) : Refilled rx₁ rx₂ base done turned := by
  subst h₁ h₂
  exact ⟨h.id, h.count, h.rxdesc, h.running, h.at_slot, h.opaqueAt, h.store, h.desc, h.rxph,
    h.events⟩

end Refilled

/-- Attempt `i` of a refill succeeds: there is a buffer, its slot is free, and it is mapped. -/
def Succeeds (rx : EdmaRx) (base : Nat) (attempts : Nat → Option EdmaRxAlloc) (i : Nat) : Prop :=
  ∃ alloc, attempts i = some alloc ∧ rx.rxSkbStore (slot rx.rxfill.count base i) = none ∧
    alloc.dma ≠ 0#32

/-- Where a refill with room for `room` buffers stops. -/
structure Stops (rx : EdmaRx) (base room : Nat) (attempts : Nat → Option EdmaRxAlloc)
    (done : List EdmaRxAlloc) (turned : Option EdmaRxAlloc) : Prop where
  le : done.length ≤ room
  attempted : ∀ i < done.length, attempts i = done[i]?
  good : ∀ i < done.length, Succeeds rx base attempts i
  last : done.length < room → ¬ Succeeds rx base attempts done.length
  turned : turned = if done.length < room then attempts done.length else none

/-- The loop, by induction on the buffers there are. -/
theorem allocRxLoop_refilled {rx : EdmaRx} {base cons : Nat} (hcount : rx.rxfill.count < 2 ^ 16)
    (hcons : cons < rx.rxfill.count) (hbase : base < rx.rxfill.count) :
    ∀ (allocs done : List EdmaRxAlloc) (l : AllocRxLoop), Refilled rx l.rx base done none →
      l.next = slot rx.rxfill.count base done.length → l.numAlloc = done.length →
      done.length ≤ room rx.rxfill.count cons base →
      (∀ i < done.length, Succeeds rx base (fun i => (done ++ allocs)[i]?) i) →
      ∃ l' done' turned, allocRxLoop cons allocs l = l' ∧ l'.rx.ehw = l.rx.ehw ∧
        l'.next = slot rx.rxfill.count base done'.length ∧ l'.numAlloc = done'.length ∧
        Refilled rx l'.rx base done' turned ∧
        Stops rx base (room rx.rxfill.count cons base) (fun i => (done ++ allocs)[i]?) done'
          turned := by
  intro allocs
  induction allocs with
  | nil =>
    intro done l hrefilled hnext hnum hle hgood
    refine ⟨l, done, none, rfl, rfl, hnext, hnum, hrefilled, hle, fun i _ => by simp, hgood, ?_, ?_⟩
    · rintro - ⟨alloc, halloc, -⟩
      simp at halloc
    · simp
  | cons alloc allocs ih =>
    intro done l hrefilled hnext hnum hle hgood
    have hlt : done.length < rx.rxfill.count :=
      Nat.lt_of_le_of_lt hle (room_lt (Nat.zero_lt_of_lt hcons) cons base)
    have hcounter : edmaIdxNext l.rx.rxfill.count l.next =
        slot rx.rxfill.count base (done.length + 1) := by
      rw [hrefilled.count, hnext, edmaIdxNext_eq hcount (slot_lt (by omega) _ _), slot_succ]
    have hhead : (done ++ alloc :: allocs)[done.length]? = some alloc := by simp
    have hattempted : ∀ i < done.length, (done ++ alloc :: allocs)[i]? = done[i]? :=
      fun i hi => List.getElem?_append_left hi
    have hfullIff : edmaIdxNext l.rx.rxfill.count l.next = cons ↔
        done.length = room rx.rxfill.count cons base := by
      rw [hcounter]
      exact slot_succ_eq_iff hcons hbase hlt
    have hstore := hrefilled.store_next hlt
    rw [← hnext] at hstore
    by_cases hfull : done.length = room rx.rxfill.count cons base
    · refine ⟨l, done, none, allocRxLoop_full (hfullIff.mpr hfull), rfl, hnext, hnum, hrefilled,
        hle, hattempted, hgood, fun hroom => absurd hfull hroom.ne, ?_⟩
      rw [if_neg (by omega)]
    have hroom : edmaIdxNext l.rx.rxfill.count l.next ≠ cons := fun h => hfull (hfullIff.mp h)
    have hless : done.length < room rx.rxfill.count cons base := Nat.lt_of_le_of_ne hle hfull
    by_cases hfree : l.rx.rxSkbStore l.next = none
    swap
    · refine ⟨_, done, some alloc, allocRxLoop_busy hroom hfree, rfl, hnext, hnum,
        hrefilled.turnAway alloc, hle, hattempted, hgood, ?_, by rw [if_pos hless, hhead]⟩
      rintro - ⟨_, -, hfree', -⟩
      rw [← hnext, ← hstore] at hfree'
      exact hfree hfree'
    have hfree' : rx.rxSkbStore (slot rx.rxfill.count base done.length) = none := by
      rw [← hnext, ← hstore]
      exact hfree
    by_cases hdma : alloc.dma = 0#32
    · have hfails := hrefilled.mapFails alloc hlt hfree'
      rw [← hnext] at hfails
      refine ⟨_, done, some alloc, allocRxLoop_mapFails hroom hfree hdma, rfl, hnext, hnum, hfails,
        hle, hattempted, hgood, ?_, by rw [if_pos hless, hhead]⟩
      rintro - ⟨a, ha, -, hmapped⟩
      cases hhead.symm.trans ha
      exact hmapped hdma
    have hlen : (done ++ [alloc]).length = done.length + 1 := by simp
    have happend : done ++ [alloc] ++ allocs = done ++ alloc :: allocs := by simp
    have hpost := hrefilled.post (alloc) hcount hlt
    rw [← hnext] at hpost
    rw [allocRxLoop_post hroom hfree hdma]
    obtain ⟨l', done', turned, hl', hehw, hnext', hnum', hrefilled', hstops⟩ := ih (done ++ [alloc])
      ⟨u16 (l.numAlloc + 1), edmaIdxNext l.rx.rxfill.count l.next, l.rx.post l.next alloc⟩ hpost
      (by rw [hlen]; exact hcounter) (by rw [hlen, hnum]; exact u16_of_lt (by omega))
      (by rw [hlen]; exact hless)
      (by
        intro i hi
        rw [happend]
        rw [hlen] at hi
        rcases Nat.lt_or_ge i done.length with hlt | hge
        · exact hgood i hlt
        · have hi' : i = done.length := by omega
          rw [hi']
          exact ⟨alloc, hhead, hfree', hdma⟩)
    rw [happend] at hstops
    exact ⟨l', done', turned, hl', hehw, hnext', hnum', hrefilled', hstops⟩

/-- What an `edma_alloc_rx_buffer` that has posted the buffers `done` gives. -/
structure RefillResult (rx : EdmaRx) (done : List EdmaRxAlloc) (turned : Option EdmaRxAlloc)
    (r : Nat × EdmaRx) : Prop where
  ret : r.1 = done.length
  refilled : Refilled rx r.2 rx.fillProd done turned
  /-- The producer index is written just where buffers have been posted. -/
  ehw : r.2.ehw =
    let reads := rx.ehw.touch [.regRead (.rxfillProdIdx rx.rxfill.id),
      .regRead (.rxfillConsIdx rx.rxfill.id)]
    if done.length = 0 then reads
    else reads.regWrite (.rxfillProdIdx rx.rxfill.id)
      (BitVec.ofNat 32 ((rx.fillProd + done.length) % rx.rxfill.count))
  behind : 0 < done.length → (rx.fillProd + done.length) % rx.rxfill.count ≠ rx.fillCons

section Function

variable {rx : EdmaRx} {allocs : List EdmaRxAlloc}

/-- The loop starts at the producer index. -/
theorem fillProd_masked (hpow : ∃ k ≤ 15, rx.rxfill.count = 2 ^ k)
    (hprod : rx.fillProd < rx.rxfill.count) :
    rx.fillProd &&& rx.rxfill.count - 1 = slot rx.rxfill.count rx.fillProd 0 := by
  obtain ⟨k, -, hk⟩ := hpow
  rw [slot_zero hprod]
  rw [hk] at hprod ⊢
  exact (and_mask _ k).trans (Nat.mod_eq_of_lt hprod)

theorem edmaAllocRxBuffer_result (hpow : ∃ k ≤ 15, rx.rxfill.count = 2 ^ k)
    (hprod : rx.fillProd < rx.rxfill.count) (hcons : rx.fillCons < rx.rxfill.count) :
    ∃ done turned, RefillResult rx done turned (edmaAllocRxBuffer rx allocs) ∧
      Stops rx rx.fillProd (room rx.rxfill.count rx.fillCons rx.fillProd) (fun i => allocs[i]?)
        done turned := by
  have hcount := lt_of_pow hpow
  obtain ⟨l, done, turned, hl, hehw, hnext', hnum, hrefilled, hstops⟩ :=
    allocRxLoop_refilled hcount hcons hprod allocs []
      ⟨0, rx.fillProd &&& rx.rxfill.count - 1, rx.touch [.regRead (.rxfillProdIdx rx.rxfill.id),
        .regRead (.rxfillConsIdx rx.rxfill.id)]⟩ ((Refilled.start rx _).congr rfl rfl)
      (fillProd_masked hpow hprod) rfl
      (Nat.zero_le _) (fun i hi => absurd hi (Nat.not_lt_zero i))
  refine ⟨done, turned, ?_, by simpa using hstops⟩
  have hlt : l.next < 2 ^ 16 := by
    rw [hnext']
    exact Nat.lt_trans (slot_lt (Nat.zero_lt_of_lt hcons) _ _) hcount
  have hresult : edmaAllocRxBuffer rx allocs = if l.numAlloc = 0 then (0, l.rx) else
      (l.numAlloc, l.rx.regWrite (.rxfillProdIdx rx.rxfill.id) (BitVec.ofNat 32 l.next)) := by
    rw [← and_edmaIdxMask_eq hlt, ← hl]
    rfl
  have hbehind : 0 < done.length →
      (rx.fillProd + done.length) % rx.rxfill.count ≠ rx.fillCons := by
    intro hpos heq
    obtain ⟨k, hk⟩ := Nat.exists_eq_succ_of_ne_zero hpos.ne'
    have hle := hstops.le
    have hroom := room_lt (Nat.zero_lt_of_lt hcons) rx.fillCons rx.fillProd
    rw [hk] at heq
    have hend := (slot_succ_eq_iff hcons hprod (show k < rx.rxfill.count by omega)).mp heq
    omega
  rw [hresult]
  by_cases hzero : done.length = 0
  · rw [if_pos (hnum.trans hzero)]
    refine ⟨hzero.symm, hrefilled, ?_, hbehind⟩
    rw [if_pos hzero]
    exact hehw
  · rw [if_neg (by rw [hnum]; exact hzero)]
    refine ⟨hnum, hrefilled.congr rfl rfl, ?_, hbehind⟩
    rw [if_neg hzero]
    show l.rx.ehw.regWrite _ _ = _
    rw [hehw, hnext']
    rfl

/-- The loop does not ask for more buffers than there is room for. -/
theorem allocRxLoop_append {count cons base : Nat} (hcount : count < 2 ^ 16) (hcons : cons < count)
    (hbase : base < count) (more : List EdmaRxAlloc) :
    ∀ (allocs : List EdmaRxAlloc) (k : Nat) (l : AllocRxLoop), l.rx.rxfill.count = count →
      l.next = slot count base k → k ≤ room count cons base →
      room count cons base ≤ k + allocs.length →
      allocRxLoop cons (allocs ++ more) l = allocRxLoop cons allocs l := by
  intro allocs
  induction allocs with
  | nil =>
    intro k l hl hnext hle henough
    have hlt := room_lt (Nat.zero_lt_of_lt hcons) cons base
    have hk : k = room count cons base := Nat.le_antisymm hle henough
    have hfull : edmaIdxNext l.rx.rxfill.count l.next = cons := by
      rw [hl, hnext, edmaIdxNext_eq hcount (slot_lt (by omega) _ _), slot_succ]
      exact (slot_succ_eq_iff hcons hbase (by omega)).mpr hk
    rw [allocRxLoop_full hfull, allocRxLoop_full hfull]
  | cons alloc allocs ih =>
    intro k l hl hnext hle henough
    have hlt := room_lt (Nat.zero_lt_of_lt hcons) cons base
    have hcounter : edmaIdxNext l.rx.rxfill.count l.next = slot count base (k + 1) := by
      rw [hl, hnext, edmaIdxNext_eq hcount (slot_lt (by omega) _ _), slot_succ]
    by_cases hfull : edmaIdxNext l.rx.rxfill.count l.next = cons
    · rw [allocRxLoop_full hfull, allocRxLoop_full hfull]
    by_cases hfree : l.rx.rxSkbStore l.next = none
    swap
    · rw [List.cons_append, allocRxLoop_busy hfull hfree, allocRxLoop_busy hfull hfree]
    by_cases hdma : alloc.dma = 0#32
    · rw [List.cons_append, allocRxLoop_mapFails hfull hfree hdma,
        allocRxLoop_mapFails hfull hfree hdma]
    · have hne : k ≠ room count cons base := by
        intro hk
        apply hfull
        rw [hcounter]
        exact (slot_succ_eq_iff hcons hbase (by omega)).mpr hk
      rw [List.cons_append, allocRxLoop_post hfull hfree hdma, allocRxLoop_post hfull hfree hdma]
      refine ih (k + 1) _ hl hcounter (by omega) ?_
      rw [List.length_cons] at henough
      omega

theorem edmaAllocRxBuffer_append (hpow : ∃ k ≤ 15, rx.rxfill.count = 2 ^ k)
    (hprod : rx.fillProd < rx.rxfill.count) (hcons : rx.fillCons < rx.rxfill.count)
    (henough : room rx.rxfill.count rx.fillCons rx.fillProd ≤ allocs.length)
    (more : List EdmaRxAlloc) :
    edmaAllocRxBuffer rx (allocs ++ more) = edmaAllocRxBuffer rx allocs := by
  have hloop := allocRxLoop_append (lt_of_pow hpow) hcons hprod more allocs 0
    ⟨0, rx.fillProd &&& rx.rxfill.count - 1, rx.touch [.regRead (.rxfillProdIdx rx.rxfill.id),
      .regRead (.rxfillConsIdx rx.rxfill.id)]⟩ rfl (fillProd_masked hpow hprod) (Nat.zero_le _)
    (by omega)
  unfold edmaAllocRxBuffer
  dsimp only
  rw [show (EdmaRx.touch rx _).ehw.regIdx (.rxfillProdIdx rx.rxfill.id) = rx.fillProd from rfl,
    show (EdmaRx.touch rx _).ehw.regIdx (.rxfillConsIdx rx.rxfill.id) = rx.fillCons from rfl]
  rw [show (EdmaRx.touch rx _).rxfill.count = rx.rxfill.count from rfl, hloop]

end Function

/-- The first `n` outcomes of `dev_alloc_skb`, up to the first without a buffer. -/
def supply : Nat → (Nat → Option EdmaRxAlloc) → List EdmaRxAlloc
  | 0, _ => []
  | n + 1, attempts =>
    match attempts 0 with
    | none => []
    | some alloc => alloc :: supply n fun i => attempts (i + 1)

theorem supply_getElem? {n : Nat} : ∀ {attempts : Nat → Option EdmaRxAlloc} {i : Nat}
    {alloc : EdmaRxAlloc}, (supply n attempts)[i]? = some alloc → attempts i = some alloc := by
  induction n with
  | zero => exact fun h => by simp [supply] at h
  | succ n ih =>
    intro attempts i alloc h
    rw [supply] at h
    cases hfirst : attempts 0 with
    | none => simp [hfirst] at h
    | some first =>
      rw [hfirst] at h
      cases i with
      | zero =>
        cases h
        exact hfirst
      | succ i =>
        rw [List.getElem?_cons_succ] at h
        exact @ih (fun i => attempts (i + 1)) i alloc h

/-- What comes after buffers only is seen. -/
theorem supply_getElem?_eq {n : Nat} : ∀ {attempts : Nat → Option EdmaRxAlloc} {k : Nat}, k < n →
    (∀ i < k, ∃ alloc, attempts i = some alloc) → (supply n attempts)[k]? = attempts k := by
  induction n with
  | zero => exact fun hk => absurd hk (Nat.not_lt_zero _)
  | succ n ih =>
    intro attempts k hk hbefore
    rw [supply]
    cases k with
    | zero => cases attempts 0 <;> rfl
    | succ k =>
      obtain ⟨first, hfirst⟩ := hbefore 0 (Nat.succ_pos k)
      rw [hfirst]
      exact ih (by omega) fun i hi => hbefore (i + 1) (by omega)

theorem supply_le {n : Nat} : ∀ {m : Nat} (attempts : Nat → Option EdmaRxAlloc), n ≤ m →
    supply m attempts = supply n attempts ∨
      (supply n attempts).length = n ∧ ∃ more, supply m attempts = supply n attempts ++ more := by
  induction n with
  | zero => exact fun attempts _ => Or.inr ⟨rfl, _, rfl⟩
  | succ n ih =>
    intro m attempts h
    obtain ⟨m, rfl⟩ := Nat.exists_eq_succ_of_ne_zero (show m ≠ 0 by omega)
    rw [supply, supply]
    cases attempts 0 with
    | none => exact Or.inl rfl
    | some first =>
      dsimp only
      rcases ih (fun i => attempts (i + 1)) (Nat.le_of_succ_le_succ h) with heq | ⟨hlen, more, heq⟩
      · exact Or.inl (by rw [heq])
      · refine Or.inr ⟨by rw [List.length_cons, hlen], more, ?_⟩
        rw [heq]
        rfl

/-- The outcomes of one refill, with the mapped addresses of different buffers different. -/
def MappedApart (attempts : Nat → Option EdmaRxAlloc) : Prop :=
  ∀ i j a b, attempts i = some a → attempts j = some b → a.dma ≠ 0#32 → a.dma = b.dma → i = j

/-- Then the buffers that are posted are at different addresses. -/
theorem MappedApart.nodup {rx : EdmaRx} {base room : Nat} {attempts : Nat → Option EdmaRxAlloc}
    {done : List EdmaRxAlloc} {turned : Option EdmaRxAlloc} (h : MappedApart attempts)
    (hstops : Stops rx base room attempts done turned) : (done.map EdmaRxAlloc.dma).Nodup := by
  rw [List.nodup_iff_pairwise_ne, List.pairwise_map, List.pairwise_iff_getElem]
  intro i j hi hj hij heq
  have hattempt : ∀ k (hk : k < done.length), attempts k = some done[k] := by
    intro k hk
    rw [hstops.attempted k hk, List.getElem?_eq_getElem hk]
  obtain ⟨alloc, halloc, -, hmapped⟩ := hstops.good i hi
  cases (hattempt i hi).symm.trans halloc
  have hsame := h i j _ _ (hattempt i hi) (hattempt j hj) hmapped heq
  omega

/-- The stop that a refill comes to among the buffers it may ask for is the one among all. -/
theorem Stops.of_supply {rx : EdmaRx} {base room n : Nat} {attempts : Nat → Option EdmaRxAlloc}
    {done : List EdmaRxAlloc} {turned : Option EdmaRxAlloc}
    (h : Stops rx base room (fun i => (supply n attempts)[i]?) done turned) (hn : room ≤ n) :
    Stops rx base room attempts done turned := by
  have hgood : ∀ i < done.length, Succeeds rx base attempts i := by
    intro i hi
    obtain ⟨alloc, halloc, hrest⟩ := h.good i hi
    exact ⟨alloc, supply_getElem? halloc, hrest⟩
  have hsome : ∀ i < done.length, ∃ alloc, attempts i = some alloc := by
    intro i hi
    obtain ⟨alloc, halloc, -⟩ := hgood i hi
    exact ⟨alloc, halloc⟩
  have hsame : ∀ i ≤ done.length, i < n → (supply n attempts)[i]? = attempts i :=
    fun i hi hlt => supply_getElem?_eq hlt fun j hj => hsome j (by omega)
  have hle := h.le
  refine ⟨hle, fun i hi => ?_, hgood, fun hlt => ?_, ?_⟩
  · rw [← h.attempted i hi]
    exact (hsame i hi.le (by omega)).symm
  · rintro ⟨alloc, halloc, hrest⟩
    refine h.last hlt ⟨alloc, ?_, hrest⟩
    exact (hsame _ (Nat.le_refl _) (by omega)).trans halloc
  · rw [h.turned]
    split
    · exact hsame _ (Nat.le_refl _) (by omega)
    · rfl

/-- The number of attempts that succeed before the first that does not. -/
theorem Stops.isGreatest {rx : EdmaRx} {base room : Nat} {attempts : Nat → Option EdmaRxAlloc}
    {done : List EdmaRxAlloc} {turned : Option EdmaRxAlloc}
    (h : Stops rx base room attempts done turned) :
    IsGreatest {k | k ≤ room ∧ ∀ i < k, Succeeds rx base attempts i} done.length := by
  refine ⟨⟨h.le, h.good⟩, ?_⟩
  rintro k ⟨hle, hgood⟩
  by_contra hlt
  rw [not_le] at hlt
  exact h.last (by omega) (hgood _ hlt)

/-- A refill ends, however many buffers there are: it asks for no more than there is room for.
    It posts the buffers of its first attempts up to the first that does not succeed, of which it
    frees the buffer, and tells the hardware of them. -/
theorem edmaAllocRxBuffer_refills {rx : EdmaRx} (hpow : ∃ k ≤ 15, rx.rxfill.count = 2 ^ k)
    (hprod : rx.fillProd < rx.rxfill.count) (hcons : rx.fillCons < rx.rxfill.count)
    (attempts : Nat → Option EdmaRxAlloc) (hapart : MappedApart attempts) :
    ∃ r, (∀ n, room rx.rxfill.count rx.fillCons rx.fillProd ≤ n →
        edmaAllocRxBuffer rx (supply n attempts) = r) ∧
      ∃ done turned, RefillResult rx done turned r ∧
        IsGreatest {k | k ≤ room rx.rxfill.count rx.fillCons rx.fillProd ∧
          ∀ i < k, Succeeds rx rx.fillProd attempts i} done.length ∧
        (∀ i < done.length, attempts i = done[i]?) ∧
        (∀ i alloc, done[i]? = some alloc →
          r.2.opaqueAt alloc.dma = slot rx.rxfill.count rx.fillProd i) ∧
        turned = if done.length < room rx.rxfill.count rx.fillCons rx.fillProd then
          attempts done.length else none := by
  obtain ⟨done, turned, hresult, hstops⟩ := @edmaAllocRxBuffer_result rx
    (supply (room rx.rxfill.count rx.fillCons rx.fillProd) attempts) hpow hprod hcons
  refine ⟨_, fun n hn => ?_, done, turned, hresult, ?_⟩
  · rcases supply_le attempts hn with heq | ⟨hlen, more, heq⟩
    · rw [heq]
    · rw [heq, edmaAllocRxBuffer_append hpow hprod hcons hlen.ge]
  · have hall := hstops.of_supply (Nat.le_refl _)
    exact ⟨hall.isGreatest, hall.attempted, hresult.refilled.opaqueAt (hapart.nodup hall),
      hall.turned⟩

/-- Two buffers, the second of which cannot be mapped, and then none. -/
def twoAttempts (i : Nat) : Option EdmaRxAlloc :=
  match i with
  | 0 => some (rxAlloc 0)
  | 1 => some ⟨⟨1, edmaRxBuffSize⟩, 0#32⟩
  | _ => none

theorem edmaAllocRxBuffer_refills_two :
    ∃ r, (∀ n, room 128 idleEdmaRx.fillCons idleEdmaRx.fillProd ≤ n →
        edmaAllocRxBuffer idleEdmaRx (supply n twoAttempts) = r) ∧
      ∃ done turned, RefillResult idleEdmaRx done turned r ∧
        IsGreatest {k | k ≤ room 128 idleEdmaRx.fillCons idleEdmaRx.fillProd ∧
          ∀ i < k, Succeeds idleEdmaRx idleEdmaRx.fillProd twoAttempts i} done.length ∧
        (∀ i < done.length, twoAttempts i = done[i]?) ∧
        (∀ i alloc, done[i]? = some alloc →
          r.2.opaqueAt alloc.dma = slot 128 idleEdmaRx.fillProd i) ∧
        turned = if done.length < room 128 idleEdmaRx.fillCons idleEdmaRx.fillProd then
          twoAttempts done.length else none := by
  refine edmaAllocRxBuffer_refills ⟨7, by decide, rfl⟩ (by decide) (by decide) twoAttempts ?_
  intro i j a b ha hb hne heq
  match i, j with
  | 0, 0 | 1, 1 => rfl
  | 0, 1 =>
    cases ha
    cases hb
    exact absurd heq hne
  | 1, _ =>
    cases ha
    exact absurd rfl hne
  | i + 2, _ => cases ha
  | _, j + 2 => cases hb

end NssDp.Edma
