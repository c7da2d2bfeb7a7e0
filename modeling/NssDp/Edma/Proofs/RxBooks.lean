import NssDp.Misc.Cyclic
import NssDp.Misc.Ledger
import NssDp.Edma.Rx
import NssDp.Edma.Proofs.RingXmit

/-!
# The books of the receive store

A receive buffer is out from its posting until it is taken from the store: posted, held by
the hardware, or returned. It is known by the address in its descriptor, and its slot by the
opaque word in the memory there. The books list the buffers that are out against the slots
of the store; the functions of the driver post and reap buffers and keep the books.
-/

namespace NssDp.Edma

open Cyclic Word

namespace EdmaRx

/-- The indices in the registers of the two rings. -/
def fillProd (rx : EdmaRx) : Nat := rx.ehw.regIdx (.rxfillProdIdx rx.rxfill.id)

def fillCons (rx : EdmaRx) : Nat := rx.ehw.regIdx (.rxfillConsIdx rx.rxfill.id)

def descProd (rx : EdmaRx) : Nat := rx.ehw.regIdx (.rxdescProdIdx rx.rxdesc.id)

def descCons (rx : EdmaRx) : Nat := rx.ehw.regIdx (.rxdescConsIdx rx.rxdesc.id)

/-- The addresses in the descriptors of the two rings. -/
def fillAddr (rx : EdmaRx) (i : Nat) : BitVec 32 := (rx.rxfill.desc i).bufferAddr

def descAddr (rx : EdmaRx) (i : Nat) : BitVec 32 := (rx.rxdesc.desc i).bufferAddr

/-- The descriptors between two indices of a ring. -/
def fillWindow (rx : EdmaRx) (cons prod : Nat) : List Nat :=
  window rx.rxfill.count cons (gap rx.rxfill.count cons prod)

def descWindow (rx : EdmaRx) (cons prod : Nat) : List Nat :=
  window rx.rxdesc.count cons (gap rx.rxdesc.count cons prod)

/-- The buffers that are out, where the driver has filled the RXFILL ring up to `fillProd` and
    has reaped the RXDESC ring up to `descCons`. -/
def out (rx : EdmaRx) (held : List (BitVec 32)) (fillProd descCons : Nat) : List (BitVec 32) :=
  (rx.fillWindow rx.fillCons fillProd).map rx.fillAddr ++ held ++
    (rx.descWindow descCons rx.descProd).map rx.descAddr

end EdmaRx

/-- The books of the store against the buffers that are out. -/
structure RxBooks (rx : EdmaRx) (addrs : List (BitVec 32)) : Prop where
  ledger : Ledger (addrs.map rx.opaqueAt) rx.rxSkbStore (allocatedSkbs rx.events)
    (leftSkbs rx.events)
  names : ((allocatedSkbs rx.events).map RxSkb.id).Nodup
  room : ∀ i skb, rx.rxSkbStore i = some skb → edmaRxBuffSize ≤ skb.tailroom

namespace RxBooks

variable {rx rx' : EdmaRx} {addrs addrs' : List (BitVec 32)} {addr : BitVec 32} {skb : RxSkb}

theorem perm (h : RxBooks rx addrs) (hperm : addrs.Perm addrs') : RxBooks rx addrs' :=
  ⟨h.ledger.perm (hperm.map _), h.names, h.room⟩

/-- What the store and the buffers that are out are concerned, nothing happens. -/
theorem same (h : RxBooks rx addrs) (hstore : rx'.rxSkbStore = rx.rxSkbStore)
    (hword : ∀ a ∈ addrs, rx'.opaqueAt a = rx.opaqueAt a) (hevents : rx'.events = rx.events) :
    RxBooks rx' addrs := by
  refine ⟨?_, ?_, ?_⟩
  · rw [hstore, hevents, List.map_congr_left hword]
    exact h.ledger
  · rw [hevents]
    exact h.names
  · rw [hstore]
    exact h.room

/-- A buffer is allocated and put into a free slot. -/
theorem insert (h : RxBooks rx addrs) {i : Nat} (es : List RxEvent)
    (hfree : rx.rxSkbStore i = none)
    (hnew : ((allocatedSkbs rx.events ++ [skb]).map RxSkb.id).Nodup)
    (hroom : edmaRxBuffSize ≤ skb.tailroom)
    (hstore : rx'.rxSkbStore = Function.update rx.rxSkbStore i (some skb))
    (hevents : rx'.events = rx.events ++ es) (hes : allocatedSkbs es = [skb])
    (hleft : leftSkbs es = []) (hword : ∀ a ∈ addrs, rx'.opaqueAt a = rx.opaqueAt a)
    (haddr : rx'.opaqueAt addr = i) : RxBooks rx' (addr :: addrs) := by
  refine ⟨?_, ?_, ?_⟩
  · rw [hstore, hevents, allocatedSkbs_append, hes, leftSkbs_append, hleft, List.append_nil,
      List.map_cons, haddr, List.map_congr_left hword]
    exact h.ledger.insert hfree skb
  · rw [hevents, allocatedSkbs_append, hes]
    exact hnew
  · intro j p hp
    rw [hstore] at hp
    by_cases hj : j = i
    · subst hj
      rw [Function.update_self] at hp
      cases hp
      exact hroom
    · rw [Function.update_of_ne hj] at hp
      exact h.room j p hp

/-- A buffer is allocated and freed at once. -/
theorem turnAway (h : RxBooks rx addrs) (es : List RxEvent)
    (hnew : ((allocatedSkbs rx.events ++ [skb]).map RxSkb.id).Nodup)
    (hstore : rx'.rxSkbStore = rx.rxSkbStore) (hevents : rx'.events = rx.events ++ es)
    (hes : allocatedSkbs es = [skb]) (hleft : leftSkbs es = [skb])
    (hword : rx'.rxph = rx.rxph) : RxBooks rx' addrs := by
  have hsame : rx'.opaqueAt = rx.opaqueAt := by
    unfold EdmaRx.opaqueAt
    rw [hword]
  refine ⟨?_, ?_, ?_⟩
  · rw [hstore, hevents, allocatedSkbs_append, hes, leftSkbs_append, hleft, hsame]
    exact h.ledger.turnAway skb
  · rw [hevents, allocatedSkbs_append, hes]
    exact hnew
  · rw [hstore]
    exact h.room

/-- What the slot of a buffer holds. -/
theorem head (h : RxBooks rx (addr :: addrs)) :
    ∃ skb, rx.rxSkbStore (rx.opaqueAt addr) = some skb ∧ edmaRxBuffSize ≤ skb.tailroom := by
  have hledger := h.ledger
  rw [List.map_cons] at hledger
  obtain ⟨skb, hskb⟩ := hledger.head
  exact ⟨skb, hskb, h.room _ skb hskb⟩

/-- A buffer is taken out of its slot and leaves the driver. -/
theorem release (h : RxBooks rx (addr :: addrs)) (es : List RxEvent)
    (hskb : rx.rxSkbStore (rx.opaqueAt addr) = some skb)
    (hstore : rx'.rxSkbStore = Function.update rx.rxSkbStore (rx.opaqueAt addr) none)
    (hevents : rx'.events = rx.events ++ es) (hes : allocatedSkbs es = [])
    (hleft : leftSkbs es = [skb]) (hword : rx'.rxph = rx.rxph) : RxBooks rx' addrs := by
  have hsame : rx'.opaqueAt = rx.opaqueAt := by
    unfold EdmaRx.opaqueAt
    rw [hword]
  have hledger := h.ledger
  rw [List.map_cons] at hledger
  refine ⟨?_, ?_, ?_⟩
  · rw [hstore, hevents, allocatedSkbs_append, hes, List.append_nil, leftSkbs_append, hleft, hsame]
    exact hledger.release hskb
  · rw [hevents, allocatedSkbs_append, hes, List.append_nil]
    exact h.names
  · intro j p hp
    rw [hstore] at hp
    by_cases hj : j = rx.opaqueAt addr
    · subst hj
      rw [Function.update_self] at hp
      cases hp
    · rw [Function.update_of_ne hj] at hp
      exact h.room j p hp

end RxBooks

/-- An index steps round its ring. -/
theorem edmaIdxNext_eq {count idx : Nat} (hcount : count < 2 ^ 16) (hidx : idx < count) :
    edmaIdxNext count idx = (idx + 1) % count := cleanTx_next hcount hidx

/-- The loop that empties a ring, by induction on the descriptors that are left: each of them is
    of a buffer that is out, which is freed. -/
theorem releaseRxLoop_eq {addr : Nat → BitVec 32} {count prodIdx : Nat} {rest : List (BitVec 32)}
    (hcount : count < 2 ^ 16) (hprod : prodIdx < count) :
    ∀ (k fuel consIdx : Nat) (rx : EdmaRx), consIdx < count → gap count consIdx prodIdx = k →
      k < fuel → RxBooks rx ((window count consIdx k).map addr ++ rest) →
      ∃ es store, releaseRxLoop addr count prodIdx fuel consIdx rx =
          some { rx with rxSkbStore := store, events := rx.events ++ es } ∧
        RxBooks { rx with rxSkbStore := store, events := rx.events ++ es } rest := by
  intro k
  induction k with
  | zero =>
    intro fuel consIdx rx hcons hgap hfuel hbooks
    obtain ⟨fuel, rfl⟩ : ∃ f, fuel = f + 1 := ⟨fuel - 1, by omega⟩
    have heq := (gap_eq_zero hcons hprod).mp hgap
    refine ⟨[], rx.rxSkbStore, ?_, ?_⟩
    · simp [releaseRxLoop, heq]
    · simpa using hbooks
  | succ k ih =>
    intro fuel consIdx rx hcons hgap hfuel hbooks
    obtain ⟨fuel, rfl⟩ : ∃ f, fuel = f + 1 := ⟨fuel - 1, by omega⟩
    have hne : consIdx ≠ prodIdx := by
      rintro rfl
      rw [gap_self] at hgap
      omega
    have hgap' : gap count ((consIdx + 1) % count) prodIdx = k := by
      have := gap_cons_succ hcons hprod hne
      omega
    rw [window_succ_cons hcons, List.map_cons, List.cons_append] at hbooks
    obtain ⟨skb, hskb, -⟩ := hbooks.head
    have hfreed : RxBooks { rx with
        rxSkbStore := Function.update rx.rxSkbStore (rx.opaqueAt (addr consIdx)) none
        events := rx.events ++ [.dmaUnmapSingle .pdev (addr consIdx) edmaRxBuffSize .fromDevice,
          .devKfreeSkb skb] } ((window count ((consIdx + 1) % count) k).map addr ++ rest) :=
      hbooks.release _ hskb rfl rfl rfl rfl rfl
    obtain ⟨es, store, hloop, hrest⟩ := ih fuel ((consIdx + 1) % count) _
      (Nat.mod_lt _ (Nat.zero_lt_of_lt hcons)) hgap' (by omega) hfreed
    refine ⟨[.dmaUnmapSingle .pdev (addr consIdx) edmaRxBuffSize .fromDevice,
      .devKfreeSkb skb] ++ es, store, ?_, ?_⟩
    · rw [releaseRxLoop, if_neg hne, edmaIdxNext_eq hcount hcons]
      simp only [hskb, Option.toList_some, List.map_cons, List.map_nil, EdmaRx.emit,
        EdmaRx.setStore, EdmaRx.unmapAt, List.append_assoc, List.cons_append, List.nil_append]
      simpa only [List.append_assoc, List.cons_append, List.nil_append] using hloop
    · simpa only [List.append_assoc] using hrest

section Alloc

variable {rx rx' : EdmaRx} {held : List (BitVec 32)} {cons descCons : Nat}

section Post

variable {next : Nat} {desc : EdmaRxfillDesc}

/-- A descriptor that is not posted may be written. -/
theorem out_setFill
    (hfill : rx'.rxfill = { rx.rxfill with desc := Function.update rx.rxfill.desc next desc })
    (hdesc : rx'.rxdesc = rx.rxdesc) (hehw : rx'.ehw = rx.ehw)
    (hcons : rx.fillCons < rx.rxfill.count) (hnext : next < rx.rxfill.count) :
    rx'.out held next descCons = rx.out held next descCons := by
  have hcons' : rx'.fillCons = rx.fillCons := by
    unfold EdmaRx.fillCons
    rw [hfill, hehw]
  have hprod' : rx'.descProd = rx.descProd := by
    unfold EdmaRx.descProd
    rw [hdesc, hehw]
  have haddr : (rx.fillWindow rx.fillCons next).map rx'.fillAddr =
      (rx.fillWindow rx.fillCons next).map rx.fillAddr := by
    apply List.map_congr_left
    intro i hi
    have hne : i ≠ next := ne_of_mem_of_not_mem hi (prod_notMem_window hcons hnext)
    simp only [EdmaRx.fillAddr, hfill, Function.update_of_ne hne]
  have hwindow : rx'.fillWindow rx'.fillCons next = rx.fillWindow rx.fillCons next := by
    rw [hcons', EdmaRx.fillWindow, EdmaRx.fillWindow, hfill]
  have hdescAddr : rx'.descAddr = rx.descAddr := by
    unfold EdmaRx.descAddr
    rw [hdesc]
  have hdescWindow : rx'.descWindow descCons rx'.descProd = rx.descWindow descCons rx.descProd := by
    rw [hprod', EdmaRx.descWindow, EdmaRx.descWindow, hdesc]
  rw [EdmaRx.out, EdmaRx.out, hwindow, hdescAddr, hdescWindow, haddr]

/-- A buffer that is posted is out. -/
theorem out_push (hcons : rx.fillCons < rx.rxfill.count) (hnext : next < rx.rxfill.count)
    (hroom : (next + 1) % rx.rxfill.count ≠ rx.fillCons) :
    (rx.out held ((next + 1) % rx.rxfill.count) descCons).Perm
      (rx.fillAddr next :: rx.out held next descCons) := by
  have hwindow : rx.fillWindow rx.fillCons ((next + 1) % rx.rxfill.count) =
      rx.fillWindow rx.fillCons next ++ [next] := window_push hcons hnext hroom
  rw [EdmaRx.out, EdmaRx.out, hwindow, List.map_append, List.map_cons, List.map_nil]
  simp only [List.append_assoc, List.cons_append, List.nil_append]
  exact List.perm_middle

/-- A buffer that could not be mapped is freed, and its slot and its descriptor with it. -/
theorem RxBooks.unmapped (h : RxBooks rx (rx.out held next descCons)) {skb : RxSkb}
    (hnew : ((allocatedSkbs rx.events ++ [skb]).map RxSkb.id).Nodup)
    (hfree : rx.rxSkbStore next = none)
    (hfill : rx'.rxfill = { rx.rxfill with desc := Function.update rx.rxfill.desc next desc })
    (hdesc : rx'.rxdesc = rx.rxdesc) (hehw : rx'.ehw = rx.ehw) (hrxph : rx'.rxph = rx.rxph)
    (hstore : rx'.rxSkbStore =
      Function.update (Function.update rx.rxSkbStore next (some skb)) next none)
    (hevents : rx'.events = rx.events ++ [.allocSkb skb, .devKfreeSkb skb])
    (hcons : rx.fillCons < rx.rxfill.count) (hnext : next < rx.rxfill.count) :
    RxBooks rx' (rx'.out held next descCons) := by
  rw [out_setFill hfill hdesc hehw hcons hnext]
  refine h.turnAway _ hnew ?_ hevents rfl rfl hrxph
  rw [hstore, Function.update_idem, ← hfree, Function.update_eq_self]

/-- A buffer is posted. -/
theorem RxBooks.posted (h : RxBooks rx (rx.out held next descCons)) {alloc : EdmaRxAlloc}
    (word1 : BitVec 32)
    (hnew : ((allocatedSkbs rx.events ++ [alloc.skb]).map RxSkb.id).Nodup)
    (hlarge : edmaRxBuffSize ≤ alloc.skb.tailroom)
    (haddr : alloc.dma ∉ rx.out held next descCons) (hfree : rx.rxSkbStore next = none)
    (hfill : rx'.rxfill =
      { rx.rxfill with desc := Function.update rx.rxfill.desc next ⟨alloc.dma, word1⟩ })
    (hdesc : rx'.rxdesc = rx.rxdesc) (hehw : rx'.ehw = rx.ehw)
    (hrxph : rx'.rxph = Function.update rx.rxph alloc.dma
      { rx.rxph alloc.dma with opaqueWord := BitVec.ofNat 32 next })
    (hstore : rx'.rxSkbStore = Function.update rx.rxSkbStore next (some alloc.skb))
    (hevents : rx'.events = rx.events ++ [.allocSkb alloc.skb,
      .dmaMapSingle .pdev alloc.dma edmaRxBuffSize .fromDevice])
    (hcount : rx.rxfill.count < 2 ^ 16) (hcons : rx.fillCons < rx.rxfill.count)
    (hnext : next < rx.rxfill.count) (hroom : (next + 1) % rx.rxfill.count ≠ rx.fillCons) :
    (rx'.out held ((next + 1) % rx.rxfill.count) descCons).Perm
        (alloc.dma :: rx.out held next descCons) ∧
      RxBooks rx' (rx'.out held ((next + 1) % rx.rxfill.count) descCons) := by
  have hcount' : rx'.rxfill.count = rx.rxfill.count := by rw [hfill]
  have hcons' : rx'.fillCons = rx.fillCons := by
    unfold EdmaRx.fillCons
    rw [hfill, hehw]
  have hdma' : rx'.fillAddr next = alloc.dma := by
    rw [EdmaRx.fillAddr, hfill]
    simp only [Function.update_self]
  have hpush := @out_push rx' held descCons next (by rw [hcons', hcount']; exact hcons)
    (by rw [hcount']; exact hnext) (by rw [hcons', hcount']; exact hroom)
  rw [hcount', hdma', out_setFill hfill hdesc hehw hcons hnext] at hpush
  have hold : ∀ a ∈ rx.out held next descCons, rx'.opaqueAt a = rx.opaqueAt a := by
    intro a ha
    rw [EdmaRx.opaqueAt, hrxph, Function.update_of_ne (ne_of_mem_of_not_mem ha haddr)]
    rfl
  have hslot : rx'.opaqueAt alloc.dma = next := by
    rw [EdmaRx.opaqueAt, hrxph, Function.update_self, BitVec.toNat_ofNat]
    exact Nat.mod_eq_of_lt (by omega)
  exact ⟨hpush,
    (h.insert _ hfree hnew hlarge hstore hevents rfl rfl hold hslot).perm hpush.symm⟩

end Post

/-- What the loop of the allocation leaves alone. -/
structure AllocFrame (rx rx' : EdmaRx) : Prop where
  ehw : rx'.ehw = rx.ehw
  rxdesc : rx'.rxdesc = rx.rxdesc
  id : rx'.rxfill.id = rx.rxfill.id
  count : rx'.rxfill.count = rx.rxfill.count
  running : rx'.running = rx.running

/-- The allocator's promise in the middle of the loop. -/
structure AllocFresh (rx : EdmaRx) (out : List (BitVec 32)) (allocs : List EdmaRxAlloc) : Prop where
  names : ((allocatedSkbs rx.events ++ allocs.map EdmaRxAlloc.skb).map RxSkb.id).Nodup
  room : ∀ alloc ∈ allocs, edmaRxBuffSize ≤ alloc.skb.tailroom
  addrs : (out ++ (allocs.map EdmaRxAlloc.dma).filter (· ≠ 0#32)).Nodup

/-- The name of the next buffer is new. -/
theorem AllocFresh.head {out : List (BitVec 32)} {alloc : EdmaRxAlloc} {allocs : List EdmaRxAlloc}
    (h : AllocFresh rx out (alloc :: allocs)) :
    ((allocatedSkbs rx.events ++ [alloc.skb]).map RxSkb.id).Nodup := by
  refine h.names.sublist (List.Sublist.map _ ?_)
  exact (List.Sublist.refl _).append (List.singleton_sublist.mpr List.mem_cons_self)

/-- The loop of the allocation, by induction on the buffers there are: each of them is posted,
    or ends the loop. -/
theorem allocRxLoop_books (hcount : rx.rxfill.count < 2 ^ 16)
    (hcons : rx.fillCons < rx.rxfill.count) :
    ∀ (allocs : List EdmaRxAlloc) (l : AllocRxLoop), AllocFrame rx l.rx →
      l.next < rx.rxfill.count → l.numAlloc ≤ gap rx.rxfill.count rx.fillCons l.next →
      RxBooks l.rx (l.rx.out held l.next descCons) →
      AllocFresh l.rx (l.rx.out held l.next descCons) allocs →
      ∃ l', allocRxLoop rx.fillCons allocs l = l' ∧ AllocFrame rx l'.rx ∧
        l'.next < rx.rxfill.count ∧
        gap rx.rxfill.count rx.fillCons l'.next + l.numAlloc =
          gap rx.rxfill.count rx.fillCons l.next + l'.numAlloc ∧
        RxBooks l'.rx (l'.rx.out held l'.next descCons) := by
  intro allocs
  induction allocs with
  | nil =>
    intro l hframe hnext _ hbooks _
    exact ⟨l, rfl, hframe, hnext, rfl, hbooks⟩
  | cons alloc allocs ih =>
    intro l hframe hnext hnum hbooks hfresh
    have hcounter : edmaIdxNext l.rx.rxfill.count l.next = (l.next + 1) % rx.rxfill.count := by
      rw [hframe.count]
      exact edmaIdxNext_eq hcount hnext
    rw [allocRxLoop]
    simp only [hcounter]
    by_cases hfull : (l.next + 1) % rx.rxfill.count = rx.fillCons
    · rw [if_pos hfull]
      exact ⟨l, rfl, hframe, hnext, rfl, hbooks⟩
    · rw [if_neg hfull]
      by_cases hbusy : ((l.rx.emit [.allocSkb alloc.skb]).rxSkbStore l.next).isSome = true
      · rw [if_pos hbusy]
        refine ⟨_, rfl, ⟨hframe.ehw, hframe.rxdesc, hframe.id, hframe.count, hframe.running⟩, hnext,
          rfl, ?_⟩
        exact hbooks.turnAway [.allocSkb alloc.skb, .devKfreeSkb alloc.skb] hfresh.head rfl
          (List.append_assoc _ _ _) rfl rfl rfl
      · rw [if_neg hbusy]
        have hfree : l.rx.rxSkbStore l.next = none := Option.not_isSome_iff_eq_none.mp hbusy
        have hlcons : l.rx.fillCons = rx.fillCons := by
          unfold EdmaRx.fillCons
          rw [hframe.ehw, hframe.id]
        have hcons' : l.rx.fillCons < l.rx.rxfill.count := by rwa [hlcons, hframe.count]
        have hnext' : l.next < l.rx.rxfill.count := by rwa [hframe.count]
        by_cases hdma : alloc.dma = 0#32
        · rw [if_pos hdma]
          refine ⟨_, rfl, ⟨hframe.ehw, hframe.rxdesc, hframe.id, hframe.count, hframe.running⟩,
            hnext, rfl, ?_⟩
          exact hbooks.unmapped hfresh.head hfree rfl rfl rfl rfl rfl (List.append_assoc _ _ _)
            hcons' hnext'
        · rw [if_neg hdma]
          have hfilter : ((alloc :: allocs).map EdmaRxAlloc.dma).filter (· ≠ 0#32) =
              alloc.dma :: (allocs.map EdmaRxAlloc.dma).filter (· ≠ 0#32) := by
            rw [List.map_cons, List.filter_cons_of_pos (by simpa using hdma)]
          have haddrs := hfresh.addrs
          rw [hfilter] at haddrs
          have haddr : alloc.dma ∉ l.rx.out held l.next descCons := fun hmem =>
            (List.nodup_append.mp haddrs).2.2 _ hmem _ List.mem_cons_self rfl
          have hroom : (l.next + 1) % l.rx.rxfill.count ≠ l.rx.fillCons := by
            rwa [hframe.count, hlcons]
          obtain ⟨rx', hrx'⟩ : ∃ r, r = ((((l.rx.emit [.allocSkb alloc.skb]).setStore l.next
              (some alloc.skb)).setOpaque alloc.dma (BitVec.ofNat 32 l.next)).setFill l.next
                ⟨alloc.dma, BitVec.ofNat 32 edmaRxBuffSize &&& edmaRxfillBufSizeMask⟩).emit
                  [.dmaMapSingle .pdev alloc.dma edmaRxBuffSize .fromDevice] := ⟨_, rfl⟩
          have hevents : rx'.events = l.rx.events ++ [.allocSkb alloc.skb,
              .dmaMapSingle .pdev alloc.dma edmaRxBuffSize .fromDevice] := by
            rw [hrx']
            exact List.append_assoc _ _ _
          obtain ⟨hpush, hposted⟩ := hbooks.posted
            (BitVec.ofNat 32 edmaRxBuffSize &&& edmaRxfillBufSizeMask) hfresh.head
            (hfresh.room alloc List.mem_cons_self) haddr hfree (by rw [hrx']; rfl)
            (by rw [hrx']; rfl) (by rw [hrx']; rfl) (by rw [hrx']; rfl) (by rw [hrx']; rfl) hevents
            (by rwa [hframe.count]) hcons' hnext' hroom
          rw [hframe.count] at hpush hposted
          have hframe' : AllocFrame rx rx' := by
            rw [hrx']
            exact ⟨hframe.ehw, hframe.rxdesc, hframe.id, hframe.count, hframe.running⟩
          have hgap := gap_prod_succ hcons hnext hfull
          have hlt := gap_lt (Nat.zero_lt_of_lt hcons) rx.fillCons ((l.next + 1) % rx.rxfill.count)
          have hnum' : u16 (l.numAlloc + 1) = l.numAlloc + 1 := u16_of_lt (by omega)
          have hle : l.numAlloc + 1 ≤
              gap rx.rxfill.count rx.fillCons ((l.next + 1) % rx.rxfill.count) := by omega
          have hfresh' : AllocFresh rx' (rx'.out held ((l.next + 1) % rx.rxfill.count) descCons)
              allocs := by
            refine ⟨?_, fun a ha => hfresh.room a (List.mem_cons_of_mem _ ha), ?_⟩
            · rw [hevents, allocatedSkbs_append, List.append_assoc]
              exact hfresh.names
            · exact ((hpush.append_right _).trans List.perm_middle.symm).nodup_iff.mpr haddrs
          rw [← hrx', hnum']
          obtain ⟨l', hl', hframe'', hnext'', hsum, hbooks'⟩ := ih
            ⟨l.numAlloc + 1, (l.next + 1) % rx.rxfill.count, rx'⟩ hframe'
            (Nat.mod_lt _ (Nat.zero_lt_of_lt hcons)) hle hposted hfresh'
          refine ⟨l', hl', hframe'', hnext'', ?_, hbooks'⟩
          dsimp only at hsum
          omega

end Alloc

/-- The sizes of the rings and the indices in their registers. -/
structure RxShape (rx : EdmaRx) : Prop where
  count : ∃ k ≤ 15, rx.rxfill.count = 2 ^ k
  descCount : ∃ k ≤ 15, rx.rxdesc.count = 2 ^ k
  fillProd_lt : rx.fillProd < rx.rxfill.count
  fillCons_lt : rx.fillCons < rx.rxfill.count
  descProd_lt : rx.descProd < rx.rxdesc.count
  descCons_lt : rx.descCons < rx.rxdesc.count

section Calls

variable {rx rx' : EdmaRx} {held : List (BitVec 32)} {fillProd descCons : Nat}

/-- The RXDESC ring and its indices are left alone. -/
structure SameDesc (rx rx' : EdmaRx) : Prop where
  rxdesc : rx'.rxdesc = rx.rxdesc
  descProd : rx'.descProd = rx.descProd
  descCons : rx'.descCons = rx.descCons

/-- What is out depends on the descriptors and two of the indices. -/
theorem out_congr (hfill : rx'.rxfill = rx.rxfill) (hdesc : rx'.rxdesc = rx.rxdesc)
    (hcons : rx'.fillCons = rx.fillCons) (hprod : rx'.descProd = rx.descProd) :
    rx'.out held fillProd descCons = rx.out held fillProd descCons := by
  unfold EdmaRx.out EdmaRx.fillWindow EdmaRx.descWindow EdmaRx.fillAddr EdmaRx.descAddr
  rw [hfill, hdesc, hcons, hprod]

/-- The producer index of the RXFILL ring has moved. -/
theorem filled_shape (hshape : RxShape rx) (hid : rx'.rxfill.id = rx.rxfill.id)
    (hcount : rx'.rxfill.count = rx.rxfill.count) (hdesc : rx'.rxdesc = rx.rxdesc)
    (hregs : ∀ r, r ≠ .rxfillProdIdx rx.rxfill.id → rx'.ehw.regIdx r = rx.ehw.regIdx r)
    (hlt : rx'.fillProd < rx.rxfill.count) :
    RxShape rx' ∧ SameDesc rx rx' ∧ rx'.fillCons = rx.fillCons := by
  have hcons : rx'.fillCons = rx.fillCons := by
    rw [EdmaRx.fillCons, hid]
    exact hregs _ (by simp)
  have hdescProd : rx'.descProd = rx.descProd := by
    rw [EdmaRx.descProd, hdesc]
    exact hregs _ (by simp)
  have hdescCons : rx'.descCons = rx.descCons := by
    rw [EdmaRx.descCons, hdesc]
    exact hregs _ (by simp)
  refine ⟨⟨?_, ?_, ?_, ?_, ?_, ?_⟩, ⟨hdesc, hdescProd, hdescCons⟩, hcons⟩
  · rw [hcount]
    exact hshape.count
  · rw [hdesc]
    exact hshape.descCount
  · rwa [hcount]
  · rw [hcons, hcount]
    exact hshape.fillCons_lt
  · rw [hdescProd, hdesc]
    exact hshape.descProd_lt
  · rw [hdescCons, hdesc]
    exact hshape.descCons_lt

/-- The allocation posts buffers, and keeps the books. -/
theorem allocRxBuffer_books (hshape : RxShape rx) {allocs : List EdmaRxAlloc}
    (h : RxBooks rx (rx.out held rx.fillProd descCons))
    (hfresh : AllocFresh rx (rx.out held rx.fillProd descCons) allocs) :
    ∃ n rx', edmaAllocRxBuffer rx allocs = (n, rx') ∧ RxShape rx' ∧ SameDesc rx rx' ∧
      RxBooks rx' (rx'.out held rx'.fillProd descCons) := by
  obtain ⟨k, hk, hpow⟩ := hshape.count
  have hcount := lt_of_pow hshape.count
  have hnext : rx.fillProd &&& rx.rxfill.count - 1 = rx.fillProd := by
    rw [hpow, and_mask, Nat.mod_eq_of_lt (hpow ▸ hshape.fillProd_lt)]
  obtain ⟨rx₀, hrx₀⟩ : ∃ r, r = rx.touch [.regRead (.rxfillProdIdx rx.rxfill.id),
      .regRead (.rxfillConsIdx rx.rxfill.id)] := ⟨_, rfl⟩
  have hframe₀ : AllocFrame rx₀ rx₀ := ⟨rfl, rfl, rfl, rfl, rfl⟩
  have hcons₀ : rx₀.fillCons = rx.fillCons := by rw [hrx₀]; rfl
  have hcount₀ : rx₀.rxfill.count = rx.rxfill.count := by rw [hrx₀]; rfl
  have hbooks₀ : RxBooks rx₀ (rx₀.out held rx.fillProd descCons) := by
    rw [hrx₀]
    exact h.same rfl (fun _ _ => rfl) rfl
  have hfresh₀ : AllocFresh rx₀ (rx₀.out held rx.fillProd descCons) allocs := by
    rw [hrx₀]
    exact ⟨hfresh.names, hfresh.room, hfresh.addrs⟩
  obtain ⟨l, hl, hframe, hlt, hsum, hbooks⟩ := allocRxLoop_books (by rwa [hcount₀])
    (by rw [hcons₀, hcount₀]; exact hshape.fillCons_lt) allocs ⟨0, rx.fillProd, rx₀⟩ hframe₀
    (by rw [hcount₀]; exact hshape.fillProd_lt) (Nat.zero_le _) hbooks₀ hfresh₀
  have hrx : edmaAllocRxBuffer rx allocs = if l.numAlloc = 0 then (0, l.rx) else
      (l.numAlloc, l.rx.regWrite (.rxfillProdIdx rx.rxfill.id)
        (BitVec.ofNat 32 l.next &&& edmaIdxMask)) := by
    rw [← hl, hcons₀, hrx₀, ← hnext]
    rfl
  have hid : l.rx.rxfill.id = rx.rxfill.id := by
    rw [hframe.id, hrx₀]
    rfl
  have hcountl : l.rx.rxfill.count = rx.rxfill.count := hframe.count.trans hcount₀
  have hregs : ∀ r, l.rx.ehw.regIdx r = rx.ehw.regIdx r := by
    intro r
    rw [hframe.ehw, hrx₀]
    rfl
  have hdesc : l.rx.rxdesc = rx.rxdesc := by
    rw [hframe.rxdesc, hrx₀]
    rfl
  rw [hcount₀, hcons₀] at hsum
  rw [hcount₀] at hlt
  rw [hrx]
  by_cases hzero : l.numAlloc = 0
  · have hprod : l.rx.fillProd = l.next := by
      have hgap : gap rx.rxfill.count rx.fillCons rx.fillProd =
          gap rx.rxfill.count rx.fillCons l.next := by
        dsimp only at hsum
        omega
      rw [EdmaRx.fillProd, hid, hregs, ← slot_gap hshape.fillCons_lt hlt, ← hgap]
      exact (slot_gap hshape.fillCons_lt hshape.fillProd_lt).symm
    obtain ⟨hshape', hsame, -⟩ := filled_shape hshape hid hcountl hdesc (fun r _ => hregs r)
      (by rwa [hprod])
    rw [if_pos hzero]
    refine ⟨_, _, rfl, hshape', hsame, ?_⟩
    rwa [hprod]
  · rw [if_neg hzero]
    obtain ⟨rx', hrx'⟩ : ∃ r, r = l.rx.regWrite (.rxfillProdIdx rx.rxfill.id)
        (BitVec.ofNat 32 l.next &&& edmaIdxMask) := ⟨_, rfl⟩
    have hregs' : ∀ r, r ≠ .rxfillProdIdx rx.rxfill.id → rx'.ehw.regIdx r = rx.ehw.regIdx r := by
      intro r hr
      rw [hrx', ← hregs r]
      exact EdmaHw.regWrite_regIdx_of_ne _ _ _ hr
    have hid' : rx'.rxfill.id = rx.rxfill.id := by rw [hrx', ← hid]; rfl
    have hdesc' : rx'.rxdesc = rx.rxdesc := by rw [hrx', ← hdesc]; rfl
    have hfill' : rx'.rxfill = l.rx.rxfill := by rw [hrx']; rfl
    have hprod : rx'.fillProd = l.next := by
      have hnext16 : l.next < 2 ^ 16 := hlt.trans hcount
      rw [EdmaRx.fillProd, hid', hrx', and_edmaIdxMask_eq hnext16]
      exact EdmaHw.regWrite_regIdx_self _ _ hnext16
    obtain ⟨hshape', hsame, hcons⟩ := filled_shape hshape hid' (by rw [hfill', hcountl]) hdesc'
      hregs'
      (by rwa [hprod])
    have hlcons : l.rx.fillCons = rx.fillCons := by rw [EdmaRx.fillCons, hid, hregs]; rfl
    have hlprod : l.rx.descProd = rx.descProd := by rw [EdmaRx.descProd, hdesc, hregs]; rfl
    rw [← hrx']
    refine ⟨_, _, rfl, hshape', hsame, ?_⟩
    rw [hprod, out_congr hfill' (hdesc'.trans hdesc.symm) (hcons.trans hlcons.symm)
      (hsame.descProd.trans hlprod.symm)]
    refine hbooks.same ?_ ?_ ?_
    · rw [hrx']
      rfl
    · intro a _
      rw [hrx']
      rfl
    · rw [hrx']
      rfl

/-- Two states in which the rings stand alike. -/
structure SameRx (rx rx' : EdmaRx) : Prop where
  rxfill : rx'.rxfill = rx.rxfill
  rxdesc : rx'.rxdesc = rx.rxdesc
  regs : ∀ r, rx'.ehw.regIdx r = rx.ehw.regIdx r

namespace SameRx

theorem fillProd_eq (h : SameRx rx rx') : rx'.fillProd = rx.fillProd := by
  rw [EdmaRx.fillProd, h.rxfill, h.regs, EdmaRx.fillProd]

theorem fillCons_eq (h : SameRx rx rx') : rx'.fillCons = rx.fillCons := by
  rw [EdmaRx.fillCons, h.rxfill, h.regs, EdmaRx.fillCons]

theorem descProd_eq (h : SameRx rx rx') : rx'.descProd = rx.descProd := by
  rw [EdmaRx.descProd, h.rxdesc, h.regs, EdmaRx.descProd]

theorem descCons_eq (h : SameRx rx rx') : rx'.descCons = rx.descCons := by
  rw [EdmaRx.descCons, h.rxdesc, h.regs, EdmaRx.descCons]

theorem out_eq (h : SameRx rx rx') :
    rx'.out held fillProd descCons = rx.out held fillProd descCons :=
  out_congr h.rxfill h.rxdesc h.fillCons_eq h.descProd_eq

theorem shape (h : SameRx rx rx') (hshape : RxShape rx) : RxShape rx' := by
  refine ⟨?_, ?_, ?_, ?_, ?_, ?_⟩
  · rw [h.rxfill]
    exact hshape.count
  · rw [h.rxdesc]
    exact hshape.descCount
  · rw [h.fillProd_eq, h.rxfill]
    exact hshape.fillProd_lt
  · rw [h.fillCons_eq, h.rxfill]
    exact hshape.fillCons_lt
  · rw [h.descProd_eq, h.rxdesc]
    exact hshape.descProd_lt
  · rw [h.descCons_eq, h.rxdesc]
    exact hshape.descCons_lt

end SameRx

/-- A buffer that the frame fits into is delivered or freed. -/
theorem rxHandOver_left (soc : Soc) (rx : EdmaRx) (rxph : EdmaRxPreheader) {status : BitVec 32}
    {skb : RxSkb} (hlarge : edmaRxBuffSize ≤ skb.tailroom)
    (hlen : (status &&& edmaRxdescPacketLenMask).toNat ≤ edmaRxBuffSize) :
    ∃ e, edmaRxHandOver soc rx rxph status skb = some e ∧ e.left = some skb ∧
      e.allocated = none := by
  have hput : skb.putOverflows (status &&& edmaRxdescPacketLenMask).toNat = false := by
    rw [RxSkb.putOverflows, decide_eq_false_iff_not]
    omega
  unfold edmaRxHandOver
  simp only [hput, Bool.false_eq_true, if_false]
  split
  · exact ⟨_, rfl, rfl, rfl⟩
  · split
    · exact ⟨_, rfl, rfl, rfl⟩
    · split
      · exact ⟨_, rfl, rfl, rfl⟩
      · split
        · exact ⟨_, rfl, rfl, rfl⟩
        · split
          · exact ⟨_, rfl, rfl, rfl⟩
          · exact ⟨_, rfl, rfl, rfl⟩

/-- A buffer that is delivered goes to the open device of the port that its preheader names. -/
theorem rxHandOver_delivered {soc : Soc} {rxph : EdmaRxPreheader} {status : BitVec 32}
    {skb skb' : RxSkb} {e : RxEvent} (h : edmaRxHandOver soc rx rxph status skb = some e)
    (hdelivered : e.delivered = some skb') :
    ∃ ndev len, (e = .netifReceiveSkb ndev skb' len ∨ e = .nssPhyTstampRxBuf ndev skb' len) ∧
      rxph.srcInfoType = edmaPrehdrDstinfoPortidInd ∧ soc.startIfnum ≤ rxph.srcPortNum ∧
      rxph.srcPortNum ≤ soc.maxPorts ∧ rx.ehw.netdevArr (rxph.srcPortNum - 1) = some ndev ∧
      rx.running ndev = true := by
  unfold edmaRxHandOver at h
  split at h
  · cases h
    cases hdelivered
  · rename_i htype
    simp only at h
    split at h
    · cases h
      cases hdelivered
    · rename_i hport
      split at h
      · cases h
        cases hdelivered
      · rename_i ndev hndev
        split at h
        · cases h
          cases hdelivered
        · rename_i hrunning
          split at h
          · cases h
          · rw [not_or, Nat.not_lt, Nat.not_lt] at hport
            refine ⟨ndev, ((status &&& edmaRxdescPacketLenMask).toNat : Int), ?_, not_not.mp htype,
              hport.1, hport.2, hndev, by simpa using hrunning⟩
            split at h
            · cases h
              cases hdelivered
              exact Or.inr rfl
            · cases h
              cases hdelivered
              exact Or.inl rfl

/-- The returned buffer that is reaped first. -/
theorem out_reap (hcons : descCons < rx.rxdesc.count) (hprod : rx.descProd < rx.rxdesc.count)
    (hne : descCons ≠ rx.descProd) :
    (rx.out held fillProd descCons).Perm
      (rx.descAddr descCons :: rx.out held fillProd ((descCons + 1) % rx.rxdesc.count)) := by
  have hwindow : rx.descWindow descCons rx.descProd =
      descCons :: rx.descWindow ((descCons + 1) % rx.rxdesc.count) rx.descProd :=
    window_take hcons hprod hne
  rw [EdmaRx.out, EdmaRx.out, hwindow, List.map_cons]
  exact List.perm_middle

/-- A turn of the poll ends the loop, or reaps a buffer that is delivered or freed. -/
theorem cleanRxTurn_books (soc : Soc) (hshape : RxShape rx) {call : CleanRx}
    (hcons : call.consIdx < rx.rxdesc.count)
    (hfits : ∀ i ∈ rx.descWindow call.consIdx rx.descProd,
      ((rx.rxdesc.desc i).status &&& edmaRxdescPacketLenMask).toNat ≤ edmaRxBuffSize)
    (h : RxBooks rx (rx.out held fillProd call.consIdx)) :
    edmaCleanRxTurn soc rx call = .done (rx.touch [.regRead (.rxdescProdIdx rx.rxdesc.id)]) ∨
      ∃ rx' call', edmaCleanRxTurn soc rx call = .next rx' call' ∧
        call.consIdx ≠ rx.descProd ∧
        call'.consIdx = (call.consIdx + 1) % rx.rxdesc.count ∧ SameRx rx rx' ∧
        RxBooks rx' (rx'.out held fillProd call'.consIdx) := by
  unfold edmaCleanRxTurn
  simp only
  split
  · exact Or.inl rfl
  · rename_i hend
    have hne : call.consIdx ≠ rx.descProd := hend
    have hout := h.perm (out_reap hcons hshape.descProd_lt hne)
    obtain ⟨skb, hskb, hlarge⟩ := hout.head
    have hfirst : call.consIdx ∈ rx.descWindow call.consIdx rx.descProd := by
      rw [EdmaRx.descWindow, window_take hcons hshape.descProd_lt hne]
      exact List.mem_cons_self
    have hnext := edmaIdxNext_eq (lt_of_pow hshape.descCount) hcons
    split
    · exact Or.inl rfl
    · right
      split
      · rename_i hnone
        cases hnone.symm.trans hskb
      · rename_i skb' hskb'
        cases hskb'.symm.trans hskb
        obtain ⟨rx', hrx'⟩ : ∃ r, r = (rx.touch [.regRead (.rxdescProdIdx rx.rxdesc.id)]).unmapAt
            (rx.descAddr call.consIdx) := ⟨_, rfl⟩
        obtain ⟨e, he, hleft, hallocated⟩ := rxHandOver_left soc rx'
          (rx'.rxph (rx.descAddr call.consIdx)) hlarge (hfits _ hfirst)
        have hsame : SameRx rx (rx'.emit [e]) := by
          rw [hrx']
          exact ⟨rfl, rfl, fun _ => rfl⟩
        have hbooks : RxBooks (rx'.emit [e]) ((rx'.emit [e]).out held fillProd
            ((call.consIdx + 1) % rx.rxdesc.count)) := by
          rw [hsame.out_eq, hrx']
          refine hout.release [.dmaUnmapSingle .pdev (rx.descAddr call.consIdx) edmaRxBuffSize
            .fromDevice, e] hskb rfl (List.append_assoc _ _ _) ?_ ?_ rfl
          · rw [allocatedSkbs, List.filterMap_cons_none rfl, List.filterMap_cons_none hallocated,
              List.filterMap_nil]
          · rw [leftSkbs, List.filterMap_cons_none rfl, List.filterMap_cons_some hleft,
              List.filterMap_nil]
        rw [hrx'] at he hsame hbooks
        split
        · rename_i hnone
          cases hnone.symm.trans he
        · rename_i e' he'
          cases he'.symm.trans he
          rw [← hnext] at hbooks
          exact ⟨_, _, rfl, hne, hnext, hsame, hbooks⟩

/-- The release of the two rings returns; what the hardware holds is still out. -/
theorem cleanup_books (hshape : RxShape rx) (h : RxBooks rx (rx.out held rx.fillProd rx.descCons)) :
    ∃ rx', rx.cleanupRxfillRingRes.bind EdmaRx.cleanupRxdescRingRes = some rx' ∧ SameRx rx rx' ∧
      RxBooks rx' held := by
  have hcount := lt_of_pow hshape.count
  have hdescCount := lt_of_pow hshape.descCount
  have hgap := gap_lt (Nat.zero_lt_of_lt hshape.fillCons_lt) rx.fillCons rx.fillProd
  have hdescGap := gap_lt (Nat.zero_lt_of_lt hshape.descCons_lt) rx.descCons rx.descProd
  have hfill : RxBooks (rx.touch [.regRead (.rxfillProdIdx rx.rxfill.id),
      .regRead (.rxfillConsIdx rx.rxfill.id)]) ((rx.fillWindow rx.fillCons rx.fillProd).map
        rx.fillAddr ++ (held ++ (rx.descWindow rx.descCons rx.descProd).map rx.descAddr)) := by
    rw [← List.append_assoc]
    exact h.same rfl (fun _ _ => rfl) rfl
  obtain ⟨es, store, hloop, hbooks⟩ := releaseRxLoop_eq hcount hshape.fillProd_lt _ (2 ^ 16) _ _
    hshape.fillCons_lt rfl (by omega) hfill
  have hdesc : RxBooks (EdmaRx.touch { rx.touch [.regRead (.rxfillProdIdx rx.rxfill.id),
        .regRead (.rxfillConsIdx rx.rxfill.id)] with
      rxSkbStore := store
      events := rx.events ++ es } [.regRead (.rxdescConsIdx rx.rxdesc.id),
        .regRead (.rxdescProdIdx rx.rxdesc.id)])
      ((rx.descWindow rx.descCons rx.descProd).map rx.descAddr ++ held) :=
    (hbooks.perm List.perm_append_comm).same rfl (fun _ _ => rfl) rfl
  obtain ⟨es', store', hloop', hbooks'⟩ := releaseRxLoop_eq hdescCount hshape.descProd_lt _ (2 ^ 16)
    _ _ hshape.descCons_lt rfl (by omega) hdesc
  refine ⟨_, ?_, ?_, hbooks'⟩
  · rw [EdmaRx.cleanupRxfillRingRes]
    exact Option.bind_eq_some_iff.mpr ⟨_, hloop, hloop'⟩
  · exact ⟨rfl, rfl, fun _ => rfl⟩

end Calls

end NssDp.Edma
