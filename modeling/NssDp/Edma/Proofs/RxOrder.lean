import NssDp.Misc.Fifo
import NssDp.Edma.Proofs.RxRefill

/-!
# The order in which EDMA receives

A buffer passes three places: the RXFILL ring, the hardware, and the RXDESC ring. The rings
keep their order. A buffer is the same throughout: what the poll hands over for a descriptor is
the buffer that was mapped at its address, with what the hardware has written there.
-/

namespace NssDp.Edma

open Lts Cyclic Word

/-- A buffer that comes back, with what the hardware has written to it and its descriptor. -/
structure RxFrame where
  buf : EdmaRxAlloc
  srcInfo : BitVec 16
  rxPre4 : BitVec 32
  status : BitVec 32
  deriving DecidableEq, Repr

/-- The length the hardware reports. -/
def RxFrame.len (frame : RxFrame) : Nat := (frame.status &&& edmaRxdescPacketLenMask).toNat

namespace EdmaRx

/-- The buffer in the store whose memory is at an address. -/
def bufAt (rx : EdmaRx) (addr : BitVec 32) : Option EdmaRxAlloc :=
  (rx.rxSkbStore (rx.opaqueAt addr)).map fun skb => ⟨skb, addr⟩

/-- The buffers in the RXFILL ring. -/
def postedBufs (rx : EdmaRx) : List EdmaRxAlloc :=
  ((rx.fillWindow rx.fillCons rx.fillProd).map rx.fillAddr).filterMap rx.bufAt

/-- The frame in a place of the RXDESC ring. -/
def frameAt (rx : EdmaRx) (i : Nat) : Option RxFrame :=
  (rx.bufAt (rx.descAddr i)).map fun buf =>
    ⟨buf, (rx.rxph (rx.descAddr i)).srcInfo, (rx.rxph (rx.descAddr i)).rxPre4,
      (rx.rxdesc.desc i).status⟩

/-- The frames in the RXDESC ring from an index on. -/
def returnedFrom (rx : EdmaRx) (descCons : Nat) : List RxFrame :=
  (rx.descWindow descCons rx.descProd).filterMap rx.frameAt

end EdmaRx

namespace RxDmaRun

/-- The buffers the hardware holds. -/
def heldBufs (s : RxDmaRun) : List EdmaRxAlloc := s.held.filterMap s.rx.bufAt

/-- The frames in the RXDESC ring. -/
def returned (s : RxDmaRun) : List RxFrame := s.rx.returnedFrom s.descCons

/-- The calls on buffers that a step makes. -/
def shows (soc : Soc) (s : RxDmaRun) (a : RxDmaLabel) : List RxEvent :=
  match rxDmaStep soc s a with
  | none => []
  | some t => t.rx.events.drop s.rx.events.length

/-- The buffers a step posts. -/
def posts (soc : Soc) (s : RxDmaRun) (a : RxDmaLabel) : List EdmaRxAlloc :=
  (mappedSkbs (s.shows soc a)).map fun p => ⟨p.1, p.2⟩

/-- The buffer the hardware takes. -/
def takes (s : RxDmaRun) : RxDmaLabel → List EdmaRxAlloc
  | .take => (s.rx.bufAt (s.rx.fillAddr s.rx.fillCons)).toList
  | _ => []

/-- The frame the hardware returns. -/
def returns (s : RxDmaRun) : RxDmaLabel → List RxFrame
  | .ret addr srcInfo rxPre4 status =>
    (s.rx.bufAt addr).toList.map fun buf => ⟨buf, srcInfo, rxPre4, status⟩
  | _ => []

/-- The frame a turn of the poll reaps, and the call it makes for it. -/
def reaps (soc : Soc) (s : RxDmaRun) : RxDmaLabel → List (RxFrame × RxEvent)
  | .turn => (s.rx.frameAt s.descCons).toList.zip
      ((s.shows soc .turn).filter fun e => e.left.isSome)
  | _ => []

/-- All the calls on buffers that a turn of the poll makes. -/
def turnCalls (soc : Soc) (s : RxDmaRun) : RxDmaLabel → List RxEvent
  | .turn => s.shows soc .turn
  | _ => []

end RxDmaRun

/-- The calls of turns that reap `ps`: a buffer is unmapped, and its call is made. -/
def reapCalls (ps : List (RxFrame × RxEvent)) : List RxEvent :=
  ps.flatMap fun p => [.dmaUnmapSingle .pdev p.1.buf.dma edmaRxBuffSize .fromDevice, p.2]

/-- The rings are not released, and the length the hardware reports fits the buffer it was
    given. -/
def Receiving (s : RxDmaRun) (a : RxDmaLabel) : Prop := LengthFits s a ∧ a ≠ .cleanup

instance (s : RxDmaRun) (a : RxDmaLabel) : Decidable (Receiving s a) :=
  match a with
  | .cleanup => isFalse fun h => h.2 rfl
  | .ret _ _ _ status => decidable_of_iff
      ((status &&& edmaRxdescPacketLenMask).toNat ≤ edmaRxBuffSize) ⟨fun h => ⟨h, nofun⟩, And.left⟩
  | .alloc _ | .start _ | .turn | .finish _ | .take | .devices _ _ => isTrue ⟨trivial, nofun⟩

/-- What every such step keeps. -/
def RxOrderInv (s : RxDmaRun) : Prop := RxDmaInv s ∧ s.ended = false

section Places

variable {rx rx' : EdmaRx} {addr : BitVec 32}

theorem bufAt_congr (hword : rx'.opaqueAt addr = rx.opaqueAt addr)
    (hstore : rx'.rxSkbStore (rx.opaqueAt addr) = rx.rxSkbStore (rx.opaqueAt addr)) :
    rx'.bufAt addr = rx.bufAt addr := by
  rw [EdmaRx.bufAt, EdmaRx.bufAt, hword, hstore]

/-- The calls that post buffers show them, and a buffer that is turned away is not posted. -/
theorem mappedSkbs_refill (done : List EdmaRxAlloc) (turned : Option EdmaRxAlloc) :
    (mappedSkbs (postEvents done ++ turnEvents turned)).map (fun p => ⟨p.1, p.2⟩) = done := by
  induction done with
  | nil => cases turned <;> rfl
  | cons alloc done ih =>
    rw [postEvents, List.flatMap_cons, List.append_assoc]
    simp only [List.cons_append, List.nil_append, mappedSkbs, List.map_cons]
    exact congrArg _ ih

/-- What an attempt at a refill finds is nowhere else. -/
theorem refill_dmas {allocs done : List EdmaRxAlloc} {turned : Option EdmaRxAlloc} {base room : Nat}
    {out : List (BitVec 32)}
    (hstops : Stops rx base room (fun i => allocs[i]?) done turned)
    (hapart : (out ++ (allocs.map EdmaRxAlloc.dma).filter (· ≠ 0#32)).Nodup) :
    (done.map EdmaRxAlloc.dma).Nodup ∧ ∀ a ∈ out, a ∉ done.map EdmaRxAlloc.dma := by
  have hdone : done <+: allocs := by
    rw [List.prefix_iff_getElem?]
    intro i hi
    rw [← List.getElem?_eq_getElem hi]
    exact hstops.attempted i hi
  have hmapped : ∀ alloc ∈ done, alloc.dma ≠ 0#32 := by
    intro alloc halloc
    obtain ⟨i, hi, heq⟩ := List.mem_iff_getElem.mp halloc
    obtain ⟨alloc', hattempt, -, hdma⟩ := hstops.good i hi
    have hsame := (hstops.attempted i hi).symm.trans hattempt
    rw [List.getElem?_eq_getElem hi, heq] at hsame
    cases hsame
    exact hdma
  have hsub : List.Sublist (done.map EdmaRxAlloc.dma)
      ((allocs.map EdmaRxAlloc.dma).filter (· ≠ 0#32)) := by
    have hall : (done.map EdmaRxAlloc.dma).filter (· ≠ 0#32) = done.map EdmaRxAlloc.dma := by
      rw [List.filter_eq_self]
      intro a ha
      obtain ⟨alloc, halloc, rfl⟩ := List.mem_map.mp ha
      simpa using hmapped alloc halloc
    rw [← hall]
    exact (hdone.sublist.map _).filter _
  obtain ⟨-, hnodup, hdisj⟩ := List.nodup_append.mp hapart
  exact ⟨hnodup.sublist hsub, fun a ha hmem => hdisj a ha a (hsub.subset hmem) rfl⟩

/-- A refill puts what it posts behind the buffers in the RXFILL ring, and leaves alone what is
    out. -/
structure RefillPlaces (rx rx' : EdmaRx) (out : List (BitVec 32)) (done : List EdmaRxAlloc)
    (turned : Option EdmaRxAlloc) : Prop where
  posted : rx'.postedBufs = rx.postedBufs ++ done
  bufAt : ∀ a ∈ out, rx'.bufAt a = rx.bufAt a
  rxph : ∀ a ∈ out, rx'.rxph a = rx.rxph a
  rxdesc : rx'.rxdesc = rx.rxdesc
  descProd : rx'.descProd = rx.descProd
  events : rx'.events = rx.events ++ (postEvents done ++ turnEvents turned)

/-- The indices after a refill. -/
theorem refill_indices (hshape : RxShape rx) {done : List EdmaRxAlloc}
    {turned : Option EdmaRxAlloc} {r : Nat × EdmaRx} (hresult : RefillResult rx done turned r) :
    r.2.fillProd = slot rx.rxfill.count rx.fillProd done.length ∧ r.2.fillCons = rx.fillCons ∧
      SameDesc rx r.2 := by
  have hid := hresult.refilled.id
  have hcount := lt_of_pow hshape.count
  have hlt := slot_lt (Nat.zero_lt_of_lt hshape.fillProd_lt) rx.fillProd done.length
  have hregs : ∀ reg, reg ≠ .rxfillProdIdx rx.rxfill.id → r.2.ehw.regIdx reg =
      rx.ehw.regIdx reg := by
    intro reg hreg
    rw [hresult.ehw]
    dsimp only
    split
    · rfl
    · exact EdmaHw.regWrite_regIdx_of_ne _ _ _ hreg
  refine ⟨?_, ?_, hresult.refilled.rxdesc, ?_, ?_⟩
  · rw [EdmaRx.fillProd, hid, hresult.ehw]
    dsimp only
    split
    · rename_i hzero
      rw [hzero, slot_zero hshape.fillProd_lt]
      rfl
    · exact EdmaHw.regWrite_regIdx_self _ _ (hlt.trans hcount)
  · rw [EdmaRx.fillCons, hid]
    exact hregs _ (by simp)
  · rw [EdmaRx.descProd, hresult.refilled.rxdesc]
    exact hregs _ (by simp)
  · rw [EdmaRx.descCons, hresult.refilled.rxdesc]
    exact hregs _ (by simp)

theorem refill_places (hshape : RxShape rx) {out : List (BitVec 32)} {allocs : List EdmaRxAlloc}
    (hused : ∀ a ∈ out, (rx.rxSkbStore (rx.opaqueAt a)).isSome = true)
    (hposted : ∀ i ∈ rx.fillWindow rx.fillCons rx.fillProd, rx.fillAddr i ∈ out)
    (hapart : (out ++ (allocs.map EdmaRxAlloc.dma).filter (· ≠ 0#32)).Nodup) :
    ∃ done turned, RefillPlaces rx (edmaAllocRxBuffer rx allocs).2 out done turned := by
  obtain ⟨done, turned, hresult, hstops⟩ := @edmaAllocRxBuffer_result rx allocs hshape.count
    hshape.fillProd_lt hshape.fillCons_lt
  obtain ⟨rx', hrx'⟩ : ∃ r, r = (edmaAllocRxBuffer rx allocs).2 := ⟨_, rfl⟩
  obtain ⟨hprod, hcons, hdesc⟩ := refill_indices hshape hresult
  have hrefilled := hresult.refilled
  rw [← hrx'] at hprod hcons hdesc hrefilled ⊢
  obtain ⟨hnodup, hdisj⟩ := refill_dmas hstops hapart
  have hroom := gap_add_room hshape.fillCons_lt hshape.fillProd_lt
  have hle := hstops.le
  have hgap := @gap_slot_add _ rx.fillCons rx.fillProd done.length hshape.fillCons_lt
    hshape.fillProd_lt (by omega)
  have hbufAt : ∀ a ∈ out, rx'.bufAt a = rx.bufAt a := by
    intro a ha
    refine bufAt_congr (congrArg (fun p => p.opaqueWord.toNat) (hrefilled.rxph a (hdisj a ha))) ?_
    refine hrefilled.store _ fun hmem => ?_
    obtain ⟨i, hi, hslot⟩ := mem_window.mp hmem
    obtain ⟨-, -, hfree, -⟩ := hstops.good i hi
    have hsome := hused a ha
    rw [← hslot, hfree] at hsome
    cases hsome
  refine ⟨done, turned, ?_, hbufAt, fun a ha => hrefilled.rxph a (hdisj a ha), hdesc.rxdesc,
    hdesc.descProd, ?_⟩
  · have hold : (rx.fillWindow rx.fillCons rx.fillProd).map rx'.fillAddr =
        (rx.fillWindow rx.fillCons rx.fillProd).map rx.fillAddr := by
      refine List.map_congr_left fun j hj => ?_
      obtain ⟨i, hi, rfl⟩ := mem_window.mp hj
      have hne : ∀ k ≤ done.length,
          slot rx.rxfill.count rx.fillCons i ≠ slot rx.rxfill.count rx.fillProd k := by
        intro k hk heq
        rw [← slot_gap hshape.fillCons_lt hshape.fillProd_lt, slot_slot] at heq
        have hsame := slot_inj (by omega) (by omega) heq
        omega
      have hout : slot rx.rxfill.count rx.fillCons i ∉
          window rx.rxfill.count rx.fillProd done.length := by
        intro hmem
        obtain ⟨k, hk, heq⟩ := mem_window.mp hmem
        exact hne k hk.le heq.symm
      rcases hrefilled.desc _ hout with hsame | ⟨hlast, -⟩
      · exact congrArg EdmaRxfillDesc.bufferAddr hsame
      · exact absurd hlast (hne _ (Nat.le_refl _))
    have hnew : (window rx.rxfill.count rx.fillProd done.length).map rx'.fillAddr =
        done.map EdmaRxAlloc.dma := by
      refine List.ext_getElem (by simp) fun i hi hi' => ?_
      rw [List.length_map] at hi'
      have hat := (hrefilled.at_slot i done[i] (List.getElem?_eq_getElem hi')).1
      simp only [List.getElem_map, window, List.getElem_range, EdmaRx.fillAddr, hat]
    have hfound : ∀ alloc ∈ done, rx'.bufAt alloc.dma = some alloc := by
      intro alloc halloc
      obtain ⟨i, hi, rfl⟩ := List.mem_iff_getElem.mp halloc
      have hi' := List.getElem?_eq_getElem hi
      rw [EdmaRx.bufAt, hrefilled.opaqueAt hnodup i _ hi', (hrefilled.at_slot i _ hi').2]
      rfl
    have hwindow : rx'.fillWindow rx'.fillCons rx'.fillProd =
        rx.fillWindow rx.fillCons rx.fillProd ++
          window rx.rxfill.count rx.fillProd done.length := by
      rw [EdmaRx.fillWindow, hcons, hprod, hrefilled.count, hgap, window_add,
        slot_gap hshape.fillCons_lt hshape.fillProd_lt, EdmaRx.fillWindow]
    rw [EdmaRx.postedBufs, hwindow, List.map_append, hold, hnew, List.filterMap_append,
      EdmaRx.postedBufs]
    congr 1
    · refine List.filterMap_congr fun a ha => ?_
      obtain ⟨i, hi, rfl⟩ := List.mem_map.mp ha
      exact hbufAt _ (hposted i hi)
    · rw [List.filterMap_map]
      exact (List.filterMap_congr hfound).trans List.filterMap_some
  · rw [hrefilled.events, List.append_assoc]

theorem frameAt_congr {i : Nat} (hdesc : rx'.rxdesc = rx.rxdesc)
    (hbuf : rx'.bufAt (rx.descAddr i) = rx.bufAt (rx.descAddr i))
    (hrxph : rx'.rxph (rx.descAddr i) = rx.rxph (rx.descAddr i)) :
    rx'.frameAt i = rx.frameAt i := by
  have haddr : rx'.descAddr i = rx.descAddr i := by rw [EdmaRx.descAddr, hdesc, EdmaRx.descAddr]
  rw [EdmaRx.frameAt, haddr, hbuf, hrxph, hdesc, EdmaRx.frameAt]

/-- A turn of the poll that finds a buffer hands it over. -/
theorem cleanRxTurn_takes {soc : Soc} {call call' : CleanRx} {skb : RxSkb}
    (h : edmaCleanRxTurn soc rx call = .next rx' call')
    (hskb : rx.rxSkbStore (rx.opaqueAt (rx.descAddr call.consIdx)) = some skb) :
    ∃ e rx₀, rx₀ = (rx.touch [.regRead (.rxdescProdIdx rx.rxdesc.id)]).unmapAt
        (rx.descAddr call.consIdx) ∧
      edmaRxHandOver soc rx₀ (rx.rxph (rx.descAddr call.consIdx))
        (rx.rxdesc.desc call.consIdx).status skb = some e ∧
      rx' = rx₀.emit [e] := by
  unfold edmaCleanRxTurn at h
  simp only at h
  split at h
  · cases h
  · split at h
    · cases h
    · split at h
      · rename_i hnone
        cases hnone.symm.trans hskb
      · rename_i skb' hskb'
        cases hskb'.symm.trans hskb
        split at h
        · cases h
        · rename_i e he
          cases h
          exact ⟨e, _, rfl, he, rfl⟩

/-- A buffer that is handed over is freed, or goes to a device with the length reported. -/
theorem rxHandOver_cases {soc : Soc} {rxph : EdmaRxPreheader} {status : BitVec 32} {skb : RxSkb}
    {e : RxEvent} (h : edmaRxHandOver soc rx rxph status skb = some e) :
    e = .devKfreeSkb skb ∨
      ∃ ndev, e = .netifReceiveSkb ndev skb (status &&& edmaRxdescPacketLenMask).toNat ∨
        e = .nssPhyTstampRxBuf ndev skb (status &&& edmaRxdescPacketLenMask).toNat := by
  unfold edmaRxHandOver at h
  split at h
  · exact Or.inl (Option.some.inj h).symm
  · simp only at h
    split at h
    · exact Or.inl (Option.some.inj h).symm
    · split at h
      · exact Or.inl (Option.some.inj h).symm
      · rename_i ndev _
        split at h
        · exact Or.inl (Option.some.inj h).symm
        · split at h
          · cases h
          · split at h
            · exact Or.inr ⟨ndev, Or.inr (Option.some.inj h).symm⟩
            · exact Or.inr ⟨ndev, Or.inl (Option.some.inj h).symm⟩

/-- The registers that a refill does not read may be written. -/
theorem RefillPlaces.congr {rx₁ rx₂ : EdmaRx} {out : List (BitVec 32)} {done : List EdmaRxAlloc}
    {turned : Option EdmaRxAlloc} (h : RefillPlaces rx rx' out done turned) {e e' : EdmaHw}
    (h₁ : rx₁ = { rx with ehw := e }) (h₂ : rx₂ = { rx' with ehw := e' })
    (hregs : ∀ reg, e.regIdx reg = rx.ehw.regIdx reg)
    (hregs' : ∀ reg, reg ≠ .rxdescConsIdx rx'.rxdesc.id → e'.regIdx reg = rx'.ehw.regIdx reg) :
    RefillPlaces rx₁ rx₂ out done turned := by
  subst h₁ h₂
  have hposted := h.posted
  have hprod := h.descProd
  simp only [EdmaRx.postedBufs, EdmaRx.fillCons, EdmaRx.fillProd] at hposted
  simp only [EdmaRx.descProd] at hprod
  refine ⟨?_, h.bufAt, h.rxph, h.rxdesc, ?_, h.events⟩
  · simp only [EdmaRx.postedBufs, EdmaRx.fillCons, EdmaRx.fillProd, hregs]
    rw [hregs' _ (by simp), hregs' _ (by simp)]
    exact hposted
  · simp only [EdmaRx.descProd, hregs]
    rw [hregs' _ (by simp)]
    exact hprod

namespace Returned

variable {srcInfo : BitVec 16} {rxPre4 status : BitVec 32} {cons : Nat}

/-- A return moves no buffer in the store. -/
theorem bufAt (h : Returned rx rx' addr srcInfo rxPre4 status) : rx'.bufAt = rx.bufAt := by
  funext a
  exact bufAt_congr (h.opaqueAt a) (by rw [h.store])

theorem postedBufs (h : Returned rx rx' addr srcInfo rxPre4 status) :
    rx'.postedBufs = rx.postedBufs := by
  rw [EdmaRx.postedBufs, h.posted, h.bufAt, EdmaRx.postedBufs]

theorem frameAt_new (h : Returned rx rx' addr srcInfo rxPre4 status) {buf : EdmaRxAlloc}
    (hbuf : rx.bufAt addr = some buf) :
    rx'.frameAt rx.descProd = some ⟨buf, srcInfo, rxPre4, status⟩ := by
  have haddr : rx'.descAddr rx.descProd = addr := by rw [EdmaRx.descAddr, h.desc_new]
  rw [EdmaRx.frameAt, haddr, h.bufAt, hbuf, h.rxph, Function.update_self, h.desc_new]
  rfl

/-- The frame comes behind those in the RXDESC ring, which keep their preheaders. -/
theorem returnedFrom (h : Returned rx rx' addr srcInfo rxPre4 status) (hshape : RxShape rx)
    (hcons : cons < rx.rxdesc.count) (hroom : (rx.descProd + 1) % rx.rxdesc.count ≠ cons)
    (hapart : ∀ i ∈ rx.descWindow cons rx.descProd, rx.descAddr i ≠ addr) {buf : EdmaRxAlloc}
    (hbuf : rx.bufAt addr = some buf) :
    rx'.returnedFrom cons = rx.returnedFrom cons ++ [⟨buf, srcInfo, rxPre4, status⟩] := by
  have hold : ∀ i ∈ rx.descWindow cons rx.descProd, rx'.frameAt i = rx.frameAt i := by
    intro i hi
    have hat := h.desc_old hshape hcons hi
    have haddr : rx'.descAddr i = rx.descAddr i := congrArg EdmaRxdescDesc.bufferAddr hat
    rw [EdmaRx.frameAt, haddr, h.bufAt, h.rxph, hat, Function.update_of_ne (hapart i hi),
      EdmaRx.frameAt]
  rw [EdmaRx.returnedFrom, h.descWindow hshape hcons hroom, List.filterMap_append,
    List.filterMap_congr hold, List.filterMap_cons_some (h.frameAt_new hbuf)]
  rfl

end Returned

end Places

namespace RxOrderInv

variable {s s' : RxDmaRun} {soc : Soc}

theorem start {rx : EdmaRx} (hidle : RxIdle rx) : RxOrderInv (.start rx) :=
  ⟨RxDmaInv.start hidle, rfl⟩

theorem step (h : RxOrderInv s) {a : RxDmaLabel} (hC : Receiving s a)
    (hstep : rxDmaStep soc s a = some s') : RxOrderInv s' := by
  refine ⟨h.1.step hC.1 hstep, ?_⟩
  have hended := h.2
  cases rxDmaStep_does hstep with
  | cleanup => exact absurd rfl hC.2
  | _ => exact hended

/-- The addresses of the buffers that are out. -/
theorem books (h : RxOrderInv s) :
    RxBooks s.rx (s.rx.out s.held s.rx.fillProd s.descCons) := by
  have hbooks := h.1.books
  rwa [RxDmaInv.outstanding_eq h.2] at hbooks

theorem used (h : RxOrderInv s) : ∀ a ∈ s.rx.out s.held s.rx.fillProd s.descCons,
    (s.rx.rxSkbStore (s.rx.opaqueAt a)).isSome = true := by
  intro a ha
  exact (h.books.ledger.used _).mpr (List.mem_map_of_mem ha)

theorem bufAt_out (h : RxOrderInv s) {a : BitVec 32}
    (ha : a ∈ s.rx.out s.held s.rx.fillProd s.descCons) : ∃ skb, s.rx.bufAt a = some ⟨skb, a⟩ := by
  obtain ⟨skb, hskb⟩ := Option.isSome_iff_exists.mp (h.used a ha)
  exact ⟨skb, by rw [EdmaRx.bufAt, hskb]; rfl⟩

theorem mem_posted {i : Nat} (hi : i ∈ s.rx.fillWindow s.rx.fillCons s.rx.fillProd) :
    s.rx.fillAddr i ∈ s.rx.out s.held s.rx.fillProd s.descCons :=
  List.mem_append_left _ (List.mem_append_left _ (List.mem_map_of_mem hi))

theorem mem_held {a : BitVec 32} (ha : a ∈ s.held) :
    a ∈ s.rx.out s.held s.rx.fillProd s.descCons :=
  List.mem_append_left _ (List.mem_append_right _ ha)

theorem mem_returned {i : Nat} (hi : i ∈ s.rx.descWindow s.descCons s.rx.descProd) :
    s.rx.descAddr i ∈ s.rx.out s.held s.rx.fillProd s.descCons :=
  List.mem_append_right _ (List.mem_map_of_mem hi)

/-- A buffer the hardware holds is in no descriptor the driver is to reap. -/
theorem held_apart (h : RxOrderInv s) {a : BitVec 32} (ha : a ∈ s.held) :
    ∀ i ∈ s.rx.descWindow s.descCons s.rx.descProd, s.rx.descAddr i ≠ a := by
  intro i hi heq
  have hnodup := h.books.ledger.nodup.of_map
  rw [EdmaRx.out, List.nodup_append] at hnodup
  exact hnodup.2.2 a (List.mem_append_right _ ha) _ (List.mem_map_of_mem hi) heq.symm

/-- The places after a refill, in a poll or outside. -/
theorem places_refill {done : List EdmaRxAlloc} {turned : Option EdmaRxAlloc}
    (hplaces : RefillPlaces s.rx s'.rx (s.rx.out s.held s.rx.fillProd s.descCons) done turned)
    (hheld : s'.held = s.held) (hcons : s'.descCons = s.descCons) :
    s'.rx.postedBufs = s.rx.postedBufs ++ done ∧ s'.heldBufs = s.heldBufs ∧
      s'.returned = s.returned := by
  refine ⟨hplaces.posted, ?_, ?_⟩
  · rw [RxDmaRun.heldBufs, hheld]
    exact List.filterMap_congr fun a ha => hplaces.bufAt a (mem_held ha)
  · rw [RxDmaRun.returned, EdmaRx.returnedFrom, hcons, hplaces.descProd, EdmaRx.descWindow,
      hplaces.rxdesc]
    refine List.filterMap_congr fun i hi => ?_
    exact frameAt_congr hplaces.rxdesc (hplaces.bufAt _ (mem_returned hi))
      (hplaces.rxph _ (mem_returned hi))

theorem refill (h : RxOrderInv s) {allocs : List EdmaRxAlloc} (hfresh : FreshBuffers s allocs) :
    ∃ done turned, RefillPlaces s.rx (edmaAllocRxBuffer s.rx allocs).2
      (s.rx.out s.held s.rx.fillProd s.descCons) done turned :=
  refill_places h.1.shape h.used (fun _ hi => mem_posted hi)
    (RxDmaInv.fresh h.2 hfresh).addrs

/-- The end of a poll is a refill, and the driver stands where it stood. -/
theorem finish (h : RxOrderInv s) {allocs : List EdmaRxAlloc} {call : CleanRx} {rx : EdmaRx}
    (hcall : s.call = some call) (hturn : edmaCleanRxTurn soc s.rx call = .done rx)
    (hfresh : FreshBuffers s allocs) :
    (∃ done turned, RefillPlaces s.rx (edmaCleanRxEnd rx call allocs).2
        (s.rx.out s.held s.rx.fillProd s.descCons) done turned) ∧
      (edmaCleanRxEnd rx call allocs).2.descCons = s.descCons := by
  have hcons : s.descCons = call.consIdx := by rw [RxDmaRun.descCons, hcall]
  have hrx := h.1.done_eq h.2 hcall hturn
  have hsame : SameRx s.rx rx := by
    rw [hrx]
    exact ⟨rfl, rfl, fun _ => rfl⟩
  have hbooks : RxBooks rx (s.rx.out s.held s.rx.fillProd s.descCons) := by
    rw [hrx]
    exact h.books.same rfl (fun _ _ => rfl) rfl
  obtain ⟨done, turned, hplaces⟩ := @refill_places rx (hsame.shape h.1.shape)
    (s.rx.out s.held s.rx.fillProd s.descCons) allocs
    (fun a ha => (hbooks.ledger.used _).mpr (List.mem_map_of_mem ha))
    (by
      rw [hrx]
      exact fun _ hi => mem_posted hi)
    (RxDmaInv.fresh h.2 hfresh).addrs
  have hlt : call.consIdx < 2 ^ 16 :=
    (hcons ▸ h.1.cons_lt).trans (lt_of_pow h.1.shape.descCount)
  refine ⟨⟨done, turned, hplaces.congr (by rw [hrx]; rfl) rfl (fun reg => by rw [hrx]; rfl)
    fun reg hreg => EdmaHw.regWrite_regIdx_of_ne _ _ _ hreg⟩, ?_⟩
  rw [hcons]
  exact EdmaHw.regWrite_regIdx_self _ _ hlt

/-- The slot of the first buffer in the RXDESC ring is no other buffer's. -/
theorem slot_apart {rx : EdmaRx} {held : List (BitVec 32)} {cons : Nat} {rest : List Nat}
    (hbooks : RxBooks rx (rx.out held rx.fillProd cons))
    (hwindow : rx.descWindow cons rx.descProd = cons :: rest) :
    ∀ a ∈ (rx.fillWindow rx.fillCons rx.fillProd).map rx.fillAddr ++ held ++
      rest.map rx.descAddr, rx.opaqueAt a ≠ rx.opaqueAt (rx.descAddr cons) := by
  have hnodup := hbooks.ledger.nodup
  rw [EdmaRx.out, hwindow, List.map_cons, List.map_append, List.map_cons, List.nodup_middle,
    ← List.map_append] at hnodup
  intro a ha heq
  apply (List.nodup_cons.mp hnodup).1
  rw [← heq]
  exact List.mem_map_of_mem ha

/-- A turn of the poll hands over the first frame in the RXDESC ring. -/
theorem places_turn (h : RxOrderInv s) {call call' : CleanRx} {rx : EdmaRx}
    (hcall : s.call = some call) (hturn : edmaCleanRxTurn soc s.rx call = .next rx call')
    (hs' : s' = { s with rx, call := some call' }) :
    s'.rx.postedBufs = s.rx.postedBufs ∧ s'.heldBufs = s.heldBufs ∧
      ∃ frame e rx₀, s.rx.frameAt s.descCons = some frame ∧
        s.returned = frame :: s'.returned ∧
        edmaRxHandOver soc rx₀ (s.rx.rxph frame.buf.dma) frame.status frame.buf.skb = some e ∧
        s'.rx.events = s.rx.events ++
          [.dmaUnmapSingle .pdev frame.buf.dma edmaRxBuffSize .fromDevice, e] := by
  have hcons : s.descCons = call.consIdx := by rw [RxDmaRun.descCons, hcall]
  have hlt := h.1.cons_lt
  have hbooks := h.books
  have hfits := h.1.fits
  rw [hcons] at hlt hbooks hfits
  rcases cleanRxTurn_books soc h.1.shape hlt hfits hbooks with
    hdone | ⟨rx', call'', hnext, hne, hstand, hsame, -⟩
  · cases hturn.symm.trans hdone
  · cases hturn.symm.trans hnext
    have hwindow : s.rx.descWindow call.consIdx s.rx.descProd = call.consIdx ::
        s.rx.descWindow ((call.consIdx + 1) % s.rx.rxdesc.count) s.rx.descProd :=
      window_take hlt h.1.shape.descProd_lt hne
    have hfirst : call.consIdx ∈ s.rx.descWindow s.descCons s.rx.descProd := by
      rw [hcons, hwindow]
      exact List.mem_cons_self
    obtain ⟨skb, hskb⟩ := Option.isSome_iff_exists.mp (h.used _ (mem_returned hfirst))
    obtain ⟨e, rx₀, hrx₀, he, hrx⟩ := cleanRxTurn_takes hturn hskb
    have hkept : ∀ a ∈ (s.rx.fillWindow s.rx.fillCons s.rx.fillProd).map s.rx.fillAddr ++
        s.held ++ (s.rx.descWindow ((call.consIdx + 1) % s.rx.rxdesc.count) s.rx.descProd).map
          s.rx.descAddr, rx.bufAt a = s.rx.bufAt a := by
      intro a ha
      rw [hrx, hrx₀]
      exact bufAt_congr rfl (Function.update_of_ne (slot_apart hbooks hwindow a ha) _ _)
    obtain ⟨frame, hfields⟩ : ∃ f : RxFrame, f = ⟨⟨skb, s.rx.descAddr call.consIdx⟩,
      (s.rx.rxph (s.rx.descAddr call.consIdx)).srcInfo,
      (s.rx.rxph (s.rx.descAddr call.consIdx)).rxPre4,
      (s.rx.rxdesc.desc call.consIdx).status⟩ := ⟨_, rfl⟩
    have hframe : s.rx.frameAt call.consIdx = some frame := by
      rw [hfields, EdmaRx.frameAt, EdmaRx.bufAt, hskb]
      rfl
    subst hs'
    refine ⟨?_, ?_, frame, e, rx₀, hcons ▸ hframe, ?_, ?_, ?_⟩
    · have hfillAddr : rx.fillAddr = s.rx.fillAddr := by
        unfold EdmaRx.fillAddr
        rw [hsame.rxfill]
      rw [EdmaRx.postedBufs, hsame.fillCons_eq, hsame.fillProd_eq, EdmaRx.fillWindow,
        hsame.rxfill, hfillAddr]
      refine List.filterMap_congr fun a ha => hkept a ?_
      exact List.mem_append_left _ (List.mem_append_left _ ha)
    · refine List.filterMap_congr fun a ha => hkept a ?_
      exact List.mem_append_left _ (List.mem_append_right _ ha)
    · rw [RxDmaRun.returned, hcons, EdmaRx.returnedFrom, hwindow, List.filterMap_cons_some hframe,
        RxDmaRun.returned, EdmaRx.returnedFrom]
      refine congrArg _ ?_
      show _ = (rx.descWindow call'.consIdx rx.descProd).filterMap rx.frameAt
      rw [hstand, hsame.descProd_eq, EdmaRx.descWindow, EdmaRx.descWindow, hsame.rxdesc]
      refine List.filterMap_congr fun i hi => (frameAt_congr hsame.rxdesc ?_ ?_).symm
      · exact hkept _ (List.mem_append_right _ (List.mem_map_of_mem hi))
      · rw [hrx, hrx₀]
        rfl
    · rw [hfields]
      exact he
    · show rx.events = _
      rw [hrx, hrx₀, hfields]
      exact List.append_assoc _ _ _

/-- The hardware takes the first buffer in the RXFILL ring. -/
theorem places_take (h : RxOrderInv s) (hne : s.rx.fillCons ≠ s.rx.fillProd)
    (hs' : s' = { s with
      held := s.held ++ [s.rx.fillAddr s.rx.fillCons]
      rx := s.rx.hwTake }) :
    s.rx.postedBufs = s.takes .take ++ s'.rx.postedBufs ∧
      s'.heldBufs = s.heldBufs ++ s.takes .take ∧ s'.returned = s.returned := by
  have htaken := h.1.shape.hwTake
  have hwindow := h.1.shape.fillWindow_take hne
  have hcons : s'.descCons = s.descCons := by
    rw [hs', RxDmaRun.descCons, RxDmaRun.descCons]
    dsimp only
    rw [htaken.descCons]
  have hfirst : s.rx.fillCons ∈ s.rx.fillWindow s.rx.fillCons s.rx.fillProd := by
    rw [hwindow]
    exact List.mem_cons_self
  obtain ⟨skb, hbuf⟩ := h.bufAt_out (mem_posted hfirst)
  have htakes : s.takes .take = [⟨skb, s.rx.fillAddr s.rx.fillCons⟩] := by
    rw [RxDmaRun.takes, hbuf]
    rfl
  rw [htakes]
  refine ⟨?_, ?_, ?_⟩
  · rw [EdmaRx.postedBufs, hwindow, List.map_cons, List.filterMap_cons_some hbuf, hs']
    rfl
  · rw [RxDmaRun.heldBufs, hs']
    show (s.held ++ [s.rx.fillAddr s.rx.fillCons]).filterMap s.rx.bufAt = _
    rw [List.filterMap_append, List.filterMap_cons_some hbuf]
    rfl
  · rw [RxDmaRun.returned, hcons, hs', EdmaRx.returnedFrom]
    show (s.rx.descWindow s.descCons s.rx.hwTake.descProd).filterMap s.rx.frameAt = _
    rw [htaken.descProd]
    rfl

/-- The hardware returns a buffer. -/
theorem places_ret (h : RxOrderInv s) {addr : BitVec 32} {srcInfo : BitVec 16}
    {rxPre4 status : BitVec 32} (haddr : addr ∈ s.held)
    (hroom : (s.rx.descProd + 1) % s.rx.rxdesc.count ≠ s.rx.descCons)
    (hs' : s' = { s with
      held := s.held.erase addr
      rx := s.rx.hwReturn addr srcInfo rxPre4 status }) :
    s'.rx.postedBufs = s.rx.postedBufs ∧
      s.heldBufs.Perm ((s.returns (.ret addr srcInfo rxPre4 status)).map RxFrame.buf ++
        s'.heldBufs) ∧
      s'.returned = s.returned ++ s.returns (.ret addr srcInfo rxPre4 status) := by
  have hret := h.1.shape.hwReturn addr srcInfo rxPre4 status
  have hcons : s'.descCons = s.descCons := by
    rw [hs', RxDmaRun.descCons, RxDmaRun.descCons]
    dsimp only
    rw [hret.descCons]
  obtain ⟨skb, hbuf⟩ := h.bufAt_out (mem_held haddr)
  have hreturns : s.returns (.ret addr srcInfo rxPre4 status) =
      [⟨⟨skb, addr⟩, srcInfo, rxPre4, status⟩] := by
    rw [RxDmaRun.returns, hbuf]
    rfl
  rw [hreturns]
  refine ⟨?_, ?_, ?_⟩
  · rw [hs']
    exact hret.postedBufs
  · rw [RxDmaRun.heldBufs, RxDmaRun.heldBufs, hs']
    show (s.held.filterMap s.rx.bufAt).Perm ([⟨skb, addr⟩] ++ (s.held.erase addr).filterMap
      (s.rx.hwReturn addr srcInfo rxPre4 status).bufAt)
    have hperm := (List.perm_cons_erase haddr).filterMap s.rx.bufAt
    rw [List.filterMap_cons_some hbuf] at hperm
    rwa [hret.bufAt]
  · rw [RxDmaRun.returned, hcons, hs']
    exact hret.returnedFrom h.1.shape h.1.cons_lt (h.1.room hroom) (h.held_apart haddr) hbuf

/-- What a step does to the three places, with what it shows. -/
structure Moves (soc : Soc) (s s' : RxDmaRun) (a : RxDmaLabel) : Prop where
  posted : s.rx.postedBufs ++ s.posts soc a = s.takes a ++ s'.rx.postedBufs
  held : (s.heldBufs ++ s.takes a).Perm ((s.returns a).map RxFrame.buf ++ s'.heldBufs)
  returned : s.returned ++ s.returns a = (s.reaps soc a).map Prod.fst ++ s'.returned
  reaped : ∀ p ∈ s.reaps soc a, ∃ rx₀,
    edmaRxHandOver soc rx₀ (s.rx.rxph p.1.buf.dma) p.1.status p.1.buf.skb = some p.2
  calls : s.turnCalls soc a = reapCalls (s.reaps soc a)

theorem shows_eq {a : RxDmaLabel} (hstep : rxDmaStep soc s a = some s') {es : List RxEvent}
    (hevents : s'.rx.events = s.rx.events ++ es) : s.shows soc a = es := by
  rw [RxDmaRun.shows, hstep]
  dsimp only
  rw [hevents, List.drop_left]

/-- A step that leaves the places alone and is silent. -/
theorem Moves.same {a : RxDmaLabel} (hstep : rxDmaStep soc s a = some s')
    (hevents : s'.rx.events = s.rx.events) (htakes : s.takes a = []) (hreturns : s.returns a = [])
    (hreaps : s.reaps soc a = []) (hcalls : s.turnCalls soc a = [])
    (hposted : s'.rx.postedBufs = s.rx.postedBufs) (hheld : s'.heldBufs = s.heldBufs)
    (hreturned : s'.returned = s.returned) : Moves soc s s' a := by
  have hshows : s.shows soc a = [] := shows_eq hstep (by rw [hevents, List.append_nil])
  refine ⟨?_, ?_, ?_, ?_, ?_⟩
  · rw [RxDmaRun.posts, hshows, htakes, hposted]
    exact List.append_nil _
  · rw [htakes, hreturns, hheld]
    exact .of_eq (List.append_nil _)
  · rw [hreturns, hreaps, hreturned]
    exact List.append_nil _
  · rw [hreaps]
    exact fun p hp => absurd hp List.not_mem_nil
  · rw [hcalls, hreaps]
    rfl

/-- A step that refills the ring. -/
theorem Moves.refill {a : RxDmaLabel} (hstep : rxDmaStep soc s a = some s')
    (htakes : s.takes a = []) (hreturns : s.returns a = []) (hreaps : s.reaps soc a = [])
    (hcalls : s.turnCalls soc a = []) {done : List EdmaRxAlloc} {turned : Option EdmaRxAlloc}
    (hplaces : RefillPlaces s.rx s'.rx (s.rx.out s.held s.rx.fillProd s.descCons) done turned)
    (hheld : s'.held = s.held) (hcons : s'.descCons = s.descCons) : Moves soc s s' a := by
  obtain ⟨hposted, hheld', hreturned⟩ := places_refill hplaces hheld hcons
  have hposts : s.posts soc a = done := by
    rw [RxDmaRun.posts, shows_eq hstep hplaces.events, mappedSkbs_refill]
  refine ⟨?_, ?_, ?_, ?_, ?_⟩
  · rw [hposts, htakes, hposted]
    rfl
  · rw [htakes, hreturns, hheld']
    exact .of_eq (List.append_nil _)
  · rw [hreturns, hreaps, hreturned]
    exact List.append_nil _
  · rw [hreaps]
    exact fun p hp => absurd hp List.not_mem_nil
  · rw [hcalls, hreaps]
    rfl

theorem moves (h : RxOrderInv s) {a : RxDmaLabel} (hC : Receiving s a)
    (hstep : rxDmaStep soc s a = some s') : Moves soc s s' a := by
  cases rxDmaStep_does hstep with
  | alloc hcall hfresh =>
    obtain ⟨done, turned, hplaces⟩ := h.refill hfresh
    refine Moves.refill hstep rfl rfl rfl rfl hplaces rfl ?_
    obtain ⟨n, rx', hrx', -, hsame, -⟩ := allocRxBuffer_books h.1.shape h.books
      (RxDmaInv.fresh h.2 hfresh)
    simp only [RxDmaRun.descCons, hcall, hrx']
    exact hsame.descCons
  | start hcall =>
    have hcons : s.descCons = s.rx.descCons := by rw [RxDmaRun.descCons, hcall]
    refine Moves.same hstep rfl rfl rfl rfl rfl rfl rfl ?_
    rw [RxDmaRun.returned, RxDmaRun.returned, hcons]
    rfl
  | next hcall hturn =>
    obtain ⟨hposted, hheld, frame, e, rx₀, hframe, hreturned, he, hevents⟩ :=
      h.places_turn hcall hturn rfl
    have hshows := shows_eq hstep hevents
    have hleft : e.left = some frame.buf.skb := by
      rcases rxHandOver_cases he with rfl | ⟨ndev, rfl | rfl⟩ <;> rfl
    have hreaps : s.reaps soc .turn = [(frame, e)] := by
      have hunmap : (RxEvent.dmaUnmapSingle .pdev frame.buf.dma edmaRxBuffSize
        .fromDevice).left.isSome = false := rfl
      rw [RxDmaRun.reaps, hframe, hshows, List.filter_cons_of_neg (by rw [hunmap]; simp),
        List.filter_cons_of_pos (by rw [hleft]; rfl)]
      rfl
    refine ⟨?_, ?_, ?_, ?_, ?_⟩
    · rw [RxDmaRun.posts, hshows, hposted]
      rcases rxHandOver_cases he with rfl | ⟨ndev, rfl | rfl⟩ <;> exact List.append_nil _
    · rw [hheld]
      exact .of_eq (List.append_nil _)
    · rw [hreaps, hreturned]
      exact List.append_nil _
    · rw [hreaps]
      intro p hp
      rw [List.mem_singleton.mp hp]
      exact ⟨rx₀, he⟩
    · rw [hreaps]
      exact hshows
  | panic hcall hturn =>
    rcases h.1.turn h.2 soc hcall with hdone | ⟨_, _, hnext, -⟩
    · cases hturn.symm.trans hdone
    · cases hturn.symm.trans hnext
  | finish hcall hturn hfresh =>
    obtain ⟨⟨done, turned, hplaces⟩, hcons⟩ := h.finish hcall hturn hfresh
    exact Moves.refill hstep rfl rfl rfl rfl hplaces rfl hcons
  | take hne =>
    obtain ⟨hposted, hheld, hreturned⟩ := h.places_take hne rfl
    refine ⟨?_, ?_, ?_, fun p hp => absurd hp List.not_mem_nil, rfl⟩
    · rw [RxDmaRun.posts, shows_eq hstep (List.append_nil _).symm, hposted]
      exact List.append_nil _
    · exact .of_eq hheld.symm
    · rw [hreturned]
      exact List.append_nil _
  | ret haddr hroom =>
    obtain ⟨hposted, hheld, hreturned⟩ := h.places_ret haddr hroom rfl
    refine ⟨?_, ?_, hreturned.symm, fun p hp => absurd hp List.not_mem_nil, rfl⟩
    · rw [RxDmaRun.posts, shows_eq hstep (List.append_nil _).symm, hposted]
      exact List.append_nil _
    · exact (List.Perm.of_eq (List.append_nil _)).trans hheld
  | devices => exact Moves.same hstep rfl rfl rfl rfl rfl rfl rfl rfl
  | cleanup => exact absurd rfl hC.2

end RxOrderInv

section Runs

variable (soc : Soc)

/-- The RXFILL ring keeps the order of the buffers. -/
theorem rxfill_fifo : Fifo (rxDmaStep soc) RxOrderInv Receiving (fun s => s.rx.postedBufs)
    (RxDmaRun.posts soc) RxDmaRun.takes :=
  ⟨fun _ _ _ h hC hstep => h.step hC hstep, fun _ _ _ h hC hstep => (h.moves hC hstep).posted⟩

/-- The hardware returns what it has taken, in any order. -/
theorem rxHardware_pool : Pool (rxDmaStep soc) RxOrderInv Receiving RxDmaRun.heldBufs
    RxDmaRun.takes (fun s a => (s.returns a).map RxFrame.buf) :=
  ⟨fun _ _ _ h hC hstep => h.step hC hstep, fun _ _ _ h hC hstep => (h.moves hC hstep).held⟩

/-- The RXDESC ring keeps the order of the frames. -/
theorem rxdesc_fifo : Fifo (rxDmaStep soc) RxOrderInv Receiving RxDmaRun.returned
    RxDmaRun.returns (fun s a => (s.reaps soc a).map Prod.fst) :=
  ⟨fun _ _ _ h hC hstep => h.step hC hstep, fun _ _ _ h hC hstep => (h.moves hC hstep).returned⟩

/-- The three places in a row. -/
theorem rx_pool : Pool (rxDmaStep soc) RxOrderInv Receiving
    (fun s => s.returned.map RxFrame.buf ++ (s.heldBufs ++ s.rx.postedBufs))
    (RxDmaRun.posts soc) (fun s a => ((s.reaps soc a).map Prod.fst).map RxFrame.buf) :=
  ((rxfill_fifo soc).toPool.series (rxHardware_pool soc)).series
    ((rxdesc_fifo soc).map RxFrame.buf).toPool

/-- In every run from idle rings up to their release, the hardware takes buffers in the order in
    which they are posted; the poll reaps frames in the order in which the hardware returns
    them; what was posted is what was reaped and what is in the three places; and the turns of
    the poll make two calls for each frame and no others: its buffer, the one mapped at its
    address, is unmapped, and freed or handed over with the length reported for it. -/
theorem rxDmaRun_inOrder {rx : EdmaRx} (hidle : RxIdle rx) {as : List RxDmaLabel} {s : RxDmaRun}
    (hmeet : StepsMeet (rxDmaStep soc) Receiving (.start rx) as)
    (hrun : run (rxDmaStep soc) (.start rx) as = some s) :
    trace (rxDmaStep soc) (RxDmaRun.posts soc) (.start rx) as =
        trace (rxDmaStep soc) RxDmaRun.takes (.start rx) as ++ s.rx.postedBufs ∧
      trace (rxDmaStep soc) RxDmaRun.returns (.start rx) as =
        (trace (rxDmaStep soc) (RxDmaRun.reaps soc) (.start rx) as).map Prod.fst ++ s.returned ∧
      (trace (rxDmaStep soc) (RxDmaRun.posts soc) (.start rx) as).Perm
        ((trace (rxDmaStep soc) (RxDmaRun.reaps soc) (.start rx) as).map (fun p => p.1.buf) ++
          (s.returned.map RxFrame.buf ++ (s.heldBufs ++ s.rx.postedBufs))) ∧
      trace (rxDmaStep soc) (RxDmaRun.turnCalls soc) (.start rx) as =
        reapCalls (trace (rxDmaStep soc) (RxDmaRun.reaps soc) (.start rx) as) ∧
      ∀ p ∈ trace (rxDmaStep soc) (RxDmaRun.reaps soc) (.start rx) as,
        p.2 = .devKfreeSkb p.1.buf.skb ∨
          ∃ ndev, p.2 = .netifReceiveSkb ndev p.1.buf.skb p.1.len ∨
            p.2 = .nssPhyTstampRxBuf ndev p.1.buf.skb p.1.len := by
  have hstart := RxOrderInv.start hidle
  have hposted : (RxDmaRun.start rx).rx.postedBufs = [] := by
    simp [RxDmaRun.start, EdmaRx.postedBufs, EdmaRx.fillWindow, hidle.fill]
  have hreturned : (RxDmaRun.start rx).returned = [] := by
    simp [RxDmaRun.start, RxDmaRun.returned, EdmaRx.returnedFrom, RxDmaRun.descCons,
      EdmaRx.descWindow, hidle.desc]
  have hheld : (RxDmaRun.start rx).heldBufs = [] := rfl
  have hkept : ∀ s a t, RxOrderInv s → Receiving s a → rxDmaStep soc s a = some t →
      RxOrderInv t := fun _ _ _ h hC hstep => h.step hC hstep
  refine ⟨?_, ?_, ?_, ?_, ?_⟩
  · have hring := (rxfill_fifo soc).run hstart hmeet hrun
    rwa [hposted, List.nil_append] at hring
  · have hring := (rxdesc_fifo soc).run hstart hmeet hrun
    rwa [hreturned, List.nil_append, trace_map] at hring
  · have hall := (rx_pool soc).run hstart hmeet hrun
    rw [hposted, hreturned, hheld] at hall
    simp only [List.map_nil, List.nil_append, List.map_map, trace_map] at hall
    exact hall
  · refine Eq.trans ?_ (trace_hom rfl (fun _ _ => List.flatMap_append) (RxDmaRun.reaps soc) _ as)
    exact trace_congr hkept (fun s a t h hC hstep => (h.moves hC hstep).calls) hstart hmeet hrun
  · refine forall_mem_trace hkept ?_ hstart hmeet hrun
    intro s a t h hC hstep p hp
    obtain ⟨rx₀, he⟩ := (h.moves hC hstep).reaped p hp
    exact rxHandOver_cases he

end Runs

/-- Two buffers come back in the other order, the first of them for port 1. -/
def receiveTwo : List RxDmaLabel :=
  [.alloc [rxAlloc 0, rxAlloc 1], .take, .take, .ret 8192#32 0x2001#16 0#32 64#32, .start 64,
    .turn, .ret 4096#32 0#16 0#32 64#32, .turn, .finish [rxAlloc 2]]

theorem rxDmaRun_inOrder_two : ∃ s,
    run (rxDmaStep .ipq807x) (.start idleEdmaRx) receiveTwo = some s ∧
      trace (rxDmaStep .ipq807x) RxDmaRun.returns (.start idleEdmaRx) receiveTwo =
        (trace (rxDmaStep .ipq807x) (RxDmaRun.reaps .ipq807x) (.start idleEdmaRx) receiveTwo).map
          Prod.fst ++ s.returned := by
  have hruns : (run (rxDmaStep .ipq807x) (.start idleEdmaRx) receiveTwo).isSome = true := by
    decide +kernel
  obtain ⟨s, hs⟩ := Option.isSome_iff_exists.mp hruns
  have hidle : RxIdle idleEdmaRx := ⟨⟨7, by decide, rfl⟩, ⟨7, by decide, rfl⟩, rfl, by decide, rfl,
    by decide, fun _ => rfl, rfl⟩
  exact ⟨s, hs, (rxDmaRun_inOrder .ipq807x hidle (by decide +kernel) hs).2.1⟩

end NssDp.Edma
