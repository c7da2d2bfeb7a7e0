import NssDp.Edma.Proofs.SharedStore

/-!
# Rings that keep to their own slots

Where every call that finds a free descriptor finds no packet of another ring in its slot, and
still finds the slot free when it writes to it, the packets on all rings are accounted for
together, and a call is decided by its own ring. Two rings at one slot show that both
conditions are needed.
-/

namespace NssDp.Edma

open Lts Cyclic Word Placement

/-- A call is at the producer index of its ring, which has room behind it. -/
structure CallFits (ehw : EdmaHw) (ring : Nat) (call : XmitCall) : Prop where
  use : call.hwNextToUse = ehw.txProd ring
  index : call.storeIndex = ehw.txProd ring
  room : (ehw.txProd ring + 1) % (ehw.txdescRing ring).count ≠ ehw.txCons ring
  tag : slotOf call.framed = call.storeIndex
  maps : mapsOf call.events = []
  frees : freedSkbs call.events = []

/-- What every step keeps. -/
structure RingsInv (s : RingsRun) : Prop where
  shape : RingsShape s.ehw
  fits : ∀ ring call, s.calls ring = some call → CallFits s.ehw ring call
  custody : Custody s.kept s.unreaped slotOf s.ehw.txSkbStore SkBuff.id s.handed s.freed s.accepted
  word : ∀ q, ∀ idx ∈ s.ehw.pending q, ∃ skb, s.done q idx = some skb ∧
    ((s.ehw.txcmplRing q).desc idx).bufferAddr = readLe32 skb.payload
  flight : s.inFlight.Nodup

/-- A call past its tests. -/
def passedCall (ehw : EdmaHw) (netdev : NetDevice) (skb : SkBuff) (ring : Nat) : XmitCall :=
  ⟨preheadered netdev skb, ehw.txSlot ring, ehw.txProd ring, u16 skb.headlen, false,
    tstampEvents skb⟩

section Calls

variable {ehw ehw' : EdmaHw} {netdev : NetDevice} {skb : SkBuff} {ring : Nat} {call : XmitCall}
variable {prod cons cmplProd cmplCons : Nat → Nat}

theorem edmaRingTest_eq (hhead : edmaTxPrehdrSize ≤ skb.headroom) :
    edmaRingTest ehw netdev skb ring =
      if TxdescFull ehw ring then .ok (.refused ⟨.desc, ehw.xmitRead ring, skb, []⟩)
      else if StoreBusy ehw ring then
        .ok (.refused ⟨.desc, ehw.xmitRead ring, preheadered netdev skb, tstampEvents skb⟩)
      else .ok (.passed (ehw.xmitRead ring) (passedCall ehw netdev skb ring)) := by
  unfold TxdescFull StoreBusy passedCall EdmaHw.txSlot EdmaHw.txProd EdmaHw.txCons
  simp only [edmaRingTest, EdmaHw.touch_regIdx, EdmaHw.touch_txSkbStore, push_preheader hhead,
    EdmaHw.xmitRead, tstampEvents]
  rfl

theorem ringsAt_read (ehw : EdmaHw) (ring : Nat) :
    RingsAt ehw (ehw.xmitRead ring) ehw.txProd ehw.txCons ehw.cmplProd ehw.cmplCons :=
  ⟨rfl, rfl, rfl, rfl, rfl, rfl, rfl, rfl⟩

theorem ringsAt_store (ehw : EdmaHw) (call : XmitCall) :
    RingsAt ehw (edmaRingStore ehw call) ehw.txProd ehw.txCons ehw.cmplProd ehw.cmplCons :=
  ⟨rfl, rfl, rfl, rfl, rfl, rfl, rfl, rfl⟩

theorem passedCall_fits (netdev : NetDevice) (skb : SkBuff) (hshape : RingsShape ehw)
    (hfull : ¬ TxdescFull ehw ring) :
    CallFits ehw ring (passedCall ehw netdev skb ring) := by
  refine ⟨rfl, hshape.txSlot_eq ring, ?_, ?_, mapsOf_tstampEvents skb, freedSkbs_tstampEvents skb⟩
  · rw [TxdescFull, hshape.next_eq] at hfull
    exact hfull
  · have hlt := hshape.prod_lt ring
    have hcount := hshape.count_lt ring
    have hmod : ehw.txSlot ring % 2 ^ 32 = ehw.txSlot ring := by
      rw [hshape.txSlot_eq]
      exact Nat.mod_eq_of_lt (by omega)
    rw [slotOf, XmitCall.framed, passedCall, preheadered_overwrite, readLe32_framed,
      BitVec.toNat_ofNat]
    exact hmod

/-- A call fits its ring while the ring keeps its producer index and has room. -/
theorem CallFits.of_at (h : CallFits ehw ring call)
    (hat : RingsAt ehw ehw' prod cons cmplProd cmplCons) (hprod : prod ring = ehw.txProd ring)
    (hroom : (ehw.txProd ring + 1) % (ehw.txdescRing ring).count ≠ cons ring) :
    CallFits ehw' ring call := by
  have hcount := congrFun hat.count ring
  have hprod' : ehw'.txProd ring = ehw.txProd ring := by rw [hat.txProd, hprod]
  refine ⟨h.use.trans hprod'.symm, h.index.trans hprod'.symm, ?_, h.tag, h.maps, h.frees⟩
  rw [hprod', hat.txCons]
  simpa only [hcount] using hroom

end Calls

namespace RingsInv

variable {s s' : RingsRun}

theorem start {ehw : EdmaHw} (hidle : RingsIdle ehw) : RingsInv (.start ehw) := by
  have hqueued : ∀ t, ehw.queued t = [] := by
    intro t
    simp only [EdmaHw.queued, windows, hidle.prod, gap_self, window_zero]
  have hpending : ∀ q, ehw.pending q = [] := by
    intro q
    simp only [EdmaHw.pending, windows, hidle.cmplProd, gap_self, window_zero]
  have hnone : ∀ pick p, (RingsRun.start ehw).places pick p = none := by
    intro pick p
    cases p with
    | call ring => rfl
    | desc ring idx =>
      simp only [RingsRun.places, RingsRun.start, hqueued, List.not_mem_nil, if_false]
    | flight skb => simp only [RingsRun.places, RingsRun.start, List.not_mem_nil, if_false]
    | cmpl q idx =>
      simp only [RingsRun.places, RingsRun.start, hpending, List.not_mem_nil, if_false]
  refine ⟨hidle.shape, ?_, Custody.empty (hnone _) (hnone _) hidle.store, ?_, List.nodup_nil⟩
  · intro ring call hcall
    cases hcall
  · intro q idx hidx
    rw [RingsRun.start, hpending] at hidx
    cases hidx

/-- A step that leaves the rings, the store and the places as they are. -/
theorem refuse (h : RingsInv s) (ring : Nat) : RingsInv { s with ehw := s.ehw.xmitRead ring } := by
  have hat := ringsAt_read s.ehw ring
  refine ⟨hat.shape h.shape h.shape.prod_lt h.shape.cons_lt h.shape.cmplProd_lt
    h.shape.cmplCons_lt, ?_, h.custody, h.word, h.flight⟩
  intro r call hcall
  have hfits := h.fits r call hcall
  exact hfits.of_at hat rfl hfits.room

/-- A call passes its tests: its packet has a place, and is not yet in the store. -/
theorem pass (h : RingsInv s) {netdev : NetDevice} {skb : SkBuff} {ring : Nat}
    (hidle : s.calls ring = none) (hnew : skb.id ∉ s.handed) (hfull : ¬ TxdescFull s.ehw ring)
    (hs' : s' = { s with
      ehw := s.ehw.xmitRead ring
      calls := Function.update s.calls ring (some (passedCall s.ehw netdev skb ring))
      ringOf := Function.update s.ringOf skb.id ring
      handed := s.handed ++ [skb.id] }) : RingsInv s' := by
  have hat := ringsAt_read s.ehw ring
  have hempty : ∀ pick, s.places pick (.call ring) = none := by
    intro pick
    simp only [RingsRun.places, hidle, Option.bind_none]
  have hplaces : ∀ pick, s'.places pick = Function.update (s.places pick) (.call ring)
      (if pick (passedCall s.ehw netdev skb ring) then
        some (passedCall s.ehw netdev skb ring).framed else none) := by
    intro pick
    exact places_call (c := some (passedCall s.ehw netdev skb ring)) pick (by rw [hs'])
      (by rw [hs']; rfl) (by rw [hs']; rfl) (by rw [hs']) (by rw [hs']) (by rw [hs'])
  have hkept : s'.kept = Function.update s.kept (.call ring)
      (some (passedCall s.ehw netdev skb ring).framed) := hplaces _
  have hunreaped : s'.unreaped = s.unreaped := by
    apply (hplaces _).trans
    rw [if_neg (by simp [passedCall]), ← hempty XmitCall.stored, Function.update_eq_self]
  have hcustody := h.custody.hand (a := (passedCall s.ehw netdev skb ring).framed) hnew (hempty _)
  rw [← hkept, ← hunreaped] at hcustody
  subst hs'
  refine ⟨hat.shape h.shape h.shape.prod_lt h.shape.cons_lt h.shape.cmplProd_lt
    h.shape.cmplCons_lt, ?_, hcustody, h.word, h.flight⟩
  intro r call hcall
  rcases of_update_some hcall with ⟨rfl, rfl⟩ | ⟨-, hcall⟩
  · have hfits := passedCall_fits netdev skb h.shape hfull
    exact hfits.of_at hat rfl hfits.room
  · have hfits := h.fits r call hcall
    exact hfits.of_at hat rfl hfits.room

/-- A call writes its packet to the store. -/
theorem put (h : RingsInv s) {ring : Nat} {call : XmitCall} (hcall : s.calls ring = some call)
    (hstored : call.stored = false) (hfree : s.ehw.txSkbStore call.storeIndex = none)
    (hs' : s' = { s with
      ehw := edmaRingStore s.ehw call
      calls := Function.update s.calls ring (some { call with stored := true }) }) :
    RingsInv s' := by
  have hat := ringsAt_store s.ehw call
  have hfits := h.fits ring call hcall
  have hsrc : s.kept (.call ring) = some call.framed := by
    simp only [RingsRun.places, hcall, Option.bind_some, if_true]
  have hempty : s.unreaped (.call ring) = none := by
    simp only [RingsRun.places, hcall, Option.bind_some, hstored, Bool.false_eq_true, if_false]
  have hplaces : ∀ pick : XmitCall → Bool, pick { call with stored := true } = true →
      s'.places pick = Function.update (s.places pick) (.call ring) (some call.framed) := by
    intro pick hpick
    have hcall := @places_call s s' ring pick (some { call with stored := true })
      (by rw [hs']) (by rw [hs']; rfl) (by rw [hs']; rfl) (by rw [hs']) (by rw [hs']) (by rw [hs'])
    rw [hcall, Option.bind_some, if_pos hpick]
    rfl
  have hkept : s'.kept = s.kept := by
    apply (hplaces _ rfl).trans
    rw [← hsrc, Function.update_eq_self]
  have hunreaped : s'.unreaped = Function.update s.unreaped (.call ring) (some call.framed) :=
    hplaces _ rfl
  have hcustody := h.custody.keep hsrc hempty (by rw [hfits.tag]; exact hfree)
  rw [← hkept, ← hunreaped, hfits.tag] at hcustody
  subst hs'
  refine ⟨hat.shape h.shape h.shape.prod_lt h.shape.cons_lt h.shape.cmplProd_lt
    h.shape.cmplCons_lt, ?_, hcustody, h.word, h.flight⟩
  intro r call' hcall'
  rcases of_update_some hcall' with ⟨rfl, rfl⟩ | ⟨-, hcall'⟩
  · have hfits' : CallFits s.ehw r { call with stored := true } :=
      ⟨hfits.use, hfits.index, hfits.room, hfits.tag, hfits.maps, hfits.frees⟩
    exact hfits'.of_at hat rfl hfits'.room
  · have hfits' := h.fits r call' hcall'
    exact hfits'.of_at hat rfl hfits'.room

/-- The packet of a call that has written it to the store. -/
theorem unreaped_call {ring : Nat} {call : XmitCall} (hcall : s.calls ring = some call)
    (hstored : call.stored = true) : s.unreaped (.call ring) = some call.framed := by
  simp only [RingsRun.places, hcall, Option.bind_some, hstored, if_true]

theorem afterFinish_unmapped {ring : Nat} {call : XmitCall} (hfits : CallFits s.ehw ring call) :
    s.afterFinish ring call (edmaRingFinish s.ehw ring call 0#32) = { s with
      ehw := (s.ehw.setTxdesc ring call.hwNextToUse ⟨0#32, 0#32⟩).setTxStore call.storeIndex none
      calls := Function.update s.calls ring none
      accepted := s.accepted ++ [call.framed]
      freed := s.freed ++ [call.framed] } := by
  simp only [RingsRun.afterFinish, edmaRingFinish, if_true, mapsOf_append, hfits.maps, mapsOf_free,
    List.append_nil, freedSkbs_append, hfits.frees, freedSkbs_free, freedSkbs_nil,
    List.nil_append]

theorem afterFinish_mapped {ring : Nat} {call : XmitCall} (hshape : RingsShape s.ehw)
    (hfits : CallFits s.ehw ring call) {dma : BitVec 32} (hdma : dma ≠ 0#32) :
    s.afterFinish ring call (edmaRingFinish s.ehw ring call dma) = { s with
      ehw := (s.ehw.setTxdesc ring call.hwNextToUse ⟨dma, txdescWord1 call.bufLen⟩).regWrite
        (.txdescProdIdx (s.ehw.txdescRing ring).id)
        (BitVec.ofNat 32 ((s.ehw.txProd ring + 1) % (s.ehw.txdescRing ring).count) &&& edmaIdxMask)
      packet := Function.update s.packet ring
        (Function.update (s.packet ring) (s.ehw.txProd ring) (some call.framed))
      calls := Function.update s.calls ring none
      accepted := s.accepted ++ [call.framed] } := by
  have hne : mapsOf (call.events ++
      [.dmaMapSingle .pdev dma (call.bufLen + edmaTxPrehdrSize) .toDevice]) ≠ [] := by
    rw [mapsOf_append, hfits.maps, mapsOf_map]
    simp
  simp only [RingsRun.afterFinish, edmaRingFinish, hdma, if_false, hne, freedSkbs_append,
    hfits.frees, freedSkbs_map, freedSkbs_nil, List.append_nil, EdmaHw.setTxdesc_id,
    EdmaHw.setTxdesc_count, hfits.use, hshape.next_eq]

/-- The packet of a call could not be mapped, and is freed. -/
theorem drop (h : RingsInv s) {ring : Nat} {call : XmitCall} (hcall : s.calls ring = some call)
    (hstored : call.stored = true)
    (hs' : s' = s.afterFinish ring call (edmaRingFinish s.ehw ring call 0#32)) : RingsInv s' := by
  have hfits := h.fits ring call hcall
  rw [afterFinish_unmapped hfits] at hs'
  have hat := ringsAt_unmapped s.ehw ring call.hwNextToUse call.storeIndex ⟨0#32, 0#32⟩ none
  have hplaces : ∀ pick, s'.places pick = Function.update (s.places pick) (.call ring) none := by
    intro pick
    exact places_call (c := none) pick (by rw [hs']) (by rw [hs']; exact hat.queued)
      (by rw [hs']; exact hat.pending) (by rw [hs']) (by rw [hs']) (by rw [hs'])
  have hcustody := h.custody.drop (unreaped_call hcall hstored)
  rw [← hplaces, ← hplaces, hfits.tag] at hcustody
  have htaken := hcustody.take (Or.inl (List.mem_append_right _ (List.mem_singleton_self _)))
  subst hs'
  refine ⟨hat.shape h.shape h.shape.prod_lt h.shape.cons_lt h.shape.cmplProd_lt
    h.shape.cmplCons_lt, ?_, htaken, ?_, h.flight⟩
  · intro r call' hcall'
    obtain ⟨-, hcall'⟩ := of_update_none hcall'
    have hfits' := h.fits r call' hcall'
    exact hfits'.of_at hat rfl hfits'.room
  · intro q idx hidx
    exact h.word q idx hidx

/-- The packet of a call is published. -/
theorem publish (h : RingsInv s) {ring : Nat} {call : XmitCall} {dma : BitVec 32}
    (hcall : s.calls ring = some call) (hstored : call.stored = true) (hdma : dma ≠ 0#32)
    (hs' : s' = s.afterFinish ring call (edmaRingFinish s.ehw ring call dma)) : RingsInv s' := by
  have hfits := h.fits ring call hcall
  have hcons := h.shape.cons_lt
  have hprod := h.shape.prod_lt
  have hnext := Nat.mod_lt (s.ehw.txProd ring + 1) (Nat.zero_lt_of_lt (hcons ring))
  rw [afterFinish_mapped h.shape hfits hdma] at hs'
  have hat := ringsAt_mapped h.shape ring call.hwNextToUse ⟨dma, txdescWord1 call.bufLen⟩
    (hnext.trans (h.shape.count_lt ring))
  have hnot : s.ehw.txProd ring ∉ s.ehw.queued ring :=
    prod_notMem_window (hcons ring) (hprod ring)
  have hplaces : ∀ pick, s'.places pick = Function.update
      (Function.update (s.places pick) (.call ring) none) (.desc ring (s.ehw.txProd ring))
      (some call.framed) := by
    intro pick
    refine places_publish pick hnot (by rw [hs']) ?_ (by rw [hs']; exact hat.pending) (by rw [hs'])
      (by rw [hs']) (by rw [hs'])
    rw [hs']
    exact hat.queued.trans (windows_push (hcons ring) (hprod ring) hfits.room)
  have hempty : s.kept (.desc ring (s.ehw.txProd ring)) = none := by
    simp only [RingsRun.places, if_neg hnot]
  have hcustody := h.custody.move (unreaped_call hcall hstored) hempty
  rw [← hplaces, ← hplaces] at hcustody
  have htaken := hcustody.take (a := call.framed)
    (Or.inr ⟨_, by rw [hplaces]; exact Function.update_self _ _ _⟩)
  subst hs'
  refine ⟨hat.shape h.shape (update_lt hprod hnext) hcons h.shape.cmplProd_lt h.shape.cmplCons_lt,
    ?_, htaken, ?_, h.flight⟩
  · intro r call' hcall'
    obtain ⟨hne, hcall'⟩ := of_update_none hcall'
    have hfits' := h.fits r call' hcall'
    exact hfits'.of_at hat (Function.update_of_ne hne _ _) hfits'.room
  · intro q idx hidx
    rw [hat.pending] at hidx
    exact h.word q idx hidx

/-- The hardware takes a descriptor. -/
theorem take (h : RingsInv s) {t : Nat} {skb : SkBuff} (hne : s.ehw.txCons t ≠ s.ehw.txProd t)
    (hskb : s.packet t (s.ehw.txCons t) = some skb)
    (hs' : s' = { s with
      inFlight := s.inFlight ++ [skb]
      ehw := s.ehw.hwIdx (.txdescConsIdx (s.ehw.txdescRing t).id)
        ((s.ehw.txCons t + 1) % (s.ehw.txdescRing t).count) }) : RingsInv s' := by
  have hcons := h.shape.cons_lt
  have hprod := h.shape.prod_lt
  have hnext := Nat.mod_lt (s.ehw.txCons t + 1) (Nat.zero_lt_of_lt (hcons t))
  have hat := ringsAt_take h.shape t (hnext.trans (h.shape.count_lt t))
  obtain ⟨rest, hwindow, htake⟩ :=
    @windows_take (fun t => (s.ehw.txdescRing t).count) _ _ t (hcons t) (hprod t) hne
  have hnot : s.ehw.txCons t ∉ rest := by
    have hnodup : (s.ehw.queued t).Nodup := nodup_windows (hcons t)
    rw [show s.ehw.queued t = _ from hwindow] at hnodup
    exact (List.nodup_cons.mp hnodup).1
  have hplaces : ∀ pick, s'.places pick = Function.update
      (Function.update (s.places pick) (.desc t (s.ehw.txCons t)) none) (.flight skb)
      (some skb) := by
    intro pick
    exact places_take pick hwindow hnot (by rw [hs']) (by rw [hs']; exact hat.queued.trans htake)
      (by rw [hs']; exact hat.pending) (by rw [hs']) (by rw [hs']) (by rw [hs'])
  have hsrc : ∀ pick, s.places pick (.desc t (s.ehw.txCons t)) = some skb := by
    intro pick
    have hmem : s.ehw.txCons t ∈ s.ehw.queued t := by
      rw [show s.ehw.queued t = _ from hwindow]
      exact List.mem_cons_self
    simp only [RingsRun.places, if_pos hmem, hskb]
  have hflight : skb ∉ s.inFlight := by
    intro hmem
    have hin : s.kept (.flight skb) = some skb := by simp only [RingsRun.places, if_pos hmem]
    cases h.custody.distinct hin (hsrc _)
  have hempty : s.kept (.flight skb) = none := by simp only [RingsRun.places, if_neg hflight]
  have hcustody := h.custody.move (hsrc _) hempty
  rw [← hplaces, ← hplaces] at hcustody
  subst hs'
  refine ⟨hat.shape h.shape hprod (update_lt hcons hnext) h.shape.cmplProd_lt h.shape.cmplCons_lt,
    ?_, hcustody, ?_, ?_⟩
  · intro r call hcall
    have hfits := h.fits r call hcall
    apply hfits.of_at hat rfl
    by_cases hr : r = t
    · subst hr
      rw [Function.update_self]
      exact fun heq => hne (next_inj (hprod r) (hcons r) heq).symm
    · rw [Function.update_of_ne hr]
      exact hfits.room
  · intro q idx hidx
    rw [hat.pending] at hidx
    exact h.word q idx hidx
  · refine List.nodup_append.mpr ⟨h.flight, List.nodup_singleton skb, ?_⟩
    rintro p hp p' hp' rfl
    exact hflight (List.mem_singleton.mp hp' ▸ hp)

/-- The hardware completes a packet. -/
theorem post (h : RingsInv s) {q : Nat} {skb : SkBuff} {status : BitVec 32}
    (hskb : skb ∈ s.inFlight)
    (hroom : (s.ehw.cmplProd q + 1) % (s.ehw.txcmplRing q).count ≠ s.ehw.cmplCons q)
    (hs' : s' = { s with
      inFlight := s.inFlight.erase skb
      done := Function.update s.done q
        (Function.update (s.done q) (s.ehw.cmplProd q) (some skb))
      ehw := (s.ehw.hwComplete q (s.ehw.cmplProd q) ⟨readLe32 skb.payload, status⟩).hwIdx
        (.txcmplProdIdx (s.ehw.txcmplRing q).id)
        ((s.ehw.cmplProd q + 1) % (s.ehw.txcmplRing q).count) }) : RingsInv s' := by
  have hcons := h.shape.cmplCons_lt
  have hprod := h.shape.cmplProd_lt
  have hnext := Nat.mod_lt (s.ehw.cmplProd q + 1) (Nat.zero_lt_of_lt (hcons q))
  have hat := ringsAt_post h.shape q (s.ehw.cmplProd q) ⟨readLe32 skb.payload, status⟩
    (hnext.trans (h.shape.cmplCount_lt q))
  have hpush := hat.pending.trans (windows_push (hcons q) (hprod q) hroom)
  have hnot : s.ehw.cmplProd q ∉ s.ehw.pending q := prod_notMem_window (hcons q) (hprod q)
  have hplaces : ∀ pick, s'.places pick = Function.update
      (Function.update (s.places pick) (.flight skb) none) (.cmpl q (s.ehw.cmplProd q))
      (some skb) := by
    intro pick
    exact places_post pick hnot h.flight (by rw [hs']) (by rw [hs']; exact hat.queued)
      (by rw [hs']; exact hpush) (by rw [hs']) (by rw [hs']) (by rw [hs'])
  have hsrc : s.unreaped (.flight skb) = some skb := by simp only [RingsRun.places, if_pos hskb]
  have hempty : s.kept (.cmpl q (s.ehw.cmplProd q)) = none := by
    simp only [RingsRun.places, if_neg hnot]
  have hcustody := h.custody.move hsrc hempty
  rw [← hplaces, ← hplaces] at hcustody
  subst hs'
  refine ⟨hat.shape h.shape h.shape.prod_lt h.shape.cons_lt (update_lt hprod hnext) hcons, ?_,
    hcustody, ?_, h.flight.erase skb⟩
  · intro r call hcall
    have hfits := h.fits r call hcall
    exact hfits.of_at hat rfl hfits.room
  · intro q' idx hidx
    rw [hpush] at hidx
    show ∃ skb', Function.update s.done q (Function.update (s.done q) (s.ehw.cmplProd q) (some skb))
      q' idx = some skb' ∧ (((s.ehw.hwComplete q (s.ehw.cmplProd q)
        ⟨readLe32 skb.payload, status⟩).txcmplRing q').desc idx).bufferAddr = readLe32 skb'.payload
    by_cases hq : q' = q
    · subst hq
      simp only [EdmaHw.hwComplete, Function.update_self] at hidx ⊢
      by_cases hnew : idx = s.ehw.cmplProd q'
      · subst hnew
        simp only [Function.update_self]
        exact ⟨skb, rfl, rfl⟩
      · have hold := (List.mem_append.mp hidx).resolve_right
          fun hmem => hnew (List.mem_singleton.mp hmem)
        simp only [Function.update_of_ne hnew]
        exact h.word q' idx hold
    · simp only [EdmaHw.hwComplete, Function.update_of_ne hq] at hidx ⊢
      exact h.word q' idx hidx

/-- The slots that the completions of a ring name. -/
def namedSlots (s : RingsRun) (q : Nat) : List Nat :=
  completedSlots (s.ehw.txcmplRing q) (s.ehw.cmplCons q)
    (gap (s.ehw.txcmplRing q).count (s.ehw.cmplCons q) (s.ehw.cmplProd q))

/-- A pending completion is of a packet that is in the store, in the slot it names. -/
theorem unreaped_cmpl (h : RingsInv s) {q idx : Nat} (hidx : idx ∈ s.ehw.pending q) :
    ∃ skb, s.unreaped (.cmpl q idx) = some skb ∧
      ((s.ehw.txcmplRing q).desc idx).bufferAddr.toNat = slotOf skb := by
  obtain ⟨skb, hskb, hword⟩ := h.word q idx hidx
  refine ⟨skb, ?_, by rw [hword, slotOf]⟩
  simp only [RingsRun.places, if_pos hidx, hskb]

theorem mem_namedSlots (h : RingsInv s) (q i : Nat) : i ∈ namedSlots s q ↔
    ∃ p skb, Place.isCmpl q p = true ∧ s.unreaped p = some skb ∧ slotOf skb = i := by
  constructor
  · intro hi
    obtain ⟨idx, hidx, rfl⟩ := List.mem_map.mp hi
    obtain ⟨skb, hskb, hslot⟩ := h.unreaped_cmpl hidx
    exact ⟨.cmpl q idx, skb, by simp [Place.isCmpl], hskb, hslot.symm⟩
  · rintro ⟨p, skb, hp, hskb, rfl⟩
    cases p with
    | call ring => cases hp
    | desc ring idx => cases hp
    | flight skb => cases hp
    | cmpl q' idx =>
      obtain rfl : q' = q := by simpa [Place.isCmpl] using hp
      have hidx : idx ∈ s.ehw.pending q' := by
        by_contra hnot
        simp only [RingsRun.places, if_neg hnot] at hskb
        cases hskb
      obtain ⟨skb', hskb', hslot⟩ := h.unreaped_cmpl hidx
      cases hskb.symm.trans hskb'
      rw [← hslot]
      exact List.mem_map_of_mem (f := fun i => ((s.ehw.txcmplRing q').desc i).bufferAddr.toNat) hidx

theorem nodup_namedSlots (h : RingsInv s) (q : Nat) : (namedSlots s q).Nodup := by
  have hpending : (s.ehw.pending q).Nodup := nodup_windows (h.shape.cmplCons_lt q)
  refine List.Nodup.map_on ?_ hpending
  intro idx hidx idx' hidx' heq
  obtain ⟨skb, hskb, hslot⟩ := h.unreaped_cmpl (q := q) hidx
  obtain ⟨skb', hskb', hslot'⟩ := h.unreaped_cmpl (q := q) hidx'
  rw [hslot, hslot'] at heq
  cases h.custody.stored.slot_inj hskb hskb' heq
  cases h.custody.distinct (h.custody.sub _ _ hskb) (h.custody.sub _ _ hskb')
  rfl

/-- The poll reaps the completions of a ring. -/
theorem reap (h : RingsInv s) (virtToPhys : Nat → BitVec 32) {q : Nat} {r : CleanTx}
    (hr : edmaCleanTx virtToPhys s.ehw q = some r)
    (hs' : s' = { s with ehw := r.ehw, freed := s.freed ++ freedSkbs r.events }) :
    RingsInv s' := by
  have hcons := h.shape.cmplCons_lt
  have hprod := h.shape.cmplProd_lt
  have hheld : ∀ i ∈ namedSlots s q, (s.ehw.txSkbStore i).isSome = true := by
    intro i hi
    obtain ⟨p, skb, -, hskb, rfl⟩ := (h.mem_namedSlots q i).mp hi
    rw [h.custody.stored.stored hskb]
    rfl
  obtain ⟨r', hr', -, -, hself, hevents, hstore, htxdesc, htxcmpl, hothers⟩ :=
    edmaCleanTx_eq virtToPhys (h.shape.cmplCount_lt q) (hprod q) (hcons q) rfl
      (h.nodup_namedSlots q) hheld
  cases hr.symm.trans hr'
  rw [hevents, DmaInv.freedSkbs_flatMap] at hs'
  have hat := ringsAt_clean h.shape htxdesc htxcmpl hself hothers
  have hempty := hat.pending.trans windows_empty
  have hplaces : ∀ pick, s'.places pick =
      fun p => if p.isCmpl q = true then none else s.places pick p := by
    intro pick
    exact places_reap pick (by rw [hs']) (by rw [hs']; exact hat.queued)
      (by rw [hs']; exact hempty) (by rw [hs']) (by rw [hs']) (by rw [hs'])
  have hout : ∀ a, a ∈ (namedSlots s q).filterMap s.ehw.txSkbStore ↔
      ∃ p, Place.isCmpl q p = true ∧ s.unreaped p = some a := by
    intro a
    rw [List.mem_filterMap]
    constructor
    · rintro ⟨i, hi, ha⟩
      obtain ⟨p, skb, hp, hskb, rfl⟩ := (h.mem_namedSlots q i).mp hi
      cases (h.custody.stored.stored hskb).symm.trans ha
      exact ⟨p, hp, hskb⟩
    · rintro ⟨p, hp, hskb⟩
      exact ⟨slotOf a, (h.mem_namedSlots q _).mpr ⟨p, a, hp, hskb, rfl⟩,
        h.custody.stored.stored hskb⟩
  have honce : ((namedSlots s q).filterMap s.ehw.txSkbStore).Nodup := by
    apply (h.nodup_namedSlots q).filterMap
    intro i i' a hi hi'
    exact (h.custody.stored.placed hi).1.symm.trans (h.custody.stored.placed hi').1
  have hcustody := h.custody.reap (h.mem_namedSlots q) hout honce
  rw [← hplaces, ← hplaces] at hcustody
  subst hs'
  refine ⟨hat.shape h.shape h.shape.prod_lt h.shape.cons_lt hprod (update_lt hcons (hprod q)), ?_,
    ?_, ?_, h.flight⟩
  · intro ring call hcall
    have hfits := h.fits ring call hcall
    exact hfits.of_at hat rfl hfits.room
  · show Custody _ _ slotOf r.ehw.txSkbStore _ _ _ _
    rw [hstore]
    exact hcustody
  · intro q' idx hidx
    rw [hempty] at hidx
    show ∃ skb, s.done q' idx = some skb ∧
      ((r.ehw.txcmplRing q').desc idx).bufferAddr = readLe32 skb.payload
    by_cases hq : q' = q
    · subst hq
      rw [Function.update_self] at hidx
      cases hidx
    · rw [Function.update_of_ne hq] at hidx
      rw [htxcmpl]
      exact h.word q' idx hidx

theorem step (h : RingsInv s) {virtToPhys : Nat → BitVec 32} {a : RingsLabel} (hown : SlotOwn s a)
    (hstep : ringsStep virtToPhys s a = some s') : RingsInv s' := by
  cases a with
  | test ring netdev skb =>
    simp only [ringsStep] at hstep
    split at hstep
    · cases hstep
    · rename_i henabled
      simp only [not_or, Nat.not_lt, Bool.not_eq_true, Option.isSome_eq_false_iff,
        Option.isNone_iff_eq_none] at henabled
      obtain ⟨-, hidle, hhead, hnew⟩ := henabled
      rw [edmaRingTest_eq hhead] at hstep
      by_cases hfull : TxdescFull s.ehw ring
      · rw [if_pos hfull] at hstep
        cases hstep
        exact h.refuse ring
      · by_cases hbusy : StoreBusy s.ehw ring
        · rw [if_neg hfull, if_pos hbusy] at hstep
          cases hstep
          exact h.refuse ring
        · rw [if_neg hfull, if_neg hbusy] at hstep
          exact h.pass hidle hnew hfull (Option.some.inj hstep).symm
  | store ring =>
    simp only [ringsStep] at hstep
    split at hstep
    · cases hstep
    · rename_i call hcall
      split at hstep
      · cases hstep
      · rename_i hstored
        exact h.put hcall (Bool.not_eq_true _ ▸ hstored) (hown call hcall)
          (Option.some.inj hstep).symm
  | finish ring dma =>
    simp only [ringsStep] at hstep
    split at hstep
    · cases hstep
    · rename_i call hcall
      split at hstep
      · rename_i hstored
        by_cases hdma : dma = 0#32
        · subst hdma
          exact h.drop hcall hstored (Option.some.inj hstep).symm
        · exact h.publish hcall hstored hdma (Option.some.inj hstep).symm
      · cases hstep
  | take t =>
    simp only [ringsStep] at hstep
    split at hstep
    · cases hstep
    · rename_i hne
      obtain ⟨skb, hskb, hs'⟩ := Option.map_eq_some_iff.mp hstep
      exact h.take hne hskb hs'.symm
  | post q skb status =>
    simp only [ringsStep] at hstep
    split at hstep
    · cases hstep
    · rename_i henabled
      rw [not_or, not_not] at henabled
      exact h.post henabled.1 henabled.2 (Option.some.inj hstep).symm
  | clean q =>
    obtain ⟨r, hr, hs'⟩ := Option.map_eq_some_iff.mp hstep
    exact h.reap virtToPhys hr hs'.symm

theorem ringsOwned (h : RingsInv s) : RingsOwned s :=
  ⟨fun _ _ hskb => h.custody.stored.stored hskb, fun _ hskb => h.custody.owned hskb⟩

/-- Where no packet of another ring is in the slot of a call, the call is decided by its ring. -/
theorem decidedAlone (h : RingsInv s) {a : RingsLabel} (hown : SlotOwn s a) : DecidedAlone s a := by
  cases a with
  | store ring => trivial
  | finish ring dma => trivial
  | take t => trivial
  | post q skb status => trivial
  | clean q => trivial
  | test ring netdev skb =>
    intro hhead
    rw [edmaRingTest_eq hhead]
    by_cases hfull : TxdescFull s.ehw ring
    · rw [if_pos hfull]
      exact iff_of_true ⟨_, rfl⟩ (Or.inl hfull)
    · rw [if_neg hfull]
      have hslot := hown.resolve_left hfull
      constructor
      · rintro ⟨r, hr⟩
        by_cases hbusy : StoreBusy s.ehw ring
        · obtain ⟨p, hp⟩ := Option.isSome_iff_exists.mp hbusy
          obtain ⟨hat, place, hplace⟩ := h.custody.stored.placed hp
          exact Or.inr ⟨place, p, hplace, hslot p hp, hat⟩
        · rw [if_neg hbusy] at hr
          cases hr
      · intro hrefused
        obtain ⟨place, p, hplace, -, hat⟩ := hrefused.resolve_left hfull
        have hbusy : StoreBusy s.ehw ring := by
          rw [StoreBusy, ← hat, h.custody.stored.stored hplace]
          rfl
        rw [if_pos hbusy]
        exact ⟨_, rfl⟩

end RingsInv

/-- In every run of calls on any rings, hardware steps and polls in which each call that finds a
    free descriptor finds no packet of another ring in its slot, and finds the slot free when
    it writes to it, every packet is accounted for and every call is decided by its ring. -/
theorem ringsRun_apart (virtToPhys : Nat → BitVec 32) {ehw : EdmaHw} (hidle : RingsIdle ehw)
    {as : List RingsLabel} (hown : StepsMeet (ringsStep virtToPhys) SlotOwn (.start ehw) as) :
    Always (ringsStep virtToPhys) RingsOwned (.start ehw) as ∧
      StepsMeet (ringsStep virtToPhys) DecidedAlone (.start ehw) as := by
  have hstep : ∀ s a t, RingsInv s → SlotOwn s a → ringsStep virtToPhys s a = some t → RingsInv t :=
    fun _ _ _ h hC hstep => h.step hC hstep
  have hinv := RingsInv.start hidle
  exact ⟨always_of_stepsMeet (fun _ h => h.ringsOwned) hstep hinv hown,
    hown.of_inv (fun _ _ h hC => h.decidedAlone hC) hstep hinv⟩

instance (s : RingsRun) (a : RingsLabel) : Decidable (SlotOwn s a) :=
  match a with
  | .test ring _ _ =>
    match h : s.ehw.txSkbStore (s.ehw.txSlot ring) with
    | none => isTrue (Or.inr fun _ hskb => absurd (h.symm.trans hskb) (Option.some_ne_none _).symm)
    | some p => decidable_of_iff (TxdescFull s.ehw ring ∨ s.ringOf p.id = ring)
        (or_congr_right ⟨fun hp _ hskb => Option.some.inj (h.symm.trans hskb) ▸ hp,
          fun hall => hall p h⟩)
  | .store ring =>
    match h : s.calls ring with
    | none => isTrue fun _ hcall => absurd (h.symm.trans hcall) (Option.some_ne_none _).symm
    | some call => decidable_of_iff (s.ehw.txSkbStore call.storeIndex = none)
        ⟨fun hfree _ hcall => Option.some.inj (h.symm.trans hcall) ▸ hfree, fun hall => hall call h⟩
  | .finish _ _ => isTrue trivial
  | .take _ => isTrue trivial
  | .post _ _ _ => isTrue trivial
  | .clean _ => isTrue trivial

/-- An instance with two TXDESC rings; the second stands at the index `idx`. -/
def twoRings (idx : Nat) : EdmaHw :=
  { idleEdma with
    txdescRings := 2
    regs := Function.update (Function.update (fun _ => 0#32) (.txdescProdIdx 1)
      (BitVec.ofNat 32 idx))
      (.txdescConsIdx 1) (BitVec.ofNat 32 idx) }

/-- Calls on both rings, one a packet, of which neither waits for the other. -/
def twoCalls : List RingsLabel :=
  [.test 0 port1Dev (packetOf 0 []), .test 1 port1Dev (packetOf 1 []), .store 0, .store 1,
    .finish 0 32#32, .finish 1 64#32]

theorem twoRings_idle {idx : Nat} (hidx : idx < edmaRingSize) : RingsIdle (twoRings idx) := by
  have hprod : ∀ t, (twoRings idx).txProd t = if t = 1 then idx else 0 := by
    intro t
    by_cases ht : t = 1
    · subst ht
      unfold edmaRingSize at hidx
      exact hwIdx_regIdx_self (idleEdma.hwIdx (.txdescProdIdx 1) idx) (.txdescProdIdx 1)
        (hidx.trans (by decide))
    · rw [if_neg ht]
      simp [twoRings, EdmaHw.txProd, EdmaHw.regIdx, idleEdma, ht]
  have hcons : ∀ t, (twoRings idx).txCons t = if t = 1 then idx else 0 := by
    intro t
    by_cases ht : t = 1
    · subst ht
      unfold edmaRingSize at hidx
      exact hwIdx_regIdx_self (idleEdma.hwIdx (.txdescProdIdx 1) idx) (.txdescConsIdx 1)
        (hidx.trans (by decide))
    · rw [if_neg ht]
      simp [twoRings, EdmaHw.txCons, EdmaHw.regIdx, idleEdma, ht]
  have hlt : ∀ t : Nat, (if t = 1 then idx else 0) < edmaRingSize := by
    intro t
    split
    · exact hidx
    · decide
  refine ⟨⟨fun _ => ⟨7, by decide, rfl⟩, fun _ => ⟨7, by decide, rfl⟩, fun _ _ h => h,
    fun _ _ h => h, ?_, ?_, ?_, ?_⟩, ?_, fun _ => rfl, fun _ => rfl⟩
  · intro t
    rw [hprod]
    exact hlt t
  · intro t
    rw [hcons]
    exact hlt t
  · intro q
    simp [twoRings, EdmaHw.cmplProd, EdmaHw.regIdx, idleEdma, edmaRingSize]
  · intro q
    simp [twoRings, EdmaHw.cmplCons, EdmaHw.regIdx, idleEdma, edmaRingSize]
  · intro t
    rw [hprod, hcons]

/-- The rings are at different slots, and the packet of the second is completed first. -/
theorem ringsRun_apart_two :
    Always (ringsStep (BitVec.ofNat 32)) RingsOwned (.start (twoRings 1)) (twoCalls ++
        [.take 1, .post 0 (framed port1Dev 1 (packetOf 1 [])) 0#32, .clean 0]) ∧
      StepsMeet (ringsStep (BitVec.ofNat 32)) DecidedAlone (.start (twoRings 1)) (twoCalls ++
        [.take 1, .post 0 (framed port1Dev 1 (packetOf 1 [])) 0#32, .clean 0]) :=
  ringsRun_apart _ (twoRings_idle (by decide)) (by decide +kernel)

/-- At one slot, the second of two calls that have both found it free overwrites the packet of
    the first; where the first is done, the second is refused for a packet of another ring. -/
theorem ringsRun_oneSlot :
    RingsIdle (twoRings 0) ∧
      (∃ u, run (ringsStep (BitVec.ofNat 32)) (.start (twoRings 0)) twoCalls = some u ∧
        framed port1Dev 0 (packetOf 0 []) ∈ u.accepted ∧
        u.unreaped (.desc 0 0) = some (framed port1Dev 0 (packetOf 0 [])) ∧
        u.ehw.txSkbStore 0 = some (framed port1Dev 0 (packetOf 1 [])) ∧ ¬ RingsOwned u) ∧
      ∃ u, run (ringsStep (BitVec.ofNat 32)) (.start (twoRings 0))
          [.test 0 port1Dev (packetOf 0 []), .store 0, .finish 0 32#32] = some u ∧
        ¬ DecidedAlone u (.test 1 port1Dev (packetOf 1 [])) := by
  refine ⟨twoRings_idle (by decide), ⟨_, rfl, by decide +kernel, rfl, rfl, ?_⟩, ⟨_, rfl, ?_⟩⟩
  · intro howned
    have hkept := howned.kept (.desc 0 0) (framed port1Dev 0 (packetOf 0 [])) rfl
    exact absurd hkept (by decide +kernel)
  · intro halone
    rcases (halone (by decide)).mp ⟨_, rfl⟩ with hfull | ⟨place, skb, -, hring, -⟩
    · exact absurd hfull (by decide +kernel)
    · have hzero : Function.update (fun _ => 0) 0 0 skb.id = 1 := hring
      rw [Function.update_eq_self] at hzero
      cases hzero

end NssDp.Edma
