import NssDp.Misc.Fifo
import NssDp.Misc.Ledger
import NssDp.Edma.Proofs.TxOwnership

/-!
# The order in which EDMA sends

A frame passes three places on its way: the TXDESC ring, the hardware, and the TXCMPL ring. The
rings keep their order, the hardware need not. Nothing here asks that a packet fits its
descriptor: what is mapped too short is fetched and completed in its turn all the same.
-/

namespace NssDp.Edma

open Lts Cyclic Word

/-- A frame as the hardware fetches it: a descriptor and the buffer behind it. -/
structure TxFrame where
  desc : EdmaTxdescDesc
  skb : SkBuff
  deriving DecidableEq

namespace DmaRun

/-- The frame in a place of the TXDESC ring. -/
def frameAt (t : Nat) (s : DmaRun) (i : Nat) : Option TxFrame :=
  (s.packet i).map fun skb => ⟨(s.ehw.txdescRing t).desc i, skb⟩

/-- The frames in the TXDESC ring. -/
def posted (t : Nat) (s : DmaRun) : List TxFrame := (s.queued t).filterMap (s.frameAt t)

/-- The packets the hardware has taken and not completed. -/
def flying (s : DmaRun) : List SkBuff := (s.inFlight.map BitVec.toNat).filterMap s.ehw.txSkbStore

/-- The slots the pending completions name. -/
def completed (q : Nat) (s : DmaRun) : List Nat :=
  completedSlots (s.ehw.txcmplRing q) (s.ehw.cmplCons q)
    (gap (s.ehw.txcmplRing q).count (s.ehw.cmplCons q) (s.ehw.cmplProd q))

/-- The packets whose completions are in the TXCMPL ring. -/
def done (q : Nat) (s : DmaRun) : List SkBuff := (s.completed q).filterMap s.ehw.txSkbStore

/-- The frame a call publishes: the descriptor has the address of the mapping and its length
    without the preheader. -/
def publishes (t : Nat) (s : DmaRun) : DmaLabel → List TxFrame
  | .xmit netdev skb dma =>
    match edmaRingXmit s.ehw netdev skb t dma with
    | .error _ => []
    | .ok r => (mapsOf r.events).map fun m =>
        ⟨⟨m.1, txdescWord1 (m.2 - edmaTxPrehdrSize)⟩, r.skb⟩
  | _ => []

/-- The frame the hardware fetches. -/
def fetches (t : Nat) (s : DmaRun) : DmaLabel → List TxFrame
  | .take => (s.frameAt t (s.ehw.txCons t)).toList
  | _ => []

/-- The packet the hardware completes. -/
def completes (s : DmaRun) : DmaLabel → List SkBuff
  | .post word _ => (s.ehw.txSkbStore word.toNat).toList
  | _ => []

/-- The packets `edma_clean_tx` frees. -/
def reaps (virtToPhys : Nat → BitVec 32) (q : Nat) (s : DmaRun) : DmaLabel → List SkBuff
  | .clean =>
    match edmaCleanTx virtToPhys s.ehw q with
    | none => []
    | some r => freedSkbs r.events
  | _ => []

end DmaRun

/-- What every step keeps, for some account of the mappings. -/
def OrderInv (virtToPhys : Nat → BitVec 32) (t q : Nat) (s : DmaRun) : Prop :=
  ∃ mapped released, DmaInv virtToPhys t q { s with mapped, released }

/-- The two states agree on the places a frame passes, but for the descriptor at the producer
    index. -/
structure SamePlaces (t q : Nat) (s s' : DmaRun) : Prop where
  packet : s'.packet = s.packet
  inFlight : s'.inFlight = s.inFlight
  rings : SameRings t q s.ehw s'.ehw
  prod : s'.ehw.txProd t = s.ehw.txProd t
  store : s'.ehw.txSkbStore = s.ehw.txSkbStore
  desc : ∀ i, i ≠ s.ehw.txProd t → (s'.ehw.txdescRing t).desc i = (s.ehw.txdescRing t).desc i

section Steps

variable {virtToPhys : Nat → BitVec 32} {t q : Nat} {s s' : DmaRun}

/-- A call that publishes a frame. -/
structure Published (t : Nat) (s s' : DmaRun) (netdev : NetDevice) (skb : SkBuff)
    (dma : BitVec 32) : Prop where
  notFull : ¬ TxdescFull s.ehw t
  notBusy : ¬ StoreBusy s.ehw t
  new : skb.id ∉ s.handed
  publishes : s.publishes t (.xmit netdev skb dma) =
    [⟨⟨dma, txdescWord1 (u16 skb.headlen)⟩, framed netdev (s.ehw.txSlot t) skb⟩]
  eq : s' = { s with
    ehw := s.ehw.xmitPublished t (framed netdev (s.ehw.txSlot t) skb) (u16 skb.headlen) dma
    packet := Function.update s.packet (s.ehw.txProd t)
      (some (framed netdev (s.ehw.txSlot t) skb))
    handed := s.handed ++ [skb.id]
    mapped := s.mapped ++ [⟨dma, u16 skb.headlen + edmaTxPrehdrSize,
      framed netdev (s.ehw.txSlot t) skb⟩] }

/-- The exits of a call: nothing is published and every frame stays, or one is published. -/
theorem dmaStep_xmit_cases {netdev : NetDevice} {skb : SkBuff} {dma : BitVec 32}
    (hstep : dmaStep virtToPhys t q s (.xmit netdev skb dma) = some s') :
    (XmitFits virtToPhys t s (.xmit netdev skb dma) ∧
        s.publishes t (.xmit netdev skb dma) = [] ∧ SamePlaces t q s s') ∨
      Published t s s' netdev skb dma := by
  simp only [dmaStep] at hstep
  split at hstep
  · cases hstep
  · rename_i henabled
    rw [not_or, Nat.not_lt] at henabled
    obtain ⟨hhead, hnew⟩ := henabled
    by_cases hfull : TxdescFull s.ehw t
    · have hexit := @edmaRingXmit_full s.ehw netdev skb t dma hfull
      rw [hexit] at hstep
      cases hstep
      refine Or.inl ⟨Or.inl hfull, ?_, ?_⟩
      · simp only [DmaRun.publishes, hexit]
        rfl
      · exact ⟨by simp [mapsOf], rfl, xmitRead_same s.ehw t q, rfl, rfl, fun _ _ => rfl⟩
    · by_cases hbusy : StoreBusy s.ehw t
      · have hexit := @edmaRingXmit_storeBusy s.ehw netdev skb t dma hhead hfull hbusy
        rw [hexit] at hstep
        cases hstep
        refine Or.inl ⟨Or.inr (Or.inl hbusy), ?_, ?_⟩
        · simp only [DmaRun.publishes, hexit, mapsOf_tstampEvents, List.map_nil]
        · exact ⟨by simp, rfl, xmitRead_same s.ehw t q, rfl, rfl, fun _ _ => rfl⟩
      · by_cases hdma : dma = 0#32
        · subst hdma
          have hexit := @edmaRingXmit_unmapped s.ehw netdev skb t hhead hfull hbusy
          rw [hexit] at hstep
          cases hstep
          refine Or.inl ⟨Or.inr (Or.inr (Or.inl rfl)), ?_, ?_⟩
          · simp only [DmaRun.publishes, hexit, mapsOf_append, mapsOf_tstampEvents, mapsOf_free,
              List.append_nil, List.map_nil]
          · refine ⟨by simp, rfl, xmitUnmapped_same s.ehw t q _, xmitUnmapped_txProd s.ehw t _,
              xmitUnmapped_txSkbStore hbusy _, ?_⟩
            intro i hi
            simp [EdmaHw.xmitUnmapped, EdmaHw.xmitRead, EdmaHw.setTxdesc, EdmaHw.setTxStore,
              EdmaHw.touch, hi]
        · have hexit := @edmaRingXmit_published s.ehw netdev skb t dma hhead hfull hbusy hdma
          rw [hexit] at hstep
          cases hstep
          refine Or.inr ⟨hfull, hbusy, hnew, ?_, ?_⟩
          · simp only [DmaRun.publishes, hexit, mapsOf_append, mapsOf_tstampEvents, mapsOf_map,
              List.nil_append, List.map_cons, List.map_nil, Nat.add_sub_cancel]
          · simp

/-- The account of the mappings does not steer a step. -/
theorem dmaStep_account {a : DmaLabel} (mapped released : List DmaMapping)
    (hstep : dmaStep virtToPhys t q s a = some s') : ∃ mapped' released',
      dmaStep virtToPhys t q { s with mapped, released } a =
        some { s' with mapped := mapped', released := released' } := by
  cases a with
  | xmit netdev skb dma =>
    simp only [dmaStep] at hstep ⊢
    split at hstep
    · cases hstep
    · rename_i henabled
      rw [if_neg henabled]
      cases hr : edmaRingXmit s.ehw netdev skb t dma with
      | error bug => simp only [hr] at hstep; cases hstep
      | ok r =>
        simp only [hr] at hstep ⊢
        cases hstep
        exact ⟨_, _, rfl⟩
  | take =>
    simp only [dmaStep] at hstep ⊢
    split at hstep
    · cases hstep
    · rename_i henabled
      obtain ⟨skb, hskb, rfl⟩ := Option.map_eq_some_iff.mp hstep
      rw [if_neg henabled, hskb]
      exact ⟨_, _, rfl⟩
  | post word status =>
    simp only [dmaStep] at hstep ⊢
    split at hstep
    · cases hstep
    · rename_i henabled
      cases hstep
      rw [if_neg henabled]
      exact ⟨_, _, rfl⟩
  | clean =>
    simp only [dmaStep] at hstep ⊢
    obtain ⟨r, hr, rfl⟩ := Option.map_eq_some_iff.mp hstep
    rw [hr]
    exact ⟨_, _, rfl⟩

namespace OrderInv

theorem start {ehw : EdmaHw} (hidle : TxIdle t q ehw) :
    OrderInv virtToPhys t q (.start ehw) := ⟨[], [], DmaInv.start hidle⟩

/-- A frame that is published is in the account with the mapping that will be undone. -/
theorem publish (h : OrderInv virtToPhys t q s) {netdev : NetDevice} {skb : SkBuff}
    {dma : BitVec 32} (hpub : Published t s s' netdev skb dma) : OrderInv virtToPhys t q s' := by
  obtain ⟨mapped, released, hinv⟩ := h
  have hslot : s.ehw.txSlot t = s.ehw.txProd t := hinv.txSlot_eq
  have hnone : s.ehw.txSkbStore (s.ehw.txProd t) = none := by
    rw [← hslot]
    simpa [StoreBusy] using hpub.notBusy
  refine ⟨mapped ++ [unmapping virtToPhys (framed netdev (s.ehw.txSlot t) skb)], released, ?_⟩
  rw [hpub.eq]
  exact hinv.publish (framed netdev (s.ehw.txSlot t) skb) hpub.new
    (fun heq => hpub.notFull (hinv.txdescFull_iff.mpr heq)) hnone (by rw [readLe32_framed, hslot])
    (xmitPublished_same s.ehw t q (framed netdev (s.ehw.txSlot t) skb) (u16 skb.headlen) dma)
    ((xmitPublished_txProd _ _ _ _ _).trans hinv.next_eq) (by rw [xmitPublished_txSkbStore, hslot])

theorem of_fits (h : OrderInv virtToPhys t q s) {a : DmaLabel}
    (hfits : XmitFits virtToPhys t s a) (hstep : dmaStep virtToPhys t q s a = some s') :
    OrderInv virtToPhys t q s' := by
  obtain ⟨mapped, released, hinv⟩ := h
  obtain ⟨mapped', released', hstep'⟩ := dmaStep_account mapped released hstep
  have hfits' : XmitFits virtToPhys t { s with mapped, released } a := by
    cases a with
    | xmit => exact hfits
    | _ => trivial
  exact ⟨mapped', released', hinv.step hfits' hstep'⟩

theorem step (h : OrderInv virtToPhys t q s) {a : DmaLabel}
    (hstep : dmaStep virtToPhys t q s a = some s') : OrderInv virtToPhys t q s' := by
  cases a with
  | xmit netdev skb dma =>
    rcases dmaStep_xmit_cases hstep with ⟨hfits, -, -⟩ | hpub
    · exact h.of_fits hfits hstep
    · exact h.publish hpub
  | take => exact h.of_fits (a := .take) trivial hstep
  | post word status => exact h.of_fits (a := .post word status) trivial hstep
  | clean => exact h.of_fits (a := .clean) trivial hstep

theorem prod_lt (h : OrderInv virtToPhys t q s) :
    s.ehw.txProd t < (s.ehw.txdescRing t).count := by
  obtain ⟨_, _, hinv⟩ := h
  exact hinv.prod_lt

theorem cons_lt (h : OrderInv virtToPhys t q s) :
    s.ehw.txCons t < (s.ehw.txdescRing t).count := by
  obtain ⟨_, _, hinv⟩ := h
  exact hinv.cons_lt

/-- The slots in the three places are distinct. -/
theorem nodup (h : OrderInv virtToPhys t q s) :
    (s.queued t ++ s.inFlight.map BitVec.toNat ++ s.completed q).Nodup := by
  obtain ⟨_, _, hinv⟩ := h
  exact hinv.ledger.nodup

/-- They are the slots that hold a packet. -/
theorem used (h : OrderInv virtToPhys t q s) (i : Nat) : (s.ehw.txSkbStore i).isSome = true ↔
    i ∈ s.queued t ++ s.inFlight.map BitVec.toNat ++ s.completed q := by
  obtain ⟨_, _, hinv⟩ := h
  exact hinv.ledger.used i

/-- The buffer behind a descriptor in the ring is the one in the store. -/
theorem packet (h : OrderInv virtToPhys t q s) : ∀ i ∈ s.queued t,
    s.packet i = s.ehw.txSkbStore i := by
  obtain ⟨_, _, hinv⟩ := h
  exact hinv.packet

/-- A slot that is free is in none of the places. -/
theorem free (h : OrderInv virtToPhys t q s) {i : Nat} (hfree : s.ehw.txSkbStore i = none) :
    i ∉ s.queued t ∧ i ∉ s.inFlight.map BitVec.toNat ∧ i ∉ s.completed q := by
  have hnot := (h.used i).not.mp (by rw [hfree]; exact Bool.false_ne_true)
  rwa [List.mem_append, List.mem_append, not_or, not_or, and_assoc] at hnot

/-- Where every frame stays, the places hold what they held. -/
theorem places_same (h : OrderInv virtToPhys t q s) (hsame : SamePlaces t q s s') :
    s'.posted t = s.posted t ∧ s'.flying = s.flying ∧ s'.done q = s.done q := by
  obtain ⟨hpacket, hinFlight, ⟨hcount, hring, hcons, hcmplProd, hcmplCons⟩, hprod, hstore, hdesc⟩ :=
    hsame
  refine ⟨?_, ?_, ?_⟩
  · have hnot := prod_notMem_window h.cons_lt h.prod_lt
    simp only [DmaRun.posted, DmaRun.queued, hcount, hcons, hprod]
    refine List.filterMap_congr fun i hi => ?_
    simp only [DmaRun.frameAt, hpacket, hdesc i (ne_of_mem_of_not_mem hi hnot)]
  · simp only [DmaRun.flying, hinFlight, hstore]
  · simp only [DmaRun.done, DmaRun.completed, hring, hcmplCons, hcmplProd, hstore]

/-- A frame that is published is the last in the ring. -/
theorem places_publish (h : OrderInv virtToPhys t q s) {netdev : NetDevice} {skb : SkBuff}
    {dma : BitVec 32} (hpub : Published t s s' netdev skb dma) :
    s'.posted t = s.posted t ++ s.publishes t (.xmit netdev skb dma) ∧ s'.flying = s.flying ∧
      s'.done q = s.done q := by
  obtain ⟨mapped, released, hinv⟩ := id h
  have hslot : s.ehw.txSlot t = s.ehw.txProd t := hinv.txSlot_eq
  have hnone : s.ehw.txSkbStore (s.ehw.txProd t) = none := by
    rw [← hslot]
    simpa [StoreBusy] using hpub.notBusy
  obtain ⟨hqueued, hflying, hdone⟩ := h.free hnone
  have hroom : (s.ehw.txProd t + 1) % (s.ehw.txdescRing t).count ≠ s.ehw.txCons t :=
    fun heq => hpub.notFull (hinv.txdescFull_iff.mpr heq)
  obtain ⟨hcount, -, hcons, -, -⟩ :=
    xmitPublished_same s.ehw t q (framed netdev (s.ehw.txSlot t) skb) (u16 skb.headlen) dma
  have hprod := (xmitPublished_txProd s.ehw t (framed netdev (s.ehw.txSlot t) skb)
    (u16 skb.headlen) dma).trans hinv.next_eq
  have hdesc := xmitPublished_desc s.ehw t (framed netdev (s.ehw.txSlot t) skb) (u16 skb.headlen)
    dma
  rw [hpub.publishes, hpub.eq]
  refine ⟨?_, ?_, ?_⟩
  · simp only [DmaRun.posted, DmaRun.queued, hcount, hcons, hprod,
      window_push h.cons_lt h.prod_lt hroom, List.filterMap_append]
    congr 1
    · refine List.filterMap_congr fun i hi => ?_
      have hne := ne_of_mem_of_not_mem hi hqueued
      simp only [DmaRun.frameAt, Function.update_of_ne hne]
      simp [EdmaHw.xmitPublished, EdmaHw.setTxdesc, EdmaHw.xmitRead, EdmaHw.setTxStore,
        EdmaHw.touch, hne]
    · simp only [List.filterMap_cons, List.filterMap_nil, DmaRun.frameAt, Function.update_self,
        Option.map_some, hdesc]
  · simp only [DmaRun.flying, xmitPublished_txSkbStore, hslot]
    exact Ledger.filterMap_update hflying
  · simp only [DmaRun.done, DmaRun.completed, xmitPublished_txSkbStore, hslot]
    exact Ledger.filterMap_update hdone

/-- The hardware fetches the first frame in the ring. -/
theorem places_take (h : OrderInv virtToPhys t q s)
    (hstep : dmaStep virtToPhys t q s .take = some s') :
    s.posted t = s.fetches t .take ++ s'.posted t ∧
      s'.flying = s.flying ++ (s.fetches t .take).map TxFrame.skb ∧ s'.done q = s.done q := by
  obtain ⟨mapped, released, hinv⟩ := id h
  simp only [dmaStep] at hstep
  split at hstep
  · cases hstep
  · rename_i hne
    obtain ⟨skb, hskb, rfl⟩ := Option.map_eq_some_iff.mp hstep
    have hnext := Nat.mod_lt (s.ehw.txCons t + 1) (Nat.zero_lt_of_lt h.cons_lt)
    obtain ⟨ehw', hehw⟩ : ∃ e, e = s.ehw.hwIdx (.txdescConsIdx (s.ehw.txdescRing t).id)
        ((s.ehw.txCons t + 1) % (s.ehw.txdescRing t).count) := ⟨_, rfl⟩
    have hcons : ehw'.txCons t = (s.ehw.txCons t + 1) % (s.ehw.txdescRing t).count := by
      rw [hehw]
      exact hwIdx_regIdx_self _ _ (hnext.trans (lt_of_pow hinv.count))
    have hprod : ehw'.txProd t = s.ehw.txProd t := by
      rw [hehw]
      exact hwIdx_regIdx_of_ne _ _ (by simp)
    have hcmplProd : ehw'.cmplProd q = s.ehw.cmplProd q := by
      rw [hehw]
      exact hwIdx_regIdx_of_ne _ _ (by simp)
    have hcmplCons : ehw'.cmplCons q = s.ehw.cmplCons q := by
      rw [hehw]
      exact hwIdx_regIdx_of_ne _ _ (by simp)
    have htxdesc : ehw'.txdescRing = s.ehw.txdescRing := by rw [hehw]; rfl
    have hcmplRing : ehw'.txcmplRing = s.ehw.txcmplRing := by rw [hehw]; rfl
    have hstore : ehw'.txSkbStore = s.ehw.txSkbStore := by rw [hehw]; rfl
    have hwindow := window_take h.cons_lt h.prod_lt hne
    have hqueued : s.ehw.txCons t ∈ s.queued t := by
      rw [DmaRun.queued, hwindow]
      exact List.mem_cons_self
    have hstored : s.ehw.txSkbStore (s.ehw.txCons t) = some skb :=
      (h.packet _ hqueued).symm.trans hskb
    have hword : (readLe32 skb.payload).toNat = s.ehw.txCons t := by
      have hlt := h.cons_lt.trans (lt_of_pow hinv.count)
      rw [hinv.ledger.tag _ _ hstored, BitVec.toNat_ofNat, Nat.mod_eq_of_lt (by omega)]
    have hframe : s.frameAt t (s.ehw.txCons t) =
        some ⟨(s.ehw.txdescRing t).desc (s.ehw.txCons t), skb⟩ := by
      rw [DmaRun.frameAt, hskb, Option.map_some]
    rw [← hehw]
    refine ⟨?_, ?_, ?_⟩
    · rw [DmaRun.posted, DmaRun.queued, hwindow, List.filterMap_cons_some hframe, DmaRun.fetches,
        hframe]
      simp only [DmaRun.posted, DmaRun.queued, hcons, hprod, htxdesc, Option.toList_some,
        List.singleton_append]
      refine congrArg _ (List.filterMap_congr fun i _ => ?_)
      simp only [DmaRun.frameAt, htxdesc]
    · simp only [DmaRun.flying, DmaRun.fetches, hframe, hstore, List.map_append,
        List.filterMap_append, List.map_cons, List.map_nil, Option.toList_some, hword,
        List.filterMap_cons_some hstored, List.filterMap_nil]
    · simp only [DmaRun.done, DmaRun.completed, hcmplProd, hcmplCons, hcmplRing, hstore]

/-- The hardware completes a packet it has taken. -/
theorem places_post (h : OrderInv virtToPhys t q s) {word status : BitVec 32}
    (hstep : dmaStep virtToPhys t q s (.post word status) = some s') :
    s'.posted t = s.posted t ∧ s.flying.Perm (s.completes (.post word status) ++ s'.flying) ∧
      s'.done q = s.done q ++ s.completes (.post word status) := by
  obtain ⟨mapped, released, hinv⟩ := id h
  simp only [dmaStep] at hstep
  split at hstep
  · cases hstep
  · rename_i henabled
    rw [not_or, not_not] at henabled
    obtain ⟨hword, hroom⟩ := henabled
    have hcons_lt : s.ehw.cmplCons q < (s.ehw.txcmplRing q).count := hinv.cmplCons_lt
    have hprod_lt : s.ehw.cmplProd q < (s.ehw.txcmplRing q).count := hinv.cmplProd_lt
    have hnext := Nat.mod_lt (s.ehw.cmplProd q + 1) (Nat.zero_lt_of_lt hcons_lt)
    obtain ⟨ehw', hehw⟩ : ∃ e, e = (s.ehw.hwComplete q (s.ehw.cmplProd q) ⟨word, status⟩).hwIdx
        (.txcmplProdIdx (s.ehw.txcmplRing q).id)
          ((s.ehw.cmplProd q + 1) % (s.ehw.txcmplRing q).count) := ⟨_, rfl⟩
    have hring : ehw'.txcmplRing q = { s.ehw.txcmplRing q with
        desc := Function.update (s.ehw.txcmplRing q).desc (s.ehw.cmplProd q) ⟨word, status⟩ } := by
      rw [hehw]
      exact Function.update_self _ _ _
    have hid : (ehw'.txcmplRing q).id = (s.ehw.txcmplRing q).id := by rw [hring]
    have hcmplProd : ehw'.cmplProd q =
        (s.ehw.cmplProd q + 1) % (s.ehw.txcmplRing q).count := by
      rw [EdmaHw.cmplProd, hid, hehw]
      exact hwIdx_regIdx_self _ _ (hnext.trans (lt_of_pow hinv.cmplCount))
    have hcmplCons : ehw'.cmplCons q = s.ehw.cmplCons q := by
      rw [EdmaHw.cmplCons, hid, hehw]
      exact hwIdx_regIdx_of_ne _ _ (by simp)
    have hprod : ehw'.txProd t = s.ehw.txProd t := by
      rw [hehw]
      exact hwIdx_regIdx_of_ne _ _ (by simp)
    have hcons : ehw'.txCons t = s.ehw.txCons t := by
      rw [hehw]
      exact hwIdx_regIdx_of_ne _ _ (by simp)
    have htxdesc : ehw'.txdescRing = s.ehw.txdescRing := by rw [hehw]; rfl
    have hstore : ehw'.txSkbStore = s.ehw.txSkbStore := by rw [hehw]; rfl
    rw [← hehw] at hstep
    cases hstep
    obtain ⟨skb, hskb⟩ := Option.isSome_iff_exists.mp ((h.used word.toNat).mpr
      (List.mem_append_left _ (List.mem_append_right _ (List.mem_map_of_mem hword))))
    refine ⟨?_, ?_, ?_⟩
    · simp only [DmaRun.posted, DmaRun.queued, htxdesc, hcons, hprod]
      refine List.filterMap_congr fun i _ => ?_
      simp only [DmaRun.frameAt, htxdesc]
    · simp only [DmaRun.flying, DmaRun.completes, hstore, hskb, Option.toList_some,
        List.singleton_append]
      have hperm := ((List.perm_cons_erase hword).map BitVec.toNat).filterMap s.ehw.txSkbStore
      rwa [List.map_cons, List.filterMap_cons_some hskb] at hperm
    · simp only [DmaRun.done, DmaRun.completed, DmaRun.completes, hring, hcmplProd, hcmplCons,
        hstore, completedSlots_post hcons_lt hprod_lt hroom, List.filterMap_append,
        List.filterMap_cons_some hskb, List.filterMap_nil, hskb, Option.toList_some]

/-- `edma_clean_tx` frees what the pending completions name. -/
theorem places_clean (h : OrderInv virtToPhys t q s)
    (hstep : dmaStep virtToPhys t q s .clean = some s') :
    s'.posted t = s.posted t ∧ s'.flying = s.flying ∧
      s.done q = s.reaps virtToPhys q .clean ++ s'.done q := by
  obtain ⟨mapped, released, hinv⟩ := id h
  obtain ⟨r, hr, -, -, hcmplCons, hevents, hstore, htxdesc, hcmplRing, hregs⟩ := hinv.cleanTx_eq
  dsimp only at hr hcmplCons hevents hstore htxdesc hcmplRing hregs
  simp only [dmaStep, hr, Option.map_some, Option.some.injEq] at hstep
  subst hstep
  have hprod : r.ehw.txProd t = s.ehw.txProd t := by
    rw [EdmaHw.txProd, htxdesc]
    exact hregs _ (by simp)
  have hcons : r.ehw.txCons t = s.ehw.txCons t := by
    rw [EdmaHw.txCons, htxdesc]
    exact hregs _ (by simp)
  have hcmplProd : r.ehw.cmplProd q = s.ehw.cmplProd q := by
    rw [EdmaHw.cmplProd, hcmplRing]
    exact hregs _ (by simp)
  refine ⟨?_, ?_, ?_⟩
  · simp only [DmaRun.posted, DmaRun.queued, htxdesc, hcons, hprod]
    refine List.filterMap_congr fun i _ => ?_
    simp only [DmaRun.frameAt, htxdesc]
  · simp only [DmaRun.flying, hstore]
    refine List.filterMap_congr fun i hi => if_neg fun hmem => ?_
    exact (List.nodup_append.mp h.nodup).2.2 i (List.mem_append_right _ hi) i hmem rfl
  · have hnow : DmaRun.done q { s with
        ehw := r.ehw
        reaped := s.reaped ++ freedSkbs r.events
        released := s.released ++ releasesOf r.events } = [] := by
      simp only [DmaRun.done, DmaRun.completed, hcmplProd, hcmplCons, hcmplRing, gap_self,
        completedSlots, window_zero, List.map_nil, List.filterMap_nil]
    rw [hnow, List.append_nil]
    simp only [DmaRun.reaps, hr, hevents, DmaInv.freedSkbs_flatMap]
    rfl

end OrderInv

end Steps

/-- The TXDESC ring keeps the order of the frames. -/
theorem txdesc_fifo (virtToPhys : Nat → BitVec 32) (t q : Nat) :
    Fifo (dmaStep virtToPhys t q) (OrderInv virtToPhys t q) (fun _ _ => True)
      (DmaRun.posted t) (DmaRun.publishes t) (DmaRun.fetches t) := by
  refine ⟨fun s a u h _ hstep => h.step hstep, ?_⟩
  intro s a u h _ hstep
  cases a with
  | xmit netdev skb dma =>
    rcases dmaStep_xmit_cases hstep with ⟨-, hnone, hsame⟩ | hpub
    · rw [hnone, (h.places_same hsame).1]
      exact List.append_nil _
    · exact (h.places_publish hpub).1.symm
  | take => exact (List.append_nil _).trans (h.places_take hstep).1
  | post word status => exact (List.append_nil _).trans (h.places_post hstep).1.symm
  | clean => exact (List.append_nil _).trans (h.places_clean hstep).1.symm

/-- The hardware completes what it has fetched, in any order. -/
theorem hardware_pool (virtToPhys : Nat → BitVec 32) (t q : Nat) :
    Pool (dmaStep virtToPhys t q) (OrderInv virtToPhys t q) (fun _ _ => True) DmaRun.flying
      (fun s a => (s.fetches t a).map TxFrame.skb) DmaRun.completes := by
  refine ⟨fun s a u h _ hstep => h.step hstep, ?_⟩
  intro s a u h _ hstep
  cases a with
  | xmit netdev skb dma =>
    have hkept : u.flying = s.flying := by
      rcases dmaStep_xmit_cases hstep with ⟨-, -, hsame⟩ | hpub
      · exact (h.places_same hsame).2.1
      · exact (h.places_publish hpub).2.1
    rw [hkept]
    exact .of_eq (List.append_nil _)
  | take => exact .of_eq (h.places_take hstep).2.1.symm
  | post word status => exact (List.Perm.of_eq (List.append_nil _)).trans (h.places_post hstep).2.1
  | clean =>
    rw [(h.places_clean hstep).2.1]
    exact .of_eq (List.append_nil _)

/-- The TXCMPL ring keeps the order of the completions. -/
theorem txcmpl_fifo (virtToPhys : Nat → BitVec 32) (t q : Nat) :
    Fifo (dmaStep virtToPhys t q) (OrderInv virtToPhys t q) (fun _ _ => True) (DmaRun.done q)
      DmaRun.completes (DmaRun.reaps virtToPhys q) := by
  refine ⟨fun s a u h _ hstep => h.step hstep, ?_⟩
  intro s a u h _ hstep
  cases a with
  | xmit netdev skb dma =>
    have hkept : u.done q = s.done q := by
      rcases dmaStep_xmit_cases hstep with ⟨-, -, hsame⟩ | hpub
      · exact (h.places_same hsame).2.2
      · exact (h.places_publish hpub).2.2
    rw [hkept]
    exact List.append_nil _
  | take =>
    rw [(h.places_take hstep).2.2]
    exact List.append_nil _
  | post word status => exact (h.places_post hstep).2.2.symm
  | clean => exact (List.append_nil _).trans (h.places_clean hstep).2.2

/-- The three places in a row. -/
theorem tx_pool (virtToPhys : Nat → BitVec 32) (t q : Nat) :
    Pool (dmaStep virtToPhys t q) (OrderInv virtToPhys t q) (fun _ _ => True)
      (fun s => s.done q ++ (s.flying ++ (s.posted t).map TxFrame.skb))
      (fun s a => (s.publishes t a).map TxFrame.skb) (DmaRun.reaps virtToPhys q) :=
  (((txdesc_fifo virtToPhys t q).map TxFrame.skb).toPool.series
    (hardware_pool virtToPhys t q)).series (txcmpl_fifo virtToPhys t q).toPool

/-- In every run from idle rings the hardware fetches the published frames in the order of the
    calls, `edma_clean_tx` frees packets in the order in which they are completed, and what was
    published is what was freed and what is in the three places. -/
theorem dmaRun_inOrder (virtToPhys : Nat → BitVec 32) {t q : Nat} {ehw : EdmaHw}
    (hidle : TxIdle t q ehw) {as : List DmaLabel} {s : DmaRun}
    (hrun : run (dmaStep virtToPhys t q) (.start ehw) as = some s) :
    trace (dmaStep virtToPhys t q) (DmaRun.publishes t) (.start ehw) as =
        trace (dmaStep virtToPhys t q) (DmaRun.fetches t) (.start ehw) as ++ s.posted t ∧
      trace (dmaStep virtToPhys t q) DmaRun.completes (.start ehw) as =
        trace (dmaStep virtToPhys t q) (DmaRun.reaps virtToPhys q) (.start ehw) as ++ s.done q ∧
      ((trace (dmaStep virtToPhys t q) (DmaRun.publishes t) (.start ehw) as).map
          TxFrame.skb).Perm
        (trace (dmaStep virtToPhys t q) (DmaRun.reaps virtToPhys q) (.start ehw) as ++
          (s.done q ++ (s.flying ++ (s.posted t).map TxFrame.skb))) := by
  have hstart : OrderInv virtToPhys t q (.start ehw) := OrderInv.start hidle
  have hany : StepsMeet (dmaStep virtToPhys t q) (fun _ _ => True) (.start ehw) as :=
    StepsMeet.of_forall fun _ _ => trivial
  have hposted : DmaRun.posted t (.start ehw) = [] := by
    simp [DmaRun.posted, DmaRun.queued, DmaRun.start, hidle.prod]
  have hdone : DmaRun.done q (.start ehw) = [] := by
    simp [DmaRun.done, DmaRun.completed, DmaRun.start, hidle.cmplProd, completedSlots]
  refine ⟨?_, ?_, ?_⟩
  · have hring := (txdesc_fifo virtToPhys t q).run hstart hany hrun
    rwa [hposted, List.nil_append] at hring
  · have hring := (txcmpl_fifo virtToPhys t q).run hstart hany hrun
    rwa [hdone, List.nil_append] at hring
  · have hall := (tx_pool virtToPhys t q).run hstart hany hrun
    rwa [hdone, hposted, trace_map] at hall

/-- Two packets are sent, completed the other way round, and reaped. -/
def sendTwo : List DmaLabel :=
  [.xmit port1Dev (packetOf 0 (List.replicate 14 0#8)) 32#32,
    .xmit port1Dev (packetOf 1 (List.replicate 14 0#8)) 96#32, .take, .take, .post 1#32 0#32,
    .post 0#32 0#32, .clean]

theorem dmaRun_inOrder_two : ∃ s,
    run (dmaStep (BitVec.ofNat 32) 0 0) (.start idleEdma) sendTwo = some s ∧
      trace (dmaStep (BitVec.ofNat 32) 0 0) DmaRun.completes (.start idleEdma) sendTwo =
        trace (dmaStep (BitVec.ofNat 32) 0 0) (DmaRun.reaps (BitVec.ofNat 32) 0) (.start idleEdma)
          sendTwo ++ s.done 0 := by
  have hruns : (run (dmaStep (BitVec.ofNat 32) 0 0) (.start idleEdma) sendTwo).isSome = true := by
    decide +kernel
  obtain ⟨s, hs⟩ := Option.isSome_iff_exists.mp hruns
  exact ⟨s, hs, (dmaRun_inOrder (BitVec.ofNat 32) idleEdma_txIdle hs).2.1⟩

end NssDp.Edma
