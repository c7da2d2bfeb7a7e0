import NssDp.Misc.Placement
import NssDp.Edma.XmitSteps
import NssDp.Edma.Proofs.TxOwnership

/-!
# Several TXDESC rings over one store

Calls on different rings interleave, with the hardware and the poll between them, and all of
them index one store by the slot number of their own ring. A packet that is kept has a place:
a call, a descriptor, the hardware, or a completion. `Stored` ties the places to the store;
it is lost where a call finds or writes a slot that a packet of another ring is in, and only
there.
-/

namespace NssDp.Edma

open Lts Cyclic Word Placement

/-- The instance, the buffer each descriptor points to, the packets the hardware has taken,
    and the packet each completion is of; the call in the lock section of each ring; the ring
    a packet was handed to, by its id; the ids the driver has kept, the packets it has
    answered `EDMA_TX_OK` for, and those it has freed. -/
structure RingsRun where
  ehw : EdmaHw
  packet : Nat → Nat → Option SkBuff
  inFlight : List SkBuff
  done : Nat → Nat → Option SkBuff
  calls : Nat → Option XmitCall
  ringOf : Nat → Nat
  handed : List Nat
  accepted : List SkBuff
  freed : List SkBuff

/-- A step of a call, of the hardware or of the poll. -/
inductive RingsLabel where
  | test (ring : Nat) (netdev : NetDevice) (skb : SkBuff)
  | store (ring : Nat)
  | finish (ring : Nat) (dma : BitVec 32)
  | take (t : Nat)
  | post (q : Nat) (skb : SkBuff) (status : BitVec 32)
  | clean (q : Nat)

/-- Nothing has happened on the rings. -/
def RingsRun.start (ehw : EdmaHw) : RingsRun :=
  ⟨ehw, fun _ _ => none, [], fun _ _ => none, fun _ => none, fun _ => 0, [], [], []⟩

/-- The slot a packet carries as its opaque word. -/
def slotOf (skb : SkBuff) : Nat := (readLe32 skb.payload).toNat

/-- The state after a call that ends with `r`; a packet that was mapped is in the descriptor. -/
def RingsRun.afterFinish (s : RingsRun) (ring : Nat) (call : XmitCall) (r : RingXmit) :
    RingsRun :=
  { s with
    ehw := r.ehw
    packet := if mapsOf r.events = [] then s.packet else
      Function.update s.packet ring
        (Function.update (s.packet ring) call.hwNextToUse (some r.skb))
    calls := Function.update s.calls ring none
    accepted := s.accepted ++ [r.skb]
    freed := s.freed ++ freedSkbs r.events }

/-- A call holds the `tx_lock` of its ring from its tests to its end. The caller has made room
    for the preheader and does not hand over a packet again that the driver has kept. -/
def ringsStep (virtToPhys : Nat → BitVec 32) (s : RingsRun) (a : RingsLabel) : Option RingsRun :=
  match a with
  | .test ring netdev skb =>
    if s.ehw.txdescRings ≤ ring ∨ (s.calls ring).isSome = true ∨
        skb.headroom < edmaTxPrehdrSize ∨ skb.id ∈ s.handed then none
    else
      match edmaRingTest s.ehw netdev skb ring with
      | .error _ => none
      | .ok (.refused r) => some { s with ehw := r.ehw }
      | .ok (.passed ehw call) =>
        some { s with
          ehw
          calls := Function.update s.calls ring (some call)
          ringOf := Function.update s.ringOf skb.id ring
          handed := s.handed ++ [skb.id] }
  | .store ring =>
    match s.calls ring with
    | none => none
    | some call =>
      if call.stored then none
      else
        some { s with
          ehw := edmaRingStore s.ehw call
          calls := Function.update s.calls ring (some { call with stored := true }) }
  | .finish ring dma =>
    match s.calls ring with
    | none => none
    | some call =>
      if call.stored then some (s.afterFinish ring call (edmaRingFinish s.ehw ring call dma))
      else none
  | .take t =>
    if s.ehw.txCons t = s.ehw.txProd t then none
    else
      (s.packet t (s.ehw.txCons t)).map fun skb =>
        { s with
          inFlight := s.inFlight ++ [skb]
          ehw := s.ehw.hwIdx (.txdescConsIdx (s.ehw.txdescRing t).id)
            ((s.ehw.txCons t + 1) % (s.ehw.txdescRing t).count) }
  | .post q skb status =>
    let next := (s.ehw.cmplProd q + 1) % (s.ehw.txcmplRing q).count
    if skb ∉ s.inFlight ∨ next = s.ehw.cmplCons q then none
    else
      some { s with
        inFlight := s.inFlight.erase skb
        done := Function.update s.done q
          (Function.update (s.done q) (s.ehw.cmplProd q) (some skb))
        ehw := (s.ehw.hwComplete q (s.ehw.cmplProd q) ⟨readLe32 skb.payload, status⟩).hwIdx
          (.txcmplProdIdx (s.ehw.txcmplRing q).id) next }
  | .clean q =>
    (edmaCleanTx virtToPhys s.ehw q).map fun r =>
      { s with ehw := r.ehw, freed := s.freed ++ freedSkbs r.events }

/-- Where a packet that the driver has kept can be. -/
inductive Place where
  | call (ring : Nat)
  | desc (ring idx : Nat)
  | flight (skb : SkBuff)
  | cmpl (ring idx : Nat)
  deriving DecidableEq

/-- The descriptors of a ring that are published and not taken. -/
def EdmaHw.queued (ehw : EdmaHw) : Nat → List Nat :=
  windows (fun t => (ehw.txdescRing t).count) ehw.txCons ehw.txProd

/-- The completions of a ring that are posted and not reaped. -/
def EdmaHw.pending (ehw : EdmaHw) : Nat → List Nat :=
  windows (fun q => (ehw.txcmplRing q).count) ehw.cmplCons ehw.cmplProd

/-- The packets and their places, with those of the calls that `pick` picks. -/
def RingsRun.places (s : RingsRun) (pick : XmitCall → Bool) : Place → Option SkBuff
  | .call ring => (s.calls ring).bind fun call => if pick call then some call.framed else none
  | .desc ring idx => if idx ∈ s.ehw.queued ring then s.packet ring idx else none
  | .flight skb => if skb ∈ s.inFlight then some skb else none
  | .cmpl ring idx => if idx ∈ s.ehw.pending ring then s.done ring idx else none

/-- The packets that are in the store, by where they are waiting for their completion to be
    reaped. -/
abbrev RingsRun.unreaped (s : RingsRun) : Place → Option SkBuff := s.places XmitCall.stored

/-- The packets the driver has kept and not freed. -/
abbrev RingsRun.kept (s : RingsRun) : Place → Option SkBuff := s.places fun _ => true

/-- A packet handed to the ring is waiting in the slot the ring is to use next. -/
def OwnPacketInSlot (s : RingsRun) (ring : Nat) : Prop :=
  ∃ p skb, s.unreaped p = some skb ∧ s.ringOf skb.id = ring ∧ slotOf skb = s.ehw.txSlot ring

/-- The store: what waits for its completion is in its slot, and every packet that was
    accepted is in one slot or has been freed once. -/
structure RingsOwned (s : RingsRun) : Prop where
  kept : ∀ p skb, s.unreaped p = some skb → s.ehw.txSkbStore (slotOf skb) = some skb
  owned : ∀ skb ∈ s.accepted,
    ((∃! i, s.ehw.txSkbStore i = some skb) ∧ s.freed.count skb = 0) ∨
      ((∀ i, s.ehw.txSkbStore i ≠ some skb) ∧ s.freed.count skb = 1)

/-- A call whose buffer has room for the preheader is refused where its ring is full or its
    slot holds a packet of its ring. -/
def DecidedAlone (s : RingsRun) : RingsLabel → Prop
  | .test ring netdev skb => edmaTxPrehdrSize ≤ skb.headroom →
      ((∃ r, edmaRingTest s.ehw netdev skb ring = .ok (.refused r)) ↔
        TxdescFull s.ehw ring ∨ OwnPacketInSlot s ring)
  | _ => True

/-- A call with a free descriptor finds no packet of another ring in its slot, and the slot is
    still free when it writes to it. -/
def SlotOwn (s : RingsRun) : RingsLabel → Prop
  | .test ring _ _ => TxdescFull s.ehw ring ∨
      ∀ skb, s.ehw.txSkbStore (s.ehw.txSlot ring) = some skb → s.ringOf skb.id = ring
  | .store ring => ∀ call, s.calls ring = some call → s.ehw.txSkbStore call.storeIndex = none
  | _ => True

/-- The rings, and the registers of their indices. -/
structure RingsShape (ehw : EdmaHw) : Prop where
  count : ∀ t, ∃ k ≤ 15, (ehw.txdescRing t).count = 2 ^ k
  cmplCount : ∀ q, ∃ k ≤ 15, (ehw.txcmplRing q).count = 2 ^ k
  id : ∀ t t', (ehw.txdescRing t).id = (ehw.txdescRing t').id → t = t'
  cmplId : ∀ q q', (ehw.txcmplRing q).id = (ehw.txcmplRing q').id → q = q'
  prod_lt : ∀ t, ehw.txProd t < (ehw.txdescRing t).count
  cons_lt : ∀ t, ehw.txCons t < (ehw.txdescRing t).count
  cmplProd_lt : ∀ q, ehw.cmplProd q < (ehw.txcmplRing q).count
  cmplCons_lt : ∀ q, ehw.cmplCons q < (ehw.txcmplRing q).count

/-- The rings and the store before the first packet. -/
structure RingsIdle (ehw : EdmaHw) : Prop where
  shape : RingsShape ehw
  prod : ∀ t, ehw.txProd t = ehw.txCons t
  cmplProd : ∀ q, ehw.cmplProd q = ehw.cmplCons q
  store : ∀ i, ehw.txSkbStore i = none

section Indices

variable {ehw ehw' : EdmaHw} {ids ids' : Nat → Nat} {reg : EdmaReg}

/-- The indices of a kind of rings, where another register was written. -/
theorem idx_same (mk : Nat → EdmaReg) (hids : ids' = ids) (hmk : ∀ n, mk n ≠ reg)
    (hothers : ∀ r, r ≠ reg → ehw'.regIdx r = ehw.regIdx r) :
    (fun t => ehw'.regIdx (mk (ids' t))) = fun t => ehw.regIdx (mk (ids t)) := by
  subst hids
  funext t
  exact hothers _ (hmk _)

/-- The indices of a kind of rings, where that of one ring was written. -/
theorem idx_moved (mk : Nat → EdmaReg) (hids : ids' = ids) (hmk : Function.Injective mk)
    (hinj : Function.Injective ids) {t idx : Nat} (hself : ehw'.regIdx (mk (ids t)) = idx)
    (hothers : ∀ r, r ≠ mk (ids t) → ehw'.regIdx r = ehw.regIdx r) :
    (fun r => ehw'.regIdx (mk (ids' r))) =
      Function.update (fun r => ehw.regIdx (mk (ids r))) t idx := by
  subst hids
  funext r
  by_cases hr : r = t
  · subst hr
    rw [Function.update_self]
    exact hself
  · rw [Function.update_of_ne hr]
    exact hothers _ fun h => hr (hinj (hmk h))

/-- The rings have kept their numbers and sizes, and stand at the given indices. -/
structure RingsAt (ehw ehw' : EdmaHw) (prod cons cmplProd cmplCons : Nat → Nat) : Prop where
  id : (fun t => (ehw'.txdescRing t).id) = fun t => (ehw.txdescRing t).id
  count : (fun t => (ehw'.txdescRing t).count) = fun t => (ehw.txdescRing t).count
  cmplId : (fun q => (ehw'.txcmplRing q).id) = fun q => (ehw.txcmplRing q).id
  cmplCount : (fun q => (ehw'.txcmplRing q).count) = fun q => (ehw.txcmplRing q).count
  txProd : ehw'.txProd = prod
  txCons : ehw'.txCons = cons
  cmplProd : ehw'.cmplProd = cmplProd
  cmplCons : ehw'.cmplCons = cmplCons

/-- An index that is moved stays inside its ring. -/
theorem update_lt {f bound : Nat → Nat} (h : ∀ t, f t < bound t) {t v : Nat} (hv : v < bound t) :
    ∀ r, Function.update f t v r < bound r := by
  intro r
  by_cases hr : r = t
  · subst hr
    rwa [Function.update_self]
  · rw [Function.update_of_ne hr]
    exact h r

namespace RingsAt

variable {prod cons cmplProd cmplCons : Nat → Nat}

theorem queued (h : RingsAt ehw ehw' prod cons cmplProd cmplCons) :
    ehw'.queued = windows (fun t => (ehw.txdescRing t).count) cons prod := by
  rw [EdmaHw.queued, h.count, h.txCons, h.txProd]

theorem pending (h : RingsAt ehw ehw' prod cons cmplProd cmplCons) :
    ehw'.pending = windows (fun q => (ehw.txcmplRing q).count) cmplCons cmplProd := by
  rw [EdmaHw.pending, h.cmplCount, h.cmplCons, h.cmplProd]

theorem shape (h : RingsAt ehw ehw' prod cons cmplProd cmplCons) (hshape : RingsShape ehw)
    (hprod : ∀ t, prod t < (ehw.txdescRing t).count)
    (hcons : ∀ t, cons t < (ehw.txdescRing t).count)
    (hcmplProd : ∀ q, cmplProd q < (ehw.txcmplRing q).count)
    (hcmplCons : ∀ q, cmplCons q < (ehw.txcmplRing q).count) : RingsShape ehw' := by
  have hid := fun t => congrFun h.id t
  have hcount := fun t => congrFun h.count t
  have hcmplId := fun q => congrFun h.cmplId q
  have hcmplCount := fun q => congrFun h.cmplCount q
  refine ⟨?_, ?_, ?_, ?_, ?_, ?_, ?_, ?_⟩
  · simpa only [hcount] using hshape.count
  · simpa only [hcmplCount] using hshape.cmplCount
  · simpa only [hid] using hshape.id
  · simpa only [hcmplId] using hshape.cmplId
  · simpa only [hcount, h.txProd] using hprod
  · simpa only [hcount, h.txCons] using hcons
  · simpa only [hcmplCount, h.cmplProd] using hcmplProd
  · simpa only [hcmplCount, h.cmplCons] using hcmplCons

end RingsAt

/-- A count fits the index registers. -/
theorem RingsShape.count_lt (h : RingsShape ehw) (t : Nat) : (ehw.txdescRing t).count < 2 ^ 16 :=
  lt_of_pow (h.count t)

theorem RingsShape.cmplCount_lt (h : RingsShape ehw) (q : Nat) :
    (ehw.txcmplRing q).count < 2 ^ 16 := lt_of_pow (h.cmplCount q)

/-- The slot a ring is to use next is its producer index. -/
theorem RingsShape.txSlot_eq (h : RingsShape ehw) (t : Nat) : ehw.txSlot t = ehw.txProd t := by
  obtain ⟨k, -, hcount⟩ := h.count t
  rw [EdmaHw.txSlot, hcount, and_mask, Nat.mod_eq_of_lt (hcount ▸ h.prod_lt t)]

theorem RingsShape.next_eq (h : RingsShape ehw) (t : Nat) :
    u16 (ehw.txProd t + 1 &&& (ehw.txdescRing t).count - 1) =
      (ehw.txProd t + 1) % (ehw.txdescRing t).count := by
  obtain ⟨k, hk, hcount⟩ := h.count t
  rw [hcount]
  exact txdesc_next hk

/-- A call clears its descriptor and its slot. -/
theorem ringsAt_unmapped (ehw : EdmaHw) (ring idx i : Nat) (txdesc : EdmaTxdescDesc)
    (v : Option SkBuff) : RingsAt ehw ((ehw.setTxdesc ring idx txdesc).setTxStore i v) ehw.txProd
      ehw.txCons ehw.cmplProd ehw.cmplCons := by
  refine ⟨?_, ?_, rfl, rfl, ?_, ?_, rfl, rfl⟩
  · funext t
    exact EdmaHw.setTxdesc_id ehw ring idx txdesc t
  · funext t
    exact EdmaHw.setTxdesc_count ehw ring idx txdesc t
  · funext t
    simp only [EdmaHw.txProd, EdmaHw.setTxStore_txdescRing, EdmaHw.setTxdesc_id,
      EdmaHw.setTxStore_regIdx, EdmaHw.setTxdesc_regIdx]
  · funext t
    simp only [EdmaHw.txCons, EdmaHw.setTxStore_txdescRing, EdmaHw.setTxdesc_id,
      EdmaHw.setTxStore_regIdx, EdmaHw.setTxdesc_regIdx]

/-- A call writes its descriptor and the producer index. -/
theorem ringsAt_mapped (hshape : RingsShape ehw) (ring idx : Nat) (txdesc : EdmaTxdescDesc)
    {next : Nat} (hnext : next < 2 ^ 16) :
    RingsAt ehw ((ehw.setTxdesc ring idx txdesc).regWrite
        (.txdescProdIdx (ehw.txdescRing ring).id) (BitVec.ofNat 32 next &&& edmaIdxMask))
      (Function.update ehw.txProd ring next) ehw.txCons ehw.cmplProd ehw.cmplCons := by
  have hids : (fun t => (((ehw.setTxdesc ring idx txdesc).regWrite
      (.txdescProdIdx (ehw.txdescRing ring).id)
        (BitVec.ofNat 32 next &&& edmaIdxMask)).txdescRing t).id) =
      fun t => (ehw.txdescRing t).id := by
    funext t
    exact EdmaHw.setTxdesc_id ehw ring idx txdesc t
  have hothers : ∀ r, r ≠ .txdescProdIdx (ehw.txdescRing ring).id →
      ((ehw.setTxdesc ring idx txdesc).regWrite (.txdescProdIdx (ehw.txdescRing ring).id)
        (BitVec.ofNat 32 next &&& edmaIdxMask)).regIdx r = ehw.regIdx r :=
    fun r hr => EdmaHw.regWrite_regIdx_of_ne _ _ _ hr
  refine ⟨hids, ?_, rfl, rfl, ?_, ?_, ?_, ?_⟩
  · funext t
    exact EdmaHw.setTxdesc_count ehw ring idx txdesc t
  · refine idx_moved .txdescProdIdx hids (fun _ _ h => EdmaReg.txdescProdIdx.inj h)
      (fun t t' h => hshape.id t t' h) ?_ hothers
    rw [and_edmaIdxMask_eq hnext]
    exact EdmaHw.regWrite_regIdx_self _ _ hnext
  · exact idx_same .txdescConsIdx hids (by simp) hothers
  · exact idx_same .txcmplProdIdx rfl (by simp) hothers
  · exact idx_same .txcmplConsIdx rfl (by simp) hothers

/-- The hardware moves the consumer index of a TXDESC ring. -/
theorem ringsAt_take (hshape : RingsShape ehw) (t : Nat) {next : Nat} (hnext : next < 2 ^ 16) :
    RingsAt ehw (ehw.hwIdx (.txdescConsIdx (ehw.txdescRing t).id) next) ehw.txProd
      (Function.update ehw.txCons t next) ehw.cmplProd ehw.cmplCons := by
  have hothers : ∀ r, r ≠ .txdescConsIdx (ehw.txdescRing t).id →
      (ehw.hwIdx (.txdescConsIdx (ehw.txdescRing t).id) next).regIdx r = ehw.regIdx r :=
    fun r hr => hwIdx_regIdx_of_ne _ _ hr
  refine ⟨rfl, rfl, rfl, rfl, ?_, ?_, ?_, ?_⟩
  · exact idx_same .txdescProdIdx rfl (by simp) hothers
  · exact idx_moved .txdescConsIdx rfl (fun _ _ h => EdmaReg.txdescConsIdx.inj h)
      (fun t t' h => hshape.id t t' h) (hwIdx_regIdx_self _ _ hnext) hothers
  · exact idx_same .txcmplProdIdx rfl (by simp) hothers
  · exact idx_same .txcmplConsIdx rfl (by simp) hothers

@[simp] theorem hwComplete_id (ehw : EdmaHw) (q idx r : Nat) (txcmpl : EdmaTxcmplDesc) :
    ((ehw.hwComplete q idx txcmpl).txcmplRing r).id = (ehw.txcmplRing r).id := by
  by_cases hr : r = q
  · subst hr
    simp only [EdmaHw.hwComplete, Function.update_self]
  · simp only [EdmaHw.hwComplete, Function.update_of_ne hr]

@[simp] theorem hwComplete_count (ehw : EdmaHw) (q idx r : Nat) (txcmpl : EdmaTxcmplDesc) :
    ((ehw.hwComplete q idx txcmpl).txcmplRing r).count = (ehw.txcmplRing r).count := by
  by_cases hr : r = q
  · subst hr
    simp only [EdmaHw.hwComplete, Function.update_self]
  · simp only [EdmaHw.hwComplete, Function.update_of_ne hr]

/-- The hardware writes a completion and moves the producer index of its ring. -/
theorem ringsAt_post (hshape : RingsShape ehw) (q idx : Nat) (txcmpl : EdmaTxcmplDesc) {next : Nat}
    (hnext : next < 2 ^ 16) :
    RingsAt ehw ((ehw.hwComplete q idx txcmpl).hwIdx (.txcmplProdIdx (ehw.txcmplRing q).id) next)
      ehw.txProd ehw.txCons (Function.update ehw.cmplProd q next) ehw.cmplCons := by
  have hids : (fun r => (((ehw.hwComplete q idx txcmpl).hwIdx
      (.txcmplProdIdx (ehw.txcmplRing q).id) next).txcmplRing r).id) =
      fun r => (ehw.txcmplRing r).id := by
    funext r
    exact hwComplete_id ehw q idx r txcmpl
  have hothers : ∀ r, r ≠ .txcmplProdIdx (ehw.txcmplRing q).id →
      ((ehw.hwComplete q idx txcmpl).hwIdx
        (.txcmplProdIdx (ehw.txcmplRing q).id) next).regIdx r = ehw.regIdx r :=
    fun r hr => hwIdx_regIdx_of_ne _ _ hr
  refine ⟨rfl, rfl, hids, ?_, ?_, ?_, ?_, ?_⟩
  · funext r
    exact hwComplete_count ehw q idx r txcmpl
  · exact idx_same .txdescProdIdx rfl (by simp) hothers
  · exact idx_same .txdescConsIdx rfl (by simp) hothers
  · exact idx_moved .txcmplProdIdx hids (fun _ _ h => EdmaReg.txcmplProdIdx.inj h)
      (fun q q' h => hshape.cmplId q q' h) (hwIdx_regIdx_self _ _ hnext) hothers
  · exact idx_same .txcmplConsIdx hids (by simp) hothers

/-- The poll moves the consumer index of a TXCMPL ring. -/
theorem ringsAt_clean (hshape : RingsShape ehw) {q next : Nat}
    (htxdesc : ehw'.txdescRing = ehw.txdescRing) (htxcmpl : ehw'.txcmplRing = ehw.txcmplRing)
    (hself : ehw'.cmplCons q = next)
    (hothers : ∀ r, r ≠ .txcmplConsIdx (ehw.txcmplRing q).id → ehw'.regIdx r = ehw.regIdx r) :
    RingsAt ehw ehw' ehw.txProd ehw.txCons ehw.cmplProd (Function.update ehw.cmplCons q next) := by
  have hids : (fun t => (ehw'.txdescRing t).id) = fun t => (ehw.txdescRing t).id := by rw [htxdesc]
  have hcmplIds : (fun q => (ehw'.txcmplRing q).id) = fun q => (ehw.txcmplRing q).id := by
    rw [htxcmpl]
  refine ⟨hids, by rw [htxdesc], hcmplIds, by rw [htxcmpl], ?_, ?_, ?_, ?_⟩
  · exact idx_same .txdescProdIdx hids (by simp) hothers
  · exact idx_same .txdescConsIdx hids (by simp) hothers
  · exact idx_same .txcmplProdIdx hcmplIds (by simp) hothers
  · refine idx_moved .txcmplConsIdx hcmplIds (fun _ _ h => EdmaReg.txcmplConsIdx.inj h)
      (fun q q' h => hshape.cmplId q q' h) ?_ hothers
    rwa [EdmaHw.cmplCons, htxcmpl] at hself

end Indices

section Effects

variable {s s' : RingsRun} {ring : Nat} {skb : SkBuff}

/-- A call begins, goes on or ends, and everything else stays where it is. -/
theorem places_call (pick : XmitCall → Bool) {c : Option XmitCall}
    (hcalls : s'.calls = Function.update s.calls ring c)
    (hqueued : s'.ehw.queued = s.ehw.queued) (hpending : s'.ehw.pending = s.ehw.pending)
    (hpacket : s'.packet = s.packet) (hflight : s'.inFlight = s.inFlight)
    (hdone : s'.done = s.done) :
    s'.places pick = Function.update (s.places pick) (.call ring)
      (c.bind fun call => if pick call then some call.framed else none) := by
  funext p
  by_cases hp : p = .call ring
  · subst hp
    simp only [RingsRun.places, hcalls, Function.update_self]
  · rw [Function.update_of_ne hp]
    cases p with
    | call r =>
      have hne : r ≠ ring := fun h => hp (h ▸ rfl)
      simp only [RingsRun.places, hcalls, Function.update_of_ne hne]
    | desc r idx => simp only [RingsRun.places, hqueued, hpacket]
    | flight skb => simp only [RingsRun.places, hflight]
    | cmpl q idx => simp only [RingsRun.places, hpending, hdone]

/-- The packet of a call is published in a descriptor. -/
theorem places_publish (pick : XmitCall → Bool) {prod : Nat} (hnot : prod ∉ s.ehw.queued ring)
    (hcalls : s'.calls = Function.update s.calls ring none)
    (hqueued : s'.ehw.queued =
      Function.update s.ehw.queued ring (s.ehw.queued ring ++ [prod]))
    (hpending : s'.ehw.pending = s.ehw.pending)
    (hpacket : s'.packet = Function.update s.packet ring
      (Function.update (s.packet ring) prod (some skb)))
    (hflight : s'.inFlight = s.inFlight) (hdone : s'.done = s.done) :
    s'.places pick = Function.update (Function.update (s.places pick) (.call ring) none)
      (.desc ring prod) (some skb) := by
  funext p
  cases p with
  | call r =>
    rw [Function.update_of_ne (by simp)]
    by_cases hr : r = ring
    · subst hr
      simp only [RingsRun.places, hcalls, Function.update_self, Option.bind_none]
    · rw [Function.update_of_ne (by simpa using hr)]
      simp only [RingsRun.places, hcalls, Function.update_of_ne hr]
  | desc r idx =>
    by_cases hr : r = ring
    · subst hr
      by_cases hidx : idx = prod
      · subst hidx
        simp only [RingsRun.places, hqueued, hpacket, Function.update_self, List.mem_append,
          List.mem_singleton, or_true, if_true]
      · rw [Function.update_of_ne (by simpa using hidx), Function.update_of_ne (by simp)]
        simp only [RingsRun.places, hqueued, hpacket, Function.update_self, List.mem_append,
          List.mem_singleton, hidx, or_false, Function.update_of_ne hidx]
    · rw [Function.update_of_ne (by simp [hr]), Function.update_of_ne (by simp)]
      simp only [RingsRun.places, hqueued, hpacket, Function.update_of_ne hr]
  | flight skb =>
    rw [Function.update_of_ne (by simp), Function.update_of_ne (by simp)]
    simp only [RingsRun.places, hflight]
  | cmpl q idx =>
    rw [Function.update_of_ne (by simp), Function.update_of_ne (by simp)]
    simp only [RingsRun.places, hpending, hdone]

/-- The hardware takes a descriptor. -/
theorem places_take (pick : XmitCall → Bool) {cons : Nat} {rest : List Nat}
    (hwindow : s.ehw.queued ring = cons :: rest) (hnot : cons ∉ rest)
    (hcalls : s'.calls = s.calls)
    (hqueued : s'.ehw.queued = Function.update s.ehw.queued ring rest)
    (hpending : s'.ehw.pending = s.ehw.pending) (hpacket : s'.packet = s.packet)
    (hflight : s'.inFlight = s.inFlight ++ [skb]) (hdone : s'.done = s.done) :
    s'.places pick = Function.update (Function.update (s.places pick) (.desc ring cons) none)
      (.flight skb) (some skb) := by
  funext p
  cases p with
  | call r =>
    rw [Function.update_of_ne (by simp), Function.update_of_ne (by simp)]
    simp only [RingsRun.places, hcalls]
  | desc r idx =>
    rw [Function.update_of_ne (by simp)]
    by_cases hr : r = ring
    · subst hr
      by_cases hidx : idx = cons
      · subst hidx
        simp only [RingsRun.places, hqueued, Function.update_self, if_neg hnot]
      · rw [Function.update_of_ne (by simpa using hidx)]
        simp only [RingsRun.places, hqueued, hpacket, Function.update_self, hwindow, List.mem_cons,
          hidx, false_or]
    · rw [Function.update_of_ne (by simp [hr])]
      simp only [RingsRun.places, hqueued, hpacket, Function.update_of_ne hr]
  | flight skb' =>
    by_cases hskb : skb' = skb
    · subst hskb
      simp only [RingsRun.places, hflight, Function.update_self, List.mem_append,
        List.mem_singleton, or_true, if_true]
    · rw [Function.update_of_ne (by simpa using hskb), Function.update_of_ne (by simp)]
      simp only [RingsRun.places, hflight, List.mem_append, List.mem_singleton, hskb, or_false]
  | cmpl q idx =>
    rw [Function.update_of_ne (by simp), Function.update_of_ne (by simp)]
    simp only [RingsRun.places, hpending, hdone]

/-- The hardware completes a packet. -/
theorem places_post (pick : XmitCall → Bool) {q prod : Nat} (hnot : prod ∉ s.ehw.pending q)
    (honce : s.inFlight.Nodup) (hcalls : s'.calls = s.calls)
    (hqueued : s'.ehw.queued = s.ehw.queued)
    (hpending : s'.ehw.pending = Function.update s.ehw.pending q (s.ehw.pending q ++ [prod]))
    (hpacket : s'.packet = s.packet) (hflight : s'.inFlight = s.inFlight.erase skb)
    (hdone : s'.done = Function.update s.done q (Function.update (s.done q) prod (some skb))) :
    s'.places pick = Function.update (Function.update (s.places pick) (.flight skb) none)
      (.cmpl q prod) (some skb) := by
  funext p
  cases p with
  | call r =>
    rw [Function.update_of_ne (by simp), Function.update_of_ne (by simp)]
    simp only [RingsRun.places, hcalls]
  | desc r idx =>
    rw [Function.update_of_ne (by simp), Function.update_of_ne (by simp)]
    simp only [RingsRun.places, hqueued, hpacket]
  | flight skb' =>
    rw [Function.update_of_ne (by simp)]
    by_cases hskb : skb' = skb
    · subst hskb
      simp only [RingsRun.places, hflight, Function.update_self, honce.mem_erase_iff, ne_eq,
        not_true_eq_false, false_and, if_false]
    · rw [Function.update_of_ne (by simpa using hskb)]
      simp only [RingsRun.places, hflight, honce.mem_erase_iff, ne_eq, hskb, not_false_eq_true,
        true_and]
  | cmpl q' idx =>
    by_cases hq : q' = q
    · subst hq
      by_cases hidx : idx = prod
      · subst hidx
        simp only [RingsRun.places, hpending, hdone, Function.update_self, List.mem_append,
          List.mem_singleton, or_true, if_true]
      · rw [Function.update_of_ne (by simpa using hidx), Function.update_of_ne (by simp)]
        simp only [RingsRun.places, hpending, hdone, Function.update_self, List.mem_append,
          List.mem_singleton, hidx, or_false, Function.update_of_ne hidx]
    · rw [Function.update_of_ne (by simp [hq]), Function.update_of_ne (by simp)]
      simp only [RingsRun.places, hpending, hdone, Function.update_of_ne hq]

/-- The place is a completion of the ring `q`. -/
def Place.isCmpl (q : Nat) : Place → Bool
  | .cmpl q' _ => q' == q
  | _ => false

/-- The poll reaps the completions of a ring. -/
theorem places_reap (pick : XmitCall → Bool) {q : Nat} (hcalls : s'.calls = s.calls)
    (hqueued : s'.ehw.queued = s.ehw.queued)
    (hpending : s'.ehw.pending = Function.update s.ehw.pending q [])
    (hpacket : s'.packet = s.packet) (hflight : s'.inFlight = s.inFlight)
    (hdone : s'.done = s.done) :
    s'.places pick = fun p => if p.isCmpl q = true then none else s.places pick p := by
  funext p
  cases p with
  | call r => simp only [RingsRun.places, hcalls, Place.isCmpl, Bool.false_eq_true, if_false]
  | desc r idx =>
    simp only [RingsRun.places, hqueued, hpacket, Place.isCmpl, Bool.false_eq_true, if_false]
  | flight skb' => simp only [RingsRun.places, hflight, Place.isCmpl, Bool.false_eq_true, if_false]
  | cmpl q' idx =>
    simp only [RingsRun.places, hpending, hdone, Place.isCmpl, beq_iff_eq]
    by_cases hq : q' = q
    · subst hq
      simp only [Function.update_self, List.not_mem_nil, if_false, if_true]
    · simp only [Function.update_of_ne hq, if_neg hq]

end Effects

end NssDp.Edma
