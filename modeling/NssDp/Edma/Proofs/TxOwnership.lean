import NssDp.Misc.Lts
import NssDp.Edma.Proofs.RingXmit

/-!
# Who owns a packet given to EDMA

One TXDESC ring and one TXCMPL ring share the transmit store. A slot of the store is in use
from the call that publishes its packet until the completion is reaped: first as a pending
descriptor, then in flight, then as a pending completion. `SlotLedger` is the account of the
slots in use; the steps of driver and hardware move slots along or add and remove them.
-/

namespace NssDp.Edma

open Lts Cyclic Word

/-- A mapping of a buffer. -/
structure DmaMapping where
  addr : BitVec 32
  len : Nat
  skb : SkBuff
  deriving DecidableEq

/-- The mappings a call makes. -/
def mapsOf (events : List KernelEvent) : List (BitVec 32 × Nat) :=
  events.filterMap fun
    | .dmaMapSingle .pdev addr len .toDevice => some (addr, len)
    | _ => none

@[simp] theorem mapsOf_append (xs ys : List KernelEvent) :
    mapsOf (xs ++ ys) = mapsOf xs ++ mapsOf ys := List.filterMap_append

@[simp] theorem mapsOf_tstampEvents (skb : SkBuff) : mapsOf (tstampEvents skb) = [] := by
  unfold tstampEvents
  split <;> rfl

@[simp] theorem mapsOf_map (addr : BitVec 32) (len : Nat) :
    mapsOf [.dmaMapSingle .pdev addr len .toDevice] = [(addr, len)] := rfl

@[simp] theorem mapsOf_free (skb : SkBuff) : mapsOf [.devKfreeSkb skb] = [] := rfl

/-- The buffers a call frees directly after unmapping them. -/
def releasesOf : List KernelEvent → List DmaMapping
  | .dmaUnmapSingle .pdev addr len .toDevice :: .devKfreeSkb skb :: events =>
    ⟨addr, len, skb⟩ :: releasesOf events
  | _ :: events => releasesOf events
  | [] => []

/-- The rings `t` and `q`, and what has happened on them: the buffer each descriptor points
    to, the opaque words of the descriptors taken and not completed, the ids of the packets
    the driver has kept, their mappings, and what was freed by either function. -/
structure DmaRun where
  ehw : EdmaHw
  packet : Nat → Option SkBuff
  inFlight : List (BitVec 32)
  handed : List Nat
  mapped : List DmaMapping
  dropped : List SkBuff
  reaped : List SkBuff
  released : List DmaMapping

/-- A call of the driver or a step of the hardware. -/
inductive DmaLabel where
  | xmit (netdev : NetDevice) (skb : SkBuff) (dma : BitVec 32)
  | take
  | post (word status : BitVec 32)
  | clean

/-- The hardware sets the index in a register. -/
def EdmaHw.hwIdx (ehw : EdmaHw) (reg : EdmaReg) (idx : Nat) : EdmaHw :=
  { ehw with regs := Function.update ehw.regs reg (BitVec.ofNat 32 idx) }

/-- The hardware writes a completion. -/
def EdmaHw.hwComplete (ehw : EdmaHw) (ring idx : Nat) (txcmpl : EdmaTxcmplDesc) : EdmaHw :=
  { ehw with
    txcmplRing := Function.update ehw.txcmplRing ring
      { ehw.txcmplRing ring with desc := Function.update (ehw.txcmplRing ring).desc idx txcmpl } }

theorem hwIdx_regIdx_self (ehw : EdmaHw) (reg : EdmaReg) {idx : Nat} (hidx : idx < 2 ^ 16) :
    (ehw.hwIdx reg idx).regIdx reg = idx := EdmaHw.regWrite_regIdx_self ehw reg hidx

theorem hwIdx_regIdx_of_ne (ehw : EdmaHw) {reg r : EdmaReg} (idx : Nat) (hne : r ≠ reg) :
    (ehw.hwIdx reg idx).regIdx r = ehw.regIdx r := EdmaHw.regWrite_regIdx_of_ne ehw reg _ hne

/-- Nothing has happened on the rings. -/
def DmaRun.start (ehw : EdmaHw) : DmaRun := ⟨ehw, fun _ => none, [], [], [], [], [], []⟩

/-- The caller of `edma_ring_xmit` has made room for the preheader and does not hand over a
    packet again that the driver has kept. The hardware takes descriptors in ring order, and
    completes what it has taken in any order while the TXCMPL ring has room. -/
def dmaStep (virtToPhys : Nat → BitVec 32) (t q : Nat) (s : DmaRun) (a : DmaLabel) :
    Option DmaRun :=
  match a with
  | .xmit netdev skb dma =>
    if skb.headroom < edmaTxPrehdrSize ∨ skb.id ∈ s.handed then none
    else
      match edmaRingXmit s.ehw netdev skb t dma with
      | .error _ => none
      | .ok r =>
        some { s with
          ehw := r.ehw
          packet := if mapsOf r.events = [] then s.packet
            else Function.update s.packet (s.ehw.txProd t) (some r.skb)
          handed := if r.ret = .ok then s.handed ++ [skb.id] else s.handed
          mapped := s.mapped ++ (mapsOf r.events).map fun m => ⟨m.1, m.2, r.skb⟩
          dropped := s.dropped ++ freedSkbs r.events }
  | .take =>
    if s.ehw.txCons t = s.ehw.txProd t then none
    else
      (s.packet (s.ehw.txCons t)).map fun skb =>
        { s with
          inFlight := s.inFlight ++ [readLe32 skb.payload]
          ehw := s.ehw.hwIdx (.txdescConsIdx (s.ehw.txdescRing t).id)
            ((s.ehw.txCons t + 1) % (s.ehw.txdescRing t).count) }
  | .post word status =>
    let next := (s.ehw.cmplProd q + 1) % (s.ehw.txcmplRing q).count
    if word ∉ s.inFlight ∨ next = s.ehw.cmplCons q then none
    else
      some { s with
        inFlight := s.inFlight.erase word
        ehw := (s.ehw.hwComplete q (s.ehw.cmplProd q) ⟨word, status⟩).hwIdx
          (.txcmplProdIdx (s.ehw.txcmplRing q).id) next }
  | .clean =>
    (edmaCleanTx virtToPhys s.ehw q).map fun r =>
      { s with
        ehw := r.ehw
        reaped := s.reaped ++ freedSkbs r.events
        released := s.released ++ releasesOf r.events }

/-- The rings and the store before the first packet; a size is 16 bits wide. -/
structure TxIdle (t q : Nat) (ehw : EdmaHw) : Prop where
  count : ∃ k ≤ 15, (ehw.txdescRing t).count = 2 ^ k
  cmplCount : ∃ k ≤ 15, (ehw.txcmplRing q).count = 2 ^ k
  prod : ehw.txProd t = ehw.txCons t
  prod_lt : ehw.txProd t < (ehw.txdescRing t).count
  cmplProd : ehw.cmplProd q = ehw.cmplCons q
  cmplProd_lt : ehw.cmplProd q < (ehw.txcmplRing q).count
  store : ∀ i, ehw.txSkbStore i = none

/-- What the driver promises: every mapped packet is in one slot or has been freed once,
    after the mapping that was made for it was undone; a call overwrites no slot in use; and
    a call of `edma_clean_tx` returns, has taken all completions that were pending, and has
    found a packet for each. -/
structure DmaOwned (virtToPhys : Nat → BitVec 32) (t q : Nat) (s : DmaRun) : Prop where
  owned : ∀ m ∈ s.mapped,
    ((∃! i, s.ehw.txSkbStore i = some m.skb) ∧ (s.dropped ++ s.reaped).count m.skb = 0 ∧
        m ∉ s.released) ∨
      ((∀ i, s.ehw.txSkbStore i ≠ some m.skb) ∧ (s.dropped ++ s.reaped).count m.skb = 1 ∧
        m.skb ∈ s.reaped ∧ s.released.count m = 1)
  kept : ∀ netdev skb dma r, edmaRingXmit s.ehw netdev skb t dma = .ok r →
    ∀ i p, s.ehw.txSkbStore i = some p → r.ehw.txSkbStore i = some p
  clean : ∃ r, edmaCleanTx virtToPhys s.ehw q = some r ∧ r.invalid = 0 ∧
    r.ret = gap (s.ehw.txcmplRing q).count (s.ehw.cmplCons q) (s.ehw.cmplProd q) ∧
    r.ehw.cmplCons q = s.ehw.cmplProd q

/-- A packet that is accepted fits the 16-bit length of its descriptor, and is mapped at its
    physical address. -/
def XmitFits (virtToPhys : Nat → BitVec 32) (t : Nat) (s : DmaRun) : DmaLabel → Prop
  | .xmit _ skb dma =>
    TxdescFull s.ehw t ∨ StoreBusy s.ehw t ∨ dma = 0#32 ∨
      (skb.payload.length < 2 ^ 16 ∧ dma = virtToPhys (skb.data - edmaTxPrehdrSize))
  | _ => True

/-- What `edma_clean_tx` undoes when it takes a packet from the store. -/
def unmapping (virtToPhys : Nat → BitVec 32) (skb : SkBuff) : DmaMapping :=
  ⟨virtToPhys skb.data, skb.headlen, skb⟩

/-- The account of the slots in use: they are distinct, hold a packet each that carries the
    slot as its opaque word, and what they hold is what was mapped and not yet released. -/
structure SlotLedger (virtToPhys : Nat → BitVec 32) (slots : List Nat)
    (store : Nat → Option SkBuff) (mapped released : List DmaMapping) : Prop where
  nodup : slots.Nodup
  lt : ∀ i ∈ slots, i < 2 ^ 32
  used : ∀ i, (store i).isSome = true ↔ i ∈ slots
  tag : ∀ i skb, store i = some skb → readLe32 skb.payload = BitVec.ofNat 32 i
  conserved : mapped.Perm (released ++ (slots.filterMap store).map (unmapping virtToPhys))

namespace SlotLedger

variable {virtToPhys : Nat → BitVec 32} {slots slots' gone : List Nat}
variable {store : Nat → Option SkBuff} {mapped released : List DmaMapping}

theorem empty (virtToPhys : Nat → BitVec 32) (hstore : ∀ i, store i = none) :
    SlotLedger virtToPhys [] store [] [] :=
  ⟨List.nodup_nil, fun _ hi => (List.not_mem_nil hi).elim, fun i => by simp [hstore i],
    fun i skb h => by simp [hstore i] at h, List.Perm.refl _⟩

/-- A slot may change its place. -/
theorem perm (h : SlotLedger virtToPhys slots store mapped released) (hperm : slots.Perm slots') :
    SlotLedger virtToPhys slots' store mapped released := by
  refine ⟨hperm.nodup_iff.mp h.nodup, fun i hi => h.lt i (hperm.mem_iff.mpr hi),
    fun i => (h.used i).trans hperm.mem_iff, h.tag, ?_⟩
  exact h.conserved.trans (((hperm.filterMap store).map _).append_left released)

/-- A packet is put into a free slot. -/
theorem insert (h : SlotLedger virtToPhys slots store mapped released) {i : Nat}
    (hlt : i < 2 ^ 32) (hfree : store i = none) {skb : SkBuff}
    (htag : readLe32 skb.payload = BitVec.ofNat 32 i) :
    SlotLedger virtToPhys (i :: slots) (Function.update store i (some skb))
      (mapped ++ [unmapping virtToPhys skb]) released := by
  have hnot : i ∉ slots := fun hi => by
    have hsome := (h.used i).mpr hi
    rw [hfree] at hsome
    cases hsome
  refine ⟨List.nodup_cons.mpr ⟨hnot, h.nodup⟩, ?_, ?_, ?_, ?_⟩
  · intro j hj
    rcases List.mem_cons.mp hj with rfl | hj
    · exact hlt
    · exact h.lt j hj
  · intro j
    rcases eq_or_ne j i with rfl | hne
    · simp
    · rw [Function.update_of_ne hne, h.used j, List.mem_cons]
      exact (or_iff_right hne).symm
  · intro j p hp
    rcases eq_or_ne j i with rfl | hne
    · rw [Function.update_self] at hp
      cases hp
      exact htag
    · rw [Function.update_of_ne hne] at hp
      exact h.tag j p hp
  · have hrest : slots.filterMap (Function.update store i (some skb)) = slots.filterMap store :=
      List.filterMap_congr fun j hj => Function.update_of_ne (ne_of_mem_of_not_mem hj hnot) _ _
    rw [List.filterMap_cons_some (Function.update_self i (some skb) store), hrest, List.map_cons]
    apply (h.conserved.append_right _).trans
    rw [List.append_assoc]
    exact (List.perm_append_singleton _ _).append_left released

/-- Packets are taken out of the store. -/
theorem release (h : SlotLedger virtToPhys (slots ++ gone) store mapped released) :
    SlotLedger virtToPhys slots (clearSlots store gone) mapped
      (released ++ (gone.filterMap store).map (unmapping virtToPhys)) := by
  obtain ⟨hslots, _, hdisj⟩ := List.nodup_append.mp h.nodup
  have hnot : ∀ i ∈ slots, i ∉ gone := fun i hi hgone => hdisj i hi i hgone rfl
  have hsame : ∀ i ∈ slots, clearSlots store gone i = store i := fun i hi => if_neg (hnot i hi)
  refine ⟨hslots, fun i hi => h.lt i (List.mem_append_left _ hi), ?_, ?_, ?_⟩
  · intro i
    have hused := h.used i
    rw [List.mem_append] at hused
    rw [clearSlots]
    split
    · rename_i hgone
      exact iff_of_false (by simp) fun hi => hnot i hi hgone
    · rename_i hgone
      rw [hused]
      exact or_iff_left hgone
  · intro i p hp
    rw [clearSlots] at hp
    split at hp
    · cases hp
    · exact h.tag i p hp
  · rw [List.filterMap_congr hsame, List.append_assoc]
    refine h.conserved.trans (List.Perm.append_left released ?_)
    rw [List.filterMap_append, List.map_append]
    exact List.perm_append_comm

/-- Different slots hold packets with different opaque words. -/
theorem store_inj (h : SlotLedger virtToPhys slots store mapped released) {i j : Nat}
    {skb : SkBuff} (hi : store i = some skb) (hj : store j = some skb) : i = j := by
  have hlt : ∀ k, store k = some skb → k < 2 ^ 32 := fun k hk =>
    h.lt k ((h.used k).mp (by rw [hk]; rfl))
  have hword := (h.tag i skb hi).symm.trans (h.tag j skb hj)
  have hnat := congrArg BitVec.toNat hword
  simpa only [BitVec.toNat_ofNat, Nat.mod_eq_of_lt (hlt i hi), Nat.mod_eq_of_lt (hlt j hj)]
    using hnat

end SlotLedger

/-- The slots in use, by where they stand: pending descriptors, in flight, pending
    completions. -/
def busySlots (n cons prod : Nat) (inFlight : List (BitVec 32)) (ring : EdmaTxcmplRing)
    (cmplCons cmplProd : Nat) : List Nat :=
  window n cons (gap n cons prod) ++ inFlight.map BitVec.toNat ++
    completedSlots ring cmplCons (gap ring.count cmplCons cmplProd)

section BusySlots

variable {n cons prod cmplCons cmplProd : Nat} {inFlight : List (BitVec 32)}
variable {ring : EdmaTxcmplRing}

theorem busySlots_push (hcons : cons < n) (hprod : prod < n) (hroom : (prod + 1) % n ≠ cons) :
    (prod :: busySlots n cons prod inFlight ring cmplCons cmplProd).Perm
      (busySlots n cons ((prod + 1) % n) inFlight ring cmplCons cmplProd) := by
  rw [busySlots, busySlots, window_push hcons hprod hroom]
  simp only [List.append_assoc, List.cons_append, List.nil_append]
  exact List.perm_middle.symm

theorem busySlots_take (hcons : cons < n) (hprod : prod < n) (hne : cons ≠ prod)
    {word : BitVec 32} (hword : word.toNat = cons) :
    (busySlots n cons prod inFlight ring cmplCons cmplProd).Perm
      (busySlots n ((cons + 1) % n) prod (inFlight ++ [word]) ring cmplCons cmplProd) := by
  rw [busySlots, busySlots, window_take hcons hprod hne, List.map_append, List.map_cons,
    List.map_nil, hword]
  simp only [List.append_assoc, List.cons_append, List.nil_append]
  rw [← List.append_assoc, ← List.append_assoc]
  exact List.perm_middle.symm

/-- The ring after the hardware has written a completion at the producer index. -/
theorem completedSlots_post (hcons : cmplCons < ring.count) (hprod : cmplProd < ring.count)
    (hroom : (cmplProd + 1) % ring.count ≠ cmplCons) (txcmpl : EdmaTxcmplDesc) :
    completedSlots { ring with desc := Function.update ring.desc cmplProd txcmpl } cmplCons
        (gap ring.count cmplCons ((cmplProd + 1) % ring.count)) =
      completedSlots ring cmplCons (gap ring.count cmplCons cmplProd) ++
        [txcmpl.bufferAddr.toNat] := by
  have hlt := gap_lt (Nat.zero_lt_of_lt hcons) cmplCons cmplProd
  have hnot : cmplProd ∉ window ring.count cmplCons (gap ring.count cmplCons cmplProd) := by
    have := @slot_notMem_window _ cmplCons _ hlt
    rwa [slot_gap hcons hprod] at this
  rw [completedSlots, window_push hcons hprod hroom, List.map_append, completedSlots]
  simp only [List.map_cons, List.map_nil, Function.update_self]
  congr 1
  exact List.map_congr_left fun i hi => by
    rw [Function.update_of_ne (ne_of_mem_of_not_mem hi hnot)]

theorem busySlots_post (hcons : cmplCons < ring.count) (hprod : cmplProd < ring.count)
    (hroom : (cmplProd + 1) % ring.count ≠ cmplCons) {word : BitVec 32} (hword : word ∈ inFlight)
    (status : BitVec 32) :
    (busySlots n cons prod inFlight ring cmplCons cmplProd).Perm
      (busySlots n cons prod (inFlight.erase word)
        { ring with desc := Function.update ring.desc cmplProd ⟨word, status⟩ } cmplCons
        ((cmplProd + 1) % ring.count)) := by
  rw [busySlots, busySlots, completedSlots_post hcons hprod hroom]
  have hflight := (List.perm_cons_erase hword).map BitVec.toNat
  rw [List.append_assoc, List.append_assoc]
  apply List.Perm.append_left _
  apply (hflight.append_right _).trans
  rw [List.map_cons, ← List.append_assoc]
  exact (List.perm_append_singleton _ _).symm

theorem busySlots_clean :
    busySlots n cons prod inFlight ring cmplCons cmplProd =
      busySlots n cons prod inFlight ring cmplProd cmplProd ++
        completedSlots ring cmplCons (gap ring.count cmplCons cmplProd) := by
  simp [busySlots, completedSlots]

end BusySlots

/-- The slots in use in a state. -/
def DmaRun.busy (t q : Nat) (s : DmaRun) : List Nat :=
  busySlots (s.ehw.txdescRing t).count (s.ehw.txCons t) (s.ehw.txProd t) s.inFlight
    (s.ehw.txcmplRing q) (s.ehw.cmplCons q) (s.ehw.cmplProd q)

/-- The descriptors published and not taken. -/
def DmaRun.queued (t : Nat) (s : DmaRun) : List Nat :=
  window (s.ehw.txdescRing t).count (s.ehw.txCons t)
    (gap (s.ehw.txdescRing t).count (s.ehw.txCons t) (s.ehw.txProd t))

/-- The ids of the packets the driver has kept. -/
def DmaRun.ids (s : DmaRun) : List Nat :=
  s.mapped.map (fun m => m.skb.id) ++ s.dropped.map SkBuff.id

/-- What every step keeps. -/
structure DmaInv (virtToPhys : Nat → BitVec 32) (t q : Nat) (s : DmaRun) : Prop where
  count : ∃ k ≤ 15, (s.ehw.txdescRing t).count = 2 ^ k
  cmplCount : ∃ k ≤ 15, (s.ehw.txcmplRing q).count = 2 ^ k
  prod_lt : s.ehw.txProd t < (s.ehw.txdescRing t).count
  cons_lt : s.ehw.txCons t < (s.ehw.txdescRing t).count
  cmplProd_lt : s.ehw.cmplProd q < (s.ehw.txcmplRing q).count
  cmplCons_lt : s.ehw.cmplCons q < (s.ehw.txcmplRing q).count
  ledger : SlotLedger virtToPhys (s.busy t q) s.ehw.txSkbStore s.mapped s.released
  packet : ∀ i ∈ s.queued t, s.packet i = s.ehw.txSkbStore i
  fresh : s.ids.Nodup
  handed : ∀ id ∈ s.ids, id ∈ s.handed
  reaped : s.reaped = s.released.map fun m => m.skb

namespace DmaInv

variable {virtToPhys : Nat → BitVec 32} {t q : Nat} {s : DmaRun}

theorem start {ehw : EdmaHw} (hidle : TxIdle t q ehw) : DmaInv virtToPhys t q (.start ehw) := by
  have hcons : ehw.txCons t < (ehw.txdescRing t).count := hidle.prod ▸ hidle.prod_lt
  have hcmplCons : ehw.cmplCons q < (ehw.txcmplRing q).count := hidle.cmplProd ▸ hidle.cmplProd_lt
  refine ⟨hidle.count, hidle.cmplCount, hidle.prod_lt, hcons, hidle.cmplProd_lt, hcmplCons,
    ?_, ?_, List.nodup_nil, fun _ hid => (List.not_mem_nil hid).elim, rfl⟩
  · have hbusy : DmaRun.busy t q (.start ehw) = [] := by
      simp [DmaRun.busy, DmaRun.start, busySlots, hidle.prod, hidle.cmplProd, completedSlots]
    rw [hbusy]
    exact SlotLedger.empty virtToPhys hidle.store
  · intro i hi
    simp [DmaRun.queued, DmaRun.start, hidle.prod] at hi

/-- The slot the driver computes is the producer index itself. -/
theorem txSlot_eq (h : DmaInv virtToPhys t q s) : s.ehw.txSlot t = s.ehw.txProd t := by
  obtain ⟨k, _, hcount⟩ := h.count
  have hlt := h.prod_lt
  rw [EdmaHw.txSlot, hcount, and_mask, Nat.mod_eq_of_lt (hcount ▸ hlt)]

theorem next_eq (h : DmaInv virtToPhys t q s) :
    u16 (s.ehw.txProd t + 1 &&& (s.ehw.txdescRing t).count - 1) =
      (s.ehw.txProd t + 1) % (s.ehw.txdescRing t).count := by
  obtain ⟨k, hk, hcount⟩ := h.count
  rw [hcount]
  exact txdesc_next hk

theorem txdescFull_iff (h : DmaInv virtToPhys t q s) : TxdescFull s.ehw t ↔
    (s.ehw.txProd t + 1) % (s.ehw.txdescRing t).count = s.ehw.txCons t := by
  rw [TxdescFull, h.next_eq]

/-- A step that leaves the rings and the store as they are. -/
theorem same (h : DmaInv virtToPhys t q s) {ehw' : EdmaHw} (hsame : SameRings t q s.ehw ehw')
    (hprod : ehw'.txProd t = s.ehw.txProd t) (hstore : ehw'.txSkbStore = s.ehw.txSkbStore) :
    DmaInv virtToPhys t q { s with ehw := ehw' } := by
  obtain ⟨hcount, hcmplRing, hcons, hcmplProd, hcmplCons⟩ := hsame
  have hbusy : DmaRun.busy t q { s with ehw := ehw' } = s.busy t q := by
    simp only [DmaRun.busy, hcount, hcmplRing, hcons, hcmplProd, hcmplCons, hprod]
  have hqueued : DmaRun.queued t { s with ehw := ehw' } = s.queued t := by
    simp only [DmaRun.queued, hcount, hcons, hprod]
  refine ⟨?_, ?_, ?_, ?_, ?_, ?_, ?_, ?_, h.fresh, h.handed, h.reaped⟩
  · simpa only [hcount] using h.count
  · simpa only [hcmplRing] using h.cmplCount
  · simpa only [hcount, hprod] using h.prod_lt
  · simpa only [hcount, hcons] using h.cons_lt
  · simpa only [hcmplRing, hcmplProd] using h.cmplProd_lt
  · simpa only [hcmplRing, hcmplCons] using h.cmplCons_lt
  · rw [hbusy]
    simpa only [hstore] using h.ledger
  · rw [hqueued]
    simpa only [hstore] using h.packet

/-- What the driver undoes later is the mapping it made, where the packet fits. -/
theorem mapping_eq {netdev : NetDevice} {slot : Nat} {skb : SkBuff} {dma : BitVec 32}
    (hlen : skb.payload.length < 2 ^ 16)
    (hdma : dma = virtToPhys (skb.data - edmaTxPrehdrSize)) :
    (⟨dma, u16 skb.headlen + edmaTxPrehdrSize, framed netdev slot skb⟩ : DmaMapping) =
      unmapping virtToPhys (framed netdev slot skb) := by
  have hold : u16 skb.headlen = skb.payload.length := by
    rw [SkBuff.headlen_eq, u32_of_lt (by omega), u16_of_lt hlen]
  have hnew : (framed netdev slot skb).headlen = skb.payload.length + edmaTxPrehdrSize := by
    have hlength : (framed netdev slot skb).payload.length =
        edmaTxPrehdrSize + skb.payload.length := by
      simp [framed]
    rw [SkBuff.headlen_eq, hlength, u32_of_lt (by unfold edmaTxPrehdrSize; omega), Nat.add_comm]
  rw [unmapping, hnew, hold, hdma]
  rfl

/-- A packet the driver keeps has an id it has not kept before. -/
theorem ids_append (h : DmaInv virtToPhys t q s) {id : Nat} (hnew : id ∉ s.handed)
    (ids : List Nat) (hperm : ids.Perm (id :: s.ids)) :
    ids.Nodup ∧ ∀ i ∈ ids, i ∈ s.handed ++ [id] := by
  refine ⟨hperm.nodup_iff.mpr (List.nodup_cons.mpr ⟨fun hid => hnew (h.handed id hid), h.fresh⟩),
    fun i hi => ?_⟩
  rw [List.mem_append, List.mem_singleton]
  rcases List.mem_cons.mp (hperm.mem_iff.mp hi) with rfl | hi
  · exact Or.inr rfl
  · exact Or.inl (h.handed i hi)

/-- A packet `skb` is published at the producer index. -/
theorem publish (h : DmaInv virtToPhys t q s) (skb : SkBuff) {ehw' : EdmaHw}
    (hnew : skb.id ∉ s.handed)
    (hroom : (s.ehw.txProd t + 1) % (s.ehw.txdescRing t).count ≠ s.ehw.txCons t)
    (hnone : s.ehw.txSkbStore (s.ehw.txProd t) = none)
    (htag : readLe32 skb.payload = BitVec.ofNat 32 (s.ehw.txProd t))
    (hsame : SameRings t q s.ehw ehw')
    (hprod : ehw'.txProd t = (s.ehw.txProd t + 1) % (s.ehw.txdescRing t).count)
    (hstore : ehw'.txSkbStore = Function.update s.ehw.txSkbStore (s.ehw.txProd t) (some skb)) :
    DmaInv virtToPhys t q { s with
      ehw := ehw'
      packet := Function.update s.packet (s.ehw.txProd t) (some skb)
      handed := s.handed ++ [skb.id]
      mapped := s.mapped ++ [unmapping virtToPhys skb] } := by
  obtain ⟨hcount, hcmplRing, hcons, hcmplProd, hcmplCons⟩ := hsame
  obtain ⟨hids, hhanded⟩ := h.ids_append hnew
      ((s.mapped ++ [unmapping virtToPhys skb]).map (fun m => m.skb.id) ++
        s.dropped.map SkBuff.id) (by
    rw [List.map_append, List.append_assoc]
    exact List.perm_middle)
  refine ⟨?_, ?_, ?_, ?_, ?_, ?_, ?_, ?_, hids, hhanded, h.reaped⟩
  · simpa only [hcount] using h.count
  · simpa only [hcmplRing] using h.cmplCount
  · simpa only [hcount, hprod] using Nat.mod_lt _ (Nat.zero_lt_of_lt h.cons_lt)
  · simpa only [hcount, hcons] using h.cons_lt
  · simpa only [hcmplRing, hcmplProd] using h.cmplProd_lt
  · simpa only [hcmplRing, hcmplCons] using h.cmplCons_lt
  · have hbusy := @busySlots_push _ _ _ (s.ehw.cmplCons q) (s.ehw.cmplProd q) s.inFlight
      (s.ehw.txcmplRing q) h.cons_lt h.prod_lt hroom
    have hlt : s.ehw.txProd t < 2 ^ 32 := by
      have hcount := lt_of_pow h.count
      have hprod := h.prod_lt
      omega
    simp only [DmaRun.busy, hcount, hcmplRing, hcons, hcmplProd, hcmplCons, hprod, hstore]
    exact (h.ledger.insert hlt hnone htag).perm hbusy
  · have hnot : s.ehw.txProd t ∉ s.queued t := fun hmem => by
      have hused := (h.ledger.used (s.ehw.txProd t)).mpr
        (List.mem_append_left _ (List.mem_append_left _ hmem))
      rw [hnone] at hused
      cases hused
    intro i hi
    simp only [DmaRun.queued, hcount, hcons, hprod, window_push h.cons_lt h.prod_lt hroom,
      List.mem_append, List.mem_singleton] at hi
    simp only [hstore]
    rcases hi with hi | rfl
    · have hne := ne_of_mem_of_not_mem hi hnot
      rw [Function.update_of_ne hne, Function.update_of_ne hne]
      exact h.packet i hi
    · rw [Function.update_self, Function.update_self]

/-- A packet could not be mapped. -/
theorem drop (h : DmaInv virtToPhys t q s) {skb : SkBuff} (hnew : skb.id ∉ s.handed)
    (skb' : SkBuff) (hid : skb'.id = skb.id) (hfree : ¬ StoreBusy s.ehw t) :
    DmaInv virtToPhys t q { s with
      ehw := s.ehw.xmitUnmapped t skb'
      handed := s.handed ++ [skb.id]
      dropped := s.dropped ++ [skb'] } := by
  have hsame := h.same (xmitUnmapped_same s.ehw t q skb') (xmitUnmapped_txProd s.ehw t skb')
    (xmitUnmapped_txSkbStore hfree skb')
  obtain ⟨hids, hhanded⟩ := h.ids_append hnew (s.mapped.map (fun m => m.skb.id) ++
      (s.dropped ++ [skb']).map SkBuff.id) (by
    rw [List.map_append, ← List.append_assoc, List.map_cons, List.map_nil, hid]
    exact List.perm_append_singleton _ _)
  exact ⟨hsame.count, hsame.cmplCount, hsame.prod_lt, hsame.cons_lt, hsame.cmplProd_lt,
    hsame.cmplCons_lt, hsame.ledger, hsame.packet, hids, hhanded, h.reaped⟩

theorem step_xmit (h : DmaInv virtToPhys t q s) {netdev : NetDevice} {skb : SkBuff}
    {dma : BitVec 32} {s' : DmaRun}
    (hfits : XmitFits virtToPhys t s (.xmit netdev skb dma))
    (hstep : dmaStep virtToPhys t q s (.xmit netdev skb dma) = some s') :
    DmaInv virtToPhys t q s' := by
  simp only [dmaStep] at hstep
  split at hstep
  · cases hstep
  · rename_i henabled
    rw [not_or, Nat.not_lt] at henabled
    obtain ⟨hhead, hnew⟩ := henabled
    by_cases hfull : TxdescFull s.ehw t
    · rw [edmaRingXmit_full hfull] at hstep
      cases hstep
      have hsame := h.same (xmitRead_same s.ehw t q) rfl rfl
      simpa [mapsOf] using hsame
    · by_cases hbusy : StoreBusy s.ehw t
      · rw [edmaRingXmit_storeBusy hhead hfull hbusy] at hstep
        cases hstep
        have hsame := h.same (xmitRead_same s.ehw t q) rfl rfl
        simpa using hsame
      · by_cases hdma : dma = 0#32
        · subst hdma
          rw [edmaRingXmit_unmapped hhead hfull hbusy] at hstep
          cases hstep
          have hdrop := h.drop hnew (framed netdev (s.ehw.txSlot t) skb) rfl hbusy
          simpa using hdrop
        · rw [edmaRingXmit_published hhead hfull hbusy hdma] at hstep
          cases hstep
          obtain ⟨hlen, haddr⟩ := ((hfits.resolve_left hfull).resolve_left hbusy).resolve_left hdma
          have hslot := h.txSlot_eq
          have hnone : s.ehw.txSkbStore (s.ehw.txProd t) = none := by
            rw [← hslot]
            simpa [StoreBusy] using hbusy
          have hpub := h.publish (framed netdev (s.ehw.txSlot t) skb) hnew
            (fun heq => hfull (h.txdescFull_iff.mpr heq)) hnone
            (by rw [readLe32_framed, hslot])
            (xmitPublished_same s.ehw t q (framed netdev (s.ehw.txSlot t) skb)
              (u16 skb.headlen) dma)
            ((xmitPublished_txProd _ _ _ _ _).trans h.next_eq)
            (by rw [xmitPublished_txSkbStore, hslot])
          rw [← mapping_eq hlen haddr] at hpub
          simpa using hpub

theorem step_take (h : DmaInv virtToPhys t q s) {s' : DmaRun}
    (hstep : dmaStep virtToPhys t q s .take = some s') : DmaInv virtToPhys t q s' := by
  simp only [dmaStep] at hstep
  split at hstep
  · cases hstep
  · rename_i hne
    obtain ⟨skb, hskb, rfl⟩ := Option.map_eq_some_iff.mp hstep
    have hpos : 0 < (s.ehw.txdescRing t).count := Nat.zero_lt_of_lt h.cons_lt
    have hnext := Nat.mod_lt (s.ehw.txCons t + 1) hpos
    -- the packet behind the descriptor is the one in the store, and carries its slot
    have hqueued : s.ehw.txCons t ∈ s.queued t := by
      rw [DmaRun.queued, window_take h.cons_lt h.prod_lt hne]
      exact List.mem_cons_self
    have hword : (readLe32 skb.payload).toNat = s.ehw.txCons t := by
      have hstored : s.ehw.txSkbStore (s.ehw.txCons t) = some skb :=
        (h.packet _ hqueued).symm.trans hskb
      have hlt := h.cons_lt.trans (lt_of_pow h.count)
      rw [h.ledger.tag _ _ hstored, BitVec.toNat_ofNat, Nat.mod_eq_of_lt (by omega)]
    have hcons : (s.ehw.hwIdx (.txdescConsIdx (s.ehw.txdescRing t).id)
        ((s.ehw.txCons t + 1) % (s.ehw.txdescRing t).count)).txCons t =
          (s.ehw.txCons t + 1) % (s.ehw.txdescRing t).count :=
      hwIdx_regIdx_self _ _ (hnext.trans (lt_of_pow h.count))
    have hprod : (s.ehw.hwIdx (.txdescConsIdx (s.ehw.txdescRing t).id)
        ((s.ehw.txCons t + 1) % (s.ehw.txdescRing t).count)).txProd t = s.ehw.txProd t :=
      hwIdx_regIdx_of_ne _ _ (by simp)
    have hcmplProd : (s.ehw.hwIdx (.txdescConsIdx (s.ehw.txdescRing t).id)
        ((s.ehw.txCons t + 1) % (s.ehw.txdescRing t).count)).cmplProd q = s.ehw.cmplProd q :=
      hwIdx_regIdx_of_ne _ _ (by simp)
    have hcmplCons : (s.ehw.hwIdx (.txdescConsIdx (s.ehw.txdescRing t).id)
        ((s.ehw.txCons t + 1) % (s.ehw.txdescRing t).count)).cmplCons q = s.ehw.cmplCons q :=
      hwIdx_regIdx_of_ne _ _ (by simp)
    refine ⟨h.count, h.cmplCount, ?_, ?_, ?_, ?_, ?_, ?_, h.fresh, h.handed, h.reaped⟩
    · rw [hprod]
      exact h.prod_lt
    · rw [hcons]
      exact hnext
    · rw [hcmplProd]
      exact h.cmplProd_lt
    · rw [hcmplCons]
      exact h.cmplCons_lt
    · simp only [DmaRun.busy, hcons, hprod, hcmplProd, hcmplCons]
      exact h.ledger.perm (busySlots_take h.cons_lt h.prod_lt hne hword)
    · intro i hi
      simp only [DmaRun.queued, hcons, hprod] at hi
      apply h.packet i
      rw [DmaRun.queued, window_take h.cons_lt h.prod_lt hne]
      exact List.mem_cons_of_mem _ hi

theorem step_post (h : DmaInv virtToPhys t q s) {word status : BitVec 32} {s' : DmaRun}
    (hstep : dmaStep virtToPhys t q s (.post word status) = some s') :
    DmaInv virtToPhys t q s' := by
  simp only [dmaStep] at hstep
  split at hstep
  · cases hstep
  · rename_i henabled
    rw [not_or, not_not] at henabled
    obtain ⟨hword, hroom⟩ := henabled
    have hpos : 0 < (s.ehw.txcmplRing q).count := Nat.zero_lt_of_lt h.cmplCons_lt
    have hnext := Nat.mod_lt (s.ehw.cmplProd q + 1) hpos
    obtain ⟨ehw', hehw⟩ : ∃ e, e = (s.ehw.hwComplete q (s.ehw.cmplProd q) ⟨word, status⟩).hwIdx
        (.txcmplProdIdx (s.ehw.txcmplRing q).id)
          ((s.ehw.cmplProd q + 1) % (s.ehw.txcmplRing q).count) := ⟨_, rfl⟩
    have hring : ehw'.txcmplRing q = { s.ehw.txcmplRing q with
        desc := Function.update (s.ehw.txcmplRing q).desc (s.ehw.cmplProd q) ⟨word, status⟩ } := by
      rw [hehw]
      exact Function.update_self _ _ _
    have hid : (ehw'.txcmplRing q).id = (s.ehw.txcmplRing q).id := by rw [hring]
    have hcmplProd : ehw'.cmplProd q =
        (s.ehw.cmplProd q + 1) % (s.ehw.txcmplRing q).count := by
      rw [EdmaHw.cmplProd, hid, hehw]
      exact hwIdx_regIdx_self _ _ (hnext.trans (lt_of_pow h.cmplCount))
    have hcmplCons : ehw'.cmplCons q = s.ehw.cmplCons q := by
      rw [EdmaHw.cmplCons, hid, hehw]
      exact hwIdx_regIdx_of_ne _ _ (by simp)
    have hprod : ehw'.txProd t = s.ehw.txProd t := by
      rw [hehw]
      exact hwIdx_regIdx_of_ne _ _ (by simp)
    have hcons : ehw'.txCons t = s.ehw.txCons t := by
      rw [hehw]
      exact hwIdx_regIdx_of_ne _ _ (by simp)
    have htxdesc : ehw'.txdescRing = s.ehw.txdescRing := by rw [hehw]; rfl
    have hstore : ehw'.txSkbStore = s.ehw.txSkbStore := by rw [hehw]; rfl
    rw [← hehw] at hstep
    cases hstep
    refine ⟨?_, ?_, ?_, ?_, ?_, ?_, ?_, ?_, h.fresh, h.handed, h.reaped⟩
    · simpa only [htxdesc] using h.count
    · simpa only [hring] using h.cmplCount
    · simpa only [htxdesc, hprod] using h.prod_lt
    · simpa only [htxdesc, hcons] using h.cons_lt
    · simpa only [hring, hcmplProd] using hnext
    · simpa only [hring, hcmplCons] using h.cmplCons_lt
    · simp only [DmaRun.busy, htxdesc, hprod, hcons, hcmplProd, hcmplCons, hring, hstore]
      exact h.ledger.perm
        (busySlots_post h.cmplCons_lt h.cmplProd_lt hroom hword status)
    · intro i hi
      simp only [DmaRun.queued, htxdesc, hprod, hcons] at hi
      simp only [hstore]
      exact h.packet i hi

/-- The completions that are pending name distinct slots that are in use. -/
theorem cleanTx_eq (h : DmaInv virtToPhys t q s) :
    ∃ r, edmaCleanTx virtToPhys s.ehw q = some r ∧
      r.ret = gap (s.ehw.txcmplRing q).count (s.ehw.cmplCons q) (s.ehw.cmplProd q) ∧
      r.invalid = 0 ∧ r.ehw.cmplCons q = s.ehw.cmplProd q ∧
      r.events = ((completedSlots (s.ehw.txcmplRing q) (s.ehw.cmplCons q)
        (gap (s.ehw.txcmplRing q).count (s.ehw.cmplCons q) (s.ehw.cmplProd q))).filterMap
          s.ehw.txSkbStore).flatMap (releaseEvents virtToPhys) ∧
      r.ehw.txSkbStore = clearSlots s.ehw.txSkbStore
        (completedSlots (s.ehw.txcmplRing q) (s.ehw.cmplCons q)
          (gap (s.ehw.txcmplRing q).count (s.ehw.cmplCons q) (s.ehw.cmplProd q))) ∧
      r.ehw.txdescRing = s.ehw.txdescRing ∧ r.ehw.txcmplRing = s.ehw.txcmplRing ∧
      ∀ reg, reg ≠ .txcmplConsIdx (s.ehw.txcmplRing q).id →
        r.ehw.regIdx reg = s.ehw.regIdx reg := by
  refine edmaCleanTx_eq virtToPhys (lt_of_pow h.cmplCount) h.cmplProd_lt h.cmplCons_lt rfl ?_
    fun i hi => ?_
  · exact (List.nodup_append.mp h.ledger.nodup).2.1
  · exact (h.ledger.used i).mpr (List.mem_append_right _ hi)

theorem releasesOf_flatMap (l : List SkBuff) :
    releasesOf (l.flatMap (releaseEvents virtToPhys)) = l.map (unmapping virtToPhys) := by
  induction l with
  | nil => rfl
  | cons skb l ih =>
    rw [List.flatMap_cons, List.map_cons, ← ih]
    rfl

theorem freedSkbs_flatMap (l : List SkBuff) :
    freedSkbs (l.flatMap (releaseEvents virtToPhys)) = l := by
  induction l with
  | nil => rfl
  | cons skb l ih =>
    rw [List.flatMap_cons, freedSkbs_append, ih]
    rfl

theorem step_clean (h : DmaInv virtToPhys t q s) {s' : DmaRun}
    (hstep : dmaStep virtToPhys t q s .clean = some s') : DmaInv virtToPhys t q s' := by
  obtain ⟨r, hr, -, -, hcmplCons, hevents, hstore, htxdesc, hcmplRing, hregs⟩ := h.cleanTx_eq
  simp only [dmaStep, hr, Option.map_some, Option.some.injEq] at hstep
  subst hstep
  have hprod : r.ehw.txProd t = s.ehw.txProd t := by
    rw [EdmaHw.txProd, htxdesc]
    exact hregs _ (by simp)
  have hcons : r.ehw.txCons t = s.ehw.txCons t := by
    rw [EdmaHw.txCons, htxdesc]
    exact hregs _ (by simp)
  have hcmplProd : r.ehw.cmplProd q = s.ehw.cmplProd q := by
    rw [EdmaHw.cmplProd, hcmplRing]
    exact hregs _ (by simp)
  have hledger := h.ledger
  rw [DmaRun.busy, busySlots_clean] at hledger
  refine ⟨?_, ?_, ?_, ?_, ?_, ?_, ?_, ?_, h.fresh, h.handed, ?_⟩
  · simpa only [htxdesc] using h.count
  · simpa only [hcmplRing] using h.cmplCount
  · simpa only [htxdesc, hprod] using h.prod_lt
  · simpa only [htxdesc, hcons] using h.cons_lt
  · simpa only [hcmplRing, hcmplProd] using h.cmplProd_lt
  · simpa only [hcmplRing, hcmplCons] using h.cmplProd_lt
  · simp only [DmaRun.busy, htxdesc, hcons, hprod, hcmplRing, hcmplProd, hcmplCons, hstore,
      hevents, releasesOf_flatMap]
    exact hledger.release
  · intro i hi
    simp only [DmaRun.queued, htxdesc, hcons, hprod] at hi
    have hnot : i ∉ completedSlots (s.ehw.txcmplRing q) (s.ehw.cmplCons q)
        (gap (s.ehw.txcmplRing q).count (s.ehw.cmplCons q) (s.ehw.cmplProd q)) := fun hmem =>
      (List.nodup_append.mp h.ledger.nodup).2.2 i (List.mem_append_left _ hi) i hmem rfl
    simp only [hstore, clearSlots, if_neg hnot]
    exact h.packet i hi
  · simp only [hevents, freedSkbs_flatMap, releasesOf_flatMap, List.map_append, List.map_map,
      h.reaped]
    rw [show (fun m : DmaMapping => m.skb) ∘ unmapping virtToPhys = id from rfl, List.map_id]

theorem step (h : DmaInv virtToPhys t q s) {a : DmaLabel} {s' : DmaRun}
    (hfits : XmitFits virtToPhys t s a) (hstep : dmaStep virtToPhys t q s a = some s') :
    DmaInv virtToPhys t q s' := by
  cases a with
  | xmit netdev skb dma => exact h.step_xmit hfits hstep
  | take => exact h.step_take hstep
  | post word status => exact h.step_post hstep
  | clean => exact h.step_clean hstep

/-- The packets the store holds. -/
def held (virtToPhys : Nat → BitVec 32) (t q : Nat) (s : DmaRun) : List DmaMapping :=
  ((s.busy t q).filterMap s.ehw.txSkbStore).map (unmapping virtToPhys)

theorem mem_held (h : DmaInv virtToPhys t q s) {i : Nat} {skb : SkBuff}
    (hskb : s.ehw.txSkbStore i = some skb) : unmapping virtToPhys skb ∈ held virtToPhys t q s := by
  have hi : i ∈ s.busy t q := (h.ledger.used i).mp (by rw [hskb]; rfl)
  exact List.mem_map_of_mem (List.mem_filterMap.mpr ⟨i, hi, hskb⟩)

/-- No id occurs twice among the packets released, held and dropped. -/
theorem nodup_ids (h : DmaInv virtToPhys t q s) :
    (s.released.map (fun m => m.skb.id) ++ (held virtToPhys t q s).map (fun m => m.skb.id) ++
      s.dropped.map SkBuff.id).Nodup := by
  have hperm := (h.ledger.conserved.map fun m => m.skb.id).append_right (s.dropped.map SkBuff.id)
  rw [List.map_append] at hperm
  exact hperm.nodup_iff.mp h.fresh

/-- A packet that is released or held has not been dropped. -/
theorem notMem_dropped (h : DmaInv virtToPhys t q s) {m : DmaMapping} (hm : m ∈ s.mapped) :
    m.skb ∉ s.dropped := fun hdrop =>
  (List.nodup_append.mp h.fresh).2.2 _
    (List.mem_map_of_mem (f := fun m : DmaMapping => m.skb.id) hm) _ (List.mem_map_of_mem hdrop) rfl

theorem owned_of_mem (h : DmaInv virtToPhys t q s) {m : DmaMapping} (hm : m ∈ s.mapped) :
    ((∃! i, s.ehw.txSkbStore i = some m.skb) ∧ (s.dropped ++ s.reaped).count m.skb = 0 ∧
        m ∉ s.released) ∨
      ((∀ i, s.ehw.txSkbStore i ≠ some m.skb) ∧ (s.dropped ++ s.reaped).count m.skb = 1 ∧
        m.skb ∈ s.reaped ∧ s.released.count m = 1) := by
  obtain ⟨hreleased, _, hdisj⟩ := List.nodup_append.mp (List.nodup_append.mp h.nodup_ids).1
  have hdrop := List.count_eq_zero.mpr (h.notMem_dropped hm)
  have hapart : ∀ m₁ ∈ s.released, ∀ m₂ ∈ held virtToPhys t q s, m₁.skb ≠ m₂.skb :=
    fun m₁ h₁ m₂ h₂ heq => hdisj _ (List.mem_map_of_mem (f := fun m : DmaMapping => m.skb.id) h₁) _
      (List.mem_map_of_mem (f := fun m : DmaMapping => m.skb.id) h₂) (congrArg SkBuff.id heq)
  rw [List.count_append, hdrop, Nat.zero_add, h.reaped]
  rcases List.mem_append.mp (h.ledger.conserved.mem_iff.mp hm) with hin | hin
  · refine Or.inr ⟨fun i hi => hapart m hin _ (h.mem_held hi) rfl, ?_, ?_, ?_⟩
    · have hnodup : (s.released.map fun m => m.skb).Nodup := by
        apply List.Nodup.of_map SkBuff.id
        rwa [List.map_map]
      exact List.count_eq_one_of_mem hnodup (List.mem_map_of_mem hin)
    · exact List.mem_map_of_mem hin
    · exact List.count_eq_one_of_mem hreleased.of_map hin
  · obtain ⟨skb, hskb, rfl⟩ := List.mem_map.mp hin
    obtain ⟨i, _, hi⟩ := List.mem_filterMap.mp hskb
    refine Or.inl ⟨⟨i, hi, fun j hj => h.ledger.store_inj hj hi⟩, ?_, fun hrel => ?_⟩
    · apply List.count_eq_zero.mpr
      intro hmem
      obtain ⟨m', hm', heq⟩ := List.mem_map.mp hmem
      exact hapart m' hm' _ hin heq
    · exact hapart _ hrel _ hin rfl

/-- A call overwrites no slot in use. -/
theorem kept {ehw : EdmaHw} {netdev : NetDevice} {skb : SkBuff} {dma : BitVec 32}
    {r : RingXmit} (hr : edmaRingXmit ehw netdev skb t dma = .ok r) {i : Nat} {p : SkBuff}
    (hp : ehw.txSkbStore i = some p) : r.ehw.txSkbStore i = some p := by
  by_cases hfull : TxdescFull ehw t
  · rw [edmaRingXmit_full hfull] at hr
    cases hr
    exact hp
  · rcases Nat.lt_or_ge skb.headroom edmaTxPrehdrSize with hhead | hhead
    · rw [edmaRingXmit_panic hhead hfull] at hr
      cases hr
    · by_cases hbusy : StoreBusy ehw t
      · rw [edmaRingXmit_storeBusy hhead hfull hbusy] at hr
        cases hr
        exact hp
      · by_cases hdma : dma = 0#32
        · subst hdma
          rw [edmaRingXmit_unmapped hhead hfull hbusy] at hr
          cases hr
          rw [xmitUnmapped_txSkbStore hbusy]
          exact hp
        · rw [edmaRingXmit_published hhead hfull hbusy hdma] at hr
          cases hr
          have hne : i ≠ ehw.txSlot t := by
            rintro rfl
            exact hbusy (by rw [StoreBusy, hp]; rfl)
          rw [xmitPublished_txSkbStore, Function.update_of_ne hne]
          exact hp

theorem dmaOwned (h : DmaInv virtToPhys t q s) : DmaOwned virtToPhys t q s := by
  refine ⟨fun m hm => h.owned_of_mem hm, fun _ _ _ _ hr _ _ hp => kept hr hp, ?_⟩
  obtain ⟨r, hr, hret, hinvalid, hcmplCons, -⟩ := h.cleanTx_eq
  exact ⟨r, hr, hinvalid, hret, hcmplCons⟩

end DmaInv

/-- In every run of transmits, completions and hardware steps in which the packets that are
    accepted fit their descriptors and are mapped where they are, every packet is accounted
    for in every state. -/
theorem dmaRun_owned (virtToPhys : Nat → BitVec 32) {t q : Nat} {ehw : EdmaHw}
    (hidle : TxIdle t q ehw) {as : List DmaLabel}
    (hfits : StepsMeet (dmaStep virtToPhys t q) (XmitFits virtToPhys t) (.start ehw) as) :
    Always (dmaStep virtToPhys t q) (DmaOwned virtToPhys t q) (.start ehw) as :=
  always_of_stepsMeet (fun _ h => DmaInv.dmaOwned h) (fun _ _ _ h hC hstep => h.step hC hstep)
    (DmaInv.start hidle) hfits

instance (virtToPhys : Nat → BitVec 32) (t : Nat) (s : DmaRun) (a : DmaLabel) :
    Decidable (XmitFits virtToPhys t s a) := by
  cases a with
  | xmit netdev skb dma => exact inferInstanceAs (Decidable (_ ∨ _))
  | take => exact isTrue trivial
  | post word status => exact isTrue trivial
  | clean => exact isTrue trivial

/-- An instance with one ring of each kind, as after `edma_hw_init` on an idle engine. -/
def idleEdma : EdmaHw where
  netdevArr _ := none
  active := 0
  napiAdded := false
  napi := .disabled
  txSkbStore _ := none
  txdescRing i := ⟨i, edmaRingSize, fun _ => ⟨0#32, 0#32⟩⟩
  txcmplRing i := ⟨i, edmaRingSize, fun _ => ⟨0#32, 0#32⟩⟩
  rxfillRing i := ⟨i⟩
  rxdescRing i := ⟨i⟩
  txdescRings := 1
  txdescRingStart := 0
  txcmplRings := 1
  rxfillRings := 1
  rxfillRingStart := 0
  rxdescRings := 1
  rxdescRingStart := 0
  txcmplIntr _ := 0
  rxfillIntr _ := 0
  rxdescIntr _ := 0
  miscIntr := 0
  rxfillIntrMask := 1#32
  rxdescIntrMask := 1#32
  txcmplIntrMask := 3#32
  miscIntrMask := 0#32
  dpOverrideCnt := 0
  edmaInitialized := true
  regs _ := 0#32
  log := []

theorem idleEdma_txIdle : TxIdle 0 0 idleEdma :=
  ⟨⟨7, by decide, rfl⟩, ⟨7, by decide, rfl⟩, rfl, by decide, rfl, by decide, fun _ => rfl⟩

/-- A device on port 1. -/
def port1Dev : NetDevice := ⟨1, edmaTxPrehdrSize, 0, 0, false, true, true⟩

/-- A packet of the given contents at address 64 with 32 bytes of headroom. -/
def packetOf (id : Nat) (payload : List (BitVec 8)) : SkBuff :=
  ⟨id, 64, edmaTxPrehdrSize, payload, 0, 0, false, false, false, 0⟩

/-- One packet is sent at its physical address, completed and reaped. -/
def sendOne (payload : List (BitVec 8)) : List DmaLabel :=
  [.xmit port1Dev (packetOf 0 payload) 32#32, .take, .post 0#32 0#32, .clean]

theorem dmaRun_owned_one :
    Always (dmaStep (BitVec.ofNat 32) 0 0) (DmaOwned (BitVec.ofNat 32) 0 0) (.start idleEdma)
      (sendOne (List.replicate 14 0#8)) :=
  dmaRun_owned (BitVec.ofNat 32) idleEdma_txIdle (by decide +kernel)

/-- The rings after a packet `skb` was published at `addr` with length `len`. -/
def published (skb : SkBuff) (addr : BitVec 32) (len : Nat) : DmaRun :=
  { DmaRun.start idleEdma with
    ehw := idleEdma.xmitPublished 0 skb len addr
    packet := Function.update (fun _ => none) 0 (some skb)
    handed := [skb.id]
    mapped := [⟨addr, len + edmaTxPrehdrSize, skb⟩] }

theorem dmaStep_published (payload : List (BitVec 8)) :
    dmaStep (BitVec.ofNat 32) 0 0 (.start idleEdma)
        (.xmit port1Dev (packetOf 0 payload) 32#32) =
      some (published (framed port1Dev 0 (packetOf 0 payload)) 32#32
        (u16 (packetOf 0 payload).headlen)) := by
  have hhead : ¬ ((packetOf 0 payload).headroom < edmaTxPrehdrSize ∨
      (packetOf 0 payload).id ∈ (DmaRun.start idleEdma).handed) := by
    rw [not_or]
    exact ⟨Nat.lt_irrefl _, List.not_mem_nil⟩
  have hslot : (DmaRun.start idleEdma).ehw.txSlot 0 = 0 := rfl
  have hpub := @edmaRingXmit_published (DmaRun.start idleEdma).ehw port1Dev
    (packetOf 0 payload) 0 32#32 (Nat.le_refl _) (by decide)
    (by decide) (by decide)
  rw [hslot] at hpub
  simp only [dmaStep, hhead, if_false, hpub]
  rfl

/-- The hardware takes the packet and completes it. -/
theorem published_posted (skb : SkBuff) (addr : BitVec 32) (len : Nat)
    (htag : readLe32 skb.payload = 0#32) :
    ∃ u, run (dmaStep (BitVec.ofNat 32) 0 0) (published skb addr len)
        [.take, .post 0#32 0#32] = some u ∧
      u.ehw.cmplCons 0 = 0 ∧ u.ehw.cmplProd 0 = 1 ∧ (u.ehw.txcmplRing 0).count = edmaRingSize ∧
      completedSlots (u.ehw.txcmplRing 0) 0 1 = [0] ∧
      u.ehw.txSkbStore = Function.update (fun _ => none) 0 (some skb) ∧
      u.mapped = [⟨addr, len + edmaTxPrehdrSize, skb⟩] ∧ u.released = [] := by
  simp [run, dmaStep, published, EdmaHw.xmitPublished, EdmaHw.xmitRead, EdmaHw.touch,
    EdmaHw.setTxStore, EdmaHw.setTxdesc, EdmaHw.regWrite, EdmaHw.txCons, EdmaHw.txProd,
    EdmaHw.regIdx, EdmaHw.txSlot, DmaRun.start, idleEdma, edmaRingSize, EdmaHw.hwIdx,
    EdmaHw.hwComplete, EdmaHw.cmplProd, EdmaHw.cmplCons, htag, u16, edmaIdxMask, completedSlots,
    window, slot]

/-- The packet is reaped: it is unmapped by its own address and length. -/
theorem published_reaped (skb : SkBuff) (addr : BitVec 32) (len : Nat)
    (htag : readLe32 skb.payload = 0#32) :
    ∃ u, run (dmaStep (BitVec.ofNat 32) 0 0) (published skb addr len)
        [.take, .post 0#32 0#32, .clean] = some u ∧
      u.mapped = [⟨addr, len + edmaTxPrehdrSize, skb⟩] ∧
      u.released = [unmapping (BitVec.ofNat 32) skb] ∧ ∀ i, u.ehw.txSkbStore i = none := by
  obtain ⟨u, hrun, hcons, hprod, hcount, hslots, hstore, hmapped, hreleased⟩ :=
    published_posted skb addr len htag
  obtain ⟨r, hr, -, -, -, hevents, hstore', -⟩ :=
    @edmaCleanTx_eq (BitVec.ofNat 32) u.ehw 0 1
      (by rw [hcount]; decide) (by rw [hprod, hcount]; decide) (by rw [hcons, hcount]; decide)
      (by rw [hcons, hprod, hcount]; decide) (by rw [hcons, hslots]; decide)
      (by
        rw [hcons, hslots, hstore]
        intro i hi
        rw [List.mem_singleton.mp hi, Function.update_self]
        rfl)
  rw [hcons, hslots, hstore] at hevents hstore'
  refine ⟨{ u with
    ehw := r.ehw
    reaped := u.reaped ++ freedSkbs r.events
    released := u.released ++ releasesOf r.events }, ?_, hmapped, ?_, ?_⟩
  · rw [show [DmaLabel.take, .post 0#32 0#32, .clean] = [.take, .post 0#32 0#32] ++ [.clean]
      from rfl, run_append, hrun]
    simp [run, dmaStep, hr]
  · rw [hreleased, hevents]
    rfl
  · intro i
    simp only [hstore', clearSlots]
    split
    · rfl
    · rename_i hi
      exact Function.update_of_ne (fun h => hi (List.mem_singleton.mpr h)) _ _

/-- 65549 bytes of linear data, as an MTU of 65535 allows. -/
def bigPayload : List (BitVec 8) := List.replicate 65549 0#8

/-- A packet of 65549 bytes is mapped with 45 bytes and unmapped with 65581. -/
theorem bigPacket_unmapped : ∃ u,
    run (dmaStep (BitVec.ofNat 32) 0 0) (.start idleEdma) (sendOne bigPayload) = some u ∧
    u.mapped.map (fun m => (m.addr, m.len)) = [(32#32, 45)] ∧
    u.released.map (fun m => (m.addr, m.len)) = [(32#32, 65581)] ∧
    ¬ Always (dmaStep (BitVec.ofNat 32) 0 0) (DmaOwned (BitVec.ofNat 32) 0 0) (.start idleEdma)
      (sendOne bigPayload) := by
  have hheadlen : (packetOf 0 bigPayload).headlen = 65549 := by
    rw [SkBuff.headlen_eq, packetOf, bigPayload, List.length_replicate]
    rfl
  have hframed : (framed port1Dev 0 (packetOf 0 bigPayload)).headlen = 65581 := by
    rw [SkBuff.headlen_eq, framed, List.length_append, EdmaTxPreheader.length_bytes, packetOf,
      bigPayload, List.length_replicate]
    rfl
  obtain ⟨u, hrun, hmapped, hreleased, hempty⟩ :=
    published_reaped (framed port1Dev 0 (packetOf 0 bigPayload)) 32#32
      (u16 (packetOf 0 bigPayload).headlen) (readLe32_framed _ _ _)
  have hall : run (dmaStep (BitVec.ofNat 32) 0 0) (.start idleEdma) (sendOne bigPayload) =
      some u := by
    rw [sendOne, run_cons, dmaStep_published]
    exact hrun
  rw [hheadlen] at hmapped
  refine ⟨u, hall, ?_, ?_, fun halways => ?_⟩
  · rw [hmapped]
    rfl
  · rw [hreleased, List.map_cons, unmapping, hframed]
    rfl
  · have howned := (halways.last hall).owned _ (by rw [hmapped]; exact List.mem_singleton_self _)
    rcases howned with ⟨⟨i, hi, _⟩, _⟩ | ⟨_, _, _, hcount⟩
    · cases (hempty i).symm.trans hi
    · have hmem := List.count_pos_iff.mp (hcount.symm ▸ Nat.one_pos)
      rw [hreleased, List.mem_singleton] at hmem
      have hlen := congrArg DmaMapping.len hmem
      rw [unmapping, hframed] at hlen
      cases hlen

end NssDp.Edma
