import NssDp.Edma.DataPlane
import NssDp.Edma.Proofs.TxOwnership

/-!
# The cleanup of a TXDESC ring

The cleanup loop goes from the consumer index towards the producer index two descriptors at a
time, so on a ring whose size is a power of two it never leaves the descriptors with the parity
of the one it began with. It cleans up what is pending only where nothing is.
-/

namespace NssDp.Edma

open Lts Cyclic Word

/-- The index that the loop of `edma_cleanup_txdesc_ring_res` goes on to. -/
def cleanupTxdescNext (count consIdx : Nat) : Nat :=
  let next := u16 (consIdx + 1 &&& count - 1)
  if u16 (next + 1) = count then 0 else u16 (next + 1)

/-- The descriptors that the loop visits, with the slots of the store it looks up for them. -/
def cleanupTxdescVisits (ring : EdmaTxdescRing) (prodIdx : Nat) :
    Nat → Nat → (Nat → Option SkBuff) → Option (List (Nat × Nat))
  | 0, _, _ => none
  | fuel + 1, consIdx, store =>
    if consIdx = prodIdx then some []
    else
      let storeIdx := (ring.desc consIdx).bufferAddr.toNat
      if storeIdx < edmaRingSize ∧ (store storeIdx).isSome = true then
        (cleanupTxdescVisits ring prodIdx fuel (cleanupTxdescNext ring.count consIdx)
          (Function.update store storeIdx none)).map ((consIdx, storeIdx) :: ·)
      else none

/-- The pending descriptors of a ring, from the consumer index on. -/
def EdmaHw.txPending (ehw : EdmaHw) (ring : Nat) : List Nat :=
  window (ehw.txdescRing ring).count (ehw.txCons ring)
    (gap (ehw.txdescRing ring).count (ehw.txCons ring) (ehw.txProd ring))

/-- The slot of the store under which `edma_ring_xmit` keeps the packet of a descriptor. -/
def EdmaHw.slotOf (ehw : EdmaHw) (ring i : Nat) : Nat := i &&& (ehw.txdescRing ring).count - 1

/-- The cleanup returns, has visited each pending descriptor once and looked its packet up where
    it is kept, has freed these packets once each, and has cleared their slots. -/
def TxdescCleaned (ehw : EdmaHw) (ring : Nat) : Prop :=
  ∃ visits, cleanupTxdescVisits (ehw.txdescRing ring) (ehw.txProd ring) (2 ^ 16)
      (ehw.txCons ring) ehw.txSkbStore = some visits ∧
    (visits.map Prod.fst).Perm (ehw.txPending ring) ∧
    (∀ v ∈ visits, v.2 = ehw.slotOf ring v.1 ∧ v.2 < edmaRingSize) ∧
    ∃ r, edmaCleanupTxdescRingRes ehw ring = some r ∧
      freedSkbs r.2 = (visits.map Prod.snd).filterMap ehw.txSkbStore ∧
      ∀ v ∈ visits, r.1.txSkbStore v.2 = none

section Visits

variable {ring : EdmaTxdescRing} {prodIdx : Nat}

/-- A slot is occupied when the loop looks it up, so it was not looked up before. -/
theorem cleanupTxdescVisits_occupied : ∀ (fuel consIdx : Nat) (store : Nat → Option SkBuff)
    {visits : List (Nat × Nat)},
    cleanupTxdescVisits ring prodIdx fuel consIdx store = some visits →
    ∀ i ∈ visits.map Prod.snd, (store i).isSome = true := by
  intro fuel
  induction fuel with
  | zero =>
    intro consIdx store visits hvisits
    cases hvisits
  | succ fuel ih =>
    intro consIdx store visits hvisits i hi
    rw [cleanupTxdescVisits] at hvisits
    split at hvisits
    · cases hvisits
      cases hi
    · simp only at hvisits
      split at hvisits
      · rename_i hfound
        obtain ⟨rest, hrest, rfl⟩ := Option.map_eq_some_iff.mp hvisits
        rcases List.mem_cons.mp hi with rfl | hi
        · exact hfound.2
        · have hsome := ih _ _ hrest i hi
          rcases eq_or_ne i (ring.desc consIdx).bufferAddr.toNat with rfl | hne
          · rw [Function.update_self] at hsome
            cases hsome
          · rwa [Function.update_of_ne hne] at hsome
      · cases hvisits

/-- The loop frees what is in the slots it looks up, and clears them. -/
theorem cleanupTxdescLoop_visits : ∀ (fuel consIdx : Nat) (store : Nat → Option SkBuff)
    {visits : List (Nat × Nat)},
    cleanupTxdescVisits ring prodIdx fuel consIdx store = some visits →
    ∃ events, cleanupTxdescLoop ring prodIdx fuel consIdx store =
        some (clearSlots store (visits.map Prod.snd), events) ∧
      freedSkbs events = (visits.map Prod.snd).filterMap store := by
  intro fuel
  induction fuel with
  | zero =>
    intro consIdx store visits hvisits
    cases hvisits
  | succ fuel ih =>
    intro consIdx store visits hvisits
    rw [cleanupTxdescVisits] at hvisits
    rw [cleanupTxdescLoop]
    split at hvisits
    · rename_i hdone
      cases hvisits
      rw [if_pos hdone]
      exact ⟨[], by rw [List.map_nil, clearSlots_nil], rfl⟩
    · rename_i hne
      simp only at hvisits
      split at hvisits
      · rename_i hfound
        obtain ⟨hlt, hsome⟩ := hfound
        obtain ⟨skb, hskb⟩ := Option.isSome_iff_exists.mp hsome
        obtain ⟨rest, hrest, rfl⟩ := Option.map_eq_some_iff.mp hvisits
        obtain ⟨events, hloop, hfreed⟩ := ih _ _ hrest
        have hnot : (ring.desc consIdx).bufferAddr.toNat ∉ rest.map Prod.snd := by
          intro hmem
          have hagain := cleanupTxdescVisits_occupied _ _ _ hrest _ hmem
          rw [Function.update_self] at hagain
          cases hagain
        rw [filterMap_update hnot] at hfreed
        rw [clearSlots_update] at hloop
        unfold cleanupTxdescNext at hloop
        simp only [hne, if_false, hlt, if_true, hskb, hloop, Option.map_some, List.map_cons]
        refine ⟨_, rfl, ?_⟩
        rw [freedSkbs_append, hfreed, List.filterMap_cons_some hskb]
        rfl
      · cases hvisits

/-- The loop steps over one descriptor each time. -/
theorem cleanupTxdescNext_eq {k : Nat} (hk : k ≤ 15) (consIdx : Nat) :
    cleanupTxdescNext (2 ^ k) consIdx = (consIdx + 2) % 2 ^ k := by
  have hpos : 0 < 2 ^ k := Nat.two_pow_pos k
  rw [cleanupTxdescNext, txdesc_next hk,
    cleanTx_next (lt_of_pow ⟨k, hk, rfl⟩) (Nat.mod_lt _ hpos), Nat.mod_add_mod]

/-- On a ring of even size the loop keeps the parity it begins with, by induction on its
    turns. -/
theorem cleanupTxdescVisits_parity {k : Nat} (hk : k ≤ 14) (hcount : ring.count = 2 ^ (k + 1)) :
    ∀ (fuel consIdx : Nat) (store : Nat → Option SkBuff) {visits : List (Nat × Nat)},
    cleanupTxdescVisits ring prodIdx fuel consIdx store = some visits →
    prodIdx % 2 = consIdx % 2 ∧ ∀ v ∈ visits, v.1 % 2 = consIdx % 2 := by
  have heven : 2 ^ (k + 1) = 2 * 2 ^ k := Nat.pow_succ'
  intro fuel
  induction fuel with
  | zero =>
    intro consIdx store visits hvisits
    cases hvisits
  | succ fuel ih =>
    intro consIdx store visits hvisits
    rw [cleanupTxdescVisits] at hvisits
    split at hvisits
    · rename_i hdone
      cases hvisits
      exact ⟨by rw [hdone], fun v hv => absurd hv List.not_mem_nil⟩
    · simp only at hvisits
      split at hvisits
      · obtain ⟨rest, hrest, rfl⟩ := Option.map_eq_some_iff.mp hvisits
        rw [hcount, cleanupTxdescNext_eq (by omega)] at hrest
        have hparity : (consIdx + 2) % 2 ^ (k + 1) % 2 = consIdx % 2 := by
          rw [heven, Nat.mod_mul_right_mod]
          omega
        obtain ⟨hprod, hvisited⟩ := ih _ _ hrest
        rw [hparity] at hprod hvisited
        refine ⟨hprod, ?_⟩
        intro v hv
        rcases List.mem_cons.mp hv with rfl | hv
        · rfl
        · exact hvisited v hv
      · cases hvisits

end Visits

section Cleaned

variable {ehw : EdmaHw} {ring k : Nat}

/-- Where a descriptor is pending, the loop misses one or does not end. -/
theorem TxdescCleaned.prod_eq (hk : k ≤ 15) (hcount : (ehw.txdescRing ring).count = 2 ^ k)
    (hprod : ehw.txProd ring < 2 ^ k) (hcons : ehw.txCons ring < 2 ^ k)
    (h : TxdescCleaned ehw ring) : ehw.txProd ring = ehw.txCons ring := by
  obtain ⟨visits, hvisits, hpending, -, -⟩ := h
  by_contra hne
  cases k with
  | zero => omega
  | succ k =>
    have heven : 2 ^ (k + 1) = 2 * 2 ^ k := Nat.pow_succ'
    obtain ⟨hprod₂, hvisited⟩ := cleanupTxdescVisits_parity (by omega) hcount _ _ _ hvisits
    have hpos : gap (2 ^ (k + 1)) (ehw.txCons ring) (ehw.txProd ring) ≠ 0 := by
      intro hzero
      exact hne ((gap_eq_zero hcons hprod).mp hzero).symm
    have hslot := slot_gap hcons hprod
    have hone : gap (2 ^ (k + 1)) (ehw.txCons ring) (ehw.txProd ring) ≠ 1 := by
      intro hone
      rw [hone, slot] at hslot
      have hodd : (ehw.txCons ring + 1) % 2 ^ (k + 1) % 2 = (ehw.txCons ring + 1) % 2 := by
        rw [heven, Nat.mod_mul_right_mod]
      omega
    -- the second pending descriptor has the other parity
    have hsecond : slot (2 ^ (k + 1)) (ehw.txCons ring) 1 ∈ ehw.txPending ring := by
      rw [EdmaHw.txPending, hcount]
      exact mem_window.mpr ⟨1, by omega, rfl⟩
    obtain ⟨v, hv, hfst⟩ := List.mem_map.mp (hpending.mem_iff.mpr hsecond)
    have hparity := hvisited v hv
    have hodd : slot (2 ^ (k + 1)) (ehw.txCons ring) 1 % 2 = (ehw.txCons ring + 1) % 2 := by
      rw [slot, heven, Nat.mod_mul_right_mod]
    rw [hfst] at hparity
    omega

theorem txdescCleaned_of_eq (heq : ehw.txProd ring = ehw.txCons ring) :
    TxdescCleaned ehw ring := by
  have hvisits : cleanupTxdescVisits (ehw.txdescRing ring) (ehw.txProd ring) (2 ^ 16)
      (ehw.txCons ring) ehw.txSkbStore = some [] := by
    rw [show 2 ^ 16 = 65535 + 1 from rfl, cleanupTxdescVisits, if_pos heq.symm]
  obtain ⟨events, hloop, hfreed⟩ := cleanupTxdescLoop_visits _ _ _ hvisits
  refine ⟨[], hvisits, ?_, fun v hv => absurd hv List.not_mem_nil, ?_⟩
  · rw [EdmaHw.txPending, heq, gap_self, window_zero, List.map_nil]
  · unfold EdmaHw.txProd EdmaHw.txCons at hloop
    simp only [edmaCleanupTxdescRingRes, EdmaHw.touch_txdescRing, EdmaHw.touch_regIdx,
      EdmaHw.touch_txSkbStore, hloop, Option.map_some]
    exact ⟨_, rfl, hfreed, fun v hv => absurd hv List.not_mem_nil⟩

end Cleaned

/-- For every ring whose size is a power of two, every pair of indices and whatever the ring and
    the store hold: the cleanup does its work if and only if nothing is pending. -/
theorem txdescCleaned_iff {ehw : EdmaHw} {ring k : Nat} (hk : k ≤ 15)
    (hcount : (ehw.txdescRing ring).count = 2 ^ k) (hprod : ehw.txProd ring < 2 ^ k)
    (hcons : ehw.txCons ring < 2 ^ k) :
    TxdescCleaned ehw ring ↔ ehw.txProd ring = ehw.txCons ring :=
  ⟨TxdescCleaned.prod_eq hk hcount hprod hcons, txdescCleaned_of_eq⟩

theorem txdescCleaned_iff_idle :
    TxdescCleaned idleEdma 0 ↔ idleEdma.txProd 0 = idleEdma.txCons 0 :=
  txdescCleaned_iff (k := 7) (by decide) rfl (by decide) (by decide)

/-- One packet is sent and still pending: its address serves as index, and the slot found there
    is empty. -/
theorem txdescCleaned_published : ∃ u,
    run (dmaStep (BitVec.ofNat 32) 0 0) (.start idleEdma)
        [.xmit port1Dev (packetOf 0 (List.replicate 14 0#8)) 32#32] = some u ∧
      u.ehw.txCons 0 = 0 ∧ u.ehw.txProd 0 = 1 ∧ (u.ehw.txSkbStore 0).isSome = true ∧
      edmaCleanupTxdescRingRes u.ehw 0 = none ∧ ¬ TxdescCleaned u.ehw 0 := by
  have hprod : (idleEdma.xmitPublished 0 (framed port1Dev 0 (packetOf 0 (List.replicate 14 0#8)))
      (u16 (packetOf 0 (List.replicate 14 0#8)).headlen) 32#32).txProd 0 = 1 :=
    xmitPublished_txProd _ _ _ _ _
  have hnone : (edmaCleanupTxdescRingRes (idleEdma.xmitPublished 0
      (framed port1Dev 0 (packetOf 0 (List.replicate 14 0#8)))
      (u16 (packetOf 0 (List.replicate 14 0#8)).headlen) 32#32) 0).isNone = true := by
    decide +kernel
  refine ⟨_, by rw [run_cons, dmaStep_published]; rfl, rfl, hprod, rfl,
    Option.isNone_iff_eq_none.mp hnone, ?_⟩
  rintro ⟨visits, hvisits, -, -, r, hr, -⟩
  cases (Option.isNone_iff_eq_none.mp hnone).symm.trans hr

end NssDp.Edma
