import NssDp.Misc.Cyclic
import NssDp.Edma.TxRx

/-!
# What `edma_clean_tx` does

The completions pending between the two indices of a TXCMPL ring name slots of the store.
Where these slots are distinct and occupied, the loop ends after one turn for each of them,
has unmapped and freed what they held, and has left the rest of the store alone.
-/

namespace NssDp.Edma

open Cyclic Word

/-- The producer index of a TXCMPL ring. -/
def EdmaHw.cmplProd (ehw : EdmaHw) (ring : Nat) : Nat :=
  ehw.regIdx (.txcmplProdIdx (ehw.txcmplRing ring).id)

/-- The consumer index of a TXCMPL ring. -/
def EdmaHw.cmplCons (ehw : EdmaHw) (ring : Nat) : Nat :=
  ehw.regIdx (.txcmplConsIdx (ehw.txcmplRing ring).id)

/-- The slots named by the `k` completions from `cons` on. -/
def completedSlots (ring : EdmaTxcmplRing) (cons k : Nat) : List Nat :=
  (window ring.count cons k).map fun i => (ring.desc i).bufferAddr.toNat

/-- The store with the slots of `l` emptied. -/
def clearSlots (store : Nat → Option SkBuff) (l : List Nat) (i : Nat) : Option SkBuff :=
  if i ∈ l then none else store i

/-- The two calls `edma_clean_tx` makes on a packet it takes from the store. -/
def releaseEvents (virtToPhys : Nat → BitVec 32) (skb : SkBuff) : List KernelEvent :=
  [.dmaUnmapSingle .pdev (virtToPhys skb.data) skb.headlen .toDevice, .devKfreeSkb skb]

@[simp] theorem clearSlots_nil (store : Nat → Option SkBuff) : clearSlots store [] = store := by
  funext i
  simp [clearSlots]

/-- Emptying one slot and then others is emptying them all. -/
theorem clearSlots_update (store : Nat → Option SkBuff) (i : Nat) (l : List Nat) :
    clearSlots (Function.update store i none) l = clearSlots store (i :: l) := by
  funext j
  rcases eq_or_ne j i with rfl | hne
  · simp [clearSlots]
  · simp [clearSlots, hne]

/-- Reading distinct slots is not disturbed by emptying another one. -/
theorem filterMap_update {store : Nat → Option SkBuff} {i : Nat} {l : List Nat} (hi : i ∉ l) :
    l.filterMap (Function.update store i none) = l.filterMap store :=
  List.filterMap_congr fun _ hj => Function.update_of_ne (ne_of_mem_of_not_mem hj hi) _ _

/-- The consumer index steps round the ring. -/
theorem cleanTx_next {count cons : Nat} (hcount : count < 2 ^ 16) (hcons : cons < count) :
    (if u16 (cons + 1) = count then 0 else u16 (cons + 1)) = (cons + 1) % count := by
  rw [u16_of_lt (by omega)]
  split
  · rename_i heq
    rw [heq, Nat.mod_self]
  · rw [Nat.mod_eq_of_lt (by omega)]

/-- The induction is on the completions that are left; each turn takes the first of them. -/
theorem cleanTxLoop_eq (virtToPhys : Nat → BitVec 32) {ring : EdmaTxcmplRing} {prodIdx : Nat}
    (hcount : ring.count < 2 ^ 16) (hprod : prodIdx < ring.count) :
    ∀ (k fuel cons : Nat) (store : Nat → Option SkBuff), cons < ring.count →
      gap ring.count cons prodIdx = k → k < fuel → (completedSlots ring cons k).Nodup →
      (∀ i ∈ completedSlots ring cons k, (store i).isSome = true) →
      cleanTxLoop virtToPhys ring prodIdx fuel cons store =
        some ⟨prodIdx, clearSlots store (completedSlots ring cons k), k, 0,
          ((completedSlots ring cons k).filterMap store).flatMap (releaseEvents virtToPhys)⟩ := by
  intro k
  induction k with
  | zero =>
    intro fuel cons store hcons hgap hfuel _ _
    obtain ⟨fuel, rfl⟩ : ∃ f, fuel = f + 1 := ⟨fuel - 1, by omega⟩
    have heq := (gap_eq_zero hcons hprod).mp hgap
    simp [cleanTxLoop, heq, completedSlots]
  | succ k ih =>
    intro fuel cons store hcons hgap hfuel hnodup hheld
    obtain ⟨fuel, rfl⟩ : ∃ f, fuel = f + 1 := ⟨fuel - 1, by omega⟩
    have hne : cons ≠ prodIdx := by
      rintro rfl
      rw [gap_self] at hgap
      omega
    have hslots : completedSlots ring cons (k + 1) =
        (ring.desc cons).bufferAddr.toNat ::
          completedSlots ring ((cons + 1) % ring.count) k := by
      rw [completedSlots, window_succ_cons hcons, List.map_cons, completedSlots]
    rw [hslots] at hnodup hheld ⊢
    obtain ⟨hnot, hrest⟩ := List.nodup_cons.mp hnodup
    obtain ⟨skb, hskb⟩ := Option.isSome_iff_exists.mp (hheld _ List.mem_cons_self)
    have hgap' : gap ring.count ((cons + 1) % ring.count) prodIdx = k := by
      have := gap_cons_succ hcons hprod hne
      omega
    have hheld' : ∀ i ∈ completedSlots ring ((cons + 1) % ring.count) k,
        (Function.update store (ring.desc cons).bufferAddr.toNat none i).isSome = true := by
      intro i hi
      rw [Function.update_of_ne (ne_of_mem_of_not_mem hi hnot)]
      exact hheld i (List.mem_cons_of_mem _ hi)
    have hloop := ih fuel _ _ (Nat.mod_lt _ (Nat.zero_lt_of_lt hcons)) hgap' (by omega) hrest hheld'
    rw [cleanTxLoop, if_neg hne]
    simp only [cleanTx_next hcount hcons, hskb, hloop, Option.map_some, clearSlots_update,
      filterMap_update hnot, List.filterMap_cons_some hskb, List.flatMap_cons, releaseEvents]

/-- The same for the whole function: it returns, consumes what is pending, and leaves the
    consumer index at the producer index it has read. -/
theorem edmaCleanTx_eq (virtToPhys : Nat → BitVec 32) {ehw : EdmaHw} {q k : Nat}
    (hcount : (ehw.txcmplRing q).count < 2 ^ 16)
    (hprod : ehw.cmplProd q < (ehw.txcmplRing q).count)
    (hcons : ehw.cmplCons q < (ehw.txcmplRing q).count)
    (hgap : gap (ehw.txcmplRing q).count (ehw.cmplCons q) (ehw.cmplProd q) = k)
    (hnodup : (completedSlots (ehw.txcmplRing q) (ehw.cmplCons q) k).Nodup)
    (hheld : ∀ i ∈ completedSlots (ehw.txcmplRing q) (ehw.cmplCons q) k,
      (ehw.txSkbStore i).isSome = true) :
    ∃ r, edmaCleanTx virtToPhys ehw q = some r ∧ r.ret = k ∧ r.invalid = 0 ∧
      r.ehw.cmplCons q = ehw.cmplProd q ∧
      r.events = ((completedSlots (ehw.txcmplRing q) (ehw.cmplCons q) k).filterMap
        ehw.txSkbStore).flatMap (releaseEvents virtToPhys) ∧
      r.ehw.txSkbStore =
        clearSlots ehw.txSkbStore (completedSlots (ehw.txcmplRing q) (ehw.cmplCons q) k) ∧
      r.ehw.txdescRing = ehw.txdescRing ∧ r.ehw.txcmplRing = ehw.txcmplRing ∧
      ∀ reg, reg ≠ .txcmplConsIdx (ehw.txcmplRing q).id → r.ehw.regIdx reg = ehw.regIdx reg := by
  have hlt : k < 2 ^ 16 := by
    have := gap_lt (Nat.zero_lt_of_lt hcons) (ehw.cmplCons q) (ehw.cmplProd q)
    omega
  have hloop := cleanTxLoop_eq virtToPhys hcount hprod k (2 ^ 16) _ ehw.txSkbStore hcons hgap hlt
    hnodup hheld
  unfold EdmaHw.cmplProd EdmaHw.cmplCons at *
  simp only [edmaCleanTx, EdmaHw.touch_txcmplRing, EdmaHw.touch_regIdx, EdmaHw.touch_txSkbStore,
    hloop]
  split
  · rename_i hzero
    have heq := (gap_eq_zero hcons hprod).mp (hgap.trans hzero)
    refine ⟨_, rfl, hzero.symm, rfl, heq, ?_, rfl, rfl, rfl, fun _ _ => rfl⟩
    rfl
  · refine ⟨_, rfl, rfl, rfl, ?_, rfl, rfl, rfl, rfl, fun reg hreg => ?_⟩
    · exact EdmaHw.regWrite_regIdx_self _ _ (by omega)
    · exact EdmaHw.regWrite_regIdx_of_ne _ _ _ hreg

end NssDp.Edma
