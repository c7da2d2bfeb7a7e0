import Mathlib.Data.List.Nodup
import Mathlib.Data.List.Perm.Basic
import Mathlib.Logic.Function.Basic

/-!
# Slot ledgers

Things come, are kept in the numbered slots of a store, and go. A `Ledger` lists the slots in
use, and its books balance: what has come is what has gone and what the slots hold. The laws
below are those of a thing that is put into a slot, taken out of one, or turned away.
-/

/-- The account of a store: the slots in use, what has come and what has gone. -/
structure Ledger {α : Type*} (slots : List Nat) (store : Nat → Option α) (come gone : List α) :
    Prop where
  nodup : slots.Nodup
  used : ∀ i, (store i).isSome = true ↔ i ∈ slots
  books : come.Perm (gone ++ slots.filterMap store)

namespace Ledger

variable {α ν : Type*} {slots slots' : List Nat} {store : Nat → Option α} {come gone : List α}
variable {i : Nat} {a : α}

theorem empty (hstore : ∀ i, store i = none) : Ledger [] store [] [] :=
  ⟨List.nodup_nil, fun i => by simp [hstore i], List.Perm.refl _⟩

/-- The order of the slots does not matter. -/
theorem perm (h : Ledger slots store come gone) (hperm : slots.Perm slots') :
    Ledger slots' store come gone :=
  ⟨hperm.nodup_iff.mp h.nodup, fun i => (h.used i).trans hperm.mem_iff,
    h.books.trans ((hperm.filterMap store).append_left gone)⟩

theorem notMem (h : Ledger slots store come gone) (hfree : store i = none) : i ∉ slots := by
  intro hi
  have hsome := (h.used i).mpr hi
  rw [hfree] at hsome
  cases hsome

/-- Writing a slot that a list leaves out does not change what the list holds. -/
theorem filterMap_update {v : Option α} (hnot : i ∉ slots) :
    slots.filterMap (Function.update store i v) = slots.filterMap store :=
  List.filterMap_congr fun _ hj => Function.update_of_ne (ne_of_mem_of_not_mem hj hnot) _ _

/-- A thing comes and is put into a free slot. -/
theorem insert (h : Ledger slots store come gone) (hfree : store i = none) (a : α) :
    Ledger (i :: slots) (Function.update store i (some a)) (come ++ [a]) gone := by
  have hnot := h.notMem hfree
  refine ⟨List.nodup_cons.mpr ⟨hnot, h.nodup⟩, ?_, ?_⟩
  · intro j
    by_cases hj : j = i
    · subst hj
      simp
    · rw [Function.update_of_ne hj, h.used j, List.mem_cons]
      exact (or_iff_right hj).symm
  · rw [List.filterMap_cons_some (Function.update_self i (some a) store), filterMap_update hnot]
    apply (h.books.append_right [a]).trans
    rw [List.append_assoc]
    exact (List.perm_append_singleton _ _).append_left gone

/-- A thing is taken out of its slot and goes. -/
theorem release (h : Ledger (i :: slots) store come gone) (hi : store i = some a) :
    Ledger slots (Function.update store i none) come (gone ++ [a]) := by
  obtain ⟨hnot, hnodup⟩ := List.nodup_cons.mp h.nodup
  refine ⟨hnodup, ?_, ?_⟩
  · intro j
    by_cases hj : j = i
    · subst hj
      simp [hnot]
    · rw [Function.update_of_ne hj, h.used j, List.mem_cons]
      exact or_iff_right hj
  · have hbooks := h.books
    rw [List.filterMap_cons_some hi] at hbooks
    rw [filterMap_update hnot, List.append_assoc]
    exact hbooks

/-- A thing comes and goes at once. -/
theorem turnAway (h : Ledger slots store come gone) (a : α) :
    Ledger slots store (come ++ [a]) (gone ++ [a]) := by
  refine ⟨h.nodup, h.used, ?_⟩
  apply (h.books.append_right [a]).trans
  rw [List.append_assoc, List.append_assoc]
  exact List.perm_append_comm.append_left gone

/-- What the first slot in use holds. -/
theorem head (h : Ledger (i :: slots) store come gone) : ∃ a, store i = some a :=
  Option.isSome_iff_exists.mp ((h.used i).mpr List.mem_cons_self)

/-- Nothing is in two slots, where names tell things apart. -/
theorem store_inj (h : Ledger slots store come gone) {name : α → ν} (hnames : (come.map name).Nodup)
    {j : Nat} (hi : store i = some a) (hj : store j = some a) : i = j := by
  by_contra hne
  have himem := (h.used i).mp (by rw [hi]; rfl)
  have hjmem := (h.used j).mp (by rw [hj]; rfl)
  have hjmem' : j ∈ slots.erase i := (List.mem_erase_of_ne (Ne.symm hne)).mpr hjmem
  have hheld := (h.perm (List.perm_cons_erase himem)).books
  rw [List.filterMap_cons_some hi] at hheld
  have hnodup := ((hheld.map name).nodup_iff.mp hnames).of_map
  have hcons := (List.nodup_append.mp hnodup).2.1
  exact (List.nodup_cons.mp hcons).1 (List.mem_filterMap.mpr ⟨j, hjmem', hj⟩)

/-- Everything that has come is in one slot and not gone, or in no slot and gone once. -/
theorem owned [DecidableEq α] (h : Ledger slots store come gone) {name : α → ν}
    (hnames : (come.map name).Nodup) (ha : a ∈ come) :
    ((∃! i, store i = some a) ∧ gone.count a = 0) ∨
      ((∀ i, store i ≠ some a) ∧ gone.count a = 1) := by
  have hnodup := ((h.books.map name).nodup_iff.mp hnames).of_map
  obtain ⟨hgone, -, hdisj⟩ := List.nodup_append.mp hnodup
  have hheld : ∀ i, store i = some a → a ∈ slots.filterMap store := by
    intro i hi
    exact List.mem_filterMap.mpr ⟨i, (h.used i).mp (by rw [hi]; rfl), hi⟩
  rcases List.mem_append.mp (h.books.mem_iff.mp ha) with hin | hin
  · refine Or.inr ⟨?_, List.count_eq_one_of_mem hgone hin⟩
    intro i hi
    exact hdisj a hin a (hheld i hi) rfl
  · obtain ⟨i, -, hi⟩ := List.mem_filterMap.mp hin
    refine Or.inl ⟨⟨i, hi, fun j hj => h.store_inj hnames hj hi⟩, ?_⟩
    exact List.count_eq_zero.mpr fun hgone => hdisj a hgone a hin rfl

end Ledger
