import Mathlib.Data.List.Nodup
import Mathlib.Tactic.Common

/-!
# Loops over the set bits of a word

C code goes through the set bits of a mask with `ffs`: it finds the lowest, does something with
it, clears it, and stops at zero. `loop` is that loop with a bound on its turns. A bound of one
more than the width is enough, and the loop is then a fold over the places of the set bits.
-/

namespace LowBits

variable {w : Nat} {α ε : Type*}

/-- The places of the set bits, lowest first. -/
def bits (x : BitVec w) : List Nat := (List.range w).filter fun i => x.getLsbD i

/-- `ffs`: one more than the place of the lowest set bit, or zero. -/
def ffs (x : BitVec w) : Nat :=
  match (List.range w).find? fun i => x.getLsbD i with
  | none => 0
  | some i => i + 1

/-- `x & ~(1 << i)`. -/
def clearBit (x : BitVec w) (i : Nat) : BitVec w := x &&& ~~~(1#w <<< i)

/-- At most `fuel` tests of the condition of `while (x) { .. ffs(x) .. }`, whose body may return
    early; with the word that is left. -/
def loop (body : α → Nat → Except ε α) : Nat → BitVec w → α → Option (BitVec w × Except ε α)
  | 0, _, _ => none
  | fuel + 1, x, acc =>
    if x = 0#w then some (x, .ok acc)
    else
      let i := ffs x - 1
      match body acc i with
      | .error e => some (x, .error e)
      | .ok acc => loop body fuel (clearBit x i) acc

theorem mem_bits {x : BitVec w} {i : Nat} : i ∈ bits x ↔ x.getLsbD i = true := by
  rw [bits, List.mem_filter, List.mem_range]
  exact and_iff_right_of_imp fun hi => BitVec.lt_of_getLsbD hi

theorem nodup_bits (x : BitVec w) : (bits x).Nodup := List.nodup_range.filter _

theorem length_bits_le (x : BitVec w) : (bits x).length ≤ w :=
  Nat.le_trans (List.length_filter_le _ _) (Nat.le_of_eq List.length_range)

theorem bits_eq_nil {x : BitVec w} : bits x = [] ↔ x = 0#w := by
  constructor
  · intro hnil
    apply BitVec.eq_of_getLsbD_eq
    intro i _
    rw [BitVec.getLsbD_zero, ← Bool.not_eq_true, ← mem_bits, hnil]
    exact List.not_mem_nil
  · rintro rfl
    refine List.eq_nil_iff_forall_not_mem.mpr fun i hi => ?_
    rw [mem_bits, BitVec.getLsbD_zero] at hi
    cases hi

theorem getLsbD_clearBit (x : BitVec w) {i j : Nat} (hj : j < w) :
    (clearBit x i).getLsbD j = (x.getLsbD j && decide (j ≠ i)) := by
  rw [clearBit, BitVec.getLsbD_and, BitVec.getLsbD_not, BitVec.getLsbD_shiftLeft,
    BitVec.getLsbD_one]
  rcases Nat.lt_trichotomy j i with hlt | rfl | hgt
  · simp [hj, hlt, Nat.ne_of_lt hlt]
  · simp [hj, show 0 < w by omega]
  · have hplace : ¬ j - i = 0 := by omega
    simp [hj, Nat.ne_of_gt hgt, hplace]

/-- `ffs` finds the first of the set bits. -/
theorem ffs_of_bits {x : BitVec w} {i : Nat} {is : List Nat} (h : bits x = i :: is) :
    ffs x = i + 1 := by
  have hfind : ((List.range w).find? fun i => x.getLsbD i) = some i := by
    rw [← List.head?_filter, ← bits, h, List.head?_cons]
  rw [ffs, hfind]

/-- Clearing the first leaves the others. -/
theorem bits_clearBit {x : BitVec w} {i : Nat} {is : List Nat} (h : bits x = i :: is) :
    bits (clearBit x i) = is := by
  have hnodup : (i :: is).Nodup := h ▸ nodup_bits x
  have hfilter : bits (clearBit x i) = (bits x).filter fun j => decide (j ≠ i) := by
    rw [bits, bits, List.filter_filter]
    refine List.filter_congr fun j hj => ?_
    rw [getLsbD_clearBit x (List.mem_range.mp hj), Bool.and_comm]
  rw [hfilter, h, List.filter_cons_of_neg (by simp)]
  refine List.filter_eq_self.mpr fun j hj => ?_
  rw [decide_eq_true_eq]
  rintro rfl
  exact (List.nodup_cons.mp hnodup).1 hj

/-- With a bound above the number of set bits, the loop is a fold over their places. -/
theorem loop_eq (body : α → Nat → Except ε α) : ∀ {fuel : Nat} {x : BitVec w} {acc : α},
    (bits x).length < fuel →
      ∃ left, loop body fuel x acc = some (left, (bits x).foldlM body acc) := by
  intro fuel
  induction fuel with
  | zero => exact fun h => absurd h (Nat.not_lt_zero _)
  | succ fuel ih =>
    intro x acc h
    rw [loop]
    cases hbits : bits x with
    | nil =>
      rw [if_pos (bits_eq_nil.mp hbits)]
      exact ⟨x, rfl⟩
    | cons i is =>
      have hne : x ≠ 0#w := fun h0 => by
        rw [bits_eq_nil.mpr h0] at hbits
        cases hbits
      rw [if_neg hne, ffs_of_bits hbits, Nat.add_sub_cancel, List.foldlM_cons]
      cases hbody : body acc i with
      | error e => exact ⟨x, by simp only [hbody]; rfl⟩
      | ok acc' =>
        have hrest := bits_clearBit hbits
        rw [hbits, List.length_cons] at h
        obtain ⟨left, hleft⟩ : ∃ left, loop body fuel (clearBit x i) acc' =
            some (left, (bits (clearBit x i)).foldlM body acc') := by
          apply ih
          rw [hrest]
          omega
        rw [hrest] at hleft
        exact ⟨left, by simp only [hbody, hleft]; rfl⟩

/-- The width bounds the number of set bits. -/
theorem loop_eq_foldlM (body : α → Nat → Except ε α) (x : BitVec w) (acc : α) :
    ∃ left, loop body (w + 1) x acc = some (left, (bits x).foldlM body acc) :=
  loop_eq body (Nat.lt_succ_of_le (length_bits_le x))

section Fold

variable {n : Nat} {body : BitVec n → Nat → Except ε (BitVec n)} {f : Nat → Option (BitVec n)}

/-- A fold that adds what `f` gives for each place, where it gives something for all. -/
theorem foldlM_or_ok (hsome : ∀ acc i b, f i = some b → body acc i = .ok (acc ||| b)) :
    ∀ {is : List Nat} {acc : BitVec n}, (∀ i ∈ is, (f i).isSome = true) →
      ∃ res, is.foldlM body acc = .ok res ∧
        ∀ j, res.getLsbD j = true ↔
          acc.getLsbD j = true ∨ ∃ i ∈ is, ∃ b, f i = some b ∧ b.getLsbD j = true := by
  intro is
  induction is with
  | nil => exact fun _ => ⟨_, rfl, fun j => by simp⟩
  | cons i is ih =>
    intro acc hall
    rw [List.forall_mem_cons] at hall
    obtain ⟨b, hb⟩ := Option.isSome_iff_exists.mp hall.1
    obtain ⟨res, hres, hbits⟩ := ih hall.2
    refine ⟨res, ?_, fun j => (hbits j).trans ?_⟩
    · rw [List.foldlM_cons, hsome acc i b hb]
      exact hres
    · rw [BitVec.getLsbD_or, Bool.or_eq_true, or_assoc]
      simp only [List.mem_cons, exists_eq_or_imp, hb, Option.some.injEq, exists_eq_left']

/-- A fold whose body stops with `e` where `f` gives nothing. -/
theorem foldlM_or_error {e : ε} (hsome : ∀ acc i b, f i = some b → body acc i = .ok (acc ||| b))
    (hnone : ∀ acc i, f i = none → body acc i = .error e) :
    ∀ {is : List Nat} {acc : BitVec n}, ¬ (∀ i ∈ is, (f i).isSome = true) →
      is.foldlM body acc = .error e := by
  intro is
  induction is with
  | nil => exact fun h => absurd (fun _ hi => absurd hi List.not_mem_nil) h
  | cons i is ih =>
    intro acc hnot
    rw [List.forall_mem_cons] at hnot
    rw [List.foldlM_cons]
    cases hf : f i with
    | none =>
      rw [hnone acc i hf]
      rfl
    | some b =>
      rw [hsome acc i b hf]
      rw [hf] at hnot
      exact ih fun hall => hnot ⟨rfl, hall⟩

end Fold

end LowBits
