import Mathlib.Logic.Function.Basic
import NssDp.Misc.BitField

/-!
# Tables in registers

A table whose entries are fields of several registers. An entry is filled by adding its bits to
the register that it is in; a loop that fills entries one by one fills each of them, where no two
share a bit.
-/

/-- Entry `i` is the field `field i` of the register `reg i`. -/
structure RegTable (R : Type*) where
  reg : Nat → R
  field : Nat → BitField

namespace RegTable

variable {R : Type*} {w : Nat}

/-- No two of the first `n` entries share a bit, and each is in its register. -/
structure Apart (t : RegTable R) (w n : Nat) : Prop where
  apart : ∀ i < n, ∀ j < n, i ≠ j → t.reg i = t.reg j → (t.field i).Apart (t.field j)
  inside : ∀ i < n, (t.field i).lsb + (t.field i).width ≤ w

/-- The value of an entry. -/
def entry (t : RegTable R) (regs : R → BitVec w) (i : Nat) : BitVec w :=
  (t.field i).get (regs (t.reg i))

/-- An entry depends on its register only. -/
theorem entry_congr {t : RegTable R} {regs regs' : R → BitVec w} {i : Nat}
    (h : regs' (t.reg i) = regs (t.reg i)) : t.entry regs' i = t.entry regs i := by
  rw [entry, h, entry]

/-- The entries of a register that has been cleared. -/
theorem entry_of_zero {t : RegTable R} {regs : R → BitVec w} {i : Nat}
    (h : regs (t.reg i) = 0#w) : t.entry regs i = 0#w := by
  rw [entry, h, BitField.get_zero]

variable [DecidableEq R]

/-- The bits of a value are added to an entry. -/
def fill (t : RegTable R) (regs : R → BitVec w) (i : Nat) (a : BitVec w) : R → BitVec w :=
  Function.update regs (t.reg i) (regs (t.reg i) ||| a <<< (t.field i).lsb)

variable {t : RegTable R} {n i j : Nat} {a : BitVec w} {regs : R → BitVec w}

theorem entry_fill_self (h : t.Apart w n) (hi : i < n) (hfits : (t.field i).Fits a) :
    t.entry (t.fill regs i a) i = t.entry regs i ||| a := by
  rw [entry, fill, Function.update_self, BitField.get_or, hfits.get_shiftLeft (h.inside i hi),
    entry]

/-- The other entries do not change, those in the same register neither. -/
theorem entry_fill_of_ne (h : t.Apart w n) (hi : i < n) (hj : j < n) (hne : j ≠ i)
    (hfits : (t.field i).Fits a) : t.entry (t.fill regs i a) j = t.entry regs j := by
  by_cases hreg : t.reg j = t.reg i
  · rw [entry, fill, hreg, Function.update_self, BitField.get_or,
      hfits.get_shiftLeft_of_apart (h.apart j hj i hi hne hreg), BitVec.or_zero, entry, hreg]
  · rw [entry, fill, Function.update_of_ne hreg, entry]

/-- A register without entries of the table does not change. -/
theorem fill_of_ne {r : R} (hr : ∀ i, r ≠ t.reg i) : t.fill regs i a r = regs r :=
  Function.update_of_ne (hr i) _ _

/-- A loop over entries fills just these. -/
theorem entry_foldl (h : t.Apart w n) {val : Nat → BitVec w} {is : List Nat} (hnodup : is.Nodup)
    (hlt : ∀ i ∈ is, i < n) (hfits : ∀ i ∈ is, (t.field i).Fits (val i)) (hj : j < n) :
    t.entry (is.foldl (fun regs i => t.fill regs i (val i)) regs) j =
      if j ∈ is then t.entry regs j ||| val j else t.entry regs j := by
  induction is generalizing regs with
  | nil => simp
  | cons i is ih =>
    obtain ⟨hnotMem, hnodup⟩ := List.nodup_cons.mp hnodup
    have hi : i < n := hlt i List.mem_cons_self
    have hfit : (t.field i).Fits (val i) := hfits i List.mem_cons_self
    rw [List.foldl_cons, ih hnodup (fun k hk => hlt k (List.mem_cons_of_mem i hk))
      (fun k hk => hfits k (List.mem_cons_of_mem i hk))]
    rcases eq_or_ne j i with rfl | hne
    · rw [if_neg hnotMem, entry_fill_self h hi hfit]
      simp
    · rw [entry_fill_of_ne h hi hj hne hfit]
      simp [hne]

theorem foldl_of_ne {val : Nat → BitVec w} {r : R} (hr : ∀ i, r ≠ t.reg i) (is : List Nat) :
    is.foldl (fun regs i => t.fill regs i (val i)) regs r = regs r := by
  induction is generalizing regs with
  | nil => rfl
  | cons i is ih => rw [List.foldl_cons, ih, fill_of_ne hr]

end RegTable
