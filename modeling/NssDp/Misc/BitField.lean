import Mathlib.Algebra.Group.Nat.Defs
import Mathlib.Tactic.Common

/-!
# Fields of a register

A field is a run of bits of a word. A value is put into a field by a shift, after the bits of
the field have been cleared by a mask; fields that share no bit do not see each other.
-/

structure BitField where
  lsb : Nat
  width : Nat
  deriving DecidableEq, Repr

namespace BitField

variable {w : Nat} {f g : BitField} {a x y : BitVec w}

/-- Bit `i` of a word belongs to the field. -/
def Has (f : BitField) (i : Nat) : Prop := f.lsb ≤ i ∧ i < f.lsb + f.width

instance (f : BitField) (i : Nat) : Decidable (f.Has i) := inferInstanceAs (Decidable (_ ∧ _))

/-- Two fields share no bit. -/
def Apart (f g : BitField) : Prop := f.lsb + f.width ≤ g.lsb ∨ g.lsb + g.width ≤ f.lsb

instance (f g : BitField) : Decidable (f.Apart g) := inferInstanceAs (Decidable (_ ∨ _))

/-- A value that needs no more bits than the field has. -/
def Fits (f : BitField) (a : BitVec w) : Prop := a.toNat < 2 ^ f.width

instance (f : BitField) (a : BitVec w) : Decidable (f.Fits a) := inferInstanceAs (Decidable (_ < _))

/-- The bits of a field set, and no others. -/
def mask (w : Nat) (f : BitField) : BitVec w := BitVec.ofNat w ((2 ^ f.width - 1) <<< f.lsb)

/-- The value in a field. -/
def get (f : BitField) (x : BitVec w) : BitVec w := (x &&& f.mask w) >>> f.lsb

theorem Apart.not_has {i : Nat} (h : f.Apart g) (hi : f.Has i) : ¬ g.Has i := by
  unfold Has at hi ⊢
  rcases h with h | h <;> omega

theorem has_iff {i : Nat} : f.Has i ↔ f.lsb ≤ i ∧ i - f.lsb < f.width := by
  unfold Has
  omega

theorem getLsbD_mask (f : BitField) (i : Nat) :
    (f.mask w).getLsbD i = (decide (i < w) && decide (f.Has i)) := by
  rw [mask, BitVec.getLsbD_ofNat, Nat.testBit_shiftLeft, Nat.testBit_two_pow_sub_one,
    decide_eq_decide.mpr has_iff, Bool.decide_and]

theorem getLsbD_get (f : BitField) (x : BitVec w) (i : Nat) :
    (f.get x).getLsbD i = (decide (i < f.width) && x.getLsbD (f.lsb + i)) := by
  unfold get
  rw [BitVec.getLsbD_ushiftRight, BitVec.getLsbD_and, getLsbD_mask]
  by_cases hi : i < f.width
  · rw [decide_eq_true hi, decide_eq_true (show f.Has (f.lsb + i) from ⟨by omega, by omega⟩)]
    by_cases hw : f.lsb + i < w
    · simp [hw]
    · rw [BitVec.getLsbD_of_ge x _ (by omega)]
      rfl
  · rw [decide_eq_false hi, decide_eq_false (show ¬ f.Has (f.lsb + i) from fun h => by
      unfold Has at h; omega)]
    simp

/-- The value in a field depends on its bits only. -/
theorem get_congr (h : ∀ i, f.Has i → x.getLsbD i = y.getLsbD i) : f.get x = f.get y := by
  apply BitVec.eq_of_getLsbD_eq
  intro i _
  rw [getLsbD_get, getLsbD_get]
  by_cases hi : i < f.width
  · rw [h (f.lsb + i) ⟨by omega, by omega⟩]
  · simp [hi]

@[simp] theorem get_zero (f : BitField) : f.get (0#w) = 0#w := by simp [get]

theorem get_or (f : BitField) (x y : BitVec w) : f.get (x ||| y) = f.get x ||| f.get y := by
  unfold get
  rw [BitVec.and_or_distrib_right, BitVec.ushiftRight_or_distrib]

/-- A value that is put into a field has no bits elsewhere. -/
theorem Fits.getLsbD_shiftLeft {i : Nat} (h : f.Fits a) (hi : ¬ f.Has i) :
    (a <<< f.lsb).getLsbD i = false := by
  rw [BitVec.getLsbD_shiftLeft]
  by_cases hlow : i < f.lsb
  · simp [hlow]
  · have hhigh : a.getLsbD (i - f.lsb) = false := by
      apply Nat.testBit_lt_two_pow
      refine Nat.lt_of_lt_of_le h (Nat.pow_le_pow_right (by omega) ?_)
      rw [has_iff] at hi
      omega
    rw [hhigh, Bool.and_false]

/-- It is found where it was put. -/
theorem Fits.get_shiftLeft (h : f.Fits a) (hw : f.lsb + f.width ≤ w) :
    f.get (a <<< f.lsb) = a := by
  apply BitVec.eq_of_getLsbD_eq
  intro i hi
  rw [getLsbD_get, BitVec.getLsbD_shiftLeft, Nat.add_sub_cancel_left]
  by_cases hlt : i < f.width
  · simp [hlt, show f.lsb + i < w by omega]
  · have hhigh : a.getLsbD i = false :=
      Nat.testBit_lt_two_pow (Nat.lt_of_lt_of_le h (Nat.pow_le_pow_right (by omega) (by omega)))
    rw [hhigh, Bool.and_false, Bool.and_false]

/-- And nowhere else. -/
theorem Fits.get_shiftLeft_of_apart (h : g.Fits a) (hapart : f.Apart g) :
    f.get (a <<< g.lsb) = 0#w := by
  rw [← get_zero f]
  apply get_congr
  intro i hi
  rw [h.getLsbD_shiftLeft (hapart.not_has hi), BitVec.getLsbD_zero]

theorem getLsbD_clear (f : BitField) (x : BitVec w) (i : Nat) :
    (x &&& ~~~f.mask w).getLsbD i = (x.getLsbD i && !decide (f.Has i)) := by
  rw [BitVec.getLsbD_and, BitVec.getLsbD_not, getLsbD_mask]
  by_cases hi : i < w
  · simp [hi]
  · rw [BitVec.getLsbD_of_ge x i (by omega)]
    simp

theorem get_clear_self (f : BitField) (x : BitVec w) : f.get (x &&& ~~~f.mask w) = 0#w := by
  rw [← get_zero f]
  apply get_congr
  intro i hi
  rw [getLsbD_clear, decide_eq_true hi, BitVec.getLsbD_zero]
  simp

theorem get_clear_of_apart (h : f.Apart g) : f.get (x &&& ~~~g.mask w) = f.get x := by
  apply get_congr
  intro i hi
  rw [getLsbD_clear, decide_eq_false (h.not_has hi)]
  simp

/-- The bits of `f` are cleared and a value is shifted to `g`, which is `f` where mask and shift
    describe the same bits. -/
def replace (f g : BitField) (a x : BitVec w) : BitVec w := (x &&& ~~~f.mask w) ||| a <<< g.lsb

theorem get_replace_self (h : f.Fits a) (hw : f.lsb + f.width ≤ w) :
    f.get (replace f f a x) = a := by
  rw [replace, get_or, get_clear_self, h.get_shiftLeft hw, BitVec.zero_or]

/-- A field that is neither cleared nor written. -/
theorem get_replace_of_apart {k : BitField} (h : g.Fits a) (hf : k.Apart f) (hg : k.Apart g) :
    k.get (replace f g a x) = k.get x := by
  rw [replace, get_or, get_clear_of_apart hf, h.get_shiftLeft_of_apart hg, BitVec.or_zero]

theorem getLsbD_replace (h : g.Fits a) {i : Nat} (hf : ¬ f.Has i) (hg : ¬ g.Has i) :
    (replace f g a x).getLsbD i = x.getLsbD i := by
  rw [replace, BitVec.getLsbD_or, getLsbD_clear, h.getLsbD_shiftLeft hg, decide_eq_false hf]
  simp

/-- What has been put into a field is not cleared with another. -/
theorem Fits.clear_of_apart (h : g.Fits a) (hapart : g.Apart f) :
    a <<< g.lsb &&& ~~~f.mask w = a <<< g.lsb := by
  apply BitVec.eq_of_getLsbD_eq
  intro i _
  rw [getLsbD_clear]
  by_cases hi : g.Has i
  · rw [decide_eq_false (hapart.not_has hi)]
    simp
  · rw [h.getLsbD_shiftLeft hi, Bool.false_and]

theorem Fits.clear_self (h : f.Fits a) : a <<< f.lsb &&& ~~~f.mask w = 0#w := by
  apply BitVec.eq_of_getLsbD_eq
  intro i _
  rw [getLsbD_clear, BitVec.getLsbD_zero]
  by_cases hi : f.Has i
  · rw [decide_eq_true hi]
    simp
  · rw [h.getLsbD_shiftLeft hi, Bool.false_and]

/-- Two replacements commute where neither clears what the other has written. -/
theorem replace_comm {f' g' : BitField} {b : BitVec w} (ha : g.Fits a) (hb : g'.Fits b)
    (h : g.Apart f') (h' : g'.Apart f) :
    replace f g a (replace f' g' b x) = replace f' g' b (replace f g a x) := by
  unfold replace
  rw [BitVec.and_or_distrib_right, BitVec.and_or_distrib_right, ha.clear_of_apart h,
    hb.clear_of_apart h', BitVec.or_assoc, BitVec.or_assoc, BitVec.or_comm (b <<< g'.lsb),
    BitVec.and_assoc, BitVec.and_assoc, BitVec.and_comm (~~~f'.mask w)]

/-- A field that another replacement writes into as well ends up alike in both orders where the
    other adds no bit to it. -/
theorem replace_comm_of_or {f' : BitField} {b : BitVec w} (ha : f.Fits a) (hb : f.Fits b)
    (h : f.Apart f') (hor : a ||| b = a) :
    replace f f a (replace f' f b x) = replace f' f b (replace f f a x) := by
  unfold replace
  rw [BitVec.and_or_distrib_right, BitVec.and_or_distrib_right, hb.clear_self,
    ha.clear_of_apart h, BitVec.or_zero, BitVec.or_assoc, ← BitVec.shiftLeft_or_distrib, hor,
    BitVec.and_assoc, BitVec.and_assoc, BitVec.and_comm (~~~f'.mask w)]

/-- A field without bits is apart from every other. -/
theorem empty_apart (f : BitField) : (⟨0, 0⟩ : BitField).Apart f := Or.inl (Nat.zero_le _)

end BitField
