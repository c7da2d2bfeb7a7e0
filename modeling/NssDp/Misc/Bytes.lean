import NssDp.Misc.Word

/-!
# Bytes in words, and words in memory

A register of 32 bits is put together from bytes by shifts and taken apart by shifts and masks.
Bytes that are put where they do not meet come apart again. In memory a record of 64-bit words is
a sequence of bytes, of which a load at an offset may see a part.
-/

namespace Bytes

open Word

/-- A byte, shifted to bit `n` of a word. -/
def byteShl (b : BitVec 8) (n : Nat) : BitVec 32 := b.setWidth 32 <<< n

/-- The byte at bit `n` of a word. -/
def byteAt (x : BitVec 32) (n : Nat) : BitVec 8 := (x >>> n &&& 0xff#32).setWidth 8

theorem getLsbD_byteAt (x : BitVec 32) {n i : Nat} (hi : i < 8) :
    (byteAt x n).getLsbD i = x.getLsbD (n + i) := by
  have hmask : ∀ i < 8, (0xff#32).getLsbD i = true := by decide
  unfold byteAt
  rw [BitVec.getLsbD_setWidth, BitVec.getLsbD_and, BitVec.getLsbD_ushiftRight, hmask i hi]
  simp [hi]

theorem getLsbD_byteShl (b : BitVec 8) (n i : Nat) :
    (byteShl b n).getLsbD i = (decide (i < 32) && !decide (i < n) && b.getLsbD (i - n)) := by
  unfold byteShl
  rw [BitVec.getLsbD_shiftLeft, BitVec.getLsbD_setWidth]
  by_cases hi : i < 32
  · rw [show decide (i - n < 32) = true by simp; omega, Bool.true_and]
  · simp [hi]

@[simp] theorem byteAt_or (x y : BitVec 32) (n : Nat) :
    byteAt (x ||| y) n = byteAt x n ||| byteAt y n := by
  apply BitVec.eq_of_getLsbD_eq
  intro i hi
  rw [BitVec.getLsbD_or, getLsbD_byteAt _ hi, getLsbD_byteAt _ hi, getLsbD_byteAt _ hi,
    BitVec.getLsbD_or]

/-- A byte is found where it was put. -/
theorem byteAt_byteShl {n : Nat} (b : BitVec 8) (hn : n ≤ 24) : byteAt (byteShl b n) n = b := by
  apply BitVec.eq_of_getLsbD_eq
  intro i hi
  rw [getLsbD_byteAt _ hi, getLsbD_byteShl, Nat.add_sub_cancel_left]
  simp
  omega

/-- And nowhere else. -/
theorem byteAt_byteShl_of_apart {m n : Nat} (b : BitVec 8) (h : m + 8 ≤ n ∨ n + 8 ≤ m) :
    byteAt (byteShl b m) n = 0#8 := by
  apply BitVec.eq_of_getLsbD_eq
  intro i hi
  rw [getLsbD_byteAt _ hi, getLsbD_byteShl, BitVec.getLsbD_zero]
  rcases h with hbelow | habove
  · rw [BitVec.getLsbD_of_ge _ _ (by omega), Bool.and_false]
  · rw [show decide (n + i < m) = true by simp; omega]
    simp

/-- The bytes of a 64-bit word in memory, least significant first. -/
def le64 (w : BitVec 64) : List (BitVec 8) :=
  le32 (w.setWidth 32) ++ le32 ((w >>> 32).setWidth 32)

@[simp] theorem length_le64 (w : BitVec 64) : (le64 w).length = 8 := rfl

/-- What follows an offset in a sequence of pieces of one length. -/
theorem drop_flatMap {α β : Type*} {f : α → List β} {n : Nat} (hlen : ∀ a, (f a).length = n) :
    ∀ {l : List α} {i : Nat} {a : α}, l[i]? = some a →
      ∃ rest, (l.flatMap f).drop (n * i) = f a ++ rest := by
  intro l
  induction l with
  | nil => exact fun h => nomatch h
  | cons b l ih =>
    intro i a h
    rw [List.flatMap_cons]
    cases i with
    | zero =>
      cases h
      exact ⟨l.flatMap f, rfl⟩
    | succ i =>
      rw [Nat.mul_succ, Nat.add_comm, ← List.drop_drop, List.drop_left' (hlen b)]
      exact ih h

/-- A load of 32 bits from a record of 64-bit words sees the lower half of a word. -/
theorem readLe32_record {α : Type*} (f : α → BitVec 64) {l : List α} {i : Nat} {a : α}
    (h : l[i]? = some a) :
    readLe32 ((l.flatMap fun a => le64 (f a)).drop (8 * i)) = (f a).setWidth 32 := by
  obtain ⟨rest, hrest⟩ := drop_flatMap (fun a => length_le64 (f a)) h
  rw [hrest, le64, List.append_assoc, readLe32_le32]

/-- That is the word just when its upper half is zero. -/
theorem setWidth_setWidth_eq_iff (x : BitVec 64) :
    (x.setWidth 32).setWidth 64 = x ↔ x.toNat < 2 ^ 32 := by
  rw [← BitVec.toNat_inj, BitVec.toNat_setWidth, BitVec.toNat_setWidth]
  have hx := x.isLt
  omega

end Bytes
