import Mathlib.Algebra.Group.Nat.Defs
import Mathlib.Tactic.Common

/-!
# Machine words

Unsigned C integers are natural numbers reduced by hand where an operation can leave the
range of the type; the descriptor and register words, on which the drivers work bit by bit,
are `BitVec`s. `masked` collects what a mask sees of a word built from other words.
-/

namespace Word

/-- Conversion to a 16-bit unsigned integer. -/
def u16 (n : Nat) : Nat := n % 2 ^ 16

/-- Conversion to a 32-bit unsigned integer. -/
def u32 (n : Nat) : Nat := n % 2 ^ 32

/-- Subtraction of 32-bit unsigned integers. -/
def u32Sub (a b : Nat) : Nat := (a + 2 ^ 32 - b) % 2 ^ 32

/-- Conversion to a 32-bit signed integer. -/
def i32 (n : Nat) : Int := (BitVec.ofNat 32 n).toInt

instance decidableMem {w : Nat} (x : BitVec w) (l : List (BitVec w)) : Decidable (x ∈ l) :=
  List.instDecidableMemOfLawfulBEq x l

theorem u16_of_lt {n : Nat} (h : n < 2 ^ 16) : u16 n = n := Nat.mod_eq_of_lt h

theorem u16_lt (n : Nat) : u16 n < 2 ^ 16 := Nat.mod_lt _ (by decide)

/-- The sizes of rings whose indices fit 16 bits with one to spare. -/
theorem lt_of_pow {n : Nat} (h : ∃ k ≤ 15, n = 2 ^ k) : n < 2 ^ 16 := by
  obtain ⟨k, hk, rfl⟩ := h
  exact Nat.pow_lt_pow_right Nat.one_lt_two (Nat.lt_succ_of_le hk)

theorem u32_of_lt {n : Nat} (h : n < 2 ^ 32) : u32 n = n := Nat.mod_eq_of_lt h

theorem u32_lt (n : Nat) : u32 n < 2 ^ 32 := Nat.mod_lt _ (by decide)

theorem u32Sub_of_le {a b : Nat} (h : b ≤ a) (ha : a < 2 ^ 32) : u32Sub a b = a - b := by
  unfold u32Sub
  rw [show a + 2 ^ 32 - b = a - b + 2 ^ 32 by omega, Nat.add_mod_right,
    Nat.mod_eq_of_lt (by omega)]

theorem i32_of_lt {n : Nat} (h : n < 2 ^ 31) : i32 n = n := by
  rw [i32, BitVec.toInt_eq_toNat_of_lt, BitVec.toNat_ofNat, Nat.mod_eq_of_lt (by omega)]
  rw [BitVec.toNat_ofNat, Nat.mod_eq_of_lt (by omega)]
  omega

/-- The bytes of a 16-bit word in memory, least significant first. -/
def le16 (w : BitVec 16) : List (BitVec 8) := [w.extractLsb' 0 8, w.extractLsb' 8 8]

/-- The bytes of a 32-bit word in memory, least significant first. -/
def le32 (w : BitVec 32) : List (BitVec 8) :=
  [w.extractLsb' 0 8, w.extractLsb' 8 8, w.extractLsb' 16 8, w.extractLsb' 24 8]

/-- The 32-bit word at the front of a sequence of bytes; missing bytes read as zero. -/
def readLe32 (bytes : List (BitVec 8)) : BitVec 32 :=
  bytes.getD 3 0#8 ++ bytes.getD 2 0#8 ++ bytes.getD 1 0#8 ++ bytes.getD 0 0#8

@[simp] theorem length_le16 (w : BitVec 16) : (le16 w).length = 2 := rfl

@[simp] theorem length_le32 (w : BitVec 32) : (le32 w).length = 4 := rfl

theorem readLe32_le32 (w : BitVec 32) (rest : List (BitVec 8)) :
    readLe32 (le32 w ++ rest) = w := by
  simp only [readLe32, le32, List.cons_append, List.getD_cons_succ, List.getD_cons_zero]
  rw [BitVec.extractLsb'_append_extractLsb'_eq_extractLsb' (by decide),
    BitVec.extractLsb'_append_extractLsb'_eq_extractLsb' (by decide),
    BitVec.extractLsb'_append_extractLsb'_eq_extractLsb' (by decide)]
  exact BitVec.extractLsb'_eq_self

variable {w : Nat}

/-- A mask applied after another mask that covers it. -/
theorem masked_and {x m k : BitVec w} (h : m &&& k = k) : (x &&& m) &&& k = x &&& k := by
  rw [BitVec.and_assoc, h]

/-- A mask that misses a word added to another sees only the other. -/
theorem masked_or_of_disjoint {x y m : BitVec w} (h : y &&& m = 0#w) :
    (x ||| y) &&& m = x &&& m := by
  rw [BitVec.and_or_distrib_right, h, BitVec.or_zero]

/-- A mask that lies inside a word added to another sees itself. -/
theorem masked_or_of_covered {x y m : BitVec w} (h : y &&& m = m) : (x ||| y) &&& m = m := by
  rw [BitVec.and_or_distrib_right, h]
  ext i hi
  simp only [BitVec.getElem_or, BitVec.getElem_and]
  cases m[i] <;> simp

end Word
