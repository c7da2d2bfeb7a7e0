import Mathlib.Data.List.Pairwise
import Mathlib.Tactic.Common

/-!
# Memory maps

A device has its registers in blocks of pages, one page for each instance of what the block is
for, and each page has its registers at the same places. Where no two blocks share a page, an
offset belongs to one register at most, and the register can be found from the offset.
-/

namespace MemoryMap

variable {R : Type*}

/-- A block of pages: the number of its first page, and the register of an instance at a place. -/
structure Block (R : Type*) where
  first : Nat
  pages : Nat
  reg : Nat → Nat → Option R

/-- The block has no page of the other. -/
def Block.Apart (b c : Block R) : Prop := b.first + b.pages ≤ c.first ∨ c.first + c.pages ≤ b.first

instance (b c : Block R) : Decidable (b.Apart c) := inferInstanceAs (Decidable (_ ∨ _))

/-- A register is in a block, at an offset. -/
def Block.Has (size : Nat) (b : Block R) (r : R) (off : Nat) : Prop :=
  ∃ n < b.pages, ∃ place < size, off = size * (b.first + n) + place ∧ b.reg n place = some r

/-- The register of a block at an offset. -/
def Block.find (size : Nat) (b : Block R) (off : Nat) : Option R :=
  if b.first ≤ off / size ∧ off / size < b.first + b.pages then
    b.reg (off / size - b.first) (off % size)
  else none

/-- The register at an offset. -/
def decode (size : Nat) (blocks : List (Block R)) (off : Nat) : Option R :=
  blocks.findSome? fun b => b.find size off

variable {size : Nat} {b c : Block R} {blocks : List (Block R)} {r : R} {off : Nat}

theorem div_mod_page {place : Nat} (hplace : place < size) (page : Nat) :
    (size * page + place) / size = page ∧ (size * page + place) % size = place := by
  refine ⟨?_, ?_⟩
  · rw [Nat.mul_add_div (Nat.zero_lt_of_lt hplace), Nat.div_eq_of_lt hplace, Nat.add_zero]
  · rw [Nat.mul_add_mod, Nat.mod_eq_of_lt hplace]

theorem Block.find_eq_some (hsize : 0 < size) :
    b.find size off = some r ↔ b.Has size r off := by
  constructor
  · intro h
    rw [Block.find] at h
    split at h
    · rename_i hpage
      refine ⟨off / size - b.first, by omega, off % size, Nat.mod_lt _ hsize, ?_, h⟩
      rw [Nat.add_sub_cancel' hpage.1, Nat.div_add_mod]
    · cases h
  · rintro ⟨n, hn, place, hplace, rfl, hreg⟩
    obtain ⟨hpage, hmod⟩ := div_mod_page hplace (b.first + n)
    rw [Block.find, hpage, hmod, if_pos ⟨Nat.le_add_right _ _, by omega⟩, Nat.add_sub_cancel_left]
    exact hreg

/-- A block does not have what is at the offsets of another. -/
theorem Block.Apart.find_eq_none (hapart : b.Apart c) (hc : c.Has size r off) :
    b.find size off = none := by
  obtain ⟨n, hn, place, hplace, rfl, -⟩ := hc
  rw [Block.find, (div_mod_page hplace (c.first + n)).1]
  apply if_neg
  rw [Block.Apart] at hapart
  omega

/-- Decoding finds what is there, and nothing else. -/
theorem decode_eq_some (hsize : 0 < size) (hapart : blocks.Pairwise Block.Apart) :
    decode size blocks off = some r ↔ ∃ b ∈ blocks, b.Has size r off := by
  constructor
  · intro h
    obtain ⟨b, hb, hfind⟩ := List.exists_of_findSome?_eq_some h
    exact ⟨b, hb, (Block.find_eq_some hsize).mp hfind⟩
  · rintro ⟨c, hc, hhas⟩
    rw [decode]
    induction hapart with
    | nil => exact absurd hc List.not_mem_nil
    | cons hfirst _ ih =>
      rw [List.findSome?_cons]
      rcases List.mem_cons.mp hc with rfl | hc
      · rw [(Block.find_eq_some hsize).mpr hhas]
      · rw [(hfirst c hc).find_eq_none hhas]
        exact ih hc

end MemoryMap
