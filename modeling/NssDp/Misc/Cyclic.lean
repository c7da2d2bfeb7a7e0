import Mathlib.Data.List.Nodup
import Mathlib.Data.List.Range
import Mathlib.Data.Nat.ModEq
import Mathlib.Logic.Function.Basic

/-!
# Cyclic windows

Index arithmetic of a ring of `n` slots: `slot n base k` is `k` slots on from `base`,
`gap n c p` is the number of slots from a consumer index `c` up to a producer index `p`, and
`window n base k` lists `k` consecutive slots. The laws below say how a window grows at its
producer end and shrinks at its consumer end.
-/

namespace Cyclic

/-- The slot `k` places on from `base`. -/
def slot (n base k : Nat) : Nat := (base + k) % n

/-- How many slots lie from `c` up to, but excluding, `p`. -/
def gap (n c p : Nat) : Nat := (p + n - c) % n

/-- The `k` slots from `base` on, in ring order. -/
def window (n base k : Nat) : List Nat := (List.range k).map (slot n base)

theorem slot_lt {n : Nat} (hn : 0 < n) (base k : Nat) : slot n base k < n := Nat.mod_lt _ hn

theorem slot_zero {n base : Nat} (h : base < n) : slot n base 0 = base := Nat.mod_eq_of_lt h

/-- Stepping a slot on is moving one place further from the same base. -/
theorem slot_succ (n base k : Nat) : (slot n base k + 1) % n = slot n base (k + 1) := by
  simp [slot, Nat.add_assoc]

/-- Moving the base on shifts every slot by one. -/
theorem slot_next (n base k : Nat) : slot n ((base + 1) % n) k = slot n base (k + 1) := by
  simp [slot, Nat.add_assoc, Nat.add_comm 1 k]

/-- Fewer than `n` places apart, different places are different slots. -/
theorem slot_inj {n base i j : Nat} (hi : i < n) (hj : j < n)
    (h : slot n base i = slot n base j) : i = j := by
  have hmod : i ≡ j [MOD n] := Nat.ModEq.add_left_cancel' base h
  exact Nat.ModEq.eq_of_lt_of_lt hmod hi hj

/-- Two slots with one successor are the same. -/
theorem next_inj {n p c : Nat} (hp : p < n) (hc : c < n) (h : (p + 1) % n = (c + 1) % n) :
    p = c := by
  have hmod : p ≡ c [MOD n] := Nat.ModEq.add_right_cancel' 1 h
  exact Nat.ModEq.eq_of_lt_of_lt hmod hp hc

theorem gap_lt {n : Nat} (hn : 0 < n) (c p : Nat) : gap n c p < n := Nat.mod_lt _ hn

theorem gap_of_le {n c p : Nat} (hp : p < n) (h : c ≤ p) : gap n c p = p - c := by
  unfold gap
  rw [show p + n - c = p - c + n by omega, Nat.add_mod_right, Nat.mod_eq_of_lt (by omega)]

theorem gap_of_lt {n c p : Nat} (hc : c < n) (h : p < c) : gap n c p = p + n - c := by
  unfold gap
  rw [Nat.mod_eq_of_lt (by omega)]

@[simp] theorem gap_self (n c : Nat) : gap n c c = 0 := by simp [gap]

/-- The producer index lies `gap` places on from the consumer index. -/
theorem slot_gap {n c p : Nat} (hc : c < n) (hp : p < n) : slot n c (gap n c p) = p := by
  rcases Nat.lt_or_ge p c with h | h
  · rw [gap_of_lt hc h, slot, show c + (p + n - c) = p + n by omega, Nat.add_mod_right,
      Nat.mod_eq_of_lt hp]
  · rw [gap_of_le hp h, slot, Nat.add_sub_cancel' h, Nat.mod_eq_of_lt hp]

theorem gap_slot {n c k : Nat} (hc : c < n) (hk : k < n) : gap n c (slot n c k) = k := by
  have hn : 0 < n := Nat.lt_of_le_of_lt (Nat.zero_le k) hk
  exact slot_inj (gap_lt hn _ _) hk (slot_gap hc (slot_lt hn c k))

theorem gap_eq_zero {n c p : Nat} (hc : c < n) (hp : p < n) : gap n c p = 0 ↔ c = p := by
  constructor
  · intro h
    have := slot_gap hc hp
    rwa [h, slot_zero hc] at this
  · rintro rfl
    exact gap_self n c

/-- Moving the producer on by one, where that does not meet the consumer. -/
theorem gap_prod_succ {n c p : Nat} (hc : c < n) (hp : p < n) (h : (p + 1) % n ≠ c) :
    gap n c ((p + 1) % n) = gap n c p + 1 := by
  have hn : 0 < n := Nat.lt_of_le_of_lt (Nat.zero_le c) hc
  have hg := slot_gap hc hp
  have hlt := gap_lt hn c p
  have hnext : (p + 1) % n = slot n c (gap n c p + 1) := by
    rw [← slot_succ, hg]
  have hne : gap n c p + 1 ≠ n := by
    intro heq
    apply h
    rw [hnext, heq, slot, Nat.add_mod_right, Nat.mod_eq_of_lt hc]
  rw [hnext, gap_slot hc (by omega)]

/-- Moving the consumer on by one in a ring that is not empty. -/
theorem gap_cons_succ {n c p : Nat} (hc : c < n) (hp : p < n) (h : c ≠ p) :
    gap n c p = gap n ((c + 1) % n) p + 1 := by
  have hn : 0 < n := Nat.lt_of_le_of_lt (Nat.zero_le c) hc
  have hlt := gap_lt hn c p
  obtain ⟨k, hk⟩ : ∃ k, gap n c p = k + 1 :=
    Nat.exists_eq_succ_of_ne_zero fun h0 => h ((gap_eq_zero hc hp).mp h0)
  have hp' : p = slot n ((c + 1) % n) k := by rw [slot_next, ← hk, slot_gap hc hp]
  rw [hk]
  congr 1
  conv_rhs => rw [hp']
  rw [gap_slot (Nat.mod_lt _ hn) (by omega)]

/-- A producer has room before it where the ring is not full. -/
theorem room_iff {n c p : Nat} (hc : c < n) (hp : p < n) :
    (p + 1) % n ≠ c ↔ gap n c p + 1 < n := by
  have hn : 0 < n := Nat.zero_lt_of_lt hc
  constructor
  · intro hroom
    rw [← gap_prod_succ hc hp hroom]
    exact gap_lt hn _ _
  · intro hlt heq
    have hslot : slot n c (gap n c p + 1) = slot n c 0 := by
      rw [← slot_succ, slot_gap hc hp, heq, slot_zero hc]
    cases slot_inj hlt hn hslot

/-- How many slots a producer at `p` can fill before the next one is the consumer's. -/
def room (n c p : Nat) : Nat := (c + n - p - 1) % n

theorem room_lt {n : Nat} (hn : 0 < n) (c p : Nat) : room n c p < n := Nat.mod_lt _ hn

theorem slot_succ_eq_iff {n c p k : Nat} (hc : c < n) (hp : p < n) (hk : k < n) :
    slot n p (k + 1) = c ↔ k = room n c p := by
  have hshift : ∀ j, slot n p (j + 1) = slot n (p + 1) j := by
    intro j
    rw [slot, slot, Nat.add_right_comm, Nat.add_assoc]
  have hend : slot n p (room n c p + 1) = c := by
    rw [hshift, slot, room, Nat.add_mod_mod, show p + 1 + (c + n - p - 1) = c + n by omega,
      Nat.add_mod_right, Nat.mod_eq_of_lt hc]
  constructor
  · intro h
    rw [← hend, hshift, hshift] at h
    exact slot_inj hk (room_lt (Nat.zero_lt_of_lt hc) c p) h
  · rintro rfl
    exact hend

/-- What a producer can fill is what the window leaves over, but for one slot. -/
theorem gap_add_room {n c p : Nat} (hc : c < n) (hp : p < n) :
    gap n c p + room n c p + 1 = n := by
  rcases Nat.lt_or_ge p c with h | h
  · rw [gap_of_lt hc h, room, show c + n - p - 1 = c - p - 1 + n by omega, Nat.add_mod_right,
      Nat.mod_eq_of_lt (by omega)]
    omega
  · rw [gap_of_le hp h, room, Nat.mod_eq_of_lt (by omega)]
    omega

theorem slot_slot (n base i j : Nat) : slot n (slot n base i) j = slot n base (i + j) := by
  rw [slot, slot, slot, Nat.mod_add_mod, Nat.add_assoc]

/-- A producer moves on by several slots. -/
theorem gap_slot_add {n c p k : Nat} (hc : c < n) (hp : p < n) (hk : gap n c p + k < n) :
    gap n c (slot n p k) = gap n c p + k := by
  conv_lhs => rw [← slot_gap hc hp, slot_slot]
  exact gap_slot hc hk

/-- A consumer moves on by several slots. -/
theorem gap_slot_cons {n c p k : Nat} (hc : c < n) (hp : p < n) (hk : k ≤ gap n c p) :
    gap n (slot n c k) p = gap n c p - k := by
  have hn : 0 < n := Nat.zero_lt_of_lt hc
  have hlt := gap_lt hn c p
  have hslot : slot n (slot n c k) (gap n c p - k) = p := by
    rw [slot_slot, Nat.add_sub_cancel' hk, slot_gap hc hp]
  conv_lhs => rw [← hslot]
  exact gap_slot (slot_lt hn c k) (by omega)

@[simp] theorem window_zero (n base : Nat) : window n base 0 = [] := rfl

@[simp] theorem length_window (n base k : Nat) : (window n base k).length = k := by
  simp [window]

/-- A window grows at its producer end. -/
theorem window_succ (n base k : Nat) :
    window n base (k + 1) = window n base k ++ [slot n base k] := by
  simp [window, List.range_succ]

/-- A window shrinks at its consumer end. -/
theorem window_succ_cons {n base : Nat} (hb : base < n) (k : Nat) :
    window n base (k + 1) = base :: window n ((base + 1) % n) k := by
  simp only [window, List.range_succ_eq_map, List.map_cons, List.map_map, slot_zero hb,
    List.cons.injEq, true_and]
  exact List.map_congr_left fun i _ => (slot_next n base i).symm

/-- A window in two parts. -/
theorem window_add (n base i j : Nat) :
    window n base (i + j) = window n base i ++ window n (slot n base i) j := by
  rw [window, List.range_add, List.map_append, List.map_map]
  refine congrArg _ (List.map_congr_left fun k _ => ?_)
  exact (slot_slot n base i k).symm

theorem mem_window {n base k j : Nat} : j ∈ window n base k ↔ ∃ i < k, slot n base i = j := by
  simp [window]

theorem lt_of_mem_window {n base k j : Nat} (hn : 0 < n) (h : j ∈ window n base k) : j < n := by
  obtain ⟨i, _, rfl⟩ := mem_window.mp h
  exact slot_lt hn base i

/-- The slot after a window that is not the whole ring lies outside it. -/
theorem slot_notMem_window {n base k : Nat} (hk : k < n) : slot n base k ∉ window n base k := by
  intro h
  obtain ⟨i, hi, heq⟩ := mem_window.mp h
  have := slot_inj (by omega) hk heq
  omega

theorem nodup_window {n base k : Nat} (hk : k ≤ n) : (window n base k).Nodup := by
  refine List.Nodup.map_on ?_ List.nodup_range
  intro i hi j hj h
  rw [List.mem_range] at hi hj
  exact slot_inj (by omega) (by omega) h

/-- A producer that moves on adds its slot to the window behind it. -/
theorem window_push {n cons prod : Nat} (hcons : cons < n) (hprod : prod < n)
    (hroom : (prod + 1) % n ≠ cons) :
    window n cons (gap n cons ((prod + 1) % n)) = window n cons (gap n cons prod) ++ [prod] := by
  rw [gap_prod_succ hcons hprod hroom, window_succ, slot_gap hcons hprod]

/-- A consumer that moves on leaves the first slot of the window. -/
theorem window_take {n cons prod : Nat} (hcons : cons < n) (hprod : prod < n) (hne : cons ≠ prod) :
    window n cons (gap n cons prod) =
      cons :: window n ((cons + 1) % n) (gap n ((cons + 1) % n) prod) := by
  rw [gap_cons_succ hcons hprod hne, window_succ_cons hcons]

/-- The producer's own slot is outside the window. -/
theorem prod_notMem_window {n cons prod : Nat} (hcons : cons < n) (hprod : prod < n) :
    prod ∉ window n cons (gap n cons prod) := by
  have hnot := @slot_notMem_window n cons _ (gap_lt (Nat.zero_lt_of_lt hcons) cons prod)
  rwa [slot_gap hcons hprod] at hnot

section Rings

variable {count cons prod : Nat → Nat} {t : Nat}

/-- The windows of several rings. -/
def windows (count cons prod : Nat → Nat) (t : Nat) : List Nat :=
  window (count t) (cons t) (gap (count t) (cons t) (prod t))

theorem nodup_windows (hcons : cons t < count t) : (windows count cons prod t).Nodup :=
  nodup_window (gap_lt (Nat.zero_lt_of_lt hcons) _ _).le

/-- The producer of one ring moves on. -/
theorem windows_push (hcons : cons t < count t) (hprod : prod t < count t)
    (hroom : (prod t + 1) % count t ≠ cons t) :
    windows count cons (Function.update prod t ((prod t + 1) % count t)) =
      Function.update (windows count cons prod) t (windows count cons prod t ++ [prod t]) := by
  funext r
  by_cases hr : r = t
  · subst hr
    simp only [windows, Function.update_self]
    exact window_push hcons hprod hroom
  · simp only [windows, Function.update_of_ne hr]

/-- The consumer of one ring moves on. -/
theorem windows_take (hcons : cons t < count t) (hprod : prod t < count t)
    (hne : cons t ≠ prod t) : ∃ rest, windows count cons prod t = cons t :: rest ∧
      windows count (Function.update cons t ((cons t + 1) % count t)) prod =
        Function.update (windows count cons prod) t rest := by
  refine ⟨_, window_take hcons hprod hne, ?_⟩
  funext r
  by_cases hr : r = t
  · subst hr
    simp only [windows, Function.update_self]
  · simp only [windows, Function.update_of_ne hr]

/-- The consumer of one ring catches up with its producer. -/
theorem windows_empty : windows count (Function.update cons t (prod t)) prod =
    Function.update (windows count cons prod) t [] := by
  funext r
  by_cases hr : r = t
  · subst hr
    simp only [windows, Function.update_self, gap_self, window_zero]
  · simp only [windows, Function.update_of_ne hr]

end Rings

/-- Writing a slot that a list of slots leaves out does not change what they hold. -/
theorem map_update_of_notMem {β : Type*} (f : Nat → β) {i : Nat} (v : β) {l : List Nat}
    (h : i ∉ l) : l.map (Function.update f i v) = l.map f :=
  List.map_congr_left fun _ hj => Function.update_of_ne (ne_of_mem_of_not_mem hj h) v f

/-- The mask of a ring whose size is a power of two reduces modulo the size. -/
theorem and_mask (x k : Nat) : x &&& (2 ^ k - 1) = x % 2 ^ k :=
  Nat.and_two_pow_sub_one_eq_mod x k

end Cyclic
