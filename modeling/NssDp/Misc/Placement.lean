import Mathlib.Data.List.Nodup
import Mathlib.Logic.Function.Basic

/-!
# Things and their places

Things move between places: `f k` is what place `k` holds. `Distinct f` says that nothing is
in two places. A store has a slot for each thing, and `Stored f slot store` says that the
store holds exactly what has a place, each thing in its own slot; so two things with one slot
are the same. The laws below are those of a thing that comes, moves or leaves.
-/

namespace Placement

variable {κ α : Type*} {f g : κ → Option α} {slot : α → Nat} {store : Nat → Option α}

/-- Nothing is in two places. -/
def Distinct (f : κ → Option α) : Prop :=
  ∀ ⦃k k' : κ⦄ ⦃a : α⦄, f k = some a → f k' = some a → k = k'

/-- The store holds what has a place, in its slot. -/
structure Stored (f : κ → Option α) (slot : α → Nat) (store : Nat → Option α) : Prop where
  stored : ∀ {k a}, f k = some a → store (slot a) = some a
  placed : ∀ {i a}, store i = some a → slot a = i ∧ ∃ k, f k = some a

theorem Distinct.empty (h : ∀ k, f k = none) : Distinct f := by
  intro k k' a hk
  rw [h k] at hk
  cases hk

/-- Places may be emptied. -/
theorem Distinct.of_sub (h : Distinct f) (hsub : ∀ k a, g k = some a → f k = some a) :
    Distinct g := fun _ _ _ hk hk' => h (hsub _ _ hk) (hsub _ _ hk')

/-- Two things with one slot are the same. -/
theorem Stored.slot_inj (h : Stored f slot store) {k k' : κ} {a b : α} (hk : f k = some a)
    (hk' : f k' = some b) (hslot : slot a = slot b) : a = b := by
  have ha := h.stored hk
  have hb := h.stored hk'
  rw [hslot] at ha
  exact Option.some.inj (ha.symm.trans hb)

section Moves

variable [DecidableEq κ] {src dst k : κ} {a : α}

theorem of_update_some {b : α} (hk : Function.update f dst (some a) k = some b) :
    (k = dst ∧ b = a) ∨ (k ≠ dst ∧ f k = some b) := by
  by_cases heq : k = dst
  · subst heq
    rw [Function.update_self] at hk
    exact Or.inl ⟨rfl, (Option.some.inj hk).symm⟩
  · rw [Function.update_of_ne heq] at hk
    exact Or.inr ⟨heq, hk⟩

/-- Something new gets a place. -/
theorem Distinct.insert (h : Distinct f) (hnew : ∀ k, f k ≠ some a) :
    Distinct (Function.update f dst (some a)) := by
  intro k k' b hk hk'
  rcases of_update_some hk with ⟨rfl, rfl⟩ | ⟨-, hf⟩
  · rcases of_update_some hk' with ⟨rfl, -⟩ | ⟨-, hf'⟩
    · rfl
    · exact absurd hf' (hnew k')
  · rcases of_update_some hk' with ⟨-, rfl⟩ | ⟨-, hf'⟩
    · exact absurd hf (hnew k)
    · exact h hf hf'

/-- Taken from its place, a thing is nowhere. -/
theorem Distinct.update_none (h : Distinct f) (hsrc : f src = some a) (k : κ) :
    Function.update f src none k ≠ some a := by
  intro hk
  rcases eq_or_ne k src with rfl | hne
  · rw [Function.update_self] at hk
    cases hk
  · rw [Function.update_of_ne hne] at hk
    exact hne (h hk hsrc)

theorem of_update_none {b : α} (hk : Function.update f src none k = some b) :
    k ≠ src ∧ f k = some b := by
  rcases eq_or_ne k src with rfl | hne
  · rw [Function.update_self] at hk
    cases hk
  · rw [Function.update_of_ne hne] at hk
    exact ⟨hne, hk⟩

/-- A thing moves from one place to another. -/
theorem Distinct.move (h : Distinct f) (hsrc : f src = some a) :
    Distinct (Function.update (Function.update f src none) dst (some a)) :=
  (h.of_sub fun _ _ hk => (of_update_none hk).2).insert (h.update_none hsrc)

/-- Everything else stays where it is. -/
theorem Stored.move (h : Stored f slot store) (hsrc : f src = some a) (hempty : f dst = none) :
    Stored (Function.update (Function.update f src none) dst (some a)) slot store := by
  constructor
  · intro k b hk
    rcases of_update_some hk with ⟨-, rfl⟩ | ⟨-, hk⟩
    · exact h.stored hsrc
    · exact h.stored (of_update_none hk).2
  · intro i b hi
    obtain ⟨hslot, k, hk⟩ := h.placed hi
    refine ⟨hslot, ?_⟩
    rcases eq_or_ne k src with rfl | hne
    · cases hsrc.symm.trans hk
      exact ⟨dst, Function.update_self _ _ _⟩
    · have hkdst : k ≠ dst := by
        rintro rfl
        rw [hempty] at hk
        cases hk
      refine ⟨k, ?_⟩
      rw [Function.update_of_ne hkdst, Function.update_of_ne hne]
      exact hk

/-- Something new goes into its slot, which is free. -/
theorem Stored.insert (h : Stored f slot store) (hfree : store (slot a) = none)
    (hempty : f dst = none) :
    Stored (Function.update f dst (some a)) slot (Function.update store (slot a) (some a)) := by
  constructor
  · intro k b hk
    rcases of_update_some hk with ⟨-, rfl⟩ | ⟨-, hk⟩
    · exact Function.update_self _ _ _
    · have hb := h.stored hk
      have hslot : slot b ≠ slot a := by
        intro heq
        rw [heq, hfree] at hb
        cases hb
      rw [Function.update_of_ne hslot]
      exact hb
  · intro i b hi
    rcases of_update_some hi with ⟨rfl, rfl⟩ | ⟨-, hi⟩
    · exact ⟨rfl, dst, Function.update_self _ _ _⟩
    · obtain ⟨hslot, k, hk⟩ := h.placed hi
      have hkdst : k ≠ dst := by
        rintro rfl
        rw [hempty] at hk
        cases hk
      refine ⟨hslot, k, ?_⟩
      rw [Function.update_of_ne hkdst]
      exact hk

end Moves

/-- What has a place is in one slot. -/
theorem Stored.existsUnique (h : Stored f slot store) {k : κ} {a : α} (hk : f k = some a) :
    ∃! i, store i = some a :=
  ⟨slot a, h.stored hk, fun _ hi => (h.placed hi).1.symm⟩

/-- What has no place is in no slot. -/
theorem Stored.absent (h : Stored f slot store) {a : α} (hnone : ∀ k, f k ≠ some a) (i : Nat) :
    store i ≠ some a := by
  intro hi
  obtain ⟨-, k, hk⟩ := h.placed hi
  exact hnone k hk

/-- The things at the places `K` leave, and their slots are emptied. -/
theorem Stored.clear {slots : List Nat} {K : κ → Prop} [DecidablePred K]
    (h : Stored f slot store) (hslots : ∀ i, i ∈ slots ↔ ∃ k a, K k ∧ f k = some a ∧ slot a = i)
    (hdistinct : Distinct f) :
    Stored (fun k => if K k then none else f k) slot
      (fun i => if i ∈ slots then none else store i) := by
  constructor
  · intro k b hk
    split at hk
    · cases hk
    · rename_i hK
      have hnot : slot b ∉ slots := by
        intro hmem
        obtain ⟨k', a, hK', hk', hslot⟩ := (hslots _).mp hmem
        rw [h.slot_inj hk' hk hslot] at hk'
        exact hK (hdistinct hk' hk ▸ hK')
      rw [if_neg hnot]
      exact h.stored hk
  · intro i b hi
    split at hi
    · cases hi
    · rename_i hnot
      obtain ⟨hslot, k, hk⟩ := h.placed hi
      have hK : ¬ K k := fun hK => hnot ((hslots i).mpr ⟨k, b, hK, hk, hslot⟩)
      refine ⟨hslot, k, ?_⟩
      rw [if_neg hK]
      exact hk

/-- An account of things: `f` is where they are and `g` where those are that the store holds;
    `seen` are the names that have been used, `gone` are the things that have left, and `taken`
    those that must be in the store or gone. -/
structure Custody {ν : Type*} (f g : κ → Option α) (slot : α → Nat) (store : Nat → Option α)
    (name : α → ν) (seen : List ν) (gone taken : List α) : Prop where
  distinct : Distinct f
  sub : ∀ k a, g k = some a → f k = some a
  stored : Stored g slot store
  known : ∀ k a, f k = some a → name a ∈ seen
  goneKnown : ∀ a ∈ gone, name a ∈ seen
  goneOnce : gone.Nodup
  apart : ∀ k a, f k = some a → a ∉ gone
  accounted : ∀ a ∈ taken, a ∈ gone ∨ ∃ k, g k = some a

namespace Custody

variable {ν : Type*} {name : α → ν} {seen : List ν} {gone taken : List α}

theorem empty (hf : ∀ k, f k = none) (hg : ∀ k, g k = none) (hstore : ∀ i, store i = none) :
    Custody f g slot store name [] [] [] := by
  refine ⟨Distinct.empty hf, ?_, ⟨?_, ?_⟩, ?_, ?_, List.nodup_nil, ?_, ?_⟩
  · intro k a hk
    cases (hg k).symm.trans hk
  · intro k a hk
    cases (hg k).symm.trans hk
  · intro i a hi
    cases (hstore i).symm.trans hi
  · intro k a hk
    cases (hf k).symm.trans hk
  · intro a ha
    cases ha
  · intro k a hk
    cases (hf k).symm.trans hk
  · intro a ha
    cases ha

section Steps

variable [DecidableEq κ] {src dst : κ} {a : α}

/-- Something with a new name comes. -/
theorem hand (h : Custody f g slot store name seen gone taken) (hnew : name a ∉ seen)
    (hempty : f dst = none) :
    Custody (Function.update f dst (some a)) g slot store name (seen ++ [name a]) gone taken := by
  have hmono : ∀ {n}, n ∈ seen → n ∈ seen ++ [name a] := List.mem_append_left _
  refine ⟨h.distinct.insert ?_, ?_, h.stored, ?_, fun b hb => hmono (h.goneKnown b hb), h.goneOnce,
    ?_, h.accounted⟩
  · intro k hk
    exact hnew (h.known k a hk)
  · intro k b hk
    have hf := h.sub k b hk
    have hne : k ≠ dst := by
      rintro rfl
      cases hempty.symm.trans hf
    rw [Function.update_of_ne hne]
    exact hf
  · intro k b hk
    rcases of_update_some hk with ⟨-, rfl⟩ | ⟨-, hk⟩
    · exact List.mem_append_right _ (List.mem_singleton_self _)
    · exact hmono (h.known k b hk)
  · intro k b hk hgone
    rcases of_update_some hk with ⟨-, rfl⟩ | ⟨-, hk⟩
    · exact hnew (h.goneKnown b hgone)
    · exact h.apart k b hk hgone

/-- It goes into its slot, which is free. -/
theorem keep (h : Custody f g slot store name seen gone taken) (hsrc : f src = some a)
    (hempty : g src = none) (hfree : store (slot a) = none) :
    Custody f (Function.update g src (some a)) slot (Function.update store (slot a) (some a))
      name seen gone taken := by
  refine ⟨h.distinct, ?_, h.stored.insert hfree hempty, h.known, h.goneKnown, h.goneOnce, h.apart,
    ?_⟩
  · intro k b hk
    rcases of_update_some hk with ⟨rfl, rfl⟩ | ⟨-, hk⟩
    · exact hsrc
    · exact h.sub k b hk
  · intro b hb
    rcases h.accounted b hb with hgone | ⟨k, hk⟩
    · exact Or.inl hgone
    · have hne : k ≠ src := by
        rintro rfl
        cases hempty.symm.trans hk
      exact Or.inr ⟨k, (Function.update_of_ne hne _ _).trans hk⟩

/-- It moves. -/
theorem move (h : Custody f g slot store name seen gone taken) (hsrc : g src = some a)
    (hempty : f dst = none) :
    Custody (Function.update (Function.update f src none) dst (some a))
      (Function.update (Function.update g src none) dst (some a)) slot store name seen gone
        taken := by
  have hf := h.sub src a hsrc
  have hgdst : g dst = none := by
    cases hg : g dst with
    | none => rfl
    | some b => cases hempty.symm.trans (h.sub dst b hg)
  have hback : ∀ k b, Function.update (Function.update f src none) dst (some a) k = some b →
      ∃ k', f k' = some b := by
    intro k b hk
    rcases of_update_some hk with ⟨-, rfl⟩ | ⟨-, hk⟩
    · exact ⟨src, hf⟩
    · exact ⟨k, (of_update_none hk).2⟩
  refine ⟨h.distinct.move hf, ?_, h.stored.move hsrc hgdst, ?_, h.goneKnown, h.goneOnce, ?_, ?_⟩
  · intro k b hk
    rcases of_update_some hk with ⟨rfl, rfl⟩ | ⟨hne, hk⟩
    · exact Function.update_self _ _ _
    · obtain ⟨hsrc', hk⟩ := of_update_none hk
      rw [Function.update_of_ne hne, Function.update_of_ne hsrc']
      exact h.sub k b hk
  · intro k b hk
    obtain ⟨k', hk'⟩ := hback k b hk
    exact h.known k' b hk'
  · intro k b hk
    obtain ⟨k', hk'⟩ := hback k b hk
    exact h.apart k' b hk'
  · intro b hb
    rcases h.accounted b hb with hgone | ⟨k, hk⟩
    · exact Or.inl hgone
    · have hstored := (h.stored.move hsrc hgdst).placed (h.stored.stored hk)
      exact Or.inr hstored.2

end Steps

/-- It is now one of those that must be in the store or gone. -/
theorem take (h : Custody f g slot store name seen gone taken) {a : α}
    (hin : a ∈ gone ∨ ∃ k, g k = some a) :
    Custody f g slot store name seen gone (taken ++ [a]) := by
  refine ⟨h.distinct, h.sub, h.stored, h.known, h.goneKnown, h.goneOnce, h.apart, ?_⟩
  intro b hb
  rcases List.mem_append.mp hb with hb | hb
  · exact h.accounted b hb
  · rw [List.mem_singleton.mp hb]
    exact hin

/-- What is at the places `K` leaves the store and is gone. -/
theorem reap (h : Custody f g slot store name seen gone taken) {K : κ → Prop} [DecidablePred K]
    {slots : List Nat} {out : List α}
    (hslots : ∀ i, i ∈ slots ↔ ∃ k a, K k ∧ g k = some a ∧ slot a = i)
    (hout : ∀ a, a ∈ out ↔ ∃ k, K k ∧ g k = some a) (honce : out.Nodup) :
    Custody (fun k => if K k then none else f k) (fun k => if K k then none else g k) slot
      (fun i => if i ∈ slots then none else store i) name seen (gone ++ out) taken := by
  have hdistinct : Distinct g := h.distinct.of_sub h.sub
  refine ⟨?_, ?_, h.stored.clear hslots hdistinct, ?_, ?_, ?_, ?_, ?_⟩
  · apply h.distinct.of_sub
    intro k b hk
    split at hk
    · cases hk
    · exact hk
  · intro k b hk
    split at hk
    · cases hk
    · rename_i hK
      rw [if_neg hK]
      exact h.sub k b hk
  · intro k b hk
    split at hk
    · cases hk
    · exact h.known k b hk
  · intro b hb
    rcases List.mem_append.mp hb with hb | hb
    · exact h.goneKnown b hb
    · obtain ⟨k, -, hk⟩ := (hout b).mp hb
      exact h.known k b (h.sub k b hk)
  · refine List.nodup_append.mpr ⟨h.goneOnce, honce, ?_⟩
    rintro b hb c hc rfl
    obtain ⟨k, -, hk⟩ := (hout b).mp hc
    exact h.apart k b (h.sub k b hk) hb
  · intro k b hk hgone
    split at hk
    · cases hk
    · rename_i hK
      rcases List.mem_append.mp hgone with hgone | hgone
      · exact h.apart k b hk hgone
      · obtain ⟨k', hK', hk'⟩ := (hout b).mp hgone
        exact hK (h.distinct (h.sub k' b hk') hk ▸ hK')
  · intro b hb
    rcases h.accounted b hb with hgone | ⟨k, hk⟩
    · exact Or.inl (List.mem_append_left _ hgone)
    · by_cases hK : K k
      · exact Or.inl (List.mem_append_right _ ((hout b).mpr ⟨k, hK, hk⟩))
      · exact Or.inr ⟨k, (if_neg hK).trans hk⟩

/-- One thing leaves the store and is gone. -/
theorem drop [DecidableEq κ] (h : Custody f g slot store name seen gone taken) {src : κ} {a : α}
    (hsrc : g src = some a) :
    Custody (Function.update f src none) (Function.update g src none) slot
      (Function.update store (slot a) none) name seen (gone ++ [a]) taken := by
  have hslots : ∀ i, i ∈ [slot a] ↔ ∃ k b, k = src ∧ g k = some b ∧ slot b = i := by
    intro i
    rw [List.mem_singleton]
    constructor
    · rintro rfl
      exact ⟨src, a, rfl, hsrc, rfl⟩
    · rintro ⟨k, b, rfl, hk, rfl⟩
      cases hsrc.symm.trans hk
      rfl
  have hout : ∀ b, b ∈ [a] ↔ ∃ k, k = src ∧ g k = some b := by
    intro b
    rw [List.mem_singleton]
    constructor
    · rintro rfl
      exact ⟨src, rfl, hsrc⟩
    · rintro ⟨k, rfl, hk⟩
      exact (Option.some.inj (hsrc.symm.trans hk)).symm
  have hreap := h.reap hslots hout (List.nodup_singleton a)
  have hstore : (fun i => if i ∈ [slot a] then none else store i) =
      Function.update store (slot a) none := by
    funext i
    simp only [List.mem_singleton, Function.update_apply]
  have hupd : ∀ e : κ → Option α, (fun k => if k = src then none else e k) =
      Function.update e src none := by
    intro e
    funext k
    simp only [Function.update_apply]
  rwa [hstore, hupd, hupd] at hreap

/-- Each of those taken is in one slot and not gone, or in no slot and gone once. -/
theorem owned [DecidableEq α] (h : Custody f g slot store name seen gone taken) {a : α}
    (ha : a ∈ taken) :
    ((∃! i, store i = some a) ∧ gone.count a = 0) ∨
      ((∀ i, store i ≠ some a) ∧ gone.count a = 1) := by
  by_cases hgone : a ∈ gone
  · refine Or.inr ⟨h.stored.absent fun k hk => ?_, List.count_eq_one_of_mem h.goneOnce hgone⟩
    exact h.apart k a (h.sub k a hk) hgone
  · obtain ⟨k, hk⟩ := (h.accounted a ha).resolve_left hgone
    exact Or.inl ⟨h.stored.existsUnique hk, List.count_eq_zero.mpr hgone⟩

end Custody

end Placement
