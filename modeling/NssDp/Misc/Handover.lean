import Mathlib.Data.List.Nodup

/-!
# A queue between two owners

A list of slots of which the one side owns the rest, and has given back the front. It gives back
the first slot it owns, gets slots at the end, and the other side takes slots from the front. So
the list stays in two parts, and items go from the one part to the other and out, in their order.
-/

namespace Handover

variable {ι β : Type*} {owned owned' : ι → Bool} {item item' : ι → Option β}
variable {slots done todo : List ι}

/-- The items of the slots that have been given back. -/
def given (owned : ι → Bool) (item : ι → Option β) (slots : List ι) : List β :=
  (slots.takeWhile fun i => !owned i).filterMap item

/-- The items of the other slots. -/
def kept (owned : ι → Bool) (item : ι → Option β) (slots : List ι) : List β :=
  (slots.dropWhile fun i => !owned i).filterMap item

/-- The slots in their two parts. -/
structure Split (owned : ι → Bool) (slots done todo : List ι) : Prop where
  slots : slots = done ++ todo
  back : ∀ i ∈ done, owned i = false
  owned : ∀ i ∈ todo, owned i = true

/-- The slots are in two parts. -/
def Parted (owned : ι → Bool) (slots : List ι) : Prop := ∃ done todo, Split owned slots done todo

@[simp] theorem given_nil : given owned item [] = [] := rfl

@[simp] theorem kept_nil : kept owned item [] = [] := rfl

theorem filterMap_cons_toList (f : ι → Option β) (i : ι) (slots : List ι) :
    (i :: slots).filterMap f = (f i).toList ++ slots.filterMap f := by
  cases hi : f i with
  | none => rw [List.filterMap_cons_none hi]; rfl
  | some x => rw [List.filterMap_cons_some hi]; rfl

theorem Parted.nil : Parted owned [] :=
  ⟨[], [], rfl, fun _ hi => absurd hi List.not_mem_nil, fun _ hi => absurd hi List.not_mem_nil⟩

/-- The two parts are all the items. -/
theorem given_append_kept (owned : ι → Bool) (item : ι → Option β) (slots : List ι) :
    given owned item slots ++ kept owned item slots = slots.filterMap item := by
  rw [given, kept, ← List.filterMap_append, List.takeWhile_append_dropWhile]

/-- Where every slot has an item, there are as many. -/
theorem length_filterMap_of_isSome {item : ι → Option β} {slots : List ι}
    (h : ∀ i ∈ slots, (item i).isSome = true) : (slots.filterMap item).length = slots.length := by
  rw [List.length_filterMap_eq_countP]
  exact List.countP_eq_length.mpr h

/-- Nothing is given back while the first slot is owned. -/
theorem given_of_owned (owned : ι → Bool) {i : ι} (hi : owned i = true) (slots : List ι) :
    given owned item (i :: slots) = [] := by
  rw [given, List.takeWhile_cons_of_neg (by rw [hi]; exact Bool.false_ne_true), List.filterMap_nil]

namespace Split

theorem takeWhile_eq (h : Split owned slots done todo) :
    slots.takeWhile (fun i => !owned i) = done := by
  have hback : ∀ i ∈ done, (!owned i) = true := by
    intro i hi
    rw [h.back i hi]
    rfl
  have hnone : todo.takeWhile (fun i => !owned i) = [] := by
    cases todo with
    | nil => rfl
    | cons i todo =>
      apply List.takeWhile_cons_of_neg
      rw [h.owned i List.mem_cons_self]
      exact Bool.false_ne_true
  rw [h.slots, List.takeWhile_append_of_pos hback, hnone, List.append_nil]

theorem dropWhile_eq (h : Split owned slots done todo) :
    slots.dropWhile (fun i => !owned i) = todo := by
  have hall := List.takeWhile_append_dropWhile (p := fun i => !owned i) (l := slots)
  rw [h.takeWhile_eq] at hall
  exact List.append_cancel_left (hall.trans h.slots)

theorem given_eq (h : Split owned slots done todo) :
    given owned item slots = done.filterMap item := by rw [given, h.takeWhile_eq]

theorem kept_eq (h : Split owned slots done todo) :
    kept owned item slots = todo.filterMap item := by rw [kept, h.dropWhile_eq]

/-- The first slot that is owned begins the second part. -/
theorem find_eq (h : Split owned slots done todo) {i : ι} (hfind : slots.find? owned = some i) :
    ∃ rest, todo = i :: rest := by
  have hnone : done.find? owned = none := by
    rw [List.find?_eq_none]
    intro j hj
    rw [h.back j hj]
    exact Bool.false_ne_true
  rw [h.slots, List.find?_append, hnone, Option.none_or] at hfind
  cases todo with
  | nil => cases hfind
  | cons j rest =>
    rw [List.find?_cons_of_pos (h.owned j List.mem_cons_self)] at hfind
    exact ⟨rest, by rw [Option.some.inj hfind]⟩

end Split

namespace Parted

variable {i : ι} (owned' : ι → Bool) (item item' : ι → Option β)

/-- A slot is got at the end. -/
theorem push (h : Parted owned slots) (howned : ∀ j ∈ slots, owned' j = owned j)
    (hitem : ∀ j ∈ slots, item' j = item j) (hnew : owned' i = true) :
    Parted owned' (slots ++ [i]) ∧
      kept owned' item' (slots ++ [i]) = kept owned item slots ++ (item' i).toList ∧
      given owned' item' (slots ++ [i]) = given owned item slots := by
  obtain ⟨done, todo, hparts⟩ := h
  have hdone : ∀ j ∈ done, j ∈ slots := fun j hj => by
    rw [hparts.slots]
    exact List.mem_append_left _ hj
  have htodo : ∀ j ∈ todo, j ∈ slots := fun j hj => by
    rw [hparts.slots]
    exact List.mem_append_right _ hj
  have hparts' : Split owned' (slots ++ [i]) done (todo ++ [i]) := by
    refine ⟨by rw [hparts.slots, List.append_assoc], ?_, ?_⟩
    · intro j hj
      rw [howned j (hdone j hj)]
      exact hparts.back j hj
    · intro j hj
      rcases List.mem_append.mp hj with hj | hj
      · rw [howned j (htodo j hj)]
        exact hparts.owned j hj
      · rw [List.mem_singleton.mp hj]
        exact hnew
  refine ⟨⟨_, _, hparts'⟩, ?_, ?_⟩
  · rw [hparts'.kept_eq, hparts.kept_eq, List.filterMap_append,
      List.filterMap_congr fun j hj => hitem j (htodo j hj), filterMap_cons_toList,
      List.filterMap_nil, List.append_nil]
  · rw [hparts'.given_eq, hparts.given_eq]
    exact List.filterMap_congr fun j hj => hitem j (hdone j hj)

/-- The first slot is taken, which has been given back. -/
theorem pop (h : Parted owned (i :: slots)) (hfree : owned i = false)
    (howned : ∀ j ∈ slots, owned' j = owned j) (hitem : ∀ j ∈ slots, item' j = item j) :
    Parted owned' slots ∧
      given owned item (i :: slots) = (item i).toList ++ given owned' item' slots ∧
      kept owned item (i :: slots) = kept owned' item' slots := by
  obtain ⟨done, todo, hparts⟩ := h
  obtain ⟨rest, rfl⟩ : ∃ rest, done = i :: rest := by
    cases done with
    | nil =>
      have hfirst : i ∈ todo := by
        rw [← List.nil_append todo, ← hparts.slots]
        exact List.mem_cons_self
      cases hfree.symm.trans (hparts.owned i hfirst)
    | cons j rest =>
      have hslots := hparts.slots
      rw [List.cons_append, List.cons.injEq] at hslots
      exact ⟨rest, by rw [hslots.1]⟩
  have hslots : slots = rest ++ todo := List.tail_eq_of_cons_eq hparts.slots
  have hrest : ∀ j ∈ rest, j ∈ slots := fun j hj => by
    rw [hslots]
    exact List.mem_append_left _ hj
  have htodo : ∀ j ∈ todo, j ∈ slots := fun j hj => by
    rw [hslots]
    exact List.mem_append_right _ hj
  have hparts' : Split owned' slots rest todo := by
    refine ⟨hslots, ?_, ?_⟩
    · intro j hj
      rw [howned j (hrest j hj)]
      exact hparts.back j (List.mem_cons_of_mem _ hj)
    · intro j hj
      rw [howned j (htodo j hj)]
      exact hparts.owned j hj
  refine ⟨⟨_, _, hparts'⟩, ?_, ?_⟩
  · rw [hparts.given_eq, hparts'.given_eq, filterMap_cons_toList,
      List.filterMap_congr fun j hj => hitem j (hrest j hj)]
  · rw [hparts.kept_eq, hparts'.kept_eq]
    exact (List.filterMap_congr fun j hj => hitem j (htodo j hj)).symm

/-- The first slot that is owned is given back, with a new item in it. -/
theorem release (h : Parted owned slots) (hnodup : slots.Nodup)
    (hfind : slots.find? owned = some i) (howned : ∀ j, j ≠ i → owned' j = owned j)
    (hitem : ∀ j, j ≠ i → item' j = item j) (hback : owned' i = false) :
    Parted owned' slots ∧
      kept owned item slots = (item i).toList ++ kept owned' item' slots ∧
      given owned' item' slots = given owned item slots ++ (item' i).toList := by
  obtain ⟨done, todo, hparts⟩ := h
  obtain ⟨rest, rfl⟩ := hparts.find_eq hfind
  rw [hparts.slots, List.nodup_middle, List.nodup_cons, List.mem_append, not_or] at hnodup
  obtain ⟨⟨hdone, hrest⟩, -⟩ := hnodup
  have hneDone : ∀ j ∈ done, j ≠ i := fun j hj => ne_of_mem_of_not_mem hj hdone
  have hneRest : ∀ j ∈ rest, j ≠ i := fun j hj => ne_of_mem_of_not_mem hj hrest
  have hparts' : Split owned' slots (done ++ [i]) rest := by
    refine ⟨by rw [List.append_assoc]; exact hparts.slots, ?_, ?_⟩
    · intro j hj
      rcases List.mem_append.mp hj with hj | hj
      · rw [howned j (hneDone j hj)]
        exact hparts.back j hj
      · rw [List.mem_singleton.mp hj]
        exact hback
    · intro j hj
      rw [howned j (hneRest j hj)]
      exact hparts.owned j (List.mem_cons_of_mem _ hj)
  refine ⟨⟨_, _, hparts'⟩, ?_, ?_⟩
  · rw [hparts.kept_eq, hparts'.kept_eq, filterMap_cons_toList,
      List.filterMap_congr fun j hj => hitem j (hneRest j hj)]
  · rw [hparts'.given_eq, hparts.given_eq, List.filterMap_append,
      List.filterMap_congr fun j hj => hitem j (hneDone j hj), filterMap_cons_toList,
      List.filterMap_nil, List.append_nil]

end Parted

end Handover
