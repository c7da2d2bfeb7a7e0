import Mathlib.Data.List.Induction

/-!
# Histories

A history lists what has happened, in order. Whether an event is in order may depend on all the
events before it; a history is in order where each of its events is. Many such orders speak of
something that is set by some events and reset by others, such as a lock or an open file:
`latch` is its value after a history, and `latest` what was set last.
-/

namespace History

variable {α : Type*} {ok : List α → α → Prop} {set reset : α → Bool} {pre xs ys l : List α} {a : α}

/-- Every event of a history is in order after `pre` and what is before it in the history. -/
def OkFrom (ok : List α → α → Prop) : List α → List α → Prop
  | _, [] => True
  | pre, a :: l => ok pre a ∧ OkFrom ok (pre ++ [a]) l

instance decidableOkFrom [∀ pre a, Decidable (ok pre a)] : ∀ pre l, Decidable (OkFrom ok pre l)
  | _, [] => isTrue trivial
  | pre, a :: l =>
    have := decidableOkFrom (pre ++ [a]) l
    inferInstanceAs (Decidable (_ ∧ _))

@[simp] theorem okFrom_nil : OkFrom ok pre [] := trivial

theorem okFrom_append : OkFrom ok pre (xs ++ ys) ↔ OkFrom ok pre xs ∧ OkFrom ok (pre ++ xs) ys := by
  induction xs generalizing pre with
  | nil => simp [OkFrom]
  | cons a xs ih => simp [OkFrom, ih, and_assoc]

/-- A history grows by one event that is in order. -/
theorem okFrom_concat : OkFrom ok [] (l ++ [a]) ↔ OkFrom ok [] l ∧ ok l a := by
  rw [okFrom_append, List.nil_append, OkFrom, OkFrom, and_true]

/-- What is in a history was in order where it stands. -/
theorem OkFrom.mem (h : OkFrom ok pre l) (ha : a ∈ l) : ∃ before, ok (pre ++ before) a := by
  obtain ⟨xs, ys, rfl⟩ := List.append_of_mem ha
  exact ⟨xs, (okFrom_append.mp h).2.1⟩

/-- A history that is in order was so from the beginning. -/
theorem okFrom_of_prefix (hxs : xs <+: l) (h : OkFrom ok pre l) : OkFrom ok pre xs := by
  obtain ⟨ys, rfl⟩ := hxs
  exact (okFrom_append.mp h).1

/-- Events that are in order after any history are in order together. -/
theorem okFrom_of_forall (h : ∀ a ∈ l, ∀ before, ok before a) : OkFrom ok pre l := by
  induction l generalizing pre with
  | nil => trivial
  | cons a l ih =>
    exact ⟨h a List.mem_cons_self pre, ih fun b hb => h b (List.mem_cons_of_mem _ hb)⟩

/-- An invariant of the history makes events in order that keep it. -/
theorem okFrom_of_inv {I : List α → Prop} (hpre : I pre)
    (h : ∀ a ∈ l, ∀ before, I before → ok before a ∧ I (before ++ [a])) : OkFrom ok pre l := by
  induction l generalizing pre with
  | nil => trivial
  | cons a l ih =>
    obtain ⟨hok, hI⟩ := h a List.mem_cons_self pre hpre
    exact ⟨hok, ih hI fun b hb => h b (List.mem_cons_of_mem _ hb)⟩

/-- The value after a history of what some events set and others reset. -/
def latch (set reset : α → Bool) (l : List α) : Bool :=
  l.foldl (fun b a => set a || (b && !reset a)) false

@[simp] theorem latch_nil : latch set reset [] = false := rfl

theorem latch_concat :
    latch set reset (l ++ [a]) = (set a || (latch set reset l && !reset a)) := by
  rw [latch, List.foldl_append, List.foldl_cons, List.foldl_nil, latch]

/-- Events that neither set nor reset it. -/
theorem latch_append_of_neither (h : ∀ a ∈ ys, set a = false ∧ reset a = false) :
    latch set reset (xs ++ ys) = latch set reset xs := by
  induction ys using List.reverseRecOn with
  | nil => rw [List.append_nil]
  | append_singleton ys a ih =>
    obtain ⟨hset, hreset⟩ := h a (List.mem_append_right _ (List.mem_singleton_self a))
    rw [← List.append_assoc, latch_concat, hset, hreset, Bool.not_false, Bool.and_true,
      Bool.false_or]
    exact ih fun b hb => h b (List.mem_append_left _ hb)

section Latest

variable {β : Type*} {f : α → Option β} {b : β}

/-- What the last event sets that sets anything. -/
def latest (f : α → Option β) (l : List α) : Option β := l.reverse.findSome? f

theorem latest_cons : latest f (a :: l) = (latest f l).or (f a) := by
  rw [latest, latest, List.reverse_cons, List.findSome?_append]
  congr 1
  rw [List.findSome?_cons]
  cases f a <;> rfl

/-- What is set last by what comes of the events. -/
theorem latest_filterMap {γ : Type*} {g : γ → Option α} {l : List γ} :
    latest f (l.filterMap g) = latest (fun c => (g c).bind f) l := by
  induction l with
  | nil => rfl
  | cons c l ih =>
    rw [latest_cons, ← ih]
    cases hc : g c with
    | none => rw [List.filterMap_cons_none hc, Option.bind_none, Option.or_none]
    | some a => rw [List.filterMap_cons_some hc, latest_cons, Option.bind_some]

theorem latest_concat_of_some (h : f a = some b) : latest f (l ++ [a]) = some b := by
  rw [latest, List.reverse_append, List.reverse_singleton, List.singleton_append,
    List.findSome?_cons, h]

/-- Events that set nothing. -/
theorem latest_append_of_none (h : ∀ a ∈ ys, f a = none) : latest f (xs ++ ys) = latest f xs := by
  have hnone : ys.reverse.findSome? f = none :=
    List.findSome?_eq_none_iff.mpr fun a ha => h a (List.mem_reverse.mp ha)
  rw [latest, List.reverse_append, List.findSome?_append, hnone, Option.none_or, latest]

end Latest

end History
