import Mathlib.Data.Multiset.AddSub

/-!
# Acquiring and releasing

Some events acquire a resource, some release one, and others do neither. `settle` goes through
a history and keeps what is held; it fails at an event that releases what is not held. A
resource may be held more than once.
-/

namespace Pairing

/-- What an event does to what is held. -/
inductive Act (α : Type*) where
  | acquire (a : α)
  | release (a : α)
  | neither

variable {ε α β : Type*} [DecidableEq α]

/-- What is held after a history, where every release was of something held. -/
def settle (act : ε → Act α) : Multiset α → List ε → Option (Multiset α)
  | held, [] => some held
  | held, e :: es =>
    match act e with
    | .acquire a => settle act (a ::ₘ held) es
    | .release a => if a ∈ held then settle act (held.erase a) es else none
    | .neither => settle act held es

variable {act : ε → Act α} {held held' : Multiset α} {e : ε} {es fs : List ε} {a : α}

@[simp] theorem settle_nil : settle act held [] = some held := rfl

theorem settle_acquire (h : act e = .acquire a) :
    settle act held (e :: es) = settle act (a ::ₘ held) es := by
  simp only [settle, h]

theorem settle_release (h : act e = .release a) :
    settle act held (e :: es) = if a ∈ held then settle act (held.erase a) es else none := by
  simp only [settle, h]

/-- What has been acquired last is released. -/
theorem settle_release_cons (h : act e = .release a) :
    settle act (a ::ₘ held) (e :: es) = settle act held es := by
  rw [settle_release h, if_pos (Multiset.mem_cons_self _ _), Multiset.erase_cons_head]

theorem settle_neither (h : act e = .neither) :
    settle act held (e :: es) = settle act held es := by
  simp only [settle, h]

/-- A history may be gone through in two parts. -/
theorem settle_append :
    settle act held (es ++ fs) = (settle act held es).bind fun held => settle act held fs := by
  induction es generalizing held with
  | nil => rfl
  | cons e es ih =>
    rw [List.cons_append, settle, settle]
    cases act e with
    | acquire a => exact ih
    | release a =>
      by_cases hheld : a ∈ held
      · simp only [hheld, if_true, ih]
      · simp only [hheld, if_false, Option.bind_none]
    | neither => exact ih

theorem settle_append_some (h : settle act held es = some held') :
    settle act held (es ++ fs) = settle act held' fs := by
  rw [settle_append, h, Option.bind_some]

/-- Nothing puts right a release of what is not held. -/
theorem settle_append_none (h : settle act held es = none) :
    settle act held (es ++ fs) = none := by
  rw [settle_append, h, Option.bind_none]

/-- Events that acquire one resource each. -/
theorem settle_map_acquire {f : β → ε} {g : β → α} (h : ∀ b, act (f b) = .acquire (g b))
    (l : List β) : settle act held (l.map f) = some (↑(l.map g) + held) := by
  induction l generalizing held with
  | nil => rw [List.map_nil, List.map_nil, settle_nil, Multiset.coe_nil, Multiset.zero_add]
  | cons b l ih =>
    rw [List.map_cons, settle_acquire (h b), ih, List.map_cons, ← Multiset.cons_coe,
      Multiset.cons_add, Multiset.add_cons]

/-- Events that release one resource each, of those that are held. -/
theorem settle_map_release {f : β → ε} {g : β → α} (h : ∀ b, act (f b) = .release (g b))
    (l : List β) : settle act (↑(l.map g) + held) (l.map f) = some held := by
  induction l with
  | nil => rw [List.map_nil, List.map_nil, settle_nil, Multiset.coe_nil, Multiset.zero_add]
  | cons b l ih =>
    rw [List.map_cons, List.map_cons, ← Multiset.cons_coe, Multiset.cons_add,
      settle_release_cons (h b), ih]

/-- Events that neither acquire nor release. -/
theorem settle_of_neither (h : ∀ e ∈ es, act e = .neither) : settle act held es = some held := by
  induction es with
  | nil => rfl
  | cons e es ih =>
    rw [settle_neither (h e List.mem_cons_self)]
    exact ih fun e he => h e (List.mem_cons_of_mem _ he)

end Pairing
