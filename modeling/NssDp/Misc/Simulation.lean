import Mathlib.Algebra.Group.Nat.Hom
import NssDp.Misc.History
import NssDp.Misc.Lts

/-!
# Systems seen through a function

Where every step of a system, seen through a function of its states, is the step of another
system with the same label, so is every run, and where it is some steps of another system, so is
every run; what every step of a system leaves alone, every run leaves alone; a number that falls
with every step of a kind bounds the steps of that kind, and one that grows with them counts them.
A value that some labels set is as the last of them left it.
-/

namespace Lts

open History (latest latest_cons)

variable {σ τ α β : Type*} {step : σ → α → Option σ} {step' : τ → α → Option τ}

/-- A step is possible in both systems or in neither, and leads to the same. -/
theorem run_map {f : σ → τ} (hstep : ∀ s a, (step s a).map f = step' (f s) a) :
    ∀ (as : List α) (s : σ), (run step s as).map f = run step' (f s) as := by
  intro as
  induction as with
  | nil => exact fun _ => rfl
  | cons a as ih =>
    intro s
    rw [run_cons, run_cons, ← hstep s a]
    cases step s a with
    | none => rfl
    | some t => exact ih t

/-- Where every step of a system is some steps of another, from related states to related states,
    so is every run. The relation may know the labels that are still to come. -/
theorem run_simulates {γ : Type*} {step' : τ → γ → Option τ} {g : α → List γ}
    {R : List α → σ → τ → Prop}
    (hstep : ∀ a as s t x, R (a :: as) s x → step s a = some t →
      ∃ y, run step' x (g a) = some y ∧ R as t y) :
    ∀ {as : List α} {s u : σ} {x : τ}, R as s x → run step s as = some u →
      ∃ y, run step' x (as.flatMap g) = some y ∧ R [] u y := by
  intro as
  induction as with
  | nil =>
    intro s u x hR hrun
    cases hrun
    exact ⟨x, rfl, hR⟩
  | cons a as ih =>
    intro s u x hR hrun
    obtain ⟨t, ht, hrest⟩ := run_cons_some.mp hrun
    obtain ⟨y, hy, hR'⟩ := hstep a as s t x hR ht
    obtain ⟨z, hz, hlast⟩ := ih hR' hrest
    refine ⟨z, ?_, hlast⟩
    rw [List.flatMap_cons, run_append, hy, Option.bind_some, hz]

/-- What no step changes. -/
theorem run_frame {f : σ → β} (hstep : ∀ s a t, step s a = some t → f t = f s) :
    ∀ {as : List α} {s u : σ}, run step s as = some u → f u = f s := by
  intro as s u hrun
  exact run_inv (I := fun t => f t = f s)
    (fun t a t' ht h => (hstep t a t' h).trans ht) rfl hrun

/-- A run has no more labels of a kind than the number falls. -/
theorem run_countP_le {f : σ → Nat} {p : α → Bool}
    (hstep : ∀ s a t, step s a = some t → (if p a then 1 else 0) + f t ≤ f s) :
    ∀ {as : List α} {s u : σ}, run step s as = some u → as.countP p + f u ≤ f s := by
  intro as
  induction as with
  | nil =>
    intro s u hrun
    cases hrun
    exact Nat.le_of_eq (Nat.zero_add _)
  | cons a as ih =>
    intro s u hrun
    obtain ⟨t, ht, hrest⟩ := run_cons_some.mp hrun
    have hfirst := hstep s a t ht
    have hothers := ih hrest
    rw [List.countP_cons]
    omega

/-- What the steps that meet `C` keep of a state and of several counts of what has been done before
    it. -/
theorem run_total_inv {ι : Type*} (weight : ι → σ → α → ℕ) {C : σ → α → Prop}
    {I : (ι → ℕ) → σ → Prop}
    (hstep : ∀ m s a t, I m s → C s a → step s a = some t → I (fun i => m i + weight i s a) t) :
    ∀ {as : List α} {m : ι → ℕ} {s u : σ}, I m s → StepsMeet step C s as →
      run step s as = some u → I (fun i => m i + total step (weight i) s as) u := by
  intro as
  induction as with
  | nil =>
    intro m s u hs _ hrun
    cases hrun
    exact hs
  | cons a as ih =>
    intro m s u hs hmeet hrun
    obtain ⟨t, ht, hrest⟩ := run_cons_some.mp hrun
    have hlast := ih (hstep m s a t hs hmeet.1 ht) (hmeet.2 t ht) hrest
    simp only [total, ht, ← Nat.add_assoc]
    exact hlast

/-- A value that grows with the labels of a kind, and with no others, counts them. -/
theorem run_countP {M : Type*} [AddMonoid M] (g : ℕ →+ M) {I : σ → Prop} {f : σ → M} {p : α → Bool}
    (hkept : ∀ s a t, I s → step s a = some t → I t)
    (hstep : ∀ s a t, I s → step s a = some t → f t = f s + g (if p a then 1 else 0)) :
    ∀ {as : List α} {s u : σ}, I s → run step s as = some u → f u = f s + g (as.countP p) := by
  intro as
  induction as with
  | nil =>
    intro s u _ hrun
    cases hrun
    rw [List.countP_nil, map_zero, add_zero]
  | cons a as ih =>
    intro s u hs hrun
    obtain ⟨t, ht, hrest⟩ := run_cons_some.mp hrun
    rw [ih (hkept s a t hs ht) hrest, hstep s a t hs ht, List.countP_cons, add_assoc, ← map_add,
      Nat.add_comm]

/-- A value that some labels set and no other step changes. -/
theorem run_latest {I : σ → Prop} {C : σ → α → Prop} {val : σ → β} {set : α → Option β}
    (hkept : ∀ s a t, I s → C s a → step s a = some t → I t)
    (hval : ∀ s a t, I s → C s a → step s a = some t → val t = (set a).getD (val s)) :
    ∀ {as : List α} {s u : σ}, I s → StepsMeet step C s as → run step s as = some u →
      val u = (latest set as).getD (val s) := by
  intro as
  induction as with
  | nil =>
    intro s u _ _ hrun
    cases hrun
    rfl
  | cons a as ih =>
    intro s u hs hmeet hrun
    obtain ⟨t, ht, hrest⟩ := run_cons_some.mp hrun
    rw [ih (hkept s a t hs hmeet.1 ht) (hmeet.2 t ht) hrest, hval s a t hs hmeet.1 ht, latest_cons]
    cases latest set as with
    | none => rfl
    | some b => rfl

end Lts
