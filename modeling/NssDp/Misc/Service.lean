import Mathlib.Algebra.GroupWithZero.Nat
import NssDp.Misc.Fifo

/-!
# Service in quotas

A server holds a number of items. Each step takes as many of them as its quota allows, or all
there are, and others may arrive. After a run, at least as many have been taken as the quotas of
its steps come to, or all that were there at its start.
-/

namespace Lts

variable {σ α β : Type*} {step : σ → α → Option σ}

/-- The steps that meet `C` keep `I`, and take what they hold up to their quota. -/
structure QuotaServer (step : σ → α → Option σ) (I : σ → Prop) (C : σ → α → Prop) (held : σ → ℕ)
    (quota : α → ℕ) (taken arrived : σ → α → ℕ) : Prop where
  kept : ∀ s a t, I s → C s a → step s a = some t → I t
  account : ∀ s a t, I s → C s a → step s a = some t →
    held t + taken s a = held s + arrived s a
  least : ∀ s a t, I s → C s a → step s a = some t → min (quota a) (held s) ≤ taken s a
  most : ∀ s a t, I s → C s a → step s a = some t → taken s a ≤ quota a

theorem total_cons_some {weight : σ → α → ℕ} {s t : σ} {a : α} (ht : step s a = some t)
    (as : List α) : total step weight s (a :: as) = weight s a + total step weight t as := by
  rw [total, ht]

/-- How many items a trace shows. -/
theorem length_trace (obs : σ → α → List β) (s : σ) (as : List α) :
    (trace step obs s as).length = total step (fun s a => (obs s a).length) s as := by
  induction as generalizing s with
  | nil => rfl
  | cons a as ih =>
    rw [trace, total]
    cases step s a with
    | none => rfl
    | some t =>
      dsimp only
      rw [List.length_append, ih]

namespace QuotaServer

variable {I : σ → Prop} {C : σ → α → Prop} {held : σ → ℕ} {quota : α → ℕ}
variable {taken arrived : σ → α → ℕ}

/-- What arrives goes behind what was there: a step takes from that until it is gone. -/
theorem run (h : QuotaServer step I C held quota taken arrived) : ∀ {as : List α} {s u : σ}, I s →
    StepsMeet step C s as → Lts.run step s as = some u →
      min (as.map quota).sum (held s) ≤ total step taken s as ∧
        total step taken s as ≤ (as.map quota).sum ∧
        held u + total step taken s as = held s + total step arrived s as := by
  intro as
  induction as with
  | nil =>
    intro s u _ _ hrun
    cases hrun
    exact ⟨Nat.min_le_left _ _, Nat.le_refl _, rfl⟩
  | cons a as ih =>
    intro s u hs hmeet hrun
    obtain ⟨t, ht, hrest⟩ := run_cons_some.mp hrun
    obtain ⟨hleast, hmost, haccount⟩ := ih (h.kept s a t hs hmeet.1 ht) (hmeet.2 t ht) hrest
    have hfirstLeast := h.least s a t hs hmeet.1 ht
    have hfirstMost := h.most s a t hs hmeet.1 ht
    have hfirstAccount := h.account s a t hs hmeet.1 ht
    rw [total_cons_some ht, total_cons_some ht, List.map_cons, List.sum_cons]
    refine ⟨?_, ?_, ?_⟩ <;> omega

end QuotaServer

/-- Where a step is possible only in states that meet `Q`, a run that ends in one passes through
    such states only. -/
theorem StepsMeet.of_last {Q : σ → Prop} (henabled : ∀ s a t, step s a = some t → Q s) :
    ∀ {as : List α} {s u : σ}, Lts.run step s as = some u → Q u →
      StepsMeet step (fun s a => ∀ t, step s a = some t → Q t) s as := by
  intro as
  induction as with
  | nil => exact fun _ _ => trivial
  | cons a as ih =>
    intro s u hrun hu
    obtain ⟨t, ht, hrest⟩ := run_cons_some.mp hrun
    have hsame : ∀ t', step s a = some t' → t' = t := fun t' ht' =>
      Option.some.inj (ht'.symm.trans ht)
    refine ⟨?_, ?_⟩
    · intro t' ht'
      rw [hsame t' ht']
      cases as with
      | nil =>
        cases hrest
        exact hu
      | cons b bs =>
        obtain ⟨t₂, ht₂, -⟩ := run_cons_some.mp hrest
        exact henabled t b t₂ ht₂
    · intro t' ht'
      rw [hsame t' ht']
      exact ih hrest hu

end Lts
