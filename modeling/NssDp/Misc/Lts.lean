import Mathlib.Tactic.Common

/-!
# Labelled runs

A system is a partial step function `step : σ → α → Option σ`. The label carries every
choice the environment makes at the step, so a run is a list of labels, and `none` says that
the label is not enabled in the state. An invariant is proved once for one step and holds
in every state of every run; where it is kept only by the steps that meet a condition,
`StepsMeet` states that condition along the run.
-/

namespace Lts

variable {σ α : Type*} {step : σ → α → Option σ}

/-- The state after the labels `as`, taken in order from `s`. -/
def run (step : σ → α → Option σ) : σ → List α → Option σ
  | s, [] => some s
  | s, a :: as => (step s a).bind fun t => run step t as

/-- `P` holds in every state that the labels visit, the first one included. -/
def Always (step : σ → α → Option σ) (P : σ → Prop) : σ → List α → Prop
  | s, [] => P s
  | s, a :: as => P s ∧ ∀ t, step s a = some t → Always step P t as

/-- Every step is taken from a state in which its label meets `C`. -/
def StepsMeet (step : σ → α → Option σ) (C : σ → α → Prop) : σ → List α → Prop
  | _, [] => True
  | s, a :: as => C s a ∧ ∀ t, step s a = some t → StepsMeet step C t as

/-- Whether the steps of a run meet a condition can be computed where the condition can. -/
instance decidableStepsMeet {C : σ → α → Prop} [∀ s a, Decidable (C s a)] :
    ∀ (s : σ) (as : List α), Decidable (StepsMeet step C s as)
  | _, [] => isTrue trivial
  | s, a :: as =>
    match h : step s a with
    | none => decidable_of_iff (C s a)
        ⟨fun hC => ⟨hC, fun _ ht => absurd (h.symm.trans ht) (Option.some_ne_none _).symm⟩,
          fun hmeet => hmeet.1⟩
    | some m =>
      have := decidableStepsMeet (C := C) m as
      decidable_of_iff (C s a ∧ StepsMeet step C m as)
        ⟨fun hmeet => ⟨hmeet.1, fun _ ht => Option.some.inj (h.symm.trans ht) ▸ hmeet.2⟩,
          fun hmeet => ⟨hmeet.1, hmeet.2 m h⟩⟩

/-- So can whether a property holds along a run. -/
instance decidableAlways {P : σ → Prop} [∀ s, Decidable (P s)] :
    ∀ (s : σ) (as : List α), Decidable (Always step P s as)
  | s, [] => inferInstanceAs (Decidable (P s))
  | s, a :: as =>
    match h : step s a with
    | none => decidable_of_iff (P s)
        ⟨fun hP => ⟨hP, fun _ ht => absurd (h.symm.trans ht) (Option.some_ne_none _).symm⟩,
          fun hall => hall.1⟩
    | some m =>
      have := decidableAlways (P := P) m as
      decidable_of_iff (P s ∧ Always step P m as)
        ⟨fun hall => ⟨hall.1, fun _ ht => Option.some.inj (h.symm.trans ht) ▸ hall.2⟩,
          fun hall => ⟨hall.1, hall.2 m h⟩⟩

/-- What the steps of a run weigh together. -/
def total (step : σ → α → Option σ) (weight : σ → α → Nat) : σ → List α → Nat
  | _, [] => 0
  | s, a :: as =>
    match step s a with
    | none => weight s a
    | some t => weight s a + total step weight t as

@[simp] theorem run_nil (s : σ) : run step s [] = some s := rfl

theorem run_cons (s : σ) (a : α) (as : List α) :
    run step s (a :: as) = (step s a).bind fun t => run step t as := rfl

/-- A run splits at its first label. -/
theorem run_cons_some {s u : σ} {a : α} {as : List α} :
    run step s (a :: as) = some u ↔ ∃ t, step s a = some t ∧ run step t as = some u := by
  rw [run_cons, Option.bind_eq_some_iff]

/-- Runs compose. -/
theorem run_append (s : σ) (as bs : List α) :
    run step s (as ++ bs) = (run step s as).bind fun t => run step t bs := by
  induction as generalizing s with
  | nil => rfl
  | cons a as ih =>
    rw [List.cons_append, run_cons, run_cons, Option.bind_assoc]
    cases step s a with
    | none => rfl
    | some t => exact ih t

/-- Where every step is possible, so is every run. -/
theorem run_total (step : σ → α → Option σ) (h : ∀ s a, ∃ t, step s a = some t) :
    ∀ (s : σ) (as : List α), ∃ u, run step s as = some u := by
  intro s as
  induction as generalizing s with
  | nil => exact ⟨s, rfl⟩
  | cons a as ih =>
    obtain ⟨t, ht⟩ := h s a
    obtain ⟨u, hu⟩ := ih t
    exact ⟨u, run_cons_some.mpr ⟨t, ht, hu⟩⟩

/-- An invariant of every step holds after every run. -/
theorem run_inv {I : σ → Prop} (hstep : ∀ s a t, I s → step s a = some t → I t) :
    ∀ {as : List α} {s t : σ}, I s → run step s as = some t → I t := by
  intro as
  induction as with
  | nil =>
    intro s t hs hrun
    cases hrun
    exact hs
  | cons a as ih =>
    intro s t hs hrun
    obtain ⟨m, hm, hrest⟩ := run_cons_some.mp hrun
    exact ih (hstep s a m hs hm) hrest

/-- An invariant of the steps that meet `C` holds in every state such a run visits. -/
theorem always_of_stepsMeet {I P : σ → Prop} {C : σ → α → Prop} (hP : ∀ s, I s → P s)
    (hstep : ∀ s a t, I s → C s a → step s a = some t → I t) :
    ∀ {as : List α} {s : σ}, I s → StepsMeet step C s as → Always step P s as := by
  intro as
  induction as with
  | nil => exact fun hs _ => hP _ hs
  | cons a as ih =>
    intro s hs hmeet
    exact ⟨hP s hs, fun t ht => ih (hstep s a t hs hmeet.1 ht) (hmeet.2 t ht)⟩

/-- An invariant of every step holds in every state a run visits. -/
theorem always_of_inv {I P : σ → Prop} (hP : ∀ s, I s → P s)
    (hstep : ∀ s a t, I s → step s a = some t → I t) :
    ∀ {as : List α} {s : σ}, I s → Always step P s as := by
  intro as
  induction as with
  | nil => exact fun hs => hP _ hs
  | cons a as ih =>
    intro s hs
    exact ⟨hP s hs, fun t ht => ih (hstep s a t hs ht)⟩

/-- Two conditions that agree while `I` holds select the same runs, where `I` is kept by the
steps that meet one of them. -/
theorem stepsMeet_congr {I : σ → Prop} {C D : σ → α → Prop}
    (hiff : ∀ s a, I s → (C s a ↔ D s a))
    (hstep : ∀ s a t, I s → D s a → step s a = some t → I t) :
    ∀ {as : List α} {s : σ}, I s → (StepsMeet step C s as ↔ StepsMeet step D s as) := by
  intro as
  induction as with
  | nil => exact fun _ => Iff.rfl
  | cons a as ih =>
    intro s hs
    rw [StepsMeet, StepsMeet, hiff s a hs]
    refine and_congr_right fun hD => forall_congr' fun t => ?_
    exact imp_congr_right fun ht => ih (hstep s a t hs hD ht)

/-- Along a run whose first step is known. -/
theorem stepsMeet_cons_some {C : σ → α → Prop} {s t : σ} {a : α} {as : List α}
    (ht : step s a = some t) :
    StepsMeet step C s (a :: as) ↔ C s a ∧ StepsMeet step C t as := by
  rw [StepsMeet, ht]
  exact and_congr_right fun _ => ⟨fun h => h t rfl, fun h _ hm => Option.some.inj hm ▸ h⟩

/-- In a run that is possible, a condition that depends on the label alone is one on the labels. -/
theorem stepsMeet_iff_forall {C : σ → α → Prop} {D : α → Prop}
    (hiff : ∀ s a t, step s a = some t → (C s a ↔ D a)) :
    ∀ {as : List α} {s u : σ}, run step s as = some u →
      (StepsMeet step C s as ↔ ∀ a ∈ as, D a) := by
  intro as
  induction as with
  | nil => exact fun _ => iff_of_true trivial fun _ ha => absurd ha List.not_mem_nil
  | cons a as ih =>
    intro s u hrun
    obtain ⟨m, hm, hrest⟩ := run_cons_some.mp hrun
    rw [List.forall_mem_cons, ← ih hrest, ← hiff s a m hm, StepsMeet]
    refine and_congr_right fun _ => ⟨fun h => h m hm, fun h t ht => ?_⟩
    rwa [← Option.some.inj (hm.symm.trans ht)]

/-- A condition on the labels alone is met by every step that takes one of them. -/
theorem StepsMeet.of_forall {D : α → Prop} :
    ∀ {as : List α} {s : σ}, (∀ a ∈ as, D a) → StepsMeet step (fun _ a => D a) s as := by
  intro as
  induction as with
  | nil => exact fun _ => trivial
  | cons a as ih =>
    intro s h
    rw [List.forall_mem_cons] at h
    exact ⟨h.1, fun _ _ => ih h.2⟩

/-- Where the steps that meet `C` keep `I`, what `I` and `C` imply of a step holds of all. -/
theorem StepsMeet.of_inv {I : σ → Prop} {C D : σ → α → Prop} (hD : ∀ s a, I s → C s a → D s a)
    (hstep : ∀ s a t, I s → C s a → step s a = some t → I t) :
    ∀ {as : List α} {s : σ}, I s → StepsMeet step C s as → StepsMeet step D s as := by
  intro as
  induction as with
  | nil => exact fun _ _ => trivial
  | cons a as ih =>
    intro s hs hmeet
    refine ⟨hD s a hs hmeet.1, ?_⟩
    intro t ht
    exact ih (hstep s a t hs hmeet.1 ht) (hmeet.2 t ht)

/-- What holds in every state of a run holds in its last. -/
theorem Always.last {P : σ → Prop} :
    ∀ {as : List α} {s u : σ}, Always step P s as → run step s as = some u → P u := by
  intro as
  induction as with
  | nil =>
    intro s u h hrun
    cases hrun
    exact h
  | cons a as ih =>
    intro s u h hrun
    obtain ⟨m, hm, hrest⟩ := run_cons_some.mp hrun
    exact ih (h.2 m hm) hrest

/-- Where one step from a good state meets `C` exactly when it ends in a good state, a run
stays good exactly when all its steps meet `C`. -/
theorem always_iff_stepsMeet {I P : σ → Prop} {C : σ → α → Prop} (hP : ∀ s, I s → P s)
    (hstep : ∀ s a t, I s → step s a = some t → (C s a ↔ P t))
    (hI : ∀ s a t, I s → step s a = some t → P t → I t) :
    ∀ {as : List α} {s u : σ}, I s → run step s as = some u →
      (Always step P s as ↔ StepsMeet step C s as) := by
  intro as
  induction as with
  | nil => exact fun hs _ => ⟨fun _ => trivial, fun _ => hP _ hs⟩
  | cons a as ih =>
    intro s u hs hrun
    obtain ⟨m, hm, hrest⟩ := run_cons_some.mp hrun
    have hmid : ∀ t, step s a = some t → t = m := fun t ht => Option.some.inj (ht.symm.trans hm)
    constructor
    · rintro ⟨_, hall⟩
      have hall' := hall m hm
      have hPm : P m := by
        cases as with
        | nil => exact hall'
        | cons _ _ => exact hall'.1
      refine ⟨(hstep s a m hs hm).mpr hPm, fun t ht => ?_⟩
      rw [hmid t ht]
      exact (ih (hI s a m hs hm hPm) hrest).mp hall'
    · rintro ⟨hC, hmeet⟩
      have hPm := (hstep s a m hs hm).mp hC
      refine ⟨hP s hs, fun t ht => ?_⟩
      rw [hmid t ht]
      exact (ih (hI s a m hs hm hPm) hrest).mpr (hmeet m hm)

end Lts
