import NssDp.Hal.QcomDev

/-!
# What the field setters change

A setter whose mask and shift describe the same bits changes its own field only. Two do not:
`qcom_set_prlen` writes the field of `qcom_set_retry`, and `qcom_set_mac_ipg_ctrl` clears that of
`qcom_set_hihg_ipg`.
-/

namespace NssDp

open BitField

namespace QcomSetter

variable {s t : QcomSetter} {mac : QcomMac} {a b : BitVec 32}

/-- The value in the field of a setter, as its mask gives the field. -/
def value (s : QcomSetter) (mac : QcomMac) : BitVec 32 := s.field.get (mac s.reg)

/-- Mask and shift describe the same bits. -/
def Aligned (s : QcomSetter) : Prop := s.placed = s.field

instance (s : QcomSetter) : Decidable s.Aligned := inferInstanceAs (Decidable (_ = _))

theorem aligned_iff : s.Aligned ↔ s ≠ .prlen ∧ s ≠ .macIpgCtrl := by
  cases s <;> decide

/-- The bits that `t` writes, and those that it clears, are none of the field of `s`. -/
def Spares (t s : QcomSetter) : Prop :=
  t.reg ≠ s.reg ∨ s.field.Apart t.field ∧ s.field.Apart t.placed

instance (t s : QcomSetter) : Decidable (t.Spares s) := inferInstanceAs (Decidable (_ ∨ _))

/-- Two pairs of setters get in each other's way. -/
theorem spares_of_ne (hne : t ≠ s) (hretry : ¬ (s = .retry ∧ t = .prlen))
    (hhihg : ¬ (s = .hihgIpg ∧ t = .macIpgCtrl)) (hmac : ¬ (s = .macIpgCtrl ∧ t = .hihgIpg)) :
    t.Spares s := by
  cases s <;> cases t <;> first | contradiction | decide

/-- A setter clears no bit that another writes, with two exceptions. -/
theorem placed_apart_of_ne (hne : s ≠ t) (hreg : s.reg = t.reg)
    (hretry : ¬ (s = .prlen ∧ t = .retry)) (hmac : ¬ (s = .hihgIpg ∧ t = .macIpgCtrl)) :
    s.placed.Apart t.field := by
  cases s <;> cases t <;> first | contradiction | decide

/-- Shifting by another amount does not need more bits. -/
theorem placed_fits (h : s.field.Fits a) : s.placed.Fits a := h

theorem value_set_of_spares (h : t.Spares s) (hfits : t.field.Fits b) :
    s.value (t.set mac b) = s.value mac := by
  unfold value
  rw [set_eq]
  rcases h with hreg | ⟨hfield, hplaced⟩
  · rw [Function.update_of_ne hreg.symm]
  · by_cases hreg : s.reg = t.reg
    · rw [hreg, Function.update_self, get_replace_of_apart (placed_fits hfits) hfield hplaced]
    · rw [Function.update_of_ne hreg]

theorem value_set_self (h : s.Aligned) (hfits : s.field.Fits a) : s.value (s.set mac a) = a := by
  unfold value
  rw [set_eq, Function.update_self, show s.placed = s.field from h]
  exact get_replace_self hfits s.field_le

/-- A setter that is not aligned leaves its own field empty. -/
theorem value_set_of_not_aligned (h : ¬ s.Aligned) (hfits : s.field.Fits a) :
    s.value (s.set mac a) = 0#32 := by
  have hapart : s.field.Apart s.placed := by
    cases s <;> first | decide | exact absurd (by decide) h
  unfold value
  rw [set_eq, Function.update_self, replace, get_or, get_clear_self,
    (placed_fits hfits).get_shiftLeft_of_apart hapart, BitVec.or_zero]

/-- `qcom_set_prlen` adds its value to the field of `qcom_set_retry`. -/
theorem value_retry_set_prlen (hfits : prlen.field.Fits b) :
    retry.value (prlen.set mac b) = retry.value mac ||| b := by
  have hclear : retry.field.get (mac .ctrl1 &&& ~~~prlen.field.mask 32) =
      retry.field.get (mac .ctrl1) := get_clear_of_apart (by decide)
  have hplace : retry.field.get (b <<< prlen.placed.lsb) = b :=
    Fits.get_shiftLeft (f := retry.field) hfits (by decide)
  unfold value
  rw [set_eq]
  change retry.field.get (Function.update mac .ctrl1 _ .ctrl1) = _
  rw [Function.update_self, replace, get_or]
  exact congrArg₂ _ hclear hplace

/-- `qcom_set_mac_ipg_ctrl` empties the field of `qcom_set_hihg_ipg`, which is its own. -/
theorem value_hihgIpg_set_macIpgCtrl (hfits : macIpgCtrl.field.Fits b) :
    hihgIpg.value (macIpgCtrl.set mac b) = 0#32 :=
  value_set_of_not_aligned (s := macIpgCtrl) (by decide) hfits

theorem value_macIpgCtrl_set_hihgIpg (hfits : hihgIpg.field.Fits b) :
    macIpgCtrl.value (hihgIpg.set mac b) = b :=
  value_set_self (s := hihgIpg) (by decide) hfits

end QcomSetter

/-- A call of a setter with a value that fits its field. -/
structure QcomCall where
  setter : QcomSetter
  val : BitVec 32
  fits : setter.field.Fits val

namespace QcomCall

variable {c d : QcomCall} {mac : QcomMac}

def run (c : QcomCall) (mac : QcomMac) : QcomMac := c.setter.set mac c.val

/-- Calls one after another. -/
def runAll (calls : List QcomCall) (mac : QcomMac) : QcomMac :=
  calls.foldl (fun mac c => c.run mac) mac

/-- The bits that a call can set: a zero sets none, wherever it is shifted to. -/
def placed (c : QcomCall) : BitField := if c.val = 0#32 then ⟨0, 0⟩ else c.setter.placed

theorem placed_fits (c : QcomCall) : c.placed.Fits c.val := by
  unfold placed
  split
  · rename_i hzero
    rw [hzero]
    exact Nat.one_pos
  · exact c.fits

theorem replace_placed (c : QcomCall) (x : BitVec 32) :
    replace c.setter.field c.placed c.val x = replace c.setter.field c.setter.placed c.val x := by
  unfold placed
  split
  · rename_i hzero
    rw [hzero, replace, replace, BitVec.zero_shiftLeft, BitVec.zero_shiftLeft]
  · rfl

theorem run_eq (c : QcomCall) (mac : QcomMac) :
    c.run mac = Function.update mac c.setter.reg
      (replace c.setter.field c.placed c.val (mac c.setter.reg)) := by
  rw [run, QcomSetter.set_eq, replace_placed]

/-- Calls on different registers commute; those on one do where the replacements do. -/
theorem run_comm (h : c.setter.reg = d.setter.reg → ∀ x,
    replace c.setter.field c.placed c.val (replace d.setter.field d.placed d.val x) =
      replace d.setter.field d.placed d.val (replace c.setter.field c.placed c.val x)) :
    c.run (d.run mac) = d.run (c.run mac) := by
  rw [run_eq, run_eq, run_eq, run_eq]
  by_cases hreg : c.setter.reg = d.setter.reg
  · rw [hreg, Function.update_self, Function.update_self, Function.update_idem,
      Function.update_idem, h hreg]
  · rw [Function.update_of_ne hreg, Function.update_of_ne (Ne.symm hreg),
      Function.update_comm hreg]

/-- What is to be had of a call: its value is in its field, all other bits are as before, it
    commutes with calls on other fields, and no run of these changes the value. -/
structure FieldOnly (c : QcomCall) (others : List QcomCall) (mac : QcomMac) : Prop where
  own : c.setter.value (c.run mac) = c.val
  outside : ∀ reg i, ¬ (reg = c.setter.reg ∧ c.setter.field.Has i) →
    (c.run mac reg).getLsbD i = (mac reg).getLsbD i
  commutes : ∀ d ∈ others, c.run (d.run mac) = d.run (c.run mac)
  readBack : c.setter.value (runAll others (c.run mac)) = c.val

/-- Where a call and those on other fields do not get in each other's way: values are zero, or
    a length preamble adds no bit to the number of retries. -/
structure Undisturbed (c : QcomCall) (others : List QcomCall) : Prop where
  misplaced : c.setter = .prlen ∨ c.setter = .macIpgCtrl → c.val = 0#32
  retry : c.setter = .retry → ∀ d ∈ others, d.setter = .prlen → c.val ||| d.val = c.val
  hihgIpg : c.setter = .hihgIpg → (∃ d ∈ others, d.setter = .macIpgCtrl) → c.val = 0#32
  macIpgCtrl : c.setter = .macIpgCtrl → ∀ d ∈ others, d.setter = .hihgIpg → d.val = 0#32

theorem value_run_self (h : c.setter.Aligned ∨ c.val = 0#32) :
    c.setter.value (c.run mac) = c.val := by
  by_cases haligned : c.setter.Aligned
  · exact QcomSetter.value_set_self haligned c.fits
  · rw [run, QcomSetter.value_set_of_not_aligned haligned c.fits,
      h.resolve_left haligned]

theorem getLsbD_run (h : c.setter.Aligned ∨ c.val = 0#32) {reg : QcomMacReg} {i : Nat}
    (hi : ¬ (reg = c.setter.reg ∧ c.setter.field.Has i)) :
    (c.run mac reg).getLsbD i = (mac reg).getLsbD i := by
  rw [run_eq]
  by_cases hreg : reg = c.setter.reg
  · have hfield : ¬ c.setter.field.Has i := fun hhas => hi ⟨hreg, hhas⟩
    have hplaced : ¬ c.placed.Has i := by
      unfold placed
      split
      · exact fun hhas => by
          rw [has_iff] at hhas
          exact absurd hhas.2 (Nat.not_lt_zero _)
      · rename_i hne
        rw [show c.setter.placed = c.setter.field from h.resolve_right hne]
        exact hfield
    rw [hreg, Function.update_self, getLsbD_replace c.placed_fits hfield hplaced]
  · rw [Function.update_of_ne hreg]

theorem placed_apart {f : BitField} (h : c.val = 0#32 ∨ c.setter.placed.Apart f) :
    c.placed.Apart f := by
  unfold placed
  split
  · exact empty_apart f
  · rename_i hne
    exact h.resolve_left hne

theorem Undisturbed.aligned {others : List QcomCall} (h : Undisturbed c others) :
    c.setter.Aligned ∨ c.val = 0#32 := by
  rw [QcomSetter.aligned_iff]
  by_cases hprlen : c.setter = .prlen
  · exact Or.inr (h.misplaced (Or.inl hprlen))
  by_cases hmac : c.setter = .macIpgCtrl
  · exact Or.inr (h.misplaced (Or.inr hmac))
  exact Or.inl ⟨hprlen, hmac⟩

/-- `qcom_set_retry` and a `qcom_set_prlen` that adds no bit to its field. -/
theorem run_comm_retry (hc : c.setter = .retry) (hd : d.setter = .prlen)
    (hor : c.val ||| d.val = c.val) : c.run (d.run mac) = d.run (c.run mac) := by
  refine run_comm fun _ x => ?_
  rw [replace_placed, replace_placed, replace_placed, replace_placed]
  obtain ⟨s, a, ha⟩ := c
  obtain ⟨t, b, hb⟩ := d
  cases hc
  cases hd
  have hapart : QcomSetter.retry.field.Apart QcomSetter.prlen.field := by decide
  exact replace_comm_of_or (f := QcomSetter.retry.field) ha hb hapart hor

theorem Undisturbed.commutes {others : List QcomCall} (h : Undisturbed c others)
    (hd : d ∈ others) (hne : d.setter ≠ c.setter) : c.run (d.run mac) = d.run (c.run mac) := by
  by_cases hretry : c.setter = .retry ∧ d.setter = .prlen
  · exact run_comm_retry hretry.1 hretry.2 (h.retry hretry.1 d hd hretry.2)
  refine run_comm fun hreg x => replace_comm c.placed_fits d.placed_fits (placed_apart ?_)
    (placed_apart ?_)
  · by_cases hprlen : c.setter = .prlen ∧ d.setter = .retry
    · exact Or.inl (h.misplaced (Or.inl hprlen.1))
    by_cases hhihg : c.setter = .hihgIpg ∧ d.setter = .macIpgCtrl
    · exact Or.inl (h.hihgIpg hhihg.1 ⟨d, hd, hhihg.2⟩)
    exact Or.inr (QcomSetter.placed_apart_of_ne hne.symm hreg hprlen hhihg)
  · by_cases hmac : c.setter = .macIpgCtrl ∧ d.setter = .hihgIpg
    · exact Or.inl (h.macIpgCtrl hmac.1 d hd hmac.2)
    exact Or.inr (QcomSetter.placed_apart_of_ne hne hreg.symm (fun h => hretry h.symm)
      fun h => hmac h.symm)

/-- No call on another field takes the value out of a field. -/
theorem Undisturbed.value_run {others : List QcomCall} (h : Undisturbed c others)
    (hd : d ∈ others) (hne : d.setter ≠ c.setter) (hvalue : c.setter.value mac = c.val) :
    c.setter.value (d.run mac) = c.val := by
  by_cases hretry : c.setter = .retry ∧ d.setter = .prlen
  · have hor := h.retry hretry.1 d hd hretry.2
    rw [hretry.1] at hvalue ⊢
    rw [run, hretry.2, QcomSetter.value_retry_set_prlen (hretry.2 ▸ d.fits), hvalue, hor]
  by_cases hhihg : c.setter = .hihgIpg ∧ d.setter = .macIpgCtrl
  · have hzero := h.hihgIpg hhihg.1 ⟨d, hd, hhihg.2⟩
    rw [hhihg.1, run, hhihg.2, QcomSetter.value_hihgIpg_set_macIpgCtrl (hhihg.2 ▸ d.fits), hzero]
  by_cases hmac : c.setter = .macIpgCtrl ∧ d.setter = .hihgIpg
  · have hzero := h.macIpgCtrl hmac.1 d hd hmac.2
    rw [hmac.1, run, hmac.2, QcomSetter.value_macIpgCtrl_set_hihgIpg (hmac.2 ▸ d.fits), hzero,
      h.misplaced (Or.inr hmac.1)]
  rw [run, QcomSetter.value_set_of_spares (QcomSetter.spares_of_ne hne hretry hhihg hmac) d.fits,
    hvalue]

theorem Undisturbed.value_runAll {calls : List QcomCall} {others : List QcomCall}
    (h : Undisturbed c others) (hsub : ∀ d ∈ calls, d ∈ others)
    (hne : ∀ d ∈ others, d.setter ≠ c.setter) (hvalue : c.setter.value mac = c.val) :
    c.setter.value (runAll calls mac) = c.val := by
  induction calls generalizing mac with
  | nil => exact hvalue
  | cons d calls ih =>
    have hd : d ∈ others := hsub d List.mem_cons_self
    exact ih (fun d' hd' => hsub d' (List.mem_cons_of_mem _ hd'))
      (h.value_run hd (hne d hd) hvalue)

theorem FieldOnly.undisturbed {others : List QcomCall} (h : FieldOnly c others mac) :
    Undisturbed c others := by
  obtain ⟨s, a, ha⟩ := c
  have hown : s.value (s.set mac a) = a := h.own
  refine ⟨fun hs => ?_, ?_, ?_, ?_⟩
  · have hnot : ¬ s.Aligned := by
      rcases hs with rfl | rfl <;> decide
    exact hown.symm.trans (QcomSetter.value_set_of_not_aligned hnot ha)
  · rintro rfl ⟨t, b, hb⟩ hd rfl
    have hvalue := congrArg QcomSetter.retry.value (h.commutes _ hd)
    rw [run, run, run, run, QcomSetter.value_set_self (by decide) ha,
      QcomSetter.value_retry_set_prlen hb, hown] at hvalue
    exact hvalue.symm
  · rintro rfl ⟨⟨t, b, hb⟩, hd, rfl⟩
    have hvalue := congrArg QcomSetter.hihgIpg.value (h.commutes _ hd)
    rwa [run, run, run, run, QcomSetter.value_set_self (by decide) ha,
      QcomSetter.value_hihgIpg_set_macIpgCtrl hb] at hvalue
  · rintro rfl ⟨t, b, hb⟩ hd rfl
    have hvalue := congrArg QcomSetter.macIpgCtrl.value (h.commutes _ hd)
    rw [run, run, run, run, QcomSetter.value_set_of_not_aligned (by decide) ha,
      QcomSetter.value_macIpgCtrl_set_hihgIpg hb] at hvalue
    exact hvalue.symm

/-- Mask and shift describe the same bits for seven of the nine setters, and a call changes its
    own field only, for good, just where it and the calls on other fields do not get in each
    other's way. -/
theorem fieldOnly_iff (c : QcomCall) (others : List QcomCall) (mac : QcomMac)
    (hne : ∀ d ∈ others, d.setter ≠ c.setter) :
    (c.setter.Aligned ↔ c.setter ≠ .prlen ∧ c.setter ≠ .macIpgCtrl) ∧
      (FieldOnly c others mac ↔ Undisturbed c others) := by
  refine ⟨QcomSetter.aligned_iff, FieldOnly.undisturbed, fun h => ?_⟩
  · refine ⟨value_run_self h.aligned, fun reg i hi => getLsbD_run h.aligned hi,
      fun d hd => h.commutes hd (hne d hd), ?_⟩
    exact h.value_runAll (fun _ hd => hd) hne (value_run_self h.aligned)

/-- A number of retries that has all bits of the length preambles set after it. -/
theorem fieldOnly_retry_witness :
    let c : QcomCall := ⟨.retry, 13#32, by decide⟩
    let others : List QcomCall := [⟨.prlen, 4#32, by decide⟩, ⟨.lcol, 55#32, by decide⟩,
      ⟨.prlen, 9#32, by decide⟩]
    c.setter.Aligned ∧ FieldOnly c others (fun _ => 0xffffffff#32) := by
  intro c others
  obtain ⟨haligned, honly⟩ := fieldOnly_iff c others (fun _ => 0xffffffff#32) (by decide)
  refine ⟨haligned.mpr (by decide), honly.mpr ⟨?_, ?_, ?_, ?_⟩⟩
  · decide
  · decide
  · exact fun hsetter => absurd hsetter (by decide)
  · exact fun hsetter => absurd hsetter (by decide)

/-- A preamble length ends up in the number of retries, and the control of the gap sets bits 20
    on and clears the other gap. -/
theorem qcomSetPrlen_misplaced :
    qcomSetPrlen (fun _ => 0#32) 7#32 .ctrl1 = 0x700#32 ∧
      qcomSetMacIpgCtrl (qcomSetHihgIpg (fun _ => 0#32) 12#32) 1#32 .dbgCtrl = 0x100000#32 ∧
        ¬ FieldOnly ⟨.prlen, 7#32, by decide⟩ [] (fun _ => 0#32) ∧
          ¬ FieldOnly ⟨.hihgIpg, 12#32, by decide⟩ [⟨.macIpgCtrl, 1#32, by decide⟩]
            (fun _ => 0#32) := by
  refine ⟨by decide, by decide, fun h => ?_, fun h => ?_⟩
  · exact absurd h.own (by decide)
  · exact absurd h.readBack (by decide)

end QcomCall

end NssDp
