import NssDp.Edma.Proofs.Accesses
import NssDp.Edma.Proofs.PollBudget
import NssDp.Edma.Proofs.RxOwnership
import NssDp.Edma.Proofs.WakeUp

/-!
# Whom the EDMA poll serves

`edma_clean_rx` looks up the device of a frame in the table of net devices, and the loop at the
end of `edma_napi` goes through that table. So a poll hands buffers to no device outside it, and
starts the queue of none.
-/

namespace NssDp.Edma

open Lts

/-- From `dev` to `dev'`, buffers have been handed to devices in the table only, and no other
    device has changed. -/
structure Serves (soc : Soc) (dev dev' : EdmaPoll) : Prop where
  netdevArr : dev'.ehw.netdevArr = dev.ehw.netdevArr
  delivers : ∃ es, dev'.rxEvents = dev.rxEvents ++ es ∧
    ∀ e ∈ es, ∀ ndev, e.receiver = some ndev → dev.ehw.Registered soc.maxPorts ndev
  others : ∀ ndev, ¬ dev.ehw.Registered soc.maxPorts ndev → dev'.devs ndev = dev.devs ndev

section Serves

variable {soc : Soc} {virtToPhys : Nat → BitVec 32} {budget : Nat} {dev dev' dev'' : EdmaPoll}
  {rx rx' : EdmaRx} {call call' : CleanRx}

theorem registered_congr {ehw ehw' : EdmaHw} {n ndev : Nat}
    (h : ehw'.netdevArr = ehw.netdevArr) : ehw'.Registered n ndev ↔ ehw.Registered n ndev := by
  rw [EdmaHw.Registered, EdmaHw.Registered, h]

/-- Nothing but the instance has changed, and that not in its table. -/
theorem Serves.of_ehw (harr : dev'.ehw.netdevArr = dev.ehw.netdevArr)
    (hevents : dev'.rxEvents = dev.rxEvents) (hdevs : dev'.devs = dev.devs) :
    Serves soc dev dev' :=
  ⟨harr, ⟨[], by rw [hevents, List.append_nil], by simp⟩, fun ndev _ => by rw [hdevs]⟩

theorem Serves.refl (dev : EdmaPoll) : Serves soc dev dev := of_ehw rfl rfl rfl

theorem Serves.trans (h : Serves soc dev dev') (h' : Serves soc dev' dev'') :
    Serves soc dev dev'' := by
  obtain ⟨es, hes, hto⟩ := h.delivers
  obtain ⟨es', hes', hto'⟩ := h'.delivers
  refine ⟨h'.netdevArr.trans h.netdevArr, ⟨es ++ es', ?_, ?_⟩, ?_⟩
  · rw [hes', hes, List.append_assoc]
  · intro e he ndev hndev
    rcases List.mem_append.mp he with he | he
    · exact hto e he ndev hndev
    · exact (registered_congr h.netdevArr).mp (hto' e he ndev hndev)
  · intro ndev hnot
    have hnot' : ¬ dev'.ehw.Registered soc.maxPorts ndev := fun hreg =>
      hnot ((registered_congr h.netdevArr).mp hreg)
    exact (h'.others ndev hnot').trans (h.others ndev hnot)

/-- Work on the receive rings that gives no buffer to other code. -/
theorem Serves.of_keptBack {desc fill fill' : Nat} (hkept : KeptBack (dev.rx desc fill) rx')
    (harr : rx'.ehw.netdevArr = dev.ehw.netdevArr) : Serves soc dev (dev.setRx fill' rx') := by
  obtain ⟨es, hes, hnone⟩ := hkept
  refine ⟨harr, ⟨es, hes, fun e he ndev hndev => ?_⟩, fun _ _ => rfl⟩
  cases (RxEvent.receiver_of_delivered (hnone e he)).symm.trans hndev

/-- A turn of the loop over a ring leaves the table alone. -/
theorem cleanRxTurn_netdevArr (h : edmaCleanRxTurn soc rx call = .next rx' call') :
    rx'.ehw.netdevArr = rx.ehw.netdevArr := by
  unfold edmaCleanRxTurn at h
  dsimp only at h
  split at h
  · cases h
  · split at h
    · cases h
    · split at h
      · cases h
        rfl
      · split at h
        · cases h
        · cases h
          rfl

theorem cleanRxTurn_done_netdevArr (h : edmaCleanRxTurn soc rx call = .done rx') :
    rx'.ehw.netdevArr = rx.ehw.netdevArr := by
  unfold edmaCleanRxTurn at h
  dsimp only at h
  split at h
  · cases h
    rfl
  · split at h
    · cases h
      rfl
    · split at h
      · cases h
      · split at h
        · cases h
        · cases h

theorem edmaAllocRxBuffer_netdevArr (rx : EdmaRx) (allocs : List EdmaRxAlloc) :
    (edmaAllocRxBuffer rx allocs).2.ehw.netdevArr = rx.ehw.netdevArr := by
  unfold edmaAllocRxBuffer
  dsimp only
  generalize hl : allocRxLoop _ allocs _ = l
  obtain ⟨-, hehw⟩ := hl ▸ allocRxLoop_numAlloc rx.fillCons allocs ⟨0, _, _⟩ (Nat.two_pow_pos 16)
  have harr : l.rx.ehw.netdevArr = rx.ehw.netdevArr := by
    rw [hehw]
    rfl
  split
  · exact harr
  · exact harr

/-- What is delivered goes to the entry of the table for the port it came from. -/
theorem rxHandOver_registered {rxph : EdmaRxPreheader} {status : BitVec 32} {skb : RxSkb}
    {e : RxEvent} {ndev : Nat} (h : edmaRxHandOver soc rx rxph status skb = some e)
    (hndev : e.receiver = some ndev) : rx.ehw.Registered soc.maxPorts ndev := by
  have hdelivered : ∃ skb', e.delivered = some skb' := by
    cases e with
    | netifReceiveSkb _ skb' | nssPhyTstampRxBuf _ skb' => exact ⟨skb', rfl⟩
    | _ => cases hndev
  obtain ⟨skb', hskb'⟩ := hdelivered
  obtain ⟨ndev', len, hto, -, -, hhigh, harr, -⟩ := rxHandOver_delivered h hskb'
  have hsame : ndev' = ndev := by
    rcases hto with rfl | rfl
    · exact Option.some.inj hndev
    · exact Option.some.inj hndev
  have hports : 0 < soc.maxPorts := by cases soc <;> decide
  exact ⟨rxph.srcPortNum - 1, by omega, hsame ▸ harr⟩

/-- A turn of the loop over an RXDESC ring. -/
theorem Serves.turn {i : Nat} (h : edmaCleanRxTurn soc (dev.rxOf i) call = .next rx' call') :
    Serves soc dev (dev.setRxOf i rx') := by
  have harr := cleanRxTurn_netdevArr h
  rcases cleanRxTurn_next h with hkept | ⟨rx₀, skb, e, hnetdev, -, he, hevents⟩
  · exact of_keptBack hkept harr
  · refine ⟨harr, ⟨_, hevents, fun e' he' ndev hndev => ?_⟩, fun _ _ => rfl⟩
    rcases List.mem_cons.mp he' with rfl | he'
    · cases hndev
    · rw [List.mem_singleton.mp he'] at hndev
      exact (registered_congr hnetdev).mp (rxHandOver_registered he hndev)

/-- One turn of the loop over the devices. -/
theorem Serves.resume {i : Nat} (hi : i < soc.maxPorts) :
    Serves soc dev { dev with devs := napiResumeAt dev.ehw dev.devs i } := by
  refine ⟨rfl, ⟨[], (List.append_nil _).symm, by simp⟩, fun ndev hnot => ?_⟩
  unfold napiResumeAt
  cases harr : dev.ehw.netdevArr i with
  | none => rfl
  | some d =>
    apply Function.update_of_ne
    rintro rfl
    exact hnot ⟨i, hi, harr⟩

theorem edmaNapiEnd_netdevArr (ehw : EdmaHw) (workDone : BitVec 32) :
    (edmaNapiEnd ehw workDone budget).netdevArr = ehw.netdevArr := by
  unfold edmaNapiEnd
  split
  · obtain ⟨l, hwork⟩ := enableRingIrqs_ringWork { ehw with napi := ehw.napi.complete }
    have hdevice := congrArg EdmaHw.netdevArr hwork.device
    exact hdevice
  · rfl

/-- A piece of the poll. -/
theorem napiNext_serves {s t : PollRun} {allocs : List EdmaRxAlloc}
    (h : napiNext soc virtToPhys soc.maxPorts budget s allocs = some t) :
    Serves soc s.dev t.dev := by
  obtain ⟨dev, workDone, pc⟩ := s
  cases pc with
  | rxStart i =>
    simp only [napiNext] at h
    split at h
    · cases h
      have hkept : KeptBack (dev.rxOf i) (edmaCleanRxStart (dev.rxOf i) budget).1 :=
        KeptBack.of_events rfl
      exact .of_keptBack hkept rfl
    · cases h
      exact .refl dev
  | rxLoop i call =>
    simp only [napiNext] at h
    split at h
    · rename_i rx hturn
      cases h
      exact .of_keptBack (cleanRxTurn_done hturn) (cleanRxTurn_done_netdevArr hturn)
    · rename_i rx call' hturn
      cases h
      exact .turn hturn
    · cases h
  | rxEnd i call =>
    cases h
    have hkept : KeptBack (dev.rxOf i) (edmaCleanRxEnd (dev.rxOf i) call allocs).2 :=
      KeptBack.allocRxBuffer (dev.rxOf i) allocs
    exact .of_keptBack hkept (edmaAllocRxBuffer_netdevArr (dev.rxOf i) allocs)
  | tx i =>
    simp only [napiNext] at h
    split at h
    · obtain ⟨r, hr, rfl⟩ := Option.map_eq_some_iff.mp h
      obtain ⟨l, hwork⟩ := cleanTx_ringWork hr
      have harr := congrArg EdmaHw.netdevArr hwork.device
      exact .of_ehw harr rfl rfl
    · cases h
      exact .refl dev
  | fill i =>
    simp only [napiNext] at h
    split at h
    · cases h
      exact .of_keptBack (KeptBack.allocRxBuffer _ _)
        (edmaAllocRxBuffer_netdevArr (dev.rx 0 i) allocs)
    · cases h
      exact .refl dev
  | resume i =>
    simp only [napiNext] at h
    split at h
    · rename_i hi
      cases h
      exact .resume hi
    · cases h
      exact .refl dev
  | finish =>
    cases h
    exact .of_ehw (edmaNapiEnd_netdevArr _ _) rfl rfl
  | returned => cases h

theorem pollStep_serves {s t : PollRun} {a : PollLabel}
    (h : pollStep soc virtToPhys soc.maxPorts budget s a = some t) : Serves soc s.dev t.dev := by
  cases a with
  | next allocs => exact napiNext_serves h
  | hw progress =>
    simp only [pollStep] at h
    split at h
    · cases h
    · cases h
      exact .of_ehw rfl rfl rfl

/-- A poll only serves the devices that are in the table when it is called, however far it has
    come. -/
theorem pollRun_serves {labels : List PollLabel} {t : PollRun}
    (hrun : run (pollStep soc virtToPhys soc.maxPorts budget) (.start dev) labels = some t) :
    Serves soc dev t.dev :=
  run_inv (I := fun s => Serves soc dev s.dev)
    (fun _ _ _ h hstep => h.trans (pollStep_serves hstep)) (Serves.refl dev) hrun

end Serves

end NssDp.Edma
