import NssDp.Misc.Lts
import NssDp.Main.MacAddress

/-!
# The MAC address in every layer

An address that is set goes to the data plane, to the net device and to the registers of the GMAC.
The net device and the GMAC always agree; the data plane is given the bytes at the start of the
structure that carries the address, which begins with the address family.
-/

namespace NssDp.MacAddress

open Lts

/-- The two bytes of the address family, three times. -/
def Sockaddr.familyThrice (addr : Sockaddr) : EtherAddr where
  b0 := addr.saFamily.setWidth 8
  b1 := (addr.saFamily >>> 8).setWidth 8
  b2 := addr.saFamily.setWidth 8
  b3 := (addr.saFamily >>> 8).setWidth 8
  b4 := addr.saFamily.setWidth 8
  b5 := (addr.saFamily >>> 8).setWidth 8

/-- After a call that sets the address, the net device, the data plane and the GMAC have it; a call
    that fails leaves the net device and the GMAC as they were. When the port is opened they keep
    the address last set, and the data plane is given no other. -/
def Agrees (cfg : PortConfig) (s : MacState) : MacCall → Prop
  | .setMacAddress macaddr env =>
      let r := nssDpSetMacAddress cfg s.port macaddr env
      if r.1 = .ok then
        r.2.devAddr = macaddr.saData ∧
          r.2.macAddrCalls = s.port.macAddrCalls ++ [macaddr.saData] ∧
          cfg.hal.getmacaddr r.2.regs = macaddr.saData
      else r.2.devAddr = s.port.devAddr ∧ r.2.regs = s.port.regs
  | .open env =>
      let r := nssDpOpen cfg s.port env
      ∀ addr, s.requested = some addr → r.2.devAddr = addr ∧ cfg.hal.getmacaddr r.2.regs = addr ∧
        ∃ calls, r.2.macAddrCalls = s.port.macAddrCalls ++ calls ∧ ∀ b ∈ calls, b = addr

/-- A call that sets the address sets one that repeats the address family. -/
def MacCall.RepeatsFamily : MacCall → Prop
  | .setMacAddress macaddr env =>
      env.prepare = .ok → env.ok .macAddr = true → macaddr.saData = macaddr.familyThrice
  | .open _ => True

/-- The net device and the GMAC have the address that was last set. -/
def HasRequested (cfg : PortConfig) (s : MacState) : Prop :=
  ∀ addr, s.requested = some addr → s.port.devAddr = addr ∧ cfg.hal.getmacaddr s.port.regs = addr

variable {cfg : PortConfig} {s t : MacState} {call : MacCall}

/-- The bytes that the data plane is given. -/
theorem Sockaddr.bytes_eq_iff (addr : Sockaddr) :
    addr.bytes = addr.saData ↔ addr.saData = addr.familyThrice := by
  rw [EtherAddr.ext_iff, EtherAddr.ext_iff]
  simp only [Sockaddr.bytes, Sockaddr.familyThrice]
  constructor
  · rintro ⟨h0, h1, h2, h3, h4, h5⟩
    exact ⟨h0.symm, h1.symm, by rw [← h2, ← h0], by rw [← h3, ← h1], by rw [← h4, ← h2, ← h0],
      by rw [← h5, ← h3, ← h1]⟩
  · rintro ⟨h0, h1, h2, h3, h4, h5⟩
    exact ⟨h0.symm, h1.symm, by rw [h0, h2], by rw [h1, h3], by rw [h2, h4], by rw [h3, h5]⟩

/-- How a call that sets the address ends. -/
theorem nssDpSetMacAddress_cases (cfg : PortConfig) (s : MacPort) (macaddr : Sockaddr)
    (env : MacEnv) :
    (env.prepare = .ok ∧ env.ok .macAddr = true ∧ nssDpSetMacAddress cfg s macaddr env =
      (.ok, { s.macAddr macaddr.bytes with
        devAddr := macaddr.saData
        regs := cfg.hal.setmacaddr macaddr.saData })) ∨
    (¬ (env.prepare = .ok ∧ env.ok .macAddr = true) ∧
      (nssDpSetMacAddress cfg s macaddr env).1 ≠ .ok ∧
      (nssDpSetMacAddress cfg s macaddr env).2.devAddr = s.devAddr ∧
      (nssDpSetMacAddress cfg s macaddr env).2.regs = s.regs) := by
  unfold nssDpSetMacAddress
  by_cases hprepare : env.prepare = .ok
  · cases hok : env.ok .macAddr with
    | true => simp [hprepare]
    | false => simp [hprepare, MacPort.macAddr]
  · simp [hprepare]

/-- What opening a port does to its address. -/
theorem nssDpOpen_frame (cfg : PortConfig) (s : MacPort) (env : MacEnv) :
    (nssDpOpen cfg s env).2.devAddr = s.devAddr ∧ (nssDpOpen cfg s env).2.regs = s.regs ∧
      ∃ calls, (nssDpOpen cfg s env).2.macAddrCalls = s.macAddrCalls ++ calls ∧
        ∀ b ∈ calls, b = s.devAddr := by
  have hnone : ∃ calls, s.macAddrCalls = s.macAddrCalls ++ calls ∧ ∀ b ∈ calls, b = s.devAddr :=
    ⟨[], (List.append_nil _).symm, fun _ hb => absurd hb List.not_mem_nil⟩
  have hone : ∃ calls, s.macAddrCalls ++ [s.devAddr] = s.macAddrCalls ++ calls ∧
      ∀ b ∈ calls, b = s.devAddr :=
    ⟨[s.devAddr], rfl, fun _ hb => List.mem_singleton.mp hb⟩
  unfold nssDpOpen
  split
  · exact ⟨rfl, rfl, hnone⟩
  · dsimp only
    split
    · exact ⟨rfl, rfl, hnone⟩
    · repeat' split
      all_goals exact ⟨rfl, rfl, hone⟩

theorem HasRequested.step (h : HasRequested cfg s) (hstep : macStep cfg s call = some t) :
    HasRequested cfg t := by
  cases call with
  | setMacAddress macaddr env =>
    cases hstep
    intro addr haddr
    rcases nssDpSetMacAddress_cases cfg s.port macaddr env with
      ⟨-, -, heq⟩ | ⟨-, hret, hdev, hregs⟩
    · simp only [heq, if_true, Option.some.injEq] at haddr ⊢
      rw [← haddr]
      exact ⟨rfl, cfg.hal.getmacaddr_setmacaddr macaddr.saData⟩
    · simp only [hret, if_false] at haddr
      simp only [hdev, hregs]
      exact h addr haddr
  | «open» env =>
    cases hstep
    obtain ⟨hdev, hregs, -⟩ := nssDpOpen_frame cfg s.port env
    intro addr haddr
    simp only [hdev, hregs]
    exact h addr haddr

/-- When the layers agree after a call. -/
theorem HasRequested.agrees_iff (h : HasRequested cfg s) (call : MacCall) :
    Agrees cfg s call ↔ call.RepeatsFamily := by
  cases call with
  | setMacAddress macaddr env =>
    unfold Agrees MacCall.RepeatsFamily
    rcases nssDpSetMacAddress_cases cfg s.port macaddr env with
      ⟨hprepare, hok, heq⟩ | ⟨hnot, hret, hdev, hregs⟩
    · simp only [heq, hprepare, hok, if_true, forall_const, MacPort.macAddr,
        List.append_cancel_left_eq, List.cons.injEq, and_true,
        cfg.hal.getmacaddr_setmacaddr macaddr.saData, true_and]
      exact macaddr.bytes_eq_iff
    · simp only [hret, if_false, hdev, hregs]
      exact iff_of_true ⟨trivial, trivial⟩ fun hprepare hok => absurd ⟨hprepare, hok⟩ hnot
  | «open» env =>
    refine iff_of_true ?_ trivial
    obtain ⟨hdev, hregs, calls, hcalls, hall⟩ := nssDpOpen_frame cfg s.port env
    intro addr haddr
    obtain ⟨hdevAddr, hregsAddr⟩ := h addr haddr
    rw [hdev, hregs]
    exact ⟨hdevAddr, hregsAddr, calls, hcalls, fun b hb => (hall b hb).trans hdevAddr⟩

/-- On every HAL, over every sequence of calls: all layers have the address that was set just when
    each that was set repeats the address family. -/
theorem macRun_agrees_iff (cfg : PortConfig) (port : MacPort) (calls : List MacCall) :
    StepsMeet (macStep cfg) (Agrees cfg) ⟨port, none⟩ calls ↔
      ∀ call ∈ calls, call.RepeatsFamily := by
  have hstart : HasRequested cfg ⟨port, none⟩ := fun addr haddr => by cases haddr
  obtain ⟨u, hrun⟩ := run_total (macStep cfg)
    (fun s call => by cases call <;> exact ⟨_, rfl⟩) ⟨port, none⟩ calls
  have hforall : StepsMeet (macStep cfg) (fun _ call => call.RepeatsFamily) ⟨port, none⟩ calls ↔
      ∀ call ∈ calls, call.RepeatsFamily :=
    stepsMeet_iff_forall (D := MacCall.RepeatsFamily) (fun _ _ _ _ => Iff.rfl) hrun
  rw [← hforall]
  exact stepsMeet_congr (fun s call hs => hs.agrees_iff call)
    (fun s call t hs _ hstep => hs.step hstep) hstart

/-- A port that is not yet initialised. -/
def freshPort : MacPort := ⟨.zero, ⟨0, 0⟩, false, []⟩

/-- Nothing fails. -/
def allOk : MacEnv := ⟨.ok, fun _ => true⟩

/-- An address set for an Ethernet device: the data plane is given another one, and when the port is
    opened afterwards the one that was set. -/
theorem macRun_disagrees :
    ¬ StepsMeet (macStep ⟨.qcom, true, false⟩) (Agrees ⟨.qcom, true, false⟩) ⟨freshPort, none⟩
        [.setMacAddress ⟨1, ⟨0x02, 0, 0, 0, 0, 0x05⟩⟩ allOk] ∧
      (run (macStep ⟨.qcom, true, false⟩) ⟨freshPort, none⟩
        [.setMacAddress ⟨1, ⟨0x02, 0, 0, 0, 0, 0x05⟩⟩ allOk, .open allOk]).map
          (fun s => s.port.macAddrCalls) =
        some [⟨0x01, 0, 0x02, 0, 0, 0⟩, ⟨0x02, 0, 0, 0, 0, 0x05⟩] := by
  constructor
  · rintro ⟨⟨-, hcalls, -⟩, -⟩
    revert hcalls
    decide
  · decide

end NssDp.MacAddress
