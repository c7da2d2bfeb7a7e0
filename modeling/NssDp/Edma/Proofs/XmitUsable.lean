import NssDp.Edma.Proofs.TxOwnership

/-!
# What `edma_if_xmit` hands to the ring

The packet and the ring that `edma_ring_xmit` is called with, with the room behind the data
of the packet: `edma_if_xmit` asks `pskb_expand_head` for it, and nothing else in the driver
reads it. `xmit_usable_iff` says when the two are fit for the ring.
-/

namespace NssDp.Edma

open Word

/-- A packet with `skb_tailroom`, the room behind its linear data. -/
structure RoomSkb extends SkBuff where
  tailroom : Nat
  deriving DecidableEq, Repr

/-- `pskb_expand_head(skb, nhead, ntail, GFP_ATOMIC)` where it succeeds, in an allocation
    with `slack` bytes more than were asked for. -/
def RoomSkb.expandHead (skb : RoomSkb) (nhead ntail data slack : Nat) : RoomSkb :=
  { toSkBuff := skb.toSkBuff.expandHead nhead data
    tailroom := skb.tailroom + ntail + slack }

/-- The outcomes of the calls `edma_if_xmit` makes, with the slack of the allocation. -/
structure RoomEnv extends XmitEnv where
  slack : Nat

/-- The arguments of `edma_ring_xmit`. -/
structure RingXmitCall where
  skb : RoomSkb
  ring : Nat
  deriving DecidableEq, Repr

/-- `edma_if_xmit` up to the call of `edma_ring_xmit` (`edma_data_plane.c:143-188`); `none`
    is the `drop` exit. -/
def edmaIfXmitCall (ehw : EdmaHw) (netdev : NetDevice) (skb : RoomSkb) (env : RoomEnv) :
    Option RingXmitCall :=
  if skb.len < ethHlen then none
  else
    let txRing := edmaTxRing ehw skb.toSkBuff
    if skb.isNonlinear then none
    else
      let nhead := netdev.neededHeadroom
      let ntail := netdev.neededTailroom
      if mustExpand netdev skb.toSkBuff then
        env.expand.map fun data => ⟨skb.expandHead nhead ntail data env.slack, txRing⟩
      else some ⟨skb, txRing⟩

/-- The packet is freed once, and counted as dropped. -/
def Dropped (netdev : NetDevice) (skb : RoomSkb) (x : Except EdmaBug IfXmit) : Prop :=
  ∃ r, x = .ok r ∧ (freedSkbs r.events).map (·.id) = [skb.id] ∧
    r.netdev.txDropped = netdev.txDropped + 1

/-- What `edma_ring_xmit` relies on. -/
structure Usable (ehw : EdmaHw) (netdev : NetDevice) (call : RingXmitCall) : Prop where
  ring : call.ring < ehw.txdescRings
  linear : call.skb.isNonlinear = false
  unshared : call.skb.cloned = false
  len : ethHlen ≤ call.skb.len
  headroom : netdev.neededHeadroom ≤ call.skb.headroom
  tailroom : netdev.neededTailroom ≤ call.skb.tailroom
  preheader : (call.skb.push (edmaTxPreheader netdev).bytes).isSome

/-- The packet is dropped, or the ring can use what it is given. -/
def XmitUsable (ehw : EdmaHw) (netdev : NetDevice) (skb : RoomSkb) (env : RoomEnv) : Prop :=
  Dropped netdev skb (edmaIfXmit ehw netdev skb.toSkBuff env.toXmitEnv) ∨
    ∃ call, edmaIfXmitCall ehw netdev skb env = some call ∧ Usable ehw netdev call

/-- The packet does not reach the ring: it is too short, not linear, or there is no memory to
    expand it. -/
def Rejected (netdev : NetDevice) (skb : RoomSkb) (env : RoomEnv) : Prop :=
  skb.len < ethHlen ∨ skb.isNonlinear = true ∨
    (mustExpand netdev skb.toSkBuff = true ∧ env.expand = none)

/-- The queue of the packet is no greater than the number of rings, where there are several. -/
def QueueInRange (ehw : EdmaHw) (skb : RoomSkb) : Prop :=
  ehw.txdescRings = 1 ∨ skb.queueMapping ≤ ehw.txdescRings

/-- The tailroom is there, or the packet is expanded for another reason. -/
def TailroomServed (netdev : NetDevice) (skb : RoomSkb) : Prop :=
  mustExpand netdev skb.toSkBuff = true ∨ netdev.neededTailroom ≤ skb.tailroom

section Call

variable {ehw : EdmaHw} {netdev : NetDevice} {skb : RoomSkb} {env : RoomEnv}

/-- The packet of the call is the one that `edma_if_xmit` prepares. -/
theorem edmaIfXmitCall_prepare :
    (edmaIfXmitCall ehw netdev skb env).map (·.skb.toSkBuff) =
      edmaIfXmitPrepare netdev skb.toSkBuff env.toXmitEnv := by
  unfold edmaIfXmitCall edmaIfXmitPrepare
  split
  · rfl
  split
  · rfl
  split
  · rw [Option.map_map]
    rfl
  · rfl

theorem edmaIfXmitCall_ring {call : RingXmitCall}
    (hcall : edmaIfXmitCall ehw netdev skb env = some call) :
    call.ring = edmaTxRing ehw skb.toSkBuff := by
  unfold edmaIfXmitCall at hcall
  split at hcall
  · cases hcall
  dsimp only at hcall
  split at hcall
  · cases hcall
  split at hcall
  · obtain ⟨data, -, rfl⟩ := Option.map_eq_some_iff.mp hcall
    rfl
  · cases hcall
    rfl

/-- `edma_if_xmit` is the call and what follows it. -/
theorem edmaIfXmit_call : edmaIfXmit ehw netdev skb.toSkBuff env.toXmitEnv =
    match edmaIfXmitCall ehw netdev skb env with
    | none => .ok (edmaIfXmitDrop ehw netdev skb.toSkBuff [])
    | some call =>
      match edmaRingXmit ehw netdev call.skb.toSkBuff call.ring env.dma with
      | .error bug => .error bug
      | .ok r =>
        match r.ret with
        | .ok => .ok ⟨.ok, r.ehw, r.skb, netdev, r.events⟩
        | .desc => .ok ⟨.busy, r.ehw, r.skb, netdev.stopQueue, r.events⟩
        | .fail => .ok (edmaIfXmitDrop r.ehw netdev r.skb r.events) := by
  have hprepare := @edmaIfXmitCall_prepare ehw netdev skb env
  unfold edmaIfXmit
  rw [← hprepare]
  cases hcall : edmaIfXmitCall ehw netdev skb env with
  | none => rfl
  | some call =>
    rw [← edmaIfXmitCall_ring hcall]
    rfl

theorem edmaIfXmitCall_eq_none :
    edmaIfXmitCall ehw netdev skb env = none ↔ Rejected netdev skb env := by
  unfold edmaIfXmitCall Rejected
  by_cases hlen : skb.len < ethHlen
  · simp [hlen]
  by_cases hlinear : skb.isNonlinear = true
  · simp [hlen, hlinear]
  by_cases hexpand : mustExpand netdev skb.toSkBuff = true
  · simp [hlen, hlinear, hexpand]
  · simp [hlen, hlinear, hexpand]

/-- `edma_ring_xmit` does not answer `EDMA_TX_FAIL`. -/
theorem edmaRingXmit_ne_fail {p : SkBuff} {ring : Nat} {dma : BitVec 32} {r : RingXmit}
    (h : edmaRingXmit ehw netdev p ring dma = .ok r) : r.ret ≠ .fail := by
  unfold edmaRingXmit at h
  dsimp only at h
  split at h
  · cases h
    simp
  split at h
  · cases h
  split at h
  · cases h
    simp
  · cases h
    unfold edmaRingPublish
    dsimp only
    split <;> simp

/-- A packet that reaches the ring is not counted as dropped. -/
theorem not_dropped {call : RingXmitCall}
    (hcall : edmaIfXmitCall ehw netdev skb env = some call) :
    ¬ Dropped netdev skb (edmaIfXmit ehw netdev skb.toSkBuff env.toXmitEnv) := by
  rintro ⟨r, hr, -, hcount⟩
  rw [edmaIfXmit_call, hcall] at hr
  dsimp only at hr
  split at hr
  · cases hr
  rename_i x hx
  have hne := edmaRingXmit_ne_fail hx
  split at hr
  · cases hr
    exact absurd hcount (Nat.ne_of_lt (Nat.lt_succ_self _))
  · cases hr
    exact absurd hcount (Nat.ne_of_lt (Nat.lt_succ_self _))
  · contradiction

theorem dropped_of_rejected (hrejected : Rejected netdev skb env) :
    Dropped netdev skb (edmaIfXmit ehw netdev skb.toSkBuff env.toXmitEnv) := by
  rw [edmaIfXmit_call, edmaIfXmitCall_eq_none.mpr hrejected]
  exact ⟨_, rfl, rfl, rfl⟩

/-- The remainder of the two numbers is an index exactly where the queue is in range. -/
theorem edmaTxRing_lt_iff (hrings : 1 ≤ ehw.txdescRings) :
    edmaTxRing ehw skb.toSkBuff < ehw.txdescRings ↔ QueueInRange ehw skb := by
  unfold edmaTxRing QueueInRange
  split
  next hsel =>
    obtain ⟨hmany, hqueue⟩ := hsel
    constructor
    · intro hlt
      right
      by_contra hover
      rw [Nat.mod_eq_of_lt (by omega)] at hlt
      omega
    · intro hrange
      have hlt := Nat.mod_lt ehw.txdescRings hqueue
      omega
  next hsel => omega

/-- The packet of the call: expanded, or as it came. -/
theorem edmaIfXmitCall_cases {call : RingXmitCall}
    (hcall : edmaIfXmitCall ehw netdev skb env = some call) :
    ethHlen ≤ skb.len ∧ skb.isNonlinear = false ∧
      ((mustExpand netdev skb.toSkBuff = true ∧ ∃ data, call.skb =
          skb.expandHead netdev.neededHeadroom netdev.neededTailroom data env.slack) ∨
        (mustExpand netdev skb.toSkBuff = false ∧ call.skb = skb)) := by
  unfold edmaIfXmitCall at hcall
  split at hcall
  · cases hcall
  next hlen =>
  dsimp only at hcall
  split at hcall
  · cases hcall
  next hlinear =>
  refine ⟨Nat.le_of_not_lt hlen, Bool.eq_false_of_not_eq_true hlinear, ?_⟩
  split at hcall
  next hexpand =>
    obtain ⟨data, -, rfl⟩ := Option.map_eq_some_iff.mp hcall
    exact Or.inl ⟨hexpand, data, rfl⟩
  next hexpand =>
    cases hcall
    exact Or.inr ⟨Bool.eq_false_of_not_eq_true hexpand, rfl⟩

/-- Expansion serves both demands and takes the packet out of sharing. -/
theorem usable_expanded {call : RingXmitCall} {data : Nat}
    (hroom : edmaTxPrehdrSize ≤ netdev.neededHeadroom) (hlen : ethHlen ≤ skb.len)
    (hlinear : skb.isNonlinear = false) (hring : call.ring < ehw.txdescRings)
    (hskb : call.skb =
      skb.expandHead netdev.neededHeadroom netdev.neededTailroom data env.slack) :
    Usable ehw netdev call := by
  have hhead : call.skb.headroom = skb.headroom + netdev.neededHeadroom := by rw [hskb]; rfl
  have htail : call.skb.tailroom = skb.tailroom + netdev.neededTailroom + env.slack := by
    rw [hskb]; rfl
  refine ⟨hring, ?_, ?_, ?_, ?_, ?_, ?_⟩
  · rw [hskb]
    exact hlinear
  · rw [hskb]
    rfl
  · rw [hskb]
    exact hlen
  · omega
  · omega
  · rw [SkBuff.push, if_neg (by rw [EdmaTxPreheader.length_bytes]; omega)]
    rfl

/-- A packet that is left as it came has the headroom, and is not shared. -/
theorem usable_kept {call : RingXmitCall}
    (hroom : edmaTxPrehdrSize ≤ netdev.neededHeadroom) (hlen : ethHlen ≤ skb.len)
    (hlinear : skb.isNonlinear = false) (hring : call.ring < ehw.txdescRings)
    (hkept : mustExpand netdev skb.toSkBuff = false) (hskb : call.skb = skb)
    (htail : netdev.neededTailroom ≤ skb.tailroom) : Usable ehw netdev call := by
  simp only [mustExpand, Bool.or_eq_false_iff, decide_eq_false_iff_not] at hkept
  obtain ⟨⟨hcloned, hhead⟩, -⟩ := hkept
  refine ⟨hring, ?_, ?_, ?_, ?_, ?_, ?_⟩ <;> rw [hskb]
  · exact hlinear
  · exact hcloned
  · exact hlen
  · omega
  · exact htail
  · rw [SkBuff.push, if_neg (by rw [EdmaTxPreheader.length_bytes]; omega)]
    rfl

end Call

/-- Every packet is dropped or handed to the ring in a usable form exactly where it is
    rejected, or its queue is in range and it does not lack tailroom alone. -/
theorem xmit_usable_iff {ehw : EdmaHw} {netdev : NetDevice} (skb : RoomSkb) (env : RoomEnv)
    (hrings : 1 ≤ ehw.txdescRings) (hroom : edmaTxPrehdrSize ≤ netdev.neededHeadroom) :
    XmitUsable ehw netdev skb env ↔
      Rejected netdev skb env ∨ (QueueInRange ehw skb ∧ TailroomServed netdev skb) := by
  constructor
  · rintro (hdropped | ⟨call, hcall, husable⟩)
    · cases hcall : edmaIfXmitCall ehw netdev skb env with
      | none => exact Or.inl (edmaIfXmitCall_eq_none.mp hcall)
      | some call => exact absurd hdropped (not_dropped hcall)
    · have hring := husable.ring
      rw [edmaIfXmitCall_ring hcall] at hring
      refine Or.inr ⟨(edmaTxRing_lt_iff hrings).mp hring, ?_⟩
      obtain ⟨-, -, ⟨hexpand, -⟩ | ⟨-, hskb⟩⟩ := edmaIfXmitCall_cases hcall
      · exact Or.inl hexpand
      · have htail := husable.tailroom
        rw [hskb] at htail
        exact Or.inr htail
  · intro hcond
    cases hcall : edmaIfXmitCall ehw netdev skb env with
    | none => exact Or.inl (dropped_of_rejected (edmaIfXmitCall_eq_none.mp hcall))
    | some call =>
      rcases hcond with hrejected | ⟨hqueue, htail⟩
      · rw [edmaIfXmitCall_eq_none.mpr hrejected] at hcall
        cases hcall
      have hring := (edmaTxRing_lt_iff hrings).mpr hqueue
      rw [← edmaIfXmitCall_ring hcall] at hring
      refine Or.inr ⟨call, hcall, ?_⟩
      obtain ⟨hlen, hlinear, ⟨-, data, hskb⟩ | ⟨hkept, hskb⟩⟩ := edmaIfXmitCall_cases hcall
      · exact usable_expanded hroom hlen hlinear hring hskb
      · rcases htail with hexpand | htail
        · rw [hkept] at hexpand
          cases hexpand
        · exact usable_kept hroom hlen hlinear hring hkept hskb htail

/-- The instance with two TXDESC rings. -/
def twoTxdescRings : EdmaHw := { idleEdma with txdescRings := 2 }

/-- A minimal packet on a queue, with the room the device asks for in front and none behind. -/
def queuedPacket (queue : Nat) : RoomSkb :=
  { packetOf 0 (List.replicate 14 0#8) with
    queueMapping := queue
    tailroom := 0 }

/-- No call of `pskb_expand_head` succeeds. -/
def noMemory : RoomEnv := ⟨⟨none, 4096#32⟩, 0⟩

/-- Queue 2 of two rings, on a device that asks for no tailroom. -/
theorem xmit_usable_two : XmitUsable twoTxdescRings port1Dev (queuedPacket 2) noMemory :=
  (xmit_usable_iff (queuedPacket 2) noMemory (by decide) (by decide)).mpr
    (Or.inr ⟨Or.inr (by decide), Or.inr (by decide)⟩)

/-- Queue 3 of two rings is sent to ring 2; and a packet without tailroom is not expanded for
    a device that asks for 16 bytes. -/
theorem xmit_unusable :
    ¬ XmitUsable twoTxdescRings port1Dev (queuedPacket 3) noMemory ∧
      ¬ XmitUsable twoTxdescRings { port1Dev with neededTailroom := 16 } (queuedPacket 0)
        noMemory := by
  constructor
  · rintro (hdropped | ⟨call, hcall, husable⟩)
    · have hsent : edmaIfXmitCall twoTxdescRings port1Dev (queuedPacket 3) noMemory =
          some ⟨queuedPacket 3, 2⟩ := by decide
      exact not_dropped hsent hdropped
    · cases Option.some.inj hcall
      have hring := husable.ring
      revert hring
      decide
  · rintro (hdropped | ⟨call, hcall, husable⟩)
    · have hsent : edmaIfXmitCall twoTxdescRings { port1Dev with neededTailroom := 16 }
          (queuedPacket 0) noMemory = some ⟨queuedPacket 0, 0⟩ := by decide
      exact not_dropped hsent hdropped
    · cases Option.some.inj hcall
      have htail := husable.tailroom
      revert htail
      decide

end NssDp.Edma
