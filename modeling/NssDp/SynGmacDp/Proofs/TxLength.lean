import NssDp.SynGmacDp.Proofs.TxOwnership

/-!
# The length of a frame in its descriptor

The length word of a transmit descriptor has two fields of 13 bits. A frame that one field
cannot take is split over both, and the completion reads the first field only; a frame that
both cannot take is cut off.
-/

namespace NssDp.SynGmacDp

open Lts Cyclic Word

/-- `(desc->length & desc_size2_mask) >> desc_size2_shift`. -/
def DmaDesc.size2 (desc : DmaDesc) : Nat :=
  ((desc.length &&& descSize2Mask) >>> descSize2Shift).toNat

/-- The length word is that of `n` bytes, and what the first buffer does not take follows it. -/
structure DmaDesc.Describes (desc : DmaDesc) (n : Nat) : Prop where
  lengths : desc.size1 + desc.size2 = n
  fields : desc.length &&& ~~~(descSize1Mask ||| descSize2Mask) = 0#32
  data1 : 0 < desc.size2 → desc.data1 = desc.buffer1 + BitVec.ofNat 32 desc.size1

/-- The turn of the completion loop that stands at slot `i` unmaps `n` bytes, and counts them
    as sent where no error is reported. -/
def CompletedAs (info : SynDpTxInfo) (i n : Nat) : Prop :=
  ∃ skb info', txCompleteOne { info with txBusy := i, txBusyDesc := i } =
      .ok (info', [.dmaUnmapSingle .pdev (info.txDesc i).buffer1 n .toDevice, .devKfreeSkb skb]) ∧
    ((info.txDesc i).status &&& descTxError = 0#32 →
      info'.stats.txBytes = info.stats.txBytes + BitVec.ofNat 64 n)

/-- The length word that a cleared descriptor gets. -/
def txLengthWord (length1 : BitVec 32) : BitVec 32 :=
  if synDpMaxDescBuff < length1 then
    descSize1Mask ||| (((length1 - synDpMaxDescBuff) <<< descSize2Shift) &&& descSize2Mask)
  else length1 &&& descSize1Mask

/-- The descriptor holds what was written for a frame of `n` bytes. -/
structure DmaDesc.WrittenFor (desc : DmaDesc) (n : Nat) : Prop where
  length : desc.length = txLengthWord (BitVec.ofNat 32 n)
  data1 : desc.data1 =
    if synDpMaxDescBuff < BitVec.ofNat 32 n then desc.buffer1 + synDpMaxDescBuff else 0#32

theorem setTxDesc_length (txdesc : DmaDesc) (buffer1 length1 : BitVec 32) (offload : Bool)
    (txCntl setDma : BitVec 32) (hfree : txdesc.length = 0#32) :
    (setTxDesc txdesc buffer1 length1 offload txCntl setDma).length = txLengthWord length1 := by
  have hword : (if synDpMaxDescBuff < length1 then
      txdesc.length ||| ((synDpMaxDescBuff <<< descSize1Shift) &&& descSize1Mask)
        ||| (((length1 - synDpMaxDescBuff) <<< descSize2Shift) &&& descSize2Mask)
      else txdesc.length ||| ((length1 <<< descSize1Shift) &&& descSize1Mask)) =
        txLengthWord length1 := by
    have hmax : (synDpMaxDescBuff <<< descSize1Shift) &&& descSize1Mask = descSize1Mask := by decide
    rw [hfree, hmax, BitVec.zero_or, BitVec.zero_or, descSize1Shift, BitVec.shiftLeft_zero,
      txLengthWord]
  rw [← hword]
  cases offload with
  | false => rfl
  | true => rfl

theorem setTxDesc_writtenFor (txdesc : DmaDesc) (buffer1 : BitVec 32) (n : Nat) (offload : Bool)
    (txCntl setDma : BitVec 32) (hfree : txdesc.length = 0#32) :
    (setTxDesc txdesc buffer1 (BitVec.ofNat 32 n) offload txCntl setDma).WrittenFor n := by
  refine ⟨setTxDesc_length _ _ _ _ _ _ hfree, ?_⟩
  cases offload with
  | false => rfl
  | true => rfl

/-- The second field of a word is read as it was written, but for what it cannot hold. -/
theorem size2_field (z : BitVec 32) :
    (((z <<< descSize2Shift) &&& descSize2Mask) >>> descSize2Shift).toNat = z.toNat % 2 ^ 13 := by
  have hmask : descSize2Mask = descSize1Mask <<< descSize2Shift := by decide
  have hfield : (z &&& descSize1Mask).toNat = z.toNat % 2 ^ 13 := by
    rw [BitVec.toNat_and]
    exact and_mask z.toNat 13
  have hlt : z.toNat % 2 ^ 13 < 2 ^ 13 := Nat.mod_lt _ (by decide)
  rw [hmask, ← BitVec.shiftLeft_and_distrib, BitVec.toNat_ushiftRight, BitVec.toNat_shiftLeft,
    hfield, Nat.shiftLeft_eq, Nat.shiftRight_eq_div_pow, descSize2Shift,
      Nat.mod_eq_of_lt (by omega)]
  omega

namespace DmaDesc.WrittenFor

variable {desc : DmaDesc} {n : Nat}

theorem max_lt_iff (hn : n < 2 ^ 32) : synDpMaxDescBuff < BitVec.ofNat 32 n ↔ 0x1FFF < n := by
  rw [BitVec.lt_def, BitVec.toNat_ofNat, Nat.mod_eq_of_lt hn]
  exact Iff.rfl

/-- A frame that fits one field. -/
theorem small (h : desc.WrittenFor n) (hn : n ≤ 0x1FFF) : desc.size1 = n ∧ desc.size2 = 0 ∧
    desc.length &&& ~~~(descSize1Mask ||| descSize2Mask) = 0#32 := by
  have hle : ¬ synDpMaxDescBuff < BitVec.ofNat 32 n := by
    rw [max_lt_iff (by omega)]
    omega
  have hword : desc.length = BitVec.ofNat 32 n &&& descSize1Mask := by
    rw [h.length, txLengthWord, if_neg hle]
  refine ⟨?_, ?_, ?_⟩
  · rw [size1, hword, BitVec.and_assoc, BitVec.and_self, descSize1Shift, BitVec.ushiftRight_zero,
      BitVec.toNat_and, BitVec.toNat_ofNat, Nat.mod_eq_of_lt (by omega)]
    exact (and_mask n 13).trans (Nat.mod_eq_of_lt (by omega))
  · rw [size2, hword, BitVec.and_assoc, show descSize1Mask &&& descSize2Mask = 0#32 by decide,
      BitVec.and_zero]
    rfl
  · rw [hword, BitVec.and_assoc,
      show descSize1Mask &&& ~~~(descSize1Mask ||| descSize2Mask) = 0#32 by decide,
      BitVec.and_zero]

/-- A frame that does not: the first field is full. -/
theorem large (h : desc.WrittenFor n) (hn : 0x1FFF < n) (hlt : n < 2 ^ 32) :
    desc.size1 = 0x1FFF := by
  have hgt : synDpMaxDescBuff < BitVec.ofNat 32 n := (max_lt_iff hlt).mpr hn
  rw [size1, h.length, txLengthWord, if_pos hgt, masked_or_of_disjoint]
  · decide
  · rw [BitVec.and_assoc, show descSize2Mask &&& descSize1Mask = 0#32 by decide, BitVec.and_zero]

/-- The second field holds the rest, cut to its 13 bits. -/
theorem large_size2 (h : desc.WrittenFor n) (hn : 0x1FFF < n) (hlt : n < 2 ^ 32) :
    desc.size2 = (n - 0x1FFF) % 2 ^ 13 := by
  have hgt : synDpMaxDescBuff < BitVec.ofNat 32 n := (max_lt_iff hlt).mpr hn
  have hrest : (BitVec.ofNat 32 n - synDpMaxDescBuff).toNat = n - 0x1FFF := by
    rw [BitVec.toNat_sub_of_le (BitVec.le_of_lt hgt), BitVec.toNat_ofNat, Nat.mod_eq_of_lt hlt]
    rfl
  have hover : (descSize1Mask ||| ((BitVec.ofNat 32 n - synDpMaxDescBuff) <<< descSize2Shift &&&
      descSize2Mask)) &&& descSize2Mask =
        (BitVec.ofNat 32 n - synDpMaxDescBuff) <<< descSize2Shift &&& descSize2Mask := by
    rw [BitVec.or_comm, masked_or_of_disjoint (by decide), BitVec.and_assoc, BitVec.and_self]
  rw [size2, h.length, txLengthWord, if_pos hgt, hover, size2_field, hrest]

/-- The descriptor describes the frame as long as the two fields can take it. -/
theorem describes_iff (h : desc.WrittenFor n) (hlt : n < 2 ^ 32) :
    desc.Describes n ↔ n ≤ 2 * 0x1FFF := by
  rcases Nat.lt_or_ge 0x1FFF n with hn | hn
  · have hsize1 := h.large hn hlt
    have hsize2 := h.large_size2 hn hlt
    constructor
    · intro hdescribes
      have hlengths := hdescribes.lengths
      have hfield := Nat.mod_lt (n - 0x1FFF) (show 0 < 2 ^ 13 by decide)
      omega
    · intro hle
      refine ⟨by omega, ?_, ?_⟩
      · have hgt : synDpMaxDescBuff < BitVec.ofNat 32 n := (max_lt_iff hlt).mpr hn
        rw [h.length, txLengthWord, if_pos hgt, BitVec.and_or_distrib_right, BitVec.and_assoc,
          show descSize1Mask &&& ~~~(descSize1Mask ||| descSize2Mask) = 0#32 by decide,
          show descSize2Mask &&& ~~~(descSize1Mask ||| descSize2Mask) = 0#32 by decide,
          BitVec.and_zero, BitVec.or_zero]
      · intro _
        rw [h.data1, if_pos ((max_lt_iff hlt).mpr hn), hsize1]
        rfl
  · obtain ⟨hsize1, hsize2, hfields⟩ := h.small hn
    refine iff_of_true ⟨by rw [hsize1, hsize2, Nat.add_zero], hfields, ?_⟩ (by omega)
    intro hpos
    rw [hsize2] at hpos
    cases hpos

/-- The completion reads the first field. -/
theorem size1_eq_iff (h : desc.WrittenFor n) (hlt : n < 2 ^ 32) : desc.size1 = n ↔ n ≤ 0x1FFF := by
  rcases Nat.lt_or_ge 0x1FFF n with hn | hn
  · rw [h.large hn hlt]
    omega
  · exact iff_of_true (h.small hn).1 hn

end DmaDesc.WrittenFor

/-- Every busy descriptor holds what was written for its frame. -/
def TxLengths (info : SynDpTxInfo) : Prop :=
  ∀ i ∈ info.busyWindow, ∀ skb, info.txSkbList i = some skb → (info.txDesc i).WrittenFor skb.len

namespace TxRingInv

variable {info : SynDpTxInfo}

theorem txLengths_push (h : TxRingInv info) (hroom : info.busyTxDesc < synDpTxDescSize)
    (hlengths : TxLengths info) (skb : SkBuff) (dmaAddr : BitVec 32) :
    TxLengths (pushTx info skb dmaAddr) := by
  obtain ⟨hfree, -⟩ := h.free _ h.next_lt (h.next_notMem hroom)
  intro i hi skb' hskb'
  rw [h.busyWindow_push, List.mem_append, List.mem_singleton] at hi
  rcases hi with hi | rfl
  · have hne : i ≠ info.txNext := ne_of_mem_of_not_mem hi (h.next_notMem hroom)
    simp only [pushTx, Function.update_of_ne hne] at hskb' ⊢
    exact hlengths i hi skb' hskb'
  · simp only [pushTx, Function.update_self] at hskb' ⊢
    cases hskb'
    exact setTxDesc_writtenFor _ _ _ _ _ _ hfree

theorem txLengths_pop (h : TxRingInv info) (hbusy : 0 < info.busyTxDesc)
    (hlengths : TxLengths info) (stats : TxStats) : TxLengths (popTx info stats) := by
  intro i hi skb hskb
  obtain ⟨hold, hdesc, hlist⟩ := h.pop_other hbusy stats hi
  rw [hlist] at hskb
  rw [hdesc]
  exact hlengths i hold skb hskb

/-- A turn of the completion loop reads the length from the descriptor it stands at. -/
theorem completedAs_iff (h : TxRingInv info) {i : Nat} (hi : i ∈ info.busyWindow) (n : Nat) :
    CompletedAs info i n ↔ (info.txDesc i).size1 = n := by
  obtain ⟨hsome, hlast⟩ := h.held i hi
  obtain ⟨skb, hskb⟩ := Option.isSome_iff_exists.mp hsome
  have hdone : (info.txDesc i).status &&& descTxLast ≠ 0#32 := by
    rw [hlast]
    decide
  have hturn : ∃ info', txCompleteOne { info with txBusy := i, txBusyDesc := i } = .ok (info',
      [.dmaUnmapSingle .pdev (info.txDesc i).buffer1 (info.txDesc i).size1 .toDevice,
        .devKfreeSkb skb]) ∧
      info'.stats = info.stats.txComplete (info.txDesc i).status (info.txDesc i).size1 := by
    simp only [txCompleteOne, hskb, ne_eq, hdone, not_false_eq_true, if_true, synDpResetTxQptr,
      not_true_eq_false, if_false]
    exact ⟨_, rfl, rfl⟩
  obtain ⟨info', hturn, hstats⟩ := hturn
  constructor
  · rintro ⟨skb', info'', hturn', -⟩
    cases hturn.symm.trans hturn'
    rfl
  · rintro rfl
    refine ⟨skb, info', hturn, ?_⟩
    intro hok
    rw [hstats, TxStats.txComplete, hok]
    rfl

end TxRingInv

theorem txLengths_release {info info' : SynDpTxInfo} {wb : BitVec 32} (hlengths : TxLengths info)
    (hrel : dmaRelease info wb = some info') : TxLengths info' := by
  obtain ⟨j, -, rfl⟩ := dmaRelease_eq hrel
  intro i hi skb hskb
  have hold := hlengths i hi skb hskb
  rcases eq_or_ne i j with rfl | hne
  · simp only [Function.update_self]
    exact ⟨hold.length, hold.data1⟩
  · simpa only [Function.update_of_ne hne] using hold

/-- The descriptors hold the frames' lengths after every call and every step of the engine. -/
theorem txLengths_step {s t : TxRun} {a : TxLabel} (h : TxRunInv s) (hlengths : TxLengths s.info)
    (hstep : txStep s a = some t) : TxLengths t.info := by
  have hring := h.queue.ring
  unfold txStep at hstep
  simp only [h.bug, Option.isSome_none, Bool.false_eq_true, if_false] at hstep
  cases a with
  | tx skb dma =>
    simp only at hstep
    split at hstep
    · cases hstep
    · by_cases hok : s.info.busyTxDesc < synDpTxDescSize ∧ dma.isSome = true
      · obtain ⟨hroom, hdma⟩ := hok
        obtain ⟨dmaAddr, rfl⟩ := Option.isSome_iff_exists.mp hdma
        rw [hring.tx_eq_push hroom] at hstep
        cases hstep
        exact hring.txLengths_push hroom hlengths skb dmaAddr
      · rw [hring.tx_eq_refuse skb dma hok] at hstep
        cases hstep
        exact hlengths
  | complete =>
    obtain ⟨info', events, heq, -, hlengths'⟩ := hring.processTxComplete_rule
      (P := fun info _ => TxLengths info)
      (fun _ _ _ stats hring hbusy _ _ hP => hring.txLengths_pop hbusy hP stats) [] hlengths
    rw [heq] at hstep
    cases hstep
    exact hlengths'
  | dma wb =>
    obtain ⟨info', hrel, rfl⟩ := Option.map_eq_some_iff.mp hstep
    exact txLengths_release hlengths hrel

/-- In every run, the descriptor of an accepted frame describes it and is completed with its
    length exactly where one length field takes the frame, and describes it where two do. -/
theorem txRun_length_iff {info : SynDpTxInfo} {allocOk : Bool}
    (hsetup : synDpSetupTxDescQueue SynDpTxInfo.zero synDpTxDescSize .ringMode allocOk =
      .ok (0, info)) {as : List TxLabel} {s : TxRun}
    (hrun : run txStep (.start info) as = some s) {skb : SkBuff} {i : Nat}
    (hi : s.info.Holds skb i) :
    ((s.info.txDesc i).Describes skb.len ∧ CompletedAs s.info i skb.len ↔ skb.len ≤ 0x1FFF) ∧
      ((s.info.txDesc i).Describes skb.len ↔ skb.len ≤ 2 * 0x1FFF) := by
  have hempty : info.busyWindow = [] := by
    rw [synDpSetupTxDescQueue_ok hsetup]
    rfl
  have hstart : TxRunInv (.start info) ∧ TxLengths info := by
    refine ⟨⟨FrameQueueInv.start hsetup, rfl, rfl⟩, ?_⟩
    intro j hj
    rw [hempty] at hj
    cases hj
  obtain ⟨h, hlengths⟩ : TxRunInv s ∧ TxLengths s.info :=
    run_inv (I := fun s => TxRunInv s ∧ TxLengths s.info)
      (fun _ _ _ h hstep => ⟨h.1.step hstep, txLengths_step h.1 h.2 hstep⟩) hstart hrun
  have hmem := (h.queue.mem_heldSkbs hi).1
  have hwritten := hlengths i hmem skb hi.2
  have hlen : skb.len < 2 ^ 32 := u32_lt _
  rw [h.queue.ring.completedAs_iff hmem, hwritten.describes_iff hlen, hwritten.size1_eq_iff hlen]
  refine ⟨?_, Iff.rfl⟩
  omega

/-- A frame of zeros. -/
def zeroFrame (id len : Nat) : SkBuff :=
  ⟨id, 0, 0, List.replicate len 0#8, 0, 0, false, false, false, 0⟩

theorem zeroFrame_len {id len : Nat} (h : len < 2 ^ 32) : (zeroFrame id len).len = len := by
  rw [SkBuff.len, zeroFrame, List.length_replicate, Nat.add_zero, u32_of_lt h]

/-- The first frame on an empty ring. -/
theorem emptyRing_first (skb : SkBuff) (dmaAddr : BitVec 32) : ∃ s,
    run txStep (.start emptyRing) [.tx skb (some dmaAddr)] = some s ∧ s.info.Holds skb 0 ∧
      TxRingInv s.info ∧ 0 ∈ s.info.busyWindow ∧ (s.info.txDesc 0).WrittenFor skb.len := by
  have hring : TxRingInv emptyRing := TxRingInv.setup emptyRing_setup
  have hroom : emptyRing.busyTxDesc < synDpTxDescSize := Nat.zero_lt_succ 127
  have hwindow : (pushTx emptyRing skb dmaAddr).busyWindow = [0] :=
    hring.busyWindow_push skb dmaAddr
  have hskb : (pushTx emptyRing skb dmaAddr).txSkbList 0 = some skb := by
    show Function.update emptyRing.txSkbList 0 (some skb) 0 = some skb
    rw [Function.update_self]
  have hlengths : TxLengths (pushTx emptyRing skb dmaAddr) := by
    refine hring.txLengths_push hroom ?_ skb dmaAddr
    intro i hi
    cases hi
  have hmem : 0 ∈ (pushTx emptyRing skb dmaAddr).busyWindow := by
    rw [hwindow]
    exact List.mem_singleton_self 0
  refine ⟨⟨pushTx emptyRing skb dmaAddr, [skb], [.dmaMapSingle .pdev dmaAddr skb.len .toDevice], [],
    none⟩, ?_, ⟨Nat.zero_lt_succ 127, hskb⟩, hring.push hroom skb dmaAddr, hmem,
    hlengths 0 hmem skb hskb⟩
  simp [run, txStep, TxRun.start, hring.tx_eq_push hroom]

/-- A frame of 8191 bytes, the longest for which both hold. -/
theorem txRun_length_iff_8191 : ∃ s,
    run txStep (.start emptyRing) [.tx (zeroFrame 0 8191) (some 0x1000#32)] = some s ∧
      s.info.Holds (zeroFrame 0 8191) 0 ∧
      ((s.info.txDesc 0).Describes (zeroFrame 0 8191).len ∧
        CompletedAs s.info 0 (zeroFrame 0 8191).len ↔ (zeroFrame 0 8191).len ≤ 0x1FFF) ∧
      ((s.info.txDesc 0).Describes (zeroFrame 0 8191).len ↔
        (zeroFrame 0 8191).len ≤ 2 * 0x1FFF) := by
  obtain ⟨s, hrun, hheld, -, -, -⟩ := emptyRing_first (zeroFrame 0 8191) 0x1000#32
  exact ⟨s, hrun, hheld, txRun_length_iff emptyRing_setup hrun hheld⟩

/-- One byte more is split over the two fields and completed as 8191 bytes; a frame of 16383
    bytes is described as one of 8191. -/
theorem txRun_length_8192 :
    (∃ s, run txStep (.start emptyRing) [.tx (zeroFrame 0 8192) (some 0x1000#32)] = some s ∧
      s.info.Holds (zeroFrame 0 8192) 0 ∧ CompletedAs s.info 0 8191 ∧
      ¬ CompletedAs s.info 0 (zeroFrame 0 8192).len) ∧
    ∃ s, run txStep (.start emptyRing) [.tx (zeroFrame 0 16383) (some 0x1000#32)] = some s ∧
      s.info.Holds (zeroFrame 0 16383) 0 ∧ (s.info.txDesc 0).Describes 8191 ∧
      ¬ (s.info.txDesc 0).Describes (zeroFrame 0 16383).len := by
  constructor
  · obtain ⟨s, hrun, hheld, hring, hmem, hwritten⟩ := emptyRing_first (zeroFrame 0 8192) 0x1000#32
    rw [zeroFrame_len (by decide)] at hwritten ⊢
    have hsize1 := hwritten.large (by decide) (by decide)
    refine ⟨s, hrun, hheld, (hring.completedAs_iff hmem _).mpr hsize1, ?_⟩
    rw [hring.completedAs_iff hmem, hsize1]
    decide
  · obtain ⟨s, hrun, hheld, hring, hmem, hwritten⟩ := emptyRing_first (zeroFrame 0 16383) 0x1000#32
    rw [zeroFrame_len (by decide)] at hwritten ⊢
    have hsize1 := hwritten.large (by decide) (by decide)
    have hsize2 := hwritten.large_size2 (by decide) (by decide)
    refine ⟨s, hrun, hheld, ⟨?_, ?_, ?_⟩, ?_⟩
    · rw [hsize1, hsize2]
      rfl
    · rw [hwritten.length]
      decide
    · rw [hsize2]
      intro hpos
      cases hpos
    · rw [hwritten.describes_iff (by decide)]
      decide

end NssDp.SynGmacDp
