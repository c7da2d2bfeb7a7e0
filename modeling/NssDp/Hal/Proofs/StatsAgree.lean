import Mathlib.Data.List.Nodup
import NssDp.Hal.SynStats

/-!
# Two readers of one structure

The table of ethtool finds every member of `struct nss_dp_hal_gmac_stats` at its place, but reads
half of it. So ethtool reports a counter as it is, and as `nss_dp_get_stats64` reports it, up to
32 bits.
-/

namespace NssDp.SynStats

open Bytes Word

/-- The errors that the DMA reports, in the order of `hw_errs`. -/
def hwErrNames : List String := [
    "pmt_interrupts", "mmc_interrupts", "line_interface_interrupts", "fatal_bus_error_interrupts",
    "rx_buffer_unavailable_interrupts", "rx_process_stopped_interrupts",
    "tx_underflow_interrupts", "rx_overflow_interrupts", "tx_jabber_timeout_interrutps",
    "tx_process_stopped_interrutps"
]

/-- What ethtool calls a member. -/
def GmacCounter.name : GmacCounter → String
  | .rxBytes => "rx_bytes"
  | .rxPackets => "rx_packets"
  | .rxErrors => "rx_errors"
  | .rxReceiveErrors => "rx_receive_errors"
  | .rxDescriptorErrors => "rx_descriptor_errors"
  | .rxLateCollisionErrors => "rx_late_collision_errors"
  | .rxDribbleBitErrors => "rx_dribble_bit_errors"
  | .rxLengthErrors => "rx_length_errors"
  | .rxIpHeaderErrors => "rx_ip_header_errors"
  | .rxIpPayloadErrors => "rx_ip_payload_errors"
  | .rxNoBufferErrors => "rx_no_buffer_errors"
  | .rxTransportCsumBypassed => "rx_transport_csum_bypassed"
  | .txBytes => "tx_bytes"
  | .txPackets => "tx_packets"
  | .txCollisions => "tx_collisions"
  | .txErrors => "tx_errors"
  | .txJabberTimeoutErrors => "tx_jabber_timeout_errors"
  | .txFrameFlushedErrors => "tx_frame_flushed_errors"
  | .txLossOfCarrierErrors => "tx_loss_of_carrier_errors"
  | .txNoCarrierErrors => "tx_no_carrier_errors"
  | .txLateCollisionErrors => "tx_late_collision_errors"
  | .txExcessiveCollisionErrors => "tx_excessive_collision_errors"
  | .txExcessiveDeferralErrors => "tx_excessive_deferral_errors"
  | .txUnderflowErrors => "tx_underflow_errors"
  | .txIpHeaderErrors => "tx_ip_header_errors"
  | .txIpPayloadErrors => "tx_ip_payload_errors"
  | .txDropped => "tx_dropped"
  | .rxMissed => "rx_missed"
  | .fifoOverflows => "fifo_overflows"
  | .rxScatterErrors => "rx_scatter_errors"
  | .txTsCreateErrors => "tx_ts_create_errors"
  | .gmacTotalTicks => "gmac_total_ticks"
  | .gmacWorstCaseTicks => "gmac_worst_case_ticks"
  | .gmacIterations => "gmac_iterations"
  | .txPauseFrames => "tx_pause_frames"
  | .mmcRxOverflowErrors => "mmc_rx_overflow_errors"
  | .mmcRxWatchdogTimeoutErrors => "mmc_rx_watchdog_timeout_errors"
  | .mmcRxCrcErrors => "mmc_rx_crc_errors"
  | .mmcRxIpHeaderErrors => "mmc_rx_ip_header_errors"
  | .mmcRxOctetsG => "mmc_rx_octets_g"
  | .mmcRxUcastFrames => "mmc_rx_ucast_frames"
  | .mmcRxBcastFrames => "mmc_rx_bcast_frames"
  | .mmcRxMcastFrames => "mmc_rx_mcast_frames"
  | .mmcRxUndersize => "mmc_rx_undersize"
  | .mmcRxOversize => "mmc_rx_oversize"
  | .mmcRxJabber => "mmc_rx_jabber"
  | .mmcRxOctetsGb => "mmc_rx_octets_gb"
  | .mmcRxFragFramesG => "mmc_rx_frag_frames_g"
  | .mmcTxOctetsG => "mmc_tx_octets_g"
  | .mmcTxUcastFrames => "mmc_tx_ucast_frames"
  | .mmcTxBcastFrames => "mmc_tx_bcast_frames"
  | .mmcTxMcastFrames => "mmc_tx_mcast_frames"
  | .mmcTxDeferred => "mmc_tx_deferred"
  | .mmcTxSingleCol => "mmc_tx_single_col"
  | .mmcTxMultipleCol => "mmc_tx_multiple_col"
  | .mmcTxOctetsGb => "mmc_tx_octets_gb"
  | .hwErrs i => hwErrNames.getD i.val ""

/-- The members in the order of the table. -/
def tableCounters : List GmacCounter := [
  .rxBytes, .rxPackets, .rxErrors, .rxReceiveErrors, .rxDescriptorErrors, .rxLateCollisionErrors,
  .rxDribbleBitErrors, .rxLengthErrors, .rxIpHeaderErrors, .rxIpPayloadErrors, .rxNoBufferErrors,
  .rxTransportCsumBypassed, .txBytes, .txPackets, .txCollisions, .txErrors,
  .txJabberTimeoutErrors, .txFrameFlushedErrors, .txLossOfCarrierErrors, .txNoCarrierErrors,
  .txLateCollisionErrors, .txExcessiveCollisionErrors, .txExcessiveDeferralErrors,
  .txUnderflowErrors, .txIpHeaderErrors, .txIpPayloadErrors, .txDropped, .rxMissed,
  .fifoOverflows, .rxScatterErrors, .txTsCreateErrors
  ] ++ (List.finRange 10).map .hwErrs ++ [
  .gmacTotalTicks, .gmacWorstCaseTicks, .gmacIterations, .txPauseFrames, .mmcRxOverflowErrors,
  .mmcRxWatchdogTimeoutErrors, .mmcRxCrcErrors, .mmcRxIpHeaderErrors, .mmcRxOctetsG,
  .mmcRxUcastFrames, .mmcRxBcastFrames, .mmcRxMcastFrames, .mmcRxUndersize, .mmcRxOversize,
  .mmcRxJabber, .mmcRxOctetsGb, .mmcRxFragFramesG, .mmcTxOctetsG, .mmcTxUcastFrames,
  .mmcTxBcastFrames, .mmcTxMcastFrames, .mmcTxDeferred, .mmcTxSingleCol, .mmcTxMultipleCol,
  .mmcTxOctetsGb
]

/-- The counters that both readers report, with the members of `struct rtnl_link_stats64`. -/
def sharedCounters : List (GmacCounter × (RtnlLinkStats64 → BitVec 64)) := [
  (.rxBytes, RtnlLinkStats64.rxBytes),
  (.rxPackets, RtnlLinkStats64.rxPackets),
  (.txBytes, RtnlLinkStats64.txBytes),
  (.txPackets, RtnlLinkStats64.txPackets),
  (.rxMissed, RtnlLinkStats64.rxMissedErrors),
  (.fifoOverflows, RtnlLinkStats64.rxFifoErrors)
]

/-- The entry at an index of the table is named after a member. -/
def NamedBy (i : Nat) (c : GmacCounter) : Prop :=
  ∃ e, synGstringsStats[i]? = some e ∧ e.statString = c.name

/-- The table is complete and in its own order, the computed offsets included. -/
theorem synGstringsStats_eq :
    synGstringsStats = tableCounters.map fun c => ⟨c.name, synStat c⟩ := by
  decide +kernel

theorem nodup_names : (tableCounters.map GmacCounter.name).Nodup := by
  decide +kernel

theorem mem_tableCounters (c : GmacCounter) : c ∈ tableCounters := by
  cases c with
  | hwErrs i => revert i; decide +kernel
  | _ => decide +kernel

theorem mem_gmacMembers (c : GmacCounter) : c ∈ gmacMembers := by
  cases c with
  | hwErrs i => revert i; decide +kernel
  | _ => decide +kernel

/-- Where the entries of the table point. -/
theorem namedBy_iff {i : Nat} {c : GmacCounter} : NamedBy i c ↔ tableCounters[i]? = some c := by
  unfold NamedBy
  rw [synGstringsStats_eq, List.getElem?_map]
  constructor
  · rintro ⟨e, he, hname⟩
    obtain ⟨c', hc', rfl⟩ := Option.map_eq_some_iff.mp he
    have heq : c' = c := List.inj_on_of_nodup_map nodup_names (mem_tableCounters c')
      (mem_tableCounters c) hname
    rw [hc', heq]
  · intro hc
    exact ⟨⟨c.name, synStat c⟩, by rw [hc]; rfl, rfl⟩

/-- At the offset of a member a load of 32 bits sees its lower half. -/
theorem readLe32_synStat (stats : GmacStats) (c : GmacCounter) :
    readLe32 (stats.bytes.drop (synStat c)) = (stats c).setWidth 32 :=
  readLe32_record stats (List.getElem?_idxOf (mem_gmacMembers c))

/-- What ethtool is given. -/
theorem synGetEthStats_eq (old stats : GmacStats) :
    synGetEthStats ⟨old, some stats⟩ =
      some (tableCounters.map fun c => ((stats c).setWidth 32).setWidth 64) := by
  rw [synGetEthStats, synGetStats, Option.map_some, Option.map_some, synGstringsStats_eq,
    List.map_map]
  refine congrArg some (List.map_congr_left fun c _ => ?_)
  exact congrArg _ (readLe32_synStat stats c)

/-- What `nss_dp_get_stats64` reports of a counter is the counter. -/
theorem sharedCounters_eq {old stats : GmacStats} {net : RtnlLinkStats64}
    (hnet : synGetNetdevStats ⟨old, some stats⟩ = some net) {c : GmacCounter}
    {member : RtnlLinkStats64 → BitVec 64} (h : (c, member) ∈ sharedCounters) :
    member net = stats c := by
  cases hnet
  simp only [sharedCounters, List.mem_cons, Prod.mk.injEq, List.not_mem_nil, or_false] at h
  rcases h with ⟨rfl, rfl⟩ | ⟨rfl, rfl⟩ | ⟨rfl, rfl⟩ | ⟨rfl, rfl⟩ | ⟨rfl, rfl⟩ | ⟨rfl, rfl⟩ <;> rfl

/-- For all contents of the counters: every entry of the table is named after one member, and
    ethtool reports that member there, and reports the same as `nss_dp_get_stats64` where both do,
    just when the counter fits 32 bits. -/
theorem synStats_agree_iff (old stats : GmacStats) : ∃ data net,
    synGetEthStats ⟨old, some stats⟩ = some data ∧
    synGetNetdevStats ⟨old, some stats⟩ = some net ∧
    ∀ i < synGstringsStats.length, ∃ c, NamedBy i c ∧ (∀ c', NamedBy i c' → c' = c) ∧
      (data[i]? = some (stats c) ↔ (stats c).toNat < 2 ^ 32) ∧
      ∀ member, (c, member) ∈ sharedCounters →
        (data[i]? = some (member net) ↔ (stats c).toNat < 2 ^ 32) := by
  obtain ⟨net, hnet⟩ : ∃ net, synGetNetdevStats ⟨old, some stats⟩ = some net := ⟨_, rfl⟩
  refine ⟨_, net, synGetEthStats_eq old stats, hnet, fun i hi => ?_⟩
  have hlt : i < tableCounters.length := by
    rwa [synGstringsStats_eq, List.length_map] at hi
  have hc := List.getElem?_eq_getElem hlt
  have hdata : (tableCounters.map fun c => ((stats c).setWidth 32).setWidth 64)[i]? =
      some (((stats tableCounters[i]).setWidth 32).setWidth 64) := by
    rw [List.getElem?_map, hc, Option.map_some]
  refine ⟨tableCounters[i], namedBy_iff.mpr hc, fun c' hc' => ?_, ?_, fun member hmember => ?_⟩
  · exact Option.some.inj ((namedBy_iff.mp hc').symm.trans hc)
  · rw [hdata, Option.some.injEq, setWidth_setWidth_eq_iff]
  · rw [hdata, Option.some.injEq, sharedCounters_eq hnet hmember,
      setWidth_setWidth_eq_iff]

/-- The first entry, after 4 GiB less one byte. -/
theorem synStats_agree_rxBytes :
    (synGetEthStats ⟨fun _ => 0, some fun _ => 0xFFFFFFFF⟩).map (·[0]?) =
      some (some 0xFFFFFFFF#64) := by
  obtain ⟨data, net, hdata, -, hall⟩ := synStats_agree_iff (fun _ => 0) fun _ => 0xFFFFFFFF
  obtain ⟨c, -, -, hvalue, -⟩ := hall 0 (by decide)
  rw [hdata, Option.map_some, hvalue.mpr (by decide)]
  rfl

/-- After 4 GiB ethtool reports no byte received, and `nss_dp_get_stats64` reports them all. -/
theorem synStats_disagree :
    ((synGetEthStats ⟨fun _ => 0, some fun _ => 0x100000000⟩).map (·[0]?) = some (some 0#64)) ∧
      NamedBy 0 .rxBytes ∧
      (synGetNetdevStats ⟨fun _ => 0, some fun _ => 0x100000000⟩).map RtnlLinkStats64.rxBytes =
        some 0x100000000#64 := by
  refine ⟨?_, ⟨_, rfl, rfl⟩, rfl⟩
  rw [synGetEthStats_eq]
  rfl

end NssDp.SynStats
