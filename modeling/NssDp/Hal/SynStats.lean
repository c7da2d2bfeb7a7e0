import NssDp.Misc.Bytes

/-!
# The statistics of the Synopsys GMAC

`struct nss_dp_hal_gmac_stats` (`hal/arch/ipq50xx/nss_ipq50xx.h`) and its two readers: ethtool
reads it through a table of offsets and `nss_dp_get_stats64` by its members
(`hal/gmac_hal_ops/syn/gmac/syn_if.c`). All members are 64-bit counters, so the structure is a
function on their names, with a place in memory for each.
-/

namespace NssDp.SynStats

open Bytes Word

/-- The members of `struct nss_dp_hal_gmac_stats`. -/
inductive GmacCounter where
  | rxBytes
  | rxPackets
  | rxErrors
  | rxReceiveErrors
  | rxDescriptorErrors
  | rxLateCollisionErrors
  | rxDribbleBitErrors
  | rxLengthErrors
  | rxIpHeaderErrors
  | rxIpPayloadErrors
  | rxNoBufferErrors
  | rxTransportCsumBypassed
  | txBytes
  | txPackets
  | txCollisions
  | txErrors
  | txJabberTimeoutErrors
  | txFrameFlushedErrors
  | txLossOfCarrierErrors
  | txNoCarrierErrors
  | txLateCollisionErrors
  | txExcessiveCollisionErrors
  | txExcessiveDeferralErrors
  | txUnderflowErrors
  | txIpHeaderErrors
  | txIpPayloadErrors
  | txDropped
  | hwErrs (i : Fin 10)
  | rxMissed
  | fifoOverflows
  | rxScatterErrors
  | txTsCreateErrors
  | gmacTotalTicks
  | gmacWorstCaseTicks
  | gmacIterations
  | txPauseFrames
  | mmcRxOverflowErrors
  | mmcRxWatchdogTimeoutErrors
  | mmcRxCrcErrors
  | mmcRxIpHeaderErrors
  | mmcRxOctetsG
  | mmcRxUcastFrames
  | mmcRxBcastFrames
  | mmcRxMcastFrames
  | mmcRxUndersize
  | mmcRxOversize
  | mmcRxJabber
  | mmcRxOctetsGb
  | mmcRxFragFramesG
  | mmcTxOctetsG
  | mmcTxUcastFrames
  | mmcTxBcastFrames
  | mmcTxMcastFrames
  | mmcTxDeferred
  | mmcTxSingleCol
  | mmcTxMultipleCol
  | mmcTxOctetsGb
  deriving DecidableEq

abbrev GmacStats := GmacCounter → BitVec 64

/-- The members in the order of the structure. -/
def gmacMembers : List GmacCounter :=
  [
  .rxBytes, .rxPackets, .rxErrors, .rxReceiveErrors, .rxDescriptorErrors, .rxLateCollisionErrors,
  .rxDribbleBitErrors, .rxLengthErrors, .rxIpHeaderErrors, .rxIpPayloadErrors, .rxNoBufferErrors,
  .rxTransportCsumBypassed, .txBytes, .txPackets, .txCollisions, .txErrors,
  .txJabberTimeoutErrors, .txFrameFlushedErrors, .txLossOfCarrierErrors, .txNoCarrierErrors,
  .txLateCollisionErrors, .txExcessiveCollisionErrors, .txExcessiveDeferralErrors,
  .txUnderflowErrors, .txIpHeaderErrors, .txIpPayloadErrors, .txDropped
  ] ++ (List.finRange 10).map .hwErrs ++ [
  .rxMissed, .fifoOverflows, .rxScatterErrors, .txTsCreateErrors, .gmacTotalTicks,
  .gmacWorstCaseTicks, .gmacIterations, .txPauseFrames, .mmcRxOverflowErrors,
  .mmcRxWatchdogTimeoutErrors, .mmcRxCrcErrors, .mmcRxIpHeaderErrors, .mmcRxOctetsG,
  .mmcRxUcastFrames, .mmcRxBcastFrames, .mmcRxMcastFrames, .mmcRxUndersize, .mmcRxOversize,
  .mmcRxJabber, .mmcRxOctetsGb, .mmcRxFragFramesG, .mmcTxOctetsG, .mmcTxUcastFrames,
  .mmcTxBcastFrames, .mmcTxMcastFrames, .mmcTxDeferred, .mmcTxSingleCol, .mmcTxMultipleCol,
  .mmcTxOctetsGb
  ]

/-- The structure in memory. -/
def GmacStats.bytes (stats : GmacStats) : List (BitVec 8) :=
  gmacMembers.flatMap fun c => le64 (stats c)

/-- `SYN_STAT`: the offset of a member. -/
def synStat (c : GmacCounter) : Nat := 8 * gmacMembers.idxOf c

/-- `HW_ERR_SIZE`. -/
def hwErrSize : Nat := 8

/-- `struct syn_ethtool_stats`. -/
structure SynEthtoolStats where
  statString : String
  statOffset : Nat
  deriving DecidableEq

/-- `syn_gstrings_stats` (`syn_if.c:42-109`). -/
def synGstringsStats : List SynEthtoolStats := [
  ⟨"rx_bytes", synStat .rxBytes⟩,
  ⟨"rx_packets", synStat .rxPackets⟩,
  ⟨"rx_errors", synStat .rxErrors⟩,
  ⟨"rx_receive_errors", synStat .rxReceiveErrors⟩,
  ⟨"rx_descriptor_errors", synStat .rxDescriptorErrors⟩,
  ⟨"rx_late_collision_errors", synStat .rxLateCollisionErrors⟩,
  ⟨"rx_dribble_bit_errors", synStat .rxDribbleBitErrors⟩,
  ⟨"rx_length_errors", synStat .rxLengthErrors⟩,
  ⟨"rx_ip_header_errors", synStat .rxIpHeaderErrors⟩,
  ⟨"rx_ip_payload_errors", synStat .rxIpPayloadErrors⟩,
  ⟨"rx_no_buffer_errors", synStat .rxNoBufferErrors⟩,
  ⟨"rx_transport_csum_bypassed", synStat .rxTransportCsumBypassed⟩,
  ⟨"tx_bytes", synStat .txBytes⟩,
  ⟨"tx_packets", synStat .txPackets⟩,
  ⟨"tx_collisions", synStat .txCollisions⟩,
  ⟨"tx_errors", synStat .txErrors⟩,
  ⟨"tx_jabber_timeout_errors", synStat .txJabberTimeoutErrors⟩,
  ⟨"tx_frame_flushed_errors", synStat .txFrameFlushedErrors⟩,
  ⟨"tx_loss_of_carrier_errors", synStat .txLossOfCarrierErrors⟩,
  ⟨"tx_no_carrier_errors", synStat .txNoCarrierErrors⟩,
  ⟨"tx_late_collision_errors", synStat .txLateCollisionErrors⟩,
  ⟨"tx_excessive_collision_errors", synStat .txExcessiveCollisionErrors⟩,
  ⟨"tx_excessive_deferral_errors", synStat .txExcessiveDeferralErrors⟩,
  ⟨"tx_underflow_errors", synStat .txUnderflowErrors⟩,
  ⟨"tx_ip_header_errors", synStat .txIpHeaderErrors⟩,
  ⟨"tx_ip_payload_errors", synStat .txIpPayloadErrors⟩,
  ⟨"tx_dropped", synStat .txDropped⟩,
  ⟨"rx_missed", synStat .rxMissed⟩,
  ⟨"fifo_overflows", synStat .fifoOverflows⟩,
  ⟨"rx_scatter_errors", synStat .rxScatterErrors⟩,
  ⟨"tx_ts_create_errors", synStat .txTsCreateErrors⟩,
  ⟨"pmt_interrupts", synStat (.hwErrs 0)⟩,
  ⟨"mmc_interrupts", synStat (.hwErrs 0) + 1 * hwErrSize⟩,
  ⟨"line_interface_interrupts", synStat (.hwErrs 0) + 2 * hwErrSize⟩,
  ⟨"fatal_bus_error_interrupts", synStat (.hwErrs 0) + 3 * hwErrSize⟩,
  ⟨"rx_buffer_unavailable_interrupts", synStat (.hwErrs 0) + 4 * hwErrSize⟩,
  ⟨"rx_process_stopped_interrupts", synStat (.hwErrs 0) + 5 * hwErrSize⟩,
  ⟨"tx_underflow_interrupts", synStat (.hwErrs 0) + 6 * hwErrSize⟩,
  ⟨"rx_overflow_interrupts", synStat (.hwErrs 0) + 7 * hwErrSize⟩,
  ⟨"tx_jabber_timeout_interrutps", synStat (.hwErrs 0) + 8 * hwErrSize⟩,
  ⟨"tx_process_stopped_interrutps", synStat (.hwErrs 0) + 9 * hwErrSize⟩,
  ⟨"gmac_total_ticks", synStat .gmacTotalTicks⟩,
  ⟨"gmac_worst_case_ticks", synStat .gmacWorstCaseTicks⟩,
  ⟨"gmac_iterations", synStat .gmacIterations⟩,
  ⟨"tx_pause_frames", synStat .txPauseFrames⟩,
  ⟨"mmc_rx_overflow_errors", synStat .mmcRxOverflowErrors⟩,
  ⟨"mmc_rx_watchdog_timeout_errors", synStat .mmcRxWatchdogTimeoutErrors⟩,
  ⟨"mmc_rx_crc_errors", synStat .mmcRxCrcErrors⟩,
  ⟨"mmc_rx_ip_header_errors", synStat .mmcRxIpHeaderErrors⟩,
  ⟨"mmc_rx_octets_g", synStat .mmcRxOctetsG⟩,
  ⟨"mmc_rx_ucast_frames", synStat .mmcRxUcastFrames⟩,
  ⟨"mmc_rx_bcast_frames", synStat .mmcRxBcastFrames⟩,
  ⟨"mmc_rx_mcast_frames", synStat .mmcRxMcastFrames⟩,
  ⟨"mmc_rx_undersize", synStat .mmcRxUndersize⟩,
  ⟨"mmc_rx_oversize", synStat .mmcRxOversize⟩,
  ⟨"mmc_rx_jabber", synStat .mmcRxJabber⟩,
  ⟨"mmc_rx_octets_gb", synStat .mmcRxOctetsGb⟩,
  ⟨"mmc_rx_frag_frames_g", synStat .mmcRxFragFramesG⟩,
  ⟨"mmc_tx_octets_g", synStat .mmcTxOctetsG⟩,
  ⟨"mmc_tx_ucast_frames", synStat .mmcTxUcastFrames⟩,
  ⟨"mmc_tx_bcast_frames", synStat .mmcTxBcastFrames⟩,
  ⟨"mmc_tx_mcast_frames", synStat .mmcTxMcastFrames⟩,
  ⟨"mmc_tx_deferred", synStat .mmcTxDeferred⟩,
  ⟨"mmc_tx_single_col", synStat .mmcTxSingleCol⟩,
  ⟨"mmc_tx_multiple_col", synStat .mmcTxMultipleCol⟩,
  ⟨"mmc_tx_octets_gb", synStat .mmcTxOctetsGb⟩
]

/-- The part of `struct rtnl_link_stats64` that the driver fills. -/
structure RtnlLinkStats64 where
  rxPackets : BitVec 64
  rxBytes : BitVec 64
  rxErrors : BitVec 64
  rxDropped : BitVec 64
  rxLengthErrors : BitVec 64
  rxOverErrors : BitVec 64
  rxCrcErrors : BitVec 64
  rxFrameErrors : BitVec 64
  rxFifoErrors : BitVec 64
  rxMissedErrors : BitVec 64
  collisions : BitVec 64
  txPackets : BitVec 64
  txBytes : BitVec 64
  txErrors : BitVec 64
  txDropped : BitVec 64
  txCarrierErrors : BitVec 64
  txFifoErrors : BitVec 64
  txWindowErrors : BitVec 64

/-- A `struct syn_hal_dev` with the data plane of its port: what `get_stats` copies, where there is
    a table of callbacks. -/
structure SynHalDev where
  stats : GmacStats
  dataPlane : Option GmacStats

/-- `syn_get_stats` (`syn_if.c:499-517`); it fails where it gives nothing. -/
def synGetStats (shd : SynHalDev) : Option SynHalDev :=
  shd.dataPlane.map fun stats => { shd with stats }

/-- `syn_get_eth_stats` (`syn_if.c:678-704`), on little-endian memory: what it leaves in `data`. -/
def synGetEthStats (shd : SynHalDev) : Option (List (BitVec 64)) :=
  (synGetStats shd).map fun shd => synGstringsStats.map fun e =>
    (readLe32 (shd.stats.bytes.drop e.statOffset)).setWidth 64

/-- `syn_get_netdev_stats` (`syn_if.c:636-673`). -/
def synGetNetdevStats (shd : SynHalDev) : Option RtnlLinkStats64 :=
  (synGetStats shd).map fun shd =>
    let ndoStats := shd.stats
    { rxPackets := ndoStats .rxPackets
      rxBytes := ndoStats .rxBytes
      rxErrors := ndoStats .rxErrors
      rxDropped := ndoStats .rxErrors
      rxLengthErrors := ndoStats .rxLengthErrors
      rxOverErrors := ndoStats .mmcRxOverflowErrors
      rxCrcErrors := ndoStats .mmcRxCrcErrors
      rxFrameErrors := ndoStats .rxDribbleBitErrors
      rxFifoErrors := ndoStats .fifoOverflows
      rxMissedErrors := ndoStats .rxMissed
      collisions := ndoStats .txCollisions + ndoStats .rxLateCollisionErrors
      txPackets := ndoStats .txPackets
      txBytes := ndoStats .txBytes
      txErrors := ndoStats .txErrors
      txDropped := ndoStats .txDropped
      txCarrierErrors := ndoStats .txLossOfCarrierErrors + ndoStats .txNoCarrierErrors
      txFifoErrors := ndoStats .txUnderflowErrors
      txWindowErrors := ndoStats .txLateCollisionErrors }

end NssDp.SynStats
