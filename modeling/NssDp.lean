import NssDp.Misc.Lts
import NssDp.Misc.Fifo
import NssDp.Misc.Simulation
import NssDp.Misc.Service
import NssDp.Misc.RegOps
import NssDp.Misc.Locked
import NssDp.Misc.Handover
import NssDp.Misc.Except
import NssDp.Misc.History
import NssDp.Misc.Cyclic
import NssDp.Misc.Placement
import NssDp.Misc.Ledger
import NssDp.Misc.Pairing
import NssDp.Misc.Word
import NssDp.Misc.LowBits
import NssDp.Misc.BitField
import NssDp.Misc.RegTable
import NssDp.Kernel.SkBuff
import NssDp.Kernel.RxSkb
import NssDp.SynGmacDp.DmaDesc
import NssDp.SynGmacDp.DpInfo
import NssDp.SynGmacDp.TxRx
import NssDp.SynGmacDp.Proofs.TxInvariant
import NssDp.SynGmacDp.Proofs.TxConcurrent
import NssDp.SynGmacDp.Proofs.TxOwnership
import NssDp.SynGmacDp.Proofs.TxLength
import NssDp.SynGmacDp.Rx
import NssDp.SynGmacDp.Proofs.RxInvariant
import NssDp.SynGmacDp.Proofs.RxOwnership
import NssDp.SynGmacDp.Proofs.XmitContract
import NssDp.SynGmacDp.DataPlane
import NssDp.SynGmacDp.Proofs.RxWork
import NssDp.SynGmacDp.Proofs.RxLength
import NssDp.SynGmacDp.Proofs.PortStats
import NssDp.SynGmacDp.Cleanup
import NssDp.SynGmacDp.Proofs.RingCleanup
import NssDp.SynGmacDp.Proofs.DmaMappings
import NssDp.Kernel.Napi
import NssDp.SynGmacDp.IfSteps
import NssDp.ApiIf
import NssDp.SynGmacDp.IfInit
import NssDp.SynGmacDp.Proofs.IfInitLeaks
import NssDp.SynGmacDp.IfDeinit
import NssDp.SynGmacDp.Proofs.IfLife
import NssDp.SynGmacDp.Proofs.IrqHandshake
import NssDp.Kernel.NetDevice
import NssDp.Edma.Hw
import NssDp.Edma.TxRx
import NssDp.Edma.XmitSteps
import NssDp.Edma.Proofs.CleanTx
import NssDp.Edma.Proofs.RingXmit
import NssDp.Edma.Proofs.TxOwnership
import NssDp.Edma.Proofs.XmitBusy
import NssDp.Edma.Proofs.XmitUsable
import NssDp.Edma.Proofs.SharedStore
import NssDp.Edma.Proofs.RingsApart
import NssDp.Edma.Rx
import NssDp.Edma.Proofs.TxEncoding
import NssDp.Edma.Proofs.RxBooks
import NssDp.Edma.Proofs.RxOwnership
import NssDp.Edma.Proofs.RxRefill
import NssDp.Edma.Proofs.MapFailure
import NssDp.Edma.Cfg
import NssDp.Edma.Irq
import NssDp.Edma.Napi
import NssDp.Edma.PollSteps
import NssDp.Edma.ConfigureRings
import NssDp.Edma.Proofs.RingSetup
import NssDp.Edma.DataPlane
import NssDp.Edma.Proofs.IrqInit
import NssDp.Edma.Proofs.NapiHandshake
import NssDp.Edma.Proofs.PollBudget
import NssDp.Edma.Proofs.RingsReady
import NssDp.Edma.HwInit
import NssDp.Edma.Proofs.RingLayout
import NssDp.Edma.Proofs.RingMaps
import NssDp.Edma.Proofs.PdataSafe
import NssDp.Edma.Proofs.TxdescCleanup
import NssDp.Edma.Proofs.Accesses
import NssDp.Edma.Proofs.IrqBooks
import NssDp.Edma.Proofs.WakeUp
import NssDp.Edma.Proofs.PollServed
import NssDp.Edma.Proofs.PollShares
import NssDp.Edma.Proofs.Teardown
import NssDp.Edma.Proofs.Callbacks
import NssDp.Edma.Proofs.VsiPort
import NssDp.Main.Dev
import NssDp.Main.OpenClose
import NssDp.Main.NetdevOps
import NssDp.Main.Attach
import NssDp.Main.FlowSteer
import NssDp.Main.SlowProto
import NssDp.Main.Switchdev
import NssDp.Main.Numbering
import NssDp.Kernel.EtherAddr
import NssDp.Misc.Bytes
import NssDp.Hal.GmacOps
import NssDp.Hal.QcomDev
import NssDp.Hal.Proofs.FieldSetters
import NssDp.Main.Probe
import NssDp.Main.MacAddress
import NssDp.Hal.SynStats
import NssDp.Hal.Proofs.StatsAgree
import NssDp.Main.Eee
import NssDp.Main.Proofs.EeeRoundTrip
import NssDp.Main.Proofs.MacAgree
import NssDp.Main.Proofs.ProbeClean
import NssDp.Main.Proofs.Calls
import NssDp.Main.Proofs.Outcomes
import NssDp.Main.Proofs.Numbering
import NssDp.Main.Proofs.SlowProto
import NssDp.Main.Proofs.StpRollback
import NssDp.Main.Proofs.Switchdev
import NssDp.Main.Proofs.Tracks
import NssDp.Main.Proofs.LinkState
import NssDp.Main.Proofs.OpenBooks
import NssDp.Main.Proofs.InitDone
import NssDp.Main.Proofs.OverrideClean
import NssDp.Main.Proofs.EdmaTeardown
import NssDp.Main.Proofs.EdmaRegistry
import NssDp.Main.Proofs.EdmaUndo
import NssDp.Main.Proofs.Contexts
import NssDp.Main.Proofs.NullCallbacks
import NssDp.Main.Proofs.FlowSteer
import NssDp.Edma.Proofs.TxOrder
import NssDp.Edma.Proofs.RxOrder
import NssDp.SynGmacDp.Proofs.RxOrder
import NssDp.SynGmacDp.Proofs.RxAccounts
import NssDp.SynGmacDp.Proofs.RxService
import NssDp.SynGmacDp.Proofs.PortRuns
import NssDp.SynGmacDp.Proofs.TxAccounts
import NssDp.Hal.RegIf
import NssDp.Hal.MacIf
import NssDp.Hal.Proofs.MacRefines
import NssDp.Hal.Proofs.RegLock
import NssDp.Misc.MemoryMap
import NssDp.Edma.Proofs.PollPieces
import NssDp.Edma.Proofs.PollDrained
import NssDp.Edma.RegOffsets
import NssDp.Edma.Proofs.RegDecode
import NssDp.Edma.Proofs.HwInitRegs
