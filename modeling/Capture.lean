import Capture.Foundations.AddressText
import Capture.Foundations.ByteLayout
import Capture.Foundations.FormattedScan
import Capture.Foundations.KeyedLines
import Capture.Foundations.LastWrite
import Capture.Foundations.Ledger
import Capture.Foundations.LineStream
import Capture.Foundations.OrderedTable
import Capture.Foundations.OwnedHeap
import Capture.Foundations.PrefixSweep
import Capture.Foundations.ReusedBuffer
import Capture.Foundations.RunTrace
import Capture.Foundations.ScanReading
import Capture.Foundations.SeparatedText
import Capture.Foundations.StateFrame
import Capture.Model.CapDevice
import Capture.Model.CapHandle
import Capture.Model.CapInodeHelper
import Capture.Model.CapPacket
import Capture.Model.CapProcess
import Capture.Model.CapProtocol
import Capture.Model.CaptureCxx
import Capture.Model.CaptureState
import Capture.Model.PacketSlots
import Capture.Model.ProcessSlots
import Capture.Model.ReaderLoops
import Capture.Proof.FrameEffect
import Capture.Proof.FrameBounds
import Capture.Proof.FrameDecoding
import Capture.Proof.DispatchRun
import Capture.Proof.Reconcile
import Capture.Proof.ReconcileEffect
import Capture.Proof.UpdateEffect
import Capture.Proof.RunInvariant
import Capture.Proof.Tracking
import Capture.Proof.ProcessSnapshot
import Capture.Proof.Freshness
import Capture.Proof.CpuInterval
import Capture.Proof.PacketDelivery
import Capture.Proof.TrafficCounters
import Capture.Proof.InterfaceHandles
import Capture.Proof.SocketKeys
import Capture.Proof.KeyAmbiguity
import Capture.Proof.PacketKeys
import Capture.Proof.PacketBuffer
import Capture.Proof.RefreshEffect
import Capture.Proof.MissingSources
import Capture.Proof.Attribution
import Capture.Proof.FrameCodec
import Capture.Proof.CallbackStream
import Capture.Proof.ReaderTermination
import Capture.Proof.SocketTables
import Capture.Proof.StatLine
import Capture.Proof.ProcessName
import Capture.Proof.PacketCache
import Capture.Proof.HandleOwnership
import Capture.Proof.CaptureAll
import Capture.Proof.UserGroup
import Capture.Proof.TickDifferences
import Capture.Proof.SocketOwners
import Capture.Proof.InitEffect
import Capture.Proof.AccountBook
import Capture.Proof.Configured
import Capture.Proof.HostTraffic
import Capture.Proof.Outages
import Capture.Proof.PacketStream
import Capture.Proof.CallStages
import Capture.Proof.CreditedOnly
import Capture.Proof.FrameOrder
import Capture.Proof.AddressSet
import Capture.Proof.BufferHistory
import Capture.Proof.PacketCopies
import Capture.Proof.TaskFiles
import Capture.Proof.MachineReport
import Capture.Proof.ReportProvenance
import Capture.Proof.QuietUpdates
import Capture.Proof.EntryRelation
import Capture.Proof.Confinement
import Capture.Proof.DirectoryOrder
