import MmtProbe.Math.Machine
import MmtProbe.Math.Word
import MmtProbe.Math.Bytes
import MmtProbe.Math.Buffer
import MmtProbe.Math.Decimal
import MmtProbe.Math.DoubleText
import MmtProbe.Math.Families
import MmtProbe.Math.Descending
import MmtProbe.Math.Trace
import MmtProbe.Math.Texts
import MmtProbe.Math.Hexadecimal
import MmtProbe.Math.Pcap
import MmtProbe.Math.TailList
import MmtProbe.Math.PerfectHash
import MmtProbe.Math.Batches
import MmtProbe.Capture.SpscRing
import MmtProbe.Capture.SpscRingFifo
import MmtProbe.Capture.SpscRingOverrun
import MmtProbe.Capture.SpscRingCapacity
import MmtProbe.Capture.PacketHash
import MmtProbe.Capture.Pipeline
import MmtProbe.Capture.PipelineWorker
import MmtProbe.Capture.PipelineConservation
import MmtProbe.DynamicConf.Identities
import MmtProbe.DynamicConf.Server
import MmtProbe.DynamicConf.UpdateLines
import MmtProbe.DynamicConf.UpdateCommand
import MmtProbe.DynamicConf.Bus
import MmtProbe.DynamicConf.BusDelivery
import MmtProbe.DynamicConf.BusReply
import MmtProbe.DynamicConf.BusTable
import MmtProbe.DynamicConf.UpdateFits
import MmtProbe.DynamicConf.ReceiveLoop
import MmtProbe.DynamicConf.ReceiveMessage
import MmtProbe.DynamicConf.Supervisor
import MmtProbe.DynamicConf.SupervisorLoop
import MmtProbe.DynamicConf.SupervisorReply
import MmtProbe.DynamicConf.SupervisorSlots
import MmtProbe.Configure.Validate
import MmtProbe.Dpi.SessionStat
import MmtProbe.Dpi.CopyString
import MmtProbe.Dpi.Qos
import MmtProbe.Dpi.TcpRtt
import MmtProbe.Dpi.TcpRttSample
import MmtProbe.Dpi.TcpRttCumulative
import MmtProbe.Dpi.SessionReport
import MmtProbe.Dpi.RttAggregates
import MmtProbe.Dpi.MicroFlow
import MmtProbe.Dpi.MicroFlowConservation
import MmtProbe.Dpi.MicroFlowLimits
import MmtProbe.Dpi.Session
import MmtProbe.Dpi.SessionTelescope
import MmtProbe.Dpi.SessionApps
import MmtProbe.Dpi.SessionNull
import MmtProbe.Dpi.SessionAccounting
import MmtProbe.Dpi.TcpTiming
import MmtProbe.Dpi.WebReport
import MmtProbe.Dpi.WebTransactions
import MmtProbe.Lib.StringBuilder
import MmtProbe.Lib.StringBuilderText
import MmtProbe.Lib.StringBuilderTight
import MmtProbe.Lib.AppendNumber
import MmtProbe.Lib.ReportLine
import MmtProbe.Lib.ReportColumns
import MmtProbe.Dpi.HttpReconstruct
import MmtProbe.Dpi.HttpLifeCycle
import MmtProbe.Dpi.ChunkDecode
import MmtProbe.Dpi.ChunkSegment
import MmtProbe.Dpi.FirstSegment
import MmtProbe.Dpi.HttpDownloads
import MmtProbe.Output.Report
import MmtProbe.Dpi.AppReports
import MmtProbe.Dpi.SessionMessage
import MmtProbe.Dpi.LteQosReport
import MmtProbe.Output.ReportBounds
import MmtProbe.Output.ReportHeader
import MmtProbe.Output.OutputLocks
import MmtProbe.Output.OutputOrder
import MmtProbe.Output.Thredis
import MmtProbe.Output.ThredisReplies
import MmtProbe.Output.ThredisReader
import MmtProbe.Output.MongodbCache
import MmtProbe.Output.FileOutput
import MmtProbe.Output.FileOutputRuns
import MmtProbe.Output.Retention
import MmtProbe.Output.RetainedFiles
import MmtProbe.Dpi.FileName
import MmtProbe.Dpi.FilePath
import MmtProbe.Dpi.GperfLookup
import MmtProbe.Dpi.OutputDirectory
import MmtProbe.Dpi.EventReport
import MmtProbe.Dpi.RadiusReport
import MmtProbe.Dpi.PcapDump
import MmtProbe.Dpi.PcapDumpRuns
import MmtProbe.Capture.DpdkReader
import MmtProbe.Capture.DpdkReaderConservation
import MmtProbe.Capture.DpdkPipeline
import MmtProbe.Capture.DpdkStart
import MmtProbe.Capture.BulkRing
import MmtProbe.License.KeyGenerator
import MmtProbe.License.DecodeLicense
import MmtProbe.License.AnyLicense
import MmtProbe.License.CheckLicense
import MmtProbe.License.MacList
import MmtProbe.Security.ForwardPacket
import MmtProbe.Security.ForwardAccounting
import MmtProbe.Security.InjectPacket
import MmtProbe.Security.InjectProto
import MmtProbe.Configure.Fields
import MmtProbe.Configure.Load
import MmtProbe.Configure.Override
import MmtProbe.Capture.PacketAccess
import MmtProbe.Capture.Timers
import MmtProbe.Capture.StreamCapture
import MmtProbe.Configure.OutputSwitch
import MmtProbe.Configure.ValidOverride
import MmtProbe.Configure.OverrideLoad
import MmtProbe.Configure.StoredValues
import MmtProbe.DynamicConf.UpdateValidity
import MmtProbe.DynamicConf.UpdateRuns
import MmtProbe.DynamicConf.MonitorConf
import MmtProbe.DynamicConf.Reply
import MmtProbe.Configure.ProtocolAttribute
import MmtProbe.Dpi.ProtocolPath
import MmtProbe.Dpi.GtpReport
