import ForgeDrive.Library.EventMachine
import ForgeDrive.Library.FixedPoint
import ForgeDrive.Library.History
import ForgeDrive.Library.LabelledSystem
import ForgeDrive.Library.Recurrence
import ForgeDrive.Library.ZeroStuffing
import ForgeDrive.Library.Chained
import ForgeDrive.Library.Circular
import ForgeDrive.Library.Checksum
import ForgeDrive.Library.ShiftRegister
import ForgeDrive.Library.ErrorDetection
import ForgeDrive.Abf.Crc8
import ForgeDrive.Abf.Crc8Autosar
import ForgeDrive.Abf.Stream
import ForgeDrive.Abf.Frame
import ForgeDrive.Abf.Receive
import ForgeDrive.Abf.Bounds
import ForgeDrive.Abf.RoundTrip
import ForgeDrive.Abf.HeaderCheck
import ForgeDrive.Abf.HeaderErrors
import ForgeDrive.Abf.HeaderBursts
import ForgeDrive.Abf.PayloadPhase
import ForgeDrive.Abf.Truncation
import ForgeDrive.Abf.FrameSync
import ForgeDrive.Abf.NoisyStream
import ForgeDrive.Abf.SharedBuffer
import ForgeDrive.Abf.MainLoop
import ForgeDrive.Fd.Ring
import ForgeDrive.Usb.Exchange
import ForgeDrive.Usb.TxHandOver
import ForgeDrive.Usb.RxStorage
import ForgeDrive.Usb.ByteQueue
import ForgeDrive.Usb.Clear
import ForgeDrive.Daq.Residual
import ForgeDrive.Daq.Reader
import ForgeDrive.Daq.ReaderSteps
import ForgeDrive.Daq.IndexSafety
import ForgeDrive.Daq.ChunkReads
import ForgeDrive.Daq.FullBlock
import ForgeDrive.Daq.HandOut
import ForgeDrive.Daq.Resync
import ForgeDrive.El.RingFast
import ForgeDrive.El.BoundedFifo
import ForgeDrive.El.Spsc
import ForgeDrive.Daq.Writer
import ForgeDrive.Daq.WriterStream
import ForgeDrive.Daq.WriterSteps
import ForgeDrive.Daq.Feeding
import ForgeDrive.Daq.Lossless
import ForgeDrive.Daq.WriterUse
import ForgeDrive.Daq.Overrun
import ForgeDrive.Daq.Segments
import ForgeDrive.Daq.Agreement
import ForgeDrive.Daq.Restart
import ForgeDrive.Daq.MarkRing
import ForgeDrive.Daq.Recovery
import ForgeDrive.Daq.TimeStamp
import ForgeDrive.Idv.Message
import ForgeDrive.Daq.Discovery
import ForgeDrive.Daq.Sending
import ForgeDrive.Idv.RoundTrip
import ForgeDrive.Idv.Exact
import ForgeDrive.Idv.ReadBack
import ForgeDrive.Idv.Reported
import ForgeDrive.Daq.Reconstruction
import ForgeDrive.Daq.Identifiers
import ForgeDrive.Daq.Reporting
import ForgeDrive.Daq.HostDispatch
import ForgeDrive.Daq.OverTheWire
import ForgeDrive.Cortos.Scheduler
import ForgeDrive.Cortos.Notify
import ForgeDrive.Cortos.Profiler
import ForgeDrive.Cortos.OneTask
import ForgeDrive.Cortos.Timeouts
import ForgeDrive.Cortos.Overruns
import ForgeDrive.Cortos.Priority
import ForgeDrive.Cortos.Idle
import ForgeDrive.Pmsm.SComm
import ForgeDrive.Pmsm.Preemption
import ForgeDrive.Pmsm.Provenance
import ForgeDrive.Pmsm.Progress
import ForgeDrive.Pmsm.Inductance
import ForgeDrive.Mc3p.Driver
import ForgeDrive.Mc3p.SyncChannels
import ForgeDrive.Mc3p.Registers
import ForgeDrive.Mc3p.SpaceVector
import ForgeDrive.Mc3p.Calibration
import ForgeDrive.Mc3p.SyncScale
import ForgeDrive.Mc3p.Sil
import ForgeDrive.Mc3p.StepRatio
import ForgeDrive.Mc3p.Trigger
import ForgeDrive.Mc3p.Limits
import ForgeDrive.Pmsm.Foc
import ForgeDrive.Pmsm.Overmodulation
import ForgeDrive.Pmsm.Position
import ForgeDrive.Pmsm.Controller
import ForgeDrive.Pmsm.Identification
import ForgeDrive.Pmsm.OpenLoop
import ForgeDrive.Pmsm.ControlModes
import ForgeDrive.Pmsm.Configured
import ForgeDrive.Host.VirtualTime
import ForgeDrive.Host.ScopeStream
import ForgeDrive.Host.Capture
import ForgeDrive.Host.Connection
import ForgeDrive.Host.RingBuffer
import ForgeDrive.Usb.PreemptedWrite
import ForgeDrive.Usb.PreemptedRead
import ForgeDrive.Cmsis.SinCos
