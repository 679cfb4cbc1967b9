import ADS131A0X.Base.Waveform
import ADS131A0X.Base.Machine
import ADS131A0X.Base.Divider
import ADS131A0X.Rtl.ClockSynthesizer
import ADS131A0X.Rtl.SpiSclkGenerator
import ADS131A0X.Rtl.SpiMaster
import ADS131A0X.Rtl.Top
import ADS131A0X.Rtl.Constants
import ADS131A0X.SingleClock.Basic
import ADS131A0X.SingleClock.Invariant
import ADS131A0X.SingleClock.Refinement
import ADS131A0X.SingleClock.Lockstep
import ADS131A0X.SingleClock.Counters
import ADS131A0X.SingleClock.Schedule
import ADS131A0X.Clocks.Dividers
import ADS131A0X.Clocks.SclkGenerator
import ADS131A0X.Clocks.Design
import ADS131A0X.Driver.FreeRun
import ADS131A0X.Driver.Frame
import ADS131A0X.Driver.Command
import ADS131A0X.Driver.AdcReset
import ADS131A0X.Driver.Capture
import ADS131A0X.Driver.InternalClock
import ADS131A0X.Driver.ResetWait
import ADS131A0X.Driver.Gap
import ADS131A0X.Driver.Abort
import ADS131A0X.Driver.Progress
import ADS131A0X.Base.Serial
import ADS131A0X.Base.RingBuffer
import ADS131A0X.Nios.SerialPort
import ADS131A0X.Nios.Exchange
import ADS131A0X.Nios.Timing
import ADS131A0X.Nios.Flags
import ADS131A0X.Nios.Bus
import ADS131A0X.Nios.Moves
import ADS131A0X.Nios.Ledger
import ADS131A0X.Nios.Return
import ADS131A0X.Nios.Call
import ADS131A0X.Nios.Select
import ADS131A0X.Nios.Toggle
import ADS131A0X.Nios.App
import ADS131A0X.Nios.Timer
import ADS131A0X.Nios.Interrupt
import ADS131A0X.Nios.JtagUart
import ADS131A0X.Nios.JtagFifo
import ADS131A0X.Nios.JtagWake
import ADS131A0X.Driver.Settling
import ADS131A0X.Base.RoundRobin
import ADS131A0X.Interconnect.Arbitrator
import ADS131A0X.Interconnect.ScFifo
