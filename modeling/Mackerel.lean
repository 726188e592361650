import Mackerel.Sdram.CacheTransparency
import Mackerel.Sdram.ControllerAnswers
import Mackerel.Sdram.ControllerMemory
import Mackerel.M30.DramAccess
import Mackerel.M10.DramAccess
import Mackerel.Bootloader.BootComplete
import Mackerel.Ymodem.Completeness
import Mackerel.Ymodem.Transfer
import Mackerel.Netboot.Load
import Mackerel.Device.Keeps
import Mackerel.W5500.Access
import Mackerel.W5500.Receive
import Mackerel.W5500.Connect
import Mackerel.Netboot.ExactTransfer
import Mackerel.Clocked.EventRuns
import Mackerel.M30.SystemController
import Mackerel.M30.IdeWait
import Mackerel.Clocked.Driven
import Mackerel.Dram.RefreshHandshake
import Mackerel.Dram.RefreshRuns
import Mackerel.M30.DramRefresh
import Mackerel.Dram.RefreshController
import Mackerel.M10.DramRefresh
import Mackerel.Dram.Refreshes
import Mackerel.Timer.TickExact
import Mackerel.M30.LegalStrobes
import Mackerel.M30.TimerDisable
import Mackerel.M10.SystemController
import Mackerel.SystemController.BootShadow
import Mackerel.Sdram.System
import Mackerel.Sdram.ReadModifyWrite
import Mackerel.M10.ReadModifyWrite
import Mackerel.Fat16.EarlyEnd
import Mackerel.Fat16.Runs
import Mackerel.Bootloader.Sessions
import Mackerel.Bootloader.Autoboot
import Mackerel.Bootloader.FirstPartition
import Mackerel.Bootloader.ImageSearch
import Mackerel.Bootloader.Readline
import Mackerel.Bytes.Footprint
import Mackerel.Fat16.Footprints
import Mackerel.Bootloader.Safety
import Mackerel.Ymodem.Arrivals
import Mackerel.Ymodem.Bounds
import Mackerel.Ymodem.HeaderScan
import Mackerel.Ymodem.Replies
import Mackerel.Crc.Polynomials
import Mackerel.Ymodem.Checksum
import Mackerel.Clocked.Latches
import Mackerel.M30.Timer
import Mackerel.Sdram.RefreshRequests
import Mackerel.Clocked.Timeouts
import Mackerel.F.BusWatchdog
import Mackerel.F.Decode
import Mackerel.Sdram.AnswerTime
import Mackerel.F.SdramWatchdog
import Mackerel.Ws2812.Frames
import Mackerel.Wishbone.Bridges
import Mackerel.F.Port
import Mackerel.SdSpi.Driver
import Mackerel.Spi.Wire
import Mackerel.SdSpi.ExactRead
import Mackerel.W5500.Transport
import Mackerel.F.Gpio
import Mackerel.F.GpioSharing
import Mackerel.F.GpioCalls
import Mackerel.Ide.Driver
import Mackerel.Ide.Transfers
import Mackerel.Ide.ReadSectors
import Mackerel.M08.SdDriver
import Mackerel.M08.SdReads
import Mackerel.Fat16.Bounded
import Mackerel.Loading.Loads
import Mackerel.Loading.Boots
import Mackerel.Loading.Netboots
import Mackerel.Loading.Transfers
import Mackerel.Loading.Spared
import Mackerel.Bootloader.MemoryCommands
import Mackerel.Bootloader.MemoryRanges
import Mackerel.Fat16.Layouts
import Mackerel.Fat16.LittleEndian
import Mackerel.Bootloader.AddressFaults
import Mackerel.Bootloader.ZeroCommand
import Mackerel.Dram.Retention
import Mackerel.Dram.RefreshRetention
import Mackerel.Dram.RefreshWait
import Mackerel.Clocked.Deadlines
import Mackerel.Device.Programs
import Mackerel.Duart.BitBang
import Mackerel.Duart.RecvAssembly
import Mackerel.M10.DramRetention
import Mackerel.M30.DramRetention
import Mackerel.Duart.SpiPins
import Mackerel.Duart.SpiBytes
import Mackerel.Duart.SpiPort
import Mackerel.M08.SdPins
import Mackerel.M08.SdCard
import Mackerel.M08.SdInit
import Mackerel.M08.SdRequests
import Mackerel.M08.SdSystem
import Mackerel.Device.Leads
import Mackerel.SdSpi.CardRuns
import Mackerel.SdSpi.CardInit
import Mackerel.SdSpi.CardSessions
import Mackerel.Text.CStrings
import Mackerel.Bootloader.Commands
import Mackerel.Bootloader.Dump
import Mackerel.Bootloader.Monitor
import Mackerel.Sdram.SystemMemory
import Mackerel.F.MemoryMap
import Mackerel.F.Machine
import Mackerel.F.BusCycles
