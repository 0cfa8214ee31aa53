import Bcm2711.Startup.RamRuns
import Bcm2711.Startup.NoDoubleAlloc
import Bcm2711.Startup.Sysram
import Bcm2711.Startup.AsinfoContaining
import Bcm2711.Startup.SyspageRuns
import Bcm2711.Startup.Callouts
import Bcm2711.Dma.Scatter
import Bcm2711.Dma.Completion
import Bcm2711.Dma.Sync
import Bcm2711.Startup.RamInfo
import Bcm2711.Spi.Starts
import Bcm2711.Spi.Complete
import Bcm2711.Spi.DmaWait
import Bcm2711.I2c.Truthful
import Bcm2711.I2c.Handover
import Bcm2711.Startup.HwinfoRuns
import Bcm2711.Sdhci.Adma
import Bcm2711.Sdhci.Intr
import Bcm2711.Sdio.Synchronize
import Bcm2711.Mbox.Replies
import Bcm2711.I2c.Ownership
import Bcm2711.Startup.Ifs2
import Bcm2711.Sdmmc.Attach
import Bcm2711.Sdmmc.Routing
import Bcm2711.Sdmmc.WriteProtect
import Bcm2711.Sdmmc.Simq
import Bcm2711.Startup.RamSearch
import Bcm2711.Dma.BytesLeft
import Bcm2711.Startup.TypedStrings
import Bcm2711.Startup.Bootargs
import Bcm2711.Startup.UefiRam
import Bcm2711.Startup.RestoreIfs
import Bcm2711.Sdmmc.Termination
import Bcm2711.Startup.IntrCells
import Bcm2711.Startup.TimerScale
import Bcm2711.Sdmmc.Caps
import Bcm2711.Lib.Gather
import Bcm2711.Sdhci.Pio
import Bcm2711.Sdmmc.LegacyWrite
import Bcm2711.Dma.Attach
import Bcm2711.Sdmmc.Erases
import Bcm2711.Sdmmc.Posted
import Bcm2711.Sdio.Negotiation
import Bcm2711.Startup.Translation
import Bcm2711.Sdio.Csd
import Bcm2711.Sdmmc.EraseTimeouts
import Bcm2711.Sdhci.Clock
import Bcm2711.Sdio.OpCond
import Bcm2711.Sdmmc.Devctls
import Bcm2711.Sdio.Options
import Bcm2711.Startup.Kprintf
import Bcm2711.Startup.CalcTime
import Bcm2711.Startup.LoadIfs
import Bcm2711.Startup.IntrCache
import Bcm2711.Startup.ContigRuns
import Bcm2711.Startup.EfiMap
import Bcm2711.Startup.EfiRam
import Bcm2711.Startup.FirmwareCmdline
import Bcm2711.Startup.UefiExit
import Bcm2711.Startup.Acpi
import Bcm2711.Startup.Smbios
import Bcm2711.Startup.BoardRam
import Bcm2711.Dma.Rejected
import Bcm2711.Startup.Getopt
import Bcm2711.Startup.FdtIntr
import Bcm2711.Gic.LpiTables
import Bcm2711.Gic.IntrRanges
import Bcm2711.Gic.ItsTables
import Bcm2711.Gic.ItsCommands
import Bcm2711.Gic.CpuTargets
import Bcm2711.Sdhci.SignalVoltage
import Bcm2711.Spi.WaitTimeout
import Bcm2711.Spi.DmaFailures
import Bcm2711.Spi.ClockDivisor
import Bcm2711.I2c.BusSpeed
import Bcm2711.Lib.Masks
import Bcm2711.Serial.Stty
import Bcm2711.Lib.Nearest
import Bcm2711.Serial.BaudDivisor
import Bcm2711.Wdtkick.KickTable
import Bcm2711.Lib.HighWater
import Bcm2711.Wdtkick.Mapping
import Bcm2711.Mbox.Polls
import Bcm2711.Sdio.ExtractBits
import Bcm2711.Startup.Smp
import Bcm2711.Gpio.Command
import Bcm2711.Gic.LpiCallouts
import Bcm2711.Gic.SendIpi
import Bcm2711.Startup.Msi
import Bcm2711.Serial.MiniUart
