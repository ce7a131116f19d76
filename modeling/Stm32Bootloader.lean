import Stm32Bootloader.Api
import Stm32Bootloader.ConfirmedRuns
import Stm32Bootloader.Correlation
import Stm32Bootloader.Corruption
import Stm32Bootloader.Crc32Reference
import Stm32Bootloader.Displacement
import Stm32Bootloader.DoubleProgram
import Stm32Bootloader.HostFlash
import Stm32Bootloader.HostFrames
import Stm32Bootloader.HostRun
import Stm32Bootloader.HostView
import Stm32Bootloader.ImageVerdict
import Stm32Bootloader.Installation
import Stm32Bootloader.InterruptedUpdate
import Stm32Bootloader.LossyUpdate
import Stm32Bootloader.MetaHistory
import Stm32Bootloader.MetaWear
import Stm32Bootloader.Noise
import Stm32Bootloader.ParserBounds
import Stm32Bootloader.ResetRequest
import Stm32Bootloader.Response
import Stm32Bootloader.Resync
import Stm32Bootloader.Retry
import Stm32Bootloader.Sealed
import Stm32Bootloader.SimCorrupt
import Stm32Bootloader.StatusReports
import Stm32Bootloader.ToolDriven
import Stm32Bootloader.Tools.Commands
import Stm32Bootloader.Tools.Demo
import Stm32Bootloader.Tools.Mkimage
import Stm32Bootloader.TrialFaults
import Stm32Bootloader.UpdateTermination
import Stm32Bootloader.Validation
import Stm32Bootloader.WriteRetry
