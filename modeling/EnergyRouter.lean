import EnergyRouter.Theorems.Checks
import EnergyRouter.Theorems.Clock
import EnergyRouter.Theorems.ScreenPages
import EnergyRouter.Theorems.BleSetup
import EnergyRouter.Theorems.Addresses
import EnergyRouter.Theorems.Locks
import EnergyRouter.Theorems.Reports
import EnergyRouter.Theorems.Energy
import EnergyRouter.Theorems.Cycles
import EnergyRouter.Theorems.Commanded
import EnergyRouter.Theorems.Isolation
import EnergyRouter.Theorems.Timeouts
import EnergyRouter.Theorems.PlanDecoding
import EnergyRouter.Theorems.PlanHandOver
import EnergyRouter.Theorems.Reentry
import EnergyRouter.Theorems.Decoders
import EnergyRouter.Theorems.BleResponses
import EnergyRouter.Theorems.Month
import EnergyRouter.Theorems.Restart
import EnergyRouter.Theorems.BufferLifecycle
import EnergyRouter.Theorems.Confirmations
import EnergyRouter.Theorems.DailyPower
import EnergyRouter.Theorems.History
import EnergyRouter.Theorems.StoredTimes
import EnergyRouter.Theorems.WriterBuffers
import EnergyRouter.Theorems.AnalogRecord
import EnergyRouter.Theorems.WrappedAnswers
import EnergyRouter.Theorems.LinkFlags
import EnergyRouter.Theorems.SlotChoice
import EnergyRouter.Theorems.SlotPower
import EnergyRouter.Theorems.PileLiveness
import EnergyRouter.Theorems.PileFrames
import EnergyRouter.Theorems.Echo
import EnergyRouter.Theorems.MeterReplies
import EnergyRouter.Theorems.Calendar
import EnergyRouter.Theorems.EsamReception
import EnergyRouter.Theorems.EsamFrames
import EnergyRouter.Theorems.FileScanners
import EnergyRouter.Theorems.NandErrors
import EnergyRouter.Theorems.ExecutionReport
import EnergyRouter.Theorems.NandSpare
import EnergyRouter.Theorems.TraceBuffer
import EnergyRouter.Theorems.HalfHours
import EnergyRouter.Theorems.ScreenText
import EnergyRouter.Theorems.Firmware
import EnergyRouter.Theorems.BleBounds
