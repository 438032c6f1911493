import PyOcdRiscv.Jtag.ShiftRegister
import PyOcdRiscv.Ocd.PulpBus
import PyOcdRiscv.Ocd.Requests
import PyOcdRiscv.Ocd.Windows
import PyOcdRiscv.Ocd.MuraxTransport
import PyOcdRiscv.Ocd.Injected
import PyOcdRiscv.Ocd.LoadBinary
import PyOcdRiscv.Ocd.Accepted
import PyOcdRiscv.Ocd.SetReg
import PyOcdRiscv.Ocd.Responses
import PyOcdRiscv.Target.SaxonStart
import PyOcdRiscv.Sim.Uart
import PyOcdRiscv.Sim.JtagSessions
import PyOcdRiscv.Sim.Stream
import PyOcdRiscv.Sim.ClockDomain
import PyOcdRiscv.Sim.Schedule
import PyOcdRiscv.Firmware.Printfdbg
import PyOcdRiscv.Ocd.Start
import PyOcdRiscv.Target.JtagSession
import PyOcdRiscv.Jtag.FtdiEngine
import PyOcdRiscv.Target.DmSba
import PyOcdRiscv.Target.DebugProgress
