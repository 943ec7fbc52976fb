import Modvm.Uart.Conservation
import Modvm.Virtio.Reset
import Modvm.Virtio.Protocol
import Modvm.Uart.Consistency
import Modvm.Util.ExactlyOnce
import Modvm.Io.DeliveryOrder
import Modvm.Virtio.InterruptLine
import Modvm.Virtio.WellFormedChain
import Modvm.Virtio.Frames
import Modvm.Virtio.UsedLength
import Modvm.Virtio.BlkRequests
import Modvm.Hw.FirstFit
import Modvm.Core.VmTeardown
import Modvm.Virtio.FrontendLife
import Modvm.Backend.OneInFlight
import Modvm.Backend.BlockFile
import Modvm.Backend.ConsoleInput
import Modvm.Backend.ConsoleOutput
import Modvm.Board.Routing
import Modvm.Hw.FailedOps
import Modvm.Hw.BarSizing
import Modvm.Virtio.QueueRegisters
import Modvm.Virtio.RingBounds
import Modvm.Loader.LowRamScan
import Modvm.Loader.Options
import Modvm.Loader.BootPlacement
import Modvm.Core.FirstError
import Modvm.Core.ThreadJoin
import Modvm.Accel.GuestAccess
import Modvm.Uart.HostOutput
