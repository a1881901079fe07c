import Ucm108e.Machine
import Ucm108e.Bytes
import Ucm108e.Access
import Ucm108e.Loops
import Ucm108e.Bounds
import Ucm108e.Delivery
import Ucm108e.Keyed
import Ucm108e.PhaseReport
import Ucm108e.RoundTrip
import Ucm108e.Transmission
import Ucm108e.Thread
import Ucm108e.PulseUpdates
import Ucm108e.Watchdog
import Ucm108e.PinDispatch
import Ucm108e.Programming
import Ucm108e.NodeOwnership
import Ucm108e.CcoSafety
import Ucm108e.FlashRange
import Ucm108e.CriticalSection
import Ucm108e.Checksum
import Ucm108e.Pages
import Ucm108e.Detection
import Ucm108e.NodeTable
import Ucm108e.NodeReplies
import Ucm108e.UploadReport
import Ucm108e.Calibration
import Ucm108e.Calendar
import Ucm108e.Clock
import Ucm108e.Alarm
import Ucm108e.Delay
import Ucm108e.Spim
import Ucm108e.BitBang
import Ucm108e.Paging
import Ucm108e.Resumption
import Ucm108e.HeapClients
import Ucm108e.TimerList
import Ucm108e.Returns
