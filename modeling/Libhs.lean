import Libhs.TableRefinement
import Libhs.EventStream
import Libhs.Converge
import Libhs.AbortRule
import Libhs.Conservation
import Libhs.HandOver
import Libhs.HidItems
import Libhs.Darwin.Readiness
import Libhs.Win32.WakeUp
import Libhs.Win32.ReadEngine
import Libhs.Darwin.Monitor
import Libhs.Darwin.EnumerateSpec
import Libhs.FailedNew
import Libhs.OpenAtomic
import Libhs.Darwin.Arrivals
import Libhs.Lifecycle
import Libhs.Win32.Buffers
import Libhs.InnerList
import Libhs.Location
import Libhs.Darwin.Removal
import Libhs.Clock
import Libhs.Waiting
import Libhs.CounterClock
import Libhs.HidUsage
import Libhs.Reentry
import Libhs.Controllers
import Libhs.Win32.HubPorts
import Libhs.Win32.DeviceLocation
import Libhs.Darwin.DeviceLocation
import Libhs.Win32.InterfaceNames
import Libhs.Win32.GoneDevices
import Libhs.InterfaceNumbers
import Libhs.HidFraming
import Libhs.DescriptorSet
import Libhs.HTableRuns
import Libhs.ListRuns
