import Minnow.TunHost.Safety
import Minnow.TunMain.Refinement

set_option autoImplicit false

/-! # Whole runs of the program on a TUN device

As at the other device, the program is left only when a call fails, has done by then what a station
does, and leaves a capture of what the device has given and taken (`packets_return`).
-/

namespace Minnow

open IpHost Internet Outside

namespace TunMain

variable {turns : List Turn}

end TunMain

end Minnow
