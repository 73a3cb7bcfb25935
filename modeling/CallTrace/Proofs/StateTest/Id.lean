import CallTrace.Proofs.Json.Brief
import CallTrace.Proofs.Number.Decimal
import CallTrace.Proofs.StateTest

namespace CallTrace
open Attempt

namespace Instance

end Instance

end CallTrace
