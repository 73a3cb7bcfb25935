import CallTrace.Proofs.Json.Reader
import CallTrace.Proofs.Number.Magnitude

namespace CallTrace.Json
open Attempt

namespace Brief

end Brief

end CallTrace.Json
