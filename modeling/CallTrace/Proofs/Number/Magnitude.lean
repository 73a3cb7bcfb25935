import CallTrace.Proofs.Number.Decimal
import Mathlib.Data.Nat.Digits.Lemmas

namespace CallTrace.Binary64

variable {negative : Bool} {m num den digits bound : Nat} {e power : Int}

end CallTrace.Binary64
