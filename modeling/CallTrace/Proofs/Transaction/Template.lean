import CallTrace.Proofs.Lookup
import CallTrace.Proofs.Number.Decimal
import CallTrace.Proofs.StateTest.Shape
import CallTrace.Proofs.Transaction

namespace CallTrace
open Attempt

section
variable {α β : Type} {items : List α} {index : Option Int} {item : α}

end

structure Choices where
  gasLimits : List Json
  values : List Json
  datas : List Json
  accessLists : Option (List Json)

def Choices.draws (c : Choices) (index : Text → Option Int) : List (Nat × Option Int) :=
  CallTrace.draws c.gasLimits.length c.values.length c.datas.length (c.accessLists.map List.length) index

namespace TransactionTemplate

variable {fields : Fields} {c : Choices} {t : TransactionTemplate} {base : Transaction} {kind : Fee.Kind}

structure Reads (t : TransactionTemplate) (c : Choices) : Prop where
  gasLimits : c.gasLimits.mapM Hex.quantity = .ok t.gasLimits
  values : c.values.mapM Hex.quantity = .ok t.values
  datas : c.datas.mapM Hex.octets = .ok t.datas
  accessLists : Option.Rel (fun lists read => lists.mapM accessListOf = .ok read) c.accessLists t.accessLists

end TransactionTemplate

end CallTrace
