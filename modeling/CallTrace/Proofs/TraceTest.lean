import CallTrace.Proofs.Environment
import CallTrace.Proofs.StateTest
import CallTrace.Proofs.Trace.RoundTrip
import CallTrace.Proofs.Transaction
import CallTrace.Proofs.WorldState
import CallTrace.TraceTest

namespace CallTrace
open Attempt

variable [Limits] {abbreviate : Bool}

structure TracedTransaction.Readable (t : TracedTransaction) : Prop where
  data : t.data.Fits
  trace : t.trace.Fits
  room : Limits.admitsDepth Trace.readerFrames t.trace.nesting = true

theorem TracedTransaction.ofJson_of_toJson {t : TracedTransaction} {j : Json} (ht : t.Readable)
    (h : t.toJson abbreviate = .ok j) : ofJson j = .ok t := by
  obtain ⟨transaction, htransaction, h⟩ := bind_eq_ok.1 h
  obtain ⟨trace, htrace, h⟩ := bind_eq_ok.1 h
  obtain rfl := Except.ok.inj h
  have hdata : Hex.abbreviatedOctets (.text (Hex.abbreviated Hex.defaultThreshold t.data)) = .ok t.data :=
    Hex.decodeAbbreviated_abbreviated Hex.defaultThreshold ht.data
  simp [ofJson, Json.field, Transaction.ofJson_of_toJson htransaction, Outcome.ofJson_name, hdata,
    Trace.ofJson_of_toJson ht.room ht.trace htrace]

theorem TracedInstance.ofJson_of_toJson {i : TracedInstance} {j : Json} (hi : i.tx.Readable)
    (h : i.toJson abbreviate = .ok j) : ofJson j = .ok i := by
  obtain ⟨tx, htx, h⟩ := bind_eq_ok.1 h
  obtain rfl := Except.ok.inj h
  simp [ofJson, Json.field, TracedTransaction.ofJson_of_toJson hi htx]

namespace TraceTest

/-- A trace test of which nothing is lost in a document. -/
structure Readable (t : TraceTest) : Prop where
  env : t.env.Plain
  instances : ∀ g ∈ t.instances, ∀ i ∈ g.2, i.tx.Readable

theorem forkOf_of_forkToJson {g : Text × List TracedInstance} {f : Text × Json}
    (hg : ∀ i ∈ g.2, i.tx.Readable) (h : forkToJson abbreviate g = .ok f) : forkOf f = .ok g := by
  obtain ⟨items, hitems, h⟩ := bind_eq_ok.1 h
  obtain rfl := Except.ok.inj h
  have hread : items.mapM TracedInstance.ofJson = .ok g.2 :=
    mapM_inverse hitems fun i hi _ => TracedInstance.ofJson_of_toJson (hg i hi)
  simp [forkOf, Json.items, hread]

theorem ofJson_of_toJson {t : TraceTest} {j : Json} (ht : t.Readable) (h : t.toJson abbreviate = .ok j) :
    ofJson t.name j = .ok t := by
  obtain ⟨pre, hpre, h⟩ := bind_eq_ok.1 h
  obtain ⟨env, henv, h⟩ := bind_eq_ok.1 h
  obtain ⟨tests, htests, h⟩ := bind_eq_ok.1 h
  obtain rfl := Except.ok.inj h
  have hread : tests.mapM forkOf = .ok t.instances :=
    mapM_inverse htests fun g hg _ => forkOf_of_forkToJson (ht.instances g hg)
  simp [ofJson, Json.field, WorldState.ofJson_of_toJson hpre, Environment.ofJson_of_toJson ht.env henv, hread,
    Fault.onMissing_ok]

end TraceTest

end CallTrace
