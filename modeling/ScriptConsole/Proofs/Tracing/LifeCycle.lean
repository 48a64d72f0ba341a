import ScriptConsole.Host.Demo
import ScriptConsole.Proofs.Tracing.Records
import ScriptConsole.Proofs.Tracing.Sessions

/-!
# The Life of a Trace

The trace of a session starts with its header. The calls up to the first `finish` follow, or up to
the end of the session if there is none, numbered from 0 on, and then the footer with their number.
To finish the trace again, or to end the session, adds nothing. But calls that are made after the
first `finish` are still recorded, as no record asks whether the trace is open, and stand behind the
footer, with the numbers that come next.

A trace is therefore whole, with its footer as the last line, exactly if no callable of the host is
run after the first `finish` (`Session.wholeTrace_iff`).

## Main results

* `Session.lines_close`: what is written from some point of a session to its end, by induction on
  the operations.
* `trace_life_cycle`: **the life of a trace**.
* `not_wholeTrace_of_early_finish`: a trace with a record behind its footer.
-/

namespace ScriptConsole

/-! ### Whole traces -/

/-- Whether some lines are a whole trace: a header, the records of calls numbered from 0 on, a
footer with their number, and nothing else. -/
def WholeTrace (lines : List String) : Prop :=
  ∃ (timestamp timestamp' status : String) (calls : List TraceCall),
    calls.map TraceCall.seq = List.range calls.length ∧
      lines = (TraceRecord.header traceVersion timestamp).line ::
        callLines calls ++ [(TraceRecord.footer timestamp' calls.length status).line]

/-- The line of a call and that of a footer differ in the names of their cases. -/
theorem TraceRecord.line_call_ne_line_footer (c : TraceCall) (timestamp : String) (calls : Nat)
    (status : String) : (call c).line ≠ (footer timestamp calls status).line := by
  intro same
  -- the name of the case starts behind the eleven characters of `{"record":"`
  have character := congrArg (fun s : String => s.toList[11]?) same
  simp [line, toJson, Json.compact, Json.compactEntries, Json.writeText, Json.writeChar,
    String.toList_intercalate] at character

/-- The last line of a whole trace is not that of a call. -/
theorem WholeTrace.last_ne_call {lines : List String} (h : WholeTrace lines) (c : TraceCall) :
    lines.getLast? ≠ some (TraceRecord.call c).line := by
  obtain ⟨timestamp, timestamp', status, calls, -, rfl⟩ := h
  rw [List.getLast?_concat]
  intro same
  exact TraceRecord.line_call_ne_line_footer _ _ _ _ (Option.some.inj same).symm

/-- A sink that accepts every line accepts the header. -/
theorem Tracer.start_of_accepts {sink : Sink} (h : sink.Accepts) (timestamp : String) :
    Tracer.start sink timestamp =
      let header := (TraceRecord.header traceVersion timestamp).line
      let opened := { sink with lines := sink.lines.push header, attempts := sink.attempts + 1 }
      .ok ⟨0, some opened, false, timestamp⟩ := by
  rw [start, Sink.write_of_accepts h]

namespace Session

/-! ### Before and after the first `finish` -/

/-- The status of a program in the footer. -/
def programStatus (success : Bool) : String := if success then "success" else "error"

/-- The callables of the host that are run before the first `finish`. -/
def visitsBefore (s : Session) : List Operation → List Visit
  | [] => []
  | .finish _ :: _ => []
  | op :: ops => op.visits s ++ (op.apply s).visitsBefore ops

/-- The callables of the host that are run after the first `finish`. -/
def visitsBehind (s : Session) : List Operation → List Visit
  | [] => []
  | .finish success :: ops => (s.finish success).2.visitsOf ops
  | op :: ops => (op.apply s).visitsBehind ops

/-- The status in the footer: that of the first `finish`, if there is one. -/
def footerStatus : List Operation → String
  | [] => "unfinished"
  | .finish success :: _ => programStatus success
  | _ :: ops => footerStatus ops

/-- Whether an operation finishes the trace. -/
def Operation.isFinish : Operation → Bool
  | finish _ => true
  | _ => false

variable {s : Session} {op : Operation}

/-- An operation that does not finish the trace adds its visits to those before the footer. -/
theorem visitsBefore_cons (h : op.isFinish = false) (ops : List Operation) :
    s.visitsBefore (op :: ops) = op.visits s ++ (op.apply s).visitsBefore ops := by
  cases op <;> first | rfl | cases h

/-- It adds none behind it. -/
theorem visitsBehind_cons (h : op.isFinish = false) (ops : List Operation) :
    s.visitsBehind (op :: ops) = (op.apply s).visitsBehind ops := by
  cases op <;> first | rfl | cases h

/-- It does not change the status in the footer. -/
theorem footerStatus_cons (h : op.isFinish = false) (ops : List Operation) :
    footerStatus (op :: ops) = footerStatus ops := by
  cases op <;> first | rfl | cases h

/-- No operation changes the host. -/
theorem registry_apply (s : Session) (op : Operation) : (op.apply s).registry = s.registry :=
  (registry_kept s.registry).apply op rfl

/-- An operation records what it runs, unless it finishes a trace that is not finished. -/
theorem tracer_apply_of_recorded (s : Session) (op : Operation)
    (h : s.machine.tracer.finalized = true ∨ op.isFinish = false) :
    (op.apply s).machine.tracer = s.machine.tracer.recordAll s.registry (op.visits s) := by
  rw [tracer_apply]
  cases op with
  | finish success =>
      rcases h with finished | other
      · exact Tracer.finalize_of_finalized finished _
      · cases other
  | _ => rfl

/-- After the trace is finished, all operations record what they run and do nothing else to it. -/
theorem tracer_after_of_finalized (finished : s.machine.tracer.finalized = true)
    (ops : List Operation) :
    (s.after ops).machine.tracer = s.machine.tracer.recordAll s.registry (s.visitsOf ops) := by
  induction ops generalizing s with
  | nil => rfl
  | cons op ops ih =>
      have first := tracer_apply_of_recorded s op (.inl finished)
      have still : (op.apply s).machine.tracer.finalized = true := by
        rw [first, Tracer.finalized_recordAll, finished]
      rw [after_cons, ih still, first, registry_apply, visitsOf, Tracer.recordAll_append]

/-! ### What is written -/

/-- What is written in a session whose trace is not finished, if some operations follow and then its
end: the calls up to the first `finish`, the footer, and the calls behind it. -/
def remainder (s : Session) (ops : List Operation) : List String :=
  let t := s.machine.tracer
  let count := t.seq + (s.visitsBefore ops).length
  callLines (visitCalls s.registry t.timestamp t.seq (s.visitsBefore ops)) ++
    (TraceRecord.footer t.timestamp count (footerStatus ops)).line ::
      callLines (visitCalls s.registry t.timestamp count (s.visitsBehind ops))

/-- The end of a session whose trace is finished adds nothing to it. -/
theorem close_of_finalized (finished : s.machine.tracer.finalized = true) : s.close = s := by
  have same := Tracer.finalize_of_finalized finished "unfinished"
  show { s with machine := { s.machine with tracer :=
    (s.machine.tracer.finalize "unfinished").2 } } = s
  rw [same]

/-- What is written from the first `finish` of a session up to its end: the footer, and the calls
behind it. -/
theorem lines_close_finish (s : Session) (success : Bool) (ops : List Operation)
    (writes : s.machine.tracer.Writes) (unfinished : s.machine.tracer.finalized = false) :
    (s.after (.finish success :: ops)).close.machine.tracer.lines =
      s.machine.tracer.lines ++ s.remainder (.finish success :: ops) := by
  obtain ⟨writes', footer⟩ := writes.finalize (programStatus success)
  have finished : (s.finish success).2.machine.tracer.finalized = true :=
    Tracer.finalized_finalize _ _
  have rest := tracer_after_of_finalized finished ops
  have still : ((s.finish success).2.after ops).machine.tracer.finalized = true := by
    rw [rest, Tracer.finalized_recordAll, finished]
  rw [after_cons]
  show ((s.finish success).2.after ops).close.machine.tracer.lines = _
  rw [close_of_finalized still, rest]
  show ((s.machine.tracer.finalize (programStatus success)).2.recordAll s.registry _).lines = _
  rw [Tracer.lines_recordAll writes', footer unfinished, Tracer.seq_finalize,
    Tracer.timestamp_finalize, List.append_assoc]
  rfl

/-- What is written from some point of a session up to its end, by induction on the operations. -/
theorem lines_close (s : Session) (ops : List Operation) (writes : s.machine.tracer.Writes)
    (unfinished : s.machine.tracer.finalized = false) :
    (s.after ops).close.machine.tracer.lines = s.machine.tracer.lines ++ s.remainder ops := by
  induction ops generalizing s with
  | nil => exact (writes.finalize "unfinished").2 unfinished
  | cons op ops ih =>
      cases finish : op.isFinish with
      | true =>
          obtain ⟨success, rfl⟩ : ∃ success, op = .finish success := by
            cases op with
            | finish success => exact ⟨success, rfl⟩
            | _ => cases finish
          exact lines_close_finish s success ops writes unfinished
      | false =>
          have first := tracer_apply_of_recorded s op (.inr finish)
          have rest := ih (op.apply s)
            (first ▸ writes.recordAll _) (by rw [first, Tracer.finalized_recordAll, unfinished])
          rw [after_cons, rest, first, Tracer.lines_recordAll writes, List.append_assoc]
          refine congrArg _ ?_
          unfold remainder
          dsimp only
          rw [visitsBefore_cons finish, visitsBehind_cons finish, footerStatus_cons finish, first,
            registry_apply, Tracer.timestamp_recordAll, Tracer.seq_recordAll writes,
            visitCalls_append, callLines_append, List.length_append, ← Nat.add_assoc,
            List.append_assoc]

/-- The trace that is written for some operations and the end of the session, from its header on. -/
def trace (s : Session) (ops : List Operation) : List String :=
  (TraceRecord.header traceVersion s.machine.tracer.timestamp).line :: s.remainder ops

/-- What is written in a session from its start to its end. -/
theorem lines_close_start (registry : Registry) (config : Config) (world : World)
    (console : Console) {sink : Sink} {timestamp : String} {tracer : Tracer}
    (accepts : sink.Accepts) (opened : Tracer.start sink timestamp = .ok tracer)
    (ops : List Operation) :
    let s := start registry config world console tracer
    (s.after ops).close.machine.tracer.lines = sink.lines.toList ++ s.trace ops := by
  intro s
  obtain rfl := Except.ok.inj ((Tracer.start_of_accepts accepts timestamp).symm.trans opened)
  rw [lines_close s ops ⟨_, rfl, accepts⟩ rfl, trace]
  show (sink.lines.push _).toList ++ _ = _
  rw [Array.toList_push, List.append_assoc]
  rfl

/-! ### Which traces are whole -/

/-- Each callable that is run is run before the first `finish` or after it. -/
theorem visitsBefore_append_visitsBehind (s : Session) (ops : List Operation) :
    s.visitsBefore ops ++ s.visitsBehind ops = s.visitsOf ops := by
  induction ops generalizing s with
  | nil => rfl
  | cons op ops ih =>
      cases op with
      | finish success => rfl
      | _ => exact (List.append_assoc _ _ _).trans (congrArg _ (ih _))

/-- The visits behind the footer are those of the operations behind it. -/
theorem visitsBehind_append (s : Session) {ops : List Operation}
    (unfinished : ∀ op ∈ ops, op.isFinish = false) (ops' : List Operation) :
    s.visitsBehind (ops ++ ops') = (s.after ops).visitsBehind ops' := by
  induction ops generalizing s with
  | nil => rfl
  | cons op ops ih =>
      obtain ⟨first, rest⟩ := List.forall_mem_cons.mp unfinished
      rw [List.cons_append, visitsBehind_cons first, ih _ rest, after_cons]

/-- To finish visits nothing. -/
theorem visitsOf_finish (s : Session) (ends : List Bool) :
    s.visitsOf (ends.map .finish) = [] := by
  induction ends generalizing s with
  | nil => rfl
  | cons success ends ih => exact ih (s.finish success).2

/-- Nothing runs behind a trace that is finished last, however often. -/
theorem visitsBehind_finish (s : Session) (ends : List Bool) :
    s.visitsBehind (ends.map .finish) = [] := by
  cases ends with
  | nil => rfl
  | cons success ends => exact visitsOf_finish (s.finish success).2 ends

/-- The trace of a session is whole exactly if nothing is run behind its first `finish`. -/
theorem wholeTrace_iff {s : Session} (fresh : s.machine.tracer.seq = 0) (ops : List Operation) :
    WholeTrace (s.trace ops) ↔ s.visitsBehind ops = [] := by
  unfold trace remainder
  dsimp only
  rw [fresh, Nat.zero_add]
  constructor
  · intro whole
    -- otherwise the last line is that of a call
    rcases List.eq_nil_or_concat (s.visitsBehind ops) with none | ⟨visits, v, late⟩
    · exact none
    · refine absurd ?_ (whole.last_ne_call
        (v.traceCall s.registry s.machine.tracer.timestamp
          ((s.visitsBefore ops).length + visits.length)))
      rw [late, List.concat_eq_append, visitCalls_append, callLines_append]
      simp only [← List.cons_append, ← List.append_assoc]
      exact List.getLast?_concat
  · intro none
    refine ⟨s.machine.tracer.timestamp, s.machine.tracer.timestamp, footerStatus ops,
      visitCalls s.registry s.machine.tracer.timestamp 0 (s.visitsBefore ops), ?_, ?_⟩
    · rw [seq_visitCalls, length_visitCalls, List.range_eq_range']
    · rw [none, length_visitCalls]
      rfl

/-- The life of a trace: what stands in it after some operations on a session and its end. -/
structure LifeCycle (s : Session) (timestamp : String) (ops : List Operation)
    (trace : List String) : Prop where
  /-- The header comes first, then the calls up to the first `finish`, and then the footer with
  their number. Behind it stand the calls that are made later. -/
  written : trace =
    (TraceRecord.header traceVersion timestamp).line ::
      callLines (visitCalls s.registry timestamp 0 (s.visitsBefore ops)) ++
        (TraceRecord.footer timestamp (s.visitsBefore ops).length (footerStatus ops)).line ::
          callLines
            (visitCalls s.registry timestamp (s.visitsBefore ops).length (s.visitsBehind ops))
  /-- All callables that are run are there, in their order, -/
  complete : s.visitsBefore ops ++ s.visitsBehind ops = s.visitsOf ops
  /-- with the numbers from 0 on. -/
  numbered :
    (visitCalls s.registry timestamp 0 (s.visitsBefore ops) ++
      visitCalls s.registry timestamp (s.visitsBefore ops).length (s.visitsBehind ops)).map
        TraceCall.seq = List.range (s.visitsOf ops).length
  /-- The footer is the last line exactly if none of them is run after the first `finish`. -/
  whole : WholeTrace trace ↔ s.visitsBehind ops = []
  /-- So it is if the trace is finished last, any number of times, or not at all. -/
  wholeOfLast : ∀ (ops' : List Operation) (ends : List Bool), ops = ops' ++ ends.map .finish →
    (∀ op ∈ ops', op.isFinish = false) → WholeTrace trace

/-- The trace of a session that starts afresh, by cases on whether it is finished. -/
theorem lifeCycle_trace {s : Session} (fresh : s.machine.tracer.seq = 0) (ops : List Operation) :
    s.LifeCycle s.machine.tracer.timestamp ops (s.trace ops) where
  written := by
    unfold trace remainder
    dsimp only
    rw [fresh, Nat.zero_add]
    rfl
  complete := visitsBefore_append_visitsBehind s ops
  numbered := by
    have numbers := visitCalls_append s.registry s.machine.tracer.timestamp 0
      (s.visitsBefore ops) (s.visitsBehind ops)
    rw [Nat.zero_add] at numbers
    rw [← numbers, visitsBefore_append_visitsBehind, seq_visitCalls, List.range_eq_range']
  whole := wholeTrace_iff fresh ops
  wholeOfLast ops' ends last unfinished := by
    rw [wholeTrace_iff fresh, last, visitsBehind_append s unfinished, visitsBehind_finish]

end Session

/-- **The life of a trace.** A session with a trace whose sink accepts every line writes, up to its
end and whatever operations come before, a header, the calls before the trace is finished, a footer
with their number, and then the calls that are made after all. -/
theorem trace_life_cycle (registry : Registry) (config : Config) (world : World)
    (console : Console) {sink : Sink} {timestamp : String} {tracer : Tracer}
    (accepts : sink.Accepts) (opened : Tracer.start sink timestamp = .ok tracer)
    (ops : List Session.Operation) :
    let s := Session.start registry config world console tracer
    ∃ trace, (s.after ops).close.machine.tracer.lines = sink.lines.toList ++ trace ∧
      s.LifeCycle timestamp ops trace := by
  intro s
  refine ⟨s.trace ops,
    Session.lines_close_start registry config world console accepts opened ops, ?_⟩
  obtain rfl := Except.ok.inj ((Tracer.start_of_accepts accepts timestamp).symm.trans opened)
  exact s.lifeCycle_trace rfl ops

/-- In the demo world, a call stands before the footer if the trace is finished after it. -/
theorem trace_life_cycle_abs :
    let tracer : Tracer := ⟨0, some ⟨#[(TraceRecord.header traceVersion "T").line], 1,
      fun _ => none, none⟩, false, "T"⟩
    let s := Session.start Demo.registry Config.default World.empty (Console.ofInput []) tracer
    let ops : List Session.Operation := [.eval 20 ".std.Math.abs(-3);", .finish true]
    Sink.accepting.Accepts ∧ Tracer.start Sink.accepting "T" = .ok tracer ∧
      (s.visitsBefore ops).length = 1 ∧
      ∃ trace, (s.after ops).close.machine.tracer.lines = [] ++ trace ∧
        s.LifeCycle "T" ops trace := by
  intro tracer s ops
  have opened : Tracer.start Sink.accepting "T" = .ok tracer :=
    Tracer.start_of_accepts Sink.accepts_accepting "T"
  exact ⟨Sink.accepts_accepting, opened, by decide +kernel,
    trace_life_cycle _ _ _ _ Sink.accepts_accepting opened ops⟩

/-- In the demo world, the record of a call stands behind the footer if the trace is finished before
it. -/
theorem not_wholeTrace_of_early_finish :
    let tracer : Tracer := ⟨0, some ⟨#[(TraceRecord.header traceVersion "T").line], 1,
      fun _ => none, none⟩, false, "T"⟩
    let s := Session.start Demo.registry Config.default World.empty (Console.ofInput []) tracer
    let ops : List Session.Operation := [.finish true, .eval 20 ".std.Math.abs(-3);"]
    Sink.accepting.Accepts ∧ Tracer.start Sink.accepting "T" = .ok tracer ∧
      ¬ WholeTrace (s.after ops).close.machine.tracer.lines := by
  intro tracer s ops
  have opened : Tracer.start Sink.accepting "T" = .ok tracer :=
    Tracer.start_of_accepts Sink.accepts_accepting "T"
  refine ⟨Sink.accepts_accepting, opened, ?_⟩
  have late : (s.visitsBehind ops).length = 1 := by decide +kernel
  have written : (s.after ops).close.machine.tracer.lines = s.trace ops :=
    Session.lines_close_start _ _ _ _ Sink.accepts_accepting opened ops
  rw [written, Session.wholeTrace_iff rfl]
  intro none
  rw [none] at late
  cases late

end ScriptConsole
