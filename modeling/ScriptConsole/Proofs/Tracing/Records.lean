import ScriptConsole.Proofs.Tracing.Ledger

/-!
# Records of Visits

What a tracer writes for the visits of a ledger: a line for each of them, in their order and with
consecutive numbers, if its sink accepts whatever it gets (`Tracer.Writes`).

## Main results

* `Tracer.lines_recordAll`, `Tracer.seq_recordAll`: the lines, and the numbers that they take.
* `Tracer.Writes.finalize`: the footer, which is written once.
-/

namespace ScriptConsole

/-- The call in the record of a visit under a number. -/
def Visit.traceCall (registry : Registry) (timestamp : String) (v : Visit) (seq : Nat) :
    TraceCall :=
  ⟨seq, timestamp, v.target.className, v.target.member, v.inputs registry, v.output registry, 0⟩

/-- The calls in the records of some visits, numbered from `seq` on. -/
def visitCalls (registry : Registry) (timestamp : String) (seq : Nat) (visits : List Visit) :
    List TraceCall :=
  (visits.zipIdx seq).map fun (v, n) => v.traceCall registry timestamp n

/-- The lines of the records of some calls. -/
def callLines (calls : List TraceCall) : List String :=
  calls.map fun c => (TraceRecord.call c).line

/-- Lines of calls, then those of other calls. -/
theorem callLines_append (calls calls' : List TraceCall) :
    callLines (calls ++ calls') = callLines calls ++ callLines calls' :=
  List.map_append

/-- Visits are numbered on from those before them. -/
theorem visitCalls_append (registry : Registry) (timestamp : String) (seq : Nat)
    (visits visits' : List Visit) :
    visitCalls registry timestamp seq (visits ++ visits') =
      visitCalls registry timestamp seq visits ++
        visitCalls registry timestamp (seq + visits.length) visits' := by
  simp [visitCalls, List.zipIdx_append]

/-- There is one call for each visit. -/
@[simp] theorem length_visitCalls (registry : Registry) (timestamp : String) (seq : Nat)
    (visits : List Visit) : (visitCalls registry timestamp seq visits).length = visits.length := by
  simp [visitCalls]

/-- The numbers are consecutive. -/
theorem seq_visitCalls (registry : Registry) (timestamp : String) (seq : Nat)
    (visits : List Visit) :
    (visitCalls registry timestamp seq visits).map TraceCall.seq =
      List.range' seq visits.length := by
  rw [visitCalls, List.map_map, ← List.zipIdx_map_snd seq visits]
  rfl

/-- Whether a sink accepts every line. -/
def Sink.Accepts (s : Sink) : Prop := ∀ n, s.refuses n = none

/-- A sink that accepts all accepts. -/
theorem Sink.accepts_accepting : Sink.accepting.Accepts := fun _ => rfl

/-- A sink that accepts takes one more line. -/
theorem Sink.write_of_accepts {s : Sink} (h : s.Accepts) (part line : String) :
    s.write part line =
      (.ok (), { s with lines := s.lines.push line, attempts := s.attempts + 1 }) := by
  rw [write, h]

namespace Tracer

/-- Whether a tracer writes whatever it gets: it is enabled, and its sink accepts every line. -/
def Writes (t : Tracer) : Prop := ∃ sink, t.sink = some sink ∧ sink.Accepts

variable {registry : Registry} {t : Tracer}

/-- One record is one line and takes one number. -/
theorem Writes.recordOn (h : t.Writes) (registry : Registry) (v : Visit) :
    (v.recordOn registry t).lines =
        t.lines ++ callLines [v.traceCall registry t.timestamp t.seq] ∧
      (v.recordOn registry t).seq = t.seq + 1 ∧ (v.recordOn registry t).Writes := by
  obtain ⟨sink, hsink, accepts⟩ := h
  rw [Visit.recordOn, Tracer.record, hsink]
  dsimp only
  rw [Sink.write_of_accepts accepts]
  refine ⟨?_, rfl, _, rfl, accepts⟩
  simp [lines, hsink, callLines, Visit.traceCall]

/-- A record does not change the time. -/
@[simp] theorem timestamp_record (t : Tracer) (target member : String) (inputs : List TraceValue)
    (output : TraceOutput) : (t.record target member inputs output).2.timestamp = t.timestamp := by
  rw [record]
  split <;> rfl

/-- A record does not end a trace. -/
@[simp] theorem finalized_record (t : Tracer) (target member : String) (inputs : List TraceValue)
    (output : TraceOutput) : (t.record target member inputs output).2.finalized = t.finalized := by
  rw [record]
  split <;> rfl

/-- The record of a visit does not change the time. -/
@[simp] theorem timestamp_recordOn (v : Visit) (t : Tracer) :
    (v.recordOn registry t).timestamp = t.timestamp := timestamp_record t _ _ _ _

/-- The record of a visit does not end a trace. -/
@[simp] theorem finalized_recordOn (v : Visit) (t : Tracer) :
    (v.recordOn registry t).finalized = t.finalized := finalized_record t _ _ _ _

/-- The records of several visits do not change the time. -/
@[simp] theorem timestamp_recordAll (visits : List Visit) (t : Tracer) :
    (t.recordAll registry visits).timestamp = t.timestamp := by
  induction visits generalizing t with
  | nil => rfl
  | cons v visits ih => exact (ih _).trans (timestamp_recordOn v t)

/-- The records of several visits do not end a trace. -/
@[simp] theorem finalized_recordAll (visits : List Visit) (t : Tracer) :
    (t.recordAll registry visits).finalized = t.finalized := by
  induction visits generalizing t with
  | nil => rfl
  | cons v visits ih => exact (ih _).trans (finalized_recordOn v t)

/-- A tracer that writes goes on to do so. -/
theorem Writes.recordAll (h : t.Writes) (visits : List Visit) :
    (t.recordAll registry visits).Writes := by
  induction visits generalizing t with
  | nil => exact h
  | cons v visits ih => exact ih (h.recordOn registry v).2.2

/-- Records take consecutive numbers. -/
theorem seq_recordAll (h : t.Writes) (visits : List Visit) :
    (t.recordAll registry visits).seq = t.seq + visits.length := by
  induction visits generalizing t with
  | nil => rfl
  | cons v visits ih =>
      obtain ⟨-, seq, writes⟩ := h.recordOn registry v
      have rest := ih writes
      rw [seq] at rest
      rw [List.length_cons, ← Nat.add_assoc, Nat.add_right_comm]
      exact rest

/-- What is written for some visits: a line for each of them, in their order. -/
theorem lines_recordAll (h : t.Writes) (visits : List Visit) :
    (t.recordAll registry visits).lines =
      t.lines ++ callLines (visitCalls registry t.timestamp t.seq visits) := by
  induction visits generalizing t with
  | nil => exact (List.append_nil _).symm
  | cons v visits ih =>
      obtain ⟨lines, seq, writes⟩ := h.recordOn registry v
      have rest := ih writes
      rw [lines, seq, timestamp_recordOn, List.append_assoc] at rest
      exact rest

/-! ### The footer -/

/-- The line of the footer. -/
def footerLine (t : Tracer) (status : String) : String :=
  (TraceRecord.footer t.timestamp t.seq status).line

/-- The footer takes no number. -/
@[simp] theorem seq_finalize (t : Tracer) (status : String) :
    (t.finalize status).2.seq = t.seq := by
  rw [finalize]
  split
  · rfl
  split <;> rfl

/-- It does not change the time. -/
@[simp] theorem timestamp_finalize (t : Tracer) (status : String) :
    (t.finalize status).2.timestamp = t.timestamp := by
  rw [finalize]
  split
  · rfl
  split <;> rfl

/-- It ends the trace. -/
@[simp] theorem finalized_finalize (t : Tracer) (status : String) :
    (t.finalize status).2.finalized = true := by
  rw [finalize]
  split
  · next h => exact h
  split <;> rfl

/-- A trace that is finished stays as it is when it is finished again. -/
theorem finalize_of_finalized (h : t.finalized = true) (status : String) :
    (t.finalize status).2 = t := by
  rw [finalize, if_pos h]

/-- A trace that is not finished gets its footer. -/
theorem Writes.finalize (h : t.Writes) (status : String) :
    (t.finalize status).2.Writes ∧
      (t.finalized = false → (t.finalize status).2.lines = t.lines ++ [t.footerLine status]) := by
  obtain ⟨sink, hsink, accepts⟩ := h
  rw [Tracer.finalize]
  split
  · next finished =>
    refine ⟨⟨sink, hsink, accepts⟩, fun unfinished => ?_⟩
    rw [finished] at unfinished
    cases unfinished
  rw [hsink]
  dsimp only
  rw [Sink.write_of_accepts accepts]
  refine ⟨⟨_, rfl, accepts⟩, fun _ => ?_⟩
  simp [lines, hsink, footerLine]

end Tracer

end ScriptConsole
