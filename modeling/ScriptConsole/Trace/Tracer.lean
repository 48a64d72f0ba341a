import ScriptConsole.Trace.Record

/-!
# Writing Traces

A tracer numbers the calls and writes their records to a sink. It is open from the start or
disabled for good; a disabled tracer accepts everything and writes nothing. Writing may fail at any
line: the call keeps its number, the line is lost, and the tracer goes on. The footer is tried once.
-/

namespace ScriptConsole

/-- Where lines of a trace go. A line is written whole or not at all, and which attempts fail is
known to the sink: `refuses n` is the reason for which the attempt after `n` others fails. -/
structure Sink where
  lines : Array String
  attempts : Nat
  refuses : Nat → Option String
  refusesFlush : Option String

/-- A failure to write a part of a trace. -/
structure TraceError where
  part : String
  reason : String

/-- The wording of the error. -/
def TraceError.message (e : TraceError) : String := s!"write {e.part}: {e.reason}"

namespace Sink

/-- A sink that accepts everything. -/
def accepting : Sink := ⟨#[], 0, fun _ => none, none⟩

/-- A sink that accepts so many lines and refuses all others. -/
def withRoom (lines : Nat) : Sink :=
  ⟨#[], 0, fun n => if n < lines then none else some "sink is full", none⟩

/-- Tries to write a line. -/
def write (s : Sink) (part line : String) : Except TraceError Unit × Sink :=
  match s.refuses s.attempts with
  | some reason => (.error ⟨part, reason⟩, { s with attempts := s.attempts + 1 })
  | none => (.ok (), { s with lines := s.lines.push line, attempts := s.attempts + 1 })

/-- Tries to flush what was written. -/
def flush (s : Sink) : Except TraceError Unit :=
  match s.refusesFlush with
  | some reason => .error ⟨"flush", reason⟩
  | none => .ok ()

end Sink

/-- The writer of a trace. -/
structure Tracer where
  seq : Nat
  sink : Option Sink
  finalized : Bool
  /-- The time that all records bear. -/
  timestamp : String

namespace Tracer

/-- A tracer that writes nothing. -/
def disabled : Tracer := ⟨0, none, false, ""⟩

/-- Opens a trace by writing its header. -/
def start (sink : Sink) (timestamp : String) : Except TraceError Tracer :=
  match sink.write "header" (TraceRecord.header traceVersion timestamp).line with
  | (.error e, _) => .error e
  | (.ok (), sink) => .ok ⟨0, some sink, false, timestamp⟩

/-- Takes the next number. -/
def nextSeq (t : Tracer) : Nat × Tracer := (t.seq, { t with seq := t.seq + 1 })

/-- Records one call. It takes a number whether or not its line is written. -/
def record (t : Tracer) (target member : String) (inputs : List TraceValue)
    (output : TraceOutput) : Except TraceError Unit × Tracer :=
  match t.sink with
  | none => (.ok (), t)
  | some sink =>
    let call : TraceCall := ⟨t.seq, t.timestamp, target, member, inputs, output, 0⟩
    let (outcome, sink) := sink.write "invoke" (TraceRecord.call call).line
    (outcome, { t with seq := t.seq + 1, sink := some sink })

/-- Writes the footer and flushes. Only the first time counts. -/
def finalize (t : Tracer) (status : String) : Except TraceError Unit × Tracer :=
  if t.finalized then (.ok (), t)
  else
    match t.sink with
    | none => (.ok (), { t with finalized := true })
    | some sink =>
      let (outcome, sink) :=
        sink.write "footer" (TraceRecord.footer t.timestamp t.seq status).line
      let outcome := match outcome with
        | .error e => .error e
        | .ok () => sink.flush
      (outcome, { t with finalized := true, sink := some sink })

/-- The lines written so far. -/
def lines (t : Tracer) : List String :=
  match t.sink with
  | none => []
  | some sink => sink.lines.toList

/-- The number of calls and whether anything is written, as text. -/
def summary (t : Tracer) : String :=
  s!"TraceEmitter \x7b seq: {t.seq}, enabled: {t.sink.isSome} \x7d"

end Tracer

end ScriptConsole
