import ScriptConsole.Proofs.Tracing.Records

/-!
# Lost Records

A sink may refuse a line at any time, and the line is lost. A tracer goes on regardless: the record
of a call takes its number before it is offered to the sink, and the footer is marked as done before
it is. So the numbers of the calls in a trace still tell how many came before, and the footer tells
how many there should be above it.

What a tracer offers to its sink (`Tracer.offers`) does not depend on what the sink makes of it; the
records that are written (`Sink.written`) and those that are lost (`Sink.lost`) are what is offered,
told apart by the answers of the sink.

## Main results

* `Tracer.sink_after`: a tracer does nothing with its sink but offer records to it.
* `Tracer.seqs_offers`, `Tracer.footers_offers`: the numbers of the calls, and the footer.
* `lost_records_counted`: **lost records can be counted**.
-/

namespace ScriptConsole

/-! ### Records that are written and records that are lost -/

namespace TraceRecord

/-- The number of a call. -/
def seq? : TraceRecord → Option Nat
  | call c => some c.seq
  | _ => none

/-- The number of calls in a footer, and the status. -/
def footer? : TraceRecord → Option (Nat × String)
  | footer _ calls status => some (calls, status)
  | _ => none

/-- What a record is called in errors. -/
def part : TraceRecord → String
  | header _ _ => "header"
  | call _ => "invoke"
  | footer _ _ _ => "footer"

end TraceRecord

namespace Sink

/-- The sink when some records have been offered to it, one after the other. -/
def offered (s : Sink) (records : List TraceRecord) : Sink :=
  records.foldl (fun s r => (s.write r.part r.line).2) s

variable (refuses : Nat → Option String)

/-- The records that are written when some are offered behind so many attempts. -/
def written : (attempts : Nat) → List TraceRecord → List TraceRecord
  | _, [] => []
  | n, r :: records =>
    match refuses n with
    | none => r :: written (n + 1) records
    | some _ => written (n + 1) records

/-- The records that are lost when some are offered behind so many attempts. -/
def lost : (attempts : Nat) → List TraceRecord → List TraceRecord
  | _, [] => []
  | n, r :: records =>
    match refuses n with
    | none => lost (n + 1) records
    | some _ => r :: lost (n + 1) records

variable (n : Nat) (records records' : List TraceRecord)

/-- Records behind records are written with the numbers that follow. -/
theorem written_append :
    written refuses n (records ++ records') =
      written refuses n records ++ written refuses (n + records.length) records' := by
  induction records generalizing n with
  | nil => rfl
  | cons r records ih =>
      rw [List.cons_append, written, written, ih, List.length_cons, Nat.add_assoc, Nat.add_comm 1]
      split <;> rfl

/-- What is written is some of the records, in order. -/
theorem written_sublist : (written refuses n records).Sublist records := by
  induction records generalizing n with
  | nil => exact .slnil
  | cons r records ih =>
      rw [written]
      split
      · exact (ih _).cons_cons r
      · exact (ih _).cons r

/-- Every record is either written or lost. -/
theorem length_written_add_length_lost :
    (written refuses n records).length + (lost refuses n records).length = records.length := by
  induction records generalizing n with
  | nil => rfl
  | cons r records ih =>
      have rest := ih (n + 1)
      rw [written, lost]
      split <;> simp only [List.length_cons] <;> omega

/-- What a sink does with the records that are offered to it: it makes an attempt for each, and a
line of each that is written. -/
theorem offered_eq (s : Sink) :
    s.offered records =
      { s with
        lines := s.lines ++ ((written s.refuses s.attempts records).map TraceRecord.line).toArray
        attempts := s.attempts + records.length } := by
  induction records generalizing s with
  | nil => simp [offered, written]
  | cons r records ih =>
      rw [offered, List.foldl_cons, ← offered, ih]
      unfold write
      rw [written]
      cases refused : s.refuses s.attempts <;> simp [Nat.add_comm, Nat.add_left_comm]

end Sink

/-! ### What a tracer offers to its sink -/

namespace Tracer

/-- What a tracer is asked for: to record a call, or to write the footer. -/
inductive Request where
  | record (target member : String) (inputs : List TraceValue) (output : TraceOutput)
  | finalize (status : String)

namespace Request

/-- Whether it is asked to record a call. -/
def isRecord : Request → Bool
  | record _ _ _ _ => true
  | finalize _ => false

/-- What comes of a request. -/
def apply (t : Tracer) : Request → Except TraceError Unit × Tracer
  | record target member inputs output => t.record target member inputs output
  | finalize status => t.finalize status

/-- The record that an enabled tracer offers to its sink. -/
def offer? (t : Tracer) : Request → Option TraceRecord
  | record target member inputs output =>
    some (.call ⟨t.seq, t.timestamp, target, member, inputs, output, 0⟩)
  | finalize status => if t.finalized then none else some (.footer t.timestamp t.seq status)

end Request

/-- The tracer after some requests. -/
def after (t : Tracer) (requests : List Request) : Tracer :=
  requests.foldl (fun t q => (q.apply t).2) t

/-- The first request, then the others. -/
@[simp] theorem after_cons (t : Tracer) (q : Request) (requests : List Request) :
    t.after (q :: requests) = (q.apply t).2.after requests := rfl

/-- Requests behind requests. -/
theorem after_append (t : Tracer) (requests requests' : List Request) :
    t.after (requests ++ requests') = (t.after requests).after requests' :=
  List.foldl_append

/-- The records that an enabled tracer offers to its sink. -/
def offers (t : Tracer) : List Request → List TraceRecord
  | [] => []
  | q :: requests => (q.offer? t).toList ++ (q.apply t).2.offers requests

/-- What they offer comes in the same order. -/
theorem offers_append (t : Tracer) (requests requests' : List Request) :
    t.offers (requests ++ requests') =
      t.offers requests ++ (t.after requests).offers requests' := by
  induction requests generalizing t with
  | nil => rfl
  | cons q requests ih => rw [List.cons_append, offers, offers, ih, List.append_assoc]; rfl

variable {t : Tracer} {sink : Sink}

/-! ### One request -/

/-- A request changes the sink by what is offered to it, and no more. -/
theorem sink_apply (enabled : t.sink = some sink) (q : Request) :
    (q.apply t).2.sink = some (sink.offered (q.offer? t).toList) := by
  cases q with
  | record target member inputs output =>
      rw [Request.apply, Tracer.record, enabled]
      rfl
  | finalize status =>
      rw [Request.apply, Tracer.finalize, Request.offer?]
      split
      · exact enabled
      · rw [enabled]
        rfl

/-- A record takes a number, and a footer none. -/
theorem seq_apply (enabled : t.sink = some sink) (q : Request) :
    (q.apply t).2.seq = t.seq + if q.isRecord then 1 else 0 := by
  cases q with
  | record target member inputs output =>
      rw [Request.apply, Tracer.record, enabled]
      rfl
  | finalize status => exact seq_finalize t status

/-! ### Some requests -/

/-- A tracer does nothing with its sink but offer records to it. -/
theorem sink_after (enabled : t.sink = some sink) (requests : List Request) :
    (t.after requests).sink = some (sink.offered (t.offers requests)) := by
  induction requests generalizing t sink with
  | nil => exact enabled
  | cons q requests ih =>
      rw [after_cons, ih (sink_apply enabled q), offers, Sink.offered, Sink.offered, Sink.offered,
        List.foldl_append]

/-- Each record takes one number, whatever the sink makes of it. -/
theorem seq_after (enabled : t.sink = some sink) (requests : List Request) :
    (t.after requests).seq = t.seq + requests.countP Request.isRecord := by
  induction requests generalizing t sink with
  | nil => rfl
  | cons q requests ih =>
      rw [after_cons, ih (sink_apply enabled q), seq_apply enabled, List.countP_cons,
        Nat.add_assoc, Nat.add_comm (requests.countP _)]

/-- The calls that are offered have consecutive numbers: each has the number of records before it.
-/
theorem seqs_offers (enabled : t.sink = some sink) (requests : List Request) :
    (t.offers requests).filterMap TraceRecord.seq? =
      List.range' t.seq (requests.countP Request.isRecord) := by
  induction requests generalizing t sink with
  | nil => rfl
  | cons q requests ih =>
      have rest := ih (sink_apply enabled q)
      rw [seq_apply enabled] at rest
      rw [offers, List.filterMap_append, rest, List.countP_cons]
      cases q with
      | record target member inputs output =>
          exact (List.range'_succ (s := t.seq) ..).symm
      | finalize status =>
          rw [Request.offer?]
          split <;> rfl

/-- The first request for a footer: the number of records before it, and the status. -/
def firstFinalize : List Request → Option (Nat × String)
  | [] => none
  | .finalize status :: _ => some (0, status)
  | .record _ _ _ _ :: requests => (firstFinalize requests).map fun (n, status) => (n + 1, status)

/-- Only the first request for a footer offers one, and whether that is written or lost makes no
difference to the later ones. -/
theorem footers_offers (enabled : t.sink = some sink) (requests : List Request) :
    (t.offers requests).filterMap TraceRecord.footer? =
      if t.finalized then []
      else ((firstFinalize requests).map fun (n, status) => (t.seq + n, status)).toList := by
  induction requests generalizing t sink with
  | nil => simp [offers, firstFinalize]
  | cons q requests ih =>
      have rest := ih (sink_apply enabled q)
      rw [seq_apply enabled] at rest
      rw [offers, List.filterMap_append, rest]
      cases q with
      | record target member inputs output =>
          simp only [Request.offer?, Request.apply, finalized_record, firstFinalize]
          cases firstFinalize requests <;>
            simp [TraceRecord.footer?, Request.isRecord, Nat.add_assoc, Nat.add_comm 1]
      | finalize status =>
          simp only [Request.offer?, Request.apply, finalized_finalize, firstFinalize]
          cases t.finalized <;> simp [TraceRecord.footer?]

/-- No request changes the time. -/
@[simp] theorem timestamp_after (t : Tracer) (requests : List Request) :
    (t.after requests).timestamp = t.timestamp := by
  induction requests generalizing t with
  | nil => rfl
  | cons q requests ih =>
      rw [after_cons, ih]
      cases q with
      | record target member inputs output => exact timestamp_record t _ _ _ _
      | finalize status => exact timestamp_finalize t status

/-- As long as no footer is asked for, calls are all that is offered, and there is one for each
request. -/
theorem offers_of_records {requests : List Request} (records : ∀ q ∈ requests, q.isRecord = true)
    (t : Tracer) :
    (t.offers requests).length = requests.length ∧ (∀ r ∈ t.offers requests, ∃ c, r = .call c) ∧
      (t.after requests).finalized = t.finalized := by
  induction requests generalizing t with
  | nil => exact ⟨rfl, nofun, rfl⟩
  | cons q requests ih =>
      obtain ⟨first, later⟩ := List.forall_mem_cons.mp records
      cases q with
      | finalize status => cases first
      | record target member inputs output =>
          obtain ⟨length, calls, finalized⟩ := ih later (Request.record target member inputs output
            |>.apply t).2
          refine ⟨congrArg Nat.succ length, List.forall_mem_cons.mpr ⟨⟨_, rfl⟩, calls⟩, ?_⟩
          exact finalized.trans (finalized_record t _ _ _ _)

/-! ### Counting the losses -/

/-- What can be told from the lines of a trace about those that are lost, when a tracer that has
been opened on a sink is asked for some records and footers. -/
structure LossesCounted (t : Tracer) (sink : Sink) (requests : List Request) : Prop where
  /-- What is offered to the sink is all that the sink gets. Each offer is one attempt, and each
  record that is written is one line. -/
  offered : (t.after requests).sink = some
    { sink with
      lines := sink.lines ++ ((Sink.written sink.refuses sink.attempts
        (t.offers requests)).map TraceRecord.line).toArray
      attempts := sink.attempts + (t.offers requests).length }
  /-- A request for a record offers a call, whose number is the number of records before it, -/
  call : ∀ before q behind, requests = before ++ q :: behind → q.isRecord = true →
    ∃ c : TraceCall, c.seq = before.countP Request.isRecord ∧
      t.offers requests = t.offers before ++ .call c :: (t.after (before ++ [q])).offers behind
  /-- and takes exactly this number, whether the call is written or lost. -/
  numbers : (t.after requests).seq = requests.countP Request.isRecord
  /-- So the numbers in the lines that are written increase. -/
  increasing : ((Sink.written sink.refuses sink.attempts (t.offers requests)).filterMap
    TraceRecord.seq?).Pairwise (· < ·)
  /-- One footer is offered at most, for the first request, whatever becomes of it. In it stands the
  number of records before it. -/
  footer : (t.offers requests).filterMap TraceRecord.footer? = (firstFinalize requests).toList
  /-- The lines above it are those of the calls that are written, and what is missing up to its
  count are those that are lost. -/
  missing : ∀ before status behind, requests = before ++ .finalize status :: behind →
    (∀ q ∈ before, q.isRecord = true) →
      t.offers requests = t.offers before ++ .footer t.timestamp before.length status ::
        (t.after (before ++ [.finalize status])).offers behind ∧
      (∀ r ∈ t.offers before, ∃ c, r = .call c) ∧
      (Sink.written sink.refuses sink.attempts (t.offers before)).length +
        (Sink.lost sink.refuses sink.attempts (t.offers before)).length = before.length ∧
      (sink.refuses (sink.attempts + before.length) = none → ∃ below, (t.after requests).lines =
        sink.lines.toList ++
          (Sink.written sink.refuses sink.attempts (t.offers before)).map TraceRecord.line ++
          (TraceRecord.footer t.timestamp before.length status).line :: below)

/-- Lost records are counted, whatever the sink refuses. -/
theorem lossesCounted (enabled : t.sink = some sink) (fresh : t.seq = 0)
    (unfinished : t.finalized = false) (requests : List Request) :
    LossesCounted t sink requests where
  offered := by rw [sink_after enabled, Sink.offered_eq]
  call before q behind parts isRecord := by
    cases q with
    | finalize status => cases isRecord
    | record target member inputs output =>
        refine ⟨⟨(t.after before).seq, (t.after before).timestamp, target, member, inputs, output,
          0⟩, ?_, ?_⟩
        · rw [seq_after enabled, fresh, Nat.zero_add]
        · rw [parts, offers_append, Tracer.offers, after_append]
          rfl
  numbers := by rw [seq_after enabled, fresh, Nat.zero_add]
  increasing := by
    have all := seqs_offers enabled requests
    rw [fresh, ← List.range_eq_range'] at all
    have some := (Sink.written_sublist sink.refuses sink.attempts (t.offers requests)).filterMap
      TraceRecord.seq?
    rw [all] at some
    exact List.pairwise_lt_range.sublist some
  footer := by
    rw [footers_offers enabled, unfinished, fresh]
    simp
  missing before status behind parts records := by
    obtain ⟨length, calls, finalized⟩ := offers_of_records records t
    have number : (t.after before).seq = before.length := by
      rw [seq_after enabled, fresh, Nat.zero_add, List.countP_eq_length.mpr records]
    have offers : t.offers requests = t.offers before ++
        .footer t.timestamp before.length status ::
          (t.after (before ++ [.finalize status])).offers behind := by
      rw [parts, offers_append, Tracer.offers, Request.offer?, finalized, unfinished, number,
        timestamp_after, after_append]
      rfl
    refine ⟨offers, calls, ?_, fun accepted => ?_⟩
    · rw [Sink.length_written_add_length_lost, length]
    · have there := sink_after enabled requests
      rw [Sink.offered_eq, offers, Sink.written_append, length, Sink.written, accepted] at there
      refine ⟨(Sink.written sink.refuses (sink.attempts + before.length + 1)
        ((t.after (before ++ [.finalize status])).offers behind)).map TraceRecord.line, ?_⟩
      rw [Tracer.lines, there]
      simp only [Array.toList_append, List.map_append, List.map_cons, List.append_assoc]

end Tracer

/-- **Lost records can be counted.** A tracer that has been opened on a sink, whatever lines the
sink refuses from then on and whether or not it can be flushed, and whatever calls and footers are
asked for: the numbers of the calls and the count in the footer do not depend on what is lost. -/
theorem lost_records_counted {sink : Sink} {timestamp : String} {t : Tracer}
    (opened : Tracer.start sink timestamp = .ok t) :
    ∃ behindHeader : Sink, t.sink = some behindHeader ∧ behindHeader.refuses = sink.refuses ∧
      behindHeader.lines.toList =
        sink.lines.toList ++ [(TraceRecord.header traceVersion timestamp).line] ∧
      ∀ requests : List Tracer.Request, t.LossesCounted behindHeader requests := by
  unfold Tracer.start Sink.write at opened
  split at opened
  · next written =>
    split at written <;> cases written
    cases opened
  · next written =>
    split at written <;> cases written
    cases opened
    exact ⟨_, rfl, rfl, Array.toList_push, Tracer.lossesCounted rfl rfl rfl⟩

/-- Of two calls the first is lost, and the footer has a count of two. A later call is numbered
behind them. -/
theorem lost_records_counted_refused_line :
    let sink : Sink := ⟨#[], 0, fun n => if n = 1 then some "full" else none, some "refused"⟩
    let header := (TraceRecord.header traceVersion "T").line
    let t : Tracer := ⟨0, some ⟨#[header], 1, sink.refuses, sink.refusesFlush⟩, false, "T"⟩
    let call : Tracer.Request := .record "std.Math" "abs" [] (.error "")
    let requests := [call, call, .finalize "success", .finalize "error", call]
    Tracer.start sink "T" = .ok t ∧ (t.after requests).seq = 3 ∧ (t.after requests).lines =
      header :: [TraceRecord.call ⟨1, "T", "std.Math", "abs", [], .error "", 0⟩,
        .footer "T" 2 "success",
        .call ⟨2, "T", "std.Math", "abs", [], .error "", 0⟩].map TraceRecord.line ∧
      ∃ behindHeader : Sink, t.sink = some behindHeader ∧ behindHeader.refuses = sink.refuses ∧
        behindHeader.lines.toList = sink.lines.toList ++ [header] ∧
        ∀ requests : List Tracer.Request, t.LossesCounted behindHeader requests :=
  ⟨rfl, rfl, rfl, lost_records_counted rfl⟩

end ScriptConsole
