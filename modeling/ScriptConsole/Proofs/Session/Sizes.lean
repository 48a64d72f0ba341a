import ScriptConsole.Proofs.Session.Lines

/-!
# How Long a Line May Be

A session limits the size of a source text, and the text that counts is the one that is evaluated.
For a line that is the line without the blanks at its end, and two bytes more if its semicolon is
missing: the newline that ends a comment, and the semicolon. So a line may be refused although it
fits, and although it is accepted with its semicolon typed, because a newline is supplied as well.

## Main results

* `Session.refused_eval_iff`: when a source text is refused for its size.
* `Session.line_size_law`: when a line is.
-/

namespace ScriptConsole

namespace Session

/-- Whether a result says that a text was refused for its size. -/
def Refused (result : Except Failure Value) : Prop :=
  ∃ size limit, result = .error (.tooLarge size limit)

/-- Whether a text is free of flaws and its last token is no semicolon. -/
def LacksSemicolon (text : String) : Prop := ∃ tokens, tokens? text = .ok tokens ∧ ¬Closed tokens

/-! ### Source texts -/

/-- No program is refused for its size. -/
theorem not_refused_evalProgram (fuel : Nat) (p : Program) (s : Session) :
    ¬Refused (s.evalProgram fuel p).1 := by
  rintro ⟨size, limit, h⟩
  have plain : ∀ result, resultOf result ≠ .error (.tooLarge size limit) := by
    intro result
    rcases result with (_ | _ | _ | _) | _ <;> exact nofun
  exact plain _ h

/-- A text is refused exactly if it is too large, before anything else. -/
theorem refused_eval_iff (fuel : Nat) (source : String) (s : Session) :
    Refused (s.eval fuel source).1 ↔ s.config.maxSourceSize < source.utf8ByteSize := by
  unfold eval
  split
  · next large => exact ⟨fun _ => large, fun _ => ⟨_, _, rfl⟩⟩
  · next fits =>
    refine ⟨fun refused => absurd refused ?_, fun large => absurd large fits⟩
    split
    · rintro ⟨_, _, h⟩
      cases h
    · exact not_refused_evalProgram fuel _ s

/-- A text that is too large is refused and changes nothing. -/
theorem eval_of_large {fuel : Nat} {source : String} {s : Session}
    (large : s.config.maxSourceSize < source.utf8ByteSize) :
    s.eval fuel source = (.error (.tooLarge source.utf8ByteSize s.config.maxSourceSize), s) :=
  if_pos large

/-! ### Lines -/

/-- A text without its semicolon gets one on a line of its own. -/
theorem terminated_of_lacks {text : String} (lacks : LacksSemicolon text) :
    terminated text = text ++ "\n;" := by
  obtain ⟨tokens, htokens, open_⟩ := lacks
  refine if_pos ?_
  rwa [← Bool.not_eq_false, needsTerminator_eq_false_iff htokens]

/-- A text with its semicolon stays as it is. -/
theorem terminated_of_complete {text : String} (complete : ¬LacksSemicolon text) :
    terminated text = text := by
  cases htokens : tokens? text with
  | error e =>
      rw [terminated, needsTerminator, htokens]
      rfl
  | ok tokens =>
      refine terminated_of_closed htokens ?_
      by_contra open_
      exact complete ⟨tokens, htokens, open_⟩

/-- How many bytes are supplied behind a text. -/
theorem exists_supplied (text : String) :
    ∃ supplied, (LacksSemicolon text ∧ supplied = 2 ∨ ¬LacksSemicolon text ∧ supplied = 0) ∧
      (terminated text).utf8ByteSize = text.utf8ByteSize + supplied := by
  by_cases lacks : LacksSemicolon text
  · refine ⟨2, .inl ⟨lacks, rfl⟩, ?_⟩
    rw [terminated_of_lacks lacks, String.utf8ByteSize_append]
    rfl
  · exact ⟨0, .inr ⟨lacks, rfl⟩, by rw [terminated_of_complete lacks]; rfl⟩

/-- A line is refused exactly if the text that is evaluated is too large. -/
theorem refused_evalLine_iff (fuel : Nat) (line : String) (s : Session) :
    Refused (s.evalLine fuel line).1 ↔
      s.config.maxSourceSize < (terminated (trimmed line)).utf8ByteSize :=
  refused_eval_iff fuel _ s

/-- A semicolon takes one byte. -/
theorem size_typed (text : String) : (text ++ ";").utf8ByteSize = text.utf8ByteSize + 1 :=
  String.utf8ByteSize_append

/-- What is promised of the size of a line. -/
structure SizeLaw (fuel : Nat) (line : String) (s : Session) : Prop where
  /-- What counts is the line without the blanks at its end, with two bytes more if it lacks its
  semicolon; this number is reported, and nothing else takes place. -/
  counted : ∃ supplied,
    (LacksSemicolon (trimmed line) ∧ supplied = 2 ∨
      ¬LacksSemicolon (trimmed line) ∧ supplied = 0) ∧
    (Refused (s.evalLine fuel line).1 ↔
      s.config.maxSourceSize < (trimmed line).utf8ByteSize + supplied) ∧
    (Refused (s.evalLine fuel line).1 → s.evalLine fuel line = reported
      (.error (.tooLarge ((trimmed line).utf8ByteSize + supplied) s.config.maxSourceSize), s))
  /-- Where the line would not be refused with a semicolon typed at its end, it is refused only if
  it lacks the semicolon and would, with it, be as large as a text may be. -/
  typed : ¬Refused (s.eval fuel (trimmed line ++ ";")).1 →
    (Refused (s.evalLine fuel line).1 ↔ LacksSemicolon (trimmed line) ∧
      (trimmed line ++ ";").utf8ByteSize = s.config.maxSourceSize)

/-- **The size of a line.** A line is refused for its size exactly if the text that is evaluated for
it is larger than the limit, and then the size of that text is reported. -/
theorem line_size_law (fuel : Nat) (line : String) (s : Session) : SizeLaw fuel line s where
  counted := by
    obtain ⟨supplied, why, size⟩ := exists_supplied (trimmed line)
    have refused := refused_evalLine_iff fuel line s
    refine ⟨supplied, why, size ▸ refused, fun h => ?_⟩
    show reported (s.eval fuel (terminated (trimmed line))) = _
    rw [eval_of_large (refused.mp h), size]
  typed accepted := by
    obtain ⟨supplied, why, size⟩ := exists_supplied (trimmed line)
    rw [refused_eval_iff, size_typed] at accepted
    rw [refused_evalLine_iff, size, size_typed]
    rcases why with ⟨lacks, rfl⟩ | ⟨complete, rfl⟩
    · simp only [lacks, true_and]
      omega
    · simp only [complete, false_and, iff_false]
      omega

/-- A line of fewer bytes than a text may have is refused, and with its semicolon it is not. -/
theorem line_refused_below_limit :
    let s := Session.start Demo.registry { Config.default with maxSourceSize := 6 } World.empty
      (Console.ofInput []) Tracer.disabled
    ¬(Refused (s.evalLine 3 "x = 1").1 ↔
        s.config.maxSourceSize < (trimmed "x = 1").utf8ByteSize) ∧
      (s.evalLine 3 "x = 1").1 = .error (.tooLarge 7 6) ∧
      (s.eval 3 ("x = 1" ++ ";")).1.isOk = true := by
  intro s
  have text : trimmed "x = 1" = "x = 1" := by decide +kernel
  have tokens : tokens? "x = 1" = .ok [⟨.name "x", ⟨0, 1⟩⟩, ⟨.symbol .assign, ⟨2, 3⟩⟩,
      ⟨.literal (.int 1), ⟨4, 5⟩⟩, ⟨.eof, ⟨5, 5⟩⟩] := by decide +kernel
  have lacks : LacksSemicolon "x = 1" := by
    refine ⟨_, tokens, fun closes => ?_⟩
    cases closes _ rfl
  have large : s.config.maxSourceSize < (terminated (trimmed "x = 1")).utf8ByteSize := by
    rw [text, terminated_of_lacks lacks]
    decide
  have result : (s.evalLine 3 "x = 1").1 = .error (.tooLarge 7 6) := by
    show (s.eval 3 (terminated (trimmed "x = 1"))).1 = _
    rw [eval_of_large large, text, terminated_of_lacks lacks]
    rfl
  refine ⟨fun counts => ?_, result, by decide +kernel⟩
  have short := counts.mp ⟨7, 6, result⟩
  rw [text] at short
  exact absurd short (by decide)

end Session

end ScriptConsole
