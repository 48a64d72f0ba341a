import ScriptConsole.Eval.Plain
import ScriptConsole.Value.Operators

/-!
# The Evaluator

Expressions, calls and loops, evaluated within a budget: every function of this module takes one
unit of `fuel` off at each step into another, and a run whose fuel is used up ends as `exhausted`,
which says nothing about the outcome. Any other outcome does not depend on the fuel.

* Sub-expressions are evaluated in the order in which they are written; the callee or the target
  of a call comes before its arguments.
* A path that is called is resolved before its arguments are evaluated, and its static fields are
  read after them.
* A function call runs in a new frame inside the frame where the function was made. It is the only
  thing that ends an exit. It is refused when as many function bodies run already as are allowed.
* The right operand of `&&` and `||` is evaluated only if the left one does not decide.
* Loops and conditions are builtins that call functions without a frame of their own.
-/

namespace ScriptConsole

/-- The value of a literal. -/
def Literal.value : Literal → Value
  | int n => .int n
  | long n => .long n
  | float x => .float x
  | char c => .char c
  | text s => .text s
  | bool b => .bool b
  | null => .null

/-- The value of a name in a frame. -/
def lookupName (env : FrameId) (name : String) : Run Value := do
  let found ← .look fun m => m.frames.lookup? env name
  Plain.bound name found

/-- Binds a name in a frame; the result is the value. -/
def defineName (env : FrameId) (name : String) (v : Value) : Run Value :=
  .onFrames fun fs => (v, fs.define env name v)

/-- The text of a function. -/
def Closure.describe (f : Closure) : String :=
  "<fn(" ++ String.intercalate ", " f.params ++ ")>"

/-- Binds parameters to arguments in a frame. -/
def bindAll (fs : Frames) (h : FrameId) : List String → List Value → Frames
  | name :: names, v :: values => bindAll (fs.define h name v) h names values
  | _, _ => fs

/-- A new frame for a call of a function, with its parameters bound. -/
def enter (f : Closure) (args : List Value) : Run FrameId :=
  .onFrames fun fs =>
    let (h, fs) := fs.newChild f.frame
    (h, bindAll fs h f.params args)

/-- An operator between two values, as a step. -/
def applyBinary (registry : Registry) (op : BinaryOp) (a b : Value) : Run Value := do
  let result ← .look fun m => Value.binary (registry.legend m.world) op a b
  .ofExcept result

/-- What the left operand decides on its own. -/
def shortCircuit? (op : BinaryOp) (left : Value) : Option Value :=
  match op with
  | .bothAnd => if left.truthy then none else some (.bool false)
  | .eitherOr => if left.truthy then some (.bool true) else none
  | _ => none

mutual

/-- The value of an expression in a frame. -/
def evalExpr (st : Setting) : (fuel : Nat) → FrameId → Expr → Run Value
  | 0, _, _ => .stop .exhausted
  | fuel + 1, env, e =>
    match e with
    | .literal l _ => pure l.value
    | .var name => lookupName env name.text
    | .assign name value _ => do
      let v ← evalExpr st fuel env value
      defineName env name.text v
    | .func params body _ =>
      .onWorld fun w => w.newFunction (params.map Ident.text) body env
    | .call callee args _ => evalCall st fuel env callee args
    | .hostPath segments _ => HostAccess.readPath st.registry (segments.map Ident.text)
    | .member target name _ => do
      let v ← evalExpr st fuel env target
      HostAccess.member st.registry v name.text
    | .unary op operand _ => do
      let v ← evalExpr st fuel env operand
      .ofExcept (Value.unary op v)
    | .binary left op right _ => do
      let a ← evalExpr st fuel env left
      match shortCircuit? op a with
      | some v => pure v
      | none =>
        let b ← evalExpr st fuel env right
        applyBinary st.registry op a b
    | .paren inner _ => evalExpr st fuel env inner

/-- The values of arguments, from left to right. -/
def evalArgs (st : Setting) : (fuel : Nat) → FrameId → List Expr → Run (List Value)
  | 0, _, _ => .stop .exhausted
  | fuel + 1, env, args =>
    match args with
    | [] => pure []
    | e :: rest => do
      let v ← evalExpr st fuel env e
      let vs ← evalArgs st fuel env rest
      pure (v :: vs)

/-- The result of a call expression. -/
def evalCall (st : Setting) : (fuel : Nat) → FrameId → Expr → List Expr → Run Value
  | 0, _, _, _ => .stop .exhausted
  | fuel + 1, env, callee, args =>
    match callee with
    | .member target name _ => do
      let target ← evalExpr st fuel env target
      let args ← evalArgs st fuel env args
      HostAccess.invoke st.registry target name.text args
    | .hostPath segments _ => do
      let names := segments.map Ident.text
      let (ref, used) ← .ofExcept (st.registry.resolvePath names)
      let args ← evalArgs st fuel env args
      HostAccess.callPath st.registry ref (names.drop used) args
    | callee => do
      let f ← evalExpr st fuel env callee
      let args ← evalArgs st fuel env args
      callValue st fuel env f args

/-- The value of the last of some statements, or `last` if there are none. -/
def evalBody (st : Setting) : (fuel : Nat) → FrameId → (last : Value) → List Expr → Run Value
  | 0, _, _, _ => .stop .exhausted
  | fuel + 1, env, last, body =>
    match body with
    | [] => pure last
    | e :: rest => do
      let v ← evalExpr st fuel env e
      evalBody st fuel env v rest

/-- The result of calling a value. `env` is the frame of the caller, which builtins can see. -/
def callValue (st : Setting) : (fuel : Nat) → FrameId → Value → List Value → Run Value
  | 0, _, _, _ => .stop .exhausted
  | fuel + 1, env, callee, args =>
    match callee with
    | .function f => callClosure st fuel f args
    | .builtin b =>
      if b.arity.accepts args.length then callBuiltin st fuel env b args
      else .fault (.arity b.name b.arity.describe args.length)
    | .hostClass ref => HostAccess.construct st.registry ref args
    | other => .fault (.notCallable other.kind)

/-- The result of calling a function. -/
def callClosure (st : Setting) : (fuel : Nat) → Closure → List Value → Run Value
  | 0, _, _ => .stop .exhausted
  | fuel + 1, f, args =>
    if args.length ≠ f.params.length then
      .fault (.arity f.describe (toString f.params.length) args.length)
    else do
      let depth ← .look Machine.depth
      if st.maxDepth ≤ depth then .fault (.callDepth st.maxDepth)
      else
        let frame ← enter f args
        .absorbExit (.deeper (evalBody st fuel frame .null f.body))

/-- The result of calling a builtin with as many arguments as it takes. -/
def callBuiltin (st : Setting) : (fuel : Nat) → FrameId → Builtin → List Value → Run Value
  | 0, _, _, _ => .stop .exhausted
  | fuel + 1, env, b, args =>
    match b, args with
    | .ifTrue, [condition, body] =>
      if condition.truthy then callValue st fuel env body [] else pure .null
    | .ifElse, [condition, body, otherwise] =>
      callValue st fuel env (if condition.truthy then body else otherwise) []
    | .whileTrue, [condition, body] => whileLoop st fuel env condition body
    | .forEach, [sequence, body] => do
      let items ← Plain.elements st.registry sequence
      eachLoop st fuel env body items
    | .tryCatch, [body, handler] =>
      .catchFault (callValue st fuel env body []) fun e => do
        let caught ← match e with
          | .thrown v => pure v
          | e => .onWorld (st.registry.errorObject e)
        callValue st fuel env handler [caught]
    | b, args => Plain.apply st.registry env b args

/-- Calls the body as long as the condition gives a true value. -/
def whileLoop (st : Setting) : (fuel : Nat) → FrameId → (condition body : Value) → Run Value
  | 0, _, _, _ => .stop .exhausted
  | fuel + 1, env, condition, body => do
    let c ← callValue st fuel env condition []
    if c.truthy then
      let _ ← callValue st fuel env body []
      whileLoop st fuel env condition body
    else pure .null

/-- Calls the body with each item in turn. -/
def eachLoop (st : Setting) : (fuel : Nat) → FrameId → (body : Value) → List Value → Run Value
  | 0, _, _, _ => .stop .exhausted
  | fuel + 1, env, body, items =>
    match items with
    | [] => pure .null
    | item :: rest => do
      let _ ← callValue st fuel env body [item]
      eachLoop st fuel env body rest

end

/-- The end of a program: an exit out of all calls is its value. -/
def endProgram (x : Run Value) : Run Value := fun m =>
  match x m with
  | (.error (.exit _ v), m) => (.ok v, m)
  | other => other

/-- The value of a program's last statement in a frame. -/
def evalProgram (st : Setting) (fuel : Nat) (env : FrameId) (p : Program) : Run Value :=
  endProgram (evalBody st fuel env .null p.statements)

end ScriptConsole
