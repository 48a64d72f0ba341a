import ScriptConsole.Host.Demo
import ScriptConsole.Host.Scripted
import ScriptConsole.Proofs.Host.Blind

/-!
# Classes That Do Not Look at Code

A class tells no functions apart by where their code stands if each of its parts does not, and a
host if each of its classes does not. A callable that only asks for arguments of certain kinds,
makes objects and lists of what it got, and reads and sets states is such a part.

## Main results

* `Registry.blind_register`: hosts, class by class.
* `Demo.blind_registry`, `Scripted.blind_toHostClass`: the demo world and every scripted class.
-/

namespace ScriptConsole

open Value (AlikeEach)

/-! ### Classes part by part -/

namespace HostClass.Blind

variable {c : HostClass} (hc : c.Blind)

include hc

/-- A constructor that gives alike objects for alike arguments. -/
theorem constructor (params : List ParamType) {run : ClassRef → List Value → HostCall}
    (h : ∀ ref {args args'}, AlikeEach args args' → (run ref args).Alike (run ref args')) :
    (c.constructor params run).Blind :=
  { hc with
    constructors := fun o mem ref {_ _} same => by
      rcases List.mem_append.mp mem with before | new
      · exact hc.constructors o before ref same
      · rw [List.mem_singleton.mp new]
        exact h ref same }

/-- A method that does the same for alike arguments. -/
theorem method (name : String) (params : List ParamType)
    {run : HostObject → List Value → HostCall}
    (h : ∀ self {args args'}, AlikeEach args args' → (run self args).Alike (run self args')) :
    (c.method name params run).Blind :=
  { hc with
    methods := fun {_ _} found o mem self {_ _} same => by
      rcases callable_eq_or_exists found mem with rfl | ⟨before, old, mem⟩
      · exact h self same
      · exact hc.methods old o mem self same }

/-- A static method that does the same for alike arguments. -/
theorem static (name : String) (params : List ParamType) {run : List Value → HostCall}
    (h : ∀ {args args'}, AlikeEach args args' → (run args).Alike (run args')) :
    (c.static name params run).Blind :=
  { hc with
    statics := fun {_ _} found o mem {_ _} same => by
      rcases callable_eq_or_exists found mem with rfl | ⟨before, old, mem⟩
      · exact h same
      · exact hc.statics old o mem same }

/-- A field that reads the same in alike worlds. -/
theorem field (name : String) {read : HostObject → World → Value × World}
    (h : ∀ self {w w' : World}, w.Alike w' → World.AlikeWith (read self w) (read self w')) :
    (c.field name read).Blind :=
  { hc with
    fields := fun {_ _} found self {_ _} same => by
      rcases read_eq_or_found found with rfl | before
      · exact h self same
      · exact hc.fields before self same }

/-- A static field that reads the same in alike worlds. -/
theorem staticField (name : String) {read : World → Value × World}
    (h : ∀ {w w' : World}, w.Alike w' → World.AlikeWith (read w) (read w')) :
    (c.staticField name read).Blind :=
  { hc with
    staticFields := fun {_ _} found {_ _} same => by
      rcases read_eq_or_found found with rfl | before
      · exact h same
      · exact hc.staticFields before same }

/-- A display that looks at the shape of the state alone. -/
theorem shown {display : (Value → String) → ObjectState → String}
    (h : ∀ {show₁ show₂ : Value → String}, (∀ {v v' : Value}, v.Alike v' → show₁ v = show₂ v') →
      ∀ {s s' : ObjectState}, s.shape = s'.shape → display show₁ s = display show₂ s') :
    (c.shown display).Blind :=
  { hc with
    display := fun display' mem {_ _} texts {_ _} same => by
      obtain rfl := Option.some.inj mem
      exact h texts same }

/-- Elements that are alike in states of one shape. -/
theorem iterable {elements : ObjectState → List Value}
    (h : ∀ {s s' : ObjectState}, s.shape = s'.shape → AlikeEach (elements s) (elements s')) :
    (c.iterable elements).Blind :=
  { hc with
    elements := fun elements' mem {_ _} same => by
      obtain rfl := Option.some.inj mem
      exact h same }

end HostClass.Blind

/-! ### Registries class by class -/

namespace Registry

/-- A host without classes has nothing to tell functions apart with. -/
theorem blind_empty : empty.Blind := fun ref => HostClass.blind_named ref.name

/-- A blind host stays blind with another blind class. -/
theorem blind_register {r : Registry} (h : r.Blind) {c : HostClass} (hc : c.Blind) :
    (r.register c).Blind := by
  intro ref
  rw [hostClass_register]
  split
  · exact hc
  · exact h ref

end Registry

/-! ### Arguments and calls -/

/-- Whether two looks at an argument give related things, or the same error. -/
inductive AlikeGiven {α : Type} (R : α → α → Prop) :
    Except HostError α → Except HostError α → Prop
  | ok {a b : α} : R a b → AlikeGiven R (.ok a) (.ok b)
  | error (e : HostError) : AlikeGiven R (.error e) (.error e)

/-- Where alike means equal, alike results are equal. -/
theorem AlikeGiven.eq {α : Type} {r q : Except HostError α} (h : AlikeGiven Eq r q) : r = q := by
  cases h with
  | ok same => rw [same]
  | error e => rfl

namespace Arguments

variable {args args' : List Value} (h : AlikeEach args args') (i : Nat)

include h

/-- An integer argument carries no places. -/
theorem int_eq : int args i = int args' i := by
  have through : ∀ args, int (args.map Value.shape) i = int args i := by
    intro args
    unfold int
    rw [List.getElem?_map]
    cases args[i]? with
    | none => rfl
    | some v => cases v <;> rfl
  rw [← through args, h, through]

/-- A floating-point argument carries no places. -/
theorem float_eq : float args i = float args' i := by
  have through : ∀ args, float (args.map Value.shape) i = float args i := by
    intro args
    unfold float
    rw [List.getElem?_map]
    cases args[i]? with
    | none => rfl
    | some v => cases v <;> rfl
  rw [← through args, h, through]

/-- A text argument carries no places. -/
theorem text_eq : text args i = text args' i := by
  have through : ∀ args, text (args.map Value.shape) i = text args i := by
    intro args
    unfold text
    rw [List.getElem?_map]
    cases args[i]? with
    | none => rfl
    | some v => cases v <;> rfl
  rw [← through args, h, through]

/-- An object argument is seen through a view that looks at its shape alone. -/
theorem alike_object {α : Type} {R : α → α → Prop} {view : ObjectState → Option α}
    (viewed : ∀ {s s' : ObjectState}, s.shape = s'.shape → Option.Rel R (view s) (view s'))
    {w w' : World} (alike : w.Alike w') :
    AlikeGiven R (object view args i w) (object view args' i w') := by
  have found := h.getElem? i
  unfold object
  generalize args[i]? = first, args'[i]? = second at found
  cases first with
  | none =>
      cases second with
      | none => exact .error _
      | some v' => cases found
  | some v =>
      cases second with
      | none => cases found
      | some v' =>
          have same : v.Alike v' := Option.some.inj found
          rcases same.cases with ⟨_, _, _, rfl, rfl, -⟩ | ⟨f, f', rfl, rfl, -⟩ | rfl
          · exact .error _
          · exact .error _
          · cases v with
            | object o c =>
                dsimp only
                have views := viewed (alike.state o)
                generalize view (w.state o) = a, view (w'.state o) = b at views
                cases views with
                | none => exact .error _
                | some related => exact .ok related
            | _ => exact .error _

end Arguments

namespace HostCall

/-- Answers of one shape. -/
theorem alike_answer {r q : Except HostError Value} (h : r.map Value.shape = q.map Value.shape) :
    (answer r).Alike (answer q) :=
  fun _ _ alike => ⟨h, alike⟩

/-- Answers that depend on the world up to places. -/
theorem alike_inspect {f g : World → Except HostError Value}
    (h : ∀ {w w' : World}, w.Alike w' → f w = g w') : (inspect f).Alike (inspect g) :=
  fun _ _ alike => ⟨congrArg _ (h alike), alike⟩

/-- A call that never fails. -/
theorem alike_done {a b : Value × World} (h : World.AlikeWith a b) :
    AlikeOutcomes (done a) (done b) :=
  ⟨congrArg Except.ok h.value, h.world⟩

end HostCall

/-- States of one shape differ in the fields of a scripted object or not at all. -/
theorem ObjectState.cases_of_shape_eq {s s' : ObjectState} (h : s.shape = s'.shape) :
    (∃ values values', s = fields values ∧ s' = fields values' ∧ AlikeEach values values') ∨
      s = s' := by
  cases s with
  | fields values =>
      cases s' with
      | fields values' => exact .inl ⟨values, values', rfl, rfl, ObjectState.fields.inj h⟩
      | _ => cases h
  | _ =>
      refine .inr ?_
      cases s' <;> cases h
      all_goals rfl

/-- What makes no difference between scripted objects goes by the shape of a state. -/
theorem ObjectState.eq_of_shape_eq {α : Type} {f : ObjectState → α}
    (scripted : ∀ values values' : List Value, f (.fields values) = f (.fields values'))
    {s s' : ObjectState} (h : s.shape = s'.shape) : f s = f s' := by
  rcases cases_of_shape_eq h with ⟨values, values', rfl, rfl, -⟩ | rfl
  · exact scripted values values'
  · rfl

/-! ### The class of caught errors -/

namespace Registry

/-- Errors are shown by their texts. -/
theorem blind_errorClass : errorClass.Blind := by
  refine .shown (.field (.field (HostClass.blind_named _) _ ?_) _ ?_) ?_
  · intro o w w' alike
    refine ⟨congrArg Value.shape ?_, alike⟩
    rcases ObjectState.cases_of_shape_eq (alike.state o.id) with ⟨_, _, first, second, -⟩ | same
    · rw [first, second]
    · rw [same]
  · intro o w w' alike
    refine ⟨congrArg Value.shape ?_, alike⟩
    rcases ObjectState.cases_of_shape_eq (alike.state o.id) with ⟨_, _, first, second, -⟩ | same
    · rw [first, second]
    · rw [same]
  · intro _ _ _ s s' h
    rcases ObjectState.cases_of_shape_eq h with ⟨_, _, rfl, rfl, -⟩ | rfl
    · rfl
    · rfl

/-- The host with the class of errors alone. -/
theorem blind_basic : basic.Blind := blind_register blind_empty blind_errorClass

end Registry

/-! ### The demo world -/

namespace Demo

/-- What follows an argument that carries no places. -/
theorem alike_given {α : Type} (result : Except HostError α) {next next' : α → HostCall}
    (h : ∀ a, (next a).Alike (next' a)) : (given result next).Alike (given result next') := by
  cases result with
  | ok a => exact h a
  | error e => exact HostCall.alike_answer rfl

/-- Whether a state is that of a point shows in its shape. -/
theorem vec2?_eq {s s' : ObjectState} (h : s.shape = s'.shape) : vec2? s = vec2? s' :=
  ObjectState.eq_of_shape_eq (fun _ _ => rfl) h

/-- The point in a state shows in its shape. -/
theorem vec2Of_eq {s s' : ObjectState} (h : s.shape = s'.shape) : vec2Of s = vec2Of s' := by
  rw [vec2Of, vec2?_eq h, vec2Of]

/-- Whether a state is that of a player shows in its shape. -/
theorem player?_eq {s s' : ObjectState} (h : s.shape = s'.shape) : player? s = player? s' :=
  ObjectState.eq_of_shape_eq (fun _ _ => rfl) h

/-- A new point holds no functions. -/
theorem alike_newVec2 (c : ClassRef) (v : Vec2) : (newVec2 c v).Alike (newVec2 c v) :=
  fun _ _ alike => HostCall.alike_done (alike.newObject c rfl)

section

variable {args args' : List Value} (same : AlikeEach args args')

include same

/-- The coordinates in two arguments carry no places. -/
theorem vec2Arguments_eq : vec2Arguments args = vec2Arguments args' := by
  simp only [vec2Arguments, Arguments.float_eq same]

/-- Neither does a point as an argument. -/
theorem vec2Argument_eq {w w' : World} (alike : w.Alike w') :
    vec2Argument args w = vec2Argument args' w' :=
  (Arguments.alike_object same 0 (fun {s s'} h => by
    rw [vec2?_eq h]
    cases vec2? s' with
    | none => exact .none
    | some v => exact .some rfl) alike).eq

end

/-- The class of points. -/
theorem blind_vec2Class : vec2Class.Blind := by
  refine .iterable (.shown (.method (.method (.method (.field (.field (.constructor
    (HostClass.blind_named _) _ ?new) _ ?x) _ ?y) _ _ ?add) _ _ ?scale) _ _ ?length) ?shown) ?items
  case new =>
    intro c args args' same
    rw [vec2Arguments_eq same]
    exact alike_given _ (alike_newVec2 c)
  case x =>
    intro o w w' alike
    exact ⟨congrArg (fun v : Vec2 => (Value.float v.x).shape) (vec2Of_eq (alike.state _)), alike⟩
  case y =>
    intro o w w' alike
    exact ⟨congrArg (fun v : Vec2 => (Value.float v.y).shape) (vec2Of_eq (alike.state _)), alike⟩
  case add =>
    intro o args args' same w w' alike
    beta_reduce
    rw [vec2Argument_eq same alike, vec2Of_eq (alike.state _)]
    exact alike_given _ (fun _ => alike_newVec2 _ _) alike
  case scale =>
    intro o args args' same w w' alike
    beta_reduce
    rw [Arguments.float_eq same, vec2Of_eq (alike.state _)]
    exact alike_given _ (fun _ => alike_newVec2 _ _) alike
  case length =>
    intro o args args' same
    exact HostCall.alike_inspect fun alike => by rw [vec2Of_eq (alike.state _)]
  case shown =>
    intro _ _ _ s s' same
    rw [vec2Of_eq same]
  case items =>
    intro s s' same
    rw [vec2Of_eq same]
    rfl

/-- The player behind an object is the same in alike worlds. -/
theorem playerOf_eq (o : HostObject) {w w' : World} (alike : w.Alike w') :
    playerOf o w = playerOf o w' := by
  rw [playerOf, player?_eq (alike.state _), playerOf]

/-- A change of health is the same in alike worlds. -/
theorem alike_setHealth (o : HostObject) (p : Player) (health : Int32) :
    (setHealth o p health).Alike (setHealth o p health) :=
  fun _ _ alike => ⟨rfl, alike.setState o.id rfl⟩

/-- So is a move. -/
theorem alike_move (vec2Ref : ClassRef) (o : HostObject) (delta : Vec2) :
    (move vec2Ref o delta).Alike (move vec2Ref o delta) := by
  intro w w' alike
  unfold move
  rw [playerOf_eq o alike]
  refine alike_given _ (fun p w w' alike => ?_) alike
  exact alike_newVec2 vec2Ref _ (alike.setState o.id rfl)

/-- So is the reading of a field. -/
theorem alike_playerField (read : Player → Value) (o : HostObject) {w w' : World}
    (alike : w.Alike w') : World.AlikeWith (playerField read o w) (playerField read o w') := by
  unfold playerField
  rw [player?_eq (alike.state _)]
  split
  · exact ⟨rfl, alike⟩
  · exact ⟨rfl, alike⟩

/-- The class of players. -/
theorem blind_playerClass (vec2Ref : ClassRef) : (playerClass vec2Ref).Blind := by
  refine .shown (.method (.method (.method (.method (.field (.field (.field (.field (.static
    (.constructor (HostClass.blind_named _) _ ?new) _ _ ?count) _ ?name) _ ?health) _ ?alive) _
    ?position) _ _ ?damage) _ _ ?heal) _ _ ?moveBy) _ _ ?moveByPoint) ?shown
  case new =>
    intro c args args' same
    unfold newPlayer
    rw [Arguments.text_eq same]
    refine alike_given _ fun name w w' alike => ?_
    split
    · exact ⟨rfl, alike⟩
    · have counted : World.Alike { w with players := w.players + 1 }
          { w' with players := w'.players + 1 } :=
        ⟨alike.objects, congrArg (· + 1) alike.players, alike.nextIdentity⟩
      exact HostCall.alike_done (counted.newObject c rfl)
  case count =>
    intro args args' _
    exact HostCall.alike_inspect fun alike => by rw [alike.players]
  case name => exact fun o _ _ alike => alike_playerField _ o alike
  case health => exact fun o _ _ alike => alike_playerField _ o alike
  case alive =>
    intro o w w' alike
    rw [player?_eq (alike.state _)]
    split
    · exact ⟨rfl, alike⟩
    · exact ⟨rfl, alike⟩
  case position =>
    intro o w w' alike
    rw [player?_eq (alike.state _)]
    split
    · exact alike.newObject vec2Ref rfl
    · exact ⟨rfl, alike⟩
  case damage =>
    intro o args args' same w w' alike
    unfold damage
    rw [playerOf_eq o alike, Arguments.int_eq same]
    refine alike_given _ (fun p => alike_given _ fun amount => ?_) alike
    split
    · exact HostCall.alike_answer rfl
    · exact alike_setHealth o p _
  case heal =>
    intro o args args' same w w' alike
    unfold heal
    rw [playerOf_eq o alike, Arguments.int_eq same]
    exact alike_given _ (fun p => alike_given _ fun amount => alike_setHealth o p _) alike
  case moveBy =>
    intro o args args' same
    rw [vec2Arguments_eq same]
    exact alike_given _ (alike_move vec2Ref o)
  case moveByPoint =>
    intro o args args' same w w' alike
    beta_reduce
    rw [vec2Argument_eq same alike]
    exact alike_given _ (alike_move vec2Ref o) alike
  case shown =>
    intro _ _ _ s s' same
    rw [player?_eq same]

/-- The class of numeric functions. -/
theorem blind_mathClass : mathClass.Blind := by
  refine .static (.static (.static (.static (.static (.static (.static (.staticField
    (HostClass.blind_named _) _ ?pi) _ _ ?absInt) _ _ ?absFloat) _ _ ?maxInt) _ _ ?maxFloat) _ _
    ?signLong) _ _ ?signFloat) _ _ ?sqrt
  case pi => exact fun alike => ⟨rfl, alike⟩
  case signLong =>
    intro args args' same
    have first : args.head?.bind Value.toInt64? = args'.head?.bind Value.toInt64? := by
      rcases same.forall₂ with _ | ⟨first, _⟩
      · rfl
      · exact first.toInt64?_eq
    rw [first]
    exact HostCall.alike_answer rfl
  all_goals
    intro args args' same
    refine HostCall.alike_answer ?_
    simp only [Arguments.int_eq same, Arguments.float_eq same]

/-- The demo world does not look at code. -/
theorem blind_registry : registry.Blind :=
  Registry.blind_register (Registry.blind_register (Registry.blind_register Registry.blind_basic
    blind_vec2Class) (blind_playerClass _)) blind_mathClass

end Demo

/-! ### Scripted classes -/

namespace Scripted

/-- What an object of the script's own fields holds, place by place. -/
theorem alike_fieldsOf {s s' : ObjectState} (h : s.shape = s'.shape) :
    AlikeEach (fieldsOf s) (fieldsOf s') := by
  rcases ObjectState.cases_of_shape_eq h with ⟨_, _, rfl, rfl, same⟩ | rfl
  · exact same
  · rfl

/-- Whether a state is one of fields shows in its shape. -/
theorem alike_fields? {s s' : ObjectState} (h : s.shape = s'.shape) :
    Option.Rel AlikeEach (fields? s) (fields? s') := by
  rcases ObjectState.cases_of_shape_eq h with ⟨_, _, rfl, rfl, same⟩ | rfl
  · exact .some same
  · cases fields? s with
    | none => exact .none
    | some values => exact .some rfl

/-- A call that makes a list of alike elements. -/
theorem alike_listCall {items items' : List Value} (h : AlikeEach items items') :
    (listCall items).Alike (listCall items') :=
  fun _ _ alike => HostCall.alike_done (alike.newList h)

/-- A scripted action does the same for alike arguments, by cases on the action. -/
theorem Action.alike_run (self : Option HostObject) {args args' : List Value}
    (same : AlikeEach args args') (action : Action) :
    (action.run self args).Alike (action.run self args') := by
  cases action with
  | echo tag => exact alike_listCall (congrArg (_ :: ·) same)
  | fail text => exact HostCall.alike_answer rfl
  | bad text => exact HostCall.alike_answer rfl
  | self => exact HostCall.alike_answer rfl
  | state =>
      intro w w' alike
      cases self with
      | none => exact alike_listCall rfl alike
      | some o => exact alike_listCall (alike_fieldsOf (alike.state o.id)) alike
  | set =>
      intro w w' alike
      cases self with
      | none => exact ⟨rfl, alike⟩
      | some o =>
          have views := alike_fields? (alike.state o.id)
          simp only [Action.run]
          generalize fields? (w.state o.id) = a, fields? (w'.state o.id) = b at views
          cases views with
          | none => exact ⟨rfl, alike⟩
          | some _ => exact ⟨rfl, alike.setState o.id (congrArg ObjectState.fields same)⟩
  | argInt i =>
      refine HostCall.alike_answer ?_
      rw [Arguments.int_eq same]
  | argFloat i =>
      refine HostCall.alike_answer ?_
      rw [Arguments.float_eq same]
  | argText i =>
      refine HostCall.alike_answer ?_
      rw [Arguments.text_eq same]
  | argObject i =>
      intro w w' alike
      have views := Arguments.alike_object same i alike_fields? alike
      simp only [Action.run]
      generalize Arguments.object fields? args i w = a, Arguments.object fields? args' i w' = b
        at views
      cases views with
      | ok items => exact alike_listCall items alike
      | error e => exact ⟨rfl, alike⟩
  | nothing => exact HostCall.alike_answer rfl

/-- What each of some additions keeps, all of them keep. -/
theorem foldl_kept {α β : Type} {P : α → Prop} {f : α → β → α} (kept : ∀ {a}, P a → ∀ b, P (f a b))
    {a : α} (h : P a) (items : List β) : P (items.foldl f a) := by
  induction items generalizing a with
  | nil => exact h
  | cons b rest ih => exact ih (kept h b)

/-- No scripted class looks at code. -/
theorem blind_toHostClass (spec : ClassSpec) : spec.toHostClass.Blind := by
  have shown : ∀ text : String, ∀ {show₁ show₂ : Value → String},
      (∀ {v v' : Value}, v.Alike v' → show₁ v = show₂ v') →
      ∀ {s s' : ObjectState}, s.shape = s'.shape →
      text ++ "[" ++ String.intercalate ", " ((fieldsOf s).map show₁) ++ "]" =
        text ++ "[" ++ String.intercalate ", " ((fieldsOf s').map show₂) ++ "]" := by
    intro text show₁ show₂ texts s s' same
    have each : ∀ {items items' : List Value}, List.Forall₂ Value.Alike items items' →
        items.map show₁ = items'.map show₂ := by
      intro items items' related
      induction related with
      | nil => rfl
      | cons first _ ih => rw [List.map_cons, List.map_cons, texts first, ih]
    rw [each (alike_fieldsOf same).forall₂]
  -- the class is built up in the order of its specification, blind at every stage
  unfold ClassSpec.toHostClass
  extract_lets named constructed methodical static readable fields displayed
  have constructed : constructed.Blind :=
    foldl_kept (fun h params => h.constructor _ fun ref _ _ same _ _ alike =>
      HostCall.alike_done (alike.newObject ref (congrArg ObjectState.fields same)))
      (HostClass.blind_named _) _
  have methodical : methodical.Blind :=
    foldl_kept (fun h m => h.method _ _ fun o _ _ same => Action.alike_run (some o) same m.action)
      constructed _
  have static : static.Blind :=
    foldl_kept (fun h m => h.static _ _ fun same => Action.alike_run none same m.action)
      methodical _
  have readable : readable.Blind := by
    refine foldl_kept (fun h entry => h.field _ ?_) static _
    intro o w w' alike
    refine ⟨?_, alike⟩
    have found := (alike_fieldsOf (alike.state o.id)).getElem? entry.2
    generalize (fieldsOf (w.state o.id))[entry.2]? = a,
      (fieldsOf (w'.state o.id))[entry.2]? = b at found
    cases a <;> cases b
    · rfl
    · cases found
    · cases found
    · exact Option.some.inj found
  have fields : fields.Blind :=
    foldl_kept (fun h entry => h.staticField _ fun alike => ⟨rfl, alike⟩) readable _
  have displayed : displayed.Blind := by
    dsimp only [displayed]
    split
    · exact fields.shown (shown _)
    · exact fields
  split
  · exact displayed.iterable alike_fieldsOf
  · exact displayed

end Scripted

end ScriptConsole
