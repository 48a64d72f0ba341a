import ScriptConsole.Proofs.Syntax.Written

/-!
# The Tokens of a Node

The tree of a program has expressions and names as its nodes. A node is written with tokens of its
own and with the nodes inside it, in the order of the source (`Node.parts`). Tokens **spell** a row
of parts if they are those parts one after the other, where a node takes a run of tokens that spells
its own parts and that its span covers, from the start of the first to the end of the last. So the
spans of all nodes are exact, down to the leaves, as soon as the parts of the whole are spelled.

## Main results

* `Spells.kinds_eq`: the tokens that spell parts are their written form.
* `Spells.of_below`: every node has its own run of tokens.
* `Spells.apart`, `Spelled.inside`: the nodes in a row stand one behind the other, inside the node
  around them, if the tokens stand in order.
-/

namespace ScriptConsole

open Token (Kind)

/-! ### Nodes and their parts -/

/-- A node of the tree of a program. -/
inductive Node where
  | expr (e : Expr)
  | name (n : Ident)

/-- What a node is written with. -/
inductive Part where
  | token (k : Kind)
  | node (n : Node)

/-- A symbol, as a part. -/
def Part.symbol (s : Token.Symbol) : Part := .token (.symbol s)

/-- The node that a part is. -/
def Part.node? : Part → Option Node
  | token _ => none
  | node n => some n

/-- Nodes with commas between them. -/
def listed : List Node → List Part
  | [] => []
  | [one] => [.node one]
  | one :: more => .node one :: .symbol .comma :: listed more

/-- Statements with a semicolon behind each. -/
def closedOff (body : List Expr) : List Part :=
  body.flatMap fun e => [.node (.expr e), .symbol .semicolon]

/-- The segments of a path with a dot before each. -/
def dotted (names : List Ident) : List Part :=
  names.flatMap fun n => [.symbol .dot, .node (.name n)]

namespace Node

/-- The span of a node. -/
def span : Node → Span
  | expr e => e.span
  | name n => n.span

/-- The written form of a node. -/
def written : Node → List Kind
  | expr e => e.written
  | name n => n.written

/-- What a node is written with, in order. -/
def parts : Node → List Part
  | name n => [.token (.name n.text)]
  | expr (.literal v _) => [.token (.literal v)]
  | expr (.var n) => [.node (.name n)]
  | expr (.assign n value _) => [.node (.name n), .symbol .assign, .node (.expr value)]
  | expr (.func params body _) =>
    .symbol .leftParen :: (listed (params.map .name) ++ .symbol .rightParen :: .symbol .leftBrace ::
      (closedOff body ++ [.symbol .rightBrace]))
  | expr (.call callee args _) =>
    .node (.expr callee) :: .symbol .leftParen ::
      (listed (args.map .expr) ++ [.symbol .rightParen])
  | expr (.hostPath segments _) => dotted segments
  | expr (.member target n _) => [.node (.expr target), .symbol .dot, .node (.name n)]
  | expr (.unary op operand _) => [.symbol op.token, .node (.expr operand)]
  | expr (.binary left op right _) =>
    [.node (.expr left), .symbol op.token, .node (.expr right)]
  | expr (.paren inner _) => [.symbol .leftParen, .node (.expr inner), .symbol .rightParen]

/-- The nodes right inside a node, in order. -/
def children (n : Node) : List Node := n.parts.filterMap Part.node?

/-- Whether a node is one of some nodes or inside one of them, at any depth. -/
inductive Below (roots : List Node) : Node → Prop
  | root {n : Node} : n ∈ roots → Below roots n
  | child {n m : Node} : Below roots n → m ∈ n.children → Below roots m

end Node

/-! ### Tokens that spell parts -/

/-- Whether a span goes from the start of the first of some tokens to the end of the last. -/
def Covers (s : Span) (run : List Token) : Prop :=
  ∃ first last, run.head? = some first ∧ run.getLast? = some last ∧
    s = ⟨first.span.start, last.span.stop⟩

/-- Whether tokens are those of some parts one after the other, with exact spans in all nodes. -/
inductive Spells : List Token → List Part → Prop
  | nil : Spells [] []
  | token {t : Token} {ts : List Token} {ps : List Part} :
      Spells ts ps → Spells (t :: ts) (.token t.kind :: ps)
  | node {run ts : List Token} {n : Node} {ps : List Part} :
      Spells run n.parts → Covers n.span run → Spells ts ps → Spells (run ++ ts) (.node n :: ps)

/-- Whether a run of tokens is that of a node. -/
structure Spelled (run : List Token) (n : Node) : Prop where
  parts : Spells run n.parts
  covers : Covers n.span run

/-- Whether tokens stand one behind the other. -/
structure InOrder (tokens : List Token) : Prop where
  apart : tokens.Pairwise fun t u => t.span.stop ≤ u.span.start
  forward : ∀ t ∈ tokens, t.span.start ≤ t.span.stop

namespace InOrder

variable {front back : List Token}

/-- The tokens in front are in order. -/
theorem left (h : InOrder (front ++ back)) : InOrder front :=
  ⟨(List.pairwise_append.mp h.apart).1, fun t mem => h.forward t (List.mem_append_left _ mem)⟩

/-- So are those behind. -/
theorem right (h : InOrder (front ++ back)) : InOrder back :=
  ⟨(List.pairwise_append.mp h.apart).2.1, fun t mem => h.forward t (List.mem_append_right _ mem)⟩

/-- So are those behind the first. -/
theorem tail {t : Token} (h : InOrder (t :: back)) : InOrder back := @right [t] back h

/-- So are some of them with one behind. -/
theorem linked {own : List Token} {t : Token} (h : InOrder (front ++ t :: (own ++ back))) :
    InOrder (front ++ ([t] ++ own)) := by
  have same : front ++ t :: (own ++ back) = front ++ ([t] ++ own) ++ back := by simp
  rw [same] at h
  exact h.left

/-- A token in front ends where one behind starts, or before. -/
theorem across (h : InOrder (front ++ back)) {t u : Token} (ht : t ∈ front) (hu : u ∈ back) :
    t.span.stop ≤ u.span.start :=
  (List.pairwise_append.mp h.apart).2.2 t ht u hu

end InOrder

namespace Covers

variable {s u : Span} {run m run' : List Token}

/-- A token covers itself. -/
theorem single (t : Token) : Covers t.span [t] := ⟨t, t, rfl, rfl, rfl⟩

/-- From the start of one run to the end of another one behind it. -/
theorem hull (h : Covers s run) (h' : Covers u run') :
    Covers ⟨s.start, u.stop⟩ (run ++ (m ++ run')) := by
  obtain ⟨first, -, hfirst, -, rfl⟩ := h
  obtain ⟨-, last, -, hlast, rfl⟩ := h'
  refine ⟨first, last, ?_, ?_, rfl⟩
  · rw [List.head?_append, hfirst]
    rfl
  · rw [List.getLast?_append, List.getLast?_append, hlast]
    rfl

/-- Two tokens cover what is between them. -/
theorem between (start : Token) (mid : List Token) (close : Token) :
    Covers ⟨start.span.start, close.span.stop⟩ (start :: (mid ++ [close])) :=
  (single start).hull (single close)

/-- A span that covers tokens in order goes around each of them. -/
theorem around (h : Covers s run) (ordered : InOrder run) {t : Token} (mem : t ∈ run) :
    s.start ≤ t.span.start ∧ t.span.stop ≤ s.stop := by
  obtain ⟨first, last, hfirst, hlast, rfl⟩ := h
  obtain ⟨more, rfl⟩ := List.head?_eq_some_iff.mp hfirst
  obtain ⟨front, hfront⟩ := List.getLast?_eq_some_iff.mp hlast
  have far := ordered.forward
  constructor
  · rcases List.mem_cons.mp mem with rfl | behind
    · exact Nat.le_refl _
    · have := (List.pairwise_cons.mp ordered.apart).1 t behind
      exact Nat.le_trans (far first List.mem_cons_self) this
  · rw [hfront] at mem ordered far
    rcases List.mem_append.mp mem with before | here
    · have := ordered.across before (List.mem_singleton_self last)
      have onward := far last (List.mem_append_right _ (List.mem_singleton_self last))
      exact Nat.le_trans this onward
    · obtain rfl := List.mem_singleton.mp here
      exact Nat.le_refl _

/-- A span that covers a part of the tokens is inside one that covers all. -/
theorem mono (h : Covers s run) (ordered : InOrder run) {own : List Token}
    (sub : ∀ t ∈ own, t ∈ run) (h' : Covers u own) : s.start ≤ u.start ∧ u.stop ≤ s.stop := by
  obtain ⟨first, last, hfirst, hlast, rfl⟩ := h'
  have first_mem := sub first (List.mem_of_head? hfirst)
  have last_mem := sub last (List.mem_of_getLast? hlast)
  exact ⟨(h.around ordered first_mem).1, (h.around ordered last_mem).2⟩

/-- Spans that cover tokens in front and behind stand in that order. -/
theorem stop_le_start (h : Covers s run) (h' : Covers u run') {front back : List Token}
    (ordered : InOrder (front ++ back)) (sub : ∀ t ∈ run, t ∈ front)
    (sub' : ∀ t ∈ run', t ∈ back) : s.stop ≤ u.start := by
  obtain ⟨-, last, -, hlast, rfl⟩ := h
  obtain ⟨first, -, hfirst, -, rfl⟩ := h'
  exact ordered.across (sub last (List.mem_of_getLast? hlast))
    (sub' first (List.mem_of_head? hfirst))

/-- The smallest span around two that cover tokens in order. -/
theorem join (h : Covers s run) (h' : Covers u run') (ordered : InOrder (run ++ (m ++ run'))) :
    Covers (s.join u) (run ++ (m ++ run')) := by
  have all := h.hull (m := m) h'
  have stops : s.stop ≤ u.stop :=
    (all.mono ordered (fun t mem => List.mem_append_left _ mem) h).2
  have starts : s.start ≤ u.start :=
    (all.mono ordered (fun t mem => List.mem_append_right _ (List.mem_append_right _ mem)) h').1
  rw [Span.join_of_ordered starts stops]
  exact all

end Covers

namespace Spells

variable {ts us : List Token} {ps qs : List Part}

/-- Parts behind parts are spelled by tokens behind tokens. -/
theorem append (h : Spells ts ps) (h' : Spells us qs) : Spells (ts ++ us) (ps ++ qs) := by
  induction h with
  | nil => exact h'
  | token _ ih => exact .token ih
  | node parts covers _ _ ih =>
      rw [List.append_assoc]
      exact .node parts covers ih

/-- A token spells its kind. -/
theorem one {t : Token} {k : Kind} (kind : t.kind = k) : Spells [t] [.token k] := by
  rw [← kind]
  exact .token .nil

/-- A node is spelled as a part. -/
theorem of_node {n : Node} (h : Spelled ts n) : Spells ts [.node n] := by
  have alone := Spells.node h.parts h.covers .nil
  rwa [List.append_nil] at alone

/-- A node among the parts has its own run among the tokens. -/
theorem exists_run (h : Spells ts ps) {n : Node} (mem : .node n ∈ ps) :
    ∃ before own behind, ts = before ++ own ++ behind ∧ Spelled own n := by
  induction h with
  | nil => exact absurd mem List.not_mem_nil
  | @token t _ _ _ ih =>
      obtain ⟨before, own, behind, rfl, spelled⟩ := ih ((List.mem_cons.mp mem).resolve_left nofun)
      exact ⟨t :: before, own, behind, rfl, spelled⟩
  | @node run ts _ _ parts covers _ _ ih =>
      rcases List.mem_cons.mp mem with here | more
      · cases here
        exact ⟨[], run, ts, rfl, parts, covers⟩
      · obtain ⟨before, own, behind, rfl, spelled⟩ := ih more
        exact ⟨run ++ before, own, behind, by simp, spelled⟩

/-- The nodes among some parts. -/
theorem mem_node?_iff {n : Node} : n ∈ ps.filterMap Part.node? ↔ .node n ∈ ps := by
  rw [List.mem_filterMap]
  constructor
  · rintro ⟨_ | m, mem, same⟩
    · cases same
    · cases same
      exact mem
  · exact fun mem => ⟨_, mem, rfl⟩

/-- So has every node inside it. -/
theorem of_below (h : Spells ts ps) {n : Node} (below : Node.Below (ps.filterMap Part.node?) n) :
    ∃ before own behind, ts = before ++ own ++ behind ∧ Spelled own n := by
  induction below with
  | root mem => exact h.exists_run (mem_node?_iff.mp mem)
  | child _ mem ih =>
      obtain ⟨before, own, behind, rfl, spelled⟩ := ih
      obtain ⟨before', own', behind', rfl, spelled'⟩ :=
        spelled.parts.exists_run (mem_node?_iff.mp mem)
      exact ⟨before ++ before', own', behind' ++ behind, by simp, spelled'⟩

/-- The nodes in a row of parts stand one behind the other. -/
theorem apart (h : Spells ts ps) (ordered : InOrder ts) :
    (ps.filterMap Part.node?).Pairwise fun m n => m.span.stop ≤ n.span.start := by
  induction h with
  | nil => exact .nil
  | @token t _ _ _ ih =>
      exact ih ordered.tail
  | @node run ts n _ parts covers more _ ih =>
      refine List.pairwise_cons.mpr ⟨fun m mem => ?_, ih ordered.right⟩
      obtain ⟨before, own, behind, rfl, spelled⟩ := more.exists_run (mem_node?_iff.mp mem)
      refine covers.stop_le_start spelled.covers ordered (fun _ mem => mem) fun t mem => ?_
      exact List.mem_append_left _ (List.mem_append_right _ mem)

end Spells

/-- The run of a name is its one token. -/
theorem Spelled.of_name {t : Token} {n : Ident} (kind : t.kind = .name n.text)
    (span : t.span = n.span) : Spelled [t] (.name n) := by
  refine ⟨Spells.one kind, ?_⟩
  show Covers n.span [t]
  rw [← span]
  exact .single t

/-- The nodes inside a node have spans inside its own. -/
theorem Spelled.inside {run : List Token} {n m : Node} (h : Spelled run n) (ordered : InOrder run)
    (mem : m ∈ n.children) : n.span.start ≤ m.span.start ∧ m.span.stop ≤ n.span.stop := by
  obtain ⟨before, own, behind, rfl, spelled⟩ := h.parts.exists_run (Spells.mem_node?_iff.mp mem)
  refine h.covers.mono ordered (fun t mem => ?_) spelled.covers
  exact List.mem_append_left _ (List.mem_append_right _ mem)

/-! ### Parts and written forms -/

/-- The written form of a part. -/
def Part.written : Part → List Kind
  | token k => [k]
  | node n => n.written

/-- Nodes in a list are written with commas. -/
theorem written_listed (nodes : List Node) :
    (listed nodes).flatMap Part.written = separated (nodes.map Node.written) := by
  fun_induction listed nodes with
  | case1 => rfl
  | case2 one => simp [Part.written, separated]
  | case3 one more some ih =>
      rw [List.map_cons, separated_cons (by simpa using some), ← ih]
      rfl

/-- Statements are written with semicolons. -/
theorem written_closedOff (body : List Expr) :
    (closedOff body).flatMap Part.written = terminated (body.map Expr.written) := by
  induction body with
  | nil => rfl
  | cons e rest ih =>
      rw [List.map_cons, terminated_cons, ← ih]
      simp [closedOff, Part.written, Part.symbol, Node.written]

/-- Segments are written with dots. -/
theorem written_dotted (names : List Ident) :
    (dotted names).flatMap Part.written = pathWritten names := by
  induction names with
  | nil => rfl
  | cons n rest ih =>
      rw [pathWritten_cons, ← ih]
      simp [dotted, Part.written, Part.symbol, Node.written, Ident.written]

/-- The parts of a node have its written form. -/
theorem Node.written_parts (n : Node) : n.parts.flatMap Part.written = n.written := by
  cases n with
  | name n => rfl
  | expr e =>
      cases e with
      | func params body s =>
          simp [parts, written, Expr.written, written_listed, written_closedOff, Part.written,
            Part.symbol, Function.comp_def]
      | call callee args s =>
          simp [parts, written, Expr.written, written_listed, Part.written, Part.symbol,
            Function.comp_def]
      | hostPath segments s => exact written_dotted segments
      | _ => simp [parts, written, Expr.written, Part.written, Part.symbol]

/-- The tokens that spell parts are their written form. -/
theorem Spells.kinds_eq {ts : List Token} {ps : List Part} (h : Spells ts ps) :
    kinds ts = ps.flatMap Part.written := by
  induction h with
  | nil => rfl
  | @token t _ _ _ ih =>
      rw [List.flatMap_cons, ← ih]
      rfl
  | @node run ts n _ _ _ _ own ih =>
      rw [List.flatMap_cons, ← ih, kinds, List.map_append]
      exact congrArg (· ++ kinds ts) (own.trans n.written_parts)

end ScriptConsole
