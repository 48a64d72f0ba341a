import ScriptConsole.Proofs.Syntax.Written

/-!
# Looking Ahead

The parser looks ahead by more than one token in two places: a statement is an assignment if it
starts with a name and `=`, and a parenthesis opens a function literal if what stands behind it
looks like parameters. How canonical expressions start settles both. They start with a name only
if they are that name or a link stands behind it, so that no statement that is an expression looks
like an assignment and no expression in parentheses looks like parameters.

Neither decision can fail where the end of the input may be looked at.

## Main results

* `Expr.Canonical.starts`: how the written forms of canonical expressions start.
* `Parser.isAssignment_eq`, `Parser.isFunction_eq`: the two decisions on the kinds of the tokens.
* `Parser.primary_leftParen`: which primary is read at a parenthesis.
-/

namespace ScriptConsole

open Token (Kind)

/-! ### How canonical expressions start -/

/-- Whether a kind of token may start an expression. -/
def Token.Kind.opensExpression : Kind → Bool
  | .literal _ => true
  | .name _ => true
  | .symbol .bang => true
  | .symbol .minus => true
  | .symbol .dot => true
  | .symbol .leftParen => true
  | _ => false

/-- Whether a kind of token closes an expression off, at any level and on any precedence. -/
def Token.Kind.closesExpression : Kind → Bool
  | .symbol .comma => true
  | .symbol .rightParen => true
  | .symbol .semicolon => true
  | _ => false

namespace Parser

/-- Whether tokens start with a name and `=`. -/
def opensAssignment : List Kind → Bool
  | .name _ :: .symbol .assign :: _ => true
  | _ => false

/-- Whether the tokens behind a parenthesis are those of a function literal. -/
def opensFunction : List Kind → Bool
  | .symbol .rightParen :: _ => true
  | .name _ :: .symbol .comma :: _ => true
  | .name _ :: .symbol .rightParen :: .symbol .leftBrace :: _ => true
  | _ => false

/-- Whether a kind of token starts a link. -/
def startsLink (k : Kind) : Bool := (link? 0 k).isSome

/-- Tokens that start as an expression does, and with a name only if nothing or a link stands behind
it. -/
inductive StartsExpression : List Kind → Prop
  | name {text : String} : StartsExpression [.name text]
  | linked {text : String} {l : Kind} {rest : List Kind} :
      startsLink l = true → StartsExpression (.name text :: l :: rest)
  | other {k : Kind} {rest : List Kind} :
      k.opensExpression = true → k.name? = none → StartsExpression (k :: rest)

/-- The start of a longer expression is the start of what stands on its left spine. -/
theorem StartsExpression.append {left rest : List Kind} {l : Kind} (h : StartsExpression left)
    (hl : startsLink l = true) : StartsExpression (left ++ l :: rest) := by
  cases h with
  | name => exact .linked hl
  | linked h => exact .linked h
  | other hopens hname => exact .other hopens hname

/-- What starts an expression has a first token that opens one. -/
theorem StartsExpression.opens {ks : List Kind} (h : StartsExpression ks) :
    ∃ k rest, ks = k :: rest ∧ k.opensExpression = true := by
  cases h with
  | name => exact ⟨_, _, rfl, rfl⟩
  | linked => exact ⟨_, _, rfl, rfl⟩
  | other hopens _ => exact ⟨_, _, rfl, hopens⟩

/-- No expression starts as an assignment does. -/
theorem StartsExpression.opensAssignment {ks rest : List Kind} (h : StartsExpression ks)
    (hrest : rest.headD .eof ≠ .symbol .assign) : opensAssignment (ks ++ rest) = false := by
  cases h with
  | name =>
      cases rest with
      | nil => rfl
      | cons k more =>
          simp only [List.headD_cons, ne_eq] at hrest
          simp only [List.cons_append, List.nil_append]
          unfold Parser.opensAssignment
          grind
  | @linked text l more hl =>
      cases l with
      | symbol s => cases s <;> simp_all [Parser.opensAssignment, startsLink, link?, binaryOp?]
      | _ => rfl
  | @other k more _ hname => cases k <;> simp_all [Parser.opensAssignment, Kind.name?]

/-- No expression in parentheses starts as a function literal does. -/
theorem StartsExpression.opensFunction {ks rest : List Kind} (h : StartsExpression ks)
    (hrest : rest.headD .eof ≠ .symbol .leftBrace) :
    opensFunction (ks ++ .symbol .rightParen :: rest) = false := by
  cases h with
  | name =>
      cases rest with
      | nil => rfl
      | cons k more =>
          simp only [List.headD_cons, ne_eq] at hrest
          simp only [List.cons_append, List.nil_append]
          unfold Parser.opensFunction
          grind
  | @linked text l more hl =>
      cases l with
      | symbol s => cases s <;> simp_all [Parser.opensFunction, startsLink, link?, binaryOp?]
      | _ => rfl
  | @other k more hopens hname =>
      cases k with
      | symbol s => cases s <;> simp_all [Parser.opensFunction, Kind.opensExpression]
      | _ => simp_all [Parser.opensFunction, Kind.name?]

end Parser

/-- An expression is an assignment or its own content. -/
theorem Expr.eq_assign_or_content_eq (e : Expr) :
    (∃ name value s, e = .assign name value s) ∨ e.content = e := by
  cases e with
  | assign name value s => exact .inl ⟨name, value, s, rfl⟩
  | _ => exact .inr rfl

/-- The written form of a canonical expression starts as an expression does. -/
theorem Expr.Canonical.starts {e : Expr} (h : e.Canonical) : Parser.StartsExpression e.written := by
  induction h with
  | literal => exact .other rfl rfl
  | var => exact .name
  | func => exact .other rfl rfl
  | call _ _ _ ih _ => exact ih.append rfl
  | @hostPath segments _ hne =>
      cases segments with
      | nil => exact absurd rfl hne
      | cons name more => exact .other rfl rfl
  | member _ _ _ ih => exact ih.append rfl
  | @unary op _ _ _ _ _ => exact .other (by cases op <;> rfl) rfl
  | @binary _ _ op _ _ _ _ _ ih _ => exact ih.append (by cases op <;> rfl)
  | paren => exact .other rfl rfl

namespace Parser

/-- Statements start as expressions do. -/
theorem statement_opens {e : Expr} (h : e.content.Canonical) :
    ∃ k rest, e.written = k :: rest ∧ k.opensExpression = true := by
  rcases e.eq_assign_or_content_eq with ⟨name, value, s, rfl⟩ | heq
  · exact ⟨_, _, rfl, rfl⟩
  · rw [heq] at h
    exact h.starts.opens

/-- What closes an expression is no link of it. -/
theorem closesExpression_link? {k : Kind} (h : k.closesExpression = true) : link? 0 k = none := by
  cases k with
  | symbol s => cases s <;> simp_all [Kind.closesExpression, link?, binaryOp?]
  | _ => rfl

/-! ### The decisions -/

variable (pos : Nat) {tokens : List Token} {ks : List Kind}

/-- There is always a token in front where the end of the input may be looked at. -/
theorem exists_current (tokens : List Token) :
    ∃ t, current (.padding pos) tokens = .ok t ∧ t.kind = (kinds tokens).headD .eof := by
  cases tokens with
  | nil => exact ⟨_, rfl, rfl⟩
  | cons t rest => exact ⟨t, rfl, rfl⟩

/-- The token that stands behind the first ones. -/
theorem exists_ahead (tokens : List Token) (n : Nat) :
    ∃ t, ahead (.padding pos) tokens n = .ok t ∧ t.kind = ((kinds tokens).drop n).headD .eof := by
  obtain ⟨t, ht, hkind⟩ := exists_current pos (tokens.drop n)
  exact ⟨t, ht, by rw [hkind, kinds, List.map_drop]⟩

/-- The look for an assignment never fails. -/
theorem isAssignment_eq (tokens : List Token) :
    isAssignment (.padding pos) tokens = .ok (opensAssignment (kinds tokens)) := by
  obtain ⟨t, ht, hkind⟩ := exists_current pos tokens
  obtain ⟨u, hu, hnext⟩ := exists_ahead pos tokens 1
  rw [isAssignment, ht, hu]
  simp only [hkind, hnext]
  unfold opensAssignment
  generalize kinds tokens = ks
  match ks with
  | [] => rfl
  | [k] => cases k <;> rfl
  | k :: l :: rest => cases k <;> simp [Kind.name?]; cases l <;> simp [Kind.isSymbol]; grind

/-- Nor does that for a function. -/
theorem isFunction_eq (tokens : List Token) :
    isFunction (.padding pos) tokens = .ok (opensFunction ((kinds tokens).drop 1)) := by
  obtain ⟨t, ht, hkind⟩ := exists_ahead pos tokens 1
  obtain ⟨u, hu, hnext⟩ := exists_ahead pos tokens 2
  obtain ⟨v, hv, hlast⟩ := exists_ahead pos tokens 3
  rw [isFunction, ht, hu, hv]
  have two : (kinds tokens).drop 2 = ((kinds tokens).drop 1).drop 1 := by rw [List.drop_drop]
  have three : (kinds tokens).drop 3 = ((kinds tokens).drop 1).drop 2 := by rw [List.drop_drop]
  rw [two] at hnext
  rw [three] at hlast
  simp only [hkind, hnext, hlast]
  generalize (kinds tokens).drop 1 = ks
  unfold opensFunction
  match ks with
  | [] => rfl
  | .symbol s :: rest => cases s <;> simp [Kind.isSymbol, Kind.name?]
  | .literal _ :: _ => rfl
  | .eof :: _ => rfl
  | [.name _] => rfl
  | .name _ :: .symbol s :: rest =>
      cases s <;> simp [Kind.isSymbol, Kind.name?]
      cases rest with
      | nil => rfl
      | cons k more => cases k <;> simp; grind
  | .name _ :: .literal _ :: _ => rfl
  | .name _ :: .name _ :: _ => rfl
  | .name _ :: .eof :: _ => rfl

/-- At a parenthesis, the primary is decided by what stands behind. -/
theorem primary_leftParen {expression : Nat → TokenReader Expr}
    (h : kinds tokens = .symbol .leftParen :: ks) :
    primary (.padding pos) expression tokens =
      if opensFunction ks then function (.padding pos) (expression 0) tokens
      else parenthesised (.padding pos) (expression 0) tokens := by
  cases tokens with
  | nil => simp at h
  | cons t rest =>
      obtain ⟨hkind, hrest⟩ := List.cons.inj h
      have decided := isFunction_eq pos (t :: rest)
      rw [h, List.drop_one, List.tail_cons] at decided
      simp only [primary, hkind, unaryOp?, decided]
      cases opensFunction ks <;> rfl

/-- Parameters in front of a brace open a function. -/
theorem opensFunction_params {params : List Ident} {rest : List Kind} :
    opensFunction (separated (params.map Ident.written) ++
      .symbol .rightParen :: .symbol .leftBrace :: rest) = true := by
  match params with
  | [] => rfl
  | [_] => rfl
  | _ :: _ :: _ => rfl

end Parser

end ScriptConsole
