import Mathlib.Tactic.FinCases
import ScriptConsole.Proofs.Values.Decimals
import ScriptConsole.Proofs.Values.Sharing
import ScriptConsole.Trace.Record
import Std.Data.String.ToInt

/-!
# What a Digest Tells of a List

A result that is too long for a trace is recorded by the digest of a text. Texts and characters
stand in it as they are, numbers by their digits, and a list by the texts of its items, between
brackets and with commas between them. So a comma in a text reads like one between two items, a
bracket like that of a list, and a list with nothing but an empty text in it like an empty list.

Where values have nothing of the kind (`Value.IsPlain`), the text of each value in a list ends where
a comma or a bracket comes, and so the text of the list tells how the list is built and which text
there is at each place of it (`Value.PlaceByPlace`). It does not tell what kinds of values these
are: the number 1 and the text of its digit are one to it. If the kinds are known, it tells
everything.

## Main results

* `Value.IsPlain.isTold`: what the beginning of a text tells, by induction on the value.
* `Value.hashedText_eq_iff`: which values have the same text.
* `hashes_identify_lists`: **what digests tell of lists**.
-/

namespace ScriptConsole

open List (Forall₂)

namespace Value

variable {legend : Legend} {R : Value → Value → Prop} {a b : Value} {i j : Identity}
  {xs ys : List Value} {rest rest' : List Char}

/-! ### Places -/

/-- Whether two values are built alike: where one has a list the other has one of that length, and
at every other place their values are related. -/
inductive PlaceByPlace (R : Value → Value → Prop) : Value → Value → Prop
  | atoms {a b : Value} : a.kind ≠ .list → b.kind ≠ .list → R a b → PlaceByPlace R a b
  | lists {i j : Identity} {xs ys : List Value} :
      Forall₂ (PlaceByPlace R) xs ys → PlaceByPlace R (.list i xs) (.list j ys)

/-- Lists are related place by place if their elements are. -/
theorem placeByPlace_list_iff :
    PlaceByPlace R (.list i xs) (.list j ys) ↔ Forall₂ (PlaceByPlace R) xs ys := by
  constructor
  · rintro (⟨no, -, -⟩ | ⟨each⟩)
    · exact absurd rfl no
    · exact each
  · exact .lists

/-- Anything else is if the relation holds. -/
theorem placeByPlace_atom_iff (ha : a.kind ≠ .list) (hb : b.kind ≠ .list) :
    PlaceByPlace R a b ↔ R a b := by
  constructor
  · rintro (⟨-, -, related⟩ | ⟨-⟩)
    · exact related
    · exact absurd rfl ha
  · exact .atoms ha hb

/-- The text that is hashed for a value. -/
def hashedText (legend : Legend) (v : Value) : String := (TraceValue.ofValue legend v).hashText

/-- Whether the same text is hashed for two values. -/
def SameText (legend : Legend) (a b : Value) : Prop := a.hashedText legend = b.hashedText legend

/-- Whether two values are of the same kind. -/
def SameKind (a b : Value) : Prop := a.kind = b.kind

/-- Whether a value is made of null, truth values, integers, characters and texts, and of lists of
them, in which nothing reads like a part of the writing of a list. -/
structure IsPlain (v : Value) : Prop where
  kinds : ∀ u, v.Holds u → u.kind ∈ [Kind.null, .bool, .int, .long, .char, .string, .list]
  /-- No character is a comma or a bracket, -/
  chars : ∀ c, v.Holds (.char c) → c ∉ [',', '[', ']']
  /-- there is none in a text, -/
  texts : ∀ s, v.Holds (.text s) → ∀ c ∈ s.toList, c ∉ [',', '[', ']']
  /-- and no list has an empty text as its only item. -/
  lists : ∀ i, ¬v.Holds (.list i [.text ""])

/-- The elements of a plain list are plain. -/
theorem IsPlain.item (h : (list i xs).IsPlain) {x : Value} (mem : x ∈ xs) : x.IsPlain where
  kinds u held := h.kinds u (.item mem held)
  chars c held := h.chars c (.item mem held)
  texts s held := h.texts s (.item mem held)
  lists i held := h.lists i (.item mem held)

/-- A list is plain if its elements are, and it is not made of one empty text. -/
theorem isPlain_list_iff :
    (list i xs).IsPlain ↔ xs ≠ [.text ""] ∧ ∀ x ∈ xs, x.IsPlain := by
  constructor
  · exact fun h => ⟨fun same => h.lists i (same ▸ .self _), fun x mem => h.item mem⟩
  · rintro ⟨other, each⟩
    refine ⟨?_, ?_, ?_, ?_⟩
    · rintro u (_ | ⟨mem, held⟩)
      · exact show Kind.list ∈ _ by decide
      · exact (each _ mem).kinds u held
    · rintro c (_ | ⟨mem, held⟩)
      exact (each _ mem).chars c held
    · rintro s (_ | ⟨mem, held⟩)
      exact (each _ mem).texts s held
    · rintro j (_ | ⟨mem, held⟩)
      · exact other rfl
      · exact (each _ mem).lists j held

/-- What else is plain has no commas or brackets in its text. -/
theorem isPlain_of_atom (atom : a.kind ≠ .list)
    (kind : a.kind ∈ [Kind.null, .bool, .int, .long, .char, .string, .list])
    (chars : ∀ c, a = .char c → c ∉ [',', '[', ']'])
    (texts : ∀ s, a = .text s → ∀ c ∈ s.toList, c ∉ [',', '[', ']']) : a.IsPlain := by
  have own : ∀ u, a.Holds u → u = a := by
    rintro u (_ | _)
    · rfl
    · exact absurd rfl atom
  exact ⟨fun u held => own u held ▸ kind, fun c held => chars c (own _ held).symm,
    fun s held => texts s (own _ held).symm, fun i held => atom (own _ held ▸ rfl)⟩

/-! ### The texts of values -/

/-- The characters that are hashed for a value. -/
def hashed (legend : Legend) (v : Value) : List Char := (v.hashedText legend).toList

/-- What is hashed behind an item of a list, with what follows the list. -/
def hashedBehind (legend : Legend) (rest : List Char) : List Value → List Char
  | [] => ']' :: rest
  | y :: ys => ',' :: (y.hashed legend ++ hashedBehind legend rest ys)

/-- Arguments are hashed one by one. -/
theorem hashTexts_ofValues (xs : List Value) :
    TraceValue.hashTexts (TraceValue.ofValues legend xs) = xs.map (hashedText legend) := by
  induction xs with
  | nil => rfl
  | cons x xs ih =>
      rw [TraceValue.ofValues, TraceValue.hashTexts, ih]
      rfl

/-- A list is hashed with brackets around it and commas between its elements. -/
theorem hashedText_list : (list i xs).hashedText legend =
    "[" ++ String.intercalate "," (xs.map (hashedText legend)) ++ "]" := by
  rw [← hashTexts_ofValues]
  rfl

/-- An empty list is two brackets. -/
theorem hashed_nil : (list i []).hashed legend ++ rest = '[' :: ']' :: rest := by
  simp [hashed, hashedText_list]

/-- A list begins with a bracket and its first element. -/
theorem hashed_cons (x : Value) :
    (list i (x :: xs)).hashed legend ++ rest =
      '[' :: (x.hashed legend ++ hashedBehind legend rest xs) := by
  have items : ∀ x : Value, (String.intercalate "," ((x :: xs).map (hashedText legend))).toList ++
      ']' :: rest = x.hashed legend ++ hashedBehind legend rest xs := by
    induction xs with
    | nil => intro x; simp [hashed, hashedBehind]
    | cons y ys ih =>
        intro x
        rw [hashedBehind, ← ih]
        simp [hashed, String.intercalate_cons_cons]
  rw [hashed, hashedText_list, ← items]
  simp

/-- What stands behind a value in a hashed text. -/
def EndsValue (rest : List Char) : Prop := ∀ c ∈ rest.head?, c = ',' ∨ c = ']'

/-- An element ends where the others or the bracket begin. -/
theorem endsValue_hashedBehind : EndsValue (hashedBehind legend rest xs) := by
  cases xs with
  | nil => exact fun _ mem => .inr (Option.some.inj mem).symm
  | cons y ys => exact fun _ mem => .inl (Option.some.inj mem).symm

/-- There are no commas and brackets in an integer, and it is not empty. -/
theorem hashed_integer (k : Int) :
    (toString k).toList ≠ [] ∧ ∀ c ∈ (toString k).toList, c ∉ [',', '[', ']'] := by
  rw [Number.toList_toString_int]
  refine ⟨by simp [Nat.toDigits_ne_nil], fun c mem => ?_⟩
  have either : c = '-' ∨ c.isDigit = true := by
    rcases List.mem_append.mp mem with sign | digit
    · split at sign
      · exact .inl (List.mem_singleton.mp sign)
      · exact absurd sign List.not_mem_nil
    · exact .inr (Number.isDigit_of_mem digit)
  rcases either with rfl | digit
  · decide
  · intro separator
    fin_cases separator <;> cases digit

/-- The text of a value that is no list has no commas and brackets, and it is empty only for the
empty text. -/
theorem IsPlain.hashed_atom (legend : Legend) (h : a.IsPlain) (atom : a.kind ≠ .list) :
    (a.hashed legend = [] → a = .text "") ∧ ∀ c ∈ a.hashed legend, c ∉ [',', '[', ']'] := by
  have kind := h.kinds a (.self a)
  cases a with
  | null => simp [hashed, hashedText, TraceValue.ofValue, TraceValue.hashText]
  | bool b => cases b <;> simp [hashed, hashedText, TraceValue.ofValue, TraceValue.hashText]
  | int n => exact ⟨fun nil => absurd nil (hashed_integer _).1, (hashed_integer _).2⟩
  | long n => exact ⟨fun nil => absurd nil (hashed_integer _).1, (hashed_integer _).2⟩
  | char c =>
      have text : (char c).hashed legend = [c] := String.toList_singleton c
      rw [text]
      exact ⟨fun nil => absurd nil (List.cons_ne_nil _ _),
        fun _ mem => List.mem_singleton.mp mem ▸ h.chars c (.self _)⟩
  | text s =>
      exact ⟨fun nil => congrArg text (String.toList_eq_nil_iff.mp nil), h.texts s (.self _)⟩
  | list i xs => exact absurd rfl atom
  | float x | function f | builtin b | hostClass c | object o c => simp [Value.kind] at kind

/-- So it ends where a comma or a bracket comes, -/
theorem IsPlain.takeWhile_hashed (h : a.IsPlain) (atom : a.kind ≠ .list) (stop : EndsValue rest) :
    (a.hashed legend ++ rest).takeWhile (· ∉ [',', '[', ']']) = a.hashed legend := by
  have none : rest.takeWhile (· ∉ [',', '[', ']']) = [] := by
    cases rest with
    | nil => rfl
    | cons c rest => rcases stop c rfl with rfl | rfl <;> rfl
  have clear := (h.hashed_atom legend atom).2
  rw [List.takeWhile_append_of_pos fun c mem => decide_eq_true (clear c mem), none,
    List.append_nil]

/-- and it does not begin like a list. -/
theorem IsPlain.hashed_atom_ne (h : a.IsPlain) (atom : a.kind ≠ .list) (stop : EndsValue rest)
    (more : List Char) : a.hashed legend ++ rest ≠ '[' :: more := by
  intro same
  cases front : a.hashed legend with
  | nil =>
      rw [front, List.nil_append] at same
      rcases stop '[' (by rw [same]; rfl) with no | no <;> cases no
  | cons c cs =>
      rw [front] at same
      refine (h.hashed_atom legend atom).2 '[' ?_ (by decide)
      rw [front, (List.cons.inj same).1]
      exact List.mem_cons_self

/-- A list begins with a bracket. -/
theorem exists_hashed_list (legend : Legend) (i : Identity) (xs : List Value) (rest : List Char) :
    ∃ more, (list i xs).hashed legend ++ rest = '[' :: more := by
  cases xs with
  | nil => exact ⟨_, hashed_nil⟩
  | cons x xs => exact ⟨_, hashed_cons x⟩

/-- Only an empty text, alone in its list, is followed by the closing bracket without anything
before it. -/
theorem IsPlain.eq_nil_of_hashed {y : Value} {ys : List Value} (h : y.IsPlain)
    (same : ']' :: rest = y.hashed legend ++ hashedBehind legend rest' ys) :
    y = .text "" ∧ ys = [] := by
  by_cases atom : y.kind = .list
  · obtain ⟨j, zs, rfl⟩ := exists_of_kind atom
    obtain ⟨more, front⟩ :=
      exists_hashed_list legend j zs (hashedBehind legend rest' ys)
    cases (List.cons.inj (same.trans front)).1
  · obtain ⟨empty, clear⟩ := h.hashed_atom legend atom
    cases front : y.hashed legend with
    | nil =>
        refine ⟨empty front, ?_⟩
        cases ys with
        | nil => rfl
        | cons z zs =>
            rw [front] at same
            cases (List.cons.inj same).1
    | cons c cs =>
        rw [front] at same
        refine absurd (clear c (front ▸ List.mem_cons_self)) ?_
        rw [← (List.cons.inj same).1]
        decide

/-- Whether a value is told, as far as its texts go, from every other by the text it begins. -/
def IsTold (legend : Legend) (a : Value) : Prop :=
  ∀ ⦃b rest rest'⦄, b.IsPlain → EndsValue rest → EndsValue rest' →
    a.hashed legend ++ rest = b.hashed legend ++ rest' →
    PlaceByPlace (SameText legend) a b ∧ rest = rest'

/-- Elements with the same text are told apart one by one, by induction on them. -/
theorem forall₂_of_hashedBehind (told : ∀ x ∈ xs, x.IsTold legend) (plain : ∀ y ∈ ys, y.IsPlain)
    (same : hashedBehind legend rest xs = hashedBehind legend rest' ys) :
    Forall₂ (PlaceByPlace (SameText legend)) xs ys ∧ rest = rest' := by
  induction xs generalizing ys with
  | nil =>
      cases ys with
      | nil => exact ⟨.nil, (List.cons.inj same).2⟩
      | cons y ys => cases (List.cons.inj same).1
  | cons x xs ih =>
      cases ys with
      | nil => cases (List.cons.inj same).1
      | cons y ys =>
          obtain ⟨first, behind⟩ := told x List.mem_cons_self (plain y List.mem_cons_self)
            endsValue_hashedBehind endsValue_hashedBehind (List.cons.inj same).2
          obtain ⟨others, tails⟩ := ih (fun x mem => told x (List.mem_cons_of_mem _ mem))
            (fun y mem => plain y (List.mem_cons_of_mem _ mem)) behind
          exact ⟨.cons first others, tails⟩

/-- Values whose texts begin alike have the same text at every place. -/
theorem IsPlain.isTold (ha : a.IsPlain) : a.IsTold legend := by
  induction a using inductionOn with
  | atom a atom =>
      intro b rest rest' hb stop stop' same
      by_cases other : b.kind = .list
      · obtain ⟨j, ys, rfl⟩ := exists_of_kind other
        obtain ⟨more, front⟩ := exists_hashed_list legend j ys rest'
        exact absurd (same.trans front) (ha.hashed_atom_ne atom stop more)
      · -- both texts go on to the first comma or bracket
        have texts : a.hashed legend = b.hashed legend := by
          rw [← ha.takeWhile_hashed atom stop, same, hb.takeWhile_hashed other stop']
        rw [texts] at same
        exact ⟨.atoms atom other (String.toList_injective texts), List.append_cancel_left same⟩
  | list i xs ih =>
      intro b rest rest' hb stop stop' same
      have told : ∀ x ∈ xs, x.IsTold legend := fun x mem => ih x mem (ha.item mem)
      by_cases other : b.kind = .list
      · obtain ⟨j, ys, rfl⟩ := exists_of_kind other
        cases xs with
        | nil =>
            cases ys with
            | nil =>
                rw [hashed_nil, hashed_nil] at same
                exact ⟨.lists .nil, (List.cons.inj (List.cons.inj same).2).2⟩
            | cons y ys =>
                rw [hashed_nil, hashed_cons] at same
                obtain ⟨rfl, rfl⟩ := (hb.item List.mem_cons_self).eq_nil_of_hashed
                  (List.cons.inj same).2
                -- only a list of one empty text would read alike, and `IsPlain` leaves it out
                exact absurd (.self _) (hb.lists j)
        | cons x xs =>
            cases ys with
            | nil =>
                rw [hashed_nil, hashed_cons] at same
                obtain ⟨rfl, rfl⟩ := (ha.item List.mem_cons_self).eq_nil_of_hashed
                  (List.cons.inj same).2.symm
                exact absurd (.self _) (ha.lists i)
            | cons y ys =>
                rw [hashed_cons, hashed_cons] at same
                have behind : hashedBehind legend rest (x :: xs) =
                    hashedBehind legend rest' (y :: ys) :=
                  congrArg (',' :: ·) (List.cons.inj same).2
                obtain ⟨each, tails⟩ :=
                  forall₂_of_hashedBehind told (fun y mem => hb.item mem) behind
                exact ⟨.lists each, tails⟩
      · obtain ⟨more, front⟩ := exists_hashed_list legend i xs rest
        exact absurd (same.symm.trans front) (hb.hashed_atom_ne other stop' more)

/-- The same text is hashed for two values just if it is at every place. -/
theorem hashedText_eq_iff (ha : a.IsPlain) (hb : b.IsPlain) :
    a.hashedText legend = b.hashedText legend ↔ PlaceByPlace (SameText legend) a b := by
  constructor
  · intro same
    have nil : EndsValue [] := fun _ mem => nomatch mem
    exact (ha.isTold hb nil nil (congrArg (·.toList ++ []) same)).1
  · intro places
    clear ha hb
    induction a using inductionOn generalizing b with
    | atom a atom =>
        rcases places with ⟨-, -, same⟩ | ⟨-⟩
        · exact same
        · exact absurd rfl atom
    | list i xs ih =>
        rcases places with ⟨no, -, -⟩ | ⟨each⟩
        · exact absurd rfl no
        · next ys =>
          have same : xs.map (hashedText legend) = ys.map (hashedText legend) := by
            induction each with
            | nil => rfl
            | cons first _ more =>
                rw [List.map_cons, List.map_cons, ih _ List.mem_cons_self first,
                  more fun x mem => ih x (List.mem_cons_of_mem _ mem)]
          rw [hashedText_list, hashedText_list, same]

/-! ### Equality -/

/-- Values of one kind that are no lists are equal just if their texts are the same. -/
theorem IsPlain.eql_atom_iff (ha : a.IsPlain) (atom : a.kind ≠ .list) (kind : SameKind a b) :
    a.eql b = true ↔ SameText legend a b := by
  have integers : ∀ m n : Int64, (m == n) = true ↔ toString m.toInt = toString n.toInt :=
    fun m n => by
      rw [beq_iff_eq, ← Int64.toInt_inj]
      exact ⟨fun same => by rw [same], fun same => Int.repr_injective same⟩
  have plain := ha.kinds a (.self a)
  cases a with
  | null =>
      cases b with
      | null => exact iff_of_true rfl rfl
      | _ => cases kind
  | bool m =>
      cases b with
      | bool n =>
          cases m <;> cases n <;>
            simp [eql, SameText, hashedText, TraceValue.ofValue, TraceValue.hashText]
      | _ => cases kind
  | int m =>
      cases b with
      | int n => exact integers m.toInt64 n.toInt64
      | _ => cases kind
  | long m =>
      cases b with
      | long n => exact integers m n
      | _ => cases kind
  | char c =>
      cases b with
      | char d => exact beq_iff_eq.trans String.singleton_inj.symm
      | _ => cases kind
  | text s =>
      cases b with
      | text t => exact beq_iff_eq
      | _ => cases kind
  | list i xs => exact absurd rfl atom
  | float x | function f | builtin b | hostClass c | object o c => simp [Value.kind] at plain

/-- Plain values of the same kinds are equal if their texts are. -/
theorem eqlByItems_iff_sameText (ha : a.IsPlain) (kinds : PlaceByPlace SameKind a b) :
    a.eqlByItems b = true ↔ PlaceByPlace (SameText legend) a b := by
  induction a using inductionOn generalizing b with
  | atom a atom =>
      rcases kinds with ⟨-, other, kind⟩ | ⟨-⟩
      · rw [eqlByItems_of_atom (.inl atom), placeByPlace_atom_iff atom other]
        exact ha.eql_atom_iff atom kind
      · exact absurd rfl atom
  | list i xs ih =>
      rcases kinds with ⟨no, -, -⟩ | ⟨each⟩
      · exact absurd rfl no
      · next j ys =>
        have plain : ∀ x ∈ xs, x.IsPlain := fun x mem => ha.item mem
        clear ha
        rw [eqlByItems_list_iff, placeByPlace_list_iff]
        induction each with
        | nil => simp
        | cons first _ more =>
            have others := more (fun x mem => ih x (List.mem_cons_of_mem _ mem))
              fun x mem => plain x (List.mem_cons_of_mem _ mem)
            rw [List.forall₂_cons, List.forall₂_cons]
            exact and_congr (ih _ List.mem_cons_self (plain _ List.mem_cons_self) first) others

end Value

/-- Whether two texts have different digests unless they are the same. -/
def Sha256.SetsApart (s t : String) : Prop := label s = label t → s = t

/-- **What digests tell of lists.** -/
theorem hashes_identify_lists (legend : Legend) {a b : Value} (ha : a.IsPlain) (hb : b.IsPlain)
    (apart : Sha256.SetsApart (a.hashedText legend) (b.hashedText legend)) :
    ((TraceOutput.ok legend a).hash = (TraceOutput.ok legend b).hash ↔
        a.PlaceByPlace (Value.SameText legend) b) ∧
      (a.PlaceByPlace Value.SameKind b →
        ((TraceOutput.ok legend a).hash = (TraceOutput.ok legend b).hash ↔
          a.eqlByItems b = true)) := by
  have texts : (TraceOutput.ok legend a).hash = (TraceOutput.ok legend b).hash ↔
      a.PlaceByPlace (Value.SameText legend) b :=
    Iff.trans ⟨apart, congrArg Sha256.label⟩ (Value.hashedText_eq_iff ha hb)
  exact ⟨texts, fun kinds => texts.trans (Value.eqlByItems_iff_sameText ha kinds).symm⟩

/-- Lists of different characters, with different digests. -/
theorem hashes_identify_lists_nested :
    let legend : Legend := fun _ _ => ""
    let a : Value := .list 0 [.int 1, .list 1 [.text "x", .char 'y', .null]]
    let b : Value := .list 2 [.int 1, .list 3 [.text "x", .char 'z', .null]]
    (a.IsPlain ∧ b.IsPlain ∧ Sha256.SetsApart (a.hashedText legend) (b.hashedText legend) ∧
        a.PlaceByPlace Value.SameKind b) ∧
      (TraceOutput.ok legend a).hash ≠ (TraceOutput.ok legend b).hash := by
  intro legend a b
  have int : (Value.int 1).IsPlain :=
    Value.isPlain_of_atom (by decide) (by decide) (by simp) (by simp)
  have text : (Value.text "x").IsPlain :=
    Value.isPlain_of_atom (by decide) (by decide) (by simp) (by rintro _ ⟨⟩; simp)
  have null : Value.null.IsPlain :=
    Value.isPlain_of_atom (by decide) (by decide) (by simp) (by simp)
  have char : ∀ c, c ∉ [',', '[', ']'] → (Value.char c).IsPlain := fun c other =>
    Value.isPlain_of_atom (by simp [Value.kind]) (by simp [Value.kind])
      (by rintro _ ⟨⟩; exact other) (by simp)
  have plain : ∀ i j c, c ∉ [',', '[', ']'] →
      (Value.list i [.int 1, .list j [.text "x", .char c, .null]]).IsPlain := fun i j c other => by
    simp [Value.isPlain_list_iff, int, text, null, char c other]
  have ha : a.IsPlain := plain 0 1 'y' (by decide)
  have hb : b.IsPlain := plain 2 3 'z' (by decide)
  have apart : Sha256.SetsApart (a.hashedText legend) (b.hashedText legend) :=
    fun same => absurd same (by decide +kernel)
  have kinds : a.PlaceByPlace Value.SameKind b := by
    have atom : ∀ u v : Value, u.kind ≠ .list → v.kind ≠ .list → u.kind = v.kind →
        u.PlaceByPlace Value.SameKind v := fun _ _ hu hv same => .atoms hu hv same
    have inner : Forall₂ (Value.PlaceByPlace Value.SameKind)
        [.text "x", .char 'y', .null] [.text "x", .char 'z', .null] :=
      .cons (atom _ _ (by decide) (by decide) rfl) (.cons (atom _ _ (by decide) (by decide) rfl)
        (.cons (atom _ _ (by decide) (by decide) rfl) .nil))
    exact .lists (.cons (atom _ _ (by decide) (by decide) rfl) (.cons (.lists inner) .nil))
  have law := hashes_identify_lists legend ha hb apart
  refine ⟨⟨ha, hb, apart, kinds⟩, fun same => ?_⟩
  have equal := (law.2 kinds).mp same
  exact absurd equal (by decide +kernel)

/-- Lists that are not equal and have the same hashed text: a number and its digits, a comma in a
text and between two, and an empty text and nothing. -/
theorem hashes_of_different_lists :
    let legend : Legend := fun _ _ => ""
    let one : Value := .list 0 [.int 1]
    let digit : Value := .list 1 [.text "1"]
    let joined : Value := .list 0 [.text "a,b"]
    let parted : Value := .list 1 [.text "a", .text "b"]
    let none : Value := .list 0 []
    let blank : Value := .list 1 [.text ""]
    (one.hashedText legend = digit.hashedText legend ∧ one.eqlByItems digit = false) ∧
      (joined.hashedText legend = parted.hashedText legend ∧ joined.eqlByItems parted = false) ∧
      none.hashedText legend = blank.hashedText legend ∧ none.eqlByItems blank = false := by
  decide +kernel

end ScriptConsole
