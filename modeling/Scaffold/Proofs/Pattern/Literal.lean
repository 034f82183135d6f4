import Scaffold.Pattern.Reader
import Scaffold.Text.Search

/-!
# Patterns that stand for themselves

A text without any of the signs that mean something in a pattern is a pattern for just this text.  It
is read as the sequence of its characters, in whatever options; a sequence of characters, where case
counts, matches at a spot exactly if the text behind the spot starts with them; and so a search finds
it in exactly the texts that it occurs in.
-/

namespace Scaffold.Pattern

/-- Whether a character means something else than itself in a pattern. -/
def isSign (c : Char) : Bool := ".^$*+?\x7b\x7d[]\\|()".toList.contains c

/-- No character of a text means something else than itself. -/
def IsLiteral (s : List Char) : Prop := ∀ c ∈ s, isSign c = false

instance (s : List Char) : Decidable (IsLiteral s) :=
  List.decidableBAll (fun c => isSign c = false) s

variable {s : List Char} {c : Char}

theorem IsLiteral.head (h : IsLiteral (c :: s)) : isSign c = false := h c List.mem_cons_self

theorem IsLiteral.tail (h : IsLiteral (c :: s)) : IsLiteral s :=
  fun d hd => h d (List.mem_cons_of_mem c hd)

/-- A character that is no sign is none of the characters that a reader looks for. -/
theorem ne_of_not_sign {d : Char} (h : isSign c = false) (hd : isSign d = true) : c ≠ d := by
  rintro rfl
  rw [h] at hd
  cases hd

/-! ## Reading -/

/-- The characters of a text as nodes. -/
def chars (s : List Char) : List Node := s.map fun c => .char c.toNat

theorem tokens?_of_literal (h : IsLiteral s) : tokens? s = some (s.map .plain) := by
  induction s with
  | nil => rfl
  | cons c s ih =>
    have plain : c ≠ '\\' := ne_of_not_sign h.head (by decide)
    unfold tokens?
    split
    next => contradiction
    next heq => cases heq; contradiction
    next heq => cases heq; contradiction
    next c' s' _ _ heq =>
      cases heq
      rw [ih h.tail]
      rfl

theorem peek_run (cur : Cursor) : peek.run cur = some (cur.rest.head?, cur) := rfl

theorem take_run (cur : Cursor) (t : Token) (rest : List Token) :
    take.run { cur with rest := t :: rest } = some (some t, { cur with rest }) := rfl

/-- The reader goes through a literal character by character. -/
theorem readSequence_of_literal (h : IsLiteral s) (start : Bool) (acc : List Node) (cur : Cursor)
    {fuel : Nat} (enough : s.length < fuel) :
    (readSequence fuel false start acc).run { cur with rest := s.map .plain } =
      some (sequence (acc.reverse ++ chars s), { cur with rest := [] }) := by
  induction s generalizing acc fuel with
  | nil =>
    cases fuel with
    | zero => cases enough
    | succ fuel =>
      simp only [chars, List.map_nil, List.append_nil]
      rw [readSequence, StateT.run_bind, peek_run]
      rfl
  | cons c s ih =>
    cases fuel with
    | zero => cases enough
    | succ fuel =>
      have other (d : Char) (hd : isSign d = true) : c ≠ d := ne_of_not_sign h.head hd
      have next := ih h.tail (.char c.toNat :: acc) (Nat.lt_of_succ_lt_succ enough)
      rw [readSequence, StateT.run_bind, peek_run]
      simp only [List.map_cons, List.head?_cons, Option.bind_eq_bind, Option.bind_some]
      split
      next heq => cases heq
      next heq => cases heq; exact absurd rfl (other '|' (by decide))
      next heq => cases heq; exact absurd rfl (other ')' (by decide))
      next t _ _ heq =>
        cases heq
        rw [StateT.run_bind, take_run]
        simp only [Option.bind_eq_bind, Option.bind_some, Bool.false_and, Bool.false_eq_true, if_false,
          beq_iff_eq]
        rw [if_neg (other '[' (by decide)), if_neg (other '?' (by decide)),
          if_neg (other '*' (by decide)), if_neg (other '+' (by decide)),
          if_neg (other '\x7b' (by decide)), if_neg (other '.' (by decide)),
          if_neg (other '^' (by decide)), if_neg (other '$' (by decide)),
          if_neg (other '(' (by decide)), next]
        simp [chars]

/-- Nothing follows where everything was read. -/
theorem readMore_at_end (verbose top : Bool) (n : Node) {cur : Cursor} (fuel : Nat)
    (ended : cur.rest = []) : (readMore (fuel + 1) verbose top n).run cur = some (n, cur) := by
  have bar : (accept '|').run cur = some (false, cur) := by
    rw [accept, StateT.run_bind, peek_run, ended]
    rfl
  rw [readMore, StateT.run_bind, bar]
  rfl

/-- A literal is read as the sequence of its characters. -/
theorem compile?_of_literal {text : String} (h : IsLiteral text.toList) (o : Options) :
    compile? text o = some ⟨sequence (chars text.toList), o⟩ := by
  have tokens := tokens?_of_literal h
  have fuel : text.toList.length < 4 * (text.toList.map Token.plain).length + 3 := by
    rw [List.length_map]
    omega
  have read := readSequence_of_literal h true [] { rest := [], options := o } fuel
  rw [compile?, tokens]
  simp only [Option.bind_eq_bind, Option.bind_some]
  rw [readEither, StateT.run_bind, read]
  simp only [Option.bind_eq_bind, Option.bind_some]
  rw [readMore_at_end _ _ _ _ rfl]
  simp

/-! ## Searching -/

theorem inSet_code {o : Options} (exact : o.ignoreCase = false) (c d : Char) :
    inSet o false [.code c.toNat] d = decide (d = c) := by
  simp only [inSet, variants, exact, Bool.not_false, Bool.true_or, if_true, List.any_cons,
    List.any_nil, Bool.or_false, Member.holds, Bool.bne_false]
  rw [Bool.eq_iff_iff, beq_iff_eq, decide_eq_true_iff, Char.toNat_inj]

/-- A sequence of characters passes over just these characters. -/
theorem run_sequence {o : Options} (exact : o.ignoreCase = false) (k : Next) (x : Spot) :
    (sequence (chars s)).run o k x =
      (Text.afterStart? s x.after).bind fun rest =>
        k { x with before := s.reverse ++ x.before, after := rest } := by
  -- one character in front of whatever follows
  have one (c : Char) (k : Next) (x : Spot) : (Node.char c.toNat).run o k x =
      (Text.afterStart? [c] x.after).bind fun rest =>
        k { x with before := c :: x.before, after := rest } := by
    obtain ⟨before, after, captures⟩ := x
    cases after with
    | nil => rfl
    | cons d after =>
      simp only [Node.char, Node.run, Spot.next?, inSet_code exact, Text.afterStart?]
      by_cases same : d = c
      · simp [same]
      · simp [same, Ne.symm same]
  induction s generalizing x with
  | nil => rfl
  | cons c s ih =>
    cases s with
    | nil => exact one c k x
    | cons c' s =>
      rw [chars, List.map_cons, List.map_cons, sequence, Node.run, one]
      rw [chars, List.map_cons] at ih
      simp only [ih]
      obtain ⟨before, after, captures⟩ := x
      cases after with
      | nil => rfl
      | cons d after =>
        by_cases same : c = d
        · simp [Text.afterStart?, same]
        · simp [Text.afterStart?, same]

theorem afterStart?_isSome (s t : List Char) : (Text.afterStart? s t).isSome = true ↔ s <+: t := by
  rw [Option.isSome_iff_exists]
  constructor
  · rintro ⟨rest, h⟩
    exact ⟨rest, (Text.afterStart?_eq_some.mp h).symm⟩
  · rintro ⟨rest, h⟩
    exact ⟨rest, Text.afterStart?_eq_some.mpr h.symm⟩

/-- A search for a sequence of characters finds it wherever it occurs. -/
theorem search?_sequence {o : Options} (exact : o.ignoreCase = false) (text : List Char) :
    (Compiled.search? ⟨sequence (chars s), o⟩ text).isSome = true ↔ s <:+: text := by
  have here (before after : List Char) :
      (Compiled.matchAt? ⟨sequence (chars s), o⟩ before after).isSome = true ↔ s <+: after := by
    rw [Compiled.matchAt?, Option.isSome_map, run_sequence exact, ← afterStart?_isSome]
    cases Text.afterStart? s after <;> rfl
  have from_here (before : List Char) :
      (Compiled.searchFrom? ⟨sequence (chars s), o⟩ before text).isSome = true ↔ s <:+: text := by
    induction text generalizing before with
    | nil => rw [Compiled.searchFrom?, here, List.prefix_nil, List.infix_nil]
    | cons c text ih =>
      rw [Compiled.searchFrom?, Option.isSome_or, Bool.or_eq_true, here, ih, List.infix_cons_iff]
  exact from_here []

end Scaffold.Pattern
