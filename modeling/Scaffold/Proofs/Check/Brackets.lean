import Mathlib.Data.List.Induction
import Scaffold.Check

/-!
# Balanced brackets

The brackets of a text are balanced if they make up a word of Dyck's language over the three kinds of
brackets: each opening bracket has a closing one of its kind behind it, and what stands between is balanced
again.  The check of a script goes through the text once with a stack of the brackets still open, and it
accepts exactly the balanced texts.

Of a text that is not balanced it tells where the trouble is.  A word is a beginning if something behind it
would balance it.  The first closing bracket that no longer leaves a beginning is the one that cannot be
matched; where the whole word is a beginning, the innermost bracket left open has a balanced word behind it.
-/

namespace Scaffold

namespace Check

/-- The kinds of brackets, the opening one of each first. -/
def bracketPairs : List (Char × Char) := [('(', ')'), ('[', ']'), ('\x7b', '\x7d')]

/-- A bracket of any kind. -/
def IsBracket (c : Char) : Prop := ∃ p ∈ bracketPairs, c = p.1 ∨ c = p.2

instance (c : Char) : Decidable (IsBracket c) :=
  inferInstanceAs (Decidable (∃ p ∈ bracketPairs, c = p.1 ∨ c = p.2))

/-- The brackets of a text. -/
def bracketsOf (s : List Char) : List Char := s.filter fun c => decide (IsBracket c)

/-- Words in which each bracket is matched: nothing, or a pair around such a word and such a word behind it. -/
inductive Balanced : List Char → Prop where
  | nil : Balanced []
  | pair {o c : Char} {inner rest : List Char} (kind : (o, c) ∈ bracketPairs) (within : Balanced inner)
    (behind : Balanced rest) : Balanced (o :: (inner ++ c :: rest))

/-- Words that something behind them would balance. -/
def Beginning (w : List Char) : Prop := ∃ rest, Balanced (w ++ rest)

/-- What is wrong with a word of brackets: a closing bracket before which nothing was wrong cannot be matched,
or, if nothing is wrong with any of those, an opening bracket behind which all is matched stays open. -/
inductive Blames (w : List Char) : BracketFault → Prop where
  | unbalanced (front behind : List Char) (o c : Char) (kind : (o, c) ∈ bracketPairs)
    (parts : w = front ++ c :: behind) (sound : Beginning front) (unmatched : ¬Beginning (front ++ [c])) :
    Blames w (.unbalanced c)
  | unclosed (front behind : List Char) (o c : Char) (kind : (o, c) ∈ bracketPairs)
    (parts : w = front ++ o :: behind) (matched : Balanced behind) (sound : Beginning w) :
    Blames w (.unclosed o)

variable {w u v s opened : List Char} {o c : Char}

/-! ## Words -/

theorem Balanced.append (hu : Balanced u) (hv : Balanced v) : Balanced (u ++ v) := by
  induction hu with
  | nil => exact hv
  | pair kind within _ _ ih =>
    rw [List.cons_append, List.append_assoc, List.cons_append]
    exact .pair kind within ih

theorem Beginning.of_append (h : Beginning (u ++ v)) : Beginning u := by
  obtain ⟨rest, balanced⟩ := h
  exact ⟨v ++ rest, by rwa [← List.append_assoc]⟩

/-- A word that leaves brackets open, the innermost first: behind each of them what follows is balanced. -/
inductive Leaves : List Char → List Char → Prop where
  | nothing {w : List Char} (balanced : Balanced w) : Leaves w []
  | more {w v opened : List Char} {o c : Char} (kind : (o, c) ∈ bracketPairs) (before : Leaves w opened)
    (behind : Balanced v) : Leaves (w ++ o :: v) (o :: opened)

theorem Leaves.append (h : Leaves w opened) (hv : Balanced v) : Leaves (w ++ v) opened := by
  cases h with
  | nothing balanced => exact .nothing (balanced.append hv)
  | more kind before behind =>
    rw [List.append_assoc, List.cons_append]
    exact .more kind before (behind.append hv)

/-- The innermost bracket left open is closed. -/
theorem Leaves.close (h : Leaves w (o :: opened)) (kind : (o, c) ∈ bracketPairs) :
    Leaves (w ++ [c]) opened := by
  cases h with
  | more _ before behind =>
    rw [List.append_assoc, List.cons_append]
    exact before.append (.pair kind behind .nil)

/-- What leaves brackets open is a beginning: they can be closed one after the other. -/
theorem Leaves.beginning (h : Leaves w opened) : Beginning w := by
  induction opened generalizing w with
  | nil =>
    cases h with
    | nothing balanced => exact ⟨[], by rwa [List.append_nil]⟩
  | cons o opened ih =>
    have : ∃ c, (o, c) ∈ bracketPairs := by
      cases h with
      | more kind _ _ => exact ⟨_, kind⟩
    obtain ⟨c, kind⟩ := this
    exact (ih (h.close kind)).of_append

/-! ## The stack of brackets -/

theorem isOpener_of_mem (kind : (o, c) ∈ bracketPairs) : isOpener o = true := by
  have all : ∀ p ∈ bracketPairs, isOpener p.1 = true := by decide
  exact all _ kind

theorem isOpener_eq_false_of_mem (kind : (o, c) ∈ bracketPairs) : isOpener c = false := by
  have all : ∀ p ∈ bracketPairs, isOpener p.2 = false := by decide
  exact all _ kind

theorem opener?_of_mem (kind : (o, c) ∈ bracketPairs) : opener? c = some o := by
  have all : ∀ p ∈ bracketPairs, opener? p.2 = some p.1 := by decide
  exact all _ kind

theorem mem_of_isOpener (h : isOpener o = true) : ∃ c, (o, c) ∈ bracketPairs := by
  simp only [isOpener, Bool.or_eq_true, beq_iff_eq] at h
  obtain (rfl | rfl) | rfl := h
  · exact ⟨')', by decide⟩
  · exact ⟨']', by decide⟩
  · exact ⟨'\x7d', by decide⟩

theorem mem_of_opener? (h : opener? c = some o) : (o, c) ∈ bracketPairs := by
  unfold opener? at h
  split at h <;> cases h <;> decide

theorem faultBehind?_opener (kind : (o, c) ∈ bracketPairs) (opened s : List Char) :
    bracketFaultBehind? opened (o :: s) = bracketFaultBehind? (o :: opened) s := by
  rw [bracketFaultBehind?, if_pos (isOpener_of_mem kind)]

theorem faultBehind?_closer (kind : (o, c) ∈ bracketPairs) (opened s : List Char) :
    bracketFaultBehind? (o :: opened) (c :: s) = bracketFaultBehind? opened s := by
  rw [bracketFaultBehind?, isOpener_eq_false_of_mem kind, opener?_of_mem kind]
  exact if_pos rfl

/-- A closing bracket cannot be matched where nothing, or a bracket of another kind, was opened last. -/
theorem faultBehind?_unmatched (kind : (o, c) ∈ bracketPairs) (other : opened.head? ≠ some o)
    (s : List Char) : bracketFaultBehind? opened (c :: s) = some (.unbalanced c) := by
  rw [bracketFaultBehind?, isOpener_eq_false_of_mem kind, opener?_of_mem kind]
  cases opened with
  | nil => rfl
  | cons top opened => exact if_neg fun same => other (congrArg some same)

/-- What is no bracket is passed over. -/
theorem faultBehind?_bracketsOf (opened s : List Char) :
    bracketFaultBehind? opened s = bracketFaultBehind? opened (bracketsOf s) := by
  induction s generalizing opened with
  | nil => rfl
  | cons c s ih =>
    by_cases bracket : IsBracket c
    · rw [bracketsOf, List.filter_cons_of_pos (by simpa using bracket), ← bracketsOf]
      cases opened <;> simp only [bracketFaultBehind?, ih]
    · have opens : isOpener c = false := by
        rw [Bool.eq_false_iff]
        intro h
        obtain ⟨d, kind⟩ := mem_of_isOpener h
        exact bracket ⟨_, kind, .inl rfl⟩
      have closes : opener? c = none := by
        rw [Option.eq_none_iff_forall_ne_some]
        intro o h
        exact bracket ⟨_, mem_of_opener? h, .inr rfl⟩
      rw [bracketsOf, List.filter_cons_of_neg (by simpa using bracket), ← bracketsOf, ← ih]
      cases opened <;> simp [bracketFaultBehind?, opens, closes]

/-- A balanced word leaves the stack as it was. -/
theorem Balanced.faultBehind? (h : Balanced w) (opened s : List Char) :
    bracketFaultBehind? opened (w ++ s) = bracketFaultBehind? opened s := by
  induction h generalizing opened s with
  | nil => rfl
  | pair kind _ _ within behind =>
    rw [List.cons_append, List.append_assoc, List.cons_append, faultBehind?_opener kind, within,
      faultBehind?_closer kind, behind]

/-- A word leaves on the stack the brackets that it leaves open. -/
theorem Leaves.faultBehind? (h : Leaves w opened) (s : List Char) :
    bracketFaultBehind? [] (w ++ s) = bracketFaultBehind? opened s := by
  induction h generalizing s with
  | nothing balanced => exact balanced.faultBehind? [] s
  | more kind _ behind ih =>
    rw [List.append_assoc, List.cons_append, ih, faultBehind?_opener kind, behind.faultBehind?]

/-- Where a closing bracket cannot be matched, nothing behind it can balance the word. -/
theorem Leaves.not_beginning (h : Leaves w opened) (kind : (o, c) ∈ bracketPairs)
    (other : opened.head? ≠ some o) : ¬Beginning (w ++ [c]) := by
  rintro ⟨rest, balanced⟩
  have none := balanced.faultBehind? [] []
  rw [List.append_nil, List.append_assoc, h.faultBehind?, List.singleton_append,
    faultBehind?_unmatched kind other] at none
  cases none

/-- A beginning leaves brackets open, perhaps none: by induction from its end, where a closing bracket has
to close the innermost one. -/
theorem Beginning.leaves (h : Beginning w) (brackets : ∀ c ∈ w, IsBracket c) : ∃ opened, Leaves w opened := by
  induction w using List.reverseRecOn with
  | nil => exact ⟨[], .nothing .nil⟩
  | append_singleton w c ih =>
    obtain ⟨opened, before⟩ := ih h.of_append fun d hd => brackets d (List.mem_append_left _ hd)
    obtain ⟨⟨o, d⟩, kind, rfl | rfl⟩ := brackets c (by simp)
    · exact ⟨_, before.more kind .nil⟩
    · by_cases top : opened.head? = some o
      · obtain ⟨opened, rfl⟩ := List.head?_eq_some_iff.mp top
        exact ⟨_, before.close kind⟩
      · exact absurd h (before.not_beginning kind top)

/-! ## What the check finds -/

/-- What the check, going on behind `w`, tells of the whole word.  By induction on what is left to read; the
stack is what `w` leaves open. -/
theorem Leaves.told (h : Leaves w opened) (brackets : ∀ c ∈ s, IsBracket c) :
    (bracketFaultBehind? opened s = none → Balanced (w ++ s)) ∧
      ∀ f, bracketFaultBehind? opened s = some f → Blames (w ++ s) f := by
  induction s generalizing w opened with
  | nil =>
    rw [List.append_nil]
    cases h with
    | nothing balanced =>
      refine ⟨fun _ => balanced, ?_⟩
      rintro f ⟨⟩
    | more kind before behind =>
      refine ⟨nofun, ?_⟩
      rintro f ⟨⟩
      exact .unclosed _ _ _ _ kind rfl behind (before.more kind behind).beginning
  | cons c s ih =>
    have rest : ∀ d ∈ s, IsBracket d := fun d hd => brackets d (List.mem_cons_of_mem c hd)
    obtain ⟨⟨o, d⟩, kind, rfl | rfl⟩ := brackets c List.mem_cons_self
    · have opens := ih (h.more kind .nil) rest
      rw [List.append_assoc, List.singleton_append] at opens
      rwa [faultBehind?_opener kind]
    · by_cases top : opened.head? = some o
      · obtain ⟨opened, rfl⟩ := List.head?_eq_some_iff.mp top
        have closes := ih (h.close kind) rest
        rw [List.append_assoc, List.singleton_append] at closes
        rwa [faultBehind?_closer kind]
      · rw [faultBehind?_unmatched kind top]
        refine ⟨nofun, ?_⟩
        rintro f ⟨⟩
        exact .unbalanced _ _ _ _ kind rfl h.beginning (h.not_beginning kind top)

theorem isBracket_of_mem_bracketsOf (h : c ∈ bracketsOf s) : IsBracket c :=
  of_decide_eq_true (List.mem_filter.mp h).2

/-- Exactly the texts with balanced brackets have no fault. -/
theorem bracketFault?_eq_none_iff (s : List Char) : bracketFault? s = none ↔ Balanced (bracketsOf s) := by
  rw [bracketFault?, faultBehind?_bracketsOf]
  constructor
  · intro none
    exact ((Leaves.nothing .nil).told fun _ => isBracket_of_mem_bracketsOf).1 none
  · intro balanced
    have none := balanced.faultBehind? [] []
    rwa [List.append_nil] at none

/-- The fault of a text is what is wrong with its brackets. -/
theorem bracketFault?_eq_some_iff (s : List Char) (f : BracketFault) :
    bracketFault? s = some f ↔ Blames (bracketsOf s) f := by
  rw [bracketFault?, faultBehind?_bracketsOf]
  constructor
  · intro found
    exact ((Leaves.nothing .nil).told fun _ => isBracket_of_mem_bracketsOf).2 f found
  intro blamed
  have brackets : ∀ c ∈ bracketsOf s, IsBracket c := fun _ => isBracket_of_mem_bracketsOf
  generalize bracketsOf s = w at blamed brackets
  cases blamed with
  | unbalanced front behind o c kind parts sound unmatched =>
    subst parts
    obtain ⟨opened, before⟩ := sound.leaves fun d hd => brackets d (List.mem_append_left _ hd)
    rw [before.faultBehind?]
    apply faultBehind?_unmatched kind
    intro top
    obtain ⟨opened, rfl⟩ := List.head?_eq_some_iff.mp top
    exact unmatched (before.close kind).beginning
  | unclosed front behind o c kind parts matched sound =>
    subst parts
    obtain ⟨opened, before⟩ := sound.of_append.leaves fun d hd => brackets d (List.mem_append_left _ hd)
    have found := (before.more kind matched).faultBehind? []
    rw [List.append_nil] at found
    rw [found]
    rfl

/-! ## Scripts -/

/-- The names of the languages that are held to their brackets. -/
def scriptNames : List String := ["typescript", "ts", "tsx", "javascript", "js", "jsx"]

theorem syntaxProblem?_of_script {text language : String} (script : Text.lower language ∈ scriptNames) :
    syntaxProblem? text language =
      .ok ((bracketFault? text.toList).map fun f => "Invalid " ++ language ++ ": " ++ f.message) := by
  unfold syntaxProblem?
  generalize Text.lower language = name at script
  simp only [scriptNames, List.mem_cons, List.not_mem_nil, or_false] at script
  rcases script with rfl | rfl | rfl | rfl | rfl | rfl <;> rfl

/-- A script passes exactly if its brackets are balanced.  Otherwise one thing is wrong with them, and that is
what the check names: the first closing bracket that cannot be matched or, where there is none, the innermost
bracket left open. -/
theorem script_passes_iff_balanced (text language : String) (script : Text.lower language ∈ scriptNames) :
    (syntaxProblem? text language = .ok none ↔ Balanced (bracketsOf text.toList)) ∧
      (¬Balanced (bracketsOf text.toList) → ∃ f, Blames (bracketsOf text.toList) f) ∧
        ∀ f, Blames (bracketsOf text.toList) f →
          syntaxProblem? text language = .ok (some ("Invalid " ++ language ++ ": " ++ f.message)) := by
  rw [syntaxProblem?_of_script script, ← bracketFault?_eq_none_iff]
  refine ⟨?_, ?_, ?_⟩
  · simp
  · intro faulty
    obtain ⟨f, found⟩ := Option.ne_none_iff_exists'.mp faulty
    exact ⟨f, (bracketFault?_eq_some_iff _ f).mp found⟩
  · intro f blamed
    rw [(bracketFault?_eq_some_iff _ f).mpr blamed]
    rfl

/-- A call that was cut off leaves its square bracket open, and one that is closed twice has a round bracket
too many. -/
theorem cut_off_and_closed_twice :
    syntaxProblem? "fit(parts[0" "TSX" = .ok (some "Invalid TSX: Unclosed '['") ∧
      syntaxProblem? "fit(parts[0]))" "js" = .ok (some "Invalid js: Unbalanced ')'") ∧
        syntaxProblem? "fit(parts[0])" "ts" = .ok none := by
  have open_bracket : Blames (bracketsOf "fit(parts[0".toList) (.unclosed '[') :=
    (bracketFault?_eq_some_iff _ _).mp (by decide)
  have extra_bracket : Blames (bracketsOf "fit(parts[0]))".toList) (.unbalanced ')') :=
    (bracketFault?_eq_some_iff _ _).mp (by decide)
  have call : Balanced (bracketsOf "fit(parts[0])".toList) := (bracketFault?_eq_none_iff _).mp (by decide)
  exact ⟨(script_passes_iff_balanced _ _ (by decide)).2.2 _ open_bracket,
    (script_passes_iff_balanced _ _ (by decide)).2.2 _ extra_bracket,
    (script_passes_iff_balanced _ _ (by decide)).1.mpr call⟩

end Check

end Scaffold
