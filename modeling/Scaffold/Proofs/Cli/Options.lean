import Mathlib.Tactic.ByContra
import Scaffold.Cli
import Scaffold.Proofs.Path.Names

/-!
# Options taken from a command line

What a grammar makes of the arguments one by one: an option that it knows is taken, with a value where
it has one; any other argument stays a word.  Options of more than one letter stay words as they are,
but from letters behind one hyphen those that stand for flags are taken out.

The words that are left are told by two statements.  Words that the grammar leaves alone pass in order.
And whatever the arguments are, where an option that stands at the end is taken, no more is left than
the other arguments leave one by one.
-/

namespace Scaffold

namespace Text

variable {c : Char} {a s : List Char}

/-- A text is cut at the first occurrence. -/
theorem cutAt?_append_cons (free : c ∉ a) (s : List Char) : cutAt? [c] (a ++ c :: s) = some (a, s) := by
  induction a with
  | nil => simp [cutAt?, afterStart?]
  | cons d a ih =>
    obtain ⟨other, rest⟩ := not_or.mp (mt List.mem_cons.mpr free)
    simp [cutAt?, afterStart?, other, ih rest]

theorem cutAt?_eq_none : cutAt? [c] s = none ↔ c ∉ s := by
  rw [← occurs_singleton, occurs, Bool.not_eq_true, Option.isSome_eq_false_iff, Option.isNone_iff_eq_none]

theorem cutAt?_eq_some {b : List Char} : cutAt? [c] s = some (a, b) ↔ s = a ++ c :: b ∧ c ∉ a := by
  constructor
  · intro h
    have mem : c ∈ s := by
      by_contra free
      rw [cutAt?_eq_none.mpr free] at h
      cases h
    obtain ⟨front, back, rfl, free⟩ := List.eq_append_cons_of_mem mem
    rw [cutAt?_append_cons free] at h
    cases h
    exact ⟨rfl, free⟩
  · rintro ⟨rfl, free⟩
    exact cutAt?_append_cons free b

theorem startsWith_iff {p s : String} : startsWith p s = true ↔ p.toList <+: s.toList :=
  List.isPrefixOf_iff_prefix

theorem cut?_eq_none {s : String} : cut? "=" s = none ↔ '=' ∉ s.toList := by
  have sign : ("=").toList = ['='] := by decide
  rw [cut?, sign, Option.map_eq_none_iff, cutAt?_eq_none]

/-- A text is cut at its first equals sign. -/
theorem cut?_eq_some {s name value : String} :
    cut? "=" s = some (name, value) ↔ s = name ++ "=" ++ value ∧ '=' ∉ name.toList := by
  have sign : ("=").toList = ['='] := by decide
  rw [cut?, sign, Option.map_eq_some_iff]
  constructor
  · rintro ⟨⟨front, back⟩, cut, same⟩
    obtain ⟨rfl, rfl⟩ := Prod.mk.inj same
    obtain ⟨chars, free⟩ := cutAt?_eq_some.mp cut
    refine ⟨?_, by simpa using free⟩
    rw [← String.toList_inj, chars]
    simp
  · rintro ⟨rfl, free⟩
    exact ⟨(name.toList, value.toList), cutAt?_eq_some.mpr ⟨by simp, free⟩, by simp⟩

end Text

namespace Cli

namespace Grammar

variable {g : Grammar} {t t' : Taken} {arg name value : String} {args rest : List String}

/-! ## One argument -/

/-- The option that an argument names. -/
def nameOf (arg : String) : String := ((Text.cut? "=" arg).map (·.1)).getD arg

/-- An option that the grammar knows. -/
def Declares (g : Grammar) (name : String) : Prop := name ∈ g.flags ∨ name ∈ g.valued

instance (g : Grammar) (name : String) : Decidable (g.Declares name) :=
  inferInstanceAs (Decidable (_ ∨ _))

/-- The letters of an argument that do not stand for flags. -/
def others (g : Grammar) (arg : String) : List Char :=
  (arg.toList.drop 1).filter fun c => (g.letters.lookup c).isNone

/-- What an argument leaves of itself. -/
def kept (g : Grammar) (arg : String) : List String :=
  if Text.startsWith "--" arg then if arg = "--" ∨ g.Declares (nameOf arg) then [] else [arg]
  else if Text.startsWith "-" arg && 1 < arg.length then
    if (g.others arg).isEmpty then [] else ["-" ++ String.ofList (g.others arg)]
  else [arg]

/-- The name of an option stands before the equals sign, if there is one. -/
theorem nameOf_eq_iff (free : '=' ∉ name.toList) :
    nameOf arg = name ↔ arg = name ∨ ∃ value, arg = name ++ "=" ++ value := by
  rw [nameOf]
  cases cut : Text.cut? "=" arg with
  | none =>
    refine ⟨.inl, ?_⟩
    rintro (same | ⟨value, rfl⟩)
    · exact same
    · rw [Text.cut?_eq_some.mpr ⟨rfl, free⟩] at cut
      cases cut
  | some found =>
    obtain ⟨n, v⟩ := found
    constructor
    · rintro rfl
      exact .inr ⟨v, (Text.cut?_eq_some.mp cut).1⟩
    · rintro (rfl | ⟨value, rfl⟩)
      · rw [Text.cut?_eq_none.mpr free] at cut
        cases cut
      · rw [Text.cut?_eq_some.mpr ⟨rfl, free⟩] at cut
        cases cut
        rfl

theorem length_kept_le (g : Grammar) (arg : String) : (g.kept arg).length ≤ 1 := by
  rw [kept]
  repeat' split
  all_goals simp

theorem length_flatMap_kept_le (g : Grammar) (args : List String) :
    (args.flatMap g.kept).length ≤ args.length := by
  induction args with
  | nil => exact Nat.le_refl 0
  | cons a args ih =>
    have one := g.length_kept_le a
    rw [List.flatMap_cons, List.length_append, List.length_cons]
    omega

/-- Where as much is kept as there are arguments, every argument leaves something. -/
theorem kept_ne_nil_of_length (h : args.length ≤ (args.flatMap g.kept).length) :
    ∀ a ∈ args, g.kept a ≠ [] := by
  induction args with
  | nil => exact fun a mem => absurd mem List.not_mem_nil
  | cons a args ih =>
    have one := g.length_kept_le a
    have others := g.length_flatMap_kept_le args
    rw [List.flatMap_cons, List.length_append, List.length_cons] at h
    refine List.forall_mem_cons.mpr ⟨fun none => ?_, ih (by omega)⟩
    rw [none, List.length_nil] at h
    omega

/-- Where the arguments are kept, each is. -/
theorem kept_eq_of_flatMap_eq (h : args.flatMap g.kept = args) : ∀ a ∈ args, g.kept a = [a] := by
  induction args with
  | nil => exact fun a mem => absurd mem List.not_mem_nil
  | cons a args ih =>
    have some := kept_ne_nil_of_length (Nat.le_of_eq (congrArg List.length h).symm) a List.mem_cons_self
    have one := g.length_kept_le a
    obtain ⟨b, rest, left⟩ := List.exists_cons_of_ne_nil some
    rw [left, List.length_cons] at one
    obtain rfl := List.eq_nil_of_length_eq_zero (Nat.le_zero.mp (Nat.le_of_succ_le_succ one))
    rw [List.flatMap_cons, left, List.singleton_append] at h
    obtain ⟨rfl, others⟩ := List.cons.inj h
    exact List.forall_mem_cons.mpr ⟨left, ih others⟩

/-- What is kept has no new characters. -/
theorem subset_of_mem_kept {word : String} (h : word ∈ g.kept arg) : word.toList ⊆ arg.toList := by
  rw [kept] at h
  split at h
  next =>
    split at h
    next => cases h
    next => rw [List.mem_singleton.mp h]; exact List.Subset.refl _
  next =>
    split at h
    next letters =>
      split at h
      next => cases h
      next =>
        rw [Bool.and_eq_true, Text.startsWith_iff] at letters
        obtain rfl := List.mem_singleton.mp h
        have chars : ("-" ++ String.ofList (g.others arg)).toList = ("-").toList ++ g.others arg := by
          rw [String.toList_append]
          simp
        rw [chars]
        refine List.append_subset.mpr ⟨letters.1.subset, fun c mem => ?_⟩
        exact List.mem_of_mem_drop (List.mem_filter.mp mem).1
    next => rw [List.mem_singleton.mp h]; exact List.Subset.refl _

/-! ## Taking step by step -/

/-- How words and values come from arguments: two hyphens alone end the options, an option with a value
takes it from the argument or from the next one, and any other argument leaves what it keeps. -/
inductive Takes (g : Grammar) : Taken → List String → Taken → Prop
  | nil {t : Taken} : Takes g t [] t
  | stop {t : Taken} {rest : List String} :
      Takes g t ("--" :: rest) { t with words := t.words ++ rest }
  | inline {t t' : Taken} {name value : String} {rest : List String} :
      name ∈ g.valued → '=' ∉ name.toList → Takes g (t.addValue name value) rest t' →
      Takes g t ((name ++ "=" ++ value) :: rest) t'
  | separate {t t' : Taken} {name value : String} {rest : List String} :
      name ∈ g.valued → Takes g (t.addValue name value) rest t' →
      Takes g t (name :: value :: rest) t'
  | other {t u t' : Taken} {arg : String} {rest : List String} :
      (Text.startsWith "--" arg = true → nameOf arg ∉ g.valued) →
      u.values = t.values → u.words = t.words ++ g.kept arg →
      Takes g u rest t' → Takes g t (arg :: rest) t'

theorem cut?_of_valued (h : (match Text.cut? "=" arg with
      | some (n, v) => (n, some v)
      | none => (arg, none)) = (name, some value)) :
    arg = name ++ "=" ++ value ∧ '=' ∉ name.toList := by
  rw [← Text.cut?_eq_some]
  cases cut : Text.cut? "=" arg <;> rw [cut] at h <;> cases h
  rfl

theorem cut?_of_not_valued (h : (match Text.cut? "=" arg with
      | some (n, v) => (n, some v)
      | none => (arg, none)) = (name, (none : Option String))) :
    name = arg ∧ Text.cut? "=" arg = none := by
  cases cut : Text.cut? "=" arg <;> rw [cut] at h <;> cases h
  exact ⟨rfl, rfl⟩

theorem nameOf_of_cut? {value : Option String} (h : (match Text.cut? "=" arg with
      | some (n, v) => (n, some v)
      | none => (arg, none)) = (name, value)) : nameOf arg = name := by
  rw [nameOf]
  cases cut : Text.cut? "=" arg <;> rw [cut] at h <;> cases h <;> rfl

theorem unknown_eq_ok (passes : g.passesOn = true) :
    g.unknown t arg name = .ok (t.addWord arg) := by
  rw [unknown, if_pos passes]

theorem short_eq_ok (passes : g.passesOn = true) (t : Taken) (arg : String) :
    ∃ t₁, g.short t arg = .ok t₁ ∧ t₁.values = t.values ∧
      t₁.words = t.words ++ if (g.others arg).isEmpty then [] else ["-" ++ String.ofList (g.others arg)] := by
  have flags (known : List String) (t : Taken) : (known.foldl Taken.addFlag t).values = t.values ∧
      (known.foldl Taken.addFlag t).words = t.words := by
    induction known generalizing t with
    | nil => exact ⟨rfl, rfl⟩
    | cons f known ih => exact ih (t.addFlag f)
  obtain ⟨values, words⟩ := flags ((arg.toList.drop 1).filterMap fun c => g.letters.lookup c) t
  unfold short
  dsimp only
  rw [← others]
  split
  next => exact ⟨_, rfl, values, by rw [words, List.append_nil]⟩
  next =>
    refine ⟨_, unknown_eq_ok passes, values, ?_⟩
    rw [Taken.addWord, words]

theorem takes_of_take (passes : g.passesOn = true) (h : g.take t args = .ok t') : Takes g t args t' := by
  induction t, args using Grammar.take.induct g with
  | case1 t =>
    rw [take] at h
    obtain rfl := Except.ok.inj h
    exact .nil
  | case2 t rest =>
    rw [take, if_pos rfl] at h
    obtain rfl := Except.ok.inj h
    exact .stop
  | case3 t arg some long name valued value rest named ih =>
    rw [take, if_neg some, if_pos long, named] at h
    dsimp only at h
    rw [if_pos valued] at h
    obtain ⟨rfl, free⟩ := cut?_of_valued named
    exact .inline (List.contains_iff_mem.mp valued) free (ih h)
  | case4 t arg some long name valued value rest named ih =>
    rw [take, if_neg some, if_pos long, named] at h
    dsimp only at h
    rw [if_pos valued] at h
    obtain ⟨rfl, -⟩ := cut?_of_not_valued named
    exact .separate (List.contains_iff_mem.mp valued) (ih h)
  | case5 t arg some long name valued named =>
    rw [take, if_neg some, if_pos long, named] at h
    dsimp only at h
    rw [if_pos valued] at h
    cases h
  | case6 t arg rest some long name unvalued flag value named =>
    rw [take, if_neg some, if_pos long, named] at h
    dsimp only at h
    rw [if_neg unvalued, if_pos flag] at h
    cases h
  | case7 t arg rest some long name unvalued flag named ih =>
    rw [take, if_neg some, if_pos long, named] at h
    dsimp only at h
    rw [if_neg unvalued, if_pos flag] at h
    have isName := nameOf_of_cut? named
    obtain ⟨rfl, -⟩ := cut?_of_not_valued named
    have declared : g.Declares (nameOf name) := by
      rw [isName]
      exact .inl (List.contains_iff_mem.mp flag)
    have keeps : g.kept name = [] := by rw [kept, if_pos long, if_pos (.inr declared)]
    refine .other (u := t.addFlag name) (fun _ mem => ?_) rfl ?_ (ih h)
    · rw [isName] at mem
      exact unvalued (List.contains_iff_mem.mpr mem)
    · rw [keeps, List.append_nil]
      rfl
  | case8 t arg rest some long name value named unvalued unflagged ih =>
    rw [take, if_neg some, if_pos long, named] at h
    dsimp only at h
    rw [if_neg unvalued, if_neg unflagged, unknown_eq_ok passes] at h
    have isName := nameOf_of_cut? named
    have undeclared : ¬g.Declares (nameOf arg) := by
      rw [isName]
      rintro (mem | mem)
      · exact unflagged (List.contains_iff_mem.mpr mem)
      · exact unvalued (List.contains_iff_mem.mpr mem)
    have keeps : g.kept arg = [arg] := by rw [kept, if_pos long, if_neg (by simp [some, undeclared])]
    refine .other (u := t.addWord arg) (fun _ mem => undeclared (.inr mem)) rfl ?_ (ih _ h)
    rw [keeps]
    rfl
  | case9 t arg rest some notLong letters ih =>
    rw [take, if_neg some, if_neg notLong, if_pos letters] at h
    obtain ⟨t₁, taken, values, words⟩ := short_eq_ok passes t arg
    rw [taken] at h
    refine .other (fun long => absurd long notLong) values ?_ (ih t₁ h)
    rw [words, kept, if_neg notLong, if_pos letters]
  | case10 t arg rest some notLong noLetters ih =>
    rw [take, if_neg some, if_neg notLong, if_neg noLetters] at h
    refine .other (u := t.addWord arg) (fun long => absurd long notLong) rfl ?_ (ih h)
    rw [kept, if_neg notLong, if_neg noLetters]
    rfl

/-! ## Words and values that are taken -/

/-- A value was there before, or it stands behind the name of its option. -/
theorem Takes.value_mem (h : Takes g t args t') (taken : t'.values.get? name = some value) :
    t.values.get? name = some value ∨ name ++ "=" ++ value ∈ args ∨ [name, value] <:+: args := by
  induction h with
  | nil | stop => exact .inl taken
  | @inline t t' given v rest _ _ _ ih =>
    rcases ih taken with before | there | there
    · rw [Taken.addValue, Record.get?_put] at before
      split at before
      next same =>
        obtain rfl := Option.some.inj before
        exact .inr (.inl (by rw [same]; exact List.mem_cons_self))
      next => exact .inl before
    · exact .inr (.inl (List.mem_cons_of_mem _ there))
    · exact .inr (.inr (List.infix_cons there))
  | @separate t t' given v rest _ _ ih =>
    rcases ih taken with before | there | there
    · rw [Taken.addValue, Record.get?_put] at before
      split at before
      next same =>
        obtain rfl := Option.some.inj before
        obtain rfl := same
        exact .inr (.inr ⟨[], rest, rfl⟩)
      next => exact .inl before
    · exact .inr (.inl (List.mem_cons_of_mem _ (List.mem_cons_of_mem _ there)))
    · exact .inr (.inr (List.infix_cons (List.infix_cons there)))
  | other _ values _ _ ih =>
    rcases ih taken with before | there | there
    · exact .inl (values ▸ before)
    · exact .inr (.inl (List.mem_cons_of_mem _ there))
    · exact .inr (.inr (List.infix_cons there))

/-- Behind the last option nothing more is left. -/
theorem Takes.words_of_single (h : Takes g t [arg] t') (new : t.values.get? name = none)
    (taken : t'.values.get? name ≠ none) : t'.words = t.words := by
  cases h with
  | stop => exact absurd new taken
  | inline _ _ next =>
    cases next
    rfl
  | other _ values _ next =>
    cases next
    rw [values] at taken
    exact absurd new taken

/-- Where the option at the end is taken, no more words are left than the arguments in front of it
leave one by one. -/
theorem Takes.words_sublist {front : List String} (h : Takes g t args t')
    (split : args = front ++ [name, value]) (valued : name ∈ g.valued)
    (long : Text.startsWith "--" name = true) (free : '=' ∉ name.toList)
    (absent : ∀ a ∈ front, nameOf a ≠ name) (new : t.values.get? name = none)
    (taken : t'.values.get? name ≠ none) :
    t'.words.Sublist (t.words ++ front.flatMap g.kept) := by
  have isName : nameOf name = name := by rw [nameOf, Text.cut?_eq_none.mpr free]; rfl
  induction h generalizing front with
  | nil => simp at split
  | stop => exact absurd new taken
  | @inline t t' given v rest _ free' next ih =>
    have isGiven : nameOf (given ++ "=" ++ v) = given := by
      rw [nameOf, Text.cut?_eq_some.mpr ⟨rfl, free'⟩]
      rfl
    cases front with
    | nil =>
      obtain ⟨same, rfl⟩ := List.cons.inj split
      refine absurd ?_ free
      rw [← same]
      simp
    | cons a front =>
      obtain ⟨rfl, rfl⟩ := List.cons.inj split
      obtain ⟨other, absent⟩ := List.forall_mem_cons.mp absent
      rw [isGiven] at other
      have still : (t.addValue given v).values.get? name = none := by
        rw [Taken.addValue, Record.get?_put, if_neg other, new]
      refine (ih rfl absent still taken).trans ?_
      rw [List.flatMap_cons]
      exact (List.Sublist.refl _).append (List.sublist_append_right _ _)
  | @separate t t' given v rest _ next ih =>
    -- an option in front may take the option itself for its value
    have still (other : nameOf given ≠ name) : (t.addValue given v).values.get? name = none := by
      have differ : given ≠ name := fun same => other (same ▸ isName)
      rw [Taken.addValue, Record.get?_put, if_neg differ, new]
    match front with
    | [] =>
      obtain ⟨rfl, rest⟩ := List.cons.inj split
      obtain ⟨rfl, rfl⟩ := List.cons.inj rest
      cases next
      exact List.sublist_append_left _ _
    | [a] =>
      obtain ⟨rfl, rest⟩ := List.cons.inj split
      obtain ⟨rfl, rfl⟩ := List.cons.inj rest
      rw [next.words_of_single (still (absent _ List.mem_cons_self)) taken]
      exact List.sublist_append_left _ _
    | a :: b :: front =>
      obtain ⟨rfl, rest⟩ := List.cons.inj split
      obtain ⟨rfl, rfl⟩ := List.cons.inj rest
      obtain ⟨other, absent⟩ := List.forall_mem_cons.mp absent
      refine (ih rfl (List.forall_mem_cons.mp absent).2 (still other) taken).trans ?_
      rw [List.flatMap_cons, List.flatMap_cons]
      exact (List.Sublist.refl _).append
        ((List.sublist_append_right _ _).trans (List.sublist_append_right _ _))
  | @other t u t' arg rest unvalued values words next ih =>
    cases front with
    | nil =>
      obtain ⟨rfl, rfl⟩ := List.cons.inj split
      rw [isName] at unvalued
      exact absurd valued (unvalued long)
    | cons a front =>
      obtain ⟨rfl, rfl⟩ := List.cons.inj split
      have rest := ih rfl (List.forall_mem_cons.mp absent).2 (by rw [values, new]) taken
      rwa [words, List.append_assoc, ← List.flatMap_cons] at rest

/-! ## Arguments that are read as they are -/

/-- A word that the grammar leaves alone. -/
theorem take_of_kept (passes : g.passesOn = true) (keeps : g.kept arg = [arg]) (t : Taken)
    (rest : List String) : g.take t (arg :: rest) = g.take (t.addWord arg) rest := by
  have some : arg ≠ "--" := by
    rintro rfl
    rw [kept, if_pos (by decide), if_pos (.inl rfl)] at keeps
    cases keeps
  rw [take, if_neg some]
  split
  next long =>
    rw [kept, if_pos long] at keeps
    split at keeps
    next => cases keeps
    next undeclared =>
      obtain ⟨unflagged, unvalued⟩ := not_or.mp (not_or.mp undeclared).2
      cases cut : Text.cut? "=" arg with
      | none =>
        rw [nameOf, cut] at unflagged unvalued
        dsimp only
        rw [if_neg (by simpa using unvalued), if_neg (by simpa using unflagged), unknown_eq_ok passes]
        rfl
      | some found =>
        rw [nameOf, cut] at unflagged unvalued
        dsimp only
        rw [if_neg (by simpa using unvalued), if_neg (by simpa using unflagged), unknown_eq_ok passes]
        rfl
  next notLong =>
    rw [kept, if_neg notLong] at keeps
    split
    next letters =>
      rw [if_pos letters] at keeps
      split at keeps
      next => cases keeps
      next some =>
        -- all letters are left, so none of them stands for a flag
        have whole : "-" ++ String.ofList (g.others arg) = arg := List.head_eq_of_cons_eq keeps
        have all : g.others arg = arg.toList.drop 1 := by
          have chars := congrArg String.toList whole
          rw [String.toList_append] at chars
          rw [← chars]
          simp
        have unknown : ∀ c ∈ arg.toList.drop 1, g.letters.lookup c = none := fun c mem => by
          rw [others, List.filter_eq_self] at all
          simpa using all c mem
        have none : (arg.toList.drop 1).filterMap (fun c => g.letters.lookup c) = [] :=
          List.filterMap_eq_nil_iff.mpr unknown
        unfold short
        dsimp only
        rw [none, ← others, if_neg some, whole, List.foldl_nil, unknown_eq_ok passes]
        rfl
    next => rfl

theorem take_words {words : List String} (passes : g.passesOn = true)
    (keeps : ∀ w ∈ words, g.kept w = [w]) (t : Taken) (rest : List String) :
    g.take t (words ++ rest) = g.take { t with words := t.words ++ words } rest := by
  induction words generalizing t with
  | nil => simp
  | cons w words ih =>
    obtain ⟨first, others⟩ := List.forall_mem_cons.mp keeps
    rw [List.cons_append, take_of_kept passes first, ih others]
    simp [Taken.addWord]

theorem take_flag (flag : arg ∈ g.flags) (unvalued : arg ∉ g.valued) (some : arg ≠ "--")
    (long : Text.startsWith "--" arg = true) (free : '=' ∉ arg.toList) (t : Taken)
    (rest : List String) : g.take t (arg :: rest) = g.take (t.addFlag arg) rest := by
  rw [take, if_neg some, if_pos long, Text.cut?_eq_none.mpr free]
  dsimp only
  rw [if_neg (by simpa using unvalued), if_pos (by simpa using flag)]

theorem take_inline (valued : name ∈ g.valued) (long : Text.startsWith "--" name = true)
    (free : '=' ∉ name.toList) (t : Taken) (value : String) (rest : List String) :
    g.take t ((name ++ "=" ++ value) :: rest) = g.take (t.addValue name value) rest := by
  have signed : '=' ∈ (name ++ "=" ++ value).toList := by simp
  have some : name ++ "=" ++ value ≠ "--" := fun none => by
    rw [none] at signed
    exact absurd signed (by decide)
  have still : Text.startsWith "--" (name ++ "=" ++ value) = true := by
    rw [Text.startsWith_iff] at long ⊢
    rw [String.toList_append, String.toList_append, List.append_assoc]
    exact long.trans (List.prefix_append _ _)
  rw [take, if_neg some, if_pos still, Text.cut?_eq_some.mpr ⟨rfl, free⟩]
  dsimp only
  rw [if_pos (by simpa using valued)]

theorem take_separate (valued : name ∈ g.valued) (some : name ≠ "--")
    (long : Text.startsWith "--" name = true) (free : '=' ∉ name.toList) (t : Taken) (value : String)
    (rest : List String) : g.take t (name :: value :: rest) = g.take (t.addValue name value) rest := by
  rw [take, if_neg some, if_pos long, Text.cut?_eq_none.mpr free]
  dsimp only
  rw [if_pos (by simpa using valued)]

end Grammar

end Cli

end Scaffold
