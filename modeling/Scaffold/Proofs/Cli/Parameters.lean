import Scaffold.Proofs.Cli.Options
import Scaffold.Proofs.Value.Records

/-!
# Parameters written as arguments

Arguments are taken apart into words and named parameters.  A parameter can be written as an argument
again: with its value behind an equals sign, or with none if it is a flag.  Behind words that name no
parameter the arguments of all parameters are read as what they were written from.
-/

namespace Scaffold

namespace Arguments

variable {p p' : Parsed} {arg name : String} {v : Value} {args rest : List String}

/-! ## What is taken apart -/

/-- A parameter as it comes from arguments: it has a text, or it is a flag with a name. -/
inductive IsGiven : String × Value → Prop
  | flag {name : String} : '=' ∉ name.toList → name ≠ "" → IsGiven (name, .bool true)
  | text {name value : String} : '=' ∉ name.toList → IsGiven (name, .str value)

/-- Taking apart step by step: an argument is one more word, or it is a parameter with a value in it,
with the next argument for its value, or with none. -/
inductive Parses : Parsed → List String → Parsed → Prop
  | nil {p : Parsed} : Parses p [] p
  | word {p p' : Parsed} {arg : String} {rest : List String} :
      isNamed arg = false → Parses (p.addWord arg) rest p' → Parses p (arg :: rest) p'
  | param {p p' : Parsed} {arg name : String} {v : Value} {rest : List String} :
      isNamed arg = true → IsGiven (name, v) → Parses (p.addParam name v) rest p' →
      Parses p (arg :: rest) p'
  | valued {p p' : Parsed} {arg name value : String} {rest : List String} :
      isNamed arg = true → IsGiven (name, .str value) → Parses (p.addParam name (.str value)) rest p' →
      Parses p (arg :: value :: rest) p'

theorem drop_ne_empty (h : isNamed arg = true) : Text.drop 2 arg ≠ "" := by
  rw [isNamed, Bool.and_eq_true, decide_eq_true_eq] at h
  intro none
  have chars := congrArg String.toList none
  rw [Text.drop, String.toList_ofList, String.toList_empty, List.drop_eq_nil_iff] at chars
  exact absurd h.2 (Nat.not_lt.mpr chars)

theorem parseFrom_parses (p : Parsed) (args : List String) : Parses p args (parseFrom p args) := by
  induction p, args using parseFrom.induct with
  | case1 p => rw [parseFrom]; exact .nil
  | case2 p arg rest named body name value cut ih =>
    rw [parseFrom, if_pos named]
    dsimp only
    rw [cut]
    exact .param named (.text (Text.cut?_eq_some.mp cut).2) ih
  | case3 p arg named body cut next rest dashed ih =>
    rw [parseFrom, if_pos named]
    dsimp only
    rw [cut]
    dsimp only
    rw [if_pos dashed]
    exact .param named (.flag (Text.cut?_eq_none.mp cut) (drop_ne_empty named)) ih
  | case4 p arg named body cut next rest notDashed ih =>
    rw [parseFrom, if_pos named]
    dsimp only
    rw [cut]
    dsimp only
    rw [if_neg notDashed]
    exact .valued named (.text (Text.cut?_eq_none.mp cut)) ih
  | case5 p arg named body cut =>
    rw [parseFrom, if_pos named]
    dsimp only
    rw [cut]
    exact .param named (.flag (Text.cut?_eq_none.mp cut) (drop_ne_empty named)) .nil
  | case6 p arg rest unnamed ih =>
    rw [parseFrom, if_neg unnamed]
    exact .word (by simpa using unnamed) ih

/-- The words are among the arguments that name no parameter, in their order. -/
theorem Parses.positional (h : Parses p args p') :
    p'.positional.Sublist (p.positional ++ args.filter fun a => !isNamed a) := by
  induction h with
  | nil => simp
  | @word p p' arg rest unnamed _ ih =>
    rw [List.filter_cons_of_pos (by simp [unnamed])]
    simpa [Parsed.addWord] using ih
  | param named _ _ ih =>
    rw [List.filter_cons_of_neg (by simp [named])]
    exact ih
  | valued named _ _ ih =>
    rw [List.filter_cons_of_neg (by simp [named])]
    exact ih.trans (List.Sublist.append (List.Sublist.refl _) ((List.sublist_cons_self _ _).filter _))

theorem isNamed_of_mem_positional (args : List String) : ∀ w ∈ (parse args).positional, isNamed w = false := by
  intro w mem
  have among := (parseFrom_parses {} args).positional.subset mem
  rw [List.nil_append, List.mem_filter, Bool.not_eq_true'] at among
  exact among.2

/-- There are no more parameters than arguments that name one. -/
theorem Parses.length_params (h : Parses p args p') :
    p'.params.length ≤ p.params.length + (args.filter isNamed).length := by
  induction h with
  | nil => simp
  | word unnamed _ ih =>
    rw [List.filter_cons_of_neg (by simp [unnamed])]
    exact ih
  | @param p p' arg name v rest named _ _ ih =>
    have put := Record.length_put_le p.params name v
    rw [List.filter_cons_of_pos named, List.length_cons]
    simp only [Parsed.addParam] at ih
    omega
  | @valued p p' arg name value rest named _ _ ih =>
    have put := Record.length_put_le p.params name (.str value)
    have fewer := ((List.sublist_cons_self value rest).filter isNamed).length_le
    rw [List.filter_cons_of_pos named, List.length_cons]
    simp only [Parsed.addParam] at ih
    omega

/-- Parameters are given once each, with a text or as flags. -/
theorem Parses.params (h : Parses p args p') (given : ∀ e ∈ p.params, IsGiven e)
    (nodup : p.params.keys.Nodup) : (∀ e ∈ p'.params, IsGiven e) ∧ p'.params.keys.Nodup := by
  have add {p : Parsed} {name : String} {v : Value} (new : IsGiven (name, v))
      (given : ∀ e ∈ p.params, IsGiven e) : ∀ e ∈ (p.addParam name v).params, IsGiven e :=
    fun e mem => (Record.mem_put mem).elim (fun same => same ▸ new) (given e)
  induction h with
  | nil => exact ⟨given, nodup⟩
  | word _ _ ih => exact ih given nodup
  | param _ new _ ih | valued _ new _ ih => exact ih (add new given) (Record.keys_put_nodup nodup _ _)

theorem parse_params (args : List String) :
    (∀ e ∈ (parse args).params, IsGiven e) ∧ (parse args).params.keys.Nodup :=
  (parseFrom_parses {} args).params (fun _ mem => absurd mem List.not_mem_nil) List.nodup_nil

/-! ## What is written -/

variable {e : String × Value}

theorem isNamed_hyphens {text : String} (some : text ≠ "") : isNamed ("--" ++ text) = true := by
  have dashed : isDashed ("--" ++ text) = true := by
    rw [isDashed, Text.startsWith_iff, String.toList_append]
    exact List.prefix_append _ _
  have long : 2 < ("--" ++ text).length := by
    have chars : text.toList ≠ [] := fun none => some (String.toList_eq_nil_iff.mp none)
    have count := List.length_pos_iff.mpr chars
    rw [← String.length_toList, String.toList_append, List.length_append]
    have hyphens : ("--").toList.length = 2 := by decide
    omega
  rw [isNamed, dashed, Bool.true_and, decide_eq_true long]

theorem drop_hyphens (text : String) : Text.drop 2 ("--" ++ text) = text := by
  rw [Text.drop, String.toList_append]
  exact String.ofList_toList

theorem free_hyphens (free : '=' ∉ name.toList) : '=' ∉ ("--" ++ name).toList := by
  rw [String.toList_append, List.mem_append, not_or]
  exact ⟨by decide, free⟩

/-- A parameter is written as an option of its name. -/
theorem IsGiven.flagOf (h : IsGiven e) :
    isNamed (flagOf e.1 e.2) = true ∧ Cli.Grammar.nameOf (flagOf e.1 e.2) = "--" ++ e.1 := by
  cases h with
  | @flag name free some =>
    refine ⟨isNamed_hyphens some, ?_⟩
    rw [Cli.Grammar.nameOf, Arguments.flagOf, Text.cut?_eq_none.mpr (free_hyphens free)]
    rfl
  | @text name value free =>
    have written : Arguments.flagOf name (.str value) = "--" ++ (name ++ "=" ++ value) := by
      simp [Arguments.flagOf, Value.plain, String.append_assoc]
    constructor
    · rw [written]
      refine isNamed_hyphens fun none => ?_
      have chars := congrArg String.toList none
      simp at chars
    · have cut : Text.cut? "=" (Arguments.flagOf name (.str value)) = some ("--" ++ name, value) :=
        Text.cut?_eq_some.mpr ⟨rfl, free_hyphens free⟩
      rw [Cli.Grammar.nameOf, cut]
      rfl

/-- Words that name no parameter are read as words. -/
theorem parseFrom_words {words : List String} (unnamed : ∀ w ∈ words, isNamed w = false) (p : Parsed)
    (rest : List String) :
    parseFrom p (words ++ rest) = parseFrom { p with positional := p.positional ++ words } rest := by
  induction words generalizing p with
  | nil => simp
  | cons w words ih =>
    obtain ⟨first, others⟩ := List.forall_mem_cons.mp unnamed
    rw [List.cons_append, parseFrom, if_neg (by simp [first]), ih others]
    simp [Parsed.addWord]

/-- A written parameter is read as the parameter, if no value can be taken from behind it. -/
theorem parseFrom_flagOf (h : IsGiven e) (p : Parsed) (dashed : ∀ next ∈ rest.head?, isDashed next = true) :
    parseFrom p (flagOf e.1 e.2 :: rest) = parseFrom (p.addParam e.1 e.2) rest := by
  rw [parseFrom, if_pos h.flagOf.1]
  cases h with
  | @flag name free some =>
    have cut : Text.cut? "=" (Text.drop 2 (flagOf name (.bool true))) = none := by
      rw [flagOf, drop_hyphens, Text.cut?_eq_none]
      exact free
    dsimp only
    rw [cut, flagOf, drop_hyphens]
    cases rest with
    | nil => rw [parseFrom]
    | cons next rest =>
      dsimp only
      rw [if_pos (dashed next rfl)]
  | @text name value free =>
    have body : Text.drop 2 (flagOf name (.str value)) = name ++ "=" ++ value := by
      rw [← drop_hyphens (name ++ "=" ++ value)]
      simp [flagOf, Value.plain, String.append_assoc]
    dsimp only
    rw [body, Text.cut?_eq_some.mpr ⟨rfl, free⟩]

/-- Written parameters are read as the parameters. -/
theorem parseFrom_flags {params : Record Value} (given : ∀ e ∈ params, IsGiven e) (p : Parsed)
    (nodup : (p.params ++ params).keys.Nodup) :
    parseFrom p (params.map fun e => flagOf e.1 e.2) = { p with params := p.params ++ params } := by
  induction params generalizing p with
  | nil => simp [parseFrom]
  | cons e params ih =>
    obtain ⟨first, others⟩ := List.forall_mem_cons.mp given
    have dashed : ∀ next ∈ (params.map fun e => flagOf e.1 e.2).head?, isDashed next = true := by
      intro next mem
      obtain ⟨e', mem', rfl⟩ := List.mem_map.mp (List.mem_of_mem_head? mem)
      have named := (others e' mem').flagOf.1
      rw [isNamed, Bool.and_eq_true] at named
      exact named.1
    have new : e.1 ∉ p.params.keys := by
      rw [Record.keys, List.map_append, List.map_cons, List.nodup_append] at nodup
      exact fun mem => nodup.2.2 e.1 mem e.1 List.mem_cons_self rfl
    have put : p.params.put e.1 e.2 = p.params ++ [e] := Record.put_of_not_mem new e.2
    have step := ih others (p.addParam e.1 e.2) (by
      rw [Parsed.addParam, put, List.append_assoc, List.singleton_append]
      exact nodup)
    rw [List.map_cons, parseFrom_flagOf first p dashed, step]
    simp [Parsed.addParam, put]

/-- Words that name no parameter, and parameters behind them, are read from what is written for them. -/
theorem parse_words_flags {words : List String} {params : Record Value}
    (unnamed : ∀ w ∈ words, isNamed w = false) (given : ∀ e ∈ params, IsGiven e)
    (nodup : params.keys.Nodup) :
    parse (words ++ params.map fun e => flagOf e.1 e.2) = ⟨words, params⟩ := by
  rw [parse, parseFrom_words unnamed]
  exact parseFrom_flags given ⟨words, []⟩ nodup

end Arguments

end Scaffold
