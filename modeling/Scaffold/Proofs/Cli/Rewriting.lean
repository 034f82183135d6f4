import Scaffold.Proofs.Cli.CommandLine

/-!
# Arguments written again

The arguments of a run are taken apart and written again: the words come first, and behind them each
parameter with its value in it.  So no value can be taken from a word or from another parameter, and
what is written is taken apart into the same words and parameters.

For a prompt document they are written as one line, without an earlier answers file.  What goes are
each `--answers` with the argument behind it, and each `--answers=` with a value in it.  An argument that
an `--answers` takes for its value is not looked at, even if it is another `--answers`.  A shell reads
all other arguments from the line as they were, whatever characters are in them.
-/

namespace Scaffold

namespace Arguments

open Cli

/-! ## Words and parameters -/

/-- The words and parameters of a run, written without options, are taken apart as they were. -/
theorem parse_rewritten (args : List String) :
    let o : RunOptions := { segments := args }
    let p := parse o.segments
    parse (p.positional ++ o.arguments p.params) = p := by
  intro o p
  have bare : o.arguments p.params = p.params.map fun e => flagOf e.1 e.2 := by
    rw [RunOptions.arguments_eq]
    exact List.append_nil _
  obtain ⟨given, nodup⟩ := parse_params args
  rw [bare]
  exact parse_words_flags (isNamed_of_mem_positional args) given nodup

/-- Values are empty, have an equals sign in them or begin with a dash, and one flag is given twice. -/
example : (parse ["--a", "--b=", "--c=d=e", "--f", "-g", "--", "--a"]).params =
    [("a", .bool true), ("b", .str ""), ("c", .str "d=e"), ("f", .str "-g")] := by cbv

/-! ## Without the answers -/

variable {args front rest : List String} {a : String} {i : Nat}

/-- Whether the argument at a place is the value of an `--answers`: one stands before it that is not
itself such a value. -/
def isAnswersValue (args : List String) : Nat → Bool
  | 0 => false
  | i + 1 => args[i]? == some "--answers" && !isAnswersValue args i

/-- Whether the argument at a place remains: it is no value of an `--answers`, it is none itself, and it
has no answers file in it. -/
def remains (args : List String) (a : String) (i : Nat) : Bool :=
  !isAnswersValue args i && a != "--answers" && !Text.startsWith "--answers=" a

/-- The arguments that remain, in their order. -/
def remaining (args : List String) : List String :=
  (args.zipIdx.filter fun e => remains args e.1 e.2).map (·.1)

/-- What a place is depends on the arguments before it only. -/
theorem isAnswersValue_front (h : i ≤ front.length) (rest : List String) :
    isAnswersValue (front ++ rest) i = isAnswersValue front i := by
  induction i with
  | zero => rfl
  | succ i ih =>
    rw [isAnswersValue, isAnswersValue, ih (Nat.le_of_succ_le h), List.getElem?_append_left h]

/-- Where the arguments in front leave no `--answers` without its value, those behind are on their
own. -/
theorem isAnswersValue_rest (closed : isAnswersValue front front.length = false) (rest : List String)
    (i : Nat) : isAnswersValue (front ++ rest) (front.length + i) = isAnswersValue rest i := by
  induction i with
  | zero => exact (isAnswersValue_front (Nat.le_refl _) rest).trans closed
  | succ i ih =>
    have behind : (front ++ rest)[front.length + i]? = rest[i]? := by
      rw [List.getElem?_append_right (Nat.le_add_right _ _), Nat.add_sub_cancel_left]
    rw [← Nat.add_assoc, isAnswersValue, isAnswersValue, behind, ih]

theorem remaining_append (front : List String) (closed : isAnswersValue front front.length = false)
    (rest : List String) :
    remaining (front ++ rest) = remaining front ++ remaining rest := by
  have first : front.zipIdx.filter (fun e => remains (front ++ rest) e.1 e.2) =
      front.zipIdx.filter fun e => remains front e.1 e.2 := by
    refine List.filter_congr fun e mem => ?_
    have within : e.2 ≤ front.length := Nat.le_of_lt (List.snd_lt_of_mem_zipIdx mem)
    rw [remains, remains, isAnswersValue_front within]
  have second : (rest.zipIdx front.length).filter (fun e => remains (front ++ rest) e.1 e.2) =
      (rest.zipIdx.filter fun e => remains rest e.1 e.2).map fun e => (e.1, front.length + e.2) := by
    rw [List.zipIdx_eq_map_add, List.filter_map]
    congr 1
    refine List.filter_congr fun e _ => ?_
    rw [Function.comp_apply, remains, remains, isAnswersValue_rest closed]
  rw [remaining, List.zipIdx_append, List.filter_append, Nat.zero_add, first, second, List.map_append,
    List.map_map]
  rfl

/-- What is left out one after the other is what does not remain. -/
theorem withoutAnswers_eq (args : List String) : withoutAnswers args = remaining args := by
  induction args using withoutAnswers.induct with
  | case1 =>
    rw [withoutAnswers]
    rfl
  | case2 rest ih =>
    rw [withoutAnswers, if_pos rfl, ih]
    cases rest with
    | nil => decide
    | cons value rest =>
      exact (remaining_append ["--answers", value] (by simp [isAnswersValue]) rest).symm
  | case3 a rest other inline ih =>
    rw [withoutAnswers, if_neg other, if_pos inline, ih]
    have alone : remaining [a] = [] := by simp [remaining, remains, inline]
    have apart := remaining_append [a] (by simp [isAnswersValue, other]) rest
    rw [alone] at apart
    exact apart.symm
  | case4 a rest other separate ih =>
    rw [withoutAnswers, if_neg other, if_neg separate, ih]
    have alone : remaining [a] = [a] := by simp [remaining, remains, isAnswersValue, other, separate]
    have apart := remaining_append [a] (by simp [isAnswersValue, other]) rest
    rw [alone] at apart
    exact apart.symm

/-- A shell reads from the line exactly the arguments that remain, and their line is the same. -/
theorem commandLine_remaining (args : List String) :
    Shell.split (commandLine args) = .ok (remaining args) ∧
      commandLine (remaining args) = commandLine args := by
  have again : withoutAnswers (withoutAnswers args) = withoutAnswers args :=
    withoutAnswers_eq_self fun a mem => nameOf_of_mem_withoutAnswers mem
  rw [← withoutAnswers_eq]
  constructor
  · rw [commandLine, Shell.split_quoted]
  · rw [commandLine, again, commandLine]

example : remaining ["run", "--answers", "--answers", "x y", "--answers=f", "--answers"] = ["run", "x y"] := by
  decide

end Arguments

end Scaffold
