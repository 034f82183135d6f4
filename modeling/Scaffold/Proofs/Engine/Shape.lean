import Mathlib.Data.List.Forall2
import Scaffold.Proofs.Engine.Turns
import Scaffold.Proofs.Tool.Effects
import Scaffold.Proofs.Tool.Results

/-!
# The shape of an execution

The steps of a recipe are taken up in order, up to the first that fails.  So the entries of a report
belong to the first steps of the recipe, one entry to each, and none of them failed but perhaps the
last.  Where the last one failed the report has an error, and the steps behind it play no part: any
others could stand in their place.  Where it did not, all steps have an entry.

Nothing is assumed about the tools.  An entry is what the tool made of it, a name included; the tools
that the program brings along all name the step that they are given.
-/

namespace Scaffold

open Run

theorem StepResult.success_eq_false_iff (o : StepResult) : o.success = false ↔ o.status = .failed := by
  simp [StepResult.success]

theorem StepResult.success_iff (o : StepResult) : o.success = true ↔ o.status ≠ .failed := by
  simp [StepResult.success]

theorem RecipeResult.success_iff (o : RecipeResult) :
    o.success = true ↔ o.error.isSome = false ∧ ∀ x ∈ o.steps, x.status ≠ .failed := by
  simp [RecipeResult.success, StepResult.success]

/-! ## Results up to the first failure -/

/-- The results of steps in order, up to the first that failed. -/
inductive UpToFailure : List Step → List StepResult → Prop where
  | done : UpToFailure [] []
  | failed {s : Step} {rest : List Step} {o : StepResult} (failure : o.success = false) :
      UpToFailure (s :: rest) [o]
  | passed {s : Step} {rest : List Step} {o : StepResult} {os : List StepResult}
      (success : o.success = true) (behind : UpToFailure rest os) :
      UpToFailure (s :: rest) (o :: os)

namespace UpToFailure

variable {steps : List Step} {os : List StepResult}

theorem length_le (h : UpToFailure steps os) : os.length ≤ steps.length := by
  induction h with
  | done => exact Nat.le_refl 0
  | failed _ => simp
  | passed _ _ ih => simpa using ih

/-- No entry before the last failed. -/
theorem success_of_mem_dropLast (h : UpToFailure steps os) {o : StepResult} (ho : o ∈ os.dropLast) :
    o.success = true := by
  induction h with
  | done => cases ho
  | failed _ => cases ho
  | @passed _ _ first os success behind ih =>
    cases os with
    | nil => cases ho
    | cons second os =>
      rw [List.dropLast_cons_cons, List.mem_cons] at ho
      rcases ho with rfl | ho
      · exact success
      · exact ih ho

/-- Where steps are left over the last entry failed. -/
theorem getLast?_of_length_lt (h : UpToFailure steps os) (early : os.length < steps.length) :
    ∃ o, os.getLast? = some o ∧ o.success = false := by
  induction h with
  | done => cases early
  | @failed _ _ o failure => exact ⟨o, rfl, failure⟩
  | @passed _ _ first os success behind ih =>
    obtain ⟨o, last, failure⟩ := ih (by simpa using early)
    refine ⟨o, ?_, failure⟩
    rw [List.getLast?_cons, last]
    rfl

/-- The first entry that failed is the last entry, if that failed. -/
theorem find?_eq (h : UpToFailure steps os) :
    os.find? (fun o => !o.success) = os.getLast?.filter fun o => !o.success := by
  induction h with
  | done => rfl
  | failed failure => simp [failure, Option.filter]
  | @passed _ _ first os success behind ih =>
    rw [List.find?_cons_of_neg (by simp [success]), ih, List.getLast?_cons]
    cases os.getLast? with
    | none => simp [success, Option.filter]
    | some o => rfl

/-- One failed exactly where the last one did. -/
theorem isSome_find?_iff (h : UpToFailure steps os) :
    (os.find? fun o => !o.success).isSome = true ↔
      ∃ o, os.getLast? = some o ∧ o.status = .failed := by
  rw [h.find?_eq, Option.isSome_filter]
  cases os.getLast? <;> simp [StepResult.success]

theorem find?_of_failed (h : UpToFailure steps os) {o : StepResult} (last : os.getLast? = some o)
    (failed : o.status = .failed) : os.find? (fun o => !o.success) = some o := by
  rw [h.find?_eq, last]
  simp [StepResult.success, failed, Option.filter]

/-- None failed exactly where no step is left over and none failed. -/
theorem isSome_find?_eq_false_iff (h : UpToFailure steps os) :
    (os.find? fun o => !o.success).isSome = false ↔
      os.length = steps.length ∧ ∀ o ∈ os, o.status ≠ .failed := by
  rw [Bool.eq_false_iff, Ne, h.isSome_find?_iff]
  constructor
  · intro clean
    have all : os.length = steps.length := by
      by_contra unequal
      have short : os.length < steps.length := by
        have := h.length_le
        omega
      obtain ⟨o, last, failure⟩ := h.getLast?_of_length_lt short
      exact clean ⟨o, last, o.success_eq_false_iff.mp failure⟩
    refine ⟨all, fun o ho failed => ?_⟩
    -- one that failed is the last one
    have first : (os.find? fun o => !o.success).isSome = true := by
      rw [List.find?_isSome]
      exact ⟨o, ho, by simp [StepResult.success, failed]⟩
    exact clean (h.isSome_find?_iff.mp first)
  · rintro ⟨-, clean⟩ ⟨o, last, failed⟩
    exact clean o (List.mem_of_getLast? last) failed

end UpToFailure

/-! ## Turns and their results -/

/-- Elements have images together exactly where each of them has its own. -/
theorem mapM_eq_ok {α β ε : Type} {f : α → Except ε β} {xs : List α} {ys : List β} :
    xs.mapM f = .ok ys ↔ List.Forall₂ (fun x y => f x = .ok y) xs ys := by
  induction xs generalizing ys with
  | nil =>
    show Except.ok [] = Except.ok ys ↔ _
    rw [Except.ok.injEq, List.forall₂_nil_left_iff, eq_comm]
  | cons x xs ih =>
    rw [List.mapM_cons, List.forall₂_cons_left_iff]
    constructor
    · intro h
      cases first : f x with
      | error e =>
        rw [first] at h
        cases h
      | ok y =>
        cases rest : xs.mapM f with
        | error e =>
          rw [first, rest] at h
          cases h
        | ok ys' =>
          rw [first, rest] at h
          cases h
          exact ⟨y, ys', rfl, ih.mp rest, rfl⟩
    · rintro ⟨y, ys', first, behind, rfl⟩
      rw [first, ih.mpr behind]
      rfl

/-- An element has a counterpart in a list that corresponds to its own. -/
theorem exists_of_forall₂ {α β : Type} {R : α → β → Prop} {xs : List α} {ys : List β}
    (h : List.Forall₂ R xs ys) {x : α} (hx : x ∈ xs) : ∃ y ∈ ys, R x y := by
  induction h with
  | nil => cases hx
  | @cons x' y xs ys first _ ih =>
    rcases List.mem_cons.mp hx with rfl | hx
    · exact ⟨y, List.mem_cons_self, first⟩
    · obtain ⟨y', hy', related⟩ := ih hx
      exact ⟨y', List.mem_cons_of_mem y hy', related⟩

namespace Engine

variable {e : Engine} {r : Recipe} {b : Bindings} {options : Options} {answers : Record String}
variable {earlier : Record StepResult} {s : Step} {rest : List Step} {st : Session}

/-- Behind a step that succeeds come the turns of the steps behind it. -/
theorem turns_of_success {o : StepResult}
    (outcome : (e.turn r b options answers earlier s st).outcome = .ok o)
    (success : o.success = true) :
    e.turns r b options answers earlier (s :: rest) st =
      e.turn r b options answers earlier s st ::
        e.turns r b options answers (earlier.put s.name o) rest
          (e.turn r b options answers earlier s st).after := by
  simp only [turns, outcome, success, if_true]

/-- A step that fails has the last turn, -/
theorem turns_of_failed {o : StepResult}
    (outcome : (e.turn r b options answers earlier s st).outcome = .ok o)
    (failure : o.success = false) :
    e.turns r b options answers earlier (s :: rest) st = [e.turn r b options answers earlier s st] := by
  simp only [turns, outcome, failure, Bool.false_eq_true, if_false]

/-- and so has a step that raises a failure. -/
theorem turns_of_error {f : Failure}
    (outcome : (e.turn r b options answers earlier s st).outcome = .error f) :
    e.turns r b options answers earlier (s :: rest) st = [e.turn r b options answers earlier s st] := by
  simp only [turns, outcome]

/-- The results of steps reach up to the first that failed. -/
theorem turns_upToFailure {steps : List Step} {os : List StepResult}
    (h : (e.turns r b options answers earlier steps st).mapM (·.outcome) = Except.ok os) :
    UpToFailure steps os := by
  rw [mapM_eq_ok] at h
  induction steps generalizing earlier st os with
  | nil =>
    obtain rfl : os = [] := List.forall₂_nil_left_iff.mp h
    exact .done
  | cons s rest ih =>
    cases outcome : (e.turn r b options answers earlier s st).outcome with
    | error f =>
      rw [turns_of_error outcome, List.forall₂_cons_left_iff] at h
      obtain ⟨o, -, given, -, -⟩ := h
      rw [outcome] at given
      cases given
    | ok o =>
      cases success : o.success with
      | false =>
        rw [turns_of_failed outcome success, List.forall₂_cons_left_iff] at h
        obtain ⟨o', os', given, behind, rfl⟩ := h
        obtain rfl : os' = [] := List.forall₂_nil_left_iff.mp behind
        obtain rfl : o = o' := Except.ok.inj (outcome.symm.trans given)
        exact .failed success
      | true =>
        rw [turns_of_success outcome success, List.forall₂_cons_left_iff] at h
        obtain ⟨o', os', given, behind, rfl⟩ := h
        obtain rfl : o = o' := Except.ok.inj (outcome.symm.trans given)
        exact .passed success (ih behind)

/-- Behind a step that failed any steps may stand: none of them has a turn. -/
theorem turns_take_append {steps : List Step} {os : List StepResult}
    (h : (e.turns r b options answers earlier steps st).mapM (·.outcome) = Except.ok os)
    (failed : ∃ o, os.getLast? = some o ∧ o.success = false) (others : List Step) :
    e.turns r b options answers earlier (steps.take os.length ++ others) st =
      e.turns r b options answers earlier steps st := by
  rw [mapM_eq_ok] at h
  induction steps generalizing earlier st os with
  | nil =>
    -- there are no results, so none of them failed
    obtain rfl : os = [] := List.forall₂_nil_left_iff.mp h
    obtain ⟨o, none, -⟩ := failed
    cases none
  | cons s rest ih =>
    cases outcome : (e.turn r b options answers earlier s st).outcome with
    | error f =>
      rw [turns_of_error outcome, List.forall₂_cons_left_iff] at h
      obtain ⟨o, -, given, -, -⟩ := h
      rw [outcome] at given
      cases given
    | ok o =>
      cases success : o.success with
      | false =>
        rw [turns_of_failed outcome success, List.forall₂_cons_left_iff] at h
        obtain ⟨o', os', -, -, rfl⟩ := h
        rw [List.length_cons, List.take_succ_cons, List.cons_append, turns_of_failed outcome success,
          turns_of_failed outcome success]
      | true =>
        rw [turns_of_success outcome success, List.forall₂_cons_left_iff] at h
        obtain ⟨o', os', given, behind, rfl⟩ := h
        obtain rfl : o = o' := Except.ok.inj (outcome.symm.trans given)
        have failed' : ∃ x, os'.getLast? = some x ∧ x.success = false := by
          obtain ⟨x, last, failure⟩ := failed
          rw [List.getLast?_cons] at last
          cases back : os'.getLast? with
          | none =>
            -- then the step itself would be the one that failed
            rw [back, Option.getD_none, Option.some.injEq] at last
            rw [last, failure] at success
            cases success
          | some y =>
            rw [back] at last
            exact ⟨x, last, failure⟩
        rw [List.length_cons, List.take_succ_cons, List.cons_append, turns_of_success outcome success,
          turns_of_success outcome success, ih behind failed']

/-! ## Names -/

/-- What the results of a step have in common comes of the step, whichever way it ends. -/
theorem step_returns {P : StepResult → Prop}
    (grants : ∀ simulate,
      s.Grants ({ e.context r options answers earlier with simulate } : StepContext) P)
    (tools : ∀ t ∈ e.tools, ∀ c, s.Grants c P → (t.execute s c).Returns P) :
    (e.step r b options answers earlier s).Returns P := by
  have run (t : Tool) (ht : t ∈ e.tools) (simulate : Bool) :
      (runTool t s { e.context r options answers earlier with simulate }).Returns P := by
    intro st o st' same
    rw [on_runTool] at same
    rcases executed : (t.execute s { e.context r options answers earlier with simulate }).on st
      with ⟨f | o', st''⟩
    · rw [executed] at same
      cases same
      exact (grants simulate).failed _ _ _
    · rw [executed] at same
      cases same
      exact tools t ht _ (grants simulate) st o st' executed
  unfold Engine.step
  refine returns_bind fun st => returns_bind fun visible => returns_bind fun _ =>
    returns_bind fun _ => ?_
  unfold runStep
  refine returns_bind fun session => ?_
  split
  · exact returns_pure ((grants false).skipped _ _ _)
  dsimp only
  split
  · exact returns_pure ((grants false).skipped _ _ _)
  split
  · exact returns_pure ((grants false).failed _ _ _)
  next tool found => exact run tool (Tools.get?_eq_some found).1 _

/-- A step is named in what comes of it, whichever way it ends. -/
theorem step_named (named : ∀ t ∈ e.tools, t.Names) :
    s.NamedBy (e.step r b options answers earlier s) :=
  step_returns (fun _ => s.grants_named _) fun t ht c _ => named t ht s c

/-- Entries are named after the steps of their turns, in order. -/
theorem names_of_outcomes {s : Session} {us : List Turn} {os : List StepResult}
    (named : ∀ t ∈ e.tools, t.Names) (turned : ∀ u ∈ us, u ∈ e.history r b options answers s)
    (entries : List.Forall₂ (fun u o => u.outcome = .ok o) us os) :
    os.map (·.step) = (us.map (·.step)).map (·.name) := by
  induction entries with
  | nil => rfl
  | @cons u o us os outcome _ ih =>
    have behind := ih fun u hu => turned u (List.mem_cons_of_mem _ hu)
    have own := (mem_history (turned u List.mem_cons_self)).1
    have came : (e.step r b options answers u.earlier u.step).on u.before = (.ok o, u.after) := by
      rw [← outcome, own]
      rfl
    have first : o.step = u.step.name := step_named named u.before o u.after came
    rw [List.map_cons, List.map_cons, List.map_cons, first, behind]

/-! ## The shape of a result -/

/-- What an execution of a recipe reports, and the session that it leaves. -/
structure Shaped (e : Engine) (r : Recipe) (b : Bindings) (options : Options)
    (answers : Record String) (s : Session) (o : RecipeResult) (t : Session) : Prop where
  within : o.steps.length ≤ r.steps.length
  /-- The first steps of the recipe were taken up, and no others. -/
  taken : (e.history r b options answers s).map (·.step) = r.steps.take o.steps.length
  /-- There is an entry for each of them, in order: what came of its turn. -/
  entries : List.Forall₂ (fun u x => u.outcome = .ok x) (e.history r b options answers s) o.steps
  /-- The entries have the names of these steps, unless a tool gives its results other names. -/
  names : (∀ tool ∈ e.tools, tool.Names) →
    o.steps.map (·.step) = (r.steps.take o.steps.length).map (·.name)
  /-- No entry before the last failed. -/
  before : ∀ x ∈ o.steps.dropLast, x.status ≠ .failed
  /-- Steps are left over only behind an entry that failed. -/
  early : o.steps.length < r.steps.length → ∃ x, o.steps.getLast? = some x ∧ x.status = .failed
  error : o.error.isSome = true ↔ ∃ x, o.steps.getLast? = some x ∧ x.status = .failed
  failedStep : o.error.isSome = true → o.failedStep? = o.steps.getLast?
  success : o.success = true ↔
    o.steps.length = r.steps.length ∧ ∀ x ∈ o.steps, x.status ≠ .failed
  /-- Nothing is executed behind a step that failed: with any other steps in the place of those behind
  it, everything would be the same. -/
  stops : o.error.isSome = true → ∀ others,
    (e.runSteps r b options answers [] (r.steps.take o.steps.length ++ others)).on (s.opened r) =
      (.ok o.steps, t)

/-- Whatever an execution returns has the shape of a run up to the first step that fails. -/
theorem execute_shaped {s t : Session} {o : RecipeResult}
    (h : (e.execute r b options answers).on s = (.ok o, t)) :
    Shaped e r b options answers s o t := by
  cases valid : (e.validate r b.merged answers).valid with
  | false =>
    obtain ⟨f, failed⟩ := execute_on_invalid valid
    rw [failed s] at h
    cases h
  | true =>
    have turned : e.history r b options answers s =
        e.turns r b options answers [] r.steps (s.opened r) := history_of_valid valid s
    rw [execute_on_valid valid s] at h
    obtain ⟨told, left⟩ := Prod.mk.inj h
    cases results : (e.history r b options answers s).mapM (·.outcome) with
    | error f =>
      rw [results] at told
      cases told
    | ok os =>
      rw [results] at told
      obtain rfl := Except.ok.inj told
      have entries := mapM_eq_ok.mp results
      have shape : UpToFailure r.steps os := turns_upToFailure (by rw [← turned]; exact results)
      have length : (e.history r b options answers s).length = os.length := entries.length_eq
      have taken : (e.history r b options answers s).map (·.step) = r.steps.take os.length := by
        have ahead : (e.history r b options answers s).map (·.step) <+: r.steps := history_prefix s
        rw [List.prefix_iff_eq_take.mp ahead, List.length_map, length]
      have error : ((os.find? fun x => !x.success).map stepError).isSome = true ↔
          ∃ x, os.getLast? = some x ∧ x.status = .failed := by
        rw [Option.isSome_map]
        exact shape.isSome_find?_iff
      constructor
      case within => exact shape.length_le
      case taken => exact taken
      case entries => exact entries
      case names =>
        intro named
        show os.map (·.step) = (r.steps.take os.length).map (·.name)
        rw [← taken]
        exact names_of_outcomes named (fun _ hu => hu) entries
      case before =>
        intro x hx
        rw [← x.success_iff]
        exact shape.success_of_mem_dropLast hx
      case early =>
        intro short
        obtain ⟨x, last, failure⟩ := shape.getLast?_of_length_lt short
        exact ⟨x, last, x.success_eq_false_iff.mp failure⟩
      case error => exact error
      case failedStep =>
        intro failed
        obtain ⟨x, last, status⟩ := error.mp failed
        show os.find? _ = os.getLast?
        rw [shape.find?_of_failed last status, last]
      case success =>
        rw [RecipeResult.success_iff]
        show ((os.find? fun x => !x.success).map stepError).isSome = false ∧ _ ↔ _
        rw [Option.isSome_map, shape.isSome_find?_eq_false_iff]
        exact ⟨fun h => h.1, fun h => ⟨h, h.2⟩⟩
      case stops =>
        intro failed others
        obtain ⟨x, last, status⟩ := error.mp failed
        have same := turns_take_append (by rw [← turned]; exact results)
          ⟨x, last, x.success_eq_false_iff.mpr status⟩ others
        show (e.runSteps r b options answers [] (r.steps.take os.length ++ others)).on (s.opened r) =
          (.ok os, t)
        rw [runSteps_on, same, ← turned, results, ← left]

end Engine

/-! ## A step that fails among others -/

namespace Halted

/-- A recipe whose second step injects into a file that is missing. -/
def recipe : Recipe where
  name := "halted"
  steps := [{ name := "greet", body := .echo { message := "hello" } },
    { name := "extend", body := .inject { target := "missing.txt", body := some "more" } },
    { name := "leave", body := .echo { message := "goodbye" } }]

def engine : Engine where
  project := .ofString "/project"
  tools := .standard (fun _ _ => .error .noProgram) []

/-- The second entry is the last one, and it is the one that failed. -/
theorem stops_at_second : ∃ o t, (engine.execute recipe {}).on {} = (.ok o, t) ∧
    o.steps.map (·.step) = ["greet", "extend"] ∧ o.error.isSome = true ∧ o.success = false ∧
    o.failedStep? = o.steps.getLast? ∧
    ∀ others, (engine.runSteps recipe {} {} [] [] (recipe.steps.take 2 ++ others)).on
      (({} : Session).opened recipe) = (.ok o.steps, t) := by
  have ends : (engine.execute recipe {}).on {} |>.1.toOption.map
      (fun o => (o.steps.length, o.error.isSome)) = some (2, true) := by decide +kernel
  rcases same : (engine.execute recipe {}).on {} with ⟨f | o, t⟩
  · rw [same] at ends
    cases ends
  · rw [same] at ends
    obtain ⟨length, error⟩ := Prod.mk.inj (Option.some.inj ends)
    have shape := Engine.execute_shaped same
    have named : ∀ tool ∈ engine.tools, tool.Names := fun _ => Tools.standard_names
    refine ⟨o, t, rfl, ?_, error, ?_, shape.failedStep error, ?_⟩
    · rw [shape.names named, length]
      rfl
    · rw [Bool.eq_false_iff]
      intro success
      -- one step has no entry
      have all := (shape.success.mp success).1
      rw [length] at all
      cases all
    · rw [← length]
      exact shape.stops error

end Halted

end Scaffold
