import Scaffold.Proofs.Engine.Delivery
import Scaffold.Proofs.Recipe.Questions
import Scaffold.Run

/-!
# Variables that answers fill

A declared variable for which the caller gives no value takes an answer under its name.  The answer is
converted to the kind that the variable declares and held to its constraints, and what comes of that is
a value of the run.

The steps do not see this value.  Answers are themselves variables of every step, above all others, so
each step sees the text of the answer as it was given.  The two are the same exactly where the variable
holds a text: for a string and for one of several words.  A flag that is answered with `n` is false as a
value of the run, and counts as true in the condition of a step.
-/

namespace Scaffold

open Run

/-! ## Values of the run -/

/-- A text is converted to itself exactly for the kinds of variables that hold texts. -/
theorem Variable.coerce_text_iff {name : String} {d : Variable} {text : String} {x : Value}
    (h : d.coerce name (.str text) = .ok x) : x = .str text ↔ d.kind = .string ∨ d.kind = .enum := by
  unfold coerce at h
  cases kind : d.kind <;> simp only [kind] at h
  case boolean =>
    simp only [toBoolean] at h
    split at h <;> cases h
    simp
  case number =>
    simp only [toNumber] at h
    split at h
    · cases h
    · split at h
      · cases h
        split <;> simp
      · cases h
        simp
  case array =>
    simp only [toArray] at h
    split at h
    · split at h <;> cases h <;> simp
    · cases h
      simp
  case object =>
    simp only [toObject] at h
    split at h <;> cases h
    simp
  all_goals
    cases h
    simp [Value.plain]

namespace Recipe

variable {s : Sources} {acc done : Resolving} {name v : String} {d : Variable} {st t : Session}

/-- Where nothing is wrong with an answer, it is converted and passes its checks, and what comes of it is
the value of its variable. -/
theorem resolveOne_answered {a : String} (answered : knownValue? s name d = some (.str a, .answer))
    (h : (resolveOne s acc name d).on st = (.ok done, t)) (fine : done.problems = []) :
    ∃ x, d.coerce name (.str a) = .ok x ∧ d.check name x = .ok [] ∧
      done.bindings.values.get? name = some x := by
  have first : (firstValue s name d).on st = (.ok (some (.str a, .answer)), st) := by
    unfold firstValue
    rw [answered]
    rfl
  unfold resolveOne at h
  rw [on_bind_ok first] at h
  dsimp only at h
  split at h
  next p refused =>
    cases h
    simp at fine
  next x coerced =>
    obtain ⟨ps, s₁, checked, h⟩ := on_bind_eq_ok h
    rw [on_ofExcept] at checked
    cases h
    have passed : ps = [] := (List.append_eq_nil_iff.mp fine).2
    refine ⟨x, coerced, by rw [(Prod.mk.inj checked).1, passed], ?_⟩
    rw [Record.get?_put, if_pos rfl]

/-- A problem that was found stays, and no variable changes the value of another. -/
theorem resolveOne_ok (h : (resolveOne s acc name d).on st = (.ok done, t)) :
    acc.problems <+: done.problems ∧
      (name ≠ v → done.bindings.values.get? v = acc.bindings.values.get? v) := by
  refine ⟨?_, fun other => ?_⟩
  · unfold resolveOne at h
    obtain ⟨value, s₁, -, h⟩ := on_bind_eq_ok h
    split at h
    · split at h <;> cases h <;> exact List.prefix_rfl
    · split at h <;> cases h <;> exact List.prefix_rfl
    · split at h
      · cases h
        exact List.prefix_append _ _
      · obtain ⟨ps, s₂, -, h⟩ := on_bind_eq_ok h
        cases h
        exact List.prefix_append _ _
  · obtain ⟨first, s₁, -, bindings⟩ := resolveOne_bindings h
    have agree : Agree v (bound name d acc.bindings first) acc.bindings := bound_agree other
    rw [bindings, agree.values]

theorem resolveAll_ok {entries : Record Variable}
    (h : (entries.foldlM (fun acc (name, d) => resolveOne s acc name d) acc).on st = (.ok done, t)) :
    acc.problems <+: done.problems ∧
      (v ∉ entries.keys → done.bindings.values.get? v = acc.bindings.values.get? v) := by
  induction entries generalizing acc st with
  | nil =>
    cases h
    exact ⟨List.prefix_rfl, fun _ => rfl⟩
  | cons x entries ih =>
    rw [List.foldlM_cons] at h
    obtain ⟨next, s₁, one, h⟩ := on_bind_eq_ok h
    obtain ⟨problems, kept⟩ := resolveOne_ok (v := v) one
    obtain ⟨problems', kept'⟩ := ih h
    refine ⟨problems.trans problems', fun others => ?_⟩
    simp only [Record.keys, List.map_cons, List.mem_cons, not_or] at others
    rw [kept' others.2, kept (Ne.symm others.1)]

/-- The value of a declared variable that takes an answer is the answer converted, and it passes its
checks. -/
theorem resolveVariables_answered {r : Recipe} {b : Bindings} {a : String}
    (h : (r.resolveVariables s).on st = (.ok b, t)) (declared : (v, d) ∈ r.declared)
    (answered : knownValue? s v d = some (.str a, .answer)) :
    ∃ x, d.coerce v (.str a) = .ok x ∧ d.check v x = .ok [] ∧
      ((Record.keys r.declared).Nodup → b.values.get? v = some x) := by
  obtain ⟨front, back, split⟩ := List.append_of_mem declared
  unfold resolveVariables at h
  obtain ⟨last, s₃, resolved, h⟩ := on_bind_eq_ok h
  rw [on_ofExcept] at h
  obtain ⟨none, -, values⟩ := conclude_ok (Prod.mk.inj h).1
  rw [split, List.foldlM_append] at resolved
  obtain ⟨before, s₁, -, resolved⟩ := on_bind_eq_ok resolved
  rw [List.foldlM_cons] at resolved
  obtain ⟨after, s₂, one, rest⟩ := on_bind_eq_ok resolved
  obtain ⟨stay, kept⟩ := resolveAll_ok (v := v) rest
  -- nothing was wrong in the end, so nothing was wrong with this variable
  have fine : after.problems = [] := List.prefix_nil.mp (none ▸ stay)
  obtain ⟨x, coerced, checked, value⟩ := resolveOne_answered answered one fine
  refine ⟨x, coerced, checked, fun once => ?_⟩
  have later : v ∉ Record.keys back := by
    rw [split] at once
    simp only [Record.keys, List.map_append, List.map_cons, List.nodup_append,
      List.nodup_cons] at once
    exact once.2.1.1
  rw [values, kept later, value]

end Recipe

/-! ## What steps see -/

/-- An answer stands above all other variables of its name. -/
theorem Step.get?_values_answered {s : Step} {b : Bindings} {produced visible : Record Value}
    {answers : Record String} (h : s.values b produced answers = .ok visible) {v a : String}
    (answered : answers.get? v = some a) : visible.get? v = some (.str a) := by
  obtain ⟨here, -, layers⟩ := Engine.get?_layers h
  rw [layers, answered]
  rfl

theorem Recipe.answers_of_knownValue? {s : Sources} {v : String} {d : Variable} {x : Value}
    (h : knownValue? s v d = some (x, .answer)) : ∃ a, s.answers.get? v = some a ∧ x = .str a := by
  unfold knownValue? at h
  split at h
  case h_3 => cases h
  all_goals
    split at h
    next a given =>
      cases h
      exact ⟨a, given, rfl⟩
    next => split at h <;> cases h

namespace Runner

/-- Where the values of a run with answers come from. -/
def sources (u : Runner) (r : Recipe) (q : RunRequest) (words : List String)
    (answers : Record String) : Recipe.Sources :=
  { provided := Arguments.bindTo r words q.params, answers, ask := q.ask
    useDefaults := q.useDefaults, prompter := u.engine.prompter }

/-- A declared variable that takes an answer has the answer as a value of its kind that passes the
checks.  But every step sees the text of the answer, and this is that value exactly where the variable
holds a text. -/
theorem sees_filled_iff {u : Runner} {r : Recipe} {q : RunRequest} {words : List String}
    {answers : Record String} {s s' : Session} {b : Bindings}
    (resolved : (u.scope r q words (some answers)).on s = (.ok b, s'))
    {v : String} {d : Variable} {raw : Value} (declared : (v, d) ∈ r.declared)
    (filled : Recipe.knownValue? (u.sources r q words answers) v d = some (raw, .answer)) :
    ∃ a x, answers.get? v = some a ∧ raw = .str a ∧ d.coerce v raw = .ok x ∧ d.check v x = .ok [] ∧
      ((Record.keys r.declared).Nodup → b.values.get? v = some x) ∧
      ∀ t ∈ u.engine.history r b q.options answers s', ∀ visible, t.visible = .ok visible →
        visible.get? v = some (.str a) ∧
        (visible.get? v = some x ↔ d.kind = .string ∨ d.kind = .enum) := by
  obtain ⟨a, given, rfl⟩ := Recipe.answers_of_knownValue? filled
  obtain ⟨x, coerced, checked, value⟩ := Recipe.resolveVariables_answered resolved declared filled
  refine ⟨a, x, given, rfl, coerced, checked, value, fun t ht visible sees => ?_⟩
  have values : t.step.values b t.before.scope.produced answers = .ok visible := by
    rw [← sees, (Engine.mem_history ht).1]
    rfl
  have seen : visible.get? v = some (.str a) := Step.get?_values_answered values given
  refine ⟨seen, ?_⟩
  rw [seen, ← Variable.coerce_text_iff coerced, Option.some.injEq]
  exact eq_comm

end Runner

/-! ## A flag that is answered with a word for no -/

namespace Flagged

/-- A flag. -/
def enabled : Variable := { kind := .boolean, required := true }

/-- A recipe that adds a file where a flag counts as true. -/
def recipe : Recipe where
  name := "flagged"
  declared := [("enabled", enabled)]
  steps := [{ name := "add", condition := some "enabled"
              body := .add { target := "a.txt", body := some "text" } }]

def runner : Runner where
  engine := { project := .ofString "/project", tools := .standard (fun _ _ => .error .noProgram) [] }
  transport := .ok .document

/-- The flag is answered with a word for no. -/
def answers : Record String := [("enabled", "n")]

/-- The values of the run: the flag is false. -/
def bindings : Bindings := { values := [("enabled", .bool false)] }

theorem nothing_given : Arguments.bindTo recipe [] [] = [] := by
  have none : recipe.positional = [] := List.mergeSort_nil
  rw [Arguments.bindTo, none]
  rfl

theorem resolved : (runner.scope recipe {} [] (some answers)).on {} = (.ok bindings, {}) := by
  unfold Runner.scope
  rw [nothing_given]
  rfl

theorem filled : Recipe.knownValue? (runner.sources recipe {} [] answers) "enabled" enabled =
    some (.str "n", .answer) := by
  unfold Runner.sources
  rw [nothing_given]
  rfl

/-- What the only step sees. -/
def visible : Record Value := [("enabled", .str "n")]

/-- The turn of the only step. -/
def turn : Turn :=
  runner.engine.turn recipe bindings {} answers [] (recipe.steps.headI) (Session.opened {} recipe)

theorem history : runner.engine.history recipe bindings {} answers {} = [turn] := by
  have valid : (runner.engine.validate recipe bindings.merged answers).valid = true := by
    decide +kernel
  unfold Engine.history
  rw [if_pos valid]
  exact Engine.turns_singleton _ _ _

theorem sees : turn.visible = .ok visible := by rfl

/-- The flag is false, but the step that depends on it sees the answer and is not kept from running. -/
theorem answer_covers_flag : enabled.coerce "enabled" (.str "n") = .ok (.bool false) ∧
    bindings.values.get? "enabled" = some (.bool false) ∧ (Value.bool false).holds = false ∧
    turn ∈ runner.engine.history recipe bindings {} answers {} ∧ turn.visible = .ok visible ∧
    visible.get? "enabled" = some (.str "n") ∧ turn.step.isExcluded visible = false := by
  refine ⟨by rfl, by rfl, by rfl, ?_, sees, by rfl, by decide +kernel⟩
  rw [history]
  exact List.mem_singleton_self _

/-- No step sees the flag as the value of the run, since it does not hold a text. -/
theorem sees_no_flag : (runner.scope recipe {} [] (some answers)).on {} = (.ok bindings, {}) ∧
    ("enabled", enabled) ∈ recipe.declared ∧
    Recipe.knownValue? (runner.sources recipe {} [] answers) "enabled" enabled =
      some (.str "n", .answer) ∧
    ∃ a x, answers.get? "enabled" = some a ∧ Value.str "n" = .str a ∧
      enabled.coerce "enabled" (.str "n") = .ok x ∧ enabled.check "enabled" x = .ok [] ∧
      ((Record.keys recipe.declared).Nodup → bindings.values.get? "enabled" = some x) ∧
      ∀ t ∈ runner.engine.history recipe bindings {} answers {}, ∀ visible,
        t.visible = .ok visible → visible.get? "enabled" = some (.str a) ∧
          (visible.get? "enabled" = some x ↔ enabled.kind = .string ∨ enabled.kind = .enum) :=
  ⟨resolved, List.mem_singleton_self _, filled,
    Runner.sees_filled_iff resolved (List.mem_singleton_self _) filled⟩

end Flagged

end Scaffold
