import Scaffold.Proofs.Engine.Agreement
import Scaffold.Proofs.Recipe.Questions
import Scaffold.Proofs.Runner.HoldingBack

/-!
# Answers in one pass and in two

A run that is given its answers executes its recipe at once.  A run that is not given them first
collects prompts, and then executes the recipe with what a transport answers.  The files that it leaves
are those of the run with answers, provided that the first pass succeeds and that the answers it asks
for are enough.

Neither can be taken for granted.  The first pass holds its effects back, so each of its steps finds the
files that were there before all of them.  A step that needs what an earlier one puts into a file fails,
although it succeeds when the recipe is executed with answers.
-/

namespace Scaffold

open Run Session

/-! ## Variables that no one is asked for -/

namespace Run

variable {α β : Type} {P : α → Prop} {Q : β → Prop}

/-- A run leaves every session as it is and comes to the same outcome in all of them, a value in `P`
unless it fails. -/
def Settled (P : α → Prop) (x : Run α) : Prop :=
  ∃ o, (∀ s, x.on s = (o, s)) ∧ ∀ a, o = .ok a → P a

theorem settled_pure {a : α} (h : P a) : (pure a : Run α).Settled P :=
  ⟨.ok a, fun _ => rfl, fun _ same => by cases same; exact h⟩

theorem settled_ofExcept {o : Except Failure α} (h : ∀ a, o = .ok a → P a) : (ofExcept o).Settled P :=
  ⟨o, on_ofExcept o, h⟩

theorem Settled.bind {x : Run α} {f : α → Run β} (hx : x.Settled P)
    (hf : ∀ a, P a → (f a).Settled Q) : (x >>= f).Settled Q := by
  obtain ⟨e | a, hx, holds⟩ := hx
  · exact ⟨.error e, fun s => on_bind_error (hx s) f, fun _ same => by cases same⟩
  · obtain ⟨o, ho, holds'⟩ := hf a (holds a rfl)
    exact ⟨o, fun s => (on_bind_ok (hx s) f).trans (ho s), holds'⟩

theorem settled_foldlM {f : α → β → Run α} {xs : List β}
    (hf : ∀ a, P a → ∀ x ∈ xs, (f a x).Settled P) {a : α} (h : P a) : (xs.foldlM f a).Settled P := by
  induction xs generalizing a with
  | nil => exact settled_pure h
  | cons x xs ih =>
    rw [List.foldlM_cons]
    refine (hf a h x List.mem_cons_self).bind fun a' h' => ?_
    exact ih (fun a ha y hy => hf a ha y (List.mem_cons_of_mem x hy)) h'

end Run

namespace Recipe

variable {s : Sources} {name : String} {d : Variable}

/-- Null counts as no value before anyone is asked. -/
theorem knownValue?_ne_null {v : Value} {o : Origin} (h : knownValue? s name d = some (v, o)) :
    v ≠ .null := by
  rintro rfl
  unfold knownValue? at h
  split at h
  · split at h
    · cases h
    · split at h <;> simp_all
  · split at h
    · cases h
    · split at h <;> simp_all
  · simp_all

section Resolution

variable (known : d.required = true → (knownValue? s name d).isSome = true)

include known

/-- No one is asked for a variable that has a value or does not need one. -/
theorem firstValue_settled :
    (firstValue s name d).Settled fun v =>
      d.required = true → ∃ x o, v = some (x, o) ∧ x ≠ .null := by
  unfold firstValue
  split
  next v found => exact settled_pure fun _ => ⟨v.1, v.2, rfl, knownValue?_ne_null found⟩
  next unknown =>
    have optional : d.required ≠ true := fun required => by
      have some := known required
      rw [unknown] at some
      cases some
    unfold askedValue
    split
    · contradiction
    · exact settled_pure fun required => absurd required optional

theorem resolveOne_settled {acc : Resolving} (h : acc.unresolved = []) :
    (resolveOne s acc name d).Settled (·.unresolved = []) := by
  unfold resolveOne
  refine (firstValue_settled known).bind fun value has => ?_
  have optional (absent : ∀ x o, value = some (x, o) → x = .null) : ¬ d.required = true := by
    intro required
    obtain ⟨x, o, some, nonnull⟩ := has required
    exact nonnull (absent x o some)
  split
  next =>
    rw [if_neg (optional fun _ _ some => by cases some)]
    exact settled_pure h
  next =>
    rw [if_neg (optional fun _ _ some => by cases some; rfl)]
    exact settled_pure h
  next =>
    split
    · exact settled_pure h
    · refine (settled_ofExcept fun _ _ => trivial).bind (P := fun _ => True) fun problems _ => ?_
      exact settled_pure h

end Resolution

/-- Where every required variable has a value, no one is asked and none is left to the model. -/
theorem resolveVariables_settled {r : Recipe}
    (known : ∀ x ∈ r.declared, x.2.required = true → (knownValue? s x.1 x.2).isSome = true) :
    (r.resolveVariables s).Settled (·.missing = []) := by
  unfold resolveVariables
  refine (settled_foldlM (P := fun acc => acc.unresolved = []) (fun acc h x hx => ?_) rfl).bind
    fun done resolved => settled_ofExcept fun b concluded => ?_
  · exact resolveOne_settled (known x hx) h
  · simp only [Resolving.conclude, resolved, List.isEmpty_nil, Bool.true_or, if_true,
      ite_self] at concluded
    split at concluded
    · cases concluded
      rfl
    · cases concluded

/-- A request supplies every required variable, by its parameters or by defaults. -/
def IsSupplied (r : Recipe) (q : RunRequest) (words : List String) : Prop :=
  ∀ x ∈ r.declared, x.2.required = true →
    (knownValue? { provided := Arguments.bindTo r words q.params, useDefaults := q.useDefaults }
      x.1 x.2).isSome = true

end Recipe

/-! ## Runs that complete -/

/-- A transport that knows answers: it gives those of them that it is asked for, and leaves the files
alone. -/
def Transport.Knows (tr : Transport) (A : Record String) : Prop :=
  ∀ request s,
    ((tr.resolve request).on s).1 = .ok (.resolved (A.restrict request.collector.keys.contains)) ∧
      ((tr.resolve request).on s).2.tree = s.tree

namespace Runner

/-- A run completed and left these files. -/
def Completed (p : Except Failure RunOutcome × Session) (tree : Tree) : Prop :=
  ∃ o, p.1 = .ok o ∧ o.status = .completed ∧ p.2.tree = tree

/-- The first pass of a run without answers: the recipe is executed with its prompts collected. -/
def firstPass (u : Runner) (r : Recipe) (q : RunRequest) (words : List String) : Run RecipeResult := do
  Run.collect Collector.clear
  let b ← u.scope r q words none
  u.collectPrompts r q b

variable {u : Runner} {sh : Shell} {actions : Actions} {r : Recipe} {q : RunRequest}
variable {words : List String} {s t : Session} {tree : Tree}

theorem completed_congr {p p' : Except Failure RunOutcome × Session} (outcome : p.1 = p'.1)
    (files : p.2.tree = p'.2.tree) : Completed p tree ↔ Completed p' tree := by
  unfold Completed
  rw [outcome, files]

theorem scope_settled (h : r.IsSupplied q words) (answers : Option (Record String)) :
    (u.scope r q words answers).Settled (·.missing = []) :=
  Recipe.resolveVariables_settled fun x hx required => Recipe.knownValue?_isSome (h x hx required)

theorem ofResult_agrees (h : u.engine.Repeatable q.options sh actions) (b : Bindings)
    (answers : Record String) (files : s.tree = t.tree) (collector : s.collector = t.collector) :
    let x : Run RunOutcome := do return .ofResult (← u.engine.execute r b q.options answers)
    (x.on s).1 = (x.on t).1 ∧ (x.on s).2.tree = (x.on t).2.tree := by
  obtain ⟨outcome, after⟩ := Engine.execute_agrees h r b answers files collector
  dsimp only
  rw [on_bind, on_bind]
  rcases hs : (u.engine.execute r b q.options answers).on s with ⟨f | o, s'⟩ <;>
    rcases ht : (u.engine.execute r b q.options answers).on t with ⟨f' | o', t'⟩ <;>
    rw [hs, ht] at outcome after <;> cases outcome <;> exact ⟨rfl, after⟩

/-- With answers a run depends on nothing but the files. -/
theorem resume_agrees (h : u.engine.Repeatable q.options sh actions) (supplied : r.IsSupplied q words)
    (answers : Record String) (files : s.tree = t.tree) :
    ((u.resume r q words answers).on s).1 = ((u.resume r q words answers).on t).1 ∧
      ((u.resume r q words answers).on s).2.tree = ((u.resume r q words answers).on t).2.tree := by
  unfold resume
  rw [on_bind_ok (on_clear s), on_bind_ok (on_clear t)]
  obtain ⟨f | b, settled, -⟩ := scope_settled (u := u) supplied (some answers)
  · rw [on_bind_error (settled _), on_bind_error (settled _)]
    exact ⟨rfl, files⟩
  · rw [on_bind_ok (settled _), on_bind_ok (settled _)]
    split
    · exact ⟨rfl, files⟩
    · exact ofResult_agrees h b answers files rfl

/-! ## Two passes -/

section Passes

variable {b : Bindings} {first : RecipeResult} {A : Record String}
variable (asks : r.asksModel = true) (hq : q.answers = none)
variable (settled : ∀ s, (u.scope r q words none).on s = (.ok b, s))

include settled in
theorem firstPass_on (s : Session) :
    (u.firstPass r q words).on s = (u.collectPrompts r q b).on s.cleared :=
  (on_bind_ok (on_clear s) _).trans (on_bind_ok (settled s.cleared) _)

include asks hq settled in
theorem runLoaded_on (s : Session) :
    (u.runLoaded r q words).on s =
      match (u.collect r q b).on s.cleared with
      | (.ok (.ended o), t) => (.ok o, t)
      | (.ok (.answered first o), t) => (u.conclude r q words first o).on t
      | (.error f, t) => (.error f, t.cleared) := by
  unfold runLoaded
  rw [hq]
  dsimp only
  rw [on_bind_ok (on_clear s), on_bind_ok (settled _), if_neg (by simp [asks]), on_bind, on_clearing]
  rcases (u.collect r q b).on s.cleared with ⟨f | o | ⟨first, o⟩, t⟩ <;> rfl

include asks hq settled in
/-- A run does not complete unless its first pass succeeds. -/
theorem not_completed {o : Except Failure RecipeResult}
    (pass : (u.collectPrompts r q b).on s.cleared = (o, t))
    (failed : ∀ first, o = .ok first → first.success = false) :
    ¬ Completed ((u.runLoaded r q words).on s) tree := by
  rw [runLoaded_on asks hq settled]
  unfold collect
  rcases o with f | first
  · rw [on_bind_error pass]
    rintro ⟨o, raised, -⟩
    cases raised
  · rw [on_bind_ok pass, failed first rfl]
    rintro ⟨o, ended, completed, -⟩
    cases ended
    cases completed

variable (h : u.engine.Repeatable q.options sh actions) (supplied : r.IsSupplied q words)

include asks hq settled h in
/-- Where nothing was asked for the recipe is executed as it is with no answers. -/
theorem completed_iff_of_not_pending (missing : b.missing = [])
    (pass : (u.collectPrompts r q b).on s.cleared = (.ok first, t)) (success : first.success = true)
    (files : t.tree = s.tree) (pending : t.collector.isPending = false) :
    Completed ((u.runLoaded r q words).on s) tree ↔
      Completed ((u.resume r q words []).on s) tree := by
  -- with no answers the variables are those that were resolved before
  have once : (u.resume r q words []).on s = (u.runPlain r q b).on s.cleared := by
    unfold resume
    have same : (u.scope r q words (some [])).on s.cleared = (.ok b, s.cleared) := settled _
    rw [on_bind_ok (on_clear s), on_bind_ok same, missing]
    rfl
  have ended : (u.collect r q b).on s.cleared = match (u.runPlain r q b).on t.cleared with
      | (.ok o, t') => (.ok (.ended o), t')
      | (.error f, t') => (.error f, t') := by
    unfold collect
    rw [on_bind_ok pass, success]
    simp only [Bool.not_true, Bool.false_eq_true, if_false]
    rw [on_bind_ok (on_get t), pending]
    simp only [Bool.not_false, if_true]
    rw [on_bind_ok (on_clear t), on_bind]
    rcases (u.runPlain r q b).on t.cleared with ⟨f | o, t'⟩ <;> rfl
  have agree : ((u.runPlain r q b).on t.cleared).1 = ((u.runPlain r q b).on s.cleared).1 ∧
      ((u.runPlain r q b).on t.cleared).2.tree = ((u.runPlain r q b).on s.cleared).2.tree :=
    ofResult_agrees h b [] files rfl
  rw [once, runLoaded_on asks hq settled, ended, ← completed_congr agree.1 agree.2]
  rcases (u.runPlain r q b).on t.cleared with ⟨f | o, t'⟩
  · exact completed_congr rfl rfl
  · exact Iff.rfl

include asks hq settled h supplied in
/-- Where something was asked for the recipe is executed as it is with the answers of the transport. -/
theorem completed_iff_of_pending {tr : Transport} (htr : u.transport = .ok tr)
    (pass : (u.collectPrompts r q b).on s.cleared = (.ok first, t)) (success : first.success = true)
    (files : t.tree = s.tree) (pending : t.collector.isPending = true)
    (reply : ((tr.resolve ⟨t.collector, q.command, q.answersPath⟩).on t).1 = .ok (.resolved A))
    (untouched : ((tr.resolve ⟨t.collector, q.command, q.answersPath⟩).on t).2.tree = t.tree) :
    Completed ((u.runLoaded r q words).on s) tree ↔
      Completed ((u.resume r q words A).on s) tree := by
  rcases resolved : (tr.resolve ⟨t.collector, q.command, q.answersPath⟩).on t with ⟨o, t'⟩
  rw [resolved] at reply untouched
  obtain rfl : o = .ok (.resolved A) := reply
  have answered : (u.collect r q b).on s.cleared = (.ok (.answered first (.resolved A)), t') := by
    unfold collect
    rw [on_bind_ok pass, success]
    simp only [Bool.not_true, Bool.false_eq_true, if_false]
    rw [on_bind_ok (on_get t), pending, htr]
    simp only [Bool.not_true, Bool.false_eq_true, if_false]
    rw [on_bind_ok (on_ofExcept _ t), on_bind_ok (on_get t), on_bind_ok resolved]
    rfl
  have agree := resume_agrees (s := t'.cleared) (t := s) h supplied A (untouched.trans files)
  rw [runLoaded_on asks hq settled, answered, ← completed_congr agree.1 agree.2]
  unfold conclude
  dsimp only
  rw [on_bind_ok (on_clear t')]
  rw [on_bind]
  rcases (u.resume r q words A).on t'.cleared with ⟨f | done, t''⟩
  · exact Iff.rfl
  · constructor
    · rintro ⟨o, same, completed, left⟩
      cases same
      exact ⟨done, rfl, completed, left⟩
    · rintro ⟨o, same, completed, left⟩
      cases same
      exact ⟨_, rfl, completed, left⟩

include asks hq settled h supplied in
/-- A run whose first pass succeeds goes on as a run that is given the answers it asked for. -/
theorem completed_iff_of_passed {tr : Transport} (htr : u.transport = .ok tr) (knows : tr.Knows A)
    (missing : b.missing = []) (pass : (u.collectPrompts r q b).on s.cleared = (.ok first, t))
    (success : first.success = true) (files : t.tree = s.tree) :
    Completed ((u.runLoaded r q words).on s) tree ↔
      Completed ((u.resume r q words (A.restrict t.collector.keys.contains)).on s) tree := by
  cases pending : t.collector.isPending with
  | true =>
    obtain ⟨reply, untouched⟩ := knows ⟨t.collector, q.command, q.answersPath⟩ t
    exact completed_iff_of_pending asks hq settled h supplied htr pass success files pending reply
      untouched
  | false =>
    have none : t.collector.inquiries = [] := by simpa [Collector.isPending] using pending
    have nothing : A.restrict t.collector.keys.contains = [] := by
      simp [Record.restrict, Collector.keys, Record.keys, none]
    rw [nothing]
    exact completed_iff_of_not_pending asks hq settled h missing pass success files pending

include asks hq settled h supplied in
/-- A run completes exactly where its first pass succeeds and a run that is given the answers asked for
completes. -/
theorem completed_iff_resumed {tr : Transport} (htr : u.transport = .ok tr) (knows : tr.Knows A)
    (hw : ∀ w, u.engine.prompter = some w → w.Quiet) (missing : b.missing = []) :
    Completed ((u.runLoaded r q words).on s) tree ↔
      ∃ first t, (u.firstPass r q words).on s = (.ok first, t) ∧ first.success = true ∧
        Completed ((u.resume r q words (A.restrict t.collector.keys.contains)).on s) tree := by
  have harmless := collectPrompts_harmless h.tools hw r q b s.cleared
  rw [firstPass_on settled]
  rcases pass : (u.collectPrompts r q b).on s.cleared with ⟨o, t⟩
  rw [pass] at harmless
  constructor
  · intro completed
    by_cases passed : ∃ first, o = .ok first ∧ first.success = true
    · obtain ⟨first, rfl, success⟩ := passed
      rw [completed_iff_of_passed asks hq settled h supplied htr knows missing pass success
        harmless.tree] at completed
      exact ⟨first, t, rfl, success, completed⟩
    · refine absurd completed (not_completed asks hq settled pass fun first same => ?_)
      cases success : first.success with
      | true => exact absurd ⟨first, same, success⟩ passed
      | false => rfl
  · rintro ⟨first, t', same, success, completed⟩
    cases same
    exact (completed_iff_of_passed asks hq settled h supplied htr knows missing pass success
      harmless.tree).mpr completed

end Passes

/-- Where the variables cannot be resolved there is no first pass, and the run fails. -/
theorem unresolved_on {f : Failure} (hq : q.answers = none)
    (settled : ∀ s, (u.scope r q words none).on s = (.error f, s)) (s : Session) :
    (u.firstPass r q words).on s = (.error f, s.cleared) ∧
      (u.runLoaded r q words).on s = (.error f, s.cleared) := by
  constructor
  · exact (on_bind_ok (on_clear s) _).trans (on_bind_error (settled s.cleared) _)
  · unfold runLoaded
    rw [hq]
    exact (on_bind_ok (on_clear s) _).trans (on_bind_error (settled s.cleared) _)

/-- Where all answers are asked for, those that are asked for are the answers. -/
theorem restrict_eq_self {A : Record String} {keys : List String} (all : ∀ k ∈ A.keys, k ∈ keys) :
    A.restrict keys.contains = A := by
  refine List.filter_eq_self.mpr fun x hx => ?_
  have asked : x.1 ∈ keys := all x.1 (List.mem_map_of_mem hx)
  simpa using asked

/-- Against a run that is given answers and completes, a run that gets them from a transport completes
with the same files exactly where its first pass succeeds and either all answers are asked for, or
those that are asked for would do. -/
theorem completed_twoPass_iff (h : u.engine.Repeatable q.options sh actions)
    (hw : ∀ w, u.engine.prompter = some w → w.Quiet) {tr : Transport} (htr : u.transport = .ok tr)
    {A : Record String} (knows : tr.Knows A) (asks : r.asksModel = true) (hq : q.answers = none)
    (supplied : r.IsSupplied q words)
    (once : Completed ((u.runLoaded r { q with answers := some A } words).on s) tree) :
    Completed ((u.runLoaded r q words).on s) tree ↔
      ∃ first t, (u.firstPass r q words).on s = (.ok first, t) ∧ first.success = true ∧
        ((∀ k ∈ A.keys, k ∈ t.collector.keys) ∨
          Completed ((u.runLoaded r
            { q with answers := some (A.restrict t.collector.keys.contains) } words).on s) tree) := by
  obtain ⟨f | b, settled, missing⟩ := scope_settled (u := u) supplied none
  · obtain ⟨passed, ran⟩ := unresolved_on hq settled s
    rw [passed, ran]
    constructor
    · rintro ⟨o, same, -⟩
      cases same
    · rintro ⟨first, t, same, -⟩
      cases same
  · rw [completed_iff_resumed asks hq settled h supplied htr knows hw (missing b rfl)]
    constructor
    · rintro ⟨first, t, passed, success, completed⟩
      exact ⟨first, t, passed, success, .inr completed⟩
    · rintro ⟨first, t, passed, success, all | completed⟩
      · refine ⟨first, t, passed, success, ?_⟩
        rw [restrict_eq_self all]
        exact once
      · exact ⟨first, t, passed, success, completed⟩

end Runner

/-! ## A step that needs what an earlier one inserts -/

namespace Successive

/-- A recipe that inserts a line, and then another one after it. -/
def recipe : Recipe where
  name := "successive"
  steps := [{ name := "first", body := .inject { target := "a.txt", body := some "two" } },
    { name := "second"
      body := .inject { target := "a.txt", body := some "three", insertion := { after := some "two" } } },
    { name := "third", body := .ai { key := some "note", prompt := "What was done?" } }]

def answers : Record String := [("note", "Two lines were inserted.")]

def transport : Transport where
  resolve request := return .resolved (answers.restrict request.collector.keys.contains)

def runner : Runner where
  engine := { project := .ofString "/project", tools := .standard (fun _ _ => .error .noProgram) [] }
  transport := .ok transport

/-- A project with one file. -/
def session : Session where
  tree := ⟨[(["project"], .directory), (["project", "a.txt"], .file (.text "one\n"))]⟩

/-- The run that is given the answers. -/
def once : Except Failure RunOutcome × Session :=
  (runner.runLoaded recipe { answers := some answers } []).on session

theorem repeatable : runner.engine.Repeatable {} (fun _ _ => .error .noProgram) [] where
  tools _ h := h
  generator := rfl
  prompter _ _ h := by cases h
  handlers _ _ found := by cases found

theorem transport_knows : transport.Knows answers := fun _ _ => ⟨rfl, rfl⟩

theorem once_completed : Runner.Completed once once.2.tree := by
  have completed : once.1.toOption.any (·.status == .completed) = true := by decide +kernel
  rcases h : once.1 with f | o <;> rw [h] at completed
  · cases completed
  · exact ⟨o, h, by simpa [Except.toOption] using completed, rfl⟩

/-- The run with answers completes and inserts both lines, and the run without them does not complete. -/
theorem completes_only_once : recipe.asksModel = true ∧ recipe.IsSupplied {} [] ∧
    runner.engine.generator = none ∧ runner.transport = .ok transport ∧ transport.Knows answers ∧
    answers.keys = ["note"] ∧ Runner.Completed once once.2.tree ∧
    once.2.tree.at? ["project", "a.txt"] = some (.file (.text "one\ntwo\nthree\n")) ∧
    ∀ tree, ¬ Runner.Completed ((runner.runLoaded recipe {} []).on session) tree := by
  refine ⟨rfl, by simp [Recipe.IsSupplied, recipe], rfl, rfl, transport_knows, rfl, once_completed,
    by decide +kernel, ?_⟩
  have failed : ((runner.runLoaded recipe {} []).on session).1.toOption.any
      (·.status == .completed) = false := by decide +kernel
  rintro tree ⟨o, same, completed, -⟩
  rw [same] at failed
  simp [Except.toOption, completed] at failed

/-- The run without answers does not complete, since its first pass does not succeed. -/
theorem completed_iff_passed : Runner.Completed once once.2.tree ∧
    (Runner.Completed ((runner.runLoaded recipe {} []).on session) once.2.tree ↔
      ∃ first t, (runner.firstPass recipe {} []).on session = (.ok first, t) ∧ first.success = true ∧
        ((∀ k ∈ answers.keys, k ∈ t.collector.keys) ∨
          Runner.Completed ((runner.runLoaded recipe
            { answers := some (answers.restrict t.collector.keys.contains) } []).on session)
            once.2.tree)) :=
  ⟨once_completed, Runner.completed_twoPass_iff repeatable (fun _ h => by cases h) rfl transport_knows
    rfl rfl (by simp [Recipe.IsSupplied, recipe]) once_completed⟩

end Successive

end Scaffold
