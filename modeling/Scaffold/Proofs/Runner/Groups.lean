import Scaffold.Proofs.Session.Runs
import Scaffold.Run

/-!
# Groups

The recipes of a group run one after the other, each in the session that the one before it left.  What
the runs come to is taken as given: a run may complete, fail, wait for answers or raise a failure of the
domain.

A group has an entry for each recipe up to the first that stops it.  A recipe that waits for answers
stops every group, and one that does not succeed stops a group that is not told to go on.  So the last
entry tells how the group ended: only the last recipe can be one that waits, and a group that ends early
ends with a recipe that stops it.
-/

namespace Scaffold

open Run

/-- The line of a recipe that ran says whether it completed without a failed step. -/
theorem RunOutcome.entry_success (o : RunOutcome) (name : String) :
    (GroupEntry.ofOutcome name o).success = (o.status == .completed && o.result.any (·.success)) := by
  cases h : o.status <;> simp [GroupEntry.ofOutcome, h]

namespace Group

/-- A recipe of a group and what came of its run. -/
structure Member where
  file : Path
  outcome : Except Failure RunOutcome

namespace Member

/-- What the report calls a recipe. -/
def name (directory : Path) (m : Member) : String :=
  ((m.file.parent.below? directory).getD m.file.parent).toString

/-- The line of a recipe in the report. -/
def entry (directory : Path) (m : Member) : GroupEntry :=
  match m.outcome with
  | .ok o => .ofOutcome (m.name directory) o
  | .error e => .ofFailure (m.name directory) e

/-- Whether a recipe waits for answers. -/
def waits (m : Member) : Bool := m.outcome.toOption.any (·.status == .deferred)

/-- Whether a recipe succeeded. -/
def succeeds (m : Member) : Bool :=
  m.outcome.toOption.any fun o => o.status == .completed && o.result.any (·.success)

/-- Whether a recipe is the last of its group to run. -/
def stops (goOn : Bool) (m : Member) : Bool := m.waits || !goOn && !m.succeeds

theorem entry_success (directory : Path) (m : Member) : (m.entry directory).success = m.succeeds := by
  obtain ⟨file, e | o⟩ := m
  · rfl
  · exact o.entry_success _

theorem succeeds_of_waits {m : Member} (h : m.waits = true) : m.succeeds = false := by
  obtain ⟨file, e | o⟩ := m
  · rfl
  · simp only [waits, Except.toOption, Option.any_some, beq_iff_eq] at h
    simp [succeeds, Except.toOption, h]

end Member

/-- The recipes of a group with what their runs come to, if none of them stops the group. -/
def members (run : Path → Run RunOutcome) : List Path → Session → List Member
  | [], _ => []
  | file :: rest, s =>
    let (outcome, s') := (run file).on s
    ⟨file, outcome⟩ :: members run rest s'

/-- Those of them that are reached: all up to the first that stops the group. -/
def reached (goOn : Bool) (ms : List Member) : List Member := ms.take (ms.findIdx (·.stops goOn) + 1)

/-- The recipe that a group waits for, if the last one that was reached waits for answers. -/
def pending (directory : Path) (ms : List Member) : Option String :=
  (ms.getLast?.filter (·.waits)).map (·.name directory)

theorem members_file (run : Path → Run RunOutcome) (files : List Path) (s : Session) :
    (members run files s).map (·.file) = files := by
  induction files generalizing s with
  | nil => rfl
  | cons file rest ih => rw [members, List.map_cons, ih]

theorem length_members (run : Path → Run RunOutcome) (files : List Path) (s : Session) :
    (members run files s).length = files.length := by
  rw [← List.length_map, members_file]

section Reached

variable {goOn : Bool} {m : Member} {ms : List Member}

theorem reached_of_stops (h : m.stops goOn = true) : reached goOn (m :: ms) = [m] := by
  simp [reached, List.findIdx_cons, h]

theorem reached_of_not_stops (h : m.stops goOn = false) :
    reached goOn (m :: ms) = m :: reached goOn ms := by
  simp [reached, List.findIdx_cons, h]

theorem reached_isPrefix (goOn : Bool) (ms : List Member) : reached goOn ms <+: ms := List.take_prefix _ _

/-- No recipe before the last stops the group. -/
theorem not_stops_of_mem_dropLast (h : m ∈ (reached goOn ms).dropLast) : m.stops goOn = false := by
  induction ms with
  | nil => cases h
  | cons a ms ih =>
    cases stops : a.stops goOn with
    | true => simp [reached_of_stops stops] at h
    | false =>
      rw [reached_of_not_stops stops] at h
      cases behind : reached goOn ms with
      | nil => simp [behind] at h
      | cons b bs =>
        rw [behind, List.dropLast_cons_cons, List.mem_cons] at h
        rcases h with rfl | h
        · exact stops
        · exact ih (by rw [behind]; exact h)

/-- A group that ends early ends with a recipe that stops it. -/
theorem getLast?_reached (h : (reached goOn ms).length < ms.length) :
    ∃ m, (reached goOn ms).getLast? = some m ∧ m.stops goOn = true := by
  induction ms with
  | nil => cases h
  | cons a ms ih =>
    cases stops : a.stops goOn with
    | true => exact ⟨a, by rw [reached_of_stops stops]; rfl, stops⟩
    | false =>
      rw [reached_of_not_stops stops, List.length_cons, List.length_cons] at h
      obtain ⟨m, last, hm⟩ := ih (by omega)
      refine ⟨m, ?_, hm⟩
      rw [reached_of_not_stops stops, List.getLast?_cons, last]
      rfl

theorem pending_singleton (directory : Path) (m : Member) :
    pending directory [m] = if m.waits then some (m.name directory) else none := by
  simp only [pending, List.getLast?_singleton, Option.filter_some]
  split <;> rfl

theorem pending_cons {directory : Path} (h : m.waits = false) :
    pending directory (m :: ms) = pending directory ms := by
  unfold pending
  rw [List.getLast?_cons]
  cases ms.getLast? with
  | none => simp [h]
  | some b => rfl

end Reached

/-! ## The run of a group -/

variable {run : Path → Run RunOutcome} {goOn : Bool} {directory : Path}

/-- A recipe that stops the group is its last entry; behind any other the group goes on. -/
theorem runEach_cons {file : Path} {rest : List Path} {s s' : Session}
    {outcome : Except Failure RunOutcome} (ran : (run file).on s = (outcome, s'))
    (domain : ∀ e, outcome = .error e → e.isDomain = true) :
    let m : Member := ⟨file, outcome⟩
    (runEach run goOn directory (file :: rest)).on s =
      if m.stops goOn then (.ok ([m.entry directory], pending directory [m]), s')
      else match (runEach run goOn directory rest).on s' with
        | (.ok (entries, waiting), t) => (.ok (m.entry directory :: entries, waiting), t)
        | (.error e, t) => (.error e, t) := by
  intro m
  have attempted : (run file).attempt.on s = (.ok outcome, s') := by rw [on_attempt, ran]
  -- what is done with the entries of the recipes behind
  have behind : (do
      let x ← runEach run goOn directory rest
      return (m.entry directory :: x.1, x.2) : Run (List GroupEntry × Option String)).on s' =
        match (runEach run goOn directory rest).on s' with
        | (.ok (entries, waiting), t) => (.ok (m.entry directory :: entries, waiting), t)
        | (.error e, t) => (.error e, t) := by
    rw [on_bind]
    rcases (runEach run goOn directory rest).on s' with ⟨e | ⟨entries, waiting⟩, t⟩ <;> rfl
  rw [runEach]
  dsimp only
  rw [on_bind_ok attempted]
  cases outcome with
  | error e =>
    have known : e.isDomain = true := domain e rfl
    cases goOn with
    | false =>
      simp only [known, Bool.not_true, Bool.false_eq_true, if_false, Bool.not_false, if_true]
      rfl
    | true =>
      simp only [known, Bool.not_true, Bool.false_eq_true, if_false]
      exact behind
  | ok o =>
    have idle : m.waits = (o.status == .deferred) := rfl
    have success (name : String) : (GroupEntry.ofOutcome name o).success = m.succeeds :=
      o.entry_success name
    simp only [Member.stops, pending_singleton, idle]
    cases waits : o.status == .deferred with
    | true => rfl
    | false =>
      simp only [success, Bool.false_or, Bool.false_eq_true, if_false]
      cases m.succeeds <;> cases goOn
      case false.false => rfl
      all_goals exact behind

/-- A group reports on the recipes that are reached. -/
theorem runEach_on {files : List Path}
    (domain : ∀ file ∈ files, ∀ s e, ((run file).on s).1 = .error e → e.isDomain = true)
    (s : Session) :
    let ms := reached goOn (members run files s)
    ∃ t, (runEach run goOn directory files).on s =
      (.ok (ms.map (·.entry directory), pending directory ms), t) := by
  induction files generalizing s with
  | nil => exact ⟨s, rfl⟩
  | cons file rest ih =>
    rcases ran : (run file).on s with ⟨outcome, s'⟩
    have known : ∀ e, outcome = .error e → e.isDomain = true := fun e raised =>
      domain file List.mem_cons_self s e (by rw [ran, raised])
    obtain ⟨t, behind⟩ := ih (fun f hf => domain f (List.mem_cons_of_mem file hf)) s'
    rw [runEach_cons ran known, behind, members, ran]
    dsimp only
    cases stops : (⟨file, outcome⟩ : Member).stops goOn with
    | true =>
      rw [reached_of_stops stops]
      exact ⟨s', rfl⟩
    | false =>
      -- a recipe that does not stop the group is not one that it waits for
      have idle : (⟨file, outcome⟩ : Member).waits = false := by
        simp only [Member.stops, Bool.or_eq_false_iff] at stops
        exact stops.1
      rw [if_neg (by simp), reached_of_not_stops stops, pending_cons idle]
      exact ⟨t, rfl⟩

section Report

variable {ms : List Member}

theorem reached_succeeds {m : Member} (h : m ∈ (reached false ms).dropLast) : m.succeeds = true := by
  have going := not_stops_of_mem_dropLast h
  simp only [Member.stops, Bool.not_false, Bool.true_and, Bool.or_eq_false_iff,
    Bool.not_eq_false'] at going
  exact going.2

/-- A recipe that stops a group did not succeed. -/
theorem not_succeeds_of_stops {m : Member} (h : m.stops goOn = true) : m.succeeds = false := by
  simp only [Member.stops, Bool.or_eq_true, Bool.and_eq_true, Bool.not_eq_true'] at h
  rcases h with waits | ⟨-, failed⟩
  · exact m.succeeds_of_waits waits
  · exact failed

theorem pending_eq_some_iff {name : String} :
    pending directory ms = some name ↔
      ∃ m, ms.getLast? = some m ∧ m.waits = true ∧ m.name directory = name := by
  unfold pending
  cases ms.getLast? with
  | none => simp
  | some m => simp [Option.filter_some]

/-- All recipes that were reached succeeded exactly where all were reached and succeeded: those that
were not reached are behind one that did not succeed. -/
theorem length_reached (h : ∀ m ∈ reached goOn ms, m.succeeds = true) :
    (reached goOn ms).length = ms.length := by
  rcases Nat.lt_or_eq_of_le (reached_isPrefix goOn ms).length_le with early | all
  · obtain ⟨m, last, stops⟩ := getLast?_reached early
    have success := h m (List.mem_of_getLast? last)
    rw [not_succeeds_of_stops stops] at success
    cases success
  · exact all

/-- Where all recipes succeeded the group waits for none. -/
theorem pending_eq_none (h : ∀ m ∈ ms, m.succeeds = true) : pending directory ms = none := by
  rw [Option.eq_none_iff_forall_ne_some]
  intro name waiting
  obtain ⟨m, last, waits, -⟩ := pending_eq_some_iff.mp waiting
  have success := h m (List.mem_of_getLast? last)
  rw [m.succeeds_of_waits waits] at success
  cases success

variable (goOn directory ms) in
/-- A group succeeded where there were recipes and all of them succeeded. -/
theorem success_reached_iff :
    GroupResult.success
        { path := directory, entries := (reached goOn ms).map (·.entry directory)
          pending := pending directory (reached goOn ms) } = true ↔
      ms ≠ [] ∧ (reached goOn ms).length = ms.length ∧ ∀ m ∈ reached goOn ms, m.succeeds = true := by
  simp only [GroupResult.success, Bool.and_eq_true, Bool.not_eq_true', List.isEmpty_eq_false_iff,
    List.all_eq_true, List.forall_mem_map, Member.entry_success, Option.isNone_iff_eq_none]
  constructor
  · rintro ⟨⟨-, some⟩, success⟩
    refine ⟨?_, length_reached success, success⟩
    rintro rfl
    exact some rfl
  · rintro ⟨some, all, success⟩
    refine ⟨⟨pending_eq_none success, fun none => some ?_⟩, success⟩
    have empty : reached goOn ms = [] := List.map_eq_nil_iff.mp none
    rw [empty, List.length_nil] at all
    exact List.eq_nil_of_length_eq_zero all.symm

/-- A group has status 2 where it waits for answers, 0 where it succeeded, and 1 otherwise. -/
theorem exitStatus_group (g : GroupResult) (path : String) (h : g.success = true → g.pending = none) :
    let status := (RunReport.group g path).exitStatus
    (status = 2 ↔ g.pending.isSome = true) ∧ (status = 0 ↔ g.success = true) ∧
      (status = 2 ∨ status = 0 ∨ status = 1) := by
  simp only [RunReport.exitStatus, pendingStatus]
  cases waiting : g.pending with
  | none => cases g.success <;> simp
  | some name =>
    cases success : g.success with
    | true => simp [waiting] at h; exact absurd success (by simpa using h)
    | false => simp

end Report

/-- The run of a group is that of its recipes, as far as they are reached. -/
theorem run_group_on {u : Runner} {q : RunRequest} {target : Resolved} {files : List Path}
    {entries : List GroupEntry} {waiting : Option String} {s t : Session}
    (group : target.isGroup = true) (found : Recipe.discover s.tree target.path = .ok files)
    (ran : (runEach (fun file => u.runRecipe file q []) q.continueOnError target.path files).on s =
      (.ok (entries, waiting), t)) :
    (u.run target q).on s =
      (.ok (.group { path := target.path, entries, pending := waiting } q.answersPath), t) := by
  have discovered : (ofFile (Recipe.discover s.tree target.path)).on s = (.ok files, s) := by
    rw [found]
    rfl
  unfold Runner.run Runner.runGroup
  rw [if_pos group, on_bind]
  rw [on_bind_ok (on_get s), on_bind_ok discovered, on_bind_ok ran]
  rfl

/-- What comes of a group: its first `n` recipes were run, and it waits for one of them or for none. -/
structure Reported (run : Path → Run RunOutcome) (goOn : Bool) (directory : Path) (files : List Path)
    (s : Session) (n : Nat) (waiting : Option String) (t : Session) : Prop where
  within : n ≤ files.length
  /-- There is an entry for each recipe that was run, in order. -/
  entries : (runEach run goOn directory files).on s =
    (.ok (((members run files s).take n).map (·.entry directory), waiting), t)
  order : ((members run files s).take n).map (·.file) = files.take n
  /-- A group that does not go on ends at the first entry without success, or with its last recipe. -/
  endsAtFailure : goOn = false →
    let entries := ((members run files s).take n).map (·.entry directory)
    (∀ e ∈ entries.dropLast, e.success = true) ∧
      (n < files.length → ∃ e, entries.getLast? = some e ∧ e.success = false)
  /-- A group that goes on ends at the first recipe that waits for answers, or with its last recipe. -/
  endsWaiting : goOn = true →
    let ran := (members run files s).take n
    (∀ m ∈ ran.dropLast, m.waits = false) ∧
      (n < files.length → ∃ m, ran.getLast? = some m ∧ m.waits = true)
  /-- A group waits for its last entry, if that is one of a recipe that waits. -/
  waits : ∀ name, waiting = some name ↔ ∃ m, ((members run files s).take n).getLast? = some m ∧
    m.waits = true ∧ m.name directory = name
  /-- The exit status tells whether a group waits, whether all its recipes succeeded, or neither. -/
  status : ∀ path,
    let entries := ((members run files s).take n).map (·.entry directory)
    let report := RunReport.group { path := directory, entries, pending := waiting } path
    (report.exitStatus = 2 ↔ waiting.isSome = true) ∧
      (report.exitStatus = 0 ↔
        files ≠ [] ∧ n = files.length ∧ ∀ e ∈ entries, e.success = true) ∧
      (report.exitStatus = 2 ∨ report.exitStatus = 0 ∨ report.exitStatus = 1)
  /-- So it is for a runner whose runs of recipes are these. -/
  runner : ∀ (u : Runner) (q : RunRequest) (target : Resolved), target.isGroup = true →
    target.path = directory → q.continueOnError = goOn →
    (∀ file, run file = u.runRecipe file q []) → Recipe.discover s.tree directory = .ok files →
    let entries := ((members run files s).take n).map (·.entry directory)
    (u.run target q).on s =
      (.ok (.group { path := directory, entries, pending := waiting } q.answersPath), t)

/-- What a group reports, for whatever its recipes come to. -/
theorem runEach_reported {files : List Path}
    (domain : ∀ file ∈ files, ∀ s e, ((run file).on s).1 = .error e → e.isDomain = true)
    (s : Session) : ∃ n waiting t, Reported run goOn directory files s n waiting t := by
  have run_on : let ms := reached goOn (members run files s)
      ∃ t, (runEach run goOn directory files).on s =
        (.ok (ms.map (·.entry directory), pending directory ms), t) := runEach_on domain s
  obtain ⟨t, ran⟩ := run_on
  have length : (members run files s).length = files.length := length_members run files s
  have listed : (members run files s).map (·.file) = files := members_file run files s
  have taken : (members run files s).take (reached goOn (members run files s)).length =
      reached goOn (members run files s) :=
    (List.prefix_iff_eq_take.mp (reached_isPrefix goOn (members run files s))).symm
  refine ⟨(reached goOn (members run files s)).length,
    pending directory (reached goOn (members run files s)), t, ?_⟩
  constructor
  case within => exact length ▸ (reached_isPrefix goOn (members run files s)).length_le
  case entries => rwa [taken]
  case order => rw [List.map_take, listed]
  case endsAtFailure =>
    rw [taken]
    rintro rfl
    refine ⟨?_, fun early => ?_⟩
    · rw [← List.map_dropLast, List.forall_mem_map]
      exact fun m hm => (m.entry_success directory).trans (reached_succeeds hm)
    · obtain ⟨m, last, stops⟩ := getLast?_reached (length ▸ early)
      refine ⟨m.entry directory, by rw [List.getLast?_map, last]; rfl, ?_⟩
      rw [m.entry_success, not_succeeds_of_stops stops]
  case endsWaiting =>
    rw [taken]
    rintro rfl
    refine ⟨fun m hm => ?_, fun early => ?_⟩
    · simpa [Member.stops] using not_stops_of_mem_dropLast hm
    · obtain ⟨m, last, stops⟩ := getLast?_reached (length ▸ early)
      exact ⟨m, last, by simpa [Member.stops] using stops⟩
  case waits =>
    rw [taken]
    exact fun name => pending_eq_some_iff
  case status =>
    rw [taken]
    intro path
    have succeeded := success_reached_iff goOn directory (members run files s)
    obtain ⟨two, zero, others⟩ := exitStatus_group _ path fun success =>
      pending_eq_none (succeeded.mp success).2.2
    refine ⟨two, zero.trans (succeeded.trans ?_), others⟩
    have some : members run files s ≠ [] ↔ files ≠ [] := by
      rw [← List.length_pos_iff, length, List.length_pos_iff]
    simp only [some, length, List.forall_mem_map, Member.entry_success]
  case runner =>
    rw [taken]
    intro u q target group path goes same found
    subst path goes
    obtain rfl : run = fun file => u.runRecipe file q [] := funext same
    exact run_group_on group found ran

end Group

/-! ## A group with a recipe of every kind -/

namespace Assorted

/-- One recipe raises a failure, one succeeds, one waits for answers; the one behind it is not
reached. -/
def files : List Path :=
  ["/group/a/recipe.yml", "/group/b/recipe.yml", "/group/c/recipe.yml", "/group/d/recipe.yml"].map
    .ofString

/-- What each of them comes to. -/
def run (file : Path) : Run RunOutcome :=
  if file.parent.name = "a" then throw (.general "broken")
  else if file.parent.name = "c" then return { status := .deferred, passes := 1 }
  else return .ofResult { recipe := file.parent.name }

theorem run_domain (file : Path) (s : Session) (e : Failure)
    (h : ((run file).on s).1 = .error e) : e.isDomain = true := by
  unfold run at h
  split at h
  · cases h
    rfl
  · split at h <;> cases h

/-- The group goes on behind the recipe that raises a failure, up to the one that waits. -/
theorem reported : (∀ file ∈ files, ∀ s e, ((run file).on s).1 = .error e → e.isDomain = true) ∧
    ∃ n waiting t, Group.Reported run true (.ofString "/group") files {} n waiting t :=
  ⟨fun file _ => run_domain file, Group.runEach_reported (fun file _ => run_domain file) {}⟩

example : (Group.reached true (Group.members run files {})).map (·.name (.ofString "/group")) =
    ["a", "b", "c"] := by decide +kernel

end Assorted

end Scaffold
