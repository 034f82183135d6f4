import Scaffold.Proofs.Session.Questions
import Scaffold.Recipe.Variables

/-!
# Questions for variables

A required variable is open when it has no value yet and there is a person to ask.  To resolve the
variables of a recipe is to ask for the open ones, each of them once and in order, unless something is
raised on the way; and where nothing is, all of them are asked for.  Which variable is asked for first,
if any, does not depend on the session.

Answers only close variables.  So where the variables are resolved again with answers, any that is asked
for then was asked for before.  Where none is, the answers are all that can make a difference.
-/

namespace Scaffold

open Run Session

namespace Recipe

variable {s : Sources} {name : String} {d : Variable} {declared : Record Variable}

/-- A required variable without a value, which a person is asked for. -/
def isOpen (s : Sources) (name : String) (d : Variable) : Bool :=
  d.required && s.ask == some .person && s.prompter.isSome && (knownValue? s name d).isNone

/-- The variables that a person is asked for, in order. -/
def openIn (s : Sources) (declared : Record Variable) : Record Variable :=
  declared.filter fun e => isOpen s e.1 e.2

/-- Whether a first value of a variable, if there is one, can be checked at all. -/
def isCheckable (name : String) (d : Variable) : Option (Value × Origin) → Bool
  | none | some (.null, _) => true
  | some (raw, _) =>
    match d.coerce name raw with
    | .error _ => true
    | .ok v => (d.check name v).isOk

/-- The first variable that a person is asked for, if what is known of those before it can be checked. -/
def firstAsked? (s : Sources) : Record Variable → Option String
  | [] => none
  | (name, d) :: rest =>
    if isOpen s name d then some name
    else if isCheckable name d (knownValue? s name d) then firstAsked? s rest else none

/-! ## One variable -/

/-- Nobody is asked for a variable that is not open. -/
theorem firstValue_closed (h : isOpen s name d = false) :
    firstValue s name d = pure (knownValue? s name d) := by
  unfold firstValue
  unfold isOpen at h
  cases known : knownValue? s name d with
  | some v => rfl
  | none =>
    show askedValue s name d = pure none
    unfold askedValue
    split
    next w required ask prompter => simp [required, ask, prompter, known] at h
    next => rfl

/-- An open variable is asked for. -/
theorem firstValue_open (h : isOpen s name d = true) : ∃ w, s.prompter = some w ∧
    firstValue s name d = do return some (← w.ask name d, .prompt) := by
  simp only [isOpen, Bool.and_eq_true, beq_iff_eq, Option.isNone_iff_eq_none] at h
  obtain ⟨⟨⟨required, ask⟩, prompter⟩, unknown⟩ := h
  obtain ⟨w, prompter⟩ := Option.isSome_iff_exists.mp prompter
  refine ⟨w, prompter, ?_⟩
  unfold firstValue askedValue
  rw [unknown, required, ask, prompter]

theorem isCheckable_some {raw : Value} {origin : Origin} (h : raw = .null → False) :
    isCheckable name d (some (raw, origin)) =
      match d.coerce name raw with
      | .error _ => true
      | .ok v => (d.check name v).isOk := by
  cases raw with
  | null => exact (h rfl).elim
  | _ => rfl

variable (s name d) in
/-- What is done with the first value of a variable leaves the session as it is. -/
theorem resolveOne_eq (acc : Resolving) : ∃ rest : Option (Value × Origin) → Run Resolving,
    resolveOne s acc name d = firstValue s name d >>= rest ∧
    ∀ v, ∃ o, (∀ st, (rest v).on st = (o, st)) ∧ o.isOk = isCheckable name d v := by
  unfold resolveOne
  refine ⟨_, rfl, fun v => ?_⟩
  dsimp only
  split
  · exact ⟨_, fun _ => rfl, rfl⟩
  · exact ⟨_, fun _ => rfl, rfl⟩
  next raw origin some =>
    rw [isCheckable_some some]
    cases d.coerce name raw with
    | error p => exact ⟨_, fun _ => rfl, rfl⟩
    | ok x =>
      dsimp only
      cases d.check name x <;> exact ⟨_, fun _ => rfl, rfl⟩

section Asking

variable {w : Option Prompter} (hs : s.prompter = w.map Prompter.announcing)
  (silent : ∀ p, w = some p → p.Silent)

/-- The mark of a question for a variable. -/
def question (e : String × Variable) : Event := .asked e.1 e.2.description e.2.suggestion

/-- What is not open is resolved without a question, and something is raised only where a value cannot
be checked. -/
theorem resolveOne_closed (h : isOpen s name d = false) (acc : Resolving) :
    ∃ o, (∀ st, (resolveOne s acc name d).on st = (o, st)) ∧
      o.isOk = isCheckable name d (knownValue? s name d) := by
  obtain ⟨rest, eq, settled⟩ := resolveOne_eq s name d acc
  obtain ⟨o, on, ok⟩ := settled (knownValue? s name d)
  refine ⟨o, fun st => ?_, ok⟩
  rw [eq, firstValue_closed h]
  exact on st

include hs silent in
/-- What is open is asked for once. -/
theorem resolveOne_open (h : isOpen s name d = true) (acc : Resolving) (st : Session) :
    Marked [question (name, d)] st ((resolveOne s acc name d).on st).2 := by
  obtain ⟨rest, eq, settled⟩ := resolveOne_eq s name d acc
  obtain ⟨p, prompter, first⟩ := firstValue_open h
  obtain ⟨p', rfl, rfl⟩ : ∃ p', w = some p' ∧ p'.announcing = p := by
    rw [hs] at prompter
    exact Option.map_eq_some_iff.mp prompter
  have asked := (silent p' rfl).ask_marked name d st
  rw [eq, first, bind_assoc]
  rcases ran : (p'.announcing.ask name d).on st with ⟨f | v, t⟩ <;> rw [ran] at asked
  · rw [on_bind_error ran]
    exact asked
  · obtain ⟨o, on, -⟩ := settled (some (v, .prompt))
    rw [on_bind_ok ran, pure_bind, on]
    exact asked

/-! ## All variables -/

include hs silent in
/-- The open variables are asked for in order, up to the first that raises something; the first of them
is asked for unless something before it does. -/
theorem resolveAll_asks (entries : Record Variable) (acc : Resolving) (st : Session) :
    ∃ asked, asked <+: openIn s entries ∧ (asked.map (·.1)).head? = firstAsked? s entries ∧
      Marked (asked.map question) st
        ((entries.foldlM (fun acc (name, d) => resolveOne s acc name d) acc).on st).2 ∧
      ∀ done, ((entries.foldlM (fun acc (name, d) => resolveOne s acc name d) acc).on st).1 = .ok done →
        asked = openIn s entries := by
  induction entries generalizing acc st with
  | nil => exact ⟨[], List.prefix_rfl, rfl, ⟨[], by simp, rfl⟩, fun _ _ => rfl⟩
  | cons e entries ih =>
    obtain ⟨name, d⟩ := e
    rw [List.foldlM_cons, on_bind]
    dsimp only
    cases isopen : isOpen s name d with
    | true =>
      have here : openIn s ((name, d) :: entries) = (name, d) :: openIn s entries :=
        List.filter_cons_of_pos isopen
      have first : firstAsked? s ((name, d) :: entries) = some name := by
        rw [firstAsked?, if_pos isopen]
      have marked := resolveOne_open hs silent isopen acc st
      rw [here, first]
      rcases ran : (resolveOne s acc name d).on st with ⟨f | acc', t⟩ <;> rw [ran] at marked
      · exact ⟨[(name, d)], ⟨_, rfl⟩, rfl, marked, fun done same => nomatch same⟩
      · obtain ⟨asked, front, -, behind, all⟩ := ih acc' t
        refine ⟨(name, d) :: asked, List.cons_prefix_cons.mpr ⟨rfl, front⟩, rfl, ?_, fun done same => ?_⟩
        · exact marked.trans behind
        · rw [all done same]
    | false =>
      have here : openIn s ((name, d) :: entries) = openIn s entries :=
        List.filter_cons_of_neg (by simp [isopen])
      obtain ⟨o, on, ok⟩ := resolveOne_closed isopen acc
      have first : firstAsked? s ((name, d) :: entries) =
          if o.isOk then firstAsked? s entries else none := by
        rw [firstAsked?, if_neg (by simp [isopen]), ok]
      rw [here, first, on]
      rcases o with f | acc'
      · exact ⟨[], List.nil_prefix, rfl, ⟨[], by simp, rfl⟩, fun done same => nomatch same⟩
      · exact ih acc' st

include hs silent in
/-- To resolve the variables of a recipe is to ask for open ones; where that succeeds, for all of them. -/
theorem resolveVariables_asks (r : Recipe) (st : Session) :
    ∃ asked, asked <+: openIn s r.declared ∧
      (asked.map (·.1)).head? = firstAsked? s r.declared ∧
      Marked (asked.map question) st ((r.resolveVariables s).on st).2 ∧
      ∀ b, ((r.resolveVariables s).on st).1 = .ok b → asked = openIn s r.declared := by
  obtain ⟨asked, front, first, marked, all⟩ := resolveAll_asks hs silent r.declared
    { bindings := { values := r.undeclared s.provided } } st
  refine ⟨asked, front, first, ?_⟩
  unfold resolveVariables
  dsimp only
  rw [on_bind]
  split
  next done t ran =>
    rw [ran] at marked all
    rw [on_ofExcept]
    exact ⟨marked, fun _ _ => all done rfl⟩
  next f t ran =>
    rw [ran] at marked
    exact ⟨marked, fun _ same => nomatch same⟩

end Asking

/-! ## Answers -/

/-- A value that is known without any answer is known with answers as well. -/
theorem knownValue?_isSome (h : (knownValue? { s with answers := [] } name d).isSome = true) :
    (knownValue? s name d).isSome = true := by
  unfold knownValue? at h ⊢
  cases answered : s.answers.get? name with
  | none => simpa only [answered, Record.get?_nil] using h
  | some answer => split <;> rfl

/-- What is open with answers is open without them. -/
theorem mem_openIn_unanswered {e : String × Variable} (h : e ∈ openIn s declared) :
    e ∈ openIn { s with answers := [] } declared := by
  obtain ⟨mem, isopen⟩ := List.mem_filter.mp h
  refine List.mem_filter.mpr ⟨mem, ?_⟩
  have unknown : knownValue? { s with answers := [] } e.1 e.2 = none := by
    rw [← Option.not_isSome_iff_eq_none]
    intro known
    have := knownValue?_isSome known
    simp_all [isOpen]
  simp_all [isOpen]

/-- Where a variable has no answer, its value is known with all the others as it is without them. -/
theorem knownValue?_unanswered (h : s.answers.get? name = none) :
    knownValue? s name d = knownValue? { s with answers := [] } name d := by
  unfold knownValue?
  rw [h, Record.get?_nil]

/-- A converted value is bound as a default or as a value. -/
def bindAs (name : String) (x : Value) (b : Bindings) : Origin → Bindings
  | .default => { b with defaults := b.defaults.put name x }
  | _ => { b with values := b.values.put name x }

/-- What is bound once the first value of a variable is there. -/
def bound (name : String) (d : Variable) (b : Bindings) : Option (Value × Origin) → Bindings
  | none | some (.null, _) => b
  | some (raw, origin) =>
    match d.coerce name raw with
    | .error _ => b
    | .ok x => bindAs name x b origin

variable {v : String} {b b' : Bindings} {first : Option (Value × Origin)}

theorem bound_some {raw : Value} {origin : Origin} (h : raw = .null → False) :
    bound name d b (some (raw, origin)) =
      match d.coerce name raw with
      | .error _ => b
      | .ok x => bindAs name x b origin := by
  cases raw with
  | null => exact (h rfl).elim
  | _ => rfl

theorem resolveOne_bindings {acc done : Resolving} {st t : Session}
    (h : (resolveOne s acc name d).on st = (.ok done, t)) :
    ∃ first s₁, (firstValue s name d).on st = (.ok first, s₁) ∧
      done.bindings = bound name d acc.bindings first := by
  unfold resolveOne at h
  obtain ⟨first, s₁, value, h⟩ := on_bind_eq_ok h
  refine ⟨first, s₁, value, ?_⟩
  split at h
  · split at h <;> cases h <;> rfl
  · split at h <;> cases h <;> rfl
  next raw origin some =>
    rw [bound_some some]
    cases coerced : d.coerce name raw with
    | error p =>
      rw [coerced] at h
      cases h
      rfl
    | ok x =>
      rw [coerced] at h
      obtain ⟨ps, s₂, -, h⟩ := on_bind_eq_ok h
      cases h
      cases origin <;> rfl

/-- Two bindings come to the same for a variable. -/
structure Agree (v : String) (a b : Bindings) : Prop where
  defaults : a.defaults.get? v = b.defaults.get? v
  values : a.values.get? v = b.values.get? v

theorem Agree.symm (h : Agree v b b') : Agree v b' b := ⟨h.defaults.symm, h.values.symm⟩

theorem Agree.trans {b'' : Bindings} (h : Agree v b b') (h' : Agree v b' b'') : Agree v b b'' :=
  ⟨h.defaults.trans h'.defaults, h.values.trans h'.values⟩

/-- No variable changes the value of another. -/
theorem bound_agree (other : name ≠ v) : Agree v (bound name d b first) b := by
  unfold bound
  split
  · exact ⟨rfl, rfl⟩
  · exact ⟨rfl, rfl⟩
  · split
    · exact ⟨rfl, rfl⟩
    · unfold bindAs
      split
      · exact ⟨by rw [Record.get?_put, if_neg other], rfl⟩
      · exact ⟨rfl, by rw [Record.get?_put, if_neg other]⟩

/-- The same value makes bindings that agree if they did. -/
theorem Agree.bound (h : Agree v b b') : Agree v (bound name d b first) (bound name d b' first) := by
  unfold Recipe.bound
  split
  · exact h
  · exact h
  · split
    · exact h
    · unfold bindAs
      split
      · exact ⟨by rw [Record.get?_put, Record.get?_put, h.defaults], h.values⟩
      · exact ⟨h.defaults, by rw [Record.get?_put, Record.get?_put, h.values]⟩

/-- Where no variable is open, and the values known of a variable are the same, resolutions that agree
on it go on doing so. -/
theorem resolveAll_agree {s s' : Sources} {entries : Record Variable} {acc acc' done done' : Resolving}
    {st st' t t' : Session} (closed : ∀ e ∈ entries, e.1 = v → isOpen s e.1 e.2 = false ∧
      isOpen s' e.1 e.2 = false ∧ knownValue? s e.1 e.2 = knownValue? s' e.1 e.2)
    (agree : Agree v acc.bindings acc'.bindings)
    (h : (entries.foldlM (fun acc (name, d) => resolveOne s acc name d) acc).on st = (.ok done, t))
    (h' : (entries.foldlM (fun acc (name, d) => resolveOne s' acc name d) acc').on st' =
      (.ok done', t')) : Agree v done.bindings done'.bindings := by
  induction entries generalizing acc acc' st st' with
  | nil =>
    cases h
    cases h'
    exact agree
  | cons e entries ih =>
    rw [List.foldlM_cons] at h h'
    obtain ⟨next, s₁, one, h⟩ := on_bind_eq_ok h
    obtain ⟨next', s₁', one', h'⟩ := on_bind_eq_ok h'
    obtain ⟨here, behind⟩ := List.forall_mem_cons.mp closed
    refine ih behind ?_ h h'
    obtain ⟨first, _, value, bindings⟩ := resolveOne_bindings one
    obtain ⟨first', _, value', bindings'⟩ := resolveOne_bindings one'
    rw [bindings, bindings']
    by_cases same : e.1 = v
    · obtain ⟨open₁, open₂, known⟩ := here same
      rw [firstValue_closed open₁] at value
      rw [firstValue_closed open₂, ← known] at value'
      cases value
      cases value'
      exact agree.bound
    · have kept : Agree v (bound e.1 e.2 acc.bindings first) acc.bindings := bound_agree same
      have kept' : Agree v (bound e.1 e.2 acc'.bindings first') acc'.bindings := bound_agree same
      exact (kept.trans agree).trans kept'.symm

/-- Where a resolution succeeds nothing was wrong, and it binds what was bound on the way. -/
theorem conclude_ok {acc : Resolving} {r : Recipe} {toModel : Bool} (h : acc.conclude r toModel = .ok b) :
    acc.problems = [] ∧ b.defaults = acc.bindings.defaults ∧ b.values = acc.bindings.values := by
  simp only [Resolving.conclude] at h
  by_cases none : (acc.problems ++
      if acc.unresolved.isEmpty || toModel then [] else [.missing acc.unresolved]) = []
  · rw [if_pos (by rw [none]; rfl)] at h
    cases h
    exact ⟨(List.append_eq_nil_iff.mp none).1, rfl, rfl⟩
  · rw [if_neg (by rwa [List.isEmpty_iff])] at h
    cases h

theorem resolveVariables_ok {r : Recipe} {st t : Session}
    (h : (r.resolveVariables s).on st = (.ok b, t)) :
    ∃ done s₁, (r.declared.foldlM (fun acc (name, d) => resolveOne s acc name d)
        { bindings := { values := r.undeclared s.provided } }).on st = (.ok done, s₁) ∧
      b.merged = done.bindings.merged := by
  unfold resolveVariables at h
  obtain ⟨done, s₁, resolved, h⟩ := on_bind_eq_ok h
  refine ⟨done, s₁, resolved, ?_⟩
  rw [on_ofExcept] at h
  obtain ⟨-, defaults, values⟩ := conclude_ok (Prod.mk.inj h).1
  rw [Bindings.merged, Bindings.merged, defaults, values]

/-- Where nobody is asked for anything when variables are resolved with answers, all that is not
answered has the value that it has without answers. -/
theorem merged_unanswered {r : Recipe} {st st' t t' : Session} (unasked : openIn s r.declared = [])
    (h : (r.resolveVariables { s with answers := [] }).on st = (.ok b, t))
    (h' : (r.resolveVariables s).on st' = (.ok b', t')) (unanswered : s.answers.get? v = none) :
    b'.merged.get? v = b.merged.get? v := by
  obtain ⟨done, _, resolved, merged⟩ := resolveVariables_ok h
  obtain ⟨done', _, resolved', merged'⟩ := resolveVariables_ok h'
  have agree : Agree v done'.bindings done.bindings := by
    refine resolveAll_agree (fun e mem same => ?_) ⟨rfl, rfl⟩ resolved' resolved
    have closed : isOpen s e.1 e.2 = false := by
      simpa using List.filter_eq_nil_iff.mp unasked e mem
    have known := knownValue?_unanswered (d := e.2) (same ▸ unanswered)
    refine ⟨closed, ?_, known⟩
    rw [← closed, isOpen, isOpen, known]
  rw [merged, merged', Bindings.get?_merged, Bindings.get?_merged, agree.defaults, agree.values]

end Recipe

end Scaffold
