import Scaffold.Proofs.Recipe.Constraints
import Scaffold.Proofs.Recipe.Questions

/-!
# Judging variables by their first values

There is a first value for a variable, or none: the caller's, an answer, the default, and what a person
says who is asked for it.  To resolve the variables of a recipe is to ask for the open ones, and then to
judge each of them by its first value alone.  What was found before does not matter to it, and nothing
that is wrong with one of them keeps the others from being judged.
-/

namespace Scaffold

open Run

namespace Value

/-- A value that is there; null is none. -/
def given? : Value → Option Value
  | .null => none
  | v => some v

end Value

namespace Recipe

open Variable (Problem)

variable {s : Sources} {name : String} {d : Variable} {replies : Record Value}
  {declared : Record Variable}

/-- The first value that there is for a variable, and where it comes from; `reply` is what a person says
who is asked for it. -/
def first? (s : Sources) (reply : Option Value) (name : String) (d : Variable) :
    Option (Value × Origin) :=
  (((s.provided.get? name).bind Value.given?).map (·, .provided)).or <|
    ((s.answers.get? name).map (.str ·, .answer)).or <|
      ((if s.useDefaults then d.default.given? else none).map (·, .default)).or <|
        (reply.bind Value.given?).map (·, .prompt)

/-- Asks a person for the variables that are open, one after the other. -/
def askOpen (s : Sources) (declared : Record Variable) : Run (Record Value) :=
  match s.prompter with
  | none => pure []
  | some p => (openIn s declared).mapM fun e => do return (e.1, ← p.ask e.1 e.2)

/-- What is found to be wrong with the value that there is for a variable, if there is one. -/
def found (s : Sources) (replies : Record Value) (e : String × Variable) : List Problem :=
  match first? s (replies.get? e.1) e.1 e.2 with
  | none => []
  | some (raw, _) => e.2.complaints e.1 raw

/-- The required variables that there is no value for. -/
def lacking (s : Sources) (replies : Record Value) (declared : Record Variable) : List String :=
  Record.keys (declared.filter fun e =>
    e.2.required && (first? s (replies.get? e.1) e.1 e.2).isNone)

/-- All problems: those of the variables in turn, and then what is missing unless the model is asked. -/
def problems (r : Recipe) (s : Sources) (replies : Record Value) : List Problem :=
  r.declared.flatMap (found s replies) ++
    if (lacking s replies r.declared).isEmpty || s.ask == some .model then []
    else [.missing (lacking s replies r.declared)]

/-! ## One variable -/

/-- A first value that is not null. -/
def present? (v : Option (Value × Origin)) : Option (Value × Origin) :=
  v.bind fun (raw, origin) => raw.given?.map (·, origin)

theorem given?_eq_some {v w : Value} : v.given? = some w ↔ v = w ∧ v ≠ .null := by
  cases v <;> simp [Value.given?]

/-- What is known before anyone is asked comes first. -/
theorem first?_eq (s : Sources) (reply : Option Value) (name : String) (d : Variable) :
    first? s reply name d = (present? (knownValue? s name d)).or
      ((reply.bind Value.given?).map (·, .prompt)) := by
  -- behind the caller's values it does not matter whether there is none or null
  have behind (last : Option (Value × Origin)) :
      ((s.answers.get? name).map fun a => (Value.str a, Origin.answer)).or
        (((if s.useDefaults then d.default.given? else none).map (·, .default)).or last) =
      (present? (knownValue? { s with provided := [] } name d)).or last := by
    unfold knownValue?
    cases s.answers.get? name with
    | some a => rfl
    | none => cases s.useDefaults <;> cases d.default <;> rfl
  unfold first? knownValue?
  rcases s.provided.get? name with _ | v
  · exact behind _
  · cases v with
    | null => exact behind _
    | _ => rfl

theorem present?_eq_some {v : Option (Value × Origin)} {raw : Value} {origin : Origin}
    (h : present? v = some (raw, origin)) : v = some (raw, origin) ∧ raw ≠ .null := by
  obtain ⟨⟨w, o⟩, rfl, given⟩ := Option.bind_eq_some_iff.mp h
  obtain ⟨w', same, eq⟩ := Option.map_eq_some_iff.mp given
  obtain ⟨rfl, nonnull⟩ := given?_eq_some.mp same
  cases eq
  exact ⟨rfl, nonnull⟩

theorem present?_of_ne {raw : Value} {origin : Origin} (h : raw = .null → False) :
    present? (some (raw, origin)) = some (raw, origin) := by
  cases raw with
  | null => exact (h rfl).elim
  | _ => rfl

/-- What a caller gives is known, unless it is null. -/
theorem knownValue?_provided {raw : Value} (h : s.provided.get? name = some raw) (there : raw ≠ .null) :
    knownValue? s name d = some (raw, .provided) := by
  unfold knownValue?
  rw [h]
  cases raw with
  | null => exact absurd rfl there
  | _ => rfl

theorem first?_of_known {reply : Option Value} {raw : Value} {origin : Origin}
    (h : knownValue? s name d = some (raw, origin)) (nonnull : raw ≠ .null) :
    first? s reply name d = some (raw, origin) := by
  rw [first?_eq, h, present?_of_ne nonnull]
  rfl

theorem first?_eq_some {reply : Option Value} {raw : Value} {origin : Origin}
    (h : first? s reply name d = some (raw, origin)) : raw ≠ .null := by
  rw [first?_eq, Option.or_eq_some_iff] at h
  rcases h with known | ⟨-, asked⟩
  · exact (present?_eq_some known).2
  · obtain ⟨w, reply, same⟩ := Option.map_eq_some_iff.mp asked
    obtain ⟨v, -, given⟩ := Option.bind_eq_some_iff.mp reply
    obtain ⟨rfl, nonnull⟩ := given?_eq_some.mp given
    cases same
    exact nonnull

/-- What is known of variables so far once one more is judged by its first value. -/
def judged (acc : Resolving) (name : String) (d : Variable) (v : Option (Value × Origin)) : Resolving where
  bindings := bound name d acc.bindings v
  problems := acc.problems ++ match v with
    | none => []
    | some (raw, _) => d.complaints name raw
  unresolved := acc.unresolved ++ if d.required && v.isNone then [name] else []

/-- A variable is judged by its first value, unless its pattern is no regular expression. -/
theorem resolveOne_on {acc : Resolving} {st t : Session} {v : Option (Value × Origin)}
    (h : (firstValue s name d).on st = (.ok v, t)) :
    (resolveOne s acc name d).on st = (.ok (judged acc name d (present? v)), t) ∨
      (resolveOne s acc name d).on st = (.error .badPattern, t) ∧ ¬ d.Compiles := by
  unfold resolveOne
  rw [on_bind_ok h]
  split
  next =>
    refine .inl ?_
    cases required : d.required <;> simp [judged, present?, bound, required]
  next =>
    refine .inl ?_
    cases required : d.required <;> simp [judged, present?, Value.given?, bound, required]
  next raw origin nonnull =>
    rw [present?_of_ne nonnull, judged, bound_some nonnull]
    unfold Variable.complaints
    cases coerced : d.coerce name raw with
    | error p => exact .inl (by simp)
    | ok v =>
      dsimp only
      obtain checked | ⟨checked, bad⟩ := d.check_cases name v
      · refine .inl ?_
        rw [checked, on_bind_ok (on_ofExcept _ t)]
        cases origin <;> simp [bindAs]
      · exact .inr ⟨by rw [checked]; rfl, bad⟩

/-- A closed variable is judged by what is known. -/
theorem resolveOne_known (h : isOpen s name d = false) (acc : Resolving) (st : Session) :
    (resolveOne s acc name d).on st = (.ok (judged acc name d (first? s none name d)), st) ∨
      (resolveOne s acc name d).on st = (.error .badPattern, st) ∧ ¬ d.Compiles := by
  have known : (firstValue s name d).on st = (.ok (knownValue? s name d), st) := by
    rw [firstValue_closed h]
    rfl
  have same : first? s none name d = present? (knownValue? s name d) := by
    rw [first?_eq, Option.bind_none, Option.map_none, Option.or_none]
  rw [same]
  exact resolveOne_on known

/-- An open variable is judged by the reply, if there is one. -/
theorem resolveOne_replied {p : Prompter} (prompter : s.prompter = some p)
    (h : isOpen s name d = true) (acc : Resolving) (st : Session) :
    (∀ f t, (p.ask name d).on st = (.error f, t) →
      (resolveOne s acc name d).on st = (.error f, t)) ∧
    ∀ v t, (p.ask name d).on st = (.ok v, t) →
      (resolveOne s acc name d).on st = (.ok (judged acc name d (first? s (some v) name d)), t) ∨
        (resolveOne s acc name d).on st = (.error .badPattern, t) ∧ ¬ d.Compiles := by
  obtain ⟨w, same, first⟩ := firstValue_open h
  obtain rfl := Option.some.inj (prompter.symm.trans same)
  refine ⟨fun f t asked => ?_, fun v t asked => ?_⟩
  · have failed : (firstValue s name d).on st = (.error f, t) := by
      rw [first]
      exact on_bind_error asked _
    exact on_bind_error failed _
  · have value : (firstValue s name d).on st = (.ok (some (v, .prompt)), t) := by
      rw [first]
      exact on_bind_ok asked _
    have unknown : knownValue? s name d = none := by
      simp only [isOpen, Bool.and_eq_true, Option.isNone_iff_eq_none] at h
      exact h.2
    have reply : first? s (some v) name d = present? (some (v, .prompt)) := by
      rw [first?_eq, unknown]
      rfl
    rw [reply]
    exact resolveOne_on value

/-! ## All variables -/

/-- What is known when the variables are judged in turn. -/
def judgeAll (s : Sources) (replies : Record Value) (declared : Record Variable) (acc : Resolving) :
    Resolving :=
  declared.foldl (fun acc e => judged acc e.1 e.2 (first? s (replies.get? e.1) e.1 e.2)) acc

theorem judgeAll_cons (s : Sources) (replies : Record Value) (e : String × Variable)
    (declared : Record Variable) (acc : Resolving) :
    judgeAll s replies (e :: declared) acc =
      judgeAll s replies declared (judged acc e.1 e.2 (first? s (replies.get? e.1) e.1 e.2)) := rfl

theorem judgeAll_congr {replies' : Record Value}
    (h : ∀ e ∈ declared, replies.get? e.1 = replies'.get? e.1) (acc : Resolving) :
    judgeAll s replies declared acc = judgeAll s replies' declared acc := by
  induction declared generalizing acc with
  | nil => rfl
  | cons e declared ih =>
    obtain ⟨here, behind⟩ := List.forall_mem_cons.mp h
    rw [judgeAll_cons, judgeAll_cons, ih behind, here]

/-- What is known in the end, by its parts. -/
theorem judgeAll_eq (s : Sources) (replies : Record Value) (declared : Record Variable)
    (acc : Resolving) : judgeAll s replies declared acc =
      { bindings := declared.foldl
          (fun b e => bound e.1 e.2 b (first? s (replies.get? e.1) e.1 e.2)) acc.bindings
        problems := acc.problems ++ declared.flatMap (found s replies)
        unresolved := acc.unresolved ++ lacking s replies declared } := by
  induction declared generalizing acc with
  | nil => simp [judgeAll, lacking, Record.keys]
  | cons e declared ih =>
    rw [judgeAll_cons, ih]
    simp only [judged, List.foldl_cons, List.flatMap_cons, List.append_assoc, Resolving.mk.injEq,
      true_and, List.append_cancel_left_eq]
    refine ⟨rfl, ?_⟩
    simp only [lacking, List.filter_cons, Record.keys]
    split <;> rfl

section Asking

variable {e : String × Variable} {st t : Session}

theorem askOpen_nil (s : Sources) : askOpen s [] = pure [] := by
  unfold askOpen
  cases s.prompter <;> rfl

theorem askOpen_closed (h : isOpen s e.1 e.2 = false) (declared : Record Variable) :
    askOpen s (e :: declared) = askOpen s declared := by
  have same : openIn s (e :: declared) = openIn s declared :=
    List.filter_cons_of_neg (by simp [h])
  unfold askOpen
  rw [same]

theorem askOpen_open {p : Prompter} (prompter : s.prompter = some p) (h : isOpen s e.1 e.2 = true)
    (declared : Record Variable) :
    askOpen s (e :: declared) = do
      let v ← p.ask e.1 e.2
      let replies ← askOpen s declared
      return (e.1, v) :: replies := by
  have first : openIn s (e :: declared) = e :: openIn s declared := List.filter_cons_of_pos h
  unfold askOpen
  rw [prompter]
  dsimp only
  rw [first, List.mapM_cons, bind_assoc]
  simp only [pure_bind]

/-- Nobody replies for a variable that is not among those asked for. -/
theorem keys_askOpen (h : (askOpen s declared).on st = (.ok replies, t)) :
    ∀ k ∈ Record.keys replies, k ∈ Record.keys declared := by
  induction declared generalizing replies st with
  | nil =>
    rw [askOpen_nil] at h
    cases h
    exact fun _ mem => mem
  | cons e declared ih =>
    intro k mem
    cases isopen : isOpen s e.1 e.2 with
    | false =>
      rw [askOpen_closed isopen] at h
      exact List.mem_cons_of_mem _ (ih h k mem)
    | true =>
      obtain ⟨p, prompter, -⟩ := firstValue_open isopen
      rw [askOpen_open prompter isopen] at h
      obtain ⟨v, s₁, -, h⟩ := on_bind_eq_ok h
      obtain ⟨rest, s₂, asked, h⟩ := on_bind_eq_ok h
      cases h
      rcases List.mem_cons.mp mem with rfl | mem
      · exact List.mem_cons_self
      · exact List.mem_cons_of_mem _ (ih asked k mem)

end Asking

/-- To resolve variables is to ask for the open ones, and then to judge them all by what there is, unless
some pattern is no regular expression. -/
theorem resolveAll_on (distinct : (Record.keys declared).Nodup) (acc : Resolving) (st : Session) :
    (declared.foldlM (fun acc (name, d) => resolveOne s acc name d) acc).on st =
        (do return judgeAll s (← askOpen s declared) declared acc).on st ∨
      (∃ e ∈ declared, ¬ e.2.Compiles) ∧ ∃ t,
        (declared.foldlM (fun acc (name, d) => resolveOne s acc name d) acc).on st =
          (.error .badPattern, t) := by
  induction declared generalizing acc st with
  | nil => exact .inl (by rw [askOpen_nil]; rfl)
  | cons e declared ih =>
    obtain ⟨new, distinct⟩ := List.nodup_cons.mp distinct
    have wider {q : Prop} : (∃ e' ∈ declared, ¬ e'.2.Compiles) ∧ q →
        (∃ e' ∈ e :: declared, ¬ e'.2.Compiles) ∧ q :=
      fun ⟨⟨e', mem, bad⟩, failed⟩ => ⟨⟨e', List.mem_cons_of_mem _ mem, bad⟩, failed⟩
    rw [List.foldlM_cons]
    cases isopen : isOpen s e.1 e.2 with
    | false =>
      rw [askOpen_closed isopen]
      obtain one | ⟨one, bad⟩ := resolveOne_known isopen acc st
      · rw [on_bind_ok one]
        refine (ih distinct _ st).imp (fun all => all.trans ?_) wider
        rcases asked : (askOpen s declared).on st with ⟨f | replies, t⟩
        · rw [on_bind_error asked, on_bind_error asked]
        · -- nobody was asked for this variable
          have silent : replies.get? e.1 = none :=
            (Record.get?_eq_none_iff _ _).mpr fun mem => new (keys_askOpen asked _ mem)
          rw [on_bind_ok asked, on_bind_ok asked, judgeAll_cons, silent]
      · exact .inr ⟨⟨e, List.mem_cons_self, bad⟩, st, on_bind_error one _⟩
    | true =>
      obtain ⟨p, prompter, -⟩ := firstValue_open isopen
      rw [askOpen_open prompter isopen, bind_assoc]
      obtain ⟨refused, replied⟩ := resolveOne_replied prompter isopen acc st
      rcases asked : (p.ask e.1 e.2).on st with ⟨f | v, t⟩
      · rw [on_bind_error asked]
        exact .inl (on_bind_error (refused f t asked) _)
      · rw [on_bind_ok asked]
        obtain one | ⟨one, bad⟩ := replied v t asked
        · rw [on_bind_ok one]
          refine (ih distinct _ t).imp (fun all => all.trans ?_) wider
          rcases rest : (askOpen s declared).on t with ⟨f | replies, t'⟩
          · rw [bind_assoc, on_bind_error rest, on_bind_error rest]
          · have own : Record.get? ((e.1, v) :: replies) e.1 = some v := by simp [Record.get?_cons]
            have others : ∀ e' ∈ declared, Record.get? ((e.1, v) :: replies) e'.1 = replies.get? e'.1 := by
              intro e' mem
              have apart : e.1 ≠ e'.1 := fun same => new (List.mem_map.mpr ⟨e', mem, same.symm⟩)
              rw [Record.get?_cons, if_neg apart]
            rw [bind_assoc, on_bind_ok rest, on_bind_ok rest, pure_bind, judgeAll_cons, own,
              judgeAll_congr others]
        · exact .inr ⟨⟨e, List.mem_cons_self, bad⟩, t, on_bind_error one _⟩

/-- What the variables come to when the person who is asked has replied. -/
def judge (r : Recipe) (s : Sources) (replies : Record Value) : Except Failure Bindings :=
  (judgeAll s replies r.declared { bindings := { values := r.undeclared s.provided } }).conclude r
    (s.ask == some .model)

variable {r : Recipe}

theorem resolveVariables_on (distinct : (Record.keys r.declared).Nodup) (st : Session) :
    (r.resolveVariables s).on st =
        (do Run.ofExcept (r.judge s (← askOpen s r.declared))).on st ∨
      (∃ e ∈ r.declared, ¬ e.2.Compiles) ∧ ∃ t,
        (r.resolveVariables s).on st = (.error .badPattern, t) := by
  unfold resolveVariables
  dsimp only
  obtain all | ⟨bad, t, failed⟩ :=
    resolveAll_on (s := s) distinct { bindings := { values := r.undeclared s.provided } } st
  · refine .inl ?_
    rw [on_bind, all]
    rcases asked : (askOpen s r.declared).on st with ⟨f | replies, t⟩
    · rw [on_bind_error asked, on_bind_error asked]
    · rw [on_bind_ok asked, on_bind_ok asked]
      rfl
  · exact .inr ⟨bad, t, on_bind_error failed _⟩

end Recipe

end Scaffold
