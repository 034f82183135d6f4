import Mathlib.Data.List.Nodup
import Scaffold.Recipe.Variables

/-!
# Constraints on the values of variables

What a value is converted to is of the kind that its variable declares, and what is found to be wrong with
it are just the constraints that it breaks, each of them once.  Every value can be checked as long as the
pattern of the variable is a regular expression.
-/

namespace Scaffold

/-- The values that fit a kind of variable. -/
inductive VariableKind.Fits : VariableKind → Value → Prop
  | string (t : String) : Fits .string (.str t)
  | enum (t : String) : Fits .enum (.str t)
  | boolean (b : Bool) : Fits .boolean (.bool b)
  | int (n : Int) : Fits .number (.int n)
  | float (x : Binary64) : Fits .number (.float x)
  | array (items : List Value) : Fits .array (.list items)
  | object (entries : Entries) : Fits .object (.dict entries)

namespace Variable

variable {d : Variable} {name : String} {raw v : Value} {p : Problem}

/-- The constraints that a value breaks, by the problems that they are reported as. -/
inductive Breaks (d : Variable) (name : String) (v : Value) : Problem → Prop
  | allowed {vs : List Value} : d.values = some vs → v.isAmong vs = false →
      Breaks d name v (.notAllowed name vs v)
  | low {x : Number} {m : Binary64} : measure? v = some x → d.min = some m →
      x.lt (.float m) = true → Breaks d name v (.belowMinimum name m)
  | high {x : Number} {m : Binary64} : measure? v = some x → d.max = some m →
      (Number.float m).lt x = true → Breaks d name v (.aboveMaximum name m)
  | pattern {t q : String} {c : Pattern.Compiled} : v = .str t → filled? d.pattern = some q →
      Pattern.compile? q {} = some c → c.matchesAll t.toList = false →
      Breaks d name v (.mismatch name q)

/-- What is wrong with a value from outside: it cannot be converted, or what it is converted to breaks a
constraint. -/
inductive Faults (d : Variable) (name : String) (raw : Value) : Problem → Prop
  | conversion {p : Problem} : d.coerce name raw = .error p → Faults d name raw p
  | constraint {v : Value} {p : Problem} : d.coerce name raw = .ok v → d.Breaks name v p →
      Faults d name raw p

/-- The pattern of a variable, if it has one, is a regular expression. -/
def Compiles (d : Variable) : Prop :=
  ∀ q, filled? d.pattern = some q → (Pattern.compile? q {}).isSome = true

instance (d : Variable) : Decidable d.Compiles :=
  decidable_of_iff (∀ q ∈ (filled? d.pattern).toList, (Pattern.compile? q {}).isSome = true) <| by
    simp only [Option.mem_toList]
    exact Iff.rfl

/-- What is converted is of the kind that the variable declares. -/
theorem coerce_fits (h : d.coerce name raw = .ok v) : d.kind.Fits v := by
  unfold coerce at h
  cases kind : d.kind <;> simp only [kind] at h
  case string =>
    cases h
    exact .string _
  case enum =>
    cases h
    exact .enum _
  case boolean =>
    unfold toBoolean at h
    split at h
    · cases h
      exact .boolean _
    · split at h <;> cases h
      exact .boolean _
  case number =>
    unfold toNumber at h
    split at h
    · cases h
      exact .int _
    · cases h
      exact .float _
    · cases h
    · split at h
      · cases h
      · split at h
        · split at h <;> cases h
          · exact .float _
          · exact .int _
        · cases h
          exact .float _
  case array =>
    unfold toArray at h
    split at h
    · cases h
      exact .array _
    · dsimp only at h
      split at h
      · split at h <;> cases h <;> exact .array _
      · cases h
        exact .array _
  case object =>
    unfold toObject at h
    split at h
    · cases h
      exact .object _
    · split at h <;> cases h
      exact .object _

/-- The constraints that a converted value is found to break. -/
def violations (d : Variable) (name : String) (v : Value) : List Problem :=
  match d.check name v with
  | .ok ps => ps
  | .error _ => []

/-- What is found to be wrong with a value from outside. -/
def complaints (d : Variable) (name : String) (raw : Value) : List Problem :=
  match d.coerce name raw with
  | .error p => [p]
  | .ok v => d.violations name v

/-- Every value can be checked, unless the pattern is no regular expression. -/
theorem check_cases (d : Variable) (name : String) (v : Value) :
    d.check name v = .ok (d.violations name v) ∨
      d.check name v = .error .badPattern ∧ ¬ d.Compiles := by
  unfold violations
  cases checked : d.check name v with
  | ok ps => exact .inl rfl
  | error f =>
    refine .inr ?_
    unfold check checkPattern at checked
    split at checked
    next t q pattern =>
      split at checked
      next bad =>
        cases checked
        refine ⟨rfl, fun compiles => ?_⟩
        have good := compiles q pattern
        rw [bad] at good
        cases good
      next => cases checked
    next => cases checked

theorem check_eq_ok {ps : List Problem} (h : d.check name v = .ok ps) :
    ∃ qs, checkPattern name v d = .ok qs ∧
      ps = checkAllowed name v d ++ checkBounds name v d ++ qs := by
  unfold check at h
  cases found : checkPattern name v d with
  | error f =>
    rw [found] at h
    cases h
  | ok qs =>
    rw [found] at h
    cases h
    exact ⟨qs, rfl, rfl⟩

theorem mem_checkAllowed : p ∈ checkAllowed name v d ↔
    ∃ vs, d.values = some vs ∧ v.isAmong vs = false ∧ p = .notAllowed name vs v := by
  unfold checkAllowed
  cases d.values with
  | none => simp
  | some vs => cases among : v.isAmong vs <;> simp [among]

theorem mem_checkBounds : p ∈ checkBounds name v d ↔ ∃ x, measure? v = some x ∧
    ((∃ m, d.min = some m ∧ x.lt (.float m) = true ∧ p = .belowMinimum name m) ∨
      ∃ m, d.max = some m ∧ (Number.float m).lt x = true ∧ p = .aboveMaximum name m) := by
  unfold checkBounds
  cases measure? v with
  | none => simp
  | some x =>
    simp only [List.mem_append, Option.mem_toList, Option.map_eq_some_iff, Option.filter_eq_some_iff,
      Option.some.injEq, exists_eq_left', and_assoc, eq_comm (b := p)]

theorem mem_checkPattern {qs : List Problem} (h : checkPattern name v d = .ok qs) :
    p ∈ qs ↔ ∃ t q c, v = .str t ∧ filled? d.pattern = some q ∧ Pattern.compile? q {} = some c ∧
      c.matchesAll t.toList = false ∧ p = .mismatch name q := by
  unfold checkPattern at h
  split at h
  next t q pattern =>
    split at h
    next => cases h
    next c compiled =>
      cases h
      rw [pattern]
      cases all : c.matchesAll t.toList <;> simp [compiled, all]
  next none =>
    cases h
    refine iff_of_false List.not_mem_nil ?_
    rintro ⟨t, q, c, rfl, pattern, -⟩
    exact none t q rfl pattern

/-- What is found is what is broken. -/
theorem mem_violations (h : d.Compiles) : p ∈ d.violations name v ↔ d.Breaks name v p := by
  obtain checked | ⟨-, bad⟩ := d.check_cases name v
  · obtain ⟨qs, patterns, all⟩ := check_eq_ok checked
    rw [all, List.mem_append, List.mem_append, mem_checkAllowed, mem_checkBounds,
      mem_checkPattern patterns]
    constructor
    · rintro ((⟨vs, values, not, rfl⟩ | ⟨x, measure, ⟨m, bound, beyond, rfl⟩ | ⟨m, bound, beyond, rfl⟩⟩) |
        ⟨t, q, c, text, pattern, compiled, not, rfl⟩)
      · exact .allowed values not
      · exact .low measure bound beyond
      · exact .high measure bound beyond
      · exact .pattern text pattern compiled not
    · intro breaks
      cases breaks with
      | allowed values not => exact .inl (.inl ⟨_, values, not, rfl⟩)
      | low measure bound beyond => exact .inl (.inr ⟨_, measure, .inl ⟨_, bound, beyond, rfl⟩⟩)
      | high measure bound beyond => exact .inl (.inr ⟨_, measure, .inr ⟨_, bound, beyond, rfl⟩⟩)
      | pattern text pattern compiled not => exact .inr ⟨_, _, _, text, pattern, compiled, not, rfl⟩
  · exact absurd h bad

theorem mem_complaints (h : d.Compiles) : p ∈ d.complaints name raw ↔ d.Faults name raw p := by
  unfold complaints
  cases coerced : d.coerce name raw with
  | error q =>
    rw [List.mem_singleton]
    constructor
    · rintro rfl
      exact .conversion coerced
    · rintro (same | ⟨converted, -⟩)
      · rw [coerced] at same
        cases same
        rfl
      · rw [coerced] at converted
        cases converted
  | ok v =>
    dsimp only
    rw [mem_violations h]
    constructor
    · exact fun breaks => .constraint coerced breaks
    · rintro (same | ⟨converted, breaks⟩)
      · rw [coerced] at same
        cases same
      · rw [coerced] at converted
        cases converted
        exact breaks

theorem nodup_checkAllowed (name : String) (v : Value) (d : Variable) :
    (checkAllowed name v d).Nodup := by
  unfold checkAllowed
  split
  · split
    · exact List.nodup_nil
    · exact List.nodup_singleton _
  · exact List.nodup_nil

theorem nodup_checkBounds (name : String) (v : Value) (d : Variable) : (checkBounds name v d).Nodup := by
  have one (o : Option Problem) : o.toList.Nodup := by
    cases o with
    | none => exact List.nodup_nil
    | some p => exact List.nodup_singleton p
  unfold checkBounds
  split
  · exact List.nodup_nil
  · -- to be too low is another problem than to be too high
    refine List.nodup_append.mpr ⟨one _, one _, ?_⟩
    rintro _ low _ high rfl
    simp only [Option.mem_toList, Option.map_eq_some_iff] at low high
    obtain ⟨_, -, rfl⟩ := low
    obtain ⟨_, -, other⟩ := high
    cases other

theorem nodup_checkPattern {qs : List Problem} (h : checkPattern name v d = .ok qs) : qs.Nodup := by
  unfold checkPattern at h
  split at h
  · split at h
    · cases h
    · cases h
      split
      · exact List.nodup_nil
      · exact List.nodup_singleton _
  · cases h
    exact List.nodup_nil

/-- No problem is found twice. -/
theorem nodup_violations (d : Variable) (name : String) (v : Value) : (d.violations name v).Nodup := by
  unfold violations
  cases checked : d.check name v with
  | error f => exact List.nodup_nil
  | ok ps =>
    obtain ⟨qs, patterns, rfl⟩ := check_eq_ok checked
    -- each check has problems of its own kind
    refine List.nodup_append.mpr ⟨List.nodup_append.mpr
      ⟨nodup_checkAllowed name v d, nodup_checkBounds name v d, ?_⟩, nodup_checkPattern patterns, ?_⟩
    · rintro _ allowed _ bounds rfl
      obtain ⟨_, -, -, rfl⟩ := mem_checkAllowed.mp allowed
      obtain ⟨_, -, ⟨_, -, -, other⟩ | ⟨_, -, -, other⟩⟩ := mem_checkBounds.mp bounds <;> cases other
    · rintro _ before _ mismatch rfl
      obtain ⟨_, _, _, -, -, -, -, rfl⟩ := (mem_checkPattern patterns).mp mismatch
      rcases List.mem_append.mp before with allowed | bounds
      · obtain ⟨_, -, -, other⟩ := mem_checkAllowed.mp allowed
        cases other
      · obtain ⟨_, -, ⟨_, -, -, other⟩ | ⟨_, -, -, other⟩⟩ := mem_checkBounds.mp bounds <;> cases other

theorem complaints_eq_nil (h : d.complaints name raw = []) :
    ∃ v, d.coerce name raw = .ok v ∧ d.violations name v = [] := by
  unfold complaints at h
  cases coerced : d.coerce name raw with
  | error p =>
    rw [coerced] at h
    cases h
  | ok v =>
    rw [coerced] at h
    exact ⟨v, rfl, h⟩

theorem nodup_complaints (d : Variable) (name : String) (raw : Value) :
    (d.complaints name raw).Nodup := by
  unfold complaints
  split
  · simp
  · exact d.nodup_violations name _

end Variable

end Scaffold
