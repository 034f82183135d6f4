import Scaffold.Proofs.Number.Integers
import Scaffold.Proofs.Recipe.Values

/-!
# Numbers within bounds

A number is accepted where it is neither below its lower bound nor above its upper one.  That is to be
within the bounds, unless something is not a number: this is neither below nor above any bound, and no
number is below or above it.
-/

namespace Scaffold

namespace Variable

variable {d : Variable} {name : String} {v : Value} {low high : Binary64}

/-- A number of which no violations are found is not outside its bounds. -/
theorem not_beyond (kind : d.kind.Fits v) (number : d.kind = .number) (min : d.min = some low)
    (max : d.max = some high) (h : d.violations name v = []) :
    ∃ x, v.number? = some x ∧ x.lt (.float low) = false ∧ (Number.float high).lt x = false := by
  -- a number is measured by itself and has no pattern
  obtain ⟨x, counts, measures, checked⟩ : ∃ x, v.number? = some x ∧ measure? v = some x ∧
      d.violations name v = checkAllowed name v d ++ checkBounds name v d ++ [] := by
    rw [number] at kind
    cases kind with
    | int n => exact ⟨.int n, rfl, rfl, rfl⟩
    | float x => exact ⟨.float x, rfl, rfl, rfl⟩
  rw [checked, List.append_nil, List.append_eq_nil_iff] at h
  have free (p : Problem) : p ∉ checkBounds name v d := by
    rw [h.2]
    exact List.not_mem_nil
  refine ⟨x, counts, ?_, ?_⟩
  · cases beyond : x.lt (.float low) with
    | false => rfl
    | true => exact absurd (mem_checkBounds.mpr ⟨x, measures, .inl ⟨low, min, beyond, rfl⟩⟩) (free _)
  · cases beyond : (Number.float high).lt x with
    | false => rfl
    | true => exact absurd (mem_checkBounds.mpr ⟨x, measures, .inr ⟨high, max, beyond, rfl⟩⟩) (free _)

end Variable

namespace Recipe

open Run

variable {r : Recipe} {s : Sources} {name : String} {d : Variable} {low high : Binary64} {b : Bindings}
  {st t : Session}

/-- Where a number is accepted it is bound, and it is within its bounds exactly if it and both bounds are
numbers at all. -/
theorem within_bounds_iff (distinct : (Record.keys r.declared).Nodup) (mem : (name, d) ∈ r.declared)
    (number : d.kind = .number) (min : d.min = some low) (max : d.max = some high)
    (h : (r.resolveVariables s).on st = (.ok b, t)) :
    (∀ raw, s.provided.get? name = some raw → raw ≠ .null → b.merged.has name = true) ∧
    ∀ v, b.merged.get? name = some v → ∃ x, v.number? = some x ∧
      ((Number.float low).le x = true ∧ x.le (.float high) = true ↔
        low ≠ .nan ∧ x ≠ .float .nan ∧ high ≠ .nan) := by
  obtain ⟨replies, none, rfl⟩ := resolveVariables_eq_ok distinct h
  constructor
  · intro raw provided there
    have first : first? s (replies.get? name) name d = some (raw, .provided) :=
      first?_of_known (knownValue?_provided provided there) there
    obtain ⟨v, -, -, merged⟩ := get?_settled_some distinct none mem first
    rw [Record.has, merged]
    rfl
  · intro v merged
    cases first : first? s (replies.get? name) name d with
    | none =>
      rw [get?_settled_none distinct mem first] at merged
      cases merged
    | some w =>
      obtain ⟨v', coerced, fine, merged'⟩ := get?_settled_some distinct none mem first
      rw [merged'] at merged
      cases merged
      obtain ⟨x, counts, above, below⟩ :=
        Variable.not_beyond (Variable.coerce_fits coerced) number min max fine
      refine ⟨x, counts, ?_⟩
      -- what the checks leave open is only whether the numbers compare at all
      rw [Number.le_iff, Number.le_iff, and_iff_left above, and_iff_left below]
      simp only [ne_eq, Number.float.injEq]
      tauto

namespace Rated

/-- A rating from one to five. -/
def rating : Variable := { kind := .number, min := some (.ofInt 1), max := some (.ofInt 5) }

/-- A recipe with a rating. -/
def recipe : Recipe := { name := "rated", declared := [("rating", rating)] }

/-- What is not a number is accepted, and is not within the bounds. -/
theorem nan_accepted :
    ∃ b, ((recipe.resolveVariables { provided := [("rating", .str "nan")] }).on {}).1 = .ok b ∧
      b.merged.get? "rating" = some (.float .nan) ∧
      (Number.float (.ofInt 1)).le (.float .nan) = false ∧
      (Number.float .nan).le (.float (.ofInt 5)) = false :=
  ⟨_, rfl, rfl, rfl, rfl⟩

/-- A number that is accepted is within the bounds. -/
theorem three_within :
    ((recipe.resolveVariables { provided := [("rating", .str "3.0")] }).on {}).1 =
      .ok { values := [("rating", .float (.ofInt 3))] } ∧
    (Number.float (.ofInt 1)).le (.float (.ofInt 3)) = true ∧
      (Number.float (.ofInt 3)).le (.float (.ofInt 5)) = true := by
  have resolved : (recipe.resolveVariables { provided := [("rating", .str "3.0")] }).on {} =
      (.ok { values := [("rating", .float (.ofInt 3))] }, {}) := by rfl
  obtain ⟨-, within⟩ :=
    within_bounds_iff (by decide) (List.mem_singleton_self ("rating", rating)) rfl rfl rfl resolved
  obtain ⟨x, counts, iff⟩ := within _ rfl
  cases counts
  exact ⟨by rw [resolved], iff.mpr ⟨by decide, by decide, by decide⟩⟩

end Rated

end Recipe

end Scaffold
