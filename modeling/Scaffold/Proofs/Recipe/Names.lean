import Mathlib.Data.List.Forall2
import Scaffold.Proofs.Failing
import Scaffold.Proofs.Value.Records
import Scaffold.Recipe.Store

/-!
# Names in a recipe

A recipe that is read declares no variable twice, since a mapping has each key once, and no two of its
steps share a name, since that is refused.  So a name tells which variable or which step is meant.
-/

namespace Scaffold

namespace Schema

variable {α β : Type}

theorem Checked.apply_eq_ok {f : Checked (α → β)} {a : Checked α} {b : β} (h : f.apply a = .ok b) :
    ∃ g x, f = .ok g ∧ a = .ok x ∧ b = g x := by
  cases f <;> cases a <;> cases h
  exact ⟨_, _, rfl, rfl, rfl⟩

theorem Checked.map_eq_ok {f : α → β} {a : Checked α} {b : β} (h : a.map f = .ok b) :
    ∃ x, a = .ok x ∧ b = f x := by
  cases a <;> cases h
  exact ⟨_, rfl, rfl⟩

theorem Checked.andThen_eq_ok {a : Checked α} {f : α → Checked β} {b : β} (h : a.andThen f = .ok b) :
    ∃ x, a = .ok x ∧ f x = .ok b := by
  cases a
  · exact ⟨_, rfl, h⟩
  · cases h

theorem Checked.all_eq_ok {f : α → Checked β} {as : List α} {bs : List β} (h : all (as.map f) = .ok bs) :
    ∀ a ∈ as, ∃ b, f a = .ok b := by
  induction as generalizing bs with
  | nil => exact nofun
  | cons a as ih =>
    obtain ⟨_, bs', first, rest, -⟩ := apply_eq_ok h
    obtain ⟨b, here, -⟩ := map_eq_ok first
    exact List.forall_mem_cons.mpr ⟨⟨b, here⟩, ih rest⟩

theorem Checked.under_eq_ok {a : Checked α} {step : String} {x : α} (h : a.under step = .ok x) :
    a = .ok x := by
  cases a <;> cases h
  rfl

theorem Checked.eq_map_of_all {cs : List (Checked α)} {as : List α} (h : all cs = .ok as) :
    cs = as.map .ok := by
  induction cs generalizing as with
  | nil =>
    cases h
    rfl
  | cons c cs ih =>
    obtain ⟨_, as', first, rest, rfl⟩ := apply_eq_ok h
    obtain ⟨a, here, rfl⟩ := map_eq_ok first
    rw [here, ih rest, List.map_cons]

/-- The items of a list that is read are read one by one. -/
theorem listOf_eq_ok {r : Reader α} {items : List Value} {as : List α}
    (h : listOf r (.list items) = .ok as) : List.Forall₂ (fun v a => r v = .ok a) items as := by
  have each := List.forall₂_eq_eq_eq.symm ▸ Checked.eq_map_of_all h
  rw [List.mapIdx_eq_zipIdx_map, List.forall₂_map_left_iff, List.forall₂_map_right_iff] at each
  have read := each.imp fun x a => Checked.under_eq_ok
  rw [← List.zipIdx_map_fst 0 items, List.forall₂_map_left_iff]
  exact read

/-- Data that was read without issues, whatever these would have been reported as. -/
theorem Checked.toExcept_eq_ok {a : Checked α} {f : List Issue → Failure} {x : α}
    (h : a.toExcept.mapError f = .ok x) : a = .ok x := by
  cases a <;> cases h
  rfl

/-- What is read from a field was read by its reader, or it is the default. -/
theorem field_eq_ok {es : Entries} {name : String} {r : Reader α} {default a : α}
    (h : field es name r default = .ok a) : a = default ∨ ∃ v, r v = .ok a := by
  unfold field at h
  split at h
  · cases h
    exact .inl rfl
  next v _ =>
    refine .inr ⟨v, ?_⟩
    cases read : r v <;> rw [read] at h <;> cases h
    rfl

theorem recordOf_nodup {r : Reader α} {v : Value} {entries : Record α}
    (h : recordOf r v = .ok entries) : (Record.keys entries).Nodup := by
  unfold recordOf at h
  split at h
  · obtain ⟨read, -, rfl⟩ := Checked.map_eq_ok h
    exact Record.nodup_keys_ofList read
  · cases h

end Schema

open Schema

namespace Recipe

/-- Where no name is repeated, all are distinct. -/
theorem nodup_of_repeated {names : List String} (h : repeated names = []) : names.Nodup := by
  have none : names.eraseDups.filter (fun n => 1 < names.count n) = [] :=
    List.length_eq_zero_iff.mp (by rw [← List.length_mergeSort, ← repeated, h]; rfl)
  refine List.nodup_iff_count_le_one.mpr fun n => ?_
  by_cases there : n ∈ names
  · simpa using List.filter_eq_nil_iff.mp none n (List.mem_eraseDups.mpr there)
  · rw [List.count_eq_zero.mpr there]
    exact Nat.zero_le 1

theorem readSteps_nodup {v : Value} {steps : List Step} (h : readSteps v = .ok steps) :
    (steps.map (·.name)).Nodup := by
  obtain ⟨read, -, checked⟩ := Checked.andThen_eq_ok h
  split at checked
  next once =>
    cases checked
    exact nodup_of_repeated once
  next => cases checked

/-- The variables of a recipe have distinct names, and so do its steps. -/
structure Distinct (r : Recipe) : Prop where
  declared : (Record.keys r.declared).Nodup
  steps : (r.steps.map (·.name)).Nodup

theorem ofValue_distinct {v : Value} {r : Recipe} (h : ofValue v = .ok r) : r.Distinct := by
  obtain ⟨es, -, made⟩ := Checked.andThen_eq_ok h
  -- the recipe is put together field by field, the last field outermost
  obtain ⟨f₅, source, made₅, -, rfl⟩ := Checked.apply_eq_ok made
  obtain ⟨f₄, steps, made₄, readsSteps, rfl⟩ := Checked.apply_eq_ok made₅
  obtain ⟨f₃, declared, made₃, readsDeclared, rfl⟩ := Checked.apply_eq_ok made₄
  obtain ⟨f₂, version, made₂, -, rfl⟩ := Checked.apply_eq_ok made₃
  obtain ⟨f₁, description, made₁, -, rfl⟩ := Checked.apply_eq_ok made₂
  obtain ⟨name, -, rfl⟩ := Checked.map_eq_ok made₁
  constructor
  · show (Record.keys declared).Nodup
    rcases field_eq_ok readsDeclared with rfl | ⟨v, read⟩
    · exact List.nodup_nil
    · exact recordOf_nodup read
  · show (steps.map (·.name)).Nodup
    rcases field_eq_ok readsSteps with rfl | ⟨v, read⟩
    · exact List.nodup_nil
    · exact readSteps_nodup read

theorem parse_distinct {text : String} {source : Option Path} {r : Recipe}
    (h : parse text source = .ok r) : r.Distinct := by
  unfold parse at h
  obtain ⟨data, -, h⟩ := bind_eq_ok h
  split at h
  next es =>
    exact ofValue_distinct (Checked.toExcept_eq_ok h)
  next => cases h

/-- A recipe that is loaded has distinct names. -/
theorem load_distinct {t : Tree} {path : Path} {r : Recipe} (h : load t path = .ok r) : r.Distinct := by
  unfold load at h
  -- wherever its file is found, the recipe is what the text of the file writes
  have parsed {file : Path} (h : (do parse (← textOf t file) (some file.resolved)) = .ok r) :
      r.Distinct := by
    obtain ⟨text, -, h⟩ := bind_eq_ok h
    exact parse_distinct h
  dsimp only at h
  split at h
  · split at h
    · exact parsed h
    · cases h
  · exact parsed h

end Recipe

end Scaffold
