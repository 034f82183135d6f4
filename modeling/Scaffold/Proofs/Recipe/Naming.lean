import Mathlib.Data.List.Nodup
import Scaffold.Proofs.Engine.Shape
import Scaffold.Proofs.Number.Numerals
import Scaffold.Proofs.Recipe.Names

/-!
# Names that are made up

A step that is given no name is named after its tool and its number.  These names differ among each other,
since the number stands behind the last hyphen.  But nothing keeps an author from giving a step the name
that another step would get.  So where the given names are distinct, all names are distinct exactly if none
of them was given that is also made up; otherwise the steps are refused.

The results of earlier steps are kept under the names of these steps.  Since no two steps of a recipe that
is read share a name, no result is ever written over another.
-/

namespace Scaffold

/-- Elements that are taken to the same thing, which is there once, are the same. -/
theorem eq_of_nodup_filterMap {α β : Type} {f : α → Option β} {xs : List α} {x y : α} {b : β}
    (once : (xs.filterMap f).Nodup) (hx : x ∈ xs) (hy : y ∈ xs) (fx : f x = some b)
    (fy : f y = some b) : x = y := by
  induction xs with
  | nil => cases hx
  | cons a xs ih =>
    have among {z : α} (hz : z ∈ xs) (fz : f z = some b) : b ∈ xs.filterMap f :=
      List.mem_filterMap.mpr ⟨z, hz, fz⟩
    have rest : (xs.filterMap f).Nodup := once.sublist ((List.sublist_cons_self a xs).filterMap f)
    have apart (fa : f a = some b) : b ∉ xs.filterMap f := by
      rw [List.filterMap_cons_some fa] at once
      exact (List.nodup_cons.mp once).1
    rcases List.mem_cons.mp hx with rfl | hx'
    · rcases List.mem_cons.mp hy with same | hy'
      · exact same.symm
      · exact absurd (among hy' fy) (apart fx)
    · rcases List.mem_cons.mp hy with rfl | hy'
      · exact absurd (among hx' fx) (apart fy)
      · exact ih rest hx' hy'

namespace Recipe

open Schema

variable {raws : List Entries} {x y : Entries × Nat} {steps : List Step}

/-! ## Naming -/

/-- Raw steps with their numbers, from one. -/
def numbered (raws : List Entries) : List (Entries × Nat) := raws.zipIdx 1

/-- The name that a step is given, unless it counts as false. -/
def givenName? (es : Entries) : Option Value := (es.field? "name").filter (·.truthy)

/-- The name that is made up for a step: its tool and its number. -/
def automaticName (x : Entries × Nat) : String :=
  ((x.1.field? "tool").getD (.str "step")).plain ++ "-" ++ toString x.2

/-- A step with its name. -/
def named (x : Entries × Nat) : Entries :=
  if (givenName? x.1).isSome then x.1 else x.1.put (.str "name") (.str (automaticName x))

/-- The name of a step, given or made up. -/
def nameOf (x : Entries × Nat) : Value := (givenName? x.1).getD (.str (automaticName x))

theorem nameStep_dict (x : Entries × Nat) : nameStep x.2 (.dict x.1) = .dict (named x) := by
  have given : (givenName? x.1).isSome = ((x.1.field? "name").getD .null).truthy := by
    rw [givenName?]
    cases x.1.field? "name" with
    | none => rfl
    | some v => cases truth : v.truthy <;> simp [Option.filter, truth]
  rw [nameStep, named, given]
  split <;> rfl

/-- Steps are named one by one. -/
theorem nameSteps_list (raws : List Entries) : nameSteps (.list (raws.map .dict)) =
    .list ((numbered raws).map fun x => .dict (named x)) := by
  refine congrArg Value.list (List.ext_getElem (by simp [numbered]) fun i _ _ => ?_)
  simp [numbered, ← nameStep_dict, Nat.add_comm]

theorem named_of_given {v : Value} (given : givenName? x.1 = some v) :
    named x = x.1 ∧ x.1.field? "name" = some v := by
  rw [named, given]
  exact ⟨rfl, Option.eq_some_of_filter_eq_some given⟩

theorem field?_named (new : givenName? x.1 = none) (k : String) :
    (named x).field? k = if "name" = k then some (.str (automaticName x)) else x.1.field? k := by
  rw [named, new]
  exact Entries.field?_put x.1 "name" k _

/-- A named step has its name. -/
theorem field?_named_name (x : Entries × Nat) : (named x).field? "name" = some (nameOf x) := by
  cases given : givenName? x.1 with
  | none => rw [field?_named given, if_pos rfl, nameOf, given, Option.getD_none]
  | some v =>
    obtain ⟨same, there⟩ := named_of_given given
    rw [same, there, nameOf, given, Option.getD_some]

/-! ## Names that are made up differ -/

/-- The number of a step stands behind the last hyphen of the name that is made up for it. -/
theorem number_behind_hyphen (x : Entries × Nat) :
    (automaticName x).toList.reverse.takeWhile (· != '-') = (Nat.toDigits 10 x.2).reverse := by
  have digits : ∀ c ∈ (Nat.toDigits 10 x.2).reverse, (c != '-') = true := by
    intro c mem
    have digit := Numeral.isAsciiDigit_of_mem_toDigits (List.mem_reverse.mp mem)
    rw [bne_iff_ne]
    rintro rfl
    cases digit
  have written : (automaticName x).toList =
      ((x.1.field? "tool").getD (.str "step")).plain.toList ++ '-' :: Nat.toDigits 10 x.2 := by
    simp [automaticName]
  rw [written, List.reverse_append, List.reverse_cons, List.append_assoc,
    List.takeWhile_append_of_pos digits]
  simp

theorem number_of_automaticName (same : automaticName x = automaticName y) : x.2 = y.2 := by
  have digits := number_behind_hyphen x
  rw [same, number_behind_hyphen y, List.reverse_inj] at digits
  rw [← Nat.ofDigitChars_ten_toDigits (n := x.2), ← digits, Nat.ofDigitChars_ten_toDigits]

theorem automaticName_ne_empty (x : Entries × Nat) : automaticName x ≠ "" := by
  intro empty
  have none := number_behind_hyphen x
  rw [empty] at none
  exact Nat.toDigits_ne_nil (List.reverse_eq_nil_iff.mp none.symm)

theorem eq_of_number (hx : x ∈ numbered raws) (hy : y ∈ numbered raws) (same : x.2 = y.2) : x = y := by
  have once : ((numbered raws).map (·.2)).Nodup := by
    rw [numbered, List.zipIdx_map_snd]
    exact List.nodup_range'
  exact List.inj_on_of_nodup_map once hx hy same

theorem filterMap_numbered (raws : List Entries) :
    (numbered raws).filterMap (fun x => givenName? x.1) = raws.filterMap givenName? := by
  rw [← List.zipIdx_map_fst 1 raws, List.filterMap_map, List.zipIdx_map_fst]
  rfl

/-- Where given names are distinct, all names are, exactly if no given name is also made up. -/
theorem nodup_names_iff (given : (raws.filterMap givenName?).Nodup) :
    ((numbered raws).map nameOf).Nodup ↔ ∀ x ∈ numbered raws, givenName? x.1 = none →
      .str (automaticName x) ∉ raws.filterMap givenName? := by
  rw [← filterMap_numbered] at given ⊢
  constructor
  · intro apart x hx new clash
    obtain ⟨y, hy, taken⟩ := List.mem_filterMap.mp clash
    have same : x = y := List.inj_on_of_nodup_map apart hx hy (by simp [nameOf, new, taken])
    rw [same, taken] at new
    cases new
  · intro clear
    have once : (numbered raws).Nodup := List.Nodup.of_map (·.2) (by
      rw [numbered, List.zipIdx_map_snd]
      exact List.nodup_range')
    refine List.Nodup.map_on (fun x hx y hy same => ?_) once
    have met {x y : Entries × Nat} {v : Value} (hx : x ∈ numbered raws) (hy : y ∈ numbered raws)
        (new : givenName? x.1 = none) (taken : givenName? y.1 = some v) : nameOf x ≠ nameOf y := by
      intro same
      rw [nameOf, nameOf, new, taken, Option.getD_none, Option.getD_some] at same
      exact clear x hx new (List.mem_filterMap.mpr ⟨y, hy, same ▸ taken⟩)
    cases gx : givenName? x.1 with
    | none =>
      cases gy : givenName? y.1 with
      | none =>
        rw [nameOf, nameOf, gx, gy] at same
        exact eq_of_number hx hy (number_of_automaticName (Value.str.inj same))
      | some v => exact absurd same (met hx hy gx gy)
    | some v =>
      cases gy : givenName? y.1 with
      | none => exact absurd same.symm (met hy hx gy gx)
      | some w =>
        rw [nameOf, nameOf, gx, gy] at same
        exact eq_of_nodup_filterMap given hx hy gx (gy.trans (congrArg some same.symm))

/-! ## Reading steps that are named -/

/-- A step of a kind that is read has the name that is written. -/
theorem name_of_readStepOf {kind : StepKind} {es : Entries} {v : Value} {s : Step}
    (h : readStepOf kind es = .ok s) (there : es.field? "name" = some v) : v = .str s.name := by
  rw [readStepOf] at h
  -- the step is put together field by field, the last field outermost and the name innermost
  obtain ⟨_, _, known, -, rfl⟩ := Checked.apply_eq_ok h
  obtain ⟨_, made, rfl⟩ := Checked.map_eq_ok known
  obtain ⟨_, _, made₈, -, rfl⟩ := Checked.apply_eq_ok made
  obtain ⟨_, _, made₇, -, rfl⟩ := Checked.apply_eq_ok made₈
  obtain ⟨_, _, made₆, -, rfl⟩ := Checked.apply_eq_ok made₇
  obtain ⟨_, _, made₅, -, rfl⟩ := Checked.apply_eq_ok made₆
  obtain ⟨_, _, made₄, -, rfl⟩ := Checked.apply_eq_ok made₅
  obtain ⟨_, _, made₃, -, rfl⟩ := Checked.apply_eq_ok made₄
  obtain ⟨_, _, made₂, -, rfl⟩ := Checked.apply_eq_ok made₃
  obtain ⟨_, _, made₁, -, rfl⟩ := Checked.apply_eq_ok made₂
  obtain ⟨name, read, rfl⟩ := Checked.map_eq_ok made₁
  rw [field, there] at read
  have text := Checked.under_eq_ok read
  cases v with
  | str written =>
    cases text
    rfl
  | _ => cases text

/-- A step that is read has the name that is written. -/
theorem name_of_readStep {es : Entries} {v : Value} {s : Step} (h : readStep (.dict es) = .ok s)
    (there : es.field? "name" = some v) : v = .str s.name := by
  rw [readStep] at h
  split at h
  · cases h
  dsimp only at h
  split at h
  · exact name_of_readStepOf (Checked.under_eq_ok h) there
  · cases h

theorem names_of_read (h : listOf readStep (nameSteps (.list (raws.map .dict))) = .ok steps) :
    steps.map (fun s => Value.str s.name) = (numbered raws).map nameOf := by
  rw [nameSteps_list] at h
  have each := listOf_eq_ok h
  rw [List.forall₂_map_left_iff] at each
  have named := each.imp fun x s read => name_of_readStep read (field?_named_name x)
  rw [← List.forall₂_eq_eq_eq, List.forall₂_map_left_iff, List.forall₂_map_right_iff]
  exact (named.imp fun _ _ same => same.symm).flip

theorem repeated_of_nodup {names : List String} (h : names.Nodup) : repeated names = [] := by
  have none : names.eraseDups.filter (fun n => 1 < names.count n) = [] := by
    rw [List.filter_eq_nil_iff]
    intro n _
    simpa using List.nodup_iff_count_le_one.mp h n
  rw [repeated, none, List.mergeSort_nil]

/-- Steps that are read are refused exactly if two of them have the same name. -/
theorem readSteps_eq {v : Value} (read : listOf readStep (nameSteps v) = .ok steps) :
    readSteps v = if (steps.map (·.name)).Nodup then .ok steps
      else refuse ("Value error, Duplicate step names: " ++
        Text.join ", " (repeated (steps.map (·.name)))) := by
  rw [readSteps, read]
  dsimp only [Checked.andThen]
  by_cases apart : (steps.map (·.name)).Nodup
  · rw [repeated_of_nodup apart, if_pos apart]
  · rw [if_neg apart]
    split
    next none => exact absurd (nodup_of_repeated none) apart
    next => rfl

end Recipe

/-! ## Results under their names -/

/-- A turn knows what came of others: their results under the names of their steps, in order. -/
def Turn.Knows (u : Turn) (others : List Turn) : Prop :=
  List.Forall₂ (fun t e => e.1 = t.step.name ∧ t.outcome = .ok e.2) others u.earlier

namespace Engine

variable {e : Engine} {r : Recipe} {b : Bindings} {options : Options} {answers : Record String}

/-- Behind the turn of a step come no others, or those of the steps behind it. -/
theorem turns_cons {earlier : Record StepResult} {s : Step} {rest : List Step} {st : Session}
    {ts : List Turn} (h : e.turns r b options answers earlier (s :: rest) st = ts) :
    ∃ others, ts = e.turn r b options answers earlier s st :: others ∧
      (others = [] ∨ ∃ o, (e.turn r b options answers earlier s st).outcome = .ok o ∧
        others = e.turns r b options answers (earlier.put s.name o) rest
          (e.turn r b options answers earlier s st).after) := by
  subst h
  cases outcome : (e.turn r b options answers earlier s st).outcome with
  | error f => exact ⟨[], turns_of_error outcome, .inl rfl⟩
  | ok o =>
    cases success : o.success with
    | false => exact ⟨[], turns_of_failed outcome success, .inl rfl⟩
    | true => exact ⟨_, turns_of_success outcome success, .inr ⟨o, rfl, rfl⟩⟩

/-- Where steps have names of their own, every turn adds a result to those that were known before. -/
theorem turns_gain {earlier : Record StepResult} {steps : List Step} {st : Session}
    {before behind : List Turn} {u : Turn} (distinct : (steps.map (·.name)).Nodup)
    (new : ∀ s ∈ steps, s.name ∉ earlier.keys)
    (h : e.turns r b options answers earlier steps st = before ++ u :: behind) :
    ∃ gained, u.earlier = earlier ++ gained ∧
      List.Forall₂ (fun t x => x.1 = t.step.name ∧ t.outcome = .ok x.2) before gained := by
  induction steps generalizing earlier st before with
  | nil => cases before <;> cases h
  | cons s rest ih =>
    obtain ⟨others, turned, after⟩ := turns_cons h
    cases before with
    | nil =>
      cases turned
      exact ⟨[], (List.append_nil earlier).symm, .nil⟩
    | cons t before =>
      obtain ⟨rfl, rfl⟩ := List.cons.inj turned
      rcases after with none | ⟨o, outcome, tail⟩
      · cases before <;> cases none
      -- the result of the step is known under a name that was not there
      obtain ⟨own, apart⟩ := List.nodup_cons.mp distinct
      have put : earlier.put s.name o = earlier ++ [(s.name, o)] :=
        Record.put_of_not_mem (new s List.mem_cons_self) o
      have still (s' : Step) (mem : s' ∈ rest) : s'.name ∉ (earlier.put s.name o).keys := by
        rw [Record.mem_keys_put, not_or]
        exact ⟨new s' (List.mem_cons_of_mem s mem), fun same => own (List.mem_map.mpr ⟨s', mem, same⟩)⟩
      obtain ⟨gained, known, each⟩ := ih apart still tail.symm
      refine ⟨(s.name, o) :: gained, ?_, .cons ⟨rfl, outcome⟩ each⟩
      rw [known, put, List.append_assoc, List.singleton_append]

/-- Where the steps of a recipe have names of their own, every turn knows what came of those before. -/
theorem history_knows {s : Session} {before behind : List Turn} {u : Turn}
    (distinct : (r.steps.map (·.name)).Nodup)
    (h : e.history r b options answers s = before ++ u :: behind) : u.Knows before := by
  rw [history] at h
  split at h
  · obtain ⟨gained, known, each⟩ := turns_gain distinct (fun _ _ => List.not_mem_nil) h
    rw [Turn.Knows, known]
    exact each
  · cases before <;> cases h

end Engine

namespace Recipe

open Schema

/-! ## What naming comes to -/

/-- What comes of raw steps that are named. -/
structure Naming (raws : List Entries) : Prop where
  /-- Steps are named one by one. -/
  single : nameSteps (.list (raws.map .dict)) = .list ((numbered raws).map fun x => .dict (named x))
  name : ∀ x ∈ numbered raws, (named x).field? "name" = some (nameOf x)
  /-- A step that is given a name is left as it is. -/
  given : ∀ x ∈ numbered raws, ∀ v, givenName? x.1 = some v → named x = x.1 ∧ nameOf x = v
  /-- Any other step gets a name that is not empty, and keeps what it has besides. -/
  madeUp : ∀ x ∈ numbered raws, givenName? x.1 = none →
    nameOf x = .str (automaticName x) ∧ automaticName x ≠ "" ∧
      ∀ k, k ≠ "name" → (named x).field? k = x.1.field? k
  /-- Names that are made up differ among each other. -/
  automatic : ∀ x ∈ numbered raws, ∀ y ∈ numbered raws, automaticName x = automaticName y → x = y
  /-- All names differ exactly if none was given that is also made up. -/
  apart : ((numbered raws).map nameOf).Nodup ↔ ∀ x ∈ numbered raws, givenName? x.1 = none →
    .str (automaticName x) ∉ raws.filterMap givenName?
  /-- Steps that can be read each by itself have these names, and are refused only for their names. -/
  read : ∀ steps, listOf readStep (nameSteps (.list (raws.map .dict))) = .ok steps →
    steps.map (fun s => Value.str s.name) = (numbered raws).map nameOf ∧
      (((numbered raws).map nameOf).Nodup → readSteps (.list (raws.map .dict)) = .ok steps) ∧
      (¬((numbered raws).map nameOf).Nodup → readSteps (.list (raws.map .dict)) =
        refuse ("Value error, Duplicate step names: " ++
          Text.join ", " (repeated (steps.map (·.name)))))
  /-- In an execution of steps that are accepted no result is written over another. -/
  kept : ∀ steps, readSteps (.list (raws.map .dict)) = .ok steps →
    ∀ (e : Engine) (r : Recipe) b options answers s before u behind, r.steps = steps →
      e.history r b options answers s = before ++ u :: behind → u.Knows before

/-- Where given names are distinct, all names are unless one was given that is also made up; and then
alone steps are refused. -/
theorem naming_of_distinct (given : (raws.filterMap givenName?).Nodup) : Naming raws where
  single := nameSteps_list raws
  name x _ := field?_named_name x
  given x _ v there := ⟨(named_of_given there).1, by rw [nameOf, there, Option.getD_some]⟩
  madeUp x _ new := by
    refine ⟨by rw [nameOf, new, Option.getD_none], automaticName_ne_empty x, fun k other => ?_⟩
    rw [field?_named new, if_neg other.symm]
  automatic x hx y hy same := eq_of_number hx hy (number_of_automaticName same)
  apart := nodup_names_iff given
  read steps read := by
    have names := names_of_read read
    have same : ((numbered raws).map nameOf).Nodup ↔ (steps.map (·.name)).Nodup := by
      rw [← names, ← List.nodup_map_iff (f := Value.str) fun _ _ => Value.str.inj, List.map_map]
      rfl
    refine ⟨names, fun apart => ?_, fun clash => ?_⟩
    · rw [readSteps_eq read, if_pos (same.mp apart)]
    · rw [readSteps_eq read, if_neg (mt same.mpr clash)]
  kept steps accepted e r b options answers s before u behind same turns := by
    subst same
    exact Engine.history_knows (readSteps_nodup accepted) turns

end Recipe

/-! ## A step with the name of its neighbour -/

namespace Neighbours

open Recipe

/-- An echo that is given a name, in front of one that is not. -/
def raws (name : String) : List Entries :=
  [[(.str "tool", .str "echo"), (.str "name", .str name)], [(.str "tool", .str "echo")]]

/-- Steps of which one is given a name that is not made up are read, and have both names. -/
theorem both_named : ((raws "greet").filterMap givenName?).Nodup ∧
    ∃ steps, readSteps (.list ((raws "greet").map .dict)) = .ok steps ∧
      steps.map (·.name) = ["greet", "echo-2"] := by
  have given : ((raws "greet").filterMap givenName?).Nodup := List.nodup_singleton (Value.str "greet")
  have naming := naming_of_distinct given
  let steps : List Step := [{ name := "greet", body := .echo {} }, { name := "echo-2", body := .echo {} }]
  have read : Schema.listOf readStep (nameSteps (.list ((raws "greet").map .dict))) = .ok steps := by
    rfl
  refine ⟨given, steps, (naming.read steps read).2.1 (naming.apart.mpr fun x mem new clash => ?_), rfl⟩
  obtain made : Value.str (automaticName x) = .str "greet" := List.mem_singleton.mp clash
  -- only the second step gets a name
  rcases List.mem_cons.mp mem with rfl | mem
  · cases new
  · obtain rfl := List.mem_singleton.mp mem
    exact absurd (Value.str.inj made) (by decide)

/-- A name that is given is that of the next step as well, so that the steps are refused. -/
theorem echo_twice : (∀ es ∈ raws "echo-2", ∃ k : StepKind, es.field? "tool" = some (.str k.tag)) ∧
    ((raws "echo-2").filterMap givenName?).Nodup ∧
    nameSteps (.list ((raws "echo-2").map .dict)) = .list [
      .dict [(.str "tool", .str "echo"), (.str "name", .str "echo-2")],
      .dict [(.str "tool", .str "echo"), (.str "name", .str "echo-2")]] ∧
    readSteps (.list ((raws "echo-2").map .dict)) =
      Schema.refuse "Value error, Duplicate step names: echo-2" := by
  refine ⟨fun es mem => ⟨.echo, ?_⟩, List.nodup_singleton (Value.str "echo-2"), rfl, ?_⟩
  · rcases List.mem_cons.mp mem with rfl | mem
    · rfl
    · obtain rfl := List.mem_singleton.mp mem
      rfl
  · let steps : List Step :=
      [{ name := "echo-2", body := .echo {} }, { name := "echo-2", body := .echo {} }]
    have read : Schema.listOf readStep (nameSteps (.list ((raws "echo-2").map .dict))) = .ok steps := by
      rfl
    have message : "Value error, Duplicate step names: " ++
        Text.join ", " (repeated (steps.map (·.name))) =
          "Value error, Duplicate step names: echo-2" := by decide +kernel
    rw [readSteps_eq read, if_neg (by decide), message]

end Neighbours

end Scaffold
