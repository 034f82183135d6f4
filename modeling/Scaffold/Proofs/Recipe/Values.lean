import Mathlib.Data.List.Nodup
import Scaffold.Proofs.Recipe.Judgement

/-!
# What the variables of a recipe come to

A resolution comes to one of two ends.  Either the recipe is refused, with all that is wrong with any of
its variables.  Or nothing is wrong, and each variable that there is a value for is bound to it, of its
kind and within its constraints.
-/

namespace Scaffold

open Run

namespace Recipe

open Variable (Problem)

variable {s : Sources} {name : String} {d : Variable} {replies : Record Value}
  {declared : Record Variable} {r : Recipe}

/-! ## What is bound -/

/-- What is bound when the variables are judged in turn. -/
def boundAll (s : Sources) (replies : Record Value) (declared : Record Variable) (b : Bindings) :
    Bindings :=
  declared.foldl (fun b e => bound e.1 e.2 b (first? s (replies.get? e.1) e.1 e.2)) b

theorem boundAll_other {k : String} (h : k ∉ Record.keys declared) (b : Bindings) :
    Agree k (boundAll s replies declared b) b := by
  induction declared generalizing b with
  | nil => exact ⟨rfl, rfl⟩
  | cons e declared ih =>
    obtain ⟨other, rest⟩ := not_or.mp (mt List.mem_cons.mpr h)
    have later := ih rest (bound e.1 e.2 b (first? s (replies.get? e.1) e.1 e.2))
    have here : Agree k (bound e.1 e.2 b (first? s (replies.get? e.1) e.1 e.2)) b :=
      bound_agree (Ne.symm other)
    exact later.trans here

/-- Each variable is bound by its own first value. -/
theorem boundAll_own (distinct : (Record.keys declared).Nodup) (mem : (name, d) ∈ declared)
    (b : Bindings) : Agree name (boundAll s replies declared b)
      (bound name d b (first? s (replies.get? name) name d)) := by
  induction declared generalizing b with
  | nil => cases mem
  | cons e declared ih =>
    obtain ⟨new, distinct⟩ := List.nodup_cons.mp distinct
    rcases List.mem_cons.mp mem with rfl | mem
    · exact boundAll_other new _
    · -- what is bound here is of another name, and is left alone by what is bound for this one
      have apart : e.1 ≠ name := fun same => new (List.mem_map.mpr ⟨_, mem, same.symm⟩)
      have later := ih distinct mem (bound e.1 e.2 b (first? s (replies.get? e.1) e.1 e.2))
      have before : Agree name (bound e.1 e.2 b (first? s (replies.get? e.1) e.1 e.2)) b :=
        bound_agree apart
      exact later.trans before.bound

/-- Bindings are what the variables of a recipe come to. -/
structure Settles (r : Recipe) (s : Sources) (replies : Record Value) (b : Bindings) : Prop where
  /-- A variable is bound to the first value that there is for it, converted; this is of its kind and
  breaks no constraint. -/
  bound : ∀ name d, (name, d) ∈ r.declared → ∀ raw origin,
    first? s (replies.get? name) name d = some (raw, origin) →
      ∃ v, d.coerce name raw = .ok v ∧ b.merged.get? name = some v ∧
        (b.defaults.has name = true ↔ origin = .default) ∧
        d.kind.Fits v ∧ ∀ p, ¬ d.Breaks name v p
  /-- A variable that there is no value for is not bound. -/
  unbound : ∀ name d, (name, d) ∈ r.declared → first? s (replies.get? name) name d = none →
    b.merged.get? name = none
  /-- A required variable is bound or else missing. -/
  required : ∀ name d, (name, d) ∈ r.declared → d.required = true →
    (b.merged.has name = true ↔ name ∉ b.missing)
  /-- Nothing else is missing, and nothing at all unless the model is asked for it. -/
  missing : ∀ name ∈ b.missing, s.ask = some .model ∧
    ∃ d, (name, d) ∈ r.declared ∧ d.required = true
  /-- No name has both a default and a value. -/
  apart : ∀ name, ¬ (b.defaults.has name = true ∧ b.values.has name = true)
  /-- What the caller gives for no variable is there as it was given. -/
  others : ∀ name, r.declared.has name = false → b.merged.get? name = s.provided.get? name ∧
    b.values.get? name = s.provided.get? name

theorem get?_undeclared (r : Recipe) (provided : Record Value) (name : String) :
    (r.undeclared provided).get? name = if r.declared.has name then none else provided.get? name := by
  unfold undeclared Record.restrict
  cases declared : r.declared.has name with
  | true =>
    refine (Record.get?_eq_none_iff _ _).mpr fun mem => ?_
    obtain ⟨e, within, rfl⟩ := List.mem_map.mp mem
    have free := (List.mem_filter.mp within).2
    simp [declared] at free
  | false =>
    rw [if_neg Bool.false_ne_true]
    have free : (!r.declared.has name) = true := by rw [declared]; rfl
    exact Record.get?_filter (p := fun name => !r.declared.has name) free provided

/-- What the variables of a recipe are bound to. -/
def bindings (r : Recipe) (s : Sources) (replies : Record Value) : Bindings :=
  boundAll s replies r.declared { values := r.undeclared s.provided }

/-- What a recipe without problems comes to. -/
def settled (r : Recipe) (s : Sources) (replies : Record Value) : Bindings :=
  { bindings r s replies with
    missing := if s.ask == some .model then lacking s replies r.declared else [] }

/-- Either there are problems and they are all reported, or there are none and the variables are bound. -/
theorem judge_eq (r : Recipe) (s : Sources) (replies : Record Value) : r.judge s replies =
    if (problems r s replies).isEmpty then
      .ok (settled r s replies)
    else .error (.recipeInvalid ((problems r s replies).map (·.message)) (some r.name)) := by
  unfold judge
  rw [judgeAll_eq]
  simp only [Resolving.conclude, List.nil_append]
  rfl

theorem has_of_mem (mem : (name, d) ∈ r.declared) : r.declared.has name = true :=
  (Record.has_eq_true_iff _ _).mpr (List.mem_map_of_mem mem)

theorem get?_bindings_undeclared (h : r.declared.has name = false) :
    (bindings r s replies).defaults.get? name = none ∧
      (bindings r s replies).values.get? name = s.provided.get? name := by
  have free : name ∉ Record.keys r.declared := by
    rw [← Record.has_eq_true_iff, h]
    exact Bool.false_ne_true
  have same : Agree name (bindings r s replies) _ := boundAll_other free _
  rw [same.defaults, same.values, get?_undeclared, h]
  exact ⟨rfl, rfl⟩

section Declared

variable (distinct : (Record.keys r.declared).Nodup) (mem : (name, d) ∈ r.declared)

include distinct mem

theorem get?_bindings_none (h : first? s (replies.get? name) name d = none) :
    (bindings r s replies).defaults.get? name = none ∧
      (bindings r s replies).values.get? name = none := by
  have same : Agree name (bindings r s replies) _ := boundAll_own distinct mem _
  rw [same.defaults, same.values, h]
  exact ⟨rfl, by rw [Recipe.bound, get?_undeclared, has_of_mem mem]; rfl⟩

theorem get?_bindings_some {raw v : Value} {origin : Origin}
    (h : first? s (replies.get? name) name d = some (raw, origin)) (coerced : d.coerce name raw = .ok v) :
    (bindings r s replies).defaults.get? name = (if origin = .default then some v else none) ∧
      (bindings r s replies).values.get? name = if origin = .default then none else some v := by
  have same : Agree name (bindings r s replies) _ := boundAll_own distinct mem _
  rw [same.defaults, same.values, h, bound_some (first?_eq_some h), coerced]
  have free : (r.undeclared s.provided).get? name = none := by
    rw [get?_undeclared, has_of_mem mem]
    rfl
  cases origin <;> simp [bindAs, Record.get?_put, Record.get?_nil, free]

end Declared

theorem problems_eq_nil (h : problems r s replies = []) :
    (∀ e ∈ r.declared, found s replies e = []) ∧
      (s.ask = some .model ∨ lacking s replies r.declared = []) := by
  obtain ⟨all, missing⟩ := List.append_eq_nil_iff.mp h
  refine ⟨List.flatMap_eq_nil_iff.mp all, ?_⟩
  by_cases ask : s.ask = some .model
  · exact .inl ask
  · refine .inr ?_
    cases lacks : lacking s replies r.declared with
    | nil => rfl
    | cons => simp [lacks, ask] at missing

theorem mem_lacking : name ∈ lacking s replies declared ↔ ∃ d, (name, d) ∈ declared ∧
    d.required = true ∧ first? s (replies.get? name) name d = none := by
  unfold lacking Record.keys
  rw [List.mem_map]
  constructor
  · rintro ⟨⟨name, d⟩, mem, rfl⟩
    obtain ⟨mem, lacks⟩ := List.mem_filter.mp mem
    rw [Bool.and_eq_true, Option.isNone_iff_eq_none] at lacks
    exact ⟨d, mem, lacks⟩
  · rintro ⟨d, mem, lacks⟩
    refine ⟨(name, d), List.mem_filter.mpr ⟨mem, ?_⟩, rfl⟩
    rwa [Bool.and_eq_true, Option.isNone_iff_eq_none]

/-- Where there are no problems, each variable that there is a value for is bound to it. -/
theorem get?_bindings (distinct : (Record.keys r.declared).Nodup) (none : problems r s replies = [])
    (mem : (name, d) ∈ r.declared) {raw : Value} {origin : Origin}
    (h : first? s (replies.get? name) name d = some (raw, origin)) :
    ∃ v, d.coerce name raw = .ok v ∧ d.violations name v = [] ∧
      (bindings r s replies).defaults.get? name = (if origin = .default then some v else .none) ∧
      (bindings r s replies).values.get? name = if origin = .default then .none else some v := by
  have clear := (problems_eq_nil none).1 (name, d) mem
  unfold found at clear
  rw [h] at clear
  obtain ⟨v, coerced, fine⟩ := Variable.complaints_eq_nil clear
  exact ⟨v, coerced, fine, get?_bindings_some distinct mem h coerced⟩

theorem get?_settled_none (distinct : (Record.keys r.declared).Nodup) (mem : (name, d) ∈ r.declared)
    (h : first? s (replies.get? name) name d = none) :
    (settled r s replies).merged.get? name = none := by
  obtain ⟨defaults, values⟩ := get?_bindings_none distinct mem h
  rw [Bindings.get?_merged, settled, defaults, values]
  rfl

theorem get?_settled_some (distinct : (Record.keys r.declared).Nodup) (none : problems r s replies = [])
    (mem : (name, d) ∈ r.declared) {raw : Value} {origin : Origin}
    (h : first? s (replies.get? name) name d = some (raw, origin)) :
    ∃ v, d.coerce name raw = .ok v ∧ d.violations name v = [] ∧
      (settled r s replies).merged.get? name = some v := by
  obtain ⟨v, coerced, fine, defaults, values⟩ := get?_bindings distinct none mem h
  refine ⟨v, coerced, fine, ?_⟩
  rw [Bindings.get?_merged, settled, defaults, values]
  split <;> rfl

/-- Where there are no problems, the bindings are what the variables come to. -/
theorem settles_settled (distinct : (Record.keys r.declared).Nodup)
    (compiles : ∀ e ∈ r.declared, e.2.Compiles) (none : problems r s replies = []) :
    Settles r s replies (settled r s replies) where
  bound := by
    intro name d mem raw origin first
    obtain ⟨v, coerced, fine, merged⟩ := get?_settled_some distinct none mem first
    refine ⟨v, coerced, merged, ?_, Variable.coerce_fits coerced, fun p breaks => ?_⟩
    · obtain ⟨_, -, -, defaults, -⟩ := get?_bindings distinct none mem first
      rw [settled, Record.has, defaults]
      split <;> simp [*]
    · rw [← Variable.mem_violations (compiles _ mem), fine] at breaks
      cases breaks
  unbound := fun _ _ mem first => get?_settled_none distinct mem first
  required := by
    intro name d mem required
    rw [Record.has]
    cases first : first? s (replies.get? name) name d with
    | none =>
      have lacks : name ∈ lacking s replies r.declared := mem_lacking.mpr ⟨d, mem, required, first⟩
      rw [get?_settled_none distinct mem first, settled]
      rcases (problems_eq_nil none).2 with ask | all
      · simp [ask, lacks]
      · rw [all] at lacks
        cases lacks
    | some w =>
      obtain ⟨v, -, -, merged⟩ := get?_settled_some distinct none mem first
      -- the name means this variable only, and there is a value for it
      have has : name ∉ lacking s replies r.declared := by
        intro lacks
        obtain ⟨d', mem', -, absent⟩ := mem_lacking.mp lacks
        cases List.inj_on_of_nodup_map distinct mem mem' rfl
        rw [first] at absent
        cases absent
      rw [merged, settled]
      refine iff_of_true rfl ?_
      split
      · exact has
      · exact List.not_mem_nil
  missing := by
    intro name mem
    unfold settled at mem
    split at mem
    next ask =>
      obtain ⟨d, declared, required, -⟩ := mem_lacking.mp mem
      exact ⟨eq_of_beq ask, d, declared, required⟩
    next => cases mem
  apart := by
    rintro name ⟨default, value⟩
    simp only [Record.has, settled] at default value
    cases declared : r.declared.has name with
    | false =>
      rw [(get?_bindings_undeclared declared).1] at default
      cases default
    | true =>
      obtain ⟨⟨name, d⟩, mem, rfl⟩ := List.mem_map.mp ((Record.has_eq_true_iff _ _).mp declared)
      cases first : first? s (replies.get? name) name d with
      | none =>
        rw [(get?_bindings_none distinct mem first).1] at default
        cases default
      | some w =>
        obtain ⟨v, -, -, defaults, values⟩ := get?_bindings distinct none mem first
        rw [defaults] at default
        rw [values] at value
        -- a default is bound as such only, and so is any other value
        split at default
        next own =>
          rw [if_pos own] at value
          cases value
        next => cases default
  others := by
    intro name free
    obtain ⟨defaults, values⟩ := get?_bindings_undeclared free
    rw [Bindings.get?_merged, settled, defaults, values]
    exact ⟨Option.or_none, rfl⟩

/-- What is found to be wrong with a variable is all that is wrong with the first value there is for it,
each problem once. -/
theorem mem_found {e : String × Variable} (h : e.2.Compiles) {p : Problem} :
    p ∈ found s replies e ↔ ∃ raw origin,
      first? s (replies.get? e.1) e.1 e.2 = some (raw, origin) ∧ e.2.Faults e.1 raw p := by
  unfold found
  cases first? s (replies.get? e.1) e.1 e.2 with
  | none => simp
  | some w =>
    obtain ⟨raw, origin⟩ := w
    simp [Variable.mem_complaints h]

theorem nodup_found (s : Sources) (replies : Record Value) (e : String × Variable) :
    (found s replies e).Nodup := by
  unfold found
  split
  · exact List.nodup_nil
  · exact Variable.nodup_complaints _ _ _

/-- Where a resolution succeeds, no problem was found. -/
theorem resolveVariables_eq_ok (distinct : (Record.keys r.declared).Nodup) {b : Bindings} {st t : Session}
    (h : (r.resolveVariables s).on st = (.ok b, t)) :
    ∃ replies, problems r s replies = [] ∧ b = settled r s replies := by
  obtain same | ⟨-, t', failed⟩ := resolveVariables_on (s := s) distinct st
  · rw [same] at h
    obtain ⟨replies, s₁, -, h⟩ := on_bind_eq_ok h
    rw [on_ofExcept, judge_eq] at h
    split at h
    next none =>
      cases h
      exact ⟨replies, List.isEmpty_iff.mp none, rfl⟩
    next => cases h
  · rw [failed] at h
    cases h

/-- Where there is nobody to ask for anything, a resolution succeeds exactly if there is no problem. -/
theorem resolves_iff (distinct : (Record.keys r.declared).Nodup)
    (compiles : ∀ e ∈ r.declared, e.2.Compiles) (closed : openIn s r.declared = []) (st : Session) :
    (∃ b, ((r.resolveVariables s).on st).1 = .ok b) ↔ problems r s [] = [] := by
  obtain same | ⟨⟨e, mem, bad⟩, -⟩ := resolveVariables_on (s := s) distinct st
  · have asked : askOpen s r.declared = pure [] := by
      unfold askOpen
      rw [closed]
      cases s.prompter <;> rfl
    rw [same, asked, pure_bind, on_ofExcept, judge_eq]
    by_cases none : problems r s [] = []
    · rw [if_pos (List.isEmpty_iff.mpr none)]
      exact iff_of_true ⟨_, rfl⟩ none
    · rw [if_neg (mt List.isEmpty_iff.mp none)]
      exact iff_of_false (fun ⟨_, found⟩ => nomatch found) none
  · exact absurd (compiles e mem) bad

/-- A recipe with one variable only is resolved from a known value exactly if nothing is wrong with it. -/
theorem resolves_alone_iff {raw : Value} {origin : Origin} (declared : r.declared = [(name, d)])
    (compiles : d.Compiles) (known : knownValue? s name d = some (raw, origin)) (nonnull : raw ≠ .null)
    (st : Session) :
    (∃ b, ((r.resolveVariables s).on st).1 = .ok b) ↔ d.complaints name raw = [] := by
  have first : first? s (Record.get? [] name) name d = some (raw, origin) := first?_of_known known nonnull
  have distinct : (Record.keys r.declared).Nodup := by
    rw [declared]
    exact List.nodup_singleton _
  have all : ∀ e ∈ r.declared, e.2.Compiles := by
    rw [declared]
    exact List.forall_mem_singleton.mpr compiles
  have closed : openIn s r.declared = [] := by
    rw [declared]
    exact List.filter_cons_of_neg (by simp [isOpen, known])
  have complete : lacking s [] r.declared = [] := by
    unfold lacking
    rw [declared, List.filter_cons_of_neg (by simp [first])]
    rfl
  have own : found s [] (name, d) = d.complaints name raw := by
    unfold found
    rw [first]
  rw [resolves_iff distinct all closed st, problems, complete, declared, List.flatMap_singleton, own]
  simp

/-- To resolve the variables of a recipe is to ask a person for the open ones, where a failure of the
person goes through, and then to come to one of two ends.  Either the recipe is refused with all problems:
those of every variable in the order of declaration, and behind them one with the names of all required
variables that there is no value for, unless the model is asked for these.  Or there is no problem and all
variables are settled. -/
theorem resolveVariables_sound (distinct : (Record.keys r.declared).Nodup)
    (compiles : ∀ e ∈ r.declared, e.2.Compiles) (s : Sources) (st : Session) :
    (∀ replies, ∀ e ∈ r.declared, (found s replies e).Nodup ∧ ∀ p, p ∈ found s replies e ↔
      ∃ raw origin, first? s (replies.get? e.1) e.1 e.2 = some (raw, origin) ∧
        e.2.Faults e.1 raw p) ∧
    ((∃ f t, (askOpen s r.declared).on st = (.error f, t) ∧
        (r.resolveVariables s).on st = (.error f, t)) ∨
      ∃ replies t, (askOpen s r.declared).on st = (.ok replies, t) ∧
        (problems r s replies ≠ [] ∧ (r.resolveVariables s).on st =
            (.error (.recipeInvalid ((problems r s replies).map (·.message)) (some r.name)), t) ∨
          problems r s replies = [] ∧
            ∃ b, (r.resolveVariables s).on st = (.ok b, t) ∧ Settles r s replies b)) := by
  refine ⟨fun replies e mem => ⟨nodup_found s replies e, fun p => mem_found (compiles e mem)⟩, ?_⟩
  obtain same | ⟨⟨e, mem, bad⟩, -⟩ := resolveVariables_on (s := s) distinct st
  · rw [same]
    rcases asked : (askOpen s r.declared).on st with ⟨f | replies, t⟩
    · exact .inl ⟨f, t, rfl, on_bind_error asked _⟩
    · refine .inr ⟨replies, t, rfl, ?_⟩
      rw [on_bind_ok asked, on_ofExcept, judge_eq]
      by_cases none : problems r s replies = []
      · rw [if_pos (List.isEmpty_iff.mpr none)]
        exact .inr ⟨none, _, rfl, settles_settled distinct compiles none⟩
      · rw [if_neg (mt List.isEmpty_iff.mp none)]
        exact .inl ⟨none, rfl⟩
  · exact absurd (compiles e mem) bad

namespace Crowded

/-- A number from one to five. -/
def count : Variable := { kind := .number, min := some (.ofInt 1), max := some (.ofInt 5) }

/-- Two required variables behind two with constraints. -/
def recipe : Recipe where
  name := "crowded"
  declared := [("name", { required := true, pattern := some "[a-z]+" }), ("count", count),
    ("topic", { required := true }), ("note", { required := true })]

/-- Values that are all wrong, and nobody to ask for the others. -/
def wrong : Sources where
  provided := [("name", .str "Page"), ("count", .str "9"), ("topic", .null)]

/-- Values within the constraints and another one, where the model is asked for the others. -/
def right : Sources where
  provided := [("name", .str "page"), ("site", .int 7)]
  answers := [("count", "3")]
  ask := some .model

/-- All that is wrong is reported, and what is right is bound. -/
theorem refused_and_bound :
    ((recipe.resolveVariables wrong).on {}).1 = .error (.recipeInvalid
      ["Variable 'name' does not match pattern [a-z]+", "Variable 'count' is above the maximum 5",
        "Missing required variables: topic, note"] (some "crowded")) ∧
    ∃ b, ((recipe.resolveVariables right).on {}).1 = .ok b ∧ Settles recipe right [] b ∧
      b.merged.get? "count" = some (.int 3) ∧ b.merged.get? "site" = some (.int 7) ∧
      b.merged.has "topic" = false := by
  have distinct : (Record.keys recipe.declared).Nodup := by decide
  have compiles : ∀ e ∈ recipe.declared, e.2.Compiles := by decide +kernel
  constructor
  · have messages : (problems recipe wrong []).map (·.message) =
        ["Variable 'name' does not match pattern [a-z]+", "Variable 'count' is above the maximum 5",
          "Missing required variables: topic, note"] := by decide +kernel
    obtain ⟨f, t, asked, -⟩ | ⟨replies, t, asked, ⟨-, refused⟩ | ⟨none, -⟩⟩ :=
      (resolveVariables_sound distinct compiles wrong {}).2
    · cases asked
    · cases asked
      rw [refused, messages]
      rfl
    · cases asked
      rw [none] at messages
      cases messages
  · have messages : (problems recipe right []).map (·.message) = [] := by decide +kernel
    obtain ⟨f, t, asked, -⟩ | ⟨replies, t, asked, ⟨some, -⟩ | ⟨-, b, resolved, settles⟩⟩ :=
      (resolveVariables_sound distinct compiles right {}).2
    · cases asked
    · cases asked
      exact absurd (List.map_eq_nil_iff.mp messages) some
    · cases asked
      refine ⟨b, by rw [resolved], settles, ?_, (settles.others "site" rfl).1, ?_⟩
      · obtain ⟨v, coerced, merged, -⟩ := settles.bound "count" count (by simp [recipe]) (.str "3") .answer rfl
        cases coerced
        exact merged
      · rw [Record.has, settles.unbound "topic" { required := true } (by simp [recipe]) rfl]
        rfl

end Crowded

end Recipe

end Scaffold
