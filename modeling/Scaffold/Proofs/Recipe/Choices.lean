import Scaffold.Proofs.Recipe.Values

/-!
# Choices among listed values

A variable may list the values that it allows.  Whatever is put forward for a choice becomes a text before
it is looked up in the list, where numbers and booleans stand as such.  So what is listed is allowed
exactly if the text that is printed for it is listed as well, which is so of any text.
-/

namespace Scaffold

namespace Value

/-- A text is among values exactly if it is one of them. -/
theorem isAmong_str_iff {t : String} {vs : List Value} :
    (Value.str t).isAmong vs = true ↔ .str t ∈ vs := by
  have same_iff (w : Value) : same w (.str t) = true ↔ w = .str t := by
    cases w <;> simp [same, number?]
  simp only [isAmong, List.any_eq_true, same_iff, exists_eq_right]

end Value

namespace Variable

variable {d : Variable} {name : String} {v raw : Value} {p : Problem} {vs : List Value}

/-- A variable without its list of allowed values. -/
def unlisted (d : Variable) : Variable := { d with values := none }

/-- A value is not among those that are listed, or it breaks another constraint. -/
theorem breaks_iff (listed : d.values = some vs) : d.Breaks name v p ↔
    (v.isAmong vs = false ∧ p = .notAllowed name vs v) ∨ d.unlisted.Breaks name v p := by
  constructor
  · intro breaks
    cases breaks with
    | allowed values not =>
      rw [listed] at values
      cases values
      exact .inl ⟨not, rfl⟩
    | low measure bound beyond => exact .inr (.low measure bound beyond)
    | high measure bound beyond => exact .inr (.high measure bound beyond)
    | pattern text pattern compiled not => exact .inr (.pattern text pattern compiled not)
  · rintro (⟨not, rfl⟩ | breaks)
    · exact .allowed listed not
    · cases breaks with
      | allowed values _ => cases values
      | low measure bound beyond => exact .low measure bound beyond
      | high measure bound beyond => exact .high measure bound beyond
      | pattern text pattern compiled not => exact .pattern text pattern compiled not

/-- Whether the text of a value is among the listed values and breaks no other constraint. -/
def Admits (d : Variable) (name : String) (vs : List Value) (v : Value) : Prop :=
  .str v.plain ∈ vs ∧ ∀ p, ¬ d.unlisted.Breaks name (.str v.plain) p

/-- A choice is found fault with unless its text is admitted. -/
theorem complaints_choice (kind : d.kind = .enum) (listed : d.values = some vs) (compiles : d.Compiles) :
    d.complaints name raw = [] ↔ d.Admits name vs raw := by
  have text : d.complaints name raw = d.violations name (.str raw.plain) := by
    unfold complaints coerce
    rw [kind]
  rw [text, List.eq_nil_iff_forall_not_mem]
  -- no problem is reported exactly if neither the list nor another constraint reports one
  simp only [mem_violations compiles, breaks_iff listed, not_or, forall_and]
  rw [Admits, ← Value.isAmong_str_iff]
  refine and_congr_left fun _ => ⟨fun never => ?_, fun among p not => ?_⟩
  · cases among : (Value.str raw.plain).isAmong vs with
    | true => rfl
    | false => exact absurd ⟨among, rfl⟩ (never _)
  · rw [among] at not
    cases not.1

end Variable

namespace Recipe

open Run

variable {s : Sources} {name : String} {d : Variable} {e : Value} {vs : List Value}

/-- A value is put forward for a variable: a caller gives it as it is, or as the text that is printed for
it, or it is the default where there is nothing else. -/
inductive PutForward (s : Sources) (name : String) (d : Variable) (e : Value) : Prop
  | given : s.provided.get? name = some e → PutForward s name d e
  | printed : s.provided.get? name = some (.str e.plain) → PutForward s name d e
  | default : s.provided.get? name = none → s.answers.get? name = none → s.useDefaults = true →
      d.default = e → PutForward s name d e

/-- What is put forward is the first value, as it is or as a text. -/
theorem PutForward.knownValue? (h : PutForward s name d e) (there : e ≠ .null) :
    ∃ raw origin, knownValue? s name d = some (raw, origin) ∧ raw ≠ .null ∧ raw.plain = e.plain := by
  cases h with
  | given provided => exact ⟨e, .provided, knownValue?_provided provided there, there, rfl⟩
  | printed provided =>
    have text : Value.str e.plain ≠ .null := nofun
    exact ⟨.str e.plain, .provided, knownValue?_provided provided text, text, rfl⟩
  | default unprovided unanswered use default =>
    refine ⟨e, .default, ?_, there, rfl⟩
    unfold Recipe.knownValue?
    rw [unprovided, unanswered, use, default]
    cases e with
    | null => exact absurd rfl there
    | _ => rfl

/-- What is listed for a choice may be put forward for it exactly if the text that is printed for it is
listed and breaks no other constraint, and so a text may unless it breaks another constraint. -/
theorem choice_resolves_iff (kind : d.kind = .enum) (listed : d.values = some vs) (compiles : d.Compiles)
    (mem : e ∈ vs) (there : e ≠ .null) (forward : PutForward s name d e) :
    (∀ replies, found s replies (name, d) = [] ↔ d.Admits name vs e) ∧
    (∀ (r : Recipe) (st : Session), r.declared = [(name, d)] →
      ((∃ b, ((r.resolveVariables s).on st).1 = .ok b) ↔ d.Admits name vs e)) ∧
    ∀ t, e = .str t → (d.Admits name vs e ↔ ∀ p, ¬ d.unlisted.Breaks name (.str t) p) := by
  obtain ⟨raw, origin, known, nonnull, plain⟩ := forward.knownValue? there
  have first (reply : Option Value) : first? s reply name d = some (raw, origin) :=
    first?_of_known known nonnull
  have admitted : d.complaints name raw = [] ↔ d.Admits name vs e := by
    rw [Variable.complaints_choice kind listed compiles, Variable.Admits, Variable.Admits, plain]
  have clear (replies : Record Value) : found s replies (name, d) = [] ↔ d.Admits name vs e := by
    unfold found
    rw [first]
    exact admitted
  refine ⟨clear, fun r st declared => ?_, ?_⟩
  · rw [resolves_alone_iff declared compiles known nonnull, admitted]
  · rintro t rfl
    exact and_iff_right mem

namespace Choices

/-- A choice of two numbers, one of them by default. -/
def port : Variable := { kind := .enum, values := some [.int 80, .int 443], default := .int 443 }

/-- A recipe with that choice. -/
def serving : Recipe := { name := "serving", declared := [("port", port)] }

/-- A listed number is refused as the number, as the text that is printed for it, and by default. -/
theorem port_refused : port.kind = .enum ∧ port.values = some [.int 80, .int 443] ∧
    ((serving.resolveVariables { provided := [("port", .int 80)] }).on {}).1 = .error
      (.recipeInvalid ["Variable 'port' must be one of: 80, 443 (got '80')"] (some "serving")) ∧
    ((serving.resolveVariables { provided := [("port", .str "80")] }).on {}).1 = .error
      (.recipeInvalid ["Variable 'port' must be one of: 80, 443 (got '80')"] (some "serving")) ∧
    ((serving.resolveVariables { provided := [] }).on {}).1 = .error
      (.recipeInvalid ["Variable 'port' must be one of: 80, 443 (got '443')"] (some "serving")) :=
  ⟨rfl, rfl, rfl, rfl, rfl⟩

/-- A choice of two texts of some length. -/
def shape : Variable :=
  { kind := .enum, values := some [.str "page", .str "site"], min := some (.ofInt 2) }

/-- A recipe with that choice. -/
def shaped : Recipe := { name := "shaped", declared := [("shape", shape)] }

/-- A listed text is chosen. -/
theorem shape_chosen :
    ∃ b, ((shaped.resolveVariables { provided := [("shape", .str "site")] }).on {}).1 = .ok b := by
  have forward : PutForward { provided := [("shape", .str "site")] } "shape" shape (.str "site") :=
    .given rfl
  have compiles : shape.Compiles := by decide
  have listed : Value.str "site" ∈ [Value.str "page", .str "site"] := by simp
  obtain ⟨-, resolves, text⟩ := choice_resolves_iff rfl rfl compiles listed nofun forward
  refine (resolves shaped {} rfl).mpr ((text "site" rfl).mpr fun p breaks => ?_)
  have none : shape.unlisted.violations "shape" (.str "site") = [] := by rfl
  rw [← Variable.mem_violations (by decide), none] at breaks
  cases breaks

end Choices

end Recipe

end Scaffold
