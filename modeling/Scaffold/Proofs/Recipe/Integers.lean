import Scaffold.Proofs.Answers.Texts
import Scaffold.Proofs.Path.Names
import Scaffold.Proofs.Recipe.Values

/-!
# Integers as values of variables

An integer gets to a variable as its decimal numeral: a text of the caller, an answer, or an answer in
JSON, where it is kept whatever its size is.  The numeral is then read as a floating point number.  So a
variable comes to the integer exactly if it is one of those that this format represents, and to another
number otherwise.
-/

namespace Scaffold

open Run AnswersFile

theorem AnswersFile.asText_int (n : Int) : asText (.int n) = intText n :=
  String.ofList_toList

namespace Variable

variable {d : Variable} {name : String}

/-- A numeral has no point. -/
theorem contains_point_intText (n : Int) : Text.contains "." (intText n) = false := by
  rw [Bool.eq_false_iff]
  intro occurs
  have mem : '.' ∈ (intText n).toList := Text.occurs_singleton.mp occurs
  exact absurd (Numeral.mem_intText mem) (by decide)

/-- The numeral of an integer is converted to the integer exactly if the format represents it. -/
theorem coerce_intText (number : d.kind = .number) (name : String) (n : Int) :
    ∃ v, d.coerce name (.str (intText n)) = .ok v ∧ (v = .int n ↔ Binary64.Represents n) := by
  have read : Numeral.read? (Value.plain (.str (intText n))) = some (.ofInt n) := Numeral.read?_intText n
  have point : Text.contains "." (Value.plain (.str (intText n))) = false := contains_point_intText n
  unfold coerce
  rw [number]
  dsimp only
  unfold toNumber
  dsimp only
  rw [read, ← Binary64.toInt?_ofInt_iff]
  dsimp only
  -- the nearest number is an integer, perhaps another one, or it is infinite
  cases (Binary64.ofInt n).toInt? with
  | none => exact ⟨_, rfl, iff_of_false nofun nofun⟩
  | some m =>
    dsimp only
    rw [point, if_neg Bool.false_ne_true]
    exact ⟨_, rfl, by rw [Value.int.injEq, Option.some.injEq]⟩

/-- A variable without constraints. -/
structure Unconstrained (d : Variable) : Prop where
  values : d.values = none
  min : d.min = none
  max : d.max = none
  pattern : d.pattern = none

theorem Unconstrained.compiles (h : d.Unconstrained) : d.Compiles := by
  unfold Compiles
  rw [h.pattern]
  exact nofun

theorem Unconstrained.violations (h : d.Unconstrained) (v : Value) : d.violations name v = [] := by
  refine List.eq_nil_iff_forall_not_mem.mpr fun p mem => ?_
  cases (mem_violations h.compiles).mp mem with
  | allowed values _ => simp [h.values] at values
  | low _ min _ => simp [h.min] at min
  | high _ max _ => simp [h.max] at max
  | pattern _ pattern _ _ => simp [h.pattern, filled?] at pattern

end Variable

namespace Recipe

variable {s : Sources} {name : String} {d : Variable} {n : Int}

/-- The ways of an integer to a variable. -/
inductive Arrives (s : Sources) (name : String) (n : Int) : Prop
  /-- A caller gives the numeral. -/
  | given : s.provided.get? name = some (.str (intText n)) → Arrives s name n
  /-- The numeral is an answer. -/
  | answered : s.provided.get? name = none → s.answers.get? name = some (intText n) → Arrives s name n
  /-- The integer is an answer in the reply of a model. -/
  | replied {reply : String} {keys : List String} {r : Record Value} : s.provided.get? name = none →
      ReplyObject reply r → r.get? name = some (.int n) → name ∈ keys →
      batchAnswers reply keys = .ok s.answers → Arrives s name n
  /-- The integer is an answer in a file. -/
  | loaded {t : Tree} {path here : Path} {a : Record Value} : s.provided.get? name = none →
      InFile t path here a → a.keys.Nodup → a.get? name = some (.int n) →
      AnswersFile.load t path here = .ok s.answers → Arrives s name n

/-- However it arrives, it is there as its numeral. -/
theorem Arrives.knownValue? (h : Arrives s name n) :
    ∃ origin, knownValue? s name d = some (.str (intText n), origin) := by
  have answered (unprovided : s.provided.get? name = none)
      (answer : s.answers.get? name = some (intText n)) :
      Recipe.knownValue? s name d = some (.str (intText n), .answer) := by
    unfold Recipe.knownValue?
    rw [unprovided, answer]
  cases h with
  | given provided => exact ⟨.provided, knownValue?_provided provided nofun⟩
  | answered unprovided answer => exact ⟨.answer, answered unprovided answer⟩
  | replied unprovided object there mem reply =>
    refine ⟨.answer, answered unprovided ?_⟩
    rw [get?_batchAnswers object reply mem, there, Option.map_some, asText_int]
  | loaded unprovided file distinct there loaded =>
    refine ⟨.answer, answered unprovided ?_⟩
    rw [file.load distinct loaded, get?_textsOf, there, Option.map_some, asText_int]

/-- An integer that arrives at a variable for numbers is what the variable comes to exactly if the format
of floating point numbers represents it.  It is refused for no other reason than a constraint, and in JSON
it is read as what it is. -/
theorem integer_exact_iff (number : d.kind = .number) (arrives : Arrives s name n) :
    (∀ (r : Recipe) (st t : Session) (b : Bindings), (Record.keys r.declared).Nodup →
      (name, d) ∈ r.declared → (r.resolveVariables s).on st = (.ok b, t) →
      (b.merged.get? name = some (.int n) ↔ Binary64.Represents n)) ∧
    (∀ (r : Recipe) (st : Session), r.declared = [(name, d)] → d.Unconstrained →
      ∃ b, ((r.resolveVariables s).on st).1 = .ok b) ∧
    Json.Reads (intText n).toList (.int n) := by
  obtain ⟨origin, known⟩ := arrives.knownValue? (d := d)
  obtain ⟨v, coerced, exact⟩ := Variable.coerce_intText number name n
  have first (reply : Option Value) : first? s reply name d = some (.str (intText n), origin) :=
    first?_of_known known nofun
  refine ⟨fun r st t b distinct mem resolved => ?_, fun r st declared free => ?_, Json.reads_int n⟩
  · -- what is bound is what the numeral is converted to
    obtain ⟨replies, none, rfl⟩ := resolveVariables_eq_ok distinct resolved
    obtain ⟨w, coerced', -, merged⟩ := get?_settled_some distinct none mem (first _)
    rw [coerced] at coerced'
    cases coerced'
    rw [merged, Option.some.injEq, exact]
  · refine (resolves_alone_iff declared free.compiles known nofun st).mpr ?_
    unfold Variable.complaints
    rw [coerced]
    exact free.violations v

namespace Counted

/-- A number without constraints. -/
def count : Variable := { kind := .number }

/-- A recipe with that number. -/
def recipe : Recipe := { name := "counted", declared := [("count", count)] }

/-- An odd integer of 54 binary digits comes to its even neighbour. -/
theorem odd_rounded :
    ∃ b, ((recipe.resolveVariables { provided := [("count", .str "9007199254740993")] }).on {}).1 =
      .ok b ∧ b.merged.get? "count" = some (.int 9007199254740992) :=
  ⟨_, rfl, rfl⟩

/-- The reply of a model. -/
def reply : String := "Here you are: \x7b\"count\": -12\x7d"

theorem object : ReplyObject reply [("count", .int (-12))] := by
  have member : Json.MemberText Json.Reads _ ("count", .int (-12)) :=
    .written (Json.quotedText_string "count") (Json.reads_int (-12))
  have mapping := Json.MappingText.filled Json.gap_nil (.last member Json.gap_nil)
  exact ⟨_, by decide +kernel, mapping.reads.alone⟩

/-- What a model replies comes to itself. -/
theorem reply_exact :
    ∃ answers b, batchAnswers reply ["count"] = .ok answers ∧
      ((recipe.resolveVariables { provided := [], answers }).on {}).1 = .ok b ∧
      b.merged.get? "count" = some (.int (-12)) := by
  have answered : batchAnswers reply ["count"] = .ok [("count", "-12")] := by decide +kernel
  have arrives : Arrives { provided := [], answers := [("count", "-12")] } "count" (-12) :=
    .replied rfl object rfl (List.mem_singleton_self "count") answered
  obtain ⟨exact, resolves, -⟩ := integer_exact_iff (d := count) rfl arrives
  obtain ⟨b, resolved⟩ := resolves recipe {} rfl ⟨rfl, rfl, rfl, rfl⟩
  refine ⟨_, b, answered, resolved, ?_⟩
  refine (exact recipe {} _ b (by decide) (List.mem_singleton_self _) (Prod.ext resolved rfl)).mpr ?_
  exact ⟨12, 0, by decide, by decide, by decide⟩

end Counted

end Recipe

end Scaffold
