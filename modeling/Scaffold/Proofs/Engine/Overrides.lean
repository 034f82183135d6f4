import Scaffold.Proofs.Engine.Delivery
import Scaffold.Proofs.Engine.Shape
import Scaffold.Proofs.Template.Placeholders

/-!
# Placeholders in overrides

The texts that a step overrides variables with are templates like its fields, but they are rendered with
less: with the defaults and the values of the caller alone.  The fields see also what earlier steps have
set, and the answers.

A placeholder for a variable that the step does not override therefore has the same text in both exactly
where nothing stands above the value of the caller, or what stands there has this text too.
-/

namespace Scaffold

open Run Template

/-- What stands above the values of the caller under a name: an answer, or else what was set. -/
def above? (produced : Record Value) (answers : Record String) (k : String) : Option Value :=
  ((answers.get? k).map .str).or (produced.get? k)

/-- What stands above a name, if anything does, has this text. -/
def TextAbove (produced : Record Value) (answers : Record String) (name text : String) : Prop :=
  ∀ v, above? produced answers (root name) = some v → textOf? (walk v (path name)) = .ok text

namespace Step

variable {s : Step} {b : Bindings} {here produced visible : Record Value} {answers : Record String}

/-- An override keeps its name, and a text is rendered. -/
theorem localVariables_forall₂ (h : s.localVariables b = .ok here) :
    List.Forall₂ (fun o l => o.1 = l.1 ∧ ∀ text, o.2 = .str text →
      ∃ y, Template.render text b.merged = .ok y ∧ l.2 = .str y) s.overrides here := by
  refine (mapM_eq_ok.mp h).imp ?_
  rintro ⟨k, v⟩ l mapped
  dsimp only at mapped
  split at mapped
  next text =>
    rcases rendered : Template.render text b.merged with f | y
    · rw [rendered] at mapped
      cases mapped
    · rw [rendered] at mapped
      cases mapped
      exact ⟨rfl, fun _ same => ⟨y, by cases same; exact rendered, rfl⟩⟩
  next other =>
    cases mapped
    exact ⟨rfl, fun text same => absurd same (other text)⟩

theorem keys_localVariables (h : s.localVariables b = .ok here) : here.keys = s.overrides.keys := by
  have names : List.Forall₂ (· = ·) (s.overrides.map (·.1)) (here.map (·.1)) := by
    rw [List.forall₂_map_left_iff, List.forall₂_map_right_iff]
    exact (localVariables_forall₂ h).imp fun _ _ entry => entry.1
  rw [List.forall₂_eq_eq_eq] at names
  exact names.symm

/-- What the text of an override becomes. -/
theorem mem_localVariables (h : s.localVariables b = .ok here) {key text : String}
    (mem : (key, .str text) ∈ s.overrides) :
    ∃ y, Template.render text b.merged = .ok y ∧ (key, .str y) ∈ here := by
  obtain ⟨l, within, name, value⟩ := exists_of_forall₂ (localVariables_forall₂ h) mem
  obtain ⟨y, rendered, same⟩ := value text rfl
  obtain rfl : l = (key, .str y) := Prod.ext name.symm same
  exact ⟨y, rendered, within⟩

/-- A variable that a step does not override comes from above, or else from the caller or the defaults. -/
theorem get?_values_free (h : s.values b produced answers = .ok visible) {k : String}
    (free : s.overrides.has k = false) :
    visible.get? k = (above? produced answers k).or (b.merged.get? k) := by
  obtain ⟨here, rendered, layers⟩ := Engine.get?_layers h
  have lacks : here.get? k = none := by
    rw [Record.get?_eq_none_iff, keys_localVariables rendered, ← Record.has_eq_true_iff, free]
    exact Bool.false_ne_true
  rw [layers, lacks, above?, Bindings.get?_merged, Option.or_assoc]
  rfl

/-- A name has the text that it has for overrides exactly where what stands above it, if anything does,
has this text. -/
theorem textOf?_lookup_iff (h : s.values b produced answers = .ok visible) {name text : String}
    (free : s.overrides.has (root name) = false) (below : textOf? (lookup b.merged name) = .ok text) :
    textOf? (lookup visible name) = .ok text ↔ TextAbove produced answers name text := by
  unfold TextAbove
  rw [lookup_eq, get?_values_free h free]
  rcases above? produced answers (root name) with _ | v
  · rw [Option.none_or, ← lookup_eq]
    simp [below]
  · simp

end Step

namespace Engine

variable {b : Bindings} {produced visible : Record Value} {answers : Record String}

/-- A text among the overrides of a step is rendered with the defaults and the caller's values.  A
placeholder in it, for a variable that the step does not override, has the text that the fields of the
step have for this name exactly where what stands above the values of the caller, if anything does, has it.
Where this is so for all its placeholders, the fields have the same for the whole text. -/
theorem override_agrees_iff {s : Step} (sees : s.values b produced answers = .ok visible)
    {key text : String} (mem : (key, .str text) ∈ s.overrides) (c : StepContext) (st : Session) :
    ∃ here y, s.localVariables b = .ok here ∧ (key, .str y) ∈ here ∧
      Template.render text b.merged = .ok y ∧
      (∀ x, .place x [] ∈ pieces text.toList → s.overrides.has (root (String.ofList x)) = false →
        ∃ part : String, (Piece.place x []).eval b.merged = .ok part.toList ∧
          ((c.render (String.ofList (inBraces x))).on (st.begun s visible) =
              (.ok part, st.begun s visible) ↔
            TextAbove produced answers (String.ofList x) part)) ∧
      ((∀ x fs, .place x fs ∈ pieces text.toList →
          s.overrides.has (root (String.ofList x)) = false ∧
            ∀ part, textOf? (lookup b.merged (String.ofList x)) = .ok part →
              TextAbove produced answers (String.ofList x) part) →
        (c.render text).on (st.begun s visible) = (.ok y, st.begun s visible)) := by
  obtain ⟨here, rendered, -⟩ := get?_layers sees
  obtain ⟨y, value, within⟩ := s.mem_localVariables rendered mem
  -- each placeholder of the override has a text, as the whole has one
  have below : ∀ x fs, .place x fs ∈ pieces text.toList →
      ∃ part, textOf? (lookup b.merged (String.ofList x)) = .ok part := by
    intro x fs hx
    obtain ⟨part, evaluated⟩ := eval_of_render value hx
    exact text_of_eval_place evaluated
  refine ⟨here, y, rendered, within, value, fun x hx free => ?_, fun agree => ?_⟩
  · obtain ⟨part, own⟩ := below x [] hx
    refine ⟨part, by rw [eval_place, own]; rfl, ?_⟩
    rw [c.on_render, Session.begun_visible, render_inBraces (isName_of_mem_pieces hx),
      ← s.textOf?_lookup_iff sees free own]
    constructor
    · intro field
      rcases seen : textOf? (lookup visible (String.ofList x)) with f | part'
      · rw [seen] at field
        cases field
      · rw [seen] at field
        cases field
        rfl
    · intro seen
      rw [seen]
      rfl
  · have same : Template.render text visible = Template.render text b.merged := by
      refine render_congr fun x fs hx => ?_
      obtain ⟨part, own⟩ := below x fs hx
      obtain ⟨free, above⟩ := agree x fs hx
      rw [own]
      exact (s.textOf?_lookup_iff sees free own).mpr (above part own)
    rw [c.on_render, Session.begun_visible, same, value]
    rfl

end Engine

/-! ## A topic that was picked -/

namespace Titled

/-- An action that picks a topic. -/
def pick : Action where
  name := "pick"
  handler _ _ := do
    setVariable "topic" (.str "Pumps")
    return {}

/-- A text with a placeholder for the topic. -/
def about : String := "About \x7b\x7b topic \x7d\x7d"

/-- A step that writes what it overrides, and the same text as it is. -/
def writing : Step where
  name := "write"
  overrides := [("line", .str about)]
  body := .add { target := "a.txt", body := some ("\x7b\x7b line \x7d\x7d|" ++ about) }

def recipe : Recipe where
  name := "titled"
  steps := [{ name := "pick", body := .action { action := "pick" } }, writing]

def engine : Engine where
  project := .ofString "/project"
  tools := .standard (fun _ _ => .error .noProgram) (Actions.register [] pick)

/-- What is in the file when the recipe was executed. -/
def written (b : Bindings) : Option Content :=
  (((engine.execute recipe b).on {}).2.tree.read (.ofString "/project/a.txt")).toOption

def topic : List Char := "topic".toList

def picked : Record Value := [("topic", .str "Pumps")]

theorem topic_mem_pieces : .place topic [] ∈ pieces about.toList := by decide +kernel

theorem eq_topic {x : List Char} {fs : List (List Char)} (h : .place x fs ∈ pieces about.toList) :
    x = topic := by
  have only : ∀ p ∈ pieces about.toList, (match p with
      | .place y _ => decide (y = topic)
      | .char _ => true) = true := by decide +kernel
  exact of_decide_eq_true (only _ h)

theorem topic_free : writing.overrides.has (root (String.ofList topic)) = false := by decide +kernel

/-- The override does not have the topic that the step before has picked, and the body next to it has. -/
theorem override_lacks_topic : written {} = some (.text "About |About Pumps") ∧
    ¬ ∀ (s : Step) (b : Bindings) (produced visible : Record Value) (answers : Record String),
      s.values b produced answers = .ok visible → ∀ key text, (key, .str text) ∈ s.overrides →
        ∀ x, .place x [] ∈ pieces text.toList → s.overrides.has (root (String.ofList x)) = false →
          (Piece.place x []).eval b.merged = (Piece.place x []).eval visible := by
  refine ⟨by decide +kernel, fun agree => ?_⟩
  rcases sees : writing.values {} picked [] with f | visible
  · have made : (writing.values {} picked []).toOption.isSome = true := by decide +kernel
    rw [sees] at made
    cases made
  · have same := agree writing {} picked visible [] sees "line" about List.mem_cons_self topic
      topic_mem_pieces topic_free
    have differ : ((writing.values {} picked []).toOption.map fun visible =>
        ((Piece.place topic []).eval visible).toOption) ≠
          some ((Piece.place topic []).eval (Bindings.merged {})).toOption := by decide +kernel
    rw [sees, same] at differ
    exact differ rfl

/-- A topic that the caller has given is in both. -/
theorem override_has_topic : written { values := picked } = some (.text "About Pumps|About Pumps") ∧
    ∃ visible, writing.values { values := picked } [] [] = .ok visible ∧
      ∀ (c : StepContext) (st : Session), (c.render about).on (st.begun writing visible) =
        (.ok "About Pumps", st.begun writing visible) := by
  refine ⟨by decide +kernel, ?_⟩
  rcases sees : writing.values { values := picked } [] [] with f | visible
  · have made : (writing.values { values := picked } [] []).toOption.isSome = true := by decide +kernel
    rw [sees] at made
    cases made
  · refine ⟨visible, rfl, fun c st => ?_⟩
    have line : ("line", Value.str about) ∈ writing.overrides := List.mem_cons_self
    obtain ⟨here, y, -, -, value, -, whole⟩ := Engine.override_agrees_iff sees line c st
    have text : (Template.render about (Bindings.merged { values := picked })).toOption =
        some "About Pumps" := by decide +kernel
    rw [value] at text
    obtain rfl : y = "About Pumps" := Option.some.inj text
    refine whole fun x fs hx => ?_
    obtain rfl := eq_topic hx
    -- nothing stands above the caller
    exact ⟨topic_free, fun _ _ v above => nomatch above⟩

end Titled

end Scaffold
