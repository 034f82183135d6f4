import Scaffold.Generation
import Scaffold.Proofs.Answers.Handoff
import Scaffold.Proofs.Recipe.Names

/-!
# Answers that are no texts

An answer in JSON that is no text is handed on as its JSON text, whether it stands in the reply of a model
or in a file, and there in a bare mapping or in a wrapper.
-/

namespace Scaffold

open AnswersFile

/-! ## Replies -/

/-- The JSON object that is read from a reply. -/
def ReplyObject (reply : String) (r : Record Value) : Prop :=
  ∃ inside, braced? (Check.unfence (Text.trim reply)).toList = some inside ∧
    Json.read (String.ofList inside) = .ok (Value.ofRecord r)

/-- A reply with an object answers every key, or it is refused for the keys that the object does not have. -/
theorem ReplyObject.batchAnswers_eq {reply : String} {r : Record Value} (object : ReplyObject reply r)
    (keys : List String) : batchAnswers reply keys =
      if keys.filter (fun k => !r.has k) = [] then .ok (textsOf (r.restrict keys.contains))
      else .error (.transport
        ("Response is missing keys: " ++ Text.join ", " (keys.filter fun k => !r.has k))) := by
  obtain ⟨inside, braced, read⟩ := object
  unfold batchAnswers
  simp only [bind, Except.bind, pure, Except.pure, throw, throwThe, MonadExceptOf.throw]
  rw [braced]
  dsimp only
  rw [read]
  simp only [Except.mapError, Value.ofRecord, Entries.toRecord_ofRecord]
  cases keys.filter fun k => !r.has k with
  | nil => rfl
  | cons k missing => rfl

/-- What a reply answers to a key is what its object has there, as a text. -/
theorem get?_batchAnswers {reply k : String} {r : Record Value} {keys : List String}
    {answers : Record String} (object : ReplyObject reply r)
    (h : batchAnswers reply keys = .ok answers) (mem : k ∈ keys) :
    answers.get? k = (r.get? k).map asText := by
  have asked : keys.contains k = true := List.contains_iff_mem.mpr mem
  rw [object.batchAnswers_eq] at h
  split at h
  · cases h
    rw [get?_textsOf, Record.restrict, Record.get?_filter asked]
  · cases h

/-! ## Files -/

namespace AnswersFile

variable {data : Value} {a : Record Value}

/-- The answers in the JSON of a file: a bare mapping, or the mapping inside a wrapper. -/
inductive Holds : Value → Record Value → Prop
  | bare {r : Record Value} : (∀ es v, r.get? "answers" = some (.dict es) → r.get? "version" ≠ some v) →
      Holds (.ofRecord r) r
  | wrapped {r a : Record Value} {v : Value} : r.get? "answers" = some (.ofRecord a) →
      r.get? "version" = some v → Holds (.ofRecord r) a

/-- A field that is there is what its reader gives. -/
theorem field_there {α : Type} {es : Entries} {name : String} {v : Value} {r : Schema.Reader α}
    {default x : α} (there : es.field? name = some v) (h : Schema.field es name r default = .ok x) :
    r v = .ok x := by
  unfold Schema.field at h
  rw [there] at h
  dsimp only at h
  cases read : r v <;> rw [read] at h <;> cases h
  rfl

/-- The answers of a wrapper are those that are read from its mapping. -/
theorem ofEntries_answers {es : Entries} {v : Value} {f : AnswersFile} (there : es.field? "answers" = some v)
    (h : ofEntries es = .ok f) : Schema.recordOf Schema.text v = .ok f.answers := by
  -- a field at a time, the last one outermost
  obtain ⟨keep, _, kept, -, rfl⟩ := Schema.Checked.apply_eq_ok h
  obtain ⟨f, made, rfl⟩ := Schema.Checked.map_eq_ok kept
  obtain ⟨f₃, answers, made₃, read, rfl⟩ := Schema.Checked.apply_eq_ok made
  obtain ⟨f₂, created, made₂, -, rfl⟩ := Schema.Checked.apply_eq_ok made₃
  obtain ⟨f₁, recipe, made₁, -, rfl⟩ := Schema.Checked.apply_eq_ok made₂
  obtain ⟨version, -, rfl⟩ := Schema.Checked.map_eq_ok made₁
  exact field_there there read

/-- What is read from the JSON of a file are its answers, as texts. -/
theorem answers_parse {source : String} {f : AnswersFile} (holds : Holds data a) (distinct : a.keys.Nodup)
    (h : parse data source = .ok f) : f.answers = textsOf a := by
  cases holds with
  | bare plain =>
    rw [parse_bare plain] at h
    cases h
    exact answersOf_ofRecord distinct
  | @wrapped r a v inner version =>
    unfold parse Value.ofRecord at h
    dsimp only at h
    rw [Entries.field?_ofRecord, Entries.field?_ofRecord, inner, version] at h
    dsimp only [Value.ofRecord] at h
    rw [answersOf_ofRecord distinct] at h
    -- the texts are put where the answers were
    have texts {f : AnswersFile} (read : ofEntries ((Entries.ofRecord r).put (.str "answers")
        (mappingOf (textsOf a))) = .ok f) : f.answers = textsOf a := by
      rw [Entries.put_ofRecord] at read
      have put : (Entries.ofRecord (r.put "answers" (mappingOf (textsOf a)))).field? "answers" =
          some (mappingOf (textsOf a)) := by
        rw [Entries.field?_ofRecord, Record.get?_put, if_pos rfl]
      have answers := ofEntries_answers put read
      rw [recordOf_texts (by rwa [keys_textsOf])] at answers
      exact (Schema.Checked.ok.inj answers).symm
    split at h
    · cases h
    · cases h
    · split at h
      · cases h
      · exact texts (Schema.Checked.toExcept_eq_ok h)

/-- A file, whose path is seen from a directory, has answers in JSON. -/
def InFile (t : Tree) (path here : Path) (a : Record Value) : Prop :=
  ∃ c text data, t.read (here.join path) = .ok c ∧ c.decode = .ok text ∧
    Json.read (Text.withLineFeeds text) = .ok data ∧ Holds data a

/-- What is loaded from a file are its answers, as texts. -/
theorem InFile.load {t : Tree} {path here : Path} {answers : Record String} (h : InFile t path here a)
    (distinct : a.keys.Nodup) (loaded : load t path here = .ok answers) : answers = textsOf a := by
  obtain ⟨c, text, data, there, decoded, read, holds⟩ := h
  unfold AnswersFile.load at loaded
  rw [there] at loaded
  simp only [Except.mapError, bind, Except.bind, decoded, read] at loaded
  cases parsed : parse data path.toString with
  | error e =>
    rw [parsed] at loaded
    cases loaded
  | ok f =>
    rw [parsed] at loaded
    cases loaded
    exact answers_parse holds distinct parsed

end AnswersFile

end Scaffold
