import Scaffold.Proofs.Answers.Texts
import Scaffold.Proofs.Json.Floats
import Scaffold.Proofs.Tree.Replacement
import Scaffold.Recipe.Variables

/-!
# Structured answers

An answer that is a list, a mapping or a boolean is handed on as its JSON text, and a variable of the kind
reads this text as the answer itself: the brackets at its ends keep a list from being taken for items between
commas, and the words for booleans are among those that a variable knows.  So nothing of the answer is lost on
the way, from a file in either format or from the reply of a model.
-/

namespace Scaffold

open AnswersFile Json

/-! ## Back from the text -/

/-- A value of the kind of a variable that is no text: a list, a mapping or a boolean. -/
inductive Structured (d : Variable) : Value → Prop
  | list (items : List Value) : d.kind = .array → Structured d (.list items)
  | mapping (r : Record Value) : d.kind = .object → Structured d (.ofRecord r)
  | boolean (b : Bool) : d.kind = .boolean → Structured d (.bool b)

theorem exists_writeItems_concat (items : List Value) : ∃ inside, writeItems items = inside ++ [']'] := by
  induction items with
  | nil => exact ⟨[], rfl⟩
  | cons v vs ih =>
    cases vs with
    | nil => exact ⟨Json.write v, rfl⟩
    | cons w vs =>
      obtain ⟨inside, same⟩ := ih
      exact ⟨Json.write v ++ ',' :: ' ' :: inside, by simp [writeItems, same]⟩

/-- Brackets are no blanks. -/
theorem trim_text_list (items : List Value) : Text.trim (Json.text (.list items)) = Json.text (.list items) := by
  obtain ⟨inside, same⟩ := exists_writeItems_concat items
  have trimmed := Text.trimChars_between (c := '[') (d := ']') (by decide) (by decide) inside
  rw [Json.text, Text.trim, String.toList_ofList, Json.write, same, trimmed]

/-- The text that a structured answer is handed on as is converted to the answer. -/
theorem Structured.coerce_asText {d : Variable} {v : Value} (h : Structured d v)
    (expressible : Expressible Binary64.Canonical v) (name : String) :
    d.coerce name (.str (asText v)) = .ok v := by
  cases h with
  | list items kind =>
    have starts : Text.startsWith "[" (Json.text (.list items)) = true := by
      rw [Json.text, Json.write, Text.startsWith, String.toList_ofList, String.toList_ofList]
      rfl
    rw [Variable.coerce, kind]
    show Variable.toArray name (.str (Json.text (.list items))) = _
    unfold Variable.toArray
    dsimp only [Value.plain]
    rw [trim_text_list, if_pos starts, read_text expressible]
  | mapping r kind =>
    rw [Variable.coerce, kind]
    show Variable.toObject name (.str (Json.text (.ofRecord r))) = _
    unfold Variable.toObject
    dsimp only [Value.plain]
    rw [read_text expressible]
    rfl
  | boolean b kind =>
    rw [Variable.coerce, kind]
    cases b
    · rfl
    · rfl

/-! ## On from JSON -/

namespace AnswersFile

/-- The JSON of a file, whose path is seen from a directory. -/
def FileHolds (t : Tree) (path here : Path) (data : Value) : Prop :=
  ∃ c text, t.read (here.join path) = .ok c ∧ c.decode = .ok text ∧
    Json.read (Text.withLineFeeds text) = .ok data

/-- A wrapper around answers, with a version that is known and other fields that can be read. -/
structure IsWrapper (r a : Record Value) : Prop where
  answers : r.get? "answers" = some (.ofRecord a)
  version : ∃ v n, r.get? "version" = some v ∧ isKnownVersion v = true ∧ Schema.whole v = .ok n
  recipe : ∀ v, r.get? "recipe" = some v → ∃ x, Schema.optional Schema.text v = .ok x
  created : ∀ v, r.get? "created_at" = some v → ∃ x, Schema.optional readMoment v = .ok x
  known : ∀ k ∈ r.keys, k ∈ ["version", "recipe", "created_at", "answers"]

variable {r a : Record Value}

/-- The fields of a wrapper once its answers are texts, which are put where the answers were. -/
def texted (r a : Record Value) : Entries := (Entries.ofRecord r).put (.str "answers") (mappingOf (textsOf a))

theorem field?_texted (name : String) :
    (texted r a).field? name = if "answers" = name then some (mappingOf (textsOf a)) else r.get? name := by
  rw [texted, Entries.put_ofRecord, Entries.field?_ofRecord, Record.get?_put]

/-- No field of a wrapper is unknown. -/
theorem noOthers_texted_iff (answers : "answers" ∈ r.keys) :
    (∃ u, Schema.noOthers (texted r a) ["version", "recipe", "created_at", "answers"] = .ok u) ↔
      ∀ k ∈ r.keys, k ∈ ["version", "recipe", "created_at", "answers"] := by
  have same : texted r a = Entries.ofRecord (r.put "answers" (mappingOf (textsOf a))) := Entries.put_ofRecord _ _ _
  have names (k : String) : k ∈ (r.put "answers" (mappingOf (textsOf a))).keys ↔ k ∈ r.keys := by
    rw [Record.mem_keys_put]
    exact or_iff_left_of_imp fun new => new ▸ answers
  rw [same]
  unfold Schema.noOthers
  constructor
  · rintro ⟨_, read⟩ k mem
    obtain ⟨_, all, -⟩ := Schema.Checked.map_eq_ok read
    obtain ⟨e, there, rfl⟩ := List.mem_map.mp ((names k).mpr mem)
    obtain ⟨_, here⟩ := Schema.Checked.all_eq_ok all (.str e.1, e.2) (List.mem_map_of_mem there)
    dsimp only at here
    split at here
    next known => exact List.contains_iff_mem.mp known
    next => cases here
  · intro known
    refine ⟨(), ?_⟩
    rw [Schema.Checked.all_map fun _ => ()]
    · rfl
    · intro e mem
      obtain ⟨e, there, rfl⟩ := List.mem_map.mp mem
      exact if_pos (List.contains_iff_mem.mpr (known e.1 ((names e.1).mp (List.mem_map_of_mem there))))

/-- A field can be read if it is not there, or if its reader reads it. -/
theorem field_ok_iff {α : Type} (es : Entries) (name : String) (reader : Schema.Reader α) (default : α) :
    (∃ x, Schema.field es name reader default = .ok x) ↔
      ∀ v, es.field? name = some v → ∃ x, reader v = .ok x := by
  unfold Schema.field
  split
  next none => exact iff_of_true ⟨default, rfl⟩ (by rw [none]; exact nofun)
  next v there =>
    rw [there]
    constructor
    · rintro ⟨x, read⟩ w ⟨⟩
      cases inner : reader v <;> rw [inner] at read <;> cases read
      exact ⟨x, rfl⟩
    · intro h
      obtain ⟨x, read⟩ := h v rfl
      exact ⟨x, by rw [read]; rfl⟩

/-- A wrapper is read exactly if its version is known and its other fields can be read. -/
theorem ofEntries_texted_iff (answers : "answers" ∈ r.keys) (distinct : a.keys.Nodup) :
    (∃ f, ofEntries (texted r a) = .ok f) ↔
      (∀ v, r.get? "version" = some v → ∃ n, Schema.whole v = .ok n) ∧
      (∀ v, r.get? "recipe" = some v → ∃ x, Schema.optional Schema.text v = .ok x) ∧
      (∀ v, r.get? "created_at" = some v → ∃ x, Schema.optional readMoment v = .ok x) ∧
      ∀ k ∈ r.keys, k ∈ ["version", "recipe", "created_at", "answers"] := by
  have version := field_ok_iff (texted r a) "version" Schema.whole 1
  have recipe := field_ok_iff (texted r a) "recipe" (Schema.optional Schema.text) none
  have created := field_ok_iff (texted r a) "created_at" (Schema.optional readMoment) none
  have texts : Schema.field (texted r a) "answers" (Schema.recordOf Schema.text) [] = .ok (textsOf a) := by
    rw [Schema.field, field?_texted, if_pos rfl]
    show (Schema.recordOf Schema.text _).under "answers" = _
    rw [recordOf_texts (by rwa [keys_textsOf])]
    rfl
  rw [field?_texted, if_neg (by decide)] at version recipe created
  rw [← version, ← recipe, ← created, ← noOthers_texted_iff (a := a) answers]
  unfold ofEntries
  rw [texts]
  constructor
  · rintro ⟨f, read⟩
    obtain ⟨_, _, kept, others, -⟩ := Schema.Checked.apply_eq_ok read
    obtain ⟨_, made, -⟩ := Schema.Checked.map_eq_ok kept
    obtain ⟨_, _, made, -, -⟩ := Schema.Checked.apply_eq_ok made
    obtain ⟨_, _, made, created, -⟩ := Schema.Checked.apply_eq_ok made
    obtain ⟨_, _, made, recipe, -⟩ := Schema.Checked.apply_eq_ok made
    obtain ⟨_, version, -⟩ := Schema.Checked.map_eq_ok made
    exact ⟨⟨_, version⟩, ⟨_, recipe⟩, ⟨_, created⟩, _, others⟩
  · rintro ⟨⟨_, version⟩, ⟨_, recipe⟩, ⟨_, created⟩, _, others⟩
    rw [version, recipe, created, others]
    exact ⟨_, rfl⟩

/-- Of the mappings with a version and a mapping of answers, just the wrappers are read. -/
theorem parse_wrapper_iff {v : Value} (answers : r.get? "answers" = some (.ofRecord a))
    (version : r.get? "version" = some v) (distinct : a.keys.Nodup) (source : String) :
    (∃ f, parse (.ofRecord r) source = .ok f) ↔ IsWrapper r a := by
  have mem : "answers" ∈ r.keys := by
    rw [← Record.has_eq_true_iff, Record.has, answers]
    rfl
  have texts := ofEntries_texted_iff (a := a) mem distinct
  have unknown (v : Value) (h : isKnownVersion v = false) (version : r.get? "version" = some v) :
      ¬IsWrapper r a := by
    intro wrapper
    obtain ⟨w, _, there, known, -⟩ := wrapper.version
    rw [version] at there
    cases there
    rw [h] at known
    cases known
  unfold parse Value.ofRecord
  dsimp only
  rw [Entries.field?_ofRecord, Entries.field?_ofRecord, answers, version]
  dsimp only [Value.ofRecord]
  rw [answersOf_ofRecord distinct]
  have unread {e : Failure} : ¬∃ f : AnswersFile, Except.error e = .ok f := by
    rintro ⟨_, read⟩
    cases read
  split
  next => exact iff_of_false unread (unknown _ rfl version)
  next => exact iff_of_false unread (unknown _ rfl version)
  next =>
    by_cases known : isKnownVersion v = true
    · rw [if_neg (by rw [known]; decide)]
      show (∃ f, Except.mapError _ (ofEntries (texted r a)).toExcept = .ok f) ↔ _
      constructor
      · rintro ⟨f, read⟩
        obtain ⟨whole, recipe, created, others⟩ := texts.mp ⟨f, Schema.Checked.toExcept_eq_ok read⟩
        obtain ⟨n, whole⟩ := whole v version
        exact ⟨answers, ⟨v, n, version, known, whole⟩, recipe, created, others⟩
      · intro wrapper
        have whole : ∀ w, r.get? "version" = some w → ∃ n, Schema.whole w = .ok n := by
          obtain ⟨w, n, there, -, whole⟩ := wrapper.version
          intro w' there'
          rw [there] at there'
          cases there'
          exact ⟨n, whole⟩
        obtain ⟨f, read⟩ := texts.mpr ⟨whole, wrapper.recipe, wrapper.created, wrapper.known⟩
        exact ⟨f, by rw [read]; rfl⟩
    · rw [if_pos (by simpa using known)]
      exact iff_of_false unread (unknown v (by simpa using known) version)

/-- What is read of a wrapper, or of a mapping that is none, is loaded from a file that holds it. -/
theorem FileHolds.load {t : Tree} {path here : Path} {data : Value} (file : FileHolds t path here data)
    (holds : Holds data a) (distinct : a.keys.Nodup) (parses : ∃ f, parse data path.toString = .ok f) :
    AnswersFile.load t path here = .ok (textsOf a) := by
  obtain ⟨_, _, there, decoded, read⟩ := file
  obtain ⟨f, parsed⟩ := parses
  rw [load_eq_ok there decoded read parsed, answers_parse holds distinct parsed]

/-- Whatever a file holds is expressible. -/
theorem FileHolds.expressible {t : Tree} {path here : Path} {data : Value} (file : FileHolds t path here data) :
    Expressible Binary64.Canonical data := by
  obtain ⟨_, _, -, -, read⟩ := file
  exact expressible_of_read read

end AnswersFile

/-! ## There and back -/

/-- The ways of answers in JSON to texts: in a file, with a wrapper around them or without one, and in the
reply of a model that answers every key it was asked for. -/
inductive Handed (a : Record Value) (k : String) : Except Failure (Record String) → Prop
  | versioned {t : Tree} {path here : Path} {r : Record Value} : FileHolds t path here (.ofRecord r) →
      IsWrapper r a → Handed a k (AnswersFile.load t path here)
  | bare {t : Tree} {path here : Path} : FileHolds t path here (.ofRecord a) →
      (∀ es v, a.get? "answers" = some (.dict es) → a.get? "version" ≠ some v) →
      Handed a k (AnswersFile.load t path here)
  | replied {reply : String} {keys : List String} : ReplyObject reply a → k ∈ keys →
      (∀ l ∈ keys, l ∈ a.keys) → Handed a k (batchAnswers reply keys)

variable {a : Record Value} {k : String} {v : Value} {result : Except Failure (Record String)}

/-- Each way brings the answer as its text, and none loses a part of what was read. -/
theorem Handed.text (handed : Handed a k result) (there : a.get? k = some v) :
    Expressible Binary64.Canonical v ∧ ∃ answers, result = .ok answers ∧ answers.get? k = some (asText v) := by
  have text : (textsOf a).get? k = some (asText v) := by rw [get?_textsOf, there, Option.map_some]
  cases handed with
  | @versioned _ _ _ r file wrapper =>
    have inner := file.expressible.get? wrapper.answers
    obtain ⟨v', _, version, -, -⟩ := wrapper.version
    have distinct := inner.record.1
    refine ⟨inner.get? there, _, ?_, text⟩
    exact file.load (.wrapped wrapper.answers version) distinct
      ((parse_wrapper_iff wrapper.answers version distinct _).mpr wrapper)
  | bare file plain =>
    have outer := file.expressible
    exact ⟨outer.get? there, _, file.load (.bare plain) outer.record.1 ⟨_, parse_bare plain _⟩, text⟩
  | @replied reply keys object mem all =>
    obtain ⟨_, -, read⟩ := id object
    refine ⟨(expressible_of_read read).get? there, textsOf (a.restrict keys.contains), ?_, ?_⟩
    · rw [object.batchAnswers_eq, if_pos]
      refine List.filter_eq_nil_iff.mpr fun l asked => ?_
      rw [(a.has_eq_true_iff l).mpr (all l asked)]
      decide
    · rw [get?_textsOf, Record.restrict, Record.get?_filter (List.contains_iff_mem.mpr mem), there,
        Option.map_some]

/-- A list, a mapping or a boolean that answers a key comes back from the text it is loaded as, exactly as it
was, once it is converted for a variable of its kind. -/
theorem structured_answer_kept {d : Variable} (handed : Handed a k result) (there : a.get? k = some v)
    (structured : Structured d v) (name : String) :
    ∃ answers text, result = .ok answers ∧ answers.get? k = some text ∧
      d.coerce name (.str text) = .ok v := by
  obtain ⟨expressible, answers, loaded, text⟩ := handed.text there
  exact ⟨answers, _, loaded, text, structured.coerce_asText expressible name⟩

namespace Tagged

/-- Tags with commas and brackets in them. -/
def tags : Value := .list [.str "a, \"b\"]", .null, .list [.bool true, .int (-7)]]

/-- A file with the tags in a wrapper. -/
def wrapper : Record Value :=
  [("version", .int 1), ("created_at", .null), ("answers", .ofRecord [("tags", tags)])]

/-- Where it is. -/
def path : Path := Path.ofString "answers.json"

/-- The working directory. -/
def here : Path := Path.ofString "/"

theorem expressible_tags : Expressible Binary64.Canonical tags := by
  have inner : ∀ v ∈ [Value.bool true, .int (-7)], Expressible Binary64.Canonical v := by
    simp only [List.forall_mem_cons]
    exact ⟨.bool true, .int (-7), nofun⟩
  refine .list ?_
  simp only [List.forall_mem_cons]
  exact ⟨.str _, .null, .list inner, nofun⟩

theorem expressible_wrapper : Expressible Binary64.Canonical (.ofRecord wrapper) := by
  have answers : ∀ e ∈ [("tags", tags)], Expressible Binary64.Canonical e.2 := by
    simp only [List.forall_mem_cons]
    exact ⟨expressible_tags, nofun⟩
  refine .dict (by decide) ?_
  simp only [wrapper, List.forall_mem_cons]
  exact ⟨.int 1, .null, .dict (by decide) answers, nofun⟩

theorem written : ∃ t, Tree.bare.replace (here.join path) (Json.text (.ofRecord wrapper)) = (.ok (), t) := by
  have first : (Tree.bare.replace (here.join path) "").1 = .ok () := by decide +kernel
  exact Tree.replace_any (Prod.ext first rfl) _

/-- The tags come back from the file. -/
theorem tags_kept : ∃ t answers text, AnswersFile.load t path here = .ok answers ∧
    answers.get? "tags" = some text ∧ Variable.coerce "tags" (.str text) { kind := .array } = .ok tags := by
  obtain ⟨t, written⟩ := written
  have unchanged : Text.withLineFeeds (Json.text (.ofRecord wrapper)) = Json.text (.ofRecord wrapper) := by
    decide +kernel
  have file : FileHolds t path here (.ofRecord wrapper) :=
    ⟨_, _, Tree.read_of_replace written, rfl, by rw [unchanged]; exact read_text expressible_wrapper⟩
  have isWrapper : IsWrapper wrapper [("tags", tags)] := by
    refine ⟨rfl, ⟨.int 1, 1, rfl, by decide +kernel, rfl⟩, ?_, ?_, by decide⟩
    · exact nofun
    · rintro _ ⟨⟩
      exact ⟨none, rfl⟩
  have list : Structured { kind := .array } tags := .list _ rfl
  have there : Record.get? [("tags", tags)] "tags" = some tags := rfl
  obtain ⟨answers, text, loaded, found, kept⟩ :=
    structured_answer_kept (.versioned file isWrapper) there list "tags"
  exact ⟨t, answers, text, loaded, found, kept⟩

end Tagged

end Scaffold
