import Scaffold.Proofs.Answers.Moments
import Scaffold.Proofs.Json.Breaks
import Scaffold.Proofs.Json.Values
import Scaffold.Proofs.Tree.Replacement

/-!
# Answers handed over in a file

What is handed over arrives.  Answers that were saved are the answers that are loaded, whatever their
keys and texts are; the wrapper around them is told apart from a bare mapping by the mapping inside it,
and the texts of a bare mapping are none.  So a bare mapping arrives as well, however its texts are
spelled and whatever white space stands between its tokens.
-/

namespace Scaffold

open Json

/-! ## Bare mappings -/

/-- A bare mapping of answers in JSON, with any white space around and between its tokens and with its
texts spelled in any way. -/
def AnswersFile.IsBare (text : String) (answers : Record String) : Prop :=
  ∃ g w g', text.toList = g ++ (w ++ g') ∧ Gap g ∧ Gap g' ∧ MappingText QuotedText w answers

namespace AnswersFile

variable {answers : Record String}

/-- The answers as a mapping of texts. -/
def mappingOf (answers : Record String) : Value :=
  Value.ofRecord (answers.map fun e => (e.1, .str e.2))

theorem keys_texts (answers : Record String) :
    (Record.keys (answers.map fun e => (e.1, Value.str e.2))) = answers.keys :=
  Record.keys_map (fun e => Value.str e.2) answers

theorem IsBare.read {text : String} (h : IsBare text answers) (distinct : answers.keys.Nodup) :
    Json.read (Text.withLineFeeds text) = .ok (mappingOf answers) := by
  obtain ⟨g, w, g', chars, gap, gap', mapping⟩ := h
  exact read_withLineFeeds chars gap gap' (mapping.map fun _ _ => QuotedText.stands)
    (by rwa [keys_texts])

/-- Answers in JSON as texts. -/
def textsOf (a : Record Value) : Record String := a.map fun e => (e.1, asText e.2)

theorem keys_textsOf (a : Record Value) : (textsOf a).keys = a.keys :=
  Record.keys_map (fun e => asText e.2) a

theorem get?_textsOf (a : Record Value) (k : String) : (textsOf a).get? k = (a.get? k).map asText :=
  Record.get?_map (fun _ => asText) a k

theorem answersOf_ofRecord {a : Record Value} (distinct : a.keys.Nodup) :
    answersOf (Entries.ofRecord a) = textsOf a := by
  have texts : (Entries.ofRecord a).map (fun e => (e.1.plain, asText e.2)) = textsOf a := by
    simp only [Entries.ofRecord, List.map_map]
    rfl
  show Record.ofList ((Entries.ofRecord a).map fun e => (e.1.plain, asText e.2)) = textsOf a
  rw [texts, Record.ofList_of_nodup (by rwa [keys_textsOf])]

theorem answersOf_mapping (distinct : answers.keys.Nodup) :
    answersOf (Entries.ofRecord (answers.map fun e => (e.1, .str e.2))) = answers := by
  have texts : textsOf (answers.map fun e => (e.1, .str e.2)) = answers := by
    simp only [textsOf, List.map_map]
    exact List.map_id _
  rw [answersOf_ofRecord (by rwa [keys_texts]), texts]

/-- A mapping that is no wrapper holds the answers themselves. -/
theorem parse_bare {r : Record Value}
    (plain : ∀ es v, r.get? "answers" = some (.dict es) → r.get? "version" ≠ some v) (source : String) :
    parse (Value.ofRecord r) source = .ok { version := 0, answers := answersOf (Entries.ofRecord r) } := by
  unfold parse Value.ofRecord
  dsimp only
  rw [Entries.field?_ofRecord, Entries.field?_ofRecord]
  split
  next es v inner version => exact absurd version (plain es v inner)
  next => rfl

/-- A mapping of texts is no wrapper, whatever its keys are. -/
theorem parse_mappingOf (distinct : answers.keys.Nodup) (source : String) :
    parse (mappingOf answers) source = .ok { version := 0, answers } := by
  have text (k : String) (es : Entries) :
      Record.get? (answers.map fun e => (e.1, Value.str e.2)) k ≠ some (.dict es) := by
    rw [Record.get?_map (fun _ s => Value.str s)]
    cases answers.get? k <;> nofun
  rw [mappingOf, parse_bare fun es _ inner => absurd inner (text "answers" es), answersOf_mapping distinct]

/-- What a file loads as is what its text parses as. -/
theorem load_eq_ok {t : Tree} {path here : Path} {c : Content} {text : String} {data : Value}
    {f : AnswersFile} (there : t.read (here.join path) = .ok c) (decoded : c.decode = .ok text)
    (found : Json.read (Text.withLineFeeds text) = .ok data)
    (parsed : parse data path.toString = .ok f) : load t path here = .ok f.answers := by
  unfold load
  rw [there]
  simp only [Except.mapError, bind, Except.bind, decoded]
  rw [found]
  dsimp only
  rw [parsed]
  rfl

end AnswersFile

/-! ### Written on one line, or a line for each entry -/

namespace Json

/-- A member of a mapping of texts as the writers write it. -/
def memberOf (e : String × String) : List Char :=
  string e.1.toList ++ ':' :: ' ' :: string e.2.toList

theorem memberText_memberOf (e : String × String) : MemberText QuotedText (memberOf e) e :=
  .written (quotedText_string e.1) (quotedText_string e.2)

/-- The entries of a mapping of texts. -/
def entriesOf (es : Record String) : Entries :=
  Entries.ofRecord (es.map fun e => (e.1, .str e.2))

theorem membersText_writeEntriesAt (depth : Nat) (e : String × String) (es : Record String) :
    ∃ g w, writeEntriesAt depth (entriesOf (e :: es)) = g ++ w ∧ Gap g ∧
      ∀ g', Gap g' → MembersText QuotedText (w ++ (g' ++ ['}'])) (e :: es) := by
  induction es generalizing e with
  | nil =>
    refine ⟨newLine depth, memberOf e, ?_, gap_newLine depth, fun g' gap' => ?_⟩
    · simp [entriesOf, Entries.ofRecord, writeEntriesAt, writeAt, name, memberOf]
    · exact .last (memberText_memberOf e) gap'
  | cons e' es ih =>
    obtain ⟨g, w, more, gap, members⟩ := ih e'
    refine ⟨newLine depth, memberOf e ++ ',' :: (g ++ w), ?_, gap_newLine depth, fun g' gap' => ?_⟩
    · rw [← more]
      simp [entriesOf, Entries.ofRecord, writeEntriesAt, writeAt, name, memberOf]
    · have all := MembersText.more (memberText_memberOf e) gap_nil gap (members g' gap')
      simpa using all

end Json

namespace AnswersFile

theorem isBare_of_mapping {answers : Record String} {w : List Char} (h : MappingText QuotedText w answers) :
    IsBare (String.ofList w) answers :=
  ⟨[], w, [], by rw [String.toList_ofList, List.nil_append, List.append_nil], gap_nil, gap_nil, h⟩

/-- The JSON text of answers on one line is a bare mapping of them. -/
theorem isBare_text (answers : Record String) : IsBare (Json.text (mappingOf answers)) answers := by
  refine isBare_of_mapping ?_
  cases answers with
  | nil => exact .empty gap_nil
  | cons e es =>
    exact .filled gap_nil (membersText_writeEntries (f := .str) e es fun e' _ => quotedText_string e'.2)

/-- So is the one with a line for each answer. -/
theorem isBare_indented (answers : Record String) :
    IsBare (Json.indented (mappingOf answers)) answers := by
  refine isBare_of_mapping ?_
  cases answers with
  | nil => exact .empty gap_nil
  | cons e es =>
    obtain ⟨g, w, written, gap, members⟩ := membersText_writeEntriesAt 1 e es
    have mapping := MappingText.filled gap (members (newLine 0) (gap_newLine 0))
    rw [← List.append_assoc g, ← written, ← List.append_assoc] at mapping
    exact mapping

end AnswersFile

/-! ## Saved answers -/

namespace AnswersFile

theorem quotedText_inQuotes (s : String) : QuotedText (inQuotes s).toList s := by
  have quoted := QuotedText.mk (spells_answersEscape s.toList)
  rw [String.ofList_toList] at quoted
  rwa [inQuotes, String.toList_ofList]

/-- An entry of the answers as it is written. -/
def entryText (e : String × String) : String := inQuotes e.1 ++ ": " ++ inQuotes e.2

theorem memberText_entryText (e : String × String) : MemberText QuotedText (entryText e).toList e := by
  have member := MemberText.written (quotedText_inQuotes e.1) (quotedText_inQuotes e.2)
  simpa [entryText] using member

theorem membersText_join (e : String × String) (es : Record String) :
    MembersText QuotedText ((Text.join ",\n    " ((e :: es).map entryText)).toList ++
      (newLine 1 ++ ['}'])) (e :: es) := by
  induction es generalizing e with
  | nil => simpa [Text.join] using MembersText.last (memberText_entryText e) (gap_newLine 1)
  | cons e' es ih =>
    have more := MembersText.more (memberText_entryText e) gap_nil (gap_newLine 2) (ih e')
    have lines : (",\n    ").toList = ',' :: newLine 2 := by decide
    simpa [Text.join, String.toList_intercalate, lines, List.intercalate_cons_cons] using more

/-- The text of the answers inside the wrapper. -/
def answersText (answers : Record String) : String :=
  if answers.isEmpty then "\x7b\x7d"
  else "\x7b\n    " ++ Text.join ",\n    " (answers.map entryText) ++ "\n  \x7d"

theorem mappingText_answersText (answers : Record String) :
    MappingText QuotedText (answersText answers).toList answers := by
  unfold answersText
  cases answers with
  | nil => exact .empty gap_nil
  | cons e es =>
    have mapping := MappingText.filled (gap_newLine 2) (membersText_join e es)
    have front : ("\x7b\n    ").toList = '{' :: newLine 2 := by decide
    have back : ("\n  \x7d").toList = newLine 1 ++ ['}'] := by decide
    rw [if_neg (by simp), String.toList_append, String.toList_append, front, back]
    simpa using mapping

/-- The members of the wrapper. -/
def wrapperOf (recipe : Option String) (now : Moment) (answers : Record String) : Record Value :=
  [("version", .int 1), ("recipe", .ofText? recipe), ("created_at", .str (stamp now)),
    ("answers", mappingOf answers)]

/-- A line break and a name, as they stand in front of a member of the wrapper. -/
def lead (name : String) : List Char := newLine 1 ++ ((inQuotes name).toList ++ [':', ' '])

theorem stands_one : Stands (intText 1).toList (.int 1) :=
  survives_of_clean (reads_int 1) (by decide) ⟨'1', [], by decide, by decide⟩

theorem stands_inQuotes (s : String) : Stands (inQuotes s).toList (.str s) :=
  (quotedText_inQuotes s).stands

theorem stands_orNull (s : Option String) : Stands (orNull s).toList (.ofText? s) := by
  cases s with
  | none => exact survives_of_clean reads_null (by decide) ⟨'n', "ull".toList, by decide, by decide⟩
  | some s => exact stands_inQuotes s

theorem stands_answersText {answers : Record String} (distinct : answers.keys.Nodup) :
    Stands (answersText answers).toList (mappingOf answers) := by
  refine ((mappingText_answersText answers).survives fun _ _ h => h.survives).mono fun w mapping => ?_
  have texts : MappingText Reads w (answers.map fun e => (e.1, Value.str e.2)) :=
    mapping.map fun _ _ => QuotedText.reads
  have reads := texts.reads
  rwa [Record.ofList_of_nodup (by rwa [keys_texts])] at reads

theorem mappingText_write (recipe : Option String) (now : Moment) {answers : Record String}
    (distinct : answers.keys.Nodup) :
    MappingText Stands (write { recipe, created := some now, answers }).toList
      (wrapperOf recipe now answers) := by
  have version : MemberText Stands _ ("version", _) :=
    .written (quotedText_inQuotes "version") stands_one
  have recipe' : MemberText Stands _ ("recipe", _) :=
    .written (quotedText_inQuotes "recipe") (stands_orNull recipe)
  have created : MemberText Stands _ ("created_at", _) :=
    .written (quotedText_inQuotes "created_at") (stands_inQuotes (stamp now))
  have inner : MemberText Stands _ ("answers", _) :=
    .written (quotedText_inQuotes "answers") (stands_answersText distinct)
  have members : MembersText Stands _ (wrapperOf recipe now answers) :=
    .more version gap_nil (gap_newLine 1) (.more recipe' gap_nil (gap_newLine 1)
      (.more created gap_nil (gap_newLine 1) (.last inner (gap_newLine 0))))
  have mapping := MappingText.filled (gap_newLine 1) members
  -- the same text in the pieces that it is written in
  have first : ("\x7b\n  \"version\": ").toList = '{' :: lead "version" := by decide
  have second : (",\n  \"recipe\": ").toList = ',' :: lead "recipe" := by decide
  have third : (",\n  \"created_at\": ").toList = ',' :: lead "created_at" := by decide
  have fourth : (",\n  \"answers\": ").toList = ',' :: lead "answers" := by decide
  have last : ("\n\x7d").toList = newLine 0 ++ ['}'] := by decide
  have text : write { recipe, created := some now, answers } =
      "\x7b\n  \"version\": " ++ intText 1 ++ ",\n  \"recipe\": " ++ orNull recipe ++
        ",\n  \"created_at\": " ++ inQuotes (stamp now) ++ ",\n  \"answers\": " ++
        answersText answers ++ "\n\x7d" := rfl
  rw [text]
  simpa [first, second, third, fourth, last, lead] using mapping

/-- What was written is read as a mapping of the wrapper's members. -/
theorem read_write (recipe : Option String) (now : Moment) {answers : Record String}
    (distinct : answers.keys.Nodup) :
    Json.read (Text.withLineFeeds (write { recipe, created := some now, answers } ++ "\n")) =
      .ok (.dict (Entries.ofRecord (wrapperOf recipe now answers))) := by
  have names : (Record.keys (wrapperOf recipe now answers)).Nodup := by simp [wrapperOf, Record.keys]
  have chars : (write { recipe, created := some now, answers } ++ "\n").toList =
      [] ++ ((write { recipe, created := some now, answers }).toList ++ newLine 0) := by
    have lineFeed : ("\n" : String).toList = newLine 0 := rfl
    rw [String.toList_append, lineFeed, List.nil_append]
  exact read_withLineFeeds chars gap_nil (gap_newLine 0) (mappingText_write recipe now distinct) names

/-! ### The wrapper's schema -/

end AnswersFile

theorem Schema.Checked.all_map {α β : Type} {f : α → Schema.Checked β} (g : α → β) {as : List α}
    (h : ∀ a ∈ as, f a = .ok (g a)) : Schema.Checked.all (as.map f) = .ok (as.map g) := by
  induction as with
  | nil => rfl
  | cons a as ih =>
    obtain ⟨first, rest⟩ := List.forall_mem_cons.mp h
    rw [List.map_cons, Schema.Checked.all, first, ih rest]
    rfl

namespace AnswersFile

theorem recordOf_texts {answers : Record String} (distinct : answers.keys.Nodup) :
    Schema.recordOf Schema.text (mappingOf answers) = .ok answers := by
  unfold mappingOf Value.ofRecord Schema.recordOf
  dsimp only
  rw [Schema.Checked.all_map fun e : Key × Value => (e.1.plain, asText e.2)]
  · show Schema.Checked.ok (answersOf _) = _
    rw [answersOf_mapping distinct]
  · intro e mem
    obtain ⟨_, there, rfl⟩ := List.mem_map.mp mem
    obtain ⟨_, -, rfl⟩ := List.mem_map.mp there
    rfl

section Wrapper

variable (recipe : Option String) {now : Moment} {answers : Record String}

/-- What stands under a name of the wrapper. -/
theorem field?_wrapperOf (name : String) :
    (Entries.ofRecord (wrapperOf recipe now answers)).field? name =
      if "version" = name then some (.int 1) else if "recipe" = name then some (.ofText? recipe)
      else if "created_at" = name then some (.str (stamp now))
      else if "answers" = name then some (mappingOf answers) else none := by
  rw [Entries.field?_ofRecord, wrapperOf]
  simp only [Record.get?_cons]
  rfl

theorem noOthers_wrapperOf :
    Schema.noOthers (Entries.ofRecord (wrapperOf recipe now answers))
      ["version", "recipe", "created_at", "answers"] = .ok () := by
  unfold Schema.noOthers
  rw [Schema.Checked.all_map fun _ => ()]
  · rfl
  · intro e mem
    obtain ⟨_, there, rfl⟩ := List.mem_map.mp mem
    simp only [wrapperOf, List.mem_cons, List.not_mem_nil, or_false] at there
    rcases there with rfl | rfl | rfl | rfl <;> rfl

theorem ofEntries_wrapperOf (clock : now.IsUniversal) (distinct : answers.keys.Nodup) :
    ofEntries (Entries.ofRecord (wrapperOf recipe now answers)) =
      .ok { recipe, created := some now, answers } := by
  have recipe' : Schema.optional Schema.text (.ofText? recipe) = .ok recipe := by
    cases recipe <;> rfl
  have created : Schema.optional readMoment (.str (stamp now)) = .ok (some now) := by
    show (readMoment _).map some = _
    rw [readMoment_stamp clock]
    rfl
  unfold ofEntries Schema.field
  simp only [field?_wrapperOf]
  simp [recipe', created, recordOf_texts distinct, noOthers_wrapperOf]
  rfl

theorem parse_wrapperOf (clock : now.IsUniversal) (distinct : answers.keys.Nodup)
    (source : String) :
    parse (.dict (Entries.ofRecord (wrapperOf recipe now answers))) source =
      .ok { recipe, created := some now, answers } := by
  have inner : (Entries.ofRecord (wrapperOf recipe now answers)).field? "answers" =
      some (mappingOf answers) := by
    rw [field?_wrapperOf]
    rfl
  have version : (Entries.ofRecord (wrapperOf recipe now answers)).field? "version" =
      some (.int 1) := by
    rw [field?_wrapperOf]
    rfl
  have same : (Entries.ofRecord (wrapperOf recipe now answers)).put (.str "answers")
      (mappingOf answers) = Entries.ofRecord (wrapperOf recipe now answers) := by
    rw [Entries.put_ofRecord]
    rfl
  unfold parse
  dsimp only
  rw [inner, version]
  dsimp only [mappingOf, Value.ofRecord]
  rw [answersOf_mapping distinct, if_neg (by decide)]
  -- the answers are put where they were
  show Except.mapError _ (ofEntries (Entries.put _ _ (mappingOf answers))).toExcept = _
  rw [same, ofEntries_wrapperOf recipe clock distinct]
  rfl

end Wrapper

/-! ## Both ways -/

/-- Answers arrive as they were handed over, whatever their keys and texts are.  Where a file can be
written they are saved, for any recipe and at any time, and loaded from that file.  And they are loaded
from any file whose text is a bare mapping of them, two of which are the JSON of the mapping on one
line and the one with a line for each answer. -/
theorem load_handed_over {answers : Record String} (distinct : answers.keys.Nodup) (path here : Path) :
    (∀ (t : Tree) (recipe : Option String) (now : Moment), now.IsUniversal →
      (∃ text u, t.replace (here.join path) text = (.ok (), u)) →
      ∃ t', save t (here.join path) answers recipe now = (.ok (), t') ∧
        load t' path here = .ok answers) ∧
    (∀ (t : Tree) (c : Content) (text : String), t.read (here.join path) = .ok c →
      c.decode = .ok text → IsBare text answers → load t path here = .ok answers) ∧
    IsBare (Json.text (mappingOf answers)) answers ∧
    IsBare (Json.indented (mappingOf answers)) answers := by
  refine ⟨fun t recipe now clock writable => ?_, fun t c text there decoded bare => ?_,
    isBare_text answers, isBare_indented answers⟩
  · obtain ⟨_, _, written⟩ := writable
    obtain ⟨t', saved⟩ := Tree.replace_any written (write { recipe, created := some now, answers } ++ "\n")
    exact ⟨t', saved, load_eq_ok (Tree.read_of_replace saved) rfl (read_write recipe now distinct)
      (parse_wrapperOf recipe clock distinct _)⟩
  · exact load_eq_ok there decoded (bare.read distinct) (parse_mappingOf distinct _)

namespace WrapperLike

/-- Answers under the names of the wrapper's own members. -/
def answers : Record String :=
  [("version", "7"), ("answers", "\x7b\x7d"), ("recipe", "\"ü\" \\ \t\n"), ("", "\r\n😀")]

/-- Where they are handed over. -/
def path : Path := Path.ofString "answers.json"

/-- The working directory. -/
def here : Path := Path.ofString "/"

/-- When they are handed over. -/
def now : Moment := .time 2024 2 29 23 59 7 120000 (some 0)

theorem writable : (Tree.bare.replace (here.join path) "").1 = .ok () := by decide +kernel

theorem isUniversal_now : now.IsUniversal := by
  refine .intro ?_ ?_ ?_ ?_ ?_ ?_ ?_ ?_ ?_ ?_ <;> decide

/-- They are loaded from where they were saved, and from where a bare mapping of them was written. -/
theorem arrive :
    (∃ t, save Tree.bare (here.join path) answers (some "site/model") now = (.ok (), t) ∧
      load t path here = .ok answers) ∧
    ∃ t, Tree.bare.replace (here.join path) (Json.indented (mappingOf answers)) = (.ok (), t) ∧
      load t path here = .ok answers := by
  have writable : ∃ text u, Tree.bare.replace (here.join path) text = (.ok (), u) :=
    ⟨"", _, Prod.ext writable rfl⟩
  obtain ⟨saved, bare, -, indented⟩ :=
    load_handed_over (show answers.keys.Nodup by decide) path here
  refine ⟨saved Tree.bare (some "site/model") now isUniversal_now writable, ?_⟩
  obtain ⟨_, _, written⟩ := writable
  obtain ⟨t, written⟩ := Tree.replace_any written (Json.indented (mappingOf answers))
  exact ⟨t, written, bare t _ _ (Tree.read_of_replace written) rfl indented⟩

end WrapperLike

end AnswersFile

end Scaffold
