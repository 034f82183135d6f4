import Scaffold.Proofs.Failing
import Scaffold.Proofs.Generation.Breakdowns
import Scaffold.Proofs.Json.Floats

/-!
# What replies of providers come to

The reply of a provider is walked through part by part.  A part that is missing has a default, but one of
another kind than the provider documents ends the walk in a failure that is none of the transport, or is
handed on as it is.  So a call comes to a text and two counts, or to a failure of the transport, exactly
where each reply below 400 is JSON of the shape of its provider.
-/

namespace Scaffold

namespace Reply

/-- A text. -/
def IsText (v : Value) : Prop := ∃ s, v = .str s

/-- An integer, where a boolean counts as one or zero. -/
def IsCount (v : Value) : Prop := ∃ n, integer? v = some n

/-- A reply that says a text and two counts. -/
structure IsSound (r : Reply) : Prop where
  text : IsText r.text
  input : IsCount r.input
  output : IsCount r.output

end Reply

namespace Endpoint

open Reply

/-- What a call may come to: a sound reply, or a failure of the transport. -/
def Sound : Except Failure Reply → Prop
  | .ok r => r.IsSound
  | .error e => e.IsTransport

/-! ## Shapes -/

/-- An object whose entries of some names, as far as they are there, are as they should be. -/
def Fits (fields : List (String × (Value → Prop))) (v : Value) : Prop :=
  ∃ es, v = .dict es ∧ ∀ f ∈ fields, ∀ w, Entries.field? es f.1 = some w → f.2 w

/-- A list that begins with an item as it should be. -/
def FirstFits (p : Value → Prop) (v : Value) : Prop := ∃ c rest, v = .list (c :: rest) ∧ p c

/-- A block: an object that holds a text if its type says so. -/
def IsBlock (v : Value) : Prop :=
  ∃ es, v = .dict es ∧ (Entries.field? es "type" = some (.str "text") →
    ∀ w, Entries.field? es "text" = some w → IsText w)

/-- Content in blocks; an empty text and an empty object are without blocks too. -/
def IsContent (v : Value) : Prop :=
  v = .str "" ∨ v = .dict [] ∨ ∃ blocks, v = .list blocks ∧ ∀ b ∈ blocks, IsBlock b

/-- A text, or anything that counts as false. -/
abbrev OptionalText (v : Value) : Prop := v.truthy = true → IsText v

/-- The shape of the data of a reply. -/
def Shape : Provider → Value → Prop
  | .anthropic => Fits [("content", IsContent),
      ("usage", Fits [("input_tokens", IsCount), ("output_tokens", IsCount)])]
  | .openai | .compatible => Fits
      [("choices", FirstFits (Fits [("message", Fits [("content", OptionalText)])])),
        ("usage", Fits [("prompt_tokens", IsCount), ("completion_tokens", IsCount)])]
  | .ollama => Fits [("message", Fits [("content", IsText)]), ("prompt_eval_count", IsCount),
      ("eval_count", IsCount)]

/-- A reply whose body is JSON of a shape. -/
def IsOfShape (p : Provider) (r : WebReply) : Prop := ∃ data, r.data = .ok data ∧ Shape p data

/-! ## Entries -/

/-- A walk comes to something as it should be. -/
def Yields {α : Type} (p : α → Prop) (r : Except Failure α) : Prop := ∃ a, r = .ok a ∧ p a

section Yields

variable {α β : Type} {p : α → Prop} {q : β → Prop}

theorem yields_ok_iff {a : α} : Yields p (.ok a) ↔ p a :=
  ⟨fun ⟨_, same, h⟩ => by cases same; exact h, fun h => ⟨a, rfl, h⟩⟩

theorem not_yields_error {e : Failure} : ¬ Yields p (.error e) := fun ⟨_, same, _⟩ => nomatch same

theorem yields_bind_iff {x : Except Failure α} {f : α → Except Failure β} :
    Yields q (x >>= f) ↔ Yields (fun a => Yields q (f a)) x := by
  cases x with
  | error e => exact iff_of_false not_yields_error not_yields_error
  | ok a =>
    rw [yields_ok_iff]
    exact Iff.rfl

end Yields

variable {p : Value → Prop} {fields : List (String × (Value → Prop))} {es : Entries} {name : String}
  {default : Value}

/-- An entry that may be missing is as it should be where its default is, if it is missing. -/
theorem forall_field_iff (usual : p default) :
    (∀ w, Entries.field? es name = some w → p w) ↔ p ((Entries.field? es name).getD default) := by
  cases Entries.field? es name with
  | none => exact iff_of_true nofun usual
  | some v => exact ⟨fun h => h v rfl, fun h w same => by cases same; exact h⟩

theorem fits_dict_iff : Fits fields (.dict es) ↔
    ∀ f ∈ fields, ∀ w, Entries.field? es f.1 = some w → f.2 w :=
  ⟨fun ⟨_, same, h⟩ => by cases same; exact h, fun h => ⟨es, rfl, h⟩⟩

theorem fits_nothing : Fits fields nothing := fits_dict_iff.mpr fun _ _ _ there => nomatch there

theorem yields_entry_iff {v : Value} :
    Yields p (entry v name default) ↔ ∃ es, v = .dict es ∧ p ((Entries.field? es name).getD default) := by
  cases v with
  | dict es => exact yields_ok_iff.trans ⟨fun h => ⟨es, rfl, h⟩, fun ⟨_, same, h⟩ => by cases same; exact h⟩
  | _ => exact iff_of_false not_yields_error fun ⟨_, same, _⟩ => nomatch same

theorem fits_entry_iff {v : Value} (usual : p default) :
    Fits [(name, p)] v ↔ Yields p (entry v name default) := by
  rw [yields_entry_iff]
  refine exists_congr fun es => and_congr_right fun _ => ?_
  rw [List.forall_mem_singleton, forall_field_iff usual]

theorem isText_empty : IsText (.str "") := ⟨"", rfl⟩

theorem isCount_zero : IsCount (.int 0) := ⟨0, rfl⟩

/-- An object with two counts. -/
theorem fits_counts_iff {v : Value} {a b : String} : Fits [(a, IsCount), (b, IsCount)] v ↔
    Yields IsCount (entry v a (.int 0)) ∧ Yields IsCount (entry v b (.int 0)) := by
  rw [yields_entry_iff, yields_entry_iff]
  cases v with
  | dict es =>
    simp only [fits_dict_iff, List.forall_mem_cons, forall_field_iff isCount_zero, Value.dict.injEq,
      exists_eq_left', List.not_mem_nil, false_imp_iff, implies_true, and_true]
  | _ => exact iff_of_false (fun ⟨_, same, _⟩ => nomatch same) fun ⟨⟨_, same, _⟩, _⟩ => nomatch same

/-- A reply is put together of what gives its text and its counts. -/
theorem yields_reply_iff {α : Type} {x : Except Failure α} {f : α → Value} {m : Value}
    {i o : Except Failure Value} :
    Yields IsSound (do
      let t ← x
      let input ← i
      let output ← o
      return { text := f t, model := m, input, output }) ↔
    Yields (fun t => IsText (f t)) x ∧ Yields IsCount i ∧ Yields IsCount o := by
  simp only [yields_bind_iff]
  constructor
  · rintro ⟨t, rfl, input, rfl, output, rfl, r, same, sound⟩
    cases same
    exact ⟨⟨t, rfl, sound.text⟩, ⟨input, rfl, sound.input⟩, ⟨output, rfl, sound.output⟩⟩
  · rintro ⟨⟨t, rfl, text⟩, ⟨input, rfl, isInput⟩, ⟨output, rfl, isOutput⟩⟩
    exact ⟨t, rfl, input, rfl, output, rfl, _, rfl, text, isInput, isOutput⟩

/-! ## Providers -/

theorem exists_textIn_iff {v : Value} : (∃ s, textIn v = .ok s) ↔ IsText v := by
  cases v with
  | str s => exact iff_of_true ⟨s, rfl⟩ ⟨s, rfl⟩
  | _ => exact iff_of_false (fun ⟨_, same⟩ => nomatch same) fun ⟨_, same⟩ => nomatch same

theorem same_str_iff {v : Value} {s : String} : v.same (.str s) = true ↔ v = .str s := by
  cases v with
  | str t => simp [Value.same]
  | _ => simp [Value.same, Value.number?]

/-- A block gives texts, or nothing, where it is one. -/
theorem exists_blockText_iff {b : Value} :
    (∃ texts, blockText b = .ok texts ∧ ∀ v ∈ texts, IsText v) ↔ IsBlock b := by
  cases b with
  | dict es =>
    have typed : Entries.field? es "type" = some (.str "text") ↔
        ((Entries.field? es "type").getD .null).same (.str "text") = true := by
      rw [same_str_iff]
      cases Entries.field? es "type" <;> simp
    have block : IsBlock (.dict es) ↔ (((Entries.field? es "type").getD .null).same (.str "text") = true →
        IsText ((Entries.field? es "text").getD (.str ""))) := by
      rw [← typed, ← forall_field_iff isText_empty]
      exact ⟨fun ⟨_, same, h⟩ => by cases same; exact h, fun h => ⟨es, rfl, h⟩⟩
    have read : blockText (.dict es) =
        if ((Entries.field? es "type").getD .null).same (.str "text") = true then
          .ok [(Entries.field? es "text").getD (.str "")]
        else .ok [] := rfl
    rw [block, read]
    split
    next text =>
      rw [forall_prop_of_true text]
      exact ⟨fun ⟨_, same, all⟩ => by cases same; exact all _ List.mem_cons_self,
        fun isText => ⟨_, rfl, List.forall_mem_singleton.mpr isText⟩⟩
    next other => exact iff_of_true ⟨[], rfl, List.forall_mem_nil _⟩ fun text => absurd text other
  | _ => exact iff_of_false (fun ⟨_, same, _⟩ => nomatch same) fun ⟨_, same, _⟩ => nomatch same

/-- What is read of blocks is a text where each of them is a block. -/
theorem exists_textOfBlocks_iff {blocks : List Value} :
    (∃ t, textOfBlocks blocks = .ok t) ↔ ∀ b ∈ blocks, IsBlock b := by
  have joined (vs : List Value) :
      (∃ t, (do return String.join (← vs.mapM textIn) : Except Failure String) = .ok t) ↔ ∀ v ∈ vs, IsText v := by
    simp only [← exists_textIn_iff, ← exists_mapM_iff]
    cases vs.mapM textIn with
    | error e => exact iff_of_false (fun ⟨_, same⟩ => nomatch same) fun ⟨_, same⟩ => nomatch same
    | ok ts => exact iff_of_true ⟨_, rfl⟩ ⟨ts, rfl⟩
  have each : (∀ b ∈ blocks, IsBlock b) ↔
      ∃ texts, blocks.mapM blockText = .ok texts ∧ ∀ v ∈ texts.flatten, IsText v := by
    rw [exists_mapM_flatten_iff]
    exact forall₂_congr fun b _ => exists_blockText_iff.symm
  simp only [each, ← joined]
  unfold textOfBlocks
  cases blocks.mapM blockText with
  | error e => exact iff_of_false (fun ⟨_, same⟩ => nomatch same) fun ⟨_, same, _⟩ => nomatch same
  | ok texts => exact ⟨fun h => ⟨texts, rfl, h⟩, fun ⟨_, same, h⟩ => by cases same; exact h⟩

/-- What is read of content is a text where it is in blocks. -/
theorem exists_content_iff {v : Value} :
    (∃ t, (itemsOf v >>= textOfBlocks) = .ok t) ↔ IsContent v := by
  cases v with
  | list blocks =>
    refine exists_textOfBlocks_iff.trans ⟨fun h => .inr (.inr ⟨blocks, rfl, h⟩), ?_⟩
    rintro (same | same | ⟨_, same, h⟩)
    · cases same
    · cases same
    · cases same
      exact h
  | str s =>
    refine exists_textOfBlocks_iff.trans ?_
    cases chars : s.toList with
    | nil =>
      have empty : s = "" := String.toList_eq_nil_iff.mp chars
      exact iff_of_true (List.forall_mem_nil _) (.inl (by rw [empty]))
    | cons c cs =>
      have other : s ≠ "" := fun same => by
        rw [same] at chars
        cases chars
      refine iff_of_false (fun h => ?_) ?_
      · obtain ⟨_, same, -⟩ := h _ List.mem_cons_self
        cases same
      · rintro (same | same | ⟨_, same, -⟩)
        · exact other (Value.str.inj same)
        · cases same
        · cases same
  | dict es =>
    refine exists_textOfBlocks_iff.trans ?_
    cases es with
    | nil => exact iff_of_true (List.forall_mem_nil _) (.inr (.inl rfl))
    | cons e es =>
      refine iff_of_false (fun h => ?_) ?_
      · obtain ⟨_, same, -⟩ := h _ List.mem_cons_self
        obtain ⟨k, v⟩ := e
        cases k <;> cases same
      · rintro (same | same | ⟨_, same, -⟩) <;> cases same
  | _ =>
    refine iff_of_false (fun ⟨_, same⟩ => nomatch same) ?_
    rintro (same | same | ⟨_, same, -⟩) <;> cases same

/-- The first item of JSON is that of a list. -/
theorem yields_first_iff {v : Value} (h : Json.Expressible Binary64.Canonical v)
    (object : ∀ w, p w → ∃ es, w = .dict es) : Yields p (firstOf v) ↔ FirstFits p v := by
  cases v with
  | list items =>
    cases items with
    | nil => exact iff_of_false not_yields_error fun ⟨_, _, same, _⟩ => nomatch same
    | cons c rest =>
      exact yields_ok_iff.trans ⟨fun h => ⟨c, rest, rfl, h⟩, fun ⟨_, _, same, h⟩ => by cases same; exact h⟩
  | str s =>
    refine iff_of_false ?_ fun ⟨_, _, same, _⟩ => nomatch same
    rintro ⟨c, same, holds⟩
    obtain ⟨es, rfl⟩ := object c holds
    unfold firstOf at same
    dsimp only at same
    split at same <;> cases same
  | dict es =>
    refine iff_of_false ?_ fun ⟨_, _, same, _⟩ => nomatch same
    rintro ⟨c, same, -⟩
    -- the keys of an object are texts
    obtain ⟨r, rfl⟩ : ∃ r, es = Entries.ofRecord r := by
      cases h
      exact ⟨_, rfl⟩
    have none : Entries.get? (Entries.ofRecord r) (.int 0) = none := by
      unfold Entries.get?
      rw [Option.map_eq_none_iff, List.find?_eq_none]
      rintro e there
      obtain ⟨e, -, rfl⟩ := List.mem_map.mp there
      exact Bool.false_ne_true
    unfold firstOf at same
    dsimp only at same
    rw [none] at same
    cases same
  | _ => exact iff_of_false not_yields_error fun ⟨_, _, same, _⟩ => nomatch same

theorem isText_chosen_iff {v : Value} : IsText (if v.truthy = true then v else .str "") ↔ OptionalText v := by
  split
  next yes => exact ⟨fun h _ => h, fun h => h yes⟩
  next no => exact iff_of_true isText_empty fun yes => absurd yes no

theorem optionalText_empty : OptionalText (.str "") := fun _ => isText_empty

/-- The content of the first of some choices. -/
def contentOf (choices : Value) : Except Failure Value := do
  let choice ← firstOf choices
  let said ← entry choice "message" nothing
  entry said "content" (.str "")

/-- The first choice says a text, or nothing that counts as true, where it is of its shape. -/
theorem yields_contentOf_iff {w : Value} (h : Json.Expressible Binary64.Canonical w) :
    Yields OptionalText (contentOf w) ↔ FirstFits (Fits [("message", Fits [("content", OptionalText)])]) w := by
  unfold contentOf
  rw [← yields_first_iff h fun _ ⟨es, same, _⟩ => ⟨es, same⟩, yields_bind_iff]
  refine exists_congr fun choice => and_congr_right fun _ => ?_
  rw [fits_entry_iff fits_nothing]
  refine yields_bind_iff.trans ?_
  exact exists_congr fun said => and_congr_right fun _ => (fits_entry_iff optionalText_empty).symm

/-- Without choices there is an empty one. -/
theorem yields_contentOf_default : Yields OptionalText (contentOf (.list [nothing])) :=
  yields_ok_iff.mpr optionalText_empty

theorem isContent_empty : IsContent (.list []) := .inr (.inr ⟨[], rfl, List.forall_mem_nil _⟩)

theorem fits_two_iff {a b : String} {p q : Value → Prop} : Fits [(a, p), (b, q)] (.dict es) ↔
    (∀ w, Entries.field? es a = some w → p w) ∧ ∀ w, Entries.field? es b = some w → q w := by
  rw [fits_dict_iff, List.forall_mem_cons, List.forall_mem_singleton]

theorem expressible_field {w : Value} (h : Json.Expressible Binary64.Canonical (.dict es))
    (there : Entries.field? es name = some w) : Json.Expressible Binary64.Canonical w := by
  obtain ⟨r, rfl⟩ : ∃ r, es = Entries.ofRecord r := by
    cases h
    exact ⟨_, rfl⟩
  rw [Entries.field?_ofRecord] at there
  exact h.get? there

/-- The object of a reply says something sound where its entries are of the shapes of the provider. -/
theorem replyOf_dict_iff (e : Endpoint) (h : Json.Expressible Binary64.Canonical (.dict es)) :
    Yields IsSound (e.replyOf (.dict es)) ↔ Shape e.provider (.dict es) := by
  let part (name : String) (usual : Value) : Value := (Entries.field? es name).getD usual
  have usage (a b : String) :
      (∀ w, Entries.field? es "usage" = some w → Fits [(a, IsCount), (b, IsCount)] w) ↔
        Yields IsCount (entry (part "usage" nothing) a (.int 0)) ∧
          Yields IsCount (entry (part "usage" nothing) b (.int 0)) := by
    rw [forall_field_iff fits_nothing, fits_counts_iff]
  unfold replyOf Shape
  cases e.provider with
  | anthropic =>
    dsimp only
    let text := itemsOf (part "content" (.list [])) >>= textOfBlocks
    have content : (∀ w, Entries.field? es "content" = some w → IsContent w) ↔
        Yields (fun t => IsText (.str t)) text := by
      rw [forall_field_iff isContent_empty, ← exists_content_iff]
      exact exists_congr fun t => (and_iff_left ⟨t, rfl⟩).symm
    rw [fits_two_iff, content, usage]
    refine Iff.trans ?_ (yields_reply_iff (x := text) (f := .str) (m := part "model" (.str e.model))
      (i := entry (part "usage" nothing) "input_tokens" (.int 0))
      (o := entry (part "usage" nothing) "output_tokens" (.int 0)))
    rw [bind_assoc]
    rfl
  | openai | compatible =>
    dsimp only
    let text := contentOf (part "choices" (.list [nothing]))
    have choices : (∀ w, Entries.field? es "choices" = some w →
        FirstFits (Fits [("message", Fits [("content", OptionalText)])]) w) ↔
          Yields (fun v => IsText (if v.truthy = true then v else .str "")) text := by
      simp only [isText_chosen_iff]
      rw [← forall_field_iff (p := fun w => Yields OptionalText (contentOf w)) yields_contentOf_default]
      exact forall₂_congr fun w there => (yields_contentOf_iff (expressible_field h there)).symm
    rw [fits_two_iff, choices, usage]
    refine Iff.trans ?_ (yields_reply_iff (x := text) (f := fun v => if v.truthy then v else .str "")
      (m := part "model" (.str e.model))
      (i := entry (part "usage" nothing) "prompt_tokens" (.int 0))
      (o := entry (part "usage" nothing) "completion_tokens" (.int 0)))
    simp only [text, contentOf, bind_assoc]
    rfl
  | ollama =>
    have content : (∀ w, Entries.field? es "message" = some w → Fits [("content", IsText)] w) ↔
        Yields IsText (entry (part "message" nothing) "content" (.str "")) := by
      rw [forall_field_iff fits_nothing, fits_entry_iff isText_empty]
    simp only [fits_dict_iff, List.forall_mem_cons, List.not_mem_nil, false_imp_iff, implies_true, and_true]
    rw [content, forall_field_iff isCount_zero, forall_field_iff isCount_zero,
      ← yields_ok_iff (p := IsCount), ← yields_ok_iff (p := IsCount)]
    exact yields_reply_iff (x := entry (part "message" nothing) "content" (.str "")) (f := id)
      (m := part "model" (.str e.model)) (i := .ok (part "prompt_eval_count" (.int 0)))
      (o := .ok (part "eval_count" (.int 0)))

theorem replyOf_yields_iff (e : Endpoint) {data : Value} (h : Json.Expressible Binary64.Canonical data) :
    Yields IsSound (e.replyOf data) ↔ Shape e.provider data := by
  cases data with
  | dict es => exact replyOf_dict_iff e h
  | _ =>
    refine iff_of_false ?_ ?_
    · unfold replyOf
      cases e.provider <;> exact not_yields_error
    · unfold Shape
      cases e.provider <;> exact fun ⟨_, same, _⟩ => nomatch same

/-! ## Calls -/

/-- A failure that is none of the transport. -/
abbrev Foreign (e : Failure) : Prop := ¬ e.IsTransport

theorem entry_foreign {v : Value} : FailsOnly Foreign (entry v name default) := by
  cases v with
  | dict es => exact .ok _
  | _ => exact FailsOnly.error_iff.mpr fun ⟨_, same⟩ => nomatch same

theorem itemsOf_foreign {v : Value} : FailsOnly Foreign (itemsOf v) := by
  cases v with
  | list _ | str _ | dict _ => exact .ok _
  | _ => exact FailsOnly.error_iff.mpr fun ⟨_, same⟩ => nomatch same

theorem firstOf_foreign {v : Value} : FailsOnly Foreign (firstOf v) := by
  unfold firstOf
  split
  case h_2 | h_4 =>
    split
    · exact .ok _
    · exact FailsOnly.error_iff.mpr fun ⟨_, same⟩ => nomatch same
  case h_1 => exact .ok _
  all_goals exact FailsOnly.error_iff.mpr fun ⟨_, same⟩ => nomatch same

theorem textOfBlocks_foreign {blocks : List Value} : FailsOnly Foreign (textOfBlocks blocks) := by
  refine FailsOnly.bind (FailsOnly.mapM fun b _ => ?_) fun texts _ => ?_
  · refine FailsOnly.bind entry_foreign fun kind _ => ?_
    split
    · exact FailsOnly.bind entry_foreign fun _ _ => .ok _
    · exact .ok _
  · refine FailsOnly.bind (FailsOnly.mapM fun v _ => ?_) fun _ _ => .ok _
    cases v with
    | str _ => exact .ok _
    | _ => exact FailsOnly.error_iff.mpr fun ⟨_, same⟩ => nomatch same

/-- No way through the data of a reply ends in a failure of the transport. -/
theorem replyOf_foreign (e : Endpoint) (data : Value) : FailsOnly Foreign (e.replyOf data) := by
  unfold replyOf
  cases e.provider
  all_goals
    repeat' first
      | exact entry_foreign
      | exact itemsOf_foreign
      | exact firstOf_foreign
      | exact textOfBlocks_foreign
      | exact .ok _
      | refine FailsOnly.bind ?_ fun _ _ => ?_

/-- Neither does the reading of the data. -/
theorem data_foreign (r : WebReply) : FailsOnly Foreign r.data :=
  FailsOnly.bind (FailsOnly.mapError_iff.mpr fun _ _ ⟨_, same⟩ => nomatch same) fun _ _ =>
    FailsOnly.mapError_iff.mpr fun _ _ ⟨_, same⟩ => nomatch same

theorem expressible_data {r : WebReply} {data : Value} (h : r.data = .ok data) :
    Json.Expressible Binary64.Canonical data := by
  unfold WebReply.data at h
  cases decoded : Json.decode r.body.toOctets with
  | error e =>
    rw [decoded] at h
    cases h
  | ok text =>
    rw [decoded] at h
    exact Json.expressible_of_readDecoded (mapError_eq_ok.mp h)

/-- Where only what is none of the transport can go wrong, a sound outcome is a sound reply. -/
theorem sound_iff_yields {r : Except Failure Reply} (h : FailsOnly Foreign r) : Sound r ↔ Yields IsSound r := by
  cases r with
  | error e => exact iff_of_false (h e rfl) not_yields_error
  | ok r => exact (yields_ok_iff (p := IsSound)).symm

/-- What is made of a reply below 400 is sound where the reply is of the shape of its provider. -/
theorem sound_data_iff (e : Endpoint) (r : WebReply) :
    Sound (r.data >>= e.replyOf) ↔ IsOfShape e.provider r := by
  rw [sound_iff_yields (FailsOnly.bind (data_foreign r) fun data _ => e.replyOf_foreign data), yields_bind_iff]
  exact exists_congr fun data => and_congr_right fun read => e.replyOf_yields_iff (expressible_data read)

/-- A reply of 400 or above is refused, and any other is taken for what its data says. -/
theorem send_of_reply {e : Endpoint} {web : Web} {c : ModelCall} {r : WebReply}
    (replied : web (e.request c) = .ok r) : e.send web c =
      if 400 ≤ r.status then
        .error (.transport (e.provider.name ++ " API error " ++ toString r.status ++ ": " ++
          Text.take 200 r.shown))
      else r.data >>= e.replyOf := by
  unfold send
  rw [replied]
  by_cases refused : 400 ≤ r.status
  · rw [if_pos refused]
    exact if_pos refused
  · rw [if_neg refused]
    exact if_neg refused

/-- A call comes to a sound reply or a failure of the transport where a reply below 400 is of the shape of its
provider. -/
theorem send_sound_iff (e : Endpoint) (web : Web) (c : ModelCall) :
    Sound (e.send web c) ↔
      ∀ r, web (e.request c) = .ok r → r.status < 400 → IsOfShape e.provider r := by
  cases replied : web (e.request c) with
  | error reason =>
    refine iff_of_true ?_ nofun
    unfold send
    rw [replied]
    exact ⟨_, rfl⟩
  | ok r =>
    have only (P : WebReply → Prop) : (∀ r', (Except.ok r : Except String WebReply) = .ok r' → P r') ↔ P r :=
      ⟨fun h => h r rfl, fun h r' same => by cases same; exact h⟩
    rw [only, send_of_reply replied]
    split
    next refused => exact iff_of_true ⟨_, rfl⟩ fun below => absurd below (Nat.not_lt.mpr refused)
    next accepted => rw [forall_prop_of_true (Nat.lt_of_not_le accepted), sound_data_iff]

/-! ## What becomes of replies -/

/-- A call comes to a text and two counts, or to a failure of the transport, exactly where each reply below 400
is JSON of the shape of the provider.  A step in which a call fails otherwise is a failed step that tells of the
failure.  A transport that makes the call fails with it, but it does not take it for an outcome. -/
theorem replies_sound_iff (e : Endpoint) (web : Web) :
    (∀ c, Sound (e.send web c) ↔
      ∀ r, web (e.request c) = .ok r → r.status < 400 → IsOfShape e.provider r) ∧
    ∀ (g : Generator) (s : Session) (call : ModelCall) (f : Failure),
      g.client = e.client web → e.send web call = .error f →
      (∀ (step : Step) (c : StepContext), c.generator = some g →
        call ∈ ((Engine.runTool Tool.model step c).on s).2.calls.drop s.calls.length →
        ((Engine.runTool Tool.model step c).on s).1 = .ok (step.failed f.told)) ∧
      ∀ q : TransportRequest,
        call ∈ (((Transport.api g).resolve q).on s).2.calls.drop s.calls.length →
        (f.IsTransport → (((Transport.api g).resolve q).on s).1 = .ok (.failed f)) ∧
          (¬ f.IsTransport → (((Transport.api g).resolve q).on s).1 = .error f) := by
  refine ⟨e.send_sound_iff web, fun g s call f client failed => ?_⟩
  have fails (i : Nat) : g.client i call = .error f := by
    rw [client]
    unfold Endpoint.client
    rw [failed]
    rfl
  refine ⟨fun step c given there => ?_, fun q there => ?_⟩
  · obtain ⟨i, there⟩ := List.mem_iff_getElem?.mp there
    rw [List.getElem?_drop] at there
    exact AiStep.on_model_of_failed given (Nat.le_add_right _ _) there (fails _)
  · obtain ⟨i, there⟩ := List.mem_iff_getElem?.mp there
    rw [List.getElem?_drop] at there
    exact Transport.on_api_of_failed (Nat.le_add_right _ _) there (fails _)

end Endpoint

/-! ## A reply that is no JSON -/

namespace Garbled

open Endpoint

/-- A local model. -/
def endpoint : Endpoint where
  provider := .ollama
  model := "llama3.1"
  baseUrl := "http://localhost:11434"
  headers := [("Content-Type", "application/json")]

/-- Something in its place replies with a text. -/
def web : Web := fun _ => .ok { status := 200, body := .text "not json" }

def generator : Generator where
  client := endpoint.client web

/-- A request for one answer. -/
def request : TransportRequest where
  collector := Collector.enter {} |>.add { key := "note", prompt := "Write a note" }
  command := "kitgen run"
  answersPath := "./ai-answers.json"

def call : ModelCall where
  system := "sys"
  prompt := "hi"
  temperature := generator.temperature
  maxTokens := generator.maxTokens

def step : Step := { name := "note", body := .ai { prompt := "Write a note" } }

def context : StepContext where
  recipe := { name := "noted" }
  project := .ofString "/project"
  generator := some generator

/-- The text has no value in front. -/
def failure : Failure := .badJson ⟨.expectingValue, 1, 1, 0⟩

theorem data_eq : (⟨200, .text "not json"⟩ : WebReply).data = .error failure :=
  failure?_eq_some.mp (by decide +kernel)

theorem fails (c : ModelCall) : endpoint.send web c = .error failure := by
  rw [send_of_reply (r := ⟨200, .text "not json"⟩) rfl, if_neg (by decide), data_eq]
  rfl

/-- The call ends in a failure that is none of the transport. -/
theorem unsound : ¬ Sound (endpoint.send web call) := by
  rw [fails]
  rintro ⟨_, same⟩
  cases same

/-- The step that makes the call is a failed one, and the transport that does so ends in the failure. -/
theorem reported_and_passed_on :
    ¬ Sound (endpoint.send web call) ∧
    ((Engine.runTool Tool.model step context).on {}).1 = .ok (step.failed failure.told) ∧
    (((Transport.api generator).resolve request).on {}).1 = .error failure := by
  obtain ⟨exactly, fate⟩ := endpoint.replies_sound_iff web
  refine ⟨fun sound => ?_, ?_, ?_⟩
  · obtain ⟨data, read, -⟩ := (exactly call).mp sound _ rfl (by decide)
    rw [data_eq] at read
    cases read
  · obtain ⟨c, there⟩ : ∃ c, c ∈ ((Engine.runTool Tool.model step context).on {}).2.calls.drop 0 :=
      List.exists_mem_of_ne_nil _ (by decide +kernel)
    exact (fate generator {} c failure rfl (fails c)).1 step context rfl there
  · obtain ⟨c, there⟩ : ∃ c, c ∈ (((Transport.api generator).resolve request).on {}).2.calls.drop 0 :=
      List.exists_mem_of_ne_nil _ (by decide +kernel)
    exact ((fate generator {} c failure rfl (fails c)).2 request there).2 fun ⟨_, same⟩ => nomatch same

end Garbled

end Scaffold
