import Scaffold.Proofs.Answers.Texts
import Scaffold.Proofs.Check.Fence
import Scaffold.Proofs.Json.Floats

/-!
# Objects inside replies

A model puts the object it was asked for behind a remark, between the marks of a fence, or both.  Where no
opening brace stands in front of the object and no closing one behind it, neither trimming nor the removal
of a fence cuts into the object, whatever its keys and texts hold: a fence closes where nothing but blanks and
its mark are left, and so not in front of the last brace.
-/

namespace Scaffold

open Check

/-- A text from an opening to a closing brace. -/
def Braced (obj : List Char) : Prop := ∃ inside, obj = '{' :: (inside ++ ['}'])

/-- A text with an object in it, in front of which no brace opens, and behind which none closes. -/
def Wraps (obj s : List Char) : Prop := ∃ x y, s = x ++ obj ++ y ∧ '{' ∉ x ∧ '}' ∉ y

variable {obj s found : List Char}

/-! ## What trimming leaves -/

/-- What is cut off in front of the first opening brace is no part of the object. -/
theorem Wraps.behind {front rest : List Char} (braced : Braced obj) (h : Wraps obj (front ++ rest))
    (free : '{' ∉ front) : Wraps obj rest := by
  obtain ⟨inside, rfl⟩ := braced
  obtain ⟨x, y, same, opened, closed⟩ := h
  rw [List.append_assoc] at same
  rcases List.append_eq_append_iff.mp same with ⟨x', rfl, rfl⟩ | ⟨cut, rfl, rest'⟩
  · exact ⟨x', y, (List.append_assoc _ _ _).symm, fun mem => opened (List.mem_append_right _ mem), closed⟩
  · cases cut with
    | nil => exact ⟨[], y, rest'.symm, List.not_mem_nil, closed⟩
    | cons c cut =>
      obtain rfl := (List.cons.inj rest').1
      exact absurd (List.mem_append_right x List.mem_cons_self) free

/-- What is cut off behind the last closing brace is no part of the object. -/
theorem Wraps.before {rest back : List Char} (braced : Braced obj) (h : Wraps obj (rest ++ back))
    (free : '}' ∉ back) : Wraps obj rest := by
  obtain ⟨inside, rfl⟩ := braced
  obtain ⟨x, y, same, opened, closed⟩ := h
  rcases List.append_eq_append_iff.mp same with ⟨cut, whole, rfl⟩ | ⟨y', rfl, rfl⟩
  · rcases List.eq_nil_or_concat cut with rfl | ⟨cut, c, rfl⟩
    · rw [List.append_nil] at whole
      exact ⟨x, [], by rw [List.append_nil, whole], opened, List.not_mem_nil⟩
    · rw [List.concat_eq_append] at whole free
      have last : (x ++ '{' :: inside) ++ ['}'] = (rest ++ cut) ++ [c] := by
        rw [List.append_assoc, List.append_assoc, ← whole, List.cons_append]
      obtain rfl := List.singleton_inj.mp (List.append_inj_right' last rfl)
      exact absurd (by simp) free
  · exact ⟨x, y', rfl, opened, fun mem => closed (List.mem_append_left _ mem)⟩

theorem Wraps.dropWhile {p : Char → Bool} (other : p '{' = false) (braced : Braced obj) (h : Wraps obj s) :
    Wraps obj (s.dropWhile p) := by
  rw [← List.takeWhile_append_dropWhile (p := p) (l := s)] at h
  refine h.behind braced fun mem => ?_
  have holds := List.mem_takeWhile_imp mem
  rw [other] at holds
  cases holds

theorem Wraps.dropBack {p : Char → Bool} (other : p '}' = false) (braced : Braced obj) (h : Wraps obj s) :
    Wraps obj (Text.dropBack p s) := by
  rw [← Text.dropBack_append_dropped p s] at h
  refine h.before braced fun mem => ?_
  have holds := List.mem_takeWhile_imp (List.mem_reverse.mp mem)
  rw [other] at holds
  cases holds

theorem Wraps.trimChars (braced : Braced obj) (h : Wraps obj s) : Wraps obj (Text.trimChars s) :=
  (h.dropWhile (by decide) braced).dropBack (by decide) braced

/-! ## What the removal of a fence leaves -/

/-- No brace is left where a fence closes. -/
theorem free_of_closes (h : closes s = true) : '}' ∉ s := by
  obtain ⟨gap, behind, rfl, front, back⟩ := exists_of_closes h
  have blank : Text.isBlank '}' = false := by decide
  intro mem
  simp only [List.mem_cons, List.mem_append] at mem
  rcases mem with feed | before | mark | after
  · exact absurd feed (by decide)
  · rw [List.all_eq_true.mp front _ before] at blank
    cases blank
  · exact absurd mark (by decide)
  · rw [List.all_eq_true.mp back _ after] at blank
    cases blank

/-- A fence does not close in front of a closing brace. -/
theorem untilClosed?_append (x y : List Char) :
    untilClosed? (x ++ '}' :: y) = (untilClosed? y).map fun y' => x ++ '}' :: y' := by
  have opened {s : List Char} (mem : '}' ∈ s) : ¬closes s = true := fun closed => free_of_closes closed mem
  induction x with
  | nil => rw [List.nil_append, untilClosed?, if_neg (opened List.mem_cons_self)]; rfl
  | cons c x ih =>
    rw [List.cons_append, untilClosed?, if_neg (opened (by simp)), ih, Option.map_map]
    rfl

theorem Wraps.untilClosed (braced : Braced obj) (h : Wraps obj s) (closed : untilClosed? s = some found) :
    Wraps obj found := by
  obtain ⟨inside, rfl⟩ := braced
  obtain ⟨x, y, rfl, opened, free⟩ := h
  have regroup (y : List Char) :
      x ++ '{' :: (inside ++ ['}']) ++ y = (x ++ '{' :: inside) ++ '}' :: y := by simp
  rw [regroup, untilClosed?_append] at closed
  obtain ⟨y', rest, rfl⟩ := Option.map_eq_some_iff.mp closed
  obtain ⟨back, rfl, -⟩ := closes_of_untilClosed? rest
  exact ⟨x, y', (regroup y').symm, opened, fun mem => free (List.mem_append_left back mem)⟩

/-- The content of a fence starts behind blanks. -/
theorem exists_of_content? (h : content? s = some found) :
    ∃ front rest, s = front ++ rest ∧ (∀ c ∈ front, Text.isBlank c = true) ∧ untilClosed? rest = some found := by
  induction s with
  | nil => cases h
  | cons c s ih =>
    rw [content?] at h
    split at h
    next blank =>
      have blanks {front : List Char} (all : ∀ c ∈ front, Text.isBlank c = true) :
          ∀ d ∈ c :: front, Text.isBlank d = true := List.forall_mem_cons.mpr ⟨blank, all⟩
      split at h
      next later =>
        cases h
        obtain ⟨front, rest, rfl, all, closed⟩ := ih later
        exact ⟨c :: front, rest, rfl, blanks all, closed⟩
      next =>
        split at h
        · exact ⟨[c], s, rfl, blanks (List.forall_mem_nil _), h⟩
        · cases h
    next => cases h

theorem Wraps.fenced (braced : Braced obj) (h : Wraps obj s) (inner : fenced? s = some found) :
    Wraps obj found := by
  obtain ⟨behind, mark, content⟩ := Option.bind_eq_some_iff.mp inner
  obtain ⟨front, rest, parts, blank, closed⟩ := exists_of_content? content
  have trimmed : Wraps obj (Text.trimLeft s) := h.dropWhile (by decide) braced
  rw [Text.afterStart?_eq_some.mp mark] at trimmed
  have tag := (trimmed.behind braced (by decide)).dropWhile (p := isTagChar) (by decide) braced
  rw [parts] at tag
  refine (tag.behind braced fun mem => ?_).untilClosed braced closed
  have other : Text.isBlank '{' = false := by decide
  rw [blank _ mem] at other
  cases other

theorem Wraps.unfence {text : String} (braced : Braced obj) (h : Wraps obj text.toList) :
    Wraps obj (unfence text).toList := by
  unfold Check.unfence
  split
  next inner found =>
    rw [String.toList_ofList]
    exact h.fenced braced found
  next => exact h

/-! ## The object -/

/-- The object is what stands from the first opening to the last closing brace. -/
theorem Wraps.braced? (braced : Braced obj) (h : Wraps obj s) : Scaffold.braced? s = some obj := by
  obtain ⟨inside, rfl⟩ := braced
  obtain ⟨x, y, rfl, opened, closed⟩ := h
  have front : (x ++ '{' :: (inside ++ ['}']) ++ y).dropWhile (· != '{') = '{' :: (inside ++ ['}']) ++ y := by
    rw [List.append_assoc, List.dropWhile_append_of_pos, List.cons_append, List.dropWhile_cons_of_neg (by simp)]
    intro c mem
    rw [bne_iff_ne]
    rintro rfl
    exact opened mem
  have back : Text.dropBack (· != '}') ('{' :: (inside ++ ['}']) ++ y) = '{' :: (inside ++ ['}']) := by
    have reversed : ('{' :: (inside ++ ['}']) ++ y).reverse = y.reverse ++ '}' :: (inside.reverse ++ ['{']) := by
      simp
    rw [Text.dropBack, reversed, List.dropWhile_append_of_pos, List.dropWhile_cons_of_neg (by simp)]
    · simp
    · intro c mem
      rw [bne_iff_ne]
      rintro rfl
      exact closed (List.mem_reverse.mp mem)
  unfold Scaffold.braced?
  dsimp only
  rw [front, back, if_neg (by simp)]

theorem exists_writeEntries (es : Entries) : ∃ inside, Json.writeEntries es = inside ++ ['}'] := by
  induction es with
  | nil => exact ⟨[], rfl⟩
  | cons e es ih =>
    obtain ⟨k, v⟩ := e
    cases es with
    | nil => exact ⟨Json.string (Json.name k) ++ ':' :: ' ' :: Json.write v, by simp [Json.writeEntries]⟩
    | cons e es =>
      obtain ⟨inside, same⟩ := ih
      refine ⟨Json.string (Json.name k) ++ ':' :: ' ' :: (Json.write v ++ ',' :: ' ' :: inside), ?_⟩
      simp [Json.writeEntries, same]

theorem braced_write (es : Entries) : Braced (Json.write (.dict es)) := by
  obtain ⟨inside, same⟩ := exists_writeEntries es
  exact ⟨inside, by rw [Json.write, same]⟩

variable {before after : String} {a : Record Value}

/-- The object of a reply is the one that was put into it, whatever stands around it. -/
theorem replyObject_wrapped (opened : '{' ∉ before.toList) (closed : '}' ∉ after.toList)
    (distinct : a.keys.Nodup) (values : ∀ e ∈ a, Json.Expressible Binary64.Canonical e.2) :
    ReplyObject (before ++ Json.text (.ofRecord a) ++ after) a := by
  have braced : Braced (Json.write (.ofRecord a)) := braced_write _
  have wraps : Wraps (Json.write (.ofRecord a)) (before ++ Json.text (.ofRecord a) ++ after).toList := by
    refine ⟨before.toList, after.toList, ?_, opened, closed⟩
    rw [String.toList_append, String.toList_append, Json.text, String.toList_ofList]
  have trimmed : Wraps (Json.write (.ofRecord a))
      (Text.trim (before ++ Json.text (.ofRecord a) ++ after)).toList := by
    rw [Text.trim, String.toList_ofList]
    exact wraps.trimChars braced
  refine ⟨_, (trimmed.unfence braced).braced? braced, ?_⟩
  exact Json.read_text (.dict distinct values)

/-- An object in a reply, between any text without an opening brace in front of it and any text without a
closing one behind it, answers the keys that it was asked for in its own order: a text for itself, and
everything else for its JSON text.  If it lacks any, the failure names these in the order in which they were
asked for. -/
theorem batchAnswers_wrapped (keys : List String) (opened : '{' ∉ before.toList)
    (closed : '}' ∉ after.toList) (distinct : a.keys.Nodup)
    (values : ∀ e ∈ a, Json.Expressible Binary64.Canonical e.2) :
    batchAnswers (before ++ Json.text (.ofRecord a) ++ after) keys =
      if keys.filter (fun k => !a.has k) = [] then
        .ok ((a.restrict keys.contains).map fun e => (e.1, AnswersFile.asText e.2))
      else .error (.transport
        ("Response is missing keys: " ++ Text.join ", " (keys.filter fun k => !a.has k))) :=
  (replyObject_wrapped opened closed distinct values).batchAnswers_eq keys

namespace Wrapped

/-- One half. -/
def half : Binary64 := .finite false (2 ^ 52) (-53)

/-- An object with marks of a fence, braces and line breaks in its texts. -/
def object : Record Value :=
  [("path", .str "\x7d\n```\n"), ("note", .null), ("ports", .list [.int 80, .float half])]

theorem expressible_object : ∀ e ∈ object, Json.Expressible Binary64.Canonical e.2 := by
  have kept : half.Canonical := ⟨by norm_num, .inl (Nat.le_refl _), by decide, by decide⟩
  have ports : ∀ v ∈ [Value.int 80, .float half], Json.Expressible Binary64.Canonical v := by
    simp only [List.forall_mem_cons]
    exact ⟨.int 80, .float kept, nofun⟩
  simp only [object, List.forall_mem_cons]
  exact ⟨.str _, .null, .list ports, nofun⟩

/-- Behind a remark and between the marks of a fence, the object answers what was asked for. -/
theorem object_answered :
    batchAnswers ("\x7dHere it is:\n```json\n" ++ Json.text (.ofRecord object) ++ "\n```\n\x7b") ["ports", "path"] =
      .ok [("path", "\x7d\n```\n"), ("ports", "[80, 0.5]")] :=
  (batchAnswers_wrapped _ (by decide) (by decide) (by decide) expressible_object).trans (by decide +kernel)

end Wrapped

end Scaffold
