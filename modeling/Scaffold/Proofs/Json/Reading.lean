import Scaffold.Proofs.Json.Spelling
import Scaffold.Proofs.Value.Records

/-!
# What a reader of JSON finds

A mapping that is read from a text is a record: its keys are texts, and each of them is there once.

The other way round, a reader finds the value that a text is written for, whatever stands between its
tokens and however its texts are spelled.  This is shown for texts, null and mappings; a mapping is read
as soon as its members are.
-/

namespace Scaffold

namespace Json

theorem exists_of_map_eq_ok {ε α β : Type} {x : Except ε α} {f : α → β} {b : β}
    (h : x.map f = .ok b) : ∃ a, x = .ok a ∧ f a = b := by
  cases x with
  | error e => cases h
  | ok a => exact ⟨a, rfl, Except.ok.inj h⟩

/-- The entries that are read have texts for their keys. -/
theorem readEntries_ok {fuel : Nat} {s rest : List Char} {es : Entries}
    (h : readEntries fuel s = .ok (es, rest)) : ∃ r : Record Value, es = Entries.ofRecord r := by
  induction fuel generalizing s es rest with
  | zero => simp [readEntries] at h
  | succ fuel ih =>
    unfold readEntries at h
    split at h
    next behind =>
      split at h
      next => cases h
      next k after _ =>
        split at h
        next =>
          split at h
          next => cases h
          next v past _ =>
            dsimp only at h
            split at h
            next =>
              cases h
              exact ⟨[(String.ofList k, v)], rfl⟩
            next =>
              obtain ⟨⟨es', rest'⟩, more, same⟩ := exists_of_map_eq_ok h
              cases same
              obtain ⟨r, rfl⟩ := ih more
              exact ⟨(String.ofList k, v) :: r, rfl⟩
            next => cases h
        next => cases h
    next => cases h

theorem readNumber_ok {s rest : List Char} {v : Value} (h : readNumber s = .ok (v, rest)) :
    (∃ n, v = .int n) ∨ ∃ x, v = .float x := by
  unfold readNumber at h
  dsimp only at h
  repeat' split at h
  all_goals
    first
      | exact .inl ⟨_, (Prod.mk.inj (Except.ok.inj h)).1.symm⟩
      | exact .inr ⟨_, (Prod.mk.inj (Except.ok.inj h)).1.symm⟩
      | cases h

theorem readWord?_eq_some {s : List Char} {r : Value × List Char} (h : readWord? s = some r) :
    ∃ w ∈ words, r.1 = w.2 := by
  obtain ⟨w, mem, found⟩ := List.exists_of_findSome?_eq_some h
  split at found
  · cases found
    exact ⟨w, mem, rfl⟩
  · cases found

/-- A mapping that is read is a record: it has texts for its keys, each of them once. -/
theorem readValue_dict {fuel : Nat} {s rest : List Char} {es : Entries}
    (h : readValue fuel s = .ok (.dict es, rest)) :
    ∃ r : Record Value, r.keys.Nodup ∧ es = Entries.ofRecord r := by
  cases fuel with
  | zero => simp [readValue] at h
  | succ fuel =>
    unfold readValue at h
    split at h
    next => 
      obtain ⟨_, _, same⟩ := exists_of_map_eq_ok h
      cases same
    next =>
      split at h
      · cases h
      · obtain ⟨_, _, same⟩ := exists_of_map_eq_ok h
        cases same
    next =>
      split at h
      · cases h
        exact ⟨[], List.nodup_nil, rfl⟩
      · obtain ⟨⟨es', _⟩, more, same⟩ := exists_of_map_eq_ok h
        cases same
        obtain ⟨r, rfl⟩ := readEntries_ok more
        exact ⟨Record.ofList r, Record.nodup_keys_ofList r, Entries.ofList_ofRecord r⟩
    next =>
      split at h
      next r found =>
        obtain ⟨w, mem, same⟩ := readWord?_eq_some found
        cases h
        simp [words] at mem
        rcases mem with rfl | rfl | rfl | rfl | rfl | rfl <;> cases same
      next =>
        rcases readNumber_ok h with ⟨n, same⟩ | ⟨x, same⟩ <;> cases same

theorem readBody_ok {s : List Char} {v : Value} (h : readAll.body s = .ok v) :
    ∃ fuel s' rest, readValue fuel s' = .ok (v, rest) := by
  unfold readAll.body at h
  split at h
  · cases h
  next v' rest found =>
    split at h <;> cases h
    exact ⟨_, _, rest, found⟩

theorem readAll_ok {s : List Char} {v : Value} (h : readAll s = .ok v) :
    ∃ fuel s' rest, readValue fuel s' = .ok (v, rest) := by
  unfold readAll at h
  split at h
  · split at h
    · cases h
    · exact readBody_ok h
  · exact readBody_ok h

theorem read_dict {s : String} {es : Entries} (h : read s = .ok (.dict es)) :
    ∃ r : Record Value, r.keys.Nodup ∧ es = Entries.ofRecord r := by
  unfold read at h
  cases found : readAll s.toList with
  | error e => simp [found, Except.mapError] at h
  | ok v =>
    rw [found] at h
    cases h
    obtain ⟨fuel, s', rest, found⟩ := readAll_ok found
    exact readValue_dict found

/-! ## Texts that are read -/

/-- White space between tokens. -/
def Gap (w : List Char) : Prop := ∀ c ∈ w, isGap c = true

/-- What may stand behind a value. -/
def Ends (rest : List Char) : Prop := ∀ c ∈ rest.head?, c = ',' ∨ c = '}' ∨ isGap c = true

/-- A text stands for a value: a reader with enough fuel finds the value, and nothing of what may stand
behind. -/
structure Reads (w : List Char) (v : Value) : Prop where
  starts : ∃ c r, w = c :: r ∧ isGap c = false ∧ c.toNat ≠ 0xfeff
  read : ∀ fuel rest, w.length < fuel → Ends rest → readValue fuel (w ++ rest) = .ok (v, rest)

/-- What may stand behind a value, be it an item of a list or not. -/
def Follows (rest : List Char) : Prop :=
  ∀ c ∈ rest.head?, c = ',' ∨ c = ']' ∨ c = '}' ∨ isGap c = true

/-- A text stands for a value wherever a value may stand, also in a list. -/
structure Denotes (w : List Char) (v : Value) : Prop where
  starts : ∃ c r, w = c :: r ∧ isGap c = false ∧ c ≠ ']' ∧ c.toNat ≠ 0xfeff
  read : ∀ fuel rest, w.length < fuel → Follows rest → readValue fuel (w ++ rest) = .ok (v, rest)

theorem Ends.follows {rest : List Char} (h : Ends rest) : Follows rest :=
  fun c mem => (h c mem).imp_right .inr

theorem Denotes.reads {w : List Char} {v : Value} (h : Denotes w v) : Reads w v := by
  obtain ⟨c, r, same, other, -, unmarked⟩ := h.starts
  exact ⟨⟨c, r, same, other, unmarked⟩, fun fuel rest enough ends => h.read fuel rest enough ends.follows⟩

/-- A text in quotes, somehow spelled. -/
inductive QuotedText : List Char → String → Prop
  | mk {w s : List Char} : Spells w s → QuotedText ('"' :: (w ++ ['"'])) (String.ofList s)

section Members

variable {α β : Type}

/-- A member of a mapping: a name, and a text that `V` relates to what it stands for. -/
inductive MemberText (V : List Char → α → Prop) : List Char → String × α → Prop
  | mk {k g g' w : List Char} {name : String} {a : α} : QuotedText k name → Gap g → Gap g' → V w a →
      MemberText V (k ++ (g ++ ':' :: (g' ++ w))) (name, a)

/-- The members of a mapping up to its closing brace. -/
inductive MembersText (V : List Char → α → Prop) : List Char → List (String × α) → Prop
  | last {w g : List Char} {e : String × α} : MemberText V w e → Gap g →
      MembersText V (w ++ (g ++ ['}'])) [e]
  | more {w g g' w' : List Char} {e : String × α} {es : List (String × α)} : MemberText V w e →
      Gap g → Gap g' → MembersText V w' es → MembersText V (w ++ (g ++ ',' :: (g' ++ w'))) (e :: es)

/-- A mapping. -/
inductive MappingText (V : List Char → α → Prop) : List Char → List (String × α) → Prop
  | empty {g : List Char} : Gap g → MappingText V ('{' :: (g ++ ['}'])) []
  | filled {g w : List Char} {es : List (String × α)} : Gap g → MembersText V w es →
      MappingText V ('{' :: (g ++ w)) es

end Members

section Map

variable {α β : Type} {V : List Char → α → Prop} {V' : List Char → β → Prop} {f : α → β}
  {w : List Char}

/-- What is said of the values of a mapping can be said of them in other words. -/
theorem MemberText.map {e : String × α} (hV : ∀ w a, V w a → V' w (f a)) (h : MemberText V w e) :
    MemberText V' w (e.1, f e.2) := by
  cases h with
  | mk named gap gap' value => exact .mk named gap gap' (hV _ _ value)

theorem MembersText.map {es : List (String × α)} (hV : ∀ w a, V w a → V' w (f a))
    (h : MembersText V w es) : MembersText V' w (es.map fun e => (e.1, f e.2)) := by
  induction h with
  | last member gap => exact .last (member.map hV) gap
  | more member gap gap' _ ih => exact .more (member.map hV) gap gap' ih

theorem MappingText.map {es : List (String × α)} (hV : ∀ w a, V w a → V' w (f a))
    (h : MappingText V w es) : MappingText V' w (es.map fun e => (e.1, f e.2)) := by
  cases h with
  | empty gap => exact .empty gap
  | filled gap members => exact .filled gap (members.map hV)

end Map

section Gaps

variable {g r : List Char} {c : Char}

theorem gap_nil : Gap [] := fun _ mem => absurd mem List.not_mem_nil

theorem gap_blanks (n : Nat) : Gap (List.replicate n ' ') := by
  intro c mem
  obtain rfl := List.eq_of_mem_replicate mem
  rfl

theorem gap_newLine (depth : Nat) : Gap (newLine depth) :=
  List.forall_mem_cons.mpr ⟨rfl, gap_blanks _⟩

/-- A member as writers write it: a colon behind the name, and a blank. -/
theorem MemberText.written {α : Type} {V : List Char → α → Prop} {k w : List Char} {name : String}
    {a : α} (named : QuotedText k name) (value : V w a) :
    MemberText V (k ++ ':' :: ' ' :: w) (name, a) :=
  .mk named gap_nil (gap_blanks 1) value

theorem skipGap_append (h : Gap g) (other : isGap c = false) : skipGap (g ++ c :: r) = c :: r := by
  unfold skipGap
  rw [List.dropWhile_append_of_pos h, List.dropWhile_cons_of_neg (by simp [other])]

theorem skipGap_eq_nil (h : Gap g) : skipGap g = [] := by
  rw [skipGap, ← List.append_nil g, List.dropWhile_append_of_pos h]
  rfl

theorem ends_append (h : Gap g) (stop : c = ',' ∨ c = '}') : Ends (g ++ c :: r) := by
  intro d mem
  cases g with
  | nil =>
    obtain rfl : c = d := by simpa using mem
    exact stop.imp_right .inl
  | cons c' g =>
    obtain rfl : c' = d := by simpa using mem
    exact .inr (.inr (h c' List.mem_cons_self))

theorem ends_of_gap (h : Gap g) : Ends g := fun c mem =>
  .inr (.inr (h c (List.mem_of_mem_head? mem)))

end Gaps

section Scalars

theorem QuotedText.denotes {w : List Char} {s : String} (h : QuotedText w s) :
    Denotes w (.str s) := by
  cases h with
  | @mk w s spelt =>
    refine ⟨⟨'"', _, rfl, by decide, by decide, by decide⟩, fun fuel rest enough _ => ?_⟩
    cases fuel with
    | zero => cases enough
    | succ fuel =>
      rw [List.cons_append, List.append_assoc, readValue]
      dsimp only
      rw [List.singleton_append, readString_spells spelt]
      rfl

theorem QuotedText.reads {w : List Char} {s : String} (h : QuotedText w s) : Reads w (.str s) :=
  h.denotes.reads

/-- No word is the beginning of another one. -/
theorem denotes_word {w : List Char × Value} (mem : w ∈ words) : Denotes w.1 w.2 := by
  have front : ∀ w ∈ words, ∃ c r, w.1 = c :: r ∧ isGap c = false ∧ c ≠ ']' ∧ c.toNat ≠ 0xfeff := by
    intro w mem
    simp only [words, List.mem_cons, List.not_mem_nil, or_false] at mem
    rcases mem with rfl | rfl | rfl | rfl | rfl | rfl <;>
      exact ⟨_, _, rfl, by decide, by decide, by decide⟩
  refine ⟨front w mem, fun fuel rest enough _ => ?_⟩
  cases fuel with
  | zero => cases enough
  | succ fuel =>
    simp only [words, List.mem_cons, List.not_mem_nil, or_false] at mem
    rcases mem with rfl | rfl | rfl | rfl | rfl | rfl <;> rfl

theorem denotes_null : Denotes "null".toList .null :=
  denotes_word (w := ("null".toList, .null)) List.mem_cons_self

theorem reads_null : Reads "null".toList .null := denotes_null.reads

end Scalars

section Mappings

variable {w g rest : List Char} {c : Char} {e : String × Value} {es : Record Value} {fuel : Nat}

/-- Behind a gap a value begins where it begins. -/
theorem Reads.skipGap_append {v : Value} (h : Reads w v) (gap : Gap g) :
    skipGap (g ++ (w ++ rest)) = w ++ rest := by
  obtain ⟨c, r, rfl, other, -⟩ := h.starts
  exact Json.skipGap_append gap other

/-- The first member is read, and then the mapping ends or goes on. -/
theorem readEntries_member (h : MemberText Reads w e) (gap : Gap g) (stop : c = ',' ∨ c = '}')
    (enough : w.length < fuel + 1) :
    readEntries (fuel + 1) (w ++ (g ++ c :: rest)) =
      match c :: rest with
      | '}' :: r => .ok ([(.str e.1, e.2)], r)
      | ',' :: r => (readEntries fuel (skipGap r)).map fun (es, r) => ((.str e.1, e.2) :: es, r)
      | r => .error (.expectingComma, r.length) := by
  have other : isGap c = false := by rcases stop with rfl | rfl <;> rfl
  cases h with
  | @mk k g₁ g₂ w name v named gap₁ gap₂ value =>
    cases named with
    | @mk k s spelt =>
      have room : w.length < fuel := by
        simp only [List.length_cons, List.length_append] at enough
        omega
      simp only [List.cons_append, List.append_assoc, List.nil_append]
      rw [readEntries]
      dsimp only
      rw [readString_spells spelt]
      dsimp only
      rw [skipGap_append gap₁ (by decide)]
      simp only
      rw [value.skipGap_append gap₂, value.read fuel _ room (ends_append gap stop)]
      simp only
      rw [skipGap_append gap other]
      rfl

theorem MembersText.starts {α : Type} {V : List Char → α → Prop} {es : List (String × α)}
    (h : MembersText V w es) : ∃ r, w = '"' :: r := by
  cases h with
  | last member _ | more member _ _ _ =>
    cases member with
    | mk named _ _ _ =>
      cases named
      exact ⟨_, rfl⟩

theorem MembersText.skipGap_append {α : Type} {V : List Char → α → Prop} {es : List (String × α)}
    (h : MembersText V w es) (gap : Gap g) : skipGap (g ++ (w ++ rest)) = w ++ rest := by
  obtain ⟨r, rfl⟩ := h.starts
  exact Json.skipGap_append gap (by decide)

/-- The members of a mapping are read up to its closing brace, once their values are. -/
theorem MembersText.read (h : MembersText Reads w es) (enough : w.length < fuel) :
    readEntries fuel (w ++ rest) = .ok (Entries.ofRecord es, rest) := by
  induction h generalizing fuel with
  | @last w g e member gap =>
    cases fuel with
    | zero => cases enough
    | succ fuel =>
      have room : w.length < fuel + 1 := by
        simp only [List.length_append] at enough
        omega
      rw [List.append_assoc, List.append_assoc, List.singleton_append,
        readEntries_member member gap (.inr rfl) room]
      rfl
  | @more w g g' w' e es member gap gap' more ih =>
    cases fuel with
    | zero => cases enough
    | succ fuel =>
      have room : w.length < fuel + 1 ∧ w'.length < fuel := by
        simp only [List.length_append, List.length_cons] at enough
        omega
      simp only [List.append_assoc, List.cons_append]
      rw [readEntries_member member gap (.inl rfl) room.1]
      simp only
      rw [more.skipGap_append gap', ih room.2]
      rfl

theorem MappingText.denotes (h : MappingText Reads w es) :
    Denotes w (.dict (Entries.ofRecord (Record.ofList es))) := by
  refine ⟨by cases h <;> exact ⟨'{', _, rfl, by decide, by decide, by decide⟩,
    fun fuel rest enough _ => ?_⟩
  cases fuel with
  | zero => cases enough
  | succ fuel =>
    cases h with
    | empty gap =>
      rw [List.cons_append, List.append_assoc, List.singleton_append, readValue]
      dsimp only
      rw [skipGap_append gap (by decide)]
      rfl
    | @filled g w es gap members =>
      have room : w.length < fuel := by
        simp only [List.length_cons, List.length_append] at enough
        omega
      rw [List.cons_append, List.append_assoc, readValue]
      dsimp only
      rw [members.skipGap_append gap]
      -- the members begin with a quote, so the mapping does not end here
      obtain ⟨r, begins⟩ := members.starts
      have found : readEntries fuel (w ++ rest) = .ok (Entries.ofRecord es, rest) := members.read room
      rw [begins, List.cons_append] at found ⊢
      show (readEntries fuel ('"' :: (r ++ rest))).map _ = _
      rw [found, ← Entries.ofList_ofRecord]
      rfl

theorem MappingText.reads (h : MappingText Reads w es) :
    Reads w (.dict (Entries.ofRecord (Record.ofList es))) := h.denotes.reads

end Mappings

/-- A whole text is read if a value stands in it alone. -/
theorem Reads.readAll {g w g' : List Char} {v : Value} (h : Reads w v) (gap : Gap g)
    (gap' : Gap g') : readAll (g ++ (w ++ g')) = .ok v := by
  have found : readAll.body (g ++ (w ++ g')) = .ok v := by
    unfold readAll.body
    rw [h.skipGap_append gap, h.read _ _ (by simp only [List.length_append]; omega) (ends_of_gap gap')]
    dsimp only
    rw [skipGap_eq_nil gap']
  have unmarked : ∀ c r, g ++ (w ++ g') = c :: r → c.toNat ≠ 0xfeff := by
    obtain ⟨c, r, rfl, -, other⟩ := h.starts
    intro c' r' same
    cases g with
    | nil =>
      obtain ⟨rfl, -⟩ := List.cons.inj same
      exact other
    | cons b g =>
      obtain ⟨rfl, -⟩ := List.cons.inj same
      have blank := gap b List.mem_cons_self
      simp only [isGap, Bool.or_eq_true, beq_iff_eq] at blank
      rcases blank with ((rfl | rfl) | rfl) | rfl <;> decide
  unfold Json.readAll
  split
  next c r same => rw [if_neg (by simpa using unmarked c r same), found]
  next => exact found

/-- So is a text that is the value's alone. -/
theorem Reads.alone {w : List Char} {v : Value} (h : Reads w v) : Json.read (String.ofList w) = .ok v := by
  have found := h.readAll gap_nil gap_nil
  rw [List.nil_append, List.append_nil] at found
  rw [Json.read, String.toList_ofList, found]
  rfl

end Json

end Scaffold
