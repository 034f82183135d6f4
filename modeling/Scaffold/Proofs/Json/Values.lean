import Scaffold.Proofs.Json.Integers

/-!
# Values in JSON

What a value is written as is read as the value again: null, booleans, integers and texts, and lists and
mappings of what is read again itself.  The texts may hold brackets, commas, quotes and line breaks, since
a writer escapes what would end them; the values may be nested to any depth.

Floating point numbers are left to a predicate, so that what is shown here also serves where there are
none.
-/

namespace Scaffold

namespace Json

/-- A value with a JSON form of its own: no point in time, nothing but texts for the keys of a mapping,
each of them once, and floating point numbers only as `P` has them. -/
inductive Expressible (P : Binary64 → Prop) : Value → Prop
  | null : Expressible P .null
  | bool (b : Bool) : Expressible P (.bool b)
  | int (n : Int) : Expressible P (.int n)
  | float {x : Binary64} : P x → Expressible P (.float x)
  | str (s : String) : Expressible P (.str s)
  | list {items : List Value} : (∀ v ∈ items, Expressible P v) → Expressible P (.list items)
  | dict {r : Record Value} : r.keys.Nodup → (∀ e ∈ r, Expressible P e.2) → Expressible P (.ofRecord r)

/-- The values of a mapping are expressible with it, under names that are there once. -/
theorem Expressible.record {P : Binary64 → Prop} {r : Record Value} (h : Expressible P (.ofRecord r)) :
    r.keys.Nodup ∧ ∀ e ∈ r, Expressible P e.2 := by
  generalize same : Value.ofRecord r = v at h
  cases h with
  | dict distinct values =>
    have entries := congrArg Entries.toRecord (Value.dict.inj same)
    rw [Entries.toRecord_ofRecord, Entries.toRecord_ofRecord] at entries
    subst entries
    exact ⟨distinct, values⟩
  | _ => cases same

theorem Expressible.get? {P : Binary64 → Prop} {r : Record Value} {k : String} {v : Value}
    (h : Expressible P (.ofRecord r)) (there : r.get? k = some v) : Expressible P v := by
  obtain ⟨e, found, rfl⟩ := Option.map_eq_some_iff.mp there
  exact h.record.2 e (List.mem_of_find?_eq_some found)

/-! ## Texts and mappings as they are written -/

theorem quotedText_string (s : String) : QuotedText (string s.toList) s := by
  have quoted := QuotedText.mk (spells_escape s.toList)
  rwa [String.ofList_toList] at quoted

/-- The entries that are written for a record are its members, in whichever way its values are seen. -/
theorem membersText_writeEntries {α : Type} {V : List Char → α → Prop} {f : α → Value}
    (e : String × α) (es : List (String × α)) (h : ∀ e' ∈ e :: es, V (write (f e'.2)) e'.2) :
    MembersText V (writeEntries (Entries.ofRecord ((e :: es).map fun e' => (e'.1, f e'.2)))) (e :: es) := by
  have first : MemberText V (string e.1.toList ++ ':' :: ' ' :: write (f e.2)) e :=
    .written (quotedText_string e.1) (h e List.mem_cons_self)
  induction es generalizing e with
  | nil =>
    have last := MembersText.last first gap_nil
    rwa [List.append_assoc, List.cons_append, List.cons_append] at last
  | cons e' es ih =>
    have others := (List.forall_mem_cons.mp h).2
    have next : MemberText V (string e'.1.toList ++ ':' :: ' ' :: write (f e'.2)) e' :=
      .written (quotedText_string e'.1) (others e' List.mem_cons_self)
    have more := MembersText.more first gap_nil (gap_blanks 1) (ih e' others next)
    rwa [List.append_assoc, List.cons_append, List.cons_append] at more

theorem mappingText_write {r : Record Value} (h : ∀ e ∈ r, Reads (write e.2) e.2) :
    MappingText Reads (write (.ofRecord r)) r := by
  cases r with
  | nil => exact .empty gap_nil
  | cons e es =>
    have members := membersText_writeEntries (f := id) e es h
    have same : (e :: es).map (fun e' => (e'.1, id e'.2)) = e :: es := List.map_id _
    rw [same] at members
    exact .filled gap_nil members

/-! ## Lists as they are written -/

section Lists

variable {v : Value} {vs : List Value} {rest : List Char} {fuel : Nat}

/-- The items of a list begin as its first one does. -/
theorem exists_writeItems (v : Value) (vs : List Value) (rest : List Char) :
    ∃ r, writeItems (v :: vs) ++ rest = write v ++ r := by
  cases vs with
  | nil => exact ⟨']' :: rest, by simp [writeItems]⟩
  | cons w vs => exact ⟨',' :: ' ' :: (writeItems (w :: vs) ++ rest), by simp [writeItems]⟩

theorem skipGap_writeItems (h : Denotes (write v) v) :
    skipGap (writeItems (v :: vs) ++ rest) = writeItems (v :: vs) ++ rest := by
  obtain ⟨r, same⟩ := exists_writeItems v vs rest
  rw [same]
  exact h.reads.skipGap_append gap_nil

/-- The items of a list are read up to its closing bracket, once each of them is. -/
theorem readItems_writeItems (h : ∀ w ∈ v :: vs, Denotes (write w) w)
    (enough : (writeItems (v :: vs)).length < fuel) :
    readItems fuel (writeItems (v :: vs) ++ rest) = .ok (v :: vs, rest) := by
  induction vs generalizing v fuel with
  | nil =>
    cases fuel with
    | zero => cases enough
    | succ fuel =>
      have room : (write v).length < fuel := by
        simp only [writeItems, List.length_append, List.length_singleton] at enough
        omega
      have follows : Follows (']' :: rest) := by
        rintro c ⟨⟩
        exact .inr (.inl rfl)
      rw [writeItems, List.append_assoc, List.singleton_append, readItems,
        (h v List.mem_cons_self).read fuel _ room follows]
      rfl
  | cons w vs ih =>
    cases fuel with
    | zero => cases enough
    | succ fuel =>
      have room : (write v).length < fuel ∧ (writeItems (w :: vs)).length < fuel := by
        simp only [writeItems, List.length_append, List.length_cons] at enough
        omega
      have follows : Follows (',' :: ' ' :: (writeItems (w :: vs) ++ rest)) := by
        rintro c ⟨⟩
        exact .inl rfl
      have others := (List.forall_mem_cons.mp h).2
      have behind : skipGap (' ' :: (writeItems (w :: vs) ++ rest)) = writeItems (w :: vs) ++ rest :=
        skipGap_writeItems (others w List.mem_cons_self)
      rw [writeItems, List.append_assoc, List.cons_append, List.cons_append, readItems,
        (h v List.mem_cons_self).read fuel _ room.1 follows]
      show (readItems fuel (skipGap (' ' :: (writeItems (w :: vs) ++ rest)))).map _ = _
      rw [behind, ih others room.2]
      rfl

theorem denotes_list {items : List Value} (h : ∀ v ∈ items, Denotes (write v) v) :
    Denotes (write (.list items)) (.list items) := by
  refine ⟨⟨'[', writeItems items, by rw [write], by decide, by decide, by decide⟩,
    fun fuel rest enough _ => ?_⟩
  cases fuel with
  | zero => cases enough
  | succ fuel =>
    cases items with
    | nil => rfl
    | cons v vs =>
      have first := h v List.mem_cons_self
      have room : (writeItems (v :: vs)).length < fuel := by
        simp only [write, List.length_cons] at enough
        omega
      rw [write, List.cons_append, readValue]
      dsimp only
      rw [skipGap_writeItems first]
      split
      next r ends =>
        -- the first item does not begin with a bracket that would close the list
        obtain ⟨r', same⟩ := exists_writeItems v vs rest
        obtain ⟨c, s, front, -, other, -⟩ := first.starts
        rw [same, front, List.cons_append] at ends
        exact absurd (List.cons.inj ends).1 other
      next =>
        rw [readItems_writeItems h room]
        rfl

end Lists

/-! ## All values -/

/-- What is written for a value denotes the value, as soon as it does for floating point numbers. -/
theorem Expressible.denotes {P : Binary64 → Prop} {v : Value}
    (floats : ∀ x, P x → Denotes (write (.float x)) (.float x)) (h : Expressible P v) : Denotes (write v) v := by
  induction h with
  | null =>
    rw [write]
    exact denotes_null
  | bool b =>
    cases b
    · exact denotes_word (w := ("false".toList, .bool false)) (by simp [words])
    · exact denotes_word (w := ("true".toList, .bool true)) (by simp [words])
  | int n =>
    rw [write]
    exact denotes_int n
  | float holds => exact floats _ holds
  | str s =>
    rw [write]
    exact (quotedText_string s).denotes
  | list _ ih => exact denotes_list ih
  | @dict r distinct _ ih =>
    have mapping := (mappingText_write fun e mem => (ih e mem).reads).denotes
    rwa [Record.ofList_of_nodup distinct] at mapping

/-- What is written for a value is read as the value. -/
theorem Expressible.read_text {P : Binary64 → Prop} {v : Value}
    (floats : ∀ x, P x → Denotes (write (.float x)) (.float x)) (h : Expressible P v) : read (text v) = .ok v :=
  (h.denotes floats).reads.alone

end Json

end Scaffold
