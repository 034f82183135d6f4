import Scaffold.Json.Octets
import Scaffold.Proofs.Json.Values
import Scaffold.Proofs.Number.Layout

/-!
# Floating point numbers in JSON

A number is written with as few digits as it takes, always with a point or an exponent, and is read as the
number that it is: none is taken for an integer, and none for one of its neighbours.
-/

namespace Scaffold

namespace Json

open Numeral Binary64

variable {n : Parts} {rest : List Char}

theorem placesPart_fraction (h : n.Sound) (stops : Stops rest) (pointless : '.' ∉ rest.head?) :
    placesPart (Parts.fraction n.places ++ rest) = (Parts.fraction n.places, rest) := by
  cases places : n.places with
  | nil =>
    show placesPart rest = ([], rest)
    unfold placesPart
    split
    next => exact absurd rfl pointless
    next => rfl
  | cons c ds =>
    have point : Parts.fraction n.places = '.' :: n.places := by
      rw [places]
      rfl
    have some : n.places.isEmpty = false := by
      rw [places]
      rfl
    obtain ⟨take, drop⟩ := span_digits h.places stops
    rw [← places, point, List.cons_append, placesPart, spanDigits, take, drop]
    dsimp only
    rw [some]
    rfl

theorem exponentPart_powerText (h : n.Sound) (follows : Follows rest) :
    exponentPart (Parts.powerText n.power ++ rest) = (Parts.powerText n.power, rest) := by
  cases power : n.power with
  | none => exact exponentPart_stop follows
  | some q =>
    obtain ⟨negative, ds⟩ := q
    obtain ⟨some, all⟩ := h.power _ power
    obtain ⟨take, drop⟩ := span_digits all follows.stops_digits
    have digits : spanDigits (ds ++ rest) = (ds, rest) := by rw [spanDigits, take, drop]
    have some : ds.isEmpty = false := List.isEmpty_eq_false_iff.mpr some
    cases negative <;> simp [Parts.powerText, exponentPart, digits, some]

/-- A numeral with a point or an exponent is read as a floating point number. -/
theorem readNumber_text (h : n.Sound) (inexact : n.places ≠ [] ∨ n.power ≠ none) (negative : Bool)
    (follows : Follows rest) : readNumber ((if negative then ['-'] else []) ++ n.text ++ rest) =
      .ok (.float ((decimal? negative n.text).getD .nan), rest) := by
  obtain ⟨c, r, front⟩ := List.exists_cons_of_ne_nil h.some
  have digit : c ∈ digits := mem_digits_iff.mpr (h.whole c (front ▸ List.mem_cons_self))
  have stops : Stops (Parts.powerText n.power ++ rest) := by
    cases power : n.power with
    | none => exact follows.stops_digits
    | some q =>
      rintro c ⟨⟩
      decide
  have pointless : '.' ∉ (Parts.powerText n.power ++ rest).head? := by
    cases power : n.power with
    | none => exact fun mem => (follows.breaks '.' mem).2.1 rfl
    | some q => exact fun mem => by cases mem
  have behind : Stops (Parts.fraction n.places ++ (Parts.powerText n.power ++ rest)) := by
    unfold Parts.fraction
    split
    · exact stops
    · rintro c ⟨⟩
      decide
  have sign : signPart ((if negative then ['-'] else []) ++ n.text ++ rest) =
      (negative, n.whole ++ (Parts.fraction n.places ++ (Parts.powerText n.power ++ rest))) := by
    have first := signPart_digit negative digit
      (r := r ++ (Parts.fraction n.places ++ (Parts.powerText n.power ++ rest)))
    rw [Parts.text, List.append_assoc, List.append_assoc, List.append_assoc, front, List.cons_append]
    exact first
  have some : n.whole.isEmpty = false := List.isEmpty_eq_false_iff.mpr h.some
  have marked : ((Parts.fraction n.places).isEmpty && (Parts.powerText n.power).isEmpty) = false := by
    rw [Bool.and_eq_false_iff]
    refine inexact.imp (fun places => ?_) (fun power => ?_)
    · simp [Parts.fraction, places]
    · obtain ⟨q, same⟩ := Option.ne_none_iff_exists'.mp power
      rw [same]
      rfl
  rw [readNumber_parts, sign]
  dsimp only
  rw [wholePart_digits h.some h.whole h.plain behind]
  dsimp only
  rw [placesPart_fraction h stops pointless]
  dsimp only
  rw [exponentPart_powerText h follows]
  dsimp only
  rw [some, marked, Parts.text]
  rfl

/-- What is written for a floating point number denotes the number. -/
theorem denotes_float {x : Binary64} (h : x.Canonical) : Denotes (write (.float x)) (.float x) := by
  rw [write]
  cases x with
  | nan => exact denotes_word (w := ("NaN".toList, .float .nan)) (by simp [words])
  | infinite s =>
    cases s
    · exact denotes_word (w := ("Infinity".toList, .float (.infinite false))) (by simp [words])
    · exact denotes_word (w := ("-Infinity".toList, .float (.infinite true))) (by simp [words])
  | finite s m e =>
    have sound := numeral_sound h
    obtain ⟨c, r, front⟩ := List.exists_cons_of_ne_nil sound.some
    have digit : c ∈ digits := mem_digits_iff.mpr (sound.whole c (front ▸ List.mem_cons_self))
    have number (rest : List Char) (follows : Follows rest) :=
      readNumber_text sound (numeral_inexact h) s follows
    have value : ((decimal? s (numeral m e).text).getD .nan) = .finite s m e := by
      rw [decimal?_numeral s h]
      rfl
    have text : (numeral m e).text = c :: (r ++ Parts.fraction (numeral m e).places ++ Parts.powerText (numeral m e).power) := by
      rw [Parts.text, front]
      rfl
    show Denotes (full (.finite s m e)).toList _
    rw [toList_full s h]
    rw [value] at number
    rw [text] at number ⊢
    exact denotes_number digit number

/-- What is written for a value, with floating point numbers of every kind, is read as the value. -/
theorem read_text {v : Value} (h : Expressible Canonical v) : read (text v) = .ok v :=
  h.read_text fun _ => denotes_float

/-! ## What is read -/

theorem expressible_word {w : List Char × Value} (h : w ∈ words) : Expressible Canonical w.2 := by
  simp only [words, List.mem_cons, List.not_mem_nil, or_false] at h
  rcases h with rfl | rfl | rfl | rfl | rfl | rfl
  · exact .null
  · exact .bool _
  · exact .bool _
  · exact .float trivial
  · exact .float trivial
  · exact .float trivial

theorem canonical_decimal? (negative : Bool) (s : List Char) :
    ((decimal? negative s).getD .nan).Canonical := by
  cases read : decimal? negative s with
  | none => trivial
  | some x =>
    rw [Parts.decimal?_eq] at read
    split at read
    · cases read
    · obtain ⟨_, -, rfl⟩ := Option.map_eq_some_iff.mp read
      exact canonical_ofDecimal _ _ _

theorem expressible_readNumber {s : List Char} {v : Value} (h : readNumber s = .ok (v, rest)) :
    Expressible Canonical v := by
  rw [readNumber_parts] at h
  dsimp only at h
  split at h
  · cases h
  · split at h
    · cases h
      exact .int _
    · cases h
      exact .float (canonical_decimal? _ _)

/-- What is read up to a depth is expressible, and so are items and members. -/
structure Sound (fuel : Nat) : Prop where
  value : ∀ {s rest v}, readValue fuel s = .ok (v, rest) → Expressible Canonical v
  items : ∀ {s rest vs}, readItems fuel s = .ok (vs, rest) → ∀ v ∈ vs, Expressible Canonical v
  entries : ∀ {s rest es}, readEntries fuel s = .ok (es, rest) →
    ∃ r : Record Value, es = Entries.ofRecord r ∧ ∀ e ∈ r, Expressible Canonical e.2

theorem Sound.readValue {fuel : Nat} (h : Sound fuel) {s : List Char} {v : Value}
    (read : readValue (fuel + 1) s = .ok (v, rest)) : Expressible Canonical v := by
  unfold Json.readValue at read
  split at read
  next =>
    obtain ⟨_, -, same⟩ := exists_of_map_eq_ok read
    cases same
    exact .str _
  next =>
    split at read
    next =>
      cases read
      exact .list (List.forall_mem_nil _)
    next =>
      obtain ⟨_, more, same⟩ := exists_of_map_eq_ok read
      cases same
      exact .list (h.items more)
  next =>
    split at read
    next =>
      cases read
      exact .dict (r := []) List.nodup_nil (List.forall_mem_nil _)
    next =>
      obtain ⟨⟨es, _⟩, more, same⟩ := exists_of_map_eq_ok read
      cases same
      obtain ⟨r, rfl, all⟩ := h.entries more
      rw [Entries.ofList_ofRecord]
      exact .dict (Record.nodup_keys_ofList r) fun e mem => all e (Record.mem_ofList mem)
  next =>
    split at read
    next found =>
      obtain ⟨w, mem, same⟩ := readWord?_eq_some found
      cases read
      have same : v = w.2 := same
      exact same ▸ expressible_word mem
    next => exact expressible_readNumber read

theorem Sound.readItems {fuel : Nat} (h : Sound fuel) {s : List Char} {vs : List Value}
    (read : readItems (fuel + 1) s = .ok (vs, rest)) : ∀ v ∈ vs, Expressible Canonical v := by
  unfold Json.readItems at read
  split at read
  next => cases read
  next v _ first =>
    have here := h.value first
    split at read
    next =>
      cases read
      exact List.forall_mem_cons.mpr ⟨here, List.forall_mem_nil _⟩
    next =>
      obtain ⟨_, more, same⟩ := exists_of_map_eq_ok read
      cases same
      exact List.forall_mem_cons.mpr ⟨here, h.items more⟩
    next => cases read

theorem Sound.readEntries {fuel : Nat} (h : Sound fuel) {s : List Char} {es : Entries}
    (read : readEntries (fuel + 1) s = .ok (es, rest)) :
    ∃ r : Record Value, es = Entries.ofRecord r ∧ ∀ e ∈ r, Expressible Canonical e.2 := by
  unfold Json.readEntries at read
  split at read
  next =>
    split at read
    next => cases read
    next k _ _ =>
      split at read
      next =>
        split at read
        next => cases read
        next v _ first =>
          have here := h.value first
          dsimp only at read
          split at read
          next =>
            cases read
            exact ⟨[(String.ofList k, v)], rfl, List.forall_mem_cons.mpr ⟨here, List.forall_mem_nil _⟩⟩
          next =>
            obtain ⟨⟨es, _⟩, more, same⟩ := exists_of_map_eq_ok read
            cases same
            obtain ⟨r, rfl, all⟩ := h.entries more
            exact ⟨(String.ofList k, v) :: r, rfl, List.forall_mem_cons.mpr ⟨here, all⟩⟩
          next => cases read
      next => cases read
  next => cases read

theorem sound (fuel : Nat) : Sound fuel := by
  induction fuel with
  | zero => exact ⟨by simp [Json.readValue], by simp [Json.readItems], by simp [Json.readEntries]⟩
  | succ fuel ih => exact ⟨ih.readValue, ih.readItems, ih.readEntries⟩

/-- What is read from a text has a JSON form, in which it is read again. -/
theorem expressible_of_read {s : String} {v : Value} (h : read s = .ok v) : Expressible Canonical v := by
  unfold read at h
  cases found : readAll s.toList with
  | error e => simp [found, Except.mapError] at h
  | ok v =>
    rw [found] at h
    cases h
    obtain ⟨fuel, _, _, found⟩ := readAll_ok found
    exact (sound fuel).value found

theorem expressible_of_readDecoded {s : String} {v : Value} (h : readDecoded s = .ok v) :
    Expressible Canonical v := by
  unfold readDecoded at h
  cases found : readAll.body s.toList with
  | error e => simp [found, Except.mapError] at h
  | ok v =>
    rw [found] at h
    cases h
    obtain ⟨fuel, _, _, found⟩ := readBody_ok found
    exact (sound fuel).value found

end Json

end Scaffold
