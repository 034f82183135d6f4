import Mathlib.Data.List.Nodup
import Scaffold.Value

/-!
# Records and the entries of mappings

What setting a name does to the names of a record, and what comes of entries that are read one after
the other: each name is there once, and where no name came in twice the entries are just what was read.

A mapping with nothing but texts for its keys is a record.  Setting and reading come to the same in
both, so what holds of records holds of such mappings.
-/

namespace Scaffold

namespace Record

variable {α : Type}

theorem put_of_not_mem {r : Record α} {k : String} (h : k ∉ keys r) (v : α) :
    put r k v = r ++ [(k, v)] := by
  induction r with
  | nil => rfl
  | cons e r ih =>
    obtain ⟨other, rest⟩ := not_or.mp (mt List.mem_cons.mpr h)
    rw [put, if_neg (Ne.symm other), ih rest]
    rfl

theorem length_put_le (r : Record α) (k : String) (v : α) : (put r k v).length ≤ r.length + 1 := by
  induction r with
  | nil => exact Nat.le_refl 1
  | cons e r ih =>
    rw [put]
    split
    · exact Nat.le_succ _
    · exact Nat.succ_le_succ ih

theorem keys_put_nodup {r : Record α} (h : (keys r).Nodup) (k : String) (v : α) :
    (keys (put r k v)).Nodup := by
  induction r with
  | nil => simp [put, keys]
  | cons e r ih =>
    obtain ⟨new, rest⟩ := List.nodup_cons.mp h
    rw [put]
    split
    next => exact h
    next other =>
      refine List.nodup_cons.mpr ⟨fun mem => ?_, ih rest⟩
      exact ((mem_keys_put r k e.1 v).mp mem).elim new other

/-- What is set is the new value or was there before. -/
theorem mem_put {r : Record α} {k : String} {v : α} {e : String × α} (h : e ∈ put r k v) :
    e = (k, v) ∨ e ∈ r := by
  induction r with
  | nil => exact .inl (List.mem_singleton.mp h)
  | cons f r ih =>
    rw [put] at h
    split at h
    next same =>
      rcases List.mem_cons.mp h with rfl | h
      · exact .inl (by rw [same])
      · exact .inr (List.mem_cons_of_mem _ h)
    next =>
      rcases List.mem_cons.mp h with rfl | h
      · exact .inr List.mem_cons_self
      · exact (ih h).imp_right (List.mem_cons_of_mem _)

theorem mem_putAll {r : Record α} {entries : List (String × α)} {e : String × α}
    (h : e ∈ putAll r entries) : e ∈ r ∨ e ∈ entries := by
  induction entries generalizing r with
  | nil => exact .inl h
  | cons f entries ih =>
    rcases ih (show e ∈ putAll (put r f.1 f.2) entries from h) with mem | mem
    · rcases mem_put mem with rfl | mem
      · exact .inr List.mem_cons_self
      · exact .inl mem
    · exact .inr (List.mem_cons_of_mem _ mem)

/-- Entries that are read one after the other come to no others. -/
theorem mem_ofList {entries : List (String × α)} {e : String × α} (h : e ∈ ofList entries) : e ∈ entries :=
  (mem_putAll h).resolve_left (by simp)

theorem nodup_keys_putAll {r : Record α} (h : (keys r).Nodup) (entries : List (String × α)) :
    (keys (putAll r entries)).Nodup := by
  induction entries generalizing r with
  | nil => exact h
  | cons e entries ih => exact ih (keys_put_nodup h e.1 e.2)

theorem mem_keys_putAll (r : Record α) (entries : List (String × α)) (k : String) :
    k ∈ keys (putAll r entries) ↔ k ∈ keys r ∨ k ∈ entries.map (·.1) := by
  induction entries generalizing r with
  | nil => simp [putAll]
  | cons e entries ih =>
    show k ∈ keys (putAll (put r e.1 e.2) entries) ↔ _
    rw [ih, mem_keys_put, or_assoc, List.map_cons, List.mem_cons]

theorem nodup_keys_ofList (entries : List (String × α)) : (keys (ofList entries)).Nodup :=
  nodup_keys_putAll (show (keys ([] : Record α)).Nodup from List.nodup_nil) entries

theorem mem_keys_ofList (entries : List (String × α)) (k : String) :
    k ∈ keys (ofList entries) ↔ k ∈ entries.map (·.1) := by
  rw [ofList, mem_keys_putAll]
  exact or_iff_right List.not_mem_nil

/-- Entries under names of their own are read as they stand. -/
theorem ofList_of_nodup {r : Record α} (h : (keys r).Nodup) : ofList r = r := by
  suffices ∀ acc : Record α, (keys (acc ++ r)).Nodup → putAll acc r = acc ++ r from this [] h
  induction r with
  | nil => simp [putAll]
  | cons e r ih =>
    intro acc distinct
    have new : e.1 ∉ keys acc := by
      rw [keys, List.map_append] at distinct
      exact fun mem => List.disjoint_of_nodup_append distinct mem List.mem_cons_self
    have regroup : acc ++ e :: r = (acc ++ [e]) ++ r := by simp
    show putAll (put acc e.1 e.2) r = _
    rw [put_of_not_mem new, regroup]
    exact ih (List.nodup_cons.mp h).2 _ (regroup ▸ distinct)

/-- Looking a name up after setting one that may be there already. -/
theorem get?_putNew (r : Record α) (k l : String) (v : α) :
    get? (putNew r k v) l = (get? r l).or (if k = l then some v else none) := by
  rw [putNew]
  split
  next there =>
    by_cases same : k = l
    · subst same
      obtain ⟨w, found⟩ := Option.isSome_iff_exists.mp there
      rw [found]
      rfl
    · rw [if_neg same, Option.or_none]
  next new =>
    rw [get?_put]
    by_cases same : k = l
    · subst same
      have absent : get? r k = none := by simpa [has] using new
      rw [absent, if_pos rfl]
      rfl
    · rw [if_neg same, if_neg same, Option.or_none]

@[simp] theorem keys_map {β : Type} (f : String × α → β) (r : Record α) :
    keys (r.map fun e => (e.1, f e)) = keys r := by
  simp [keys]

end Record

namespace Key

@[simp] theorem same_str (a b : String) : (Key.str a).same (.str b) = (a == b) := by
  simp [same, number?, BEq.beq]

theorem same_str_iff (k : Key) (s : String) : k.same (.str s) = true ↔ k = .str s := by
  cases k with
  | str a => simp
  | null | moment _ => exact iff_of_false nofun nofun
  | bool _ | int _ | float _ => exact iff_of_false (by simp [same, number?]) nofun

end Key

namespace Entries

@[simp] theorem toRecord_ofRecord (r : Record Value) : (ofRecord r).toRecord = r := by
  induction r with
  | nil => rfl
  | cons e r ih => exact congrArg (e :: ·) ih

theorem put_ofRecord (r : Record Value) (k : String) (v : Value) :
    (ofRecord r).put (.str k) v = ofRecord (r.put k v) := by
  induction r with
  | nil => rfl
  | cons e r ih =>
    show Entries.put ((.str e.1, e.2) :: ofRecord r) (.str k) v = _
    rw [Entries.put, Record.put, Key.same_str, ih]
    by_cases same : e.1 = k <;> simp [same, ofRecord]

/-- Entries under texts that are read one after the other are a record that was read so. -/
theorem ofList_ofRecord (r : Record Value) : ofList (ofRecord r) = ofRecord (Record.ofList r) := by
  suffices ∀ acc, (ofRecord r).foldl (fun es e => put es e.1 e.2) (ofRecord acc) =
      ofRecord (Record.putAll acc r) from this []
  induction r with
  | nil => exact fun _ => rfl
  | cons e r ih =>
    intro acc
    show (ofRecord r).foldl _ ((ofRecord acc).put (.str e.1) e.2) = _
    rw [put_ofRecord]
    exact ih _

theorem field?_ofRecord (r : Record Value) (k : String) : (ofRecord r).field? k = r.get? k := by
  induction r with
  | nil => rfl
  | cons e r ih =>
    rw [Record.get?_cons, ← ih]
    show Option.map _ (List.find? _ ((.str e.1, e.2) :: ofRecord r)) = _
    rw [List.find?_cons, Key.same_str]
    by_cases same : e.1 = k
    · simp [same]
    · rw [beq_false_of_ne same, if_neg same]
      rfl

theorem field?_cons (e : Key × Value) (es : Entries) (k : String) :
    Entries.field? (e :: es) k = if e.1 = .str k then some e.2 else es.field? k := by
  rw [field?, get?, List.find?_cons]
  by_cases here : e.1 = .str k
  · rw [(Key.same_str_iff _ _).mpr here, if_pos here]
    rfl
  · rw [Bool.eq_false_iff.mpr (mt (Key.same_str_iff _ _).mp here), if_neg here]
    rfl

/-- Looking a field up after setting one. -/
theorem field?_put (es : Entries) (k l : String) (v : Value) :
    (es.put (.str k) v).field? l = if k = l then some v else es.field? l := by
  induction es with
  | nil =>
    rw [put, field?_cons]
    simp only [Key.str.injEq]
  | cons e es ih =>
    rw [put]
    split
    next same =>
      simp only [field?_cons, (Key.same_str_iff _ _).mp same, Key.str.injEq]
      split <;> rfl
    next other =>
      rw [field?_cons, field?_cons, ih]
      by_cases here : e.1 = .str l
      · rw [if_pos here, if_pos here, if_neg]
        rintro rfl
        exact other ((Key.same_str_iff _ _).mpr here)
      · rw [if_neg here, if_neg here]

end Entries

end Scaffold
