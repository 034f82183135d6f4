/-!
# Ordered records

Finite maps from names to values that keep the order in which names first came in.  Setting a name
that is already there changes its value and leaves its place, and so does merging another record over
one.
-/

namespace Scaffold

/-- Named values in the order in which the names came in. -/
abbrev Record (α : Type) := List (String × α)

namespace Record

variable {α β : Type}

/-- The value under a name. -/
def get? (r : Record α) (k : String) : Option α := (r.find? (·.1 == k)).map (·.2)

/-- Whether a name is there. -/
def has (r : Record α) (k : String) : Bool := (get? r k).isSome

/-- The names in order. -/
def keys (r : Record α) : List String := r.map (·.1)

/-- Sets the value under a name, in its old place if it has one and at the end otherwise. -/
def put : Record α → String → α → Record α
  | [], k, v => [(k, v)]
  | (k', v') :: r, k, v => if k' = k then (k', v) :: r else (k', v') :: put r k v

/-- Sets a name only if it is not there yet. -/
def putNew (r : Record α) (k : String) (v : α) : Record α := if has r k then r else put r k v

/-- `a` with every entry of `b` set in turn, the last of equal names winning. -/
def putAll (a : Record α) (b : List (String × α)) : Record α := b.foldl (fun r e => put r e.1 e.2) a

/-- A record of entries read one after the other. -/
def ofList (entries : List (String × α)) : Record α := putAll [] entries

/-- `b` over `a`: the names of `a` keep their places, and those that only `b` has follow. -/
def merge (a b : Record α) : Record α :=
  a.map (fun e => (e.1, (get? b e.1).getD e.2)) ++ b.filter fun e => !has a e.1

/-- The entries under names that satisfy `p`. -/
def restrict (p : String → Bool) (r : Record α) : Record α := r.filter fun e => p e.1

theorem get?_nil (k : String) : get? ([] : Record α) k = none := rfl

theorem get?_cons (e : String × α) (r : Record α) (k : String) :
    get? (e :: r) k = if e.1 = k then some e.2 else get? r k := by
  by_cases h : e.1 = k <;> simp [get?, h]

/-- Looking a name up after setting one. -/
theorem get?_put (r : Record α) (k l : String) (v : α) :
    get? (put r k v) l = if k = l then some v else get? r l := by
  induction r with
  | nil => simp [put, get?_cons, get?_nil]
  | cons e r ih =>
    obtain ⟨a, b⟩ := e
    by_cases h : a = k
    · subst h; by_cases h' : a = l <;> simp [put, get?_cons, h']
    · by_cases h' : a = l
      · subst h'; simp [put, get?_cons, h, Ne.symm h]
      · simp [put, get?_cons, h, h', ih]

theorem mem_keys_put (r : Record α) (k l : String) (v : α) :
    l ∈ keys (put r k v) ↔ l ∈ keys r ∨ l = k := by
  induction r with
  | nil => simp [put, keys]
  | cons e r ih =>
    obtain ⟨a, b⟩ := e
    simp only [keys] at ih
    by_cases h : a = k
    · subst h
      simp [put, keys, or_comm]
    · simp [put, keys, h, ih, or_assoc]

/-- A name is there exactly where it is among the names. -/
theorem has_eq_true_iff (r : Record α) (k : String) : has r k = true ↔ k ∈ keys r := by
  simp [has, get?, keys]

theorem get?_eq_none_iff (r : Record α) (k : String) : get? r k = none ↔ k ∉ keys r := by
  rw [← has_eq_true_iff, has, Option.not_isSome_iff_eq_none]

theorem get?_append (a b : Record α) (k : String) : get? (a ++ b) k = (get? a k).or (get? b k) := by
  simp [get?, List.find?_append, Option.map_or]

theorem get?_map (f : String → α → β) (r : Record α) (k : String) :
    get? (r.map fun e => (e.1, f e.1 e.2)) k = (get? r k).map (f k) := by
  induction r with
  | nil => rfl
  | cons e r ih =>
    rw [List.map_cons, get?_cons, get?_cons, ih]
    split
    next h => rw [← h]; rfl
    next => rfl

theorem get?_filter {p : String → Bool} {k : String} (h : p k = true) (r : Record α) :
    get? (r.filter fun e => p e.1) k = get? r k := by
  induction r with
  | nil => rfl
  | cons e r ih =>
    by_cases hk : e.1 = k
    · subst hk
      simp [h, get?_cons]
    · rw [List.filter_cons, get?_cons, if_neg hk, ← ih]
      split
      · rw [get?_cons, if_neg hk]
      · rfl

/-- The second record wins in a merge. -/
theorem get?_merge (a b : Record α) (k : String) : get? (merge a b) k = (get? b k).or (get? a k) := by
  unfold merge
  rw [get?_append, get?_map (fun l v => (get? b l).getD v)]
  cases ha : get? a k with
  | none =>
    have absent : (!has a k) = true := by simp [has, ha]
    rw [get?_filter (p := fun l => !has a l) absent]
    simp
  | some v => cases get? b k <;> rfl

end Record

end Scaffold
