import Mathlib.Data.List.Basic

/-!
# Results that may fail

How a result fails is passed on by what is done with it, and a list is mapped up to the first of its
members that has no image.
-/

namespace Scaffold

variable {ε α β : Type}

/-- A result fails, if it does, only in some ways. -/
def FailsOnly (p : ε → Prop) (r : Except ε α) : Prop := ∀ e, r = .error e → p e

/-- How a result fails, if it does. -/
def failure? : Except ε α → Option ε
  | .error e => some e
  | .ok _ => none

theorem failure?_eq_some {r : Except ε α} {e : ε} : failure? r = some e ↔ r = .error e := by
  cases r <;> simp [failure?]

/-- Elements have images up to the first that has none. -/
theorem mapM_cases (f : α → Except ε β) (xs : List α) :
    ((∀ x ∈ xs, ∃ y, f x = .ok y) ∧ ∃ ys, xs.mapM f = .ok ys) ∨
      ∃ x ∈ xs, ∃ failure, f x = .error failure ∧ xs.mapM f = .error failure := by
  induction xs with
  | nil => exact .inl ⟨nofun, [], rfl⟩
  | cons x xs ih =>
    rw [List.mapM_cons]
    cases first : f x with
    | error failure => exact .inr ⟨x, List.mem_cons_self, failure, first, rfl⟩
    | ok y =>
      rcases ih with ⟨all, ys, rest⟩ | ⟨x', hx', failure, raised, rest⟩
      · refine .inl ⟨?_, y :: ys, by rw [rest]; rfl⟩
        intro z hz
        rcases List.mem_cons.mp hz with rfl | hz
        · exact ⟨y, first⟩
        · exact all z hz
      · exact .inr ⟨x', List.mem_cons_of_mem x hx', failure, raised, by rw [rest]; rfl⟩

/-- A list has an image where each of its elements has one. -/
theorem exists_mapM_iff {f : α → Except ε β} {xs : List α} :
    (∃ ys, xs.mapM f = .ok ys) ↔ ∀ x ∈ xs, ∃ y, f x = .ok y := by
  rcases mapM_cases f xs with ⟨all, mapped⟩ | ⟨x, there, e, failed, mapped⟩
  · exact iff_of_true mapped all
  · refine iff_of_false (fun ⟨ys, image⟩ => ?_) fun all => ?_
    · rw [mapped] at image
      cases image
    · obtain ⟨y, image⟩ := all x there
      rw [failed] at image
      cases image

/-- The images of elements that all have one. -/
theorem map_of_mapM {f : α → Except ε β} {xs : List α} {ys : List β} (h : xs.mapM f = .ok ys) :
    xs.map f = ys.map .ok := by
  induction xs generalizing ys with
  | nil => cases h; rfl
  | cons x xs ih =>
    rw [List.mapM_cons] at h
    cases first : f x with
    | error e => rw [first] at h; cases h
    | ok y =>
      cases behind : xs.mapM f with
      | error e => rw [first, behind] at h; cases h
      | ok zs =>
        rw [first, behind] at h
        cases h
        rw [List.map_cons, List.map_cons, first, ih behind]

/-- What is in the images of elements is in that of one of them. -/
theorem mem_flatten_of_mapM {f : α → Except ε (List β)} {xs : List α} {ys : List (List β)} {b : β}
    (h : xs.mapM f = .ok ys) (there : b ∈ ys.flatten) : ∃ x ∈ xs, ∃ y, f x = .ok y ∧ b ∈ y := by
  obtain ⟨y, mem, here⟩ := List.mem_flatten.mp there
  have image : (.ok y : Except ε (List β)) ∈ xs.map f := by
    rw [map_of_mapM h]
    exact List.mem_map_of_mem mem
  obtain ⟨x, mem, same⟩ := List.mem_map.mp image
  exact ⟨x, mem, y, same, here⟩

/-- Each element has an image, which is among those of all. -/
theorem subset_flatten_of_mapM {f : α → Except ε (List β)} {xs : List α} {ys : List (List β)} {x : α}
    (h : xs.mapM f = .ok ys) (there : x ∈ xs) : ∃ y, f x = .ok y ∧ y ⊆ ys.flatten := by
  have image : f x ∈ ys.map .ok := by
    rw [← map_of_mapM h]
    exact List.mem_map_of_mem there
  obtain ⟨y, mem, same⟩ := List.mem_map.mp image
  exact ⟨y, same.symm, fun _ here => List.mem_flatten.mpr ⟨y, mem, here⟩⟩

theorem mapError_eq_ok {ε' : Type} {r : Except ε' α} {f : ε' → ε} {a : α} :
    r.mapError f = .ok a ↔ r = .ok a := by
  cases r <;> simp [Except.mapError]

/-- All that is in the images of elements satisfies a predicate where that in each of them does. -/
theorem exists_mapM_flatten_iff {f : α → Except ε (List β)} {xs : List α} {p : β → Prop} :
    (∃ ys, xs.mapM f = .ok ys ∧ ∀ b ∈ ys.flatten, p b) ↔ ∀ x ∈ xs, ∃ y, f x = .ok y ∧ ∀ b ∈ y, p b := by
  constructor
  · rintro ⟨ys, mapped, all⟩ x there
    obtain ⟨y, image, inside⟩ := subset_flatten_of_mapM mapped there
    exact ⟨y, image, fun b here => all b (inside here)⟩
  · intro each
    obtain ⟨ys, mapped⟩ := exists_mapM_iff.mpr fun x there => (each x there).imp fun _ => And.left
    refine ⟨ys, mapped, fun b here => ?_⟩
    obtain ⟨x, there, y, image, inside⟩ := mem_flatten_of_mapM mapped here
    obtain ⟨y', image', all⟩ := each x there
    obtain rfl : y' = y := Except.ok.inj (image'.symm.trans image)
    exact all b inside

/-- Where an operation of two parts succeeds, so do both parts. -/
theorem bind_eq_ok {x : Except ε α} {f : α → Except ε β} {b : β} (h : x >>= f = .ok b) :
    ∃ a, x = .ok a ∧ f a = .ok b := by
  cases x
  · cases h
  · exact ⟨_, rfl, h⟩

/-! ## Steps one behind the other -/

section Steps

variable {f : β → α → Except ε β} {xs : List α} {b b' : β}

/-- What holds at the start and is passed on by each step holds at the end, where all steps succeed. -/
theorem foldlM_induction {P : List α → β → Prop} (start : P [] b)
    (step : ∀ done x rest b b', xs = done ++ x :: rest → f b x = .ok b' → P done b → P (done ++ [x]) b')
    (h : xs.foldlM f b = .ok b') : P xs b' := by
  have behind (done rest : List α) (b : β) (parts : xs = done ++ rest) (before : P done b)
      (h : rest.foldlM f b = .ok b') : P xs b' := by
    induction rest generalizing done b with
    | nil =>
      cases h
      rwa [parts, List.append_nil]
    | cons x rest ih =>
      rw [List.foldlM_cons] at h
      obtain ⟨b₁, stepped, h⟩ := bind_eq_ok h
      refine ih (done ++ [x]) b₁ ?_ (step done x rest b b₁ parts stepped before) h
      rw [parts, List.append_assoc, List.singleton_append]
  exact behind [] xs b rfl start h

/-- Steps on more than is looked at are, as far as it is looked at, the steps on that. -/
theorem map_foldlM {γ δ : Type} {g : γ → δ → Except ε γ} {π : γ → β} {σ : δ → α}
    (step : ∀ c d, (g c d).map π = f (π c) (σ d)) (ds : List δ) (c : γ) :
    (ds.foldlM g c).map π = (ds.map σ).foldlM f (π c) := by
  induction ds generalizing c with
  | nil => rfl
  | cons d ds ih =>
    rw [List.foldlM_cons, List.map_cons, List.foldlM_cons, ← step]
    cases g c d with
    | error e => rfl
    | ok c' => exact ih c'

end Steps

namespace FailsOnly

variable {p q : ε → Prop}

theorem ok (a : α) : FailsOnly p (.ok a : Except ε α) := fun _ h => nomatch h

theorem error_iff {e : ε} : FailsOnly p (.error e : Except ε α) ↔ p e :=
  ⟨fun h => h e rfl, fun h e' same => by cases same; exact h⟩

theorem mono {r : Except ε α} (h : FailsOnly p r) (weaker : ∀ e, p e → q e) : FailsOnly q r :=
  fun e failed => weaker e (h e failed)

/-- A result that may fail in no way succeeds. -/
theorem exists_iff {r : Except ε α} (never : ∀ e, ¬ p e) : FailsOnly p r ↔ ∃ a, r = .ok a := by
  cases r with
  | error e => exact ⟨fun h => absurd (error_iff.mp h) (never e), fun ⟨_, same⟩ => nomatch same⟩
  | ok a => exact ⟨fun _ => ⟨a, rfl⟩, fun _ => ok a⟩

theorem bind_iff {x : Except ε α} {f : α → Except ε β} :
    FailsOnly p (x >>= f) ↔ FailsOnly p x ∧ ∀ a, x = .ok a → FailsOnly p (f a) := by
  cases x with
  | error e => exact ⟨fun h => ⟨error_iff.mpr (h e rfl), nofun⟩, fun h => error_iff.mpr (h.1 e rfl)⟩
  | ok a => exact ⟨fun h => ⟨ok a, fun a' same => by cases same; exact h⟩, fun h => h.2 a rfl⟩

theorem bind {x : Except ε α} {f : α → Except ε β} (hx : FailsOnly p x)
    (hf : ∀ a, x = .ok a → FailsOnly p (f a)) : FailsOnly p (x >>= f) := bind_iff.mpr ⟨hx, hf⟩

theorem mapError_iff {ε' : Type} {r : Except ε' α} {f : ε' → ε} :
    FailsOnly p (r.mapError f) ↔ FailsOnly (fun e => p (f e)) r := by
  cases r with
  | error e =>
    rw [error_iff]
    exact error_iff
  | ok a => exact ⟨fun _ => ok a, fun _ => ok a⟩

theorem foldlM {f : β → α → Except ε β} {xs : List α} {b : β} (step : ∀ b x, FailsOnly p (f b x)) :
    FailsOnly p (xs.foldlM f b) := by
  induction xs generalizing b with
  | nil => exact ok b
  | cons x xs ih =>
    rw [List.foldlM_cons]
    exact (step b x).bind fun b₁ _ => ih

theorem mapM {f : α → Except ε β} {xs : List α} (h : ∀ x ∈ xs, FailsOnly p (f x)) :
    FailsOnly p (xs.mapM f) := by
  rcases mapM_cases f xs with ⟨-, ys, mapped⟩ | ⟨x, there, e, failed, mapped⟩
  · rw [mapped]
    exact ok ys
  · rw [mapped]
    exact error_iff.mpr (h x there e failed)

end FailsOnly

end Scaffold
