import Scaffold.Proofs.Resolver.Kits

/-!
# No word is lost

However words are resolved, those that are used up and those that are left over are together the words
that were given, in their order; and at least one is used up.  A single word with slashes counts for
its parts.  So the two lists can be written one behind the other in a command, and resolving that
command again finds the same.
-/

namespace Scaffold

namespace Resolver

variable {t : Tree} {r : Resolver} {k : Kit} {token : String} {rest tokens : List String}
  {found : Resolved}

/-- The first words are used up, at least one, and the others are left over. -/
structure Accounted (words : List String) (found : Resolved) : Prop where
  some : found.consumed ≠ []
  all : found.consumed ++ found.remaining = words

theorem Found.accounted {d : Nat} (h : Found [token] rest d found) :
    Accounted (token :: rest) found where
  some := by
    rw [h.consumed]
    exact List.cons_ne_nil token _
  all := by
    rw [h.consumed, h.remaining, List.append_assoc, List.take_append_drop]
    rfl

/-- A path is one word, and it is a group only if recipes lie below it. -/
theorem direct?_found (h : r.direct? t token rest = some found) :
    Found [token] rest 0 found ∧ (found.isGroup = true → Recipe.isNestedIn t found.path = true) := by
  unfold direct? at h
  dsimp only at h
  split at h
  next => exact Option.some.inj h ▸ ⟨⟨rfl, rfl, Nat.zero_le _⟩, nofun⟩
  next =>
    split at h
    next => exact Option.some.inj h ▸ ⟨⟨rfl, rfl, Nat.zero_le _⟩, nofun⟩
    next =>
      split at h
      next nested => exact Option.some.inj h ▸ ⟨⟨rfl, rfl, Nat.zero_le _⟩, fun _ => nested⟩
      next => cases h

theorem inDirectories?_accounted (h : r.inDirectories? t tokens = some found) :
    Accounted tokens found := by
  obtain ⟨w, best, -, -, consumed, remaining⟩ := inDirectories?_eq_some h
  obtain ⟨-, D, -, -, walked, -⟩ := bestWalk?_eq_some best
  have names := walk?_names walked
  constructor
  · have length := List.length_take_of_le names.within
    rw [consumed]
    intro empty
    rw [empty, List.length_nil] at length
    exact absurd length (Nat.ne_of_lt names.some)
  · rw [consumed, remaining, List.take_append_drop]

/-- Words that are no path are found in the kit of the first, or else in the search directories. -/
theorem byName_eq_some (h : r.byName t token rest = .ok (some found)) :
    (∃ k, r.kits.get? token = some k ∧ inKit t k token rest = .ok (some found)) ∨
      r.inDirectories? t (token :: rest) = some found := by
  unfold byName at h
  cases kit : r.kits.get? token with
  | none =>
    rw [kit] at h
    exact .inr (Except.ok.inj h)
  | some k =>
    rw [kit] at h
    dsimp only at h
    rcases outcome : inKit t k token rest with e | _ | inside <;> rw [outcome] at h
    case error => cases h
    case ok.none => exact .inr (Except.ok.inj h)
    case ok.some =>
      obtain rfl := Option.some.inj (Except.ok.inj h)
      exact .inl ⟨k, rfl, outcome⟩

theorem resolveOnce_accounted (h : r.resolveOnce t tokens = .ok (some found)) :
    Accounted tokens found := by
  cases tokens with
  | nil => cases h
  | cons token rest =>
    rw [resolveOnce] at h
    split at h
    next => exact (direct?_found (Except.ok.inj h)).1.accounted
    next =>
      rcases byName_eq_some h with ⟨k, -, inside⟩ | outside
      · obtain ⟨d, counted, -⟩ := inKit_found inside
        exact counted.accounted
      · exact inDirectories?_accounted outside

/-- What is found is found at once, for the words as they are or for the parts of the only word. -/
theorem resolve_eq_some (h : r.resolve t tokens = .ok (some found)) :
    ∃ words, r.resolveOnce t words = .ok (some found) ∧
      (words = tokens ∨ parts? tokens = some words) := by
  rcases once : r.resolveOnce t tokens with e | _ | there
  case error =>
    rw [resolve, once] at h
    cases h
  case ok.some =>
    rw [resolve_of_resolveOnce once] at h
    obtain rfl := Option.some.inj (Except.ok.inj h)
    exact ⟨tokens, once, .inl rfl⟩
  case ok.none =>
    rw [resolve_of_resolveOnce_none once] at h
    cases apart : parts? tokens with
    | none =>
      rw [apart] at h
      cases h
    | some parts =>
      rw [apart] at h
      exact ⟨parts, h, .inr rfl⟩

/-- No word is lost, invented or moved: the words used up, at least one, and those left over are the
words given or the parts of the only word given.  Resolving them again finds the same. -/
theorem resolve_accounts (h : r.resolve t tokens = .ok (some found)) :
    found.consumed ≠ [] ∧
      (found.consumed ++ found.remaining = tokens ∨
        ∃ word, tokens = [word] ∧ '/' ∈ word.toList ∧
          found.consumed ++ found.remaining = (Text.split "/" word).filter (· != "")) ∧
      r.resolve t (found.consumed ++ found.remaining) = .ok (some found) := by
  obtain ⟨words, once, whole⟩ := resolve_eq_some h
  have accounted := resolveOnce_accounted once
  rw [accounted.all]
  refine ⟨accounted.some, ?_, resolve_of_resolveOnce once⟩
  rcases whole with whole | apart
  · exact .inl whole
  · obtain ⟨word, single, parts, -, slash, -⟩ := parts?_eq_some apart
    exact .inr ⟨word, single, slash, parts⟩

end Resolver

/-! ## A word taken apart -/

namespace Nested

open Resolver

/-- A recipe two directories deep in a search directory. -/
def tree : Tree where
  entries := [
    (["cookbooks"], .directory), (["cookbooks", "forms"], .directory),
    (["cookbooks", "forms", "input"], .directory),
    (["cookbooks", "forms", "input", "recipe.yml"], .file (.text "name: input\n"))]

def resolver : Resolver := { searchDirectories := [.ofString "cookbooks"], here := .ofString "/" }

/-- The first two parts lead to the recipe and the third is left over. -/
def input : Resolved :=
  ⟨false, .ofString "/cookbooks/forms/input/recipe.yml", ["forms", "input"], ["Email"], none, none,
    "input"⟩

theorem resolved : resolver.resolve tree ["forms/input//Email"] = .ok (some input) :=
  ok_of_toOption (by decide +kernel)

/-- A word with slashes is accounted for by its parts. -/
theorem accounts : resolver.resolve tree ["forms/input//Email"] = .ok (some input) ∧
    input.consumed ++ input.remaining = ["forms", "input", "Email"] ∧
    resolver.resolve tree ["forms", "input", "Email"] = .ok (some input) :=
  ⟨resolved, rfl, (resolve_accounts resolved).2.2⟩

end Nested

end Scaffold
