import Scaffold.Proofs.Resolver.Directories

/-!
# Recipes in kits

The words behind the name of a kit may lead to recipes on several ways: into the cookbook that the next
word names, into the directories of the kit, and into the cookbook that stands for the kit.  In a
cookbook they may in turn walk to a recipe, name one, or leave it to the recipe that stands for the
cookbook.

Inside a cookbook the longest match is found, and a group only if there is no match.  Between the ways
no comparison is made: the first that applies is followed, whatever the others would lead to.  So the
longest match of the kit is found exactly where the way that is followed leads as far as the others.  A
cookbook with a default recipe, and a group in the directories of the kit, can each hide a match that
is longer or that is the only one.
-/

namespace Scaffold

namespace Resolver

variable {t : Tree} {k : Kit} {c : Cookbook} {words : List String} {d : Nat} {file : Path}

/-! ## In a cookbook -/

/-- A walk comes to a recipe, or else to a group or nothing. -/
theorem recipe_or_groups (t : Tree) (base : Path) (words : List String) :
    (∃ file d, walk? t base words = some ⟨false, file, d⟩) ∨
      ∀ w : Walk, walk? t base words = some w → w.isGroup = true := by
  by_cases walks : ∃ w : Walk, walk? t base words = some w ∧ w.isGroup = false
  · obtain ⟨⟨isGroup, file, d⟩, walked, rfl⟩ := walks
    exact .inl ⟨file, d, walked⟩
  · refine .inr fun w walked => ?_
    by_contra recipe
    exact walks ⟨w, walked, by simpa using recipe⟩

/-- The recipe that the next word names. -/
def declared? (t : Tree) (c : Cookbook) : List String → Except Failure (Option Path)
  | [] => .ok none
  | word :: _ => c.recipe? t word

/-- What stands for a kit or a cookbook, if anything is said to. -/
def standing? {α : Type} (v : Value) (find : String → Except Failure (Option α)) :
    Except Failure (Option α) :=
  if v.truthy then Kit.named v find else .ok none

/-- The group that a cookbook is, or that the words lead to in it. -/
def groupIn (t : Tree) (k : Kit) (c : Cookbook) (consumed rest : List String) :
    Option Walk → Except Failure (Option Resolved)
  | some w => .ok (some ⟨true, w.path, consumed ++ rest.take w.depth, rest.drop w.depth, k.name,
      c.name, none⟩)
  | none => do
    let recipes ← c.recipes t
    if !recipes.isEmpty || Recipe.isNestedIn t c.path then
      return some ⟨true, c.path, consumed, rest, k.name, c.name, none⟩
    return none

variable {consumed rest : List String}

theorem inCookbook_of_walked (h : walk? t c.path rest = some ⟨false, file, d⟩) :
    inCookbook t k c consumed rest =
      .ok (some ⟨false, file, consumed ++ rest.take d, rest.drop d, k.name, c.name,
        some file.parent.name⟩) := by
  rw [inCookbook, h]
  rfl

theorem inCookbook_of_not_walked
    (h : ∀ w : Walk, walk? t c.path rest = some w → w.isGroup = true) :
    inCookbook t k c consumed rest =
      match declared? t c rest with
      | .error e => .error e
      | .ok (some file) =>
        .ok (some ⟨false, file, consumed ++ rest.take 1, rest.drop 1, k.name, c.name, rest.head?⟩)
      | .ok none =>
        match standing? c.default (c.recipe? t) with
        | .error e => .error e
        | .ok (some file) =>
          .ok (some ⟨false, file, consumed, rest, k.name, c.name, some c.default.plain⟩)
        | .ok none => groupIn t k c consumed rest (walk? t c.path rest) := by
  rw [inCookbook, standing?]
  generalize walk? t c.path rest = walked at h ⊢
  rcases walked with _ | ⟨_ | _, p, d⟩
  case some.false => cases h _ rfl
  all_goals
    cases rest with
    | nil =>
      cases c.default.truthy with
      | false => rfl
      | true => rcases Kit.named c.default (c.recipe? t) with e | _ | file <;> rfl
    | cons word tail =>
      dsimp -zeta only [declared?]
      rcases c.recipe? t word with e | _ | file
      case error | ok.some => rfl
      case ok.none =>
        cases c.default.truthy with
        | false => rfl
        | true => rcases Kit.named c.default (c.recipe? t) with e | _ | file <;> rfl

theorem standing?_eq_some {α : Type} {v : Value} {find : String → Except Failure (Option α)} {a : α} :
    standing? v find = .ok (some a) ↔
      ∃ name, v = .str name ∧ name ≠ "" ∧ find name = .ok (some a) := by
  constructor
  · intro h
    rw [standing?] at h
    split at h
    next given =>
      cases v <;> try cases h
      case str name => exact ⟨name, rfl, by simpa [Value.truthy] using given, h⟩
    next => cases h
  · rintro ⟨name, rfl, some, found⟩
    rw [standing?, if_pos (by simpa [Value.truthy] using some)]
    exact found

theorem declared?_eq_some : declared? t c rest = .ok (some file) ↔
    ∃ word tail, rest = word :: tail ∧ c.recipe? t word = .ok (some file) := by
  cases rest with
  | nil => simp [declared?]
  | cons word tail => simp [declared?]

end Resolver

/-- Results can be computed and compared where failures cannot. -/
theorem ok_of_toOption {α : Type} {x : Except Failure α} {a : α} (h : x.toOption = some a) :
    x = .ok a := by
  cases x with
  | error e => cases h
  | ok b => exact congrArg _ (Option.some.inj h)

/-- Where one recipe of a cookbook can be looked up, so can any other. -/
theorem Cookbook.recipe?_ok {t : Tree} {c : Cookbook} {name : String} {found : Option Path}
    (h : c.recipe? t name = .ok found) (other : String) : ∃ f, c.recipe? t other = .ok f := by
  unfold Cookbook.recipe? at h ⊢
  cases known : c.recipes t with
  | error e =>
    rw [known] at h
    cases h
  | ok recipes => exact ⟨_, rfl⟩

/-- The words lead to a recipe in a cookbook, and `d` of them are used up on the way: they walk to it,
the next word is its name, or it stands for the cookbook. -/
inductive Cookbook.Offers (t : Tree) (c : Cookbook) : List String → Nat → Path → Prop
  | walked {words : List String} {d : Nat} {file : Path} :
      Resolver.RecipeAt t c.path words d file → Offers t c words d file
  | declared {word : String} {rest : List String} {file : Path} :
      c.recipe? t word = .ok (some file) → Offers t c (word :: rest) 1 file
  | standing {words : List String} {name : String} {file : Path} :
      c.default = .str name → name ≠ "" → c.recipe? t name = .ok (some file) →
      Offers t c words 0 file

namespace Resolver

/-- What is found behind `consumed` words, of which `d` more are used up. -/
structure Found (consumed rest : List String) (d : Nat) (found : Resolved) : Prop where
  consumed : found.consumed = consumed ++ rest.take d
  remaining : found.remaining = rest.drop d
  within : d ≤ rest.length

variable {found : Resolved} {token : String}

theorem Found.length {d : Nat} {found : Resolved} (h : Found [token] rest d found) :
    found.consumed.length = d + 1 := by
  rw [h.consumed, List.length_append, List.length_take, Nat.min_eq_left h.within,
    List.length_singleton, Nat.add_comm]

theorem groupIn_found (h : groupIn t k c consumed rest (walk? t c.path rest) = .ok (some found)) :
    ∃ d, Found consumed rest d found ∧ found.isGroup = true := by
  cases walked : walk? t c.path rest with
  | some w =>
    rw [walked] at h
    obtain rfl := Option.some.inj (Except.ok.inj h)
    exact ⟨w.depth, ⟨rfl, rfl, (walk?_names walked).within⟩, rfl⟩
  | none =>
    rw [walked, groupIn] at h
    cases known : c.recipes t with
    | error e =>
      rw [known] at h
      cases h
    | ok recipes =>
      simp only [known, Bind.bind, Except.bind] at h
      split at h
      next =>
        obtain rfl := Option.some.inj (Except.ok.inj h)
        exact ⟨0, ⟨by simp, rfl, Nat.zero_le _⟩, rfl⟩
      next => cases h

/-- In a cookbook the longest match is found: a recipe that uses up as many words as any that the words
lead to, or a group if they lead to none. -/
theorem inCookbook_found (h : inCookbook t k c consumed rest = .ok (some found)) :
    ∃ d, Found consumed rest d found ∧
      (found.isGroup = false →
        c.Offers t rest d found.path ∧ ∀ e f, c.Offers t rest e f → e ≤ d) ∧
      (found.isGroup = true → ∀ e f, ¬c.Offers t rest e f) := by
  rcases recipe_or_groups t c.path rest with ⟨file, d, walked⟩ | group
  case inl =>
    obtain ⟨-, there, deepest⟩ := walk?_eq_recipe.mp ⟨walked, rfl⟩
    rw [inCookbook_of_walked walked] at h
    obtain rfl := Option.some.inj (Except.ok.inj h)
    refine ⟨d, ⟨rfl, rfl, there.names.within⟩, fun _ => ⟨.walked there, ?_⟩, fun group => nomatch group⟩
    rintro e f (other | - | -)
    · exact deepest e f other
    · exact there.names.some
    · exact Nat.zero_le d
  case inr =>
    have unwalked (e : Nat) (f : Path) : ¬RecipeAt t c.path rest e f := fun there => by
      obtain ⟨w, walked, recipe, -⟩ := there.walk?
      rw [group w walked] at recipe
      cases recipe
    rw [inCookbook_of_not_walked group] at h
    rcases declared : declared? t c rest with e | _ | file <;> rw [declared] at h
    case error => cases h
    case ok.some =>
      obtain rfl := Option.some.inj (Except.ok.inj h)
      obtain ⟨word, tail, rfl, named⟩ := declared?_eq_some.mp declared
      refine ⟨1, ⟨rfl, rfl, by simp⟩, fun _ => ⟨.declared named, ?_⟩, fun group => nomatch group⟩
      rintro e f (other | - | -)
      · exact absurd other (unwalked e f)
      · exact Nat.le_refl 1
      · exact Nat.zero_le 1
    case ok.none =>
      have undeclared (word : String) (tail : List String) (f : Path) (split : rest = word :: tail) :
          c.recipe? t word ≠ .ok (some f) := fun named => by
        rw [declared?_eq_some.mpr ⟨word, tail, split, named⟩] at declared
        cases declared
      dsimp only at h
      rcases standing : standing? c.default (c.recipe? t) with e | _ | file <;> rw [standing] at h
      case error => cases h
      case ok.some =>
        obtain rfl := Option.some.inj (Except.ok.inj h)
        obtain ⟨name, isName, given, named⟩ := standing?_eq_some.mp standing
        refine ⟨0, ⟨by simp, rfl, Nat.zero_le _⟩, fun _ => ⟨.standing isName given named, ?_⟩,
          fun group => nomatch group⟩
        rintro e f (other | other | -)
        · exact absurd other (unwalked e f)
        · exact absurd other (undeclared _ _ f rfl)
        · exact Nat.le_refl 0
      case ok.none =>
        have nothing (e : Nat) (f : Path) : ¬c.Offers t rest e f := by
          rintro (other | other | ⟨isName, given, named⟩)
          · exact unwalked e f other
          · exact undeclared _ _ f rfl other
          · rw [standing?_eq_some.mpr ⟨_, isName, given, named⟩] at standing
            cases standing
        obtain ⟨d, counted, isGroup⟩ := groupIn_found h
        refine ⟨d, counted, fun recipe => ?_, fun _ => nothing⟩
        rw [isGroup] at recipe
        cases recipe

theorem inCookbook_total (h : c.Offers t rest d file) :
    ∃ found, inCookbook t k c consumed rest = .ok (some found) := by
  rcases recipe_or_groups t c.path rest with ⟨file, d, walked⟩ | group
  case inl => exact ⟨_, inCookbook_of_walked walked⟩
  case inr =>
    rw [inCookbook_of_not_walked group]
    cases h with
    | walked there =>
      obtain ⟨w, walked, recipe, -⟩ := there.walk?
      rw [group w walked] at recipe
      cases recipe
    | declared named =>
      rw [declared?_eq_some.mpr ⟨_, _, rfl, named⟩]
      exact ⟨_, rfl⟩
    | standing isName given named =>
      have known : ∃ f, declared? t c rest = .ok f := by
        cases rest with
        | nil => exact ⟨none, rfl⟩
        | cons word tail => exact Cookbook.recipe?_ok named word
      obtain ⟨f, declared⟩ := known
      rw [declared, standing?_eq_some.mpr ⟨_, isName, given, named⟩]
      cases f <;> exact ⟨_, rfl⟩

/-! ## In a kit -/

/-- The cookbook that the next word names. -/
def named? (t : Tree) (k : Kit) : List String → Except Failure (Option Cookbook)
  | [] => .ok none
  | word :: _ => k.cookbook? t word

theorem inKit_of_named (h : named? t k rest = .ok (some c)) :
    inKit t k token rest = inCookbook t k c (token :: rest.take 1) (rest.drop 1) := by
  cases rest with
  | nil => cases h
  | cons word tail =>
    rw [named?] at h
    unfold inKit
    dsimp -zeta only
    rw [h]
    rfl

theorem inKit_of_error {e : Failure} (h : named? t k rest = .error e) :
    inKit t k token rest = .error e := by
  cases rest with
  | nil => cases h
  | cons word tail =>
    rw [named?] at h
    unfold inKit
    dsimp -zeta only
    rw [h]
    rfl

theorem inKit_of_not_named (h : named? t k rest = .ok none) :
    inKit t k token rest =
      match walk? t k.path rest with
      | some w => .ok (some ⟨w.isGroup, w.path, token :: rest.take w.depth, rest.drop w.depth,
          k.name, none, none⟩)
      | none =>
        match standing? k.default (k.cookbook? t) with
        | .error e => .error e
        | .ok (some c) => inCookbook t k c [token] rest
        | .ok none =>
          .ok (if rest.isEmpty && Recipe.isNestedIn t k.path then
            some ⟨true, k.path, [token], [], k.name, none, none⟩ else none) := by
  unfold inKit standing?
  cases rest with
  | nil =>
    have stays : walk? t k.path [] = none := rfl
    rw [stays]
    cases k.default.truthy with
    | false =>
      cases Recipe.isNestedIn t k.path <;> rfl
    | true =>
      rcases Kit.named k.default (k.cookbook? t) with e | _ | c
      · rfl
      · cases Recipe.isNestedIn t k.path <;> rfl
      · rfl
  | cons word tail =>
    rw [named?] at h
    dsimp -zeta only
    rw [h]
    rcases walk? t k.path (word :: tail) with _ | w
    · cases k.default.truthy with
      | false => rfl
      | true =>
        rcases Kit.named k.default (k.cookbook? t) with e | _ | c <;> rfl
    · rfl

end Resolver

namespace Kit

/-- The words behind the name of a kit lead to a recipe, and `d` of them are used up on the way: in the
cookbook that the next word names, in the directories of the kit, or in the cookbook that stands for
the kit. -/
inductive Offers (t : Tree) (k : Kit) : List String → Nat → Path → Prop
  | named {word : String} {rest : List String} {c : Cookbook} {d : Nat} {file : Path} :
      k.cookbook? t word = .ok (some c) → c.Offers t rest d file →
      Offers t k (word :: rest) (d + 1) file
  | inside {words : List String} {d : Nat} {file : Path} :
      Resolver.RecipeAt t k.path words d file → Offers t k words d file
  | standing {words : List String} {name : String} {c : Cookbook} {d : Nat} {file : Path} :
      k.default = .str name → name ≠ "" → k.cookbook? t name = .ok (some c) →
      c.Offers t words d file → Offers t k words d file

/-- They lead there on the way that is followed.  This is the one into the cookbook that the next word
names.  If it names none, it is the one into the directories of the kit, as soon as the words lead to a
recipe or a group there, and only otherwise the one into the cookbook that stands for the kit. -/
inductive Leads (t : Tree) (k : Kit) : List String → Nat → Path → Prop
  | named {word : String} {rest : List String} {c : Cookbook} {d : Nat} {file : Path} :
      k.cookbook? t word = .ok (some c) → c.Offers t rest d file →
      Leads t k (word :: rest) (d + 1) file
  | inside {words : List String} {d : Nat} {file : Path} :
      Resolver.named? t k words = .ok none → Resolver.RecipeAt t k.path words d file →
      Leads t k words d file
  | standing {words : List String} {name : String} {c : Cookbook} {d : Nat} {file : Path} :
      Resolver.named? t k words = .ok none → Resolver.walk? t k.path words = none →
      k.default = .str name → name ≠ "" → k.cookbook? t name = .ok (some c) →
      c.Offers t words d file → Leads t k words d file

variable {t : Tree} {k : Kit} {c : Cookbook} {words : List String} {d : Nat} {file : Path}

theorem Leads.offers (h : k.Leads t words d file) : k.Offers t words d file := by
  cases h with
  | named found there => exact .named found there
  | inside _ there => exact .inside there
  | standing _ _ isName given found there => exact .standing isName given found there

/-- Where the next word names a cookbook, the words lead to recipes of that cookbook only. -/
theorem leads_of_named {word : String} {rest : List String} (found : k.cookbook? t word = .ok (some c))
    (h : k.Leads t (word :: rest) d file) : ∃ e, d = e + 1 ∧ c.Offers t rest e file := by
  cases h with
  | named same there =>
    rw [found] at same
    obtain rfl := Option.some.inj (Except.ok.inj same)
    exact ⟨_, rfl, there⟩
  | inside unnamed _ | standing unnamed _ _ _ _ _ =>
    rw [Resolver.named?, found] at unnamed
    cases unnamed

/-- Where they lead to something in the directories of the kit, they lead to recipes there only. -/
theorem leads_of_walk? {w : Resolver.Walk} (unnamed : Resolver.named? t k words = .ok none)
    (walked : Resolver.walk? t k.path words = some w) (h : k.Leads t words d file) :
    Resolver.RecipeAt t k.path words d file := by
  cases h with
  | named found _ =>
    rw [Resolver.named?, found] at unnamed
    cases unnamed
  | inside _ there => exact there
  | standing _ none _ _ _ _ =>
    rw [walked] at none
    cases none

theorem leads_of_standing (unnamed : Resolver.named? t k words = .ok none)
    (unwalked : Resolver.walk? t k.path words = none) (h : k.Leads t words d file) :
    ∃ c, Resolver.standing? k.default (k.cookbook? t) = .ok (some c) ∧ c.Offers t words d file := by
  cases h with
  | named found _ =>
    rw [Resolver.named?, found] at unnamed
    cases unnamed
  | inside _ there => exact absurd there ((Resolver.walk?_eq_none.mp unwalked).1 _ _)
  | standing _ _ isName given found there =>
    exact ⟨_, Resolver.standing?_eq_some.mpr ⟨_, isName, given, found⟩, there⟩

end Kit

namespace Resolver

/-- In a kit the longest match on the way that is followed is found, or a group if there is none. -/
theorem inKit_found (h : inKit t k token rest = .ok (some found)) :
    ∃ d, Found [token] rest d found ∧
      (found.isGroup = false →
        k.Leads t rest d found.path ∧ ∀ e f, k.Leads t rest e f → e ≤ d) ∧
      (found.isGroup = true → ∀ e f, ¬k.Leads t rest e f) := by
  rcases named : named? t k rest with e | _ | c
  case error =>
    rw [inKit_of_error named] at h
    cases h
  case ok.some =>
    cases rest with
    | nil => cases named
    | cons word tail =>
      rw [inKit_of_named named] at h
      obtain ⟨d, ⟨consumed, remaining, within⟩, recipe, group⟩ := inCookbook_found h
      refine ⟨d + 1, ⟨?_, remaining, Nat.succ_le_succ within⟩, fun isRecipe => ?_, fun isGroup => ?_⟩
      · rw [consumed]
        rfl
      · obtain ⟨there, longest⟩ := recipe isRecipe
        refine ⟨.named named there, fun e f leads => ?_⟩
        obtain ⟨e, rfl, other⟩ := Kit.leads_of_named named leads
        exact Nat.succ_le_succ (longest e f other)
      · intro e f leads
        obtain ⟨e, rfl, other⟩ := Kit.leads_of_named named leads
        exact group isGroup e f other
  case ok.none =>
    rw [inKit_of_not_named named] at h
    cases walked : walk? t k.path rest with
    | some w =>
      rw [walked] at h
      obtain rfl := Option.some.inj (Except.ok.inj h)
      refine ⟨w.depth, ⟨rfl, rfl, (walk?_names walked).within⟩, fun isRecipe => ?_, fun isGroup => ?_⟩
      · obtain ⟨-, there, deepest⟩ := walk?_eq_recipe.mp ⟨walked, isRecipe⟩
        exact ⟨.inside named there,
          fun e f leads => deepest e f (Kit.leads_of_walk? named walked leads)⟩
      · have none := (walk?_eq_group.mp ⟨walked, isGroup⟩).2.1
        exact fun e f leads => none e f (Kit.leads_of_walk? named walked leads)
    | none =>
      rw [walked] at h
      dsimp only at h
      rcases standing : standing? k.default (k.cookbook? t) with e | _ | c <;> rw [standing] at h
      case error => cases h
      case ok.some =>
        obtain ⟨d, counted, recipe, group⟩ := inCookbook_found h
        have same {e : Nat} {f : Path} (leads : k.Leads t rest e f) : c.Offers t rest e f := by
          obtain ⟨c', isC, there⟩ := Kit.leads_of_standing named walked leads
          rw [standing] at isC
          obtain rfl := Option.some.inj (Except.ok.inj isC)
          exact there
        obtain ⟨name, isName, given, here⟩ := standing?_eq_some.mp standing
        refine ⟨d, counted, fun isRecipe => ?_, fun isGroup e f leads => group isGroup e f (same leads)⟩
        obtain ⟨there, longest⟩ := recipe isRecipe
        exact ⟨.standing named walked isName given here there,
          fun e f leads => longest e f (same leads)⟩
      case ok.none =>
        dsimp only at h
        split at h
        next nested =>
          obtain rfl := Option.some.inj (Except.ok.inj h)
          obtain rfl : rest = [] := by
            rw [Bool.and_eq_true, List.isEmpty_iff] at nested
            exact nested.1
          refine ⟨0, ⟨rfl, rfl, Nat.le_refl 0⟩, fun isRecipe => ?_, fun _ e f leads => ?_⟩
          · cases isRecipe
          obtain ⟨c, isC, -⟩ := Kit.leads_of_standing named walked leads
          rw [standing] at isC
          cases isC
        next => cases h

theorem inKit_total (h : k.Leads t rest d file) :
    ∃ found, inKit t k token rest = .ok (some found) := by
  cases h with
  | @named word tail c _ _ found there =>
    have names : named? t k (word :: tail) = .ok (some c) := found
    rw [inKit_of_named names]
    exact inCookbook_total there
  | inside unnamed there =>
    obtain ⟨w, walked, -⟩ := there.walk?
    rw [inKit_of_not_named unnamed, walked]
    exact ⟨_, rfl⟩
  | standing unnamed unwalked isName given found there =>
    rw [inKit_of_not_named unnamed, unwalked, standing?_eq_some.mpr ⟨_, isName, given, found⟩]
    exact inCookbook_total there

/-! ## The longest match of a kit -/

/-- The resolver without the kit of a name. -/
def without (r : Resolver) (token : String) : Resolver :=
  { r with kits := r.kits.filter (·.1 != token) }

variable {r : Resolver}

theorem resolveOnce_without {words : List String} (h : words.head? ≠ some token) :
    (r.without token).resolveOnce t words = r.resolveOnce t words := by
  cases words with
  | nil => rfl
  | cons word tail =>
    have other : (word != token) = true := by simpa using h
    have same : (r.without token).kits.get? word = r.kits.get? word :=
      Record.get?_filter (p := (· != token)) other r.kits
    have direct : (r.without token).direct? t word tail = r.direct? t word tail := rfl
    have outside : (r.without token).inDirectories? t (word :: tail) = r.inDirectories? t (word :: tail) :=
      rfl
    rw [resolveOnce, resolveOnce, byName, byName, same, direct, outside]

/-- Words that come to nothing in the kit are resolved as if there were no such kit. -/
theorem resolve_of_inKit_none (kit : r.kits.get? token = some k) (plain : looksLikePath token = false)
    (nothing : inKit t k token rest = .ok none) :
    r.resolve t (token :: rest) = (r.without token).resolve t (token :: rest) := by
  have absent : (r.without token).kits.get? token = none := by
    rw [← Option.not_isSome_iff_eq_none, ← Record.has, Record.has_eq_true_iff]
    simp [without, Record.keys]
  have first : r.resolveOnce t (token :: rest) = .ok (r.inDirectories? t (token :: rest)) := by
    refine resolveOnce_eq_inDirectories? plain fun k' kit' => ?_
    rw [kit] at kit'
    exact Option.some.inj kit' ▸ nothing
  have second : (r.without token).resolveOnce t (token :: rest) =
      .ok (r.inDirectories? t (token :: rest)) := by
    refine resolveOnce_eq_inDirectories? (r := r.without token) plain fun k' kit' => ?_
    rw [absent] at kit'
    cases kit'
  cases outside : r.inDirectories? t (token :: rest) with
  | some found =>
    rw [outside] at first second
    rw [resolve_of_resolveOnce first, resolve_of_resolveOnce second]
  | none =>
    rw [outside] at first second
    rw [resolve_of_resolveOnce_none first, resolve_of_resolveOnce_none second]
    cases apart : parts? (token :: rest) with
    | none => rfl
    | some parts =>
      obtain ⟨word, split, -, -, slash, none⟩ := parts?_eq_some apart
      obtain ⟨rfl, -⟩ := List.cons.inj split
      have other : parts.head? ≠ some token := fun first =>
        none token (List.mem_of_head? first) slash
      exact (resolveOnce_without other).symm

/-- The longest match is found for the words behind the name of a kit. -/
structure FindsLongest (t : Tree) (r : Resolver) (k : Kit) (token : String) (rest : List String) :
    Prop where
  /-- Where they lead to a recipe on any way, a recipe is found, and none to which they lead uses up
  more words. -/
  longest : ∀ d file, k.Offers t rest d file → ∃ found,
    r.resolve t (token :: rest) = .ok (some found) ∧ found.isGroup = false ∧
      d + 1 ≤ found.consumed.length
  /-- The kit gives a group only where they lead to no recipe. -/
  group : ∀ found, inKit t k token rest = .ok (some found) → found.isGroup = true →
    ∀ d file, ¬k.Offers t rest d file

/-- The longest match is found exactly where the way that is followed leads as far as any other.  The
only exception are words that come to nothing in the kit and lead as far outside it. -/
theorem findsLongest_iff (kit : r.kits.get? token = some k) (plain : looksLikePath token = false) :
    FindsLongest t r k token rest ↔
      (∀ d file, k.Offers t rest d file → ∃ e f, k.Leads t rest e f ∧ d ≤ e) ∨
        inKit t k token rest = .ok none ∧ ∀ d file, k.Offers t rest d file → ∃ found,
          (r.without token).resolve t (token :: rest) = .ok (some found) ∧ found.isGroup = false ∧
            d + 1 ≤ found.consumed.length := by
  -- what the kit gives is what the words name
  have byKit {outcome : Except Failure (Option Resolved)} (h : inKit t k token rest = outcome)
      (some : outcome ≠ .ok none) : r.resolve t (token :: rest) = outcome := by
    rw [resolve, resolveOnce, plain, if_neg Bool.false_ne_true, byName, kit]
    dsimp only
    rw [h]
    rcases outcome with e | _ | found
    · rfl
    · exact absurd rfl some
    · rfl
  constructor
  · intro law
    rcases outcome : inKit t k token rest with e | _ | found
    case error =>
      refine .inl fun d file offers => ?_
      obtain ⟨found, resolved, -⟩ := law.longest d file offers
      rw [byKit outcome (by simp)] at resolved
      cases resolved
    case ok.none =>
      refine .inr ⟨rfl, fun d file offers => ?_⟩
      rw [← resolve_of_inKit_none kit plain outcome]
      exact law.longest d file offers
    case ok.some =>
      refine .inl fun d file offers => ?_
      cases isGroup : found.isGroup with
      | true => exact absurd offers (law.group found outcome isGroup d file)
      | false =>
        obtain ⟨e, counted, recipe, -⟩ := inKit_found outcome
        refine ⟨e, found.path, (recipe isGroup).1, ?_⟩
        obtain ⟨found', resolved, -, long⟩ := law.longest d file offers
        rw [byKit outcome (by simp)] at resolved
        obtain rfl := Option.some.inj (Except.ok.inj resolved)
        rw [counted.length] at long
        omega
  · rintro (leading | ⟨nothing, elsewhere⟩)
    · constructor
      · intro d file offers
        obtain ⟨e, f, leads, le⟩ := leading d file offers
        obtain ⟨found, outcome⟩ : ∃ found, inKit t k token rest = .ok (some found) := inKit_total leads
        obtain ⟨e', counted, recipe, group⟩ := inKit_found outcome
        refine ⟨found, byKit outcome (by simp), ?_⟩
        cases isGroup : found.isGroup with
        | true => exact absurd leads (group isGroup e f)
        | false =>
          have longest := (recipe isGroup).2 e f leads
          refine ⟨rfl, ?_⟩
          rw [counted.length]
          omega
      · intro found outcome isGroup d file offers
        obtain ⟨e, f, leads, -⟩ := leading d file offers
        obtain ⟨-, -, -, group⟩ := inKit_found outcome
        exact group isGroup e f leads
    · constructor
      · intro d file offers
        rw [resolve_of_inKit_none kit plain nothing]
        exact elsewhere d file offers
      · intro found outcome
        rw [nothing] at outcome
        cases outcome

end Resolver

/-! ## A cookbook that hides a longer match -/

namespace Shadowed

open Resolver

/-- A kit with a cookbook that has a default recipe, and with a directory that has the name of the
cookbook and a recipe in it. -/
def tree : Tree where
  entries := [
    (["kits"], .directory), (["kits", "acme"], .directory),
    (["kits", "acme", "cookbooks"], .directory), (["kits", "acme", "cookbooks", "web"], .directory),
    (["kits", "acme", "cookbooks", "web", "cookbook.yml"],
      .file (.text "defaults:\n  recipe: base\n")),
    (["kits", "acme", "cookbooks", "web", "base"], .directory),
    (["kits", "acme", "cookbooks", "web", "base", "recipe.yml"], .file (.text "name: base\n")),
    (["kits", "acme", "web"], .directory), (["kits", "acme", "web", "api"], .directory),
    (["kits", "acme", "web", "api", "recipe.yml"], .file (.text "name: api\n"))]

def kit : Kit :=
  { name := "acme", path := .ofString "/kits/acme", patterns := Kit.usualCookbooks }

def resolver : Resolver := { kits := [("acme", kit)], here := .ofString "/" }

/-- The recipe in the directory, to which all words lead. -/
def api : Path := .ofString "/kits/acme/web/api/recipe.yml"

/-- The default recipe of the cookbook, with one word left over. -/
def base : Resolved :=
  ⟨false, .ofString "/kits/acme/cookbooks/web/base/recipe.yml", ["acme", "web"], ["api"], "acme",
    "web", "base"⟩

theorem offers_api : kit.Offers tree ["web", "api"] 2 api :=
  .inside ⟨⟨by decide, by decide, by decide⟩, by decide +kernel⟩

theorem resolved : resolver.resolve tree ["acme", "web", "api"] = .ok (some base) :=
  ok_of_toOption (by decide +kernel)

/-- The words lead to a recipe that uses up all three of them, but the default recipe of the cookbook is
found, which uses up two. -/
theorem longer_passed_over : kit.Offers tree ["web", "api"] 2 api ∧
    resolver.resolve tree ["acme", "web", "api"] = .ok (some base) ∧
    base.consumed = ["acme", "web"] ∧
    ¬FindsLongest tree resolver kit "acme" ["web", "api"] := by
  refine ⟨offers_api, resolved, rfl, fun law => ?_⟩
  obtain ⟨found, outcome, -, long⟩ := law.longest 2 api offers_api
  rw [resolved] at outcome
  obtain rfl := Option.some.inj (Except.ok.inj outcome)
  exact absurd long (by decide)

/-- So the way into the cookbook does not lead as far as that into the directories. -/
theorem not_longest : resolver.kits.get? "acme" = some kit ∧ looksLikePath "acme" = false ∧
    (FindsLongest tree resolver kit "acme" ["web", "api"] ↔
      (∀ d file, kit.Offers tree ["web", "api"] d file →
          ∃ e f, kit.Leads tree ["web", "api"] e f ∧ d ≤ e) ∨
        inKit tree kit "acme" ["web", "api"] = .ok none ∧
          ∀ d file, kit.Offers tree ["web", "api"] d file → ∃ found,
            (resolver.without "acme").resolve tree ["acme", "web", "api"] = .ok (some found) ∧
              found.isGroup = false ∧ d + 1 ≤ found.consumed.length) :=
  ⟨rfl, by decide, findsLongest_iff rfl (by decide)⟩

end Shadowed

end Scaffold
