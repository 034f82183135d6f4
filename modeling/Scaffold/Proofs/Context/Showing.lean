import Mathlib.Data.List.Forall2
import Scaffold.Proofs.Context.Packing
import Scaffold.Proofs.Path.Names
import Scaffold.Proofs.Tree.Replacement

/-!
# What the sections of a context show

A section tells by its label what it shows, but labels can be alike.  So a context is gathered here together with
what each of its sections shows: a configuration file, a file that was listed or found, or what a step put out.
Without this account it is the context that is gathered (`showing_gather`).

A file is known by the place it leads to, however its path is written.  Files that are listed or found are looked
up among those seen before, so none is shown twice.  Configuration files are distinct from one another, but they
are not entered among the files seen: a context shows a file twice exactly if it shows one as a configuration
file and as one that was listed or found.
-/

namespace Scaffold

/-- A path that is straight already stays as it is. -/
theorem Path.resolved_resolved (p : Path) : p.resolved.resolved = p.resolved := by
  unfold Path.resolved
  have straight := Tree.collapse_append [] (Path.collapse p.parts) (Tree.not_mem_collapse p.parts)
  exact congrArg (Path.mk "/") straight

namespace Context

/-! ## What is offered -/

/-- What a section shows. -/
inductive Origin where
  /-- A file that says how the project is configured. -/
  | config (file : Path)
  /-- A file that was listed or found. -/
  | named (file : Path)
  /-- What a step put out. -/
  | output (step : String)
  deriving DecidableEq

/-- The file that a section shows, if it shows one. -/
def Origin.file? : Origin → Option Path
  | .config p | .named p => some p
  | .output _ => none

/-- A candidate with what it shows. -/
abbrev Offer := Origin × Candidate

/-- The candidate of a listed file as an offer. -/
def offer? (s : Scene) (p : Path) : Option Offer := (ofFile? s p).map (Prod.mk (.named p))

theorem toList_offer? (s : Scene) (p : Path) : (offer? s p).toList = [p].filterMap (offer? s) := by
  cases offered : offer? s p <;> simp [offered]

/-- The candidates of a source with what they show, and the files seen after it. -/
def offers (s : Scene) (seen : List Path) : Source → Except Failure (List Offer × List Path)
  | .config name =>
    let p := s.project.child name
    let text := if s.tree.isFile p then read? s.tree p else none
    .ok ((text.map fun text => (.config p.resolved, ⟨name, text⟩)).toList, seen)
  | .output step => do
    let text ← outputText? ((s.outputs.get? step).getD .null)
    .ok ((text.map fun text => (.output step, ⟨"output of step " ++ step, text⟩)).toList, seen)
  | .file pattern => do
    let p := (s.project.child (← filledIn s pattern)).resolved
    if seen.contains p then return ([], seen)
    return ((offer? s p).toList, p :: seen)
  | .files pattern => do
    let found ← (Glob.find s.tree s.project (← filledIn s pattern)).mapError Failure.ofGlob
    let fresh := (((found.filter s.tree.isFile).map (·.resolved)).eraseDups).filter (!seen.contains ·)
    return (fresh.filterMap (offer? s), fresh ++ seen)

variable {s : Scene} {limit : Nat} {policy : Overflow} {seen seen' : List Path} {source : Source}
  {found : List Offer} {p : Path} {o : Offer} {c : Candidate}

/-- The candidates are those that are offered. -/
theorem offers_candidates (s : Scene) (seen : List Path) (source : Source) :
    (offers s seen source).map (fun r => (r.1.map Prod.snd, r.2)) = candidates s seen source := by
  cases source with
  | config name =>
    dsimp only [offers, candidates]
    cases if s.tree.isFile (s.project.child name) then read? s.tree (s.project.child name) else none <;> rfl
  | output step =>
    dsimp only [offers, candidates]
    rcases outputText? ((s.outputs.get? step).getD .null) with e | _ | text <;> rfl
  | file pattern =>
    dsimp only [offers, candidates]
    rcases filledIn s pattern with e | text
    · rfl
    · dsimp only [bind, Except.bind]
      split
      · rfl
      · unfold offer?
        cases ofFile? s (s.project.child text).resolved <;> rfl
  | files pattern =>
    dsimp only [offers, candidates]
    rcases filledIn s pattern with e | text
    · rfl
    · dsimp only [bind, Except.bind]
      rcases (Glob.find s.tree s.project text).mapError Failure.ofGlob with e | paths
      · rfl
      · dsimp only [pure, Except.pure, Except.map]
        have same (p : Path) : (offer? s p).map Prod.snd = ofFile? s p := by
          unfold offer?
          cases ofFile? s p <;> rfl
        rw [List.map_filterMap]
        simp only [same]

/-- What an offer is the content of. -/
def Shows (s : Scene) : Origin → Candidate → Prop
  | .config p, c => c.label ∈ configFiles ∧ p = (s.project.child c.label).resolved ∧
      s.tree.isFile p = true ∧ read? s.tree p = some c.content
  | .named p, c => p.resolved = p ∧ ofFile? s p = some c
  | .output step, c => c.label = "output of step " ++ step ∧
      outputText? ((s.outputs.get? step).getD .null) = .ok (some c.content)

theorem isFile_resolved (h : s.tree.isFile p = true) :
    s.tree.isFile p.resolved = true ∧ read? s.tree p.resolved = read? s.tree p := by
  unfold Tree.isFile at h
  split at h
  next content found =>
    have same := Tree.look_resolved found
    constructor
    · rw [Tree.isFile, same]
    · simp only [read?, Tree.read, found, same]
      rfl
  next => cases h

/-- What is offered is what it says it is. -/
theorem offers_shows (listed : ∀ name, source = .config name → name ∈ configFiles)
    (h : offers s seen source = .ok (found, seen')) : ∀ o ∈ found, Shows s o.1 o.2 := by
  have file {p : Path} {o : Offer} (same : p.resolved = p) (offered : offer? s p = some o) : Shows s o.1 o.2 := by
    obtain ⟨c, content, rfl⟩ := Option.map_eq_some_iff.mp offered
    exact ⟨same, content⟩
  intro o mem
  cases source with
  | config name =>
    cases h
    obtain ⟨text, read, rfl⟩ := Option.map_eq_some_iff.mp (Option.mem_toList.mp mem)
    split at read
    next there =>
      obtain ⟨there', same⟩ := isFile_resolved there
      exact ⟨listed name rfl, rfl, there', same.trans read⟩
    next => cases read
  | output step =>
    obtain ⟨text, put, h⟩ := bind_eq_ok h
    cases h
    obtain ⟨text, rfl, rfl⟩ := Option.map_eq_some_iff.mp (Option.mem_toList.mp mem)
    exact ⟨rfl, put⟩
  | file pattern =>
    obtain ⟨text, -, h⟩ := bind_eq_ok h
    dsimp only at h
    split at h
    · cases h
      cases mem
    · cases h
      exact file (Path.resolved_resolved _) (Option.mem_toList.mp mem)
  | files pattern =>
    obtain ⟨text, -, h⟩ := bind_eq_ok h
    obtain ⟨paths, -, h⟩ := bind_eq_ok h
    cases h
    obtain ⟨p, fresh, offered⟩ := List.mem_filterMap.mp mem
    have one := List.mem_eraseDups.mp (List.mem_filter.mp fresh).1
    obtain ⟨q, -, rfl⟩ := List.mem_map.mp one
    exact file (Path.resolved_resolved q) offered

theorem nodup_eraseDups {α : Type} [DecidableEq α] (xs : List α) : xs.eraseDups.Nodup := by
  induction size : xs.length using Nat.strongRecOn generalizing xs with
  | ind n ih =>
    cases xs with
    | nil => exact List.nodup_nil
    | cons x xs =>
      rw [List.eraseDups_cons, List.nodup_cons]
      constructor
      · intro mem
        simpa using (List.mem_filter.mp (List.mem_eraseDups.mp mem)).2
      · refine ih _ ?_ _ rfl
        have shorter := List.length_filter_le (fun y => !y == x) xs
        rw [List.length_cons] at size
        omega

theorem count_offers_le (s : Scene) (fresh : List Path) (p : Path) :
    ((fresh.filterMap (offer? s)).map Prod.fst).count (.named p) ≤ fresh.count p := by
  induction fresh with
  | nil => exact Nat.le_refl _
  | cons q fresh ih =>
    unfold offer? at ih ⊢
    rw [List.filterMap_cons]
    cases ofFile? s q with
    | none => exact Nat.le_trans ih List.count_le_count_cons
    | some c =>
      simp only [Option.map_some, List.map_cons, List.count_cons, beq_iff_eq, Origin.named.injEq]
      split <;> omega

/-- Files that are listed or found are offered where they were not seen before, each once. -/
theorem offers_fresh (h : offers s seen source = .ok (found, seen')) :
    ∃ fresh : List Path, fresh.Nodup ∧ (∀ p ∈ fresh, p ∉ seen) ∧ seen' = fresh ++ seen ∧
      ∀ p, (found.map Prod.fst).count (.named p) ≤ fresh.count p := by
  cases source with
  | config name =>
    cases h
    refine ⟨[], List.nodup_nil, nofun, rfl, fun p => ?_⟩
    cases if s.tree.isFile (s.project.child name) then read? s.tree (s.project.child name) else none <;>
      simp
  | output step =>
    obtain ⟨text, -, h⟩ := bind_eq_ok h
    cases h
    refine ⟨[], List.nodup_nil, nofun, rfl, fun p => ?_⟩
    cases text <;> simp
  | file pattern =>
    obtain ⟨text, -, h⟩ := bind_eq_ok h
    dsimp only at h
    split at h
    next => cases h; exact ⟨[], List.nodup_nil, nofun, rfl, fun p => Nat.le_refl _⟩
    next unseen =>
      cases h
      refine ⟨[(s.project.child text).resolved], List.nodup_singleton _, ?_, rfl, fun p => ?_⟩
      · intro p mem
        rw [List.mem_singleton.mp mem]
        simpa using unseen
      · rw [toList_offer?]
        exact count_offers_le s _ p
  | files pattern =>
    obtain ⟨text, -, h⟩ := bind_eq_ok h
    obtain ⟨paths, -, h⟩ := bind_eq_ok h
    cases h
    refine ⟨_, (nodup_eraseDups _).filter _, ?_, rfl, count_offers_le s _⟩
    intro p mem
    simpa using (List.mem_filter.mp mem).2

/-- The place of a configuration file. -/
def configPlace? (s : Scene) : Source → Option Path
  | .config name => some (s.project.child name).resolved
  | _ => none

theorem offers_config (h : offers s seen source = .ok (found, seen')) (p : Path) :
    (found.map Prod.fst).count (.config p) ≤ (configPlace? s source).toList.count p := by
  have zero {fresh : List Path} : ((fresh.filterMap (offer? s)).map Prod.fst).count (.config p) = 0 := by
    rw [List.count_eq_zero]
    intro mem
    obtain ⟨o, offered, same⟩ := List.mem_map.mp mem
    obtain ⟨q, -, offered⟩ := List.mem_filterMap.mp offered
    obtain ⟨c, -, rfl⟩ := Option.map_eq_some_iff.mp offered
    cases same
  cases source with
  | config name =>
    cases h
    cases if s.tree.isFile (s.project.child name) then read? s.tree (s.project.child name) else none <;>
      simp [configPlace?, List.count_cons]
  | output step =>
    obtain ⟨text, -, h⟩ := bind_eq_ok h
    cases h
    cases text <;> simp
  | file pattern =>
    obtain ⟨text, -, h⟩ := bind_eq_ok h
    dsimp only at h
    split at h
    · cases h
      exact Nat.zero_le _
    · cases h
      rw [toList_offer?]
      exact Nat.le_trans (Nat.le_of_eq zero) (Nat.zero_le _)
  | files pattern =>
    obtain ⟨text, -, h⟩ := bind_eq_ok h
    obtain ⟨paths, -, h⟩ := bind_eq_ok h
    cases h
    exact Nat.le_trans (Nat.le_of_eq zero) (Nat.zero_le _)

/-! ## Packing with an account -/

/-- A section is that of a candidate, whole or cut. -/
def IsSection (c : Candidate) (text : String) : Prop := text = sectionOf c ∨ ∃ n, text = sectionOf (cutTo n c)

/-- A context under way, with what each of its sections shows. -/
structure Showing where
  packing : Packing := {}
  origins : List Origin := []
  deriving DecidableEq

namespace Showing

variable {x x' : Showing}

/-- The files that are shown. -/
def files (x : Showing) : List Path := x.origins.filterMap Origin.file?

/-- Packs an offer, and enters what it shows if a section is added. -/
def pack (limit : Nat) (policy : Overflow) (x : Showing) (o : Offer) : Except Failure Showing := do
  let p ← Context.pack limit policy x.packing o.2
  return ⟨p, if x.packing.context.sections.length < p.context.sections.length then x.origins ++ [o.1]
    else x.origins⟩

/-- Packs the offers of a source. -/
def packSource (s : Scene) (limit : Nat) (policy : Overflow) (acc : Showing × List Path) (source : Source) :
    Except Failure (Showing × List Path) := do
  if acc.1.packing.full then return acc
  let (found, seen) ← offers s acc.2 source
  return (← found.foldlM (pack limit policy) acc.1, seen)

theorem pack_packing (limit : Nat) (policy : Overflow) (x : Showing) (o : Offer) :
    (pack limit policy x o).map packing = Context.pack limit policy x.packing o.2 := by
  unfold pack
  cases Context.pack limit policy x.packing o.2 <;> rfl

theorem packSource_packing (s : Scene) (limit : Nat) (policy : Overflow) (acc : Showing × List Path)
    (source : Source) :
    (packSource s limit policy acc source).map (fun r => (r.1.packing, r.2)) =
      Context.packSource s limit policy (acc.1.packing, acc.2) source := by
  unfold packSource Context.packSource
  dsimp only
  split
  · rfl
  · rw [← offers_candidates]
    cases offers s acc.2 source with
    | error e => rfl
    | ok r =>
      have same := map_foldlM (σ := Prod.snd) (pack_packing limit policy) r.1 acc.1
      dsimp only [bind, Except.bind, Except.map]
      rw [← same]
      cases r.1.foldlM (pack limit policy) acc.1 <;> rfl

/-- What one offer adds: nothing, or its section. -/
theorem pack_adds (h : pack limit policy x o = .ok x') :
    ∃ added texts, x'.origins = x.origins ++ added ∧
      x'.packing.context.sections = x.packing.context.sections ++ texts ∧ added.Sublist [o.1] ∧
      List.Forall₂ (fun q text => q = o.1 ∧ IsSection o.2 text) added texts := by
  obtain ⟨p, packed, same⟩ := bind_eq_ok h
  cases same
  obtain ⟨before, origins⟩ := x
  cases packs_of_pack packed with
  | closed k => exact ⟨[], [], by simp, by simp, List.nil_sublist _, .nil⟩
  | whole k fits => exact ⟨[o.1], [_], by simp, rfl, List.Sublist.refl _, .cons ⟨rfl, .inl rfl⟩ .nil⟩
  | cut k tooLong cuts room =>
    exact ⟨[o.1], [_], by simp, rfl, List.Sublist.refl _, .cons ⟨rfl, .inr ⟨_, rfl⟩⟩ .nil⟩
  | leftOut k full tooLong => exact ⟨[], [], by simp, by simp, List.nil_sublist _, .nil⟩

/-- What the offers of a source add: the sections of some of them, in order. -/
theorem foldlM_pack_adds (h : found.foldlM (pack limit policy) x = .ok x') :
    ∃ added texts, x'.origins = x.origins ++ added ∧
      x'.packing.context.sections = x.packing.context.sections ++ texts ∧
      added.Sublist (found.map Prod.fst) ∧
      List.Forall₂ (fun q text => ∃ c, (q, c) ∈ found ∧ IsSection c text) added texts := by
  refine foldlM_induction (P := fun done x' => ∃ added texts, x'.origins = x.origins ++ added ∧
      x'.packing.context.sections = x.packing.context.sections ++ texts ∧
      added.Sublist (done.map Prod.fst) ∧
      List.Forall₂ (fun q text => ∃ c, (q, c) ∈ found ∧ IsSection c text) added texts)
    ⟨[], [], by simp, by simp, List.nil_sublist _, .nil⟩ ?_ h
  rintro done o rest y y' parts packed ⟨added, texts, origins, sections, part, shown⟩
  obtain ⟨more, others, origins', sections', one, shows⟩ := pack_adds packed
  refine ⟨added ++ more, texts ++ others, ?_, ?_, ?_, ?_⟩
  · rw [origins', origins, List.append_assoc]
  · rw [sections', sections, List.append_assoc]
  · rw [List.map_append]
    exact part.append one
  · refine List.rel_append shown (shows.imp fun q text => ?_)
    rintro ⟨rfl, isSection⟩
    exact ⟨o.2, by simp [parts], isSection⟩

/-- What holds of a context while it is gathered: its sections show what they say, no file that was listed or
found is shown that was not seen, or twice, and configuration files are shown as often as they were looked
for. -/
structure Accounted (s : Scene) (done : List Source) (x : Showing) (seen : List Path) : Prop where
  shown : List.Forall₂ (fun o text => ∃ c, Shows s o c ∧ IsSection c text) x.origins
    x.packing.context.sections
  once : ∀ p, x.origins.count (.named p) ≤ 1
  seen : ∀ p, .named p ∈ x.origins → p ∈ seen
  config : ∀ p, x.origins.count (.config p) ≤ (done.filterMap (configPlace? s)).count p

theorem Accounted.step {done : List Source} {acc acc' : Showing × List Path}
    (listed : ∀ name, source = .config name → name ∈ configFiles)
    (packed : packSource s limit policy acc source = .ok acc') (before : Accounted s done acc.1 acc.2) :
    Accounted s (done ++ [source]) acc'.1 acc'.2 := by
  have places : (done ++ [source]).filterMap (configPlace? s) =
      done.filterMap (configPlace? s) ++ (configPlace? s source).toList := by
    rw [List.filterMap_append]
    cases here : configPlace? s source <;> simp [here]
  unfold packSource at packed
  split at packed
  next =>
    cases packed
    refine ⟨before.shown, before.once, before.seen, fun p => Nat.le_trans (before.config p) ?_⟩
    rw [places, List.count_append]
    exact Nat.le_add_right _ _
  next =>
    obtain ⟨⟨found, seen⟩, offered, packed⟩ := bind_eq_ok packed
    obtain ⟨x, added, same⟩ := bind_eq_ok packed
    cases same
    obtain ⟨added, texts, origins, sections, part, shown⟩ := foldlM_pack_adds added
    obtain ⟨fresh, distinct, unseen, same, offeredOnce⟩ := offers_fresh offered
    have few (o : Origin) : added.count o ≤ (found.map Prod.fst).count o := part.count_le o
    refine ⟨?_, fun p => ?_, fun p mem => ?_, fun p => ?_⟩
    · -- the sections that are added show what their offers are
      dsimp only
      rw [origins, sections]
      refine List.rel_append before.shown (shown.imp fun o text => ?_)
      rintro ⟨c, mem, isSection⟩
      exact ⟨c, offers_shows listed offered _ mem, isSection⟩
    · dsimp only
      rw [origins, List.count_append]
      have new : added.count (.named p) ≤ fresh.count p := Nat.le_trans (few _) (offeredOnce p)
      by_cases isFresh : p ∈ fresh
      · -- what is new was not seen, and so was not shown
        have unshown : acc.1.origins.count (.named p) = 0 :=
          List.count_eq_zero.mpr fun mem => unseen p isFresh (before.seen p mem)
        have single := List.nodup_iff_count_le_one.mp distinct p
        omega
      · rw [List.count_eq_zero.mpr isFresh] at new
        have old := before.once p
        omega
    · -- what is shown was offered, and what is offered is entered among those seen
      dsimp only at mem ⊢
      rw [same]
      rw [origins] at mem
      rcases List.mem_append.mp mem with old | new
      · exact List.mem_append_right _ (before.seen p old)
      · refine List.mem_append_left _ (List.count_pos_iff.mp ?_)
        have there := List.count_pos_iff.mpr new
        exact Nat.lt_of_lt_of_le there (Nat.le_trans (few _) (offeredOnce p))
    · dsimp only
      rw [origins, places, List.count_append, List.count_append]
      exact Nat.add_le_add (before.config p) (Nat.le_trans (few _) (offers_config offered p))

end Showing

/-! ## Files that are shown -/

variable {spec : ContextSpec}

/-- The context that a specification asks for, with what each of its sections shows. -/
def showing (spec : ContextSpec) (s : Scene) : Except Failure Showing := do
  let (x, _) ← (sources spec).foldlM (Showing.packSource s spec.maxTokens.toNat spec.overflow) ({}, [])
  return x

theorem showing_gather (spec : ContextSpec) (s : Scene) :
    (showing spec s).map (·.packing.context) = gather spec s := by
  have same := map_foldlM (σ := id) (Showing.packSource_packing s spec.maxTokens.toNat spec.overflow)
    (sources spec) ({}, [])
  rw [List.map_id] at same
  unfold showing gather
  rw [← same]
  cases (sources spec).foldlM (Showing.packSource s spec.maxTokens.toNat spec.overflow) ({}, []) <;> rfl

/-- The names of the configuration files are distinct names of files. -/
theorem isName_of_mem_configFiles : ∀ name ∈ configFiles, Path.IsName name := by
  unfold configFiles
  simp only [List.forall_mem_cons]
  refine ⟨?_, ?_, ?_, ?_, nofun⟩ <;> constructor <;> decide

/-- Configuration files are looked for where that is asked for, each in a place of its own. -/
theorem nodup_configPlaces (spec : ContextSpec) (s : Scene) :
    ((sources spec).filterMap (configPlace? s)).Nodup ∧
      (spec.projectConfig = false → (sources spec).filterMap (configPlace? s) = []) := by
  have others {α : Type} {f : α → Source} (h : ∀ a, configPlace? s (f a) = none) (xs : List α) :
      (xs.map f).filterMap (configPlace? s) = [] := by
    simp [List.filterMap_map, h]
  have parts : (sources spec).filterMap (configPlace? s) =
      if spec.projectConfig then configFiles.map fun name => (s.project.child name).resolved else [] := by
    unfold sources
    have outputs := others (f := .output) (fun _ => rfl) spec.fromSteps
    have files := others (f := .file) (fun _ => rfl) spec.files
    have globs := others (f := .files) (fun _ => rfl) spec.globs
    simp only [List.filterMap_append, outputs, files, globs, List.append_nil]
    split
    · rw [List.filterMap_map, ← List.filterMap_eq_map]
      rfl
    · rfl
  rw [parts]
  refine ⟨?_, fun off => by simp [off]⟩
  split
  · refine List.Nodup.map_on ?_ (by decide)
    intro a mem b mem' same
    have place {name : String} (mem : name ∈ configFiles) :
        Path.collapse (s.project.child name).parts = Path.collapse s.project.parts ++ [name] := by
      have isName := isName_of_mem_configFiles name mem
      rw [isName.child]
      refine Tree.collapse_append _ _ ?_
      rw [List.mem_singleton]
      rintro rfl
      revert mem
      decide
    have places := congrArg Path.parts same
    simp only [Path.resolved, place mem, place mem'] at places
    exact List.singleton_inj.mp (List.append_cancel_left places)
  · exact List.nodup_nil

theorem count_files (origins : List Origin) (p : Path) :
    (origins.filterMap Origin.file?).count p = origins.count (.config p) + origins.count (.named p) := by
  induction origins with
  | nil => rfl
  | cons o origins ih =>
    cases o with
    | config q =>
      simp only [List.filterMap_cons, Origin.file?, List.count_cons, ih, beq_iff_eq, Origin.config.injEq,
        reduceCtorEq, if_false]
      omega
    | named q =>
      simp only [List.filterMap_cons, Origin.file?, List.count_cons, ih, beq_iff_eq, Origin.named.injEq,
        reduceCtorEq, if_false]
      omega
    | output step =>
      simp only [List.filterMap_cons, Origin.file?, List.count_cons, ih, beq_iff_eq, reduceCtorEq, if_false]
      omega

/-- A context shows what its sections say they show: a file with the text that it has, whole or cut, under the
path of its place.  It shows a file at most once as a configuration file, and then only if these were asked
for, and at most once as one that was listed or found, however its path was written there.  So it shows no
file twice exactly if none is shown in both ways. -/
theorem shows_once_iff (spec : ContextSpec) (s : Scene) :
    (showing spec s).map (·.packing.context) = gather spec s ∧
      ∀ x, showing spec s = .ok x →
        List.Forall₂ (fun o text => ∃ c, Shows s o c ∧ IsSection c text) x.origins x.packing.context.sections ∧
        (∀ p, x.origins.count (.config p) ≤ 1 ∧ (.config p ∈ x.origins → spec.projectConfig = true)) ∧
        (∀ p, x.origins.count (.named p) ≤ 1) ∧
        (x.files.Nodup ↔ ∀ p, .config p ∈ x.origins → .named p ∉ x.origins) := by
  refine ⟨showing_gather spec s, fun x shown => ?_⟩
  obtain ⟨⟨x, seen⟩, run, same⟩ := bind_eq_ok shown
  cases same
  have accounted : Showing.Accounted s (sources spec) x seen := by
    refine foldlM_induction (P := fun done acc => Showing.Accounted s done acc.1 acc.2)
      ⟨.nil, fun _ => Nat.zero_le _, fun _ mem => absurd mem List.not_mem_nil, fun _ => Nat.zero_le _⟩ ?_ run
    intro done source rest acc acc' parts packed before
    refine before.step (fun name same => ?_) packed
    have mem : .config name ∈ sources spec := by simp [parts, same]
    unfold sources at mem
    by_contra other
    split at mem <;> simp [other] at mem
  obtain ⟨distinct, off⟩ := nodup_configPlaces spec s
  have configOnce (p : Path) : x.origins.count (.config p) ≤ 1 :=
    Nat.le_trans (accounted.config p) (List.nodup_iff_count_le_one.mp distinct p)
  refine ⟨accounted.shown, fun p => ⟨configOnce p, fun mem => ?_⟩, accounted.once, ?_⟩
  · by_contra no
    have none := accounted.config p
    rw [off (Bool.eq_false_iff.mpr no), List.count_nil] at none
    have some := List.count_pos_iff.mpr mem
    omega
  · -- each file is shown as often as in the two ways together, and at most once in either
    rw [Showing.files, List.nodup_iff_count_le_one]
    refine forall_congr' fun p => ?_
    have named := accounted.once p
    have config := configOnce p
    rw [count_files, ← List.count_pos_iff, ← List.count_eq_zero]
    omega

end Context

/-! ## A file in two ways -/

namespace Packaged

open Context

/-- A project with a package in it. -/
def scene : Scene where
  tree := ⟨[(["project"], .directory), (["project", "package.json"], .file (.text "\x7b\x7d"))]⟩
  project := ⟨"/", ["project"]⟩

/-- The package in four spellings. -/
def listed : ContextSpec :=
  { files := ["package.json", "lib/../package.json", "//project/./package.json"], globs := ["*.json"] }

/-- The configuration of the project as well. -/
def spec : ContextSpec := { listed with projectConfig := true }

/-- The package. -/
def package : Path := ⟨"/", ["project", "package.json"]⟩

/-- Its section. -/
def text : String := "#### package.json\n```json\n\x7b\x7d\n```"

def shown : Showing where
  packing := { context := { sections := [text, text], tokens := 16 } }
  origins := [.config package, .named package]

def shownOnce : Showing where
  packing := { context := { sections := [text], tokens := 8 } }
  origins := [.named package]

theorem shows : showing spec scene = .ok shown := by decide +kernel

theorem shows_listed : showing listed scene = .ok shownOnce := by decide +kernel

theorem shown_twice : ¬∀ x, showing spec scene = .ok x → x.files.Nodup := by
  intro once
  exact absurd (once shown shows) (by decide)

/-- However the package is listed, it is shown once, but once more where the configuration is asked for. -/
theorem once_more :
    (showing listed scene = .ok shownOnce ∧ shownOnce.files.Nodup) ∧
      showing spec scene = .ok shown ∧ ¬shown.files.Nodup := by
  refine ⟨⟨shows_listed, ?_⟩, shows, fun once => ?_⟩
  · apply ((shows_once_iff listed scene).2 shownOnce shows_listed).2.2.2.mpr
    intro p config
    exact absurd config (by simp [shownOnce])
  · have apart := ((shows_once_iff spec scene).2 shown shows).2.2.2.mp once package (by decide)
    exact apart (by decide)

end Packaged

end Scaffold
