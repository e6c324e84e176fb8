import LoggingFacade.Proofs.Files.Walk
import LoggingFacade.Proofs.Provider.Selection

/-!
# Records below search roots

Below each search root the sources are the record files of its tree, in the order of the names
along their paths. Roots come one after the other and behind the records that are part of the
program, so of two usable sources with the same priority the later root decides.
-/

namespace LoggingFacade

/-! ## What a search comes to -/

/-- The source that a file is, if it is a record. -/
def Visit.source? : Visit → Option Source
  | file path content =>
    if Path.endsWith path SearchRoot.recordPlace then some ⟨path, .file (Text.ofUtf8? content)⟩
    else none
  | unreadable .. => none

/-- What is reported of a file or an entry below a root. -/
def Visit.report? (root : String) : Visit → Option Diagnostic
  | file path _ =>
    if Path.endsWith path SearchRoot.recordPlace then some (.recordFound path) else none
  | unreadable _ reason => some (.entryUnreadable root reason)

def Diagnostic.isRecordFound : Diagnostic → Bool
  | .recordFound _ => true
  | _ => false

namespace SearchRoot

/-- The sources below a root. -/
def listed (r : SearchRoot) : List Source :=
  match r.tree with
  | some tree => (tree.visits r.path).filterMap Visit.source?
  | none => []

/-- What is reported of a root and the entries below it. -/
def reported (r : SearchRoot) : List Diagnostic :=
  match r.tree with
  | some tree => (tree.visits r.path).filterMap (Visit.report? r.path)
  | none => [.rootUnsearchable (.discovery r.path "search path entry is not a directory" [])]

/-- A file below the root that is a record is a source, under its path. -/
def Offers (r : SearchRoot) (s : Source) : Prop :=
  ∃ tree names content, r.tree = some tree ∧ tree.Holds names content ∧
    s = ⟨Path.below r.path names, .file (Text.ofUtf8? content)⟩ ∧
    Path.names s.id = Path.names r.path ++ names ∧ recordPlace <:+ Path.names s.id

/-- The sources are all that the root offers, in the order of the names along their paths. -/
structure Lists (r : SearchRoot) (found : List Source) : Prop where
  mem_iff : ∀ s, s ∈ found ↔ r.Offers s
  ascending : found.Pairwise fun a b => Path.names a.id < Path.names b.id

def WellFormed (r : SearchRoot) : Prop := ∀ tree, r.tree = some tree → tree.WellFormed

/-- The same root without what cannot be read, if it is a directory. -/
def readable? (r : SearchRoot) : Option SearchRoot :=
  r.tree.map fun tree => ⟨r.path, some tree.readable⟩

section Runs

variable {σ : Type}

theorem run_collect (root : String) (visits : List Visit) (w : σ) : (collect root visits).run w =
    ⟨visits.filterMap Visit.source?, w, visits.filterMap (Visit.report? root)⟩ := by
  induction visits with
  | nil => rfl
  | cons visit rest ih =>
    rw [List.filterMap_cons, List.filterMap_cons]
    cases visit with
    | unreadable path reason =>
      rw [collect, Traced.run_bind, Traced.state_report, ih]
      rfl
    | file path content =>
      rw [collect, Visit.source?, Visit.report?]
      split
      · rw [Traced.run_bind, Traced.state_report, Traced.run_bind, ih]
        simp [Traced.run_pure]
      · exact ih

theorem run_sources (r : SearchRoot) (w : σ) : r.sources.run w = ⟨r.listed, w, r.reported⟩ := by
  rw [sources, listed, reported]
  cases r.tree with
  | none => rfl
  | some tree => exact run_collect r.path _ w

end Runs

theorem Lists.of_wellFormed {r : SearchRoot} (h : r.WellFormed) : r.Lists r.listed := by
  unfold listed
  cases htree : r.tree with
  | none =>
    refine ⟨?_, .nil⟩
    simp [Offers, htree]
  | some tree =>
    have hwell := h tree htree
    refine ⟨?_, ?_⟩
    · intro s
      rw [List.mem_filterMap]
      constructor
      · rintro ⟨visit, hvisit, hsource⟩
        cases visit with
        | unreadable path reason => contradiction
        | file path content =>
          obtain ⟨names, hholds, rfl⟩ := FileTree.file_mem_visits_iff.1 hvisit
          rw [Visit.source?, Option.ite_none_right_eq_some, Option.some.injEq] at hsource
          obtain ⟨hplace, rfl⟩ := hsource
          exact ⟨tree, names, content, htree, hholds, rfl,
            Path.names_below r.path (hholds.isName hwell), List.isSuffixOf_iff_suffix.1 hplace⟩
      · rintro ⟨other, names, content, hother, hholds, rfl, -, hplace⟩
        obtain rfl : tree = other := Option.some.inj (htree.symm.trans hother)
        refine ⟨_, hholds.mem_visits r.path, ?_⟩
        rw [Visit.source?, Path.endsWith, if_pos (List.isSuffixOf_iff_suffix.2 hplace)]
    · refine (hwell.pairwise_visits r.path).filterMap _ ?_
      intro a b hbefore s hs t ht
      cases a with
      | unreadable path reason => contradiction
      | file path content =>
        cases b with
        | unreadable path reason => contradiction
        | file later content =>
          rw [Visit.source?, Option.ite_none_right_eq_some, Option.some.injEq] at hs ht
          rw [← hs.2, ← ht.2]
          exact hbefore

/-- Without what cannot be read a root has the same sources, and only they are reported. -/
theorem flatMap_readable? (r : SearchRoot) : r.readable?.toList.flatMap listed = r.listed ∧
    r.readable?.toList.flatMap reported = r.reported.filter Diagnostic.isRecordFound := by
  rw [readable?, listed, reported]
  cases r.tree with
  | none => exact ⟨rfl, rfl⟩
  | some tree =>
    simp only [Option.map_some, Option.toList_some, List.flatMap_singleton, listed, reported,
      FileTree.visits_readable, List.filterMap_filter, List.filter_filterMap]
    constructor
    · refine List.filterMap_congr ?_
      intro visit _
      cases visit with
      | unreadable path reason => rfl
      | file path content => exact if_pos rfl
    · refine List.filterMap_congr ?_
      intro visit _
      cases visit with
      | unreadable path reason => rfl
      | file path content =>
        refine (if_pos rfl).trans ?_
        rw [Visit.report?]
        split <;> rfl

theorem wellFormed_ofPath {fs : FileSystem} (h : fs.Named) (path : String) :
    (ofPath fs path).WellFormed := fun _ htree => h.wellFormed_tree? htree

end SearchRoot

namespace Locator

variable {σ : Type}

theorem run_directories (roots : List SearchRoot) (w : σ) : (directories roots).sources.run w =
    ⟨.ok (roots.flatMap SearchRoot.listed), w, roots.flatMap SearchRoot.reported⟩ := by
  have hall : (Traced.forEach SearchRoot.sources roots).run w =
      ⟨roots.map SearchRoot.listed, w, roots.flatMap SearchRoot.reported⟩ := by
    induction roots with
    | nil => rfl
    | cons r rest ih =>
      rw [Traced.forEach, Traced.run_bind, SearchRoot.run_sources, Traced.run_bind, ih]
      simp [Traced.run_pure]
  rw [directories, Traced.run_bind, hall]
  simp [Traced.run_pure, List.flatMap_def]

/-- Roots that are no directories and entries that cannot be read change nothing but what is
reported of them. -/
theorem run_directories_readable (roots : List SearchRoot) (w : σ) :
    (directories (roots.filterMap SearchRoot.readable?)).sources.run w =
      ⟨.ok (roots.flatMap SearchRoot.listed), w,
        (roots.flatMap SearchRoot.reported).filter Diagnostic.isRecordFound⟩ := by
  rw [run_directories, List.filterMap_eq_flatMap_toList, List.flatMap_assoc, List.flatMap_assoc,
    List.filter_flatMap]
  simp only [SearchRoot.flatMap_readable?]

/-- Locators are asked one after the other, and what those that do not fail answer is put
together. -/
theorem run_chained (locators : List (Locator σ)) (w : σ) :
    let answers := (Traced.forEach sources locators).run w
    ((chained locators).sources.run w).value =
        .ok (answers.value.flatMap fun answer => answer.toOption.getD []) ∧
      ((chained locators).sources.run w).state = answers.state := by
  -- for every state, since each locator is asked in the state that the ones before it leave
  have hall : ∀ w : σ, let answers := (Traced.forEach sources locators).run w
      ((chainedSources locators).run w).value =
          (answers.value.flatMap fun answer => answer.toOption.getD []) ∧
        ((chainedSources locators).run w).state = answers.state := by
    induction locators with
    | nil => exact fun _ => ⟨rfl, rfl⟩
    | cons l rest ih =>
      intro w
      obtain ⟨hvalue, hstate⟩ := ih (l.sources.run w).state
      rw [chainedSources, Traced.forEach]
      simp only [Traced.value_bind, Traced.state_bind, Traced.value_pure, Traced.state_pure,
        List.flatMap_cons]
      cases hanswer : (l.sources.run w).value with
      | ok found => exact ⟨congrArg (found ++ ·) hvalue, hstate⟩
      | error e => exact ⟨hvalue, hstate⟩
  obtain ⟨hvalue, hstate⟩ := hall w
  exact ⟨congrArg Except.ok hvalue, hstate⟩

/-- Locators that keep to their answers give these, whatever was asked before. -/
theorem value_forEach_of_steady {locators : List (Locator σ)}
    {answers : List (Except Error (List Source))} (h : List.Forall₂ Steady locators answers)
    (w : σ) : ((Traced.forEach sources locators).run w).value = answers := by
  induction h generalizing w with
  | nil => rfl
  | cons hanswer _ ih =>
    rw [Traced.forEach, Traced.value_bind, Traced.value_bind, Traced.value_pure, hanswer w, ih]

theorem steady_directories (roots : List SearchRoot) :
    (directories (σ := σ) roots).Steady (.ok (roots.flatMap SearchRoot.listed)) :=
  fun w => congrArg Outcome.value (run_directories roots w)

end Locator

/-! ## Which of two sources decides -/

namespace Registry

variable {σ β : Type} (r : Registry σ β)

/-- Discovery from a state meets a usable source behind the first ones. -/
def FindsBehind (w : σ) (first : Nat) (d : Descriptor β) : Prop := ∃ i, first ≤ i ∧ r.Finds w i d

/-- Where a source behind the first ones is usable, what is kept of its priority comes from
behind them too, and nothing else of this priority is kept. -/
def DecidesBehind (w : σ) (first : Nat) : Prop :=
  ∀ d, r.FindsBehind w first d → ∃ e ∈ (r.discover.run w).value, e.priority = d.priority ∧
    r.FindsBehind w first e ∧
    ∀ other ∈ (r.discover.run w).value, other.priority = d.priority → other = e

theorem decidesBehind (w : σ) (first : Nat) : r.DecidesBehind w first := by
  rintro d ⟨i, hi, hfinds⟩
  obtain ⟨e, he, hpriority⟩ := r.exists_mem_discover hfinds
  obtain ⟨j, hj, hlater⟩ := (r.mem_discover w e).1 he
  -- a place before that of `d` would not be the last one of the priority
  have hij : i ≤ j := by
    by_contra hlt
    exact hlater i d (by omega) hfinds hpriority.symm
  refine ⟨e, he, hpriority, ⟨j, by omega, hj⟩, ?_⟩
  intro other hother hsame
  exact (r.ranked_discover w).eq_of_priority_eq hother he (hsame.trans hpriority.symm)

end Registry

namespace Selector

variable {σ β : Type} (s : Selector σ β)

/-- Where the configured class does not decide, and a source behind the first ones is usable and
of the highest priority, the backend comes from behind the first ones too. -/
def SelectsBehind (w : σ) (first : Nat) : Prop :=
  s.configured? w = none → ∀ d, s.registry.FindsBehind (s.afterOverride w) first d →
    (∀ i e, s.registry.Finds (s.afterOverride w) i e → e.priority ≤ d.priority) →
    ∃ e, s.registry.FindsBehind (s.afterOverride w) first e ∧ e.priority = d.priority ∧
      (s.select.run w).value = ⟨e.backend, .discovered⟩

theorem selectsBehind (w : σ) (first : Nat) : s.SelectsBehind w first := by
  rintro hnone d ⟨i, hi, hfinds⟩ hhighest
  obtain ⟨b, hb, -⟩ | ⟨-, e, ⟨j, hj, hwins⟩, hselected⟩ | ⟨-, hunusable, -⟩ :=
    s.value_select_cases w
  · rw [hnone] at hb
    contradiction
  · obtain ⟨hle, hlater⟩ := hwins i d hfinds
    have hge := hhighest j e hj
    refine ⟨e, ⟨j, ?_, hj⟩, by omega, hselected⟩
    by_contra hlt
    have := hlater (by omega)
    omega
  · exact absurd hfinds (hunusable i d)

end Selector

namespace Bootstrap

/-- The sources of a configuration in blocks: the records that are part of the program, and
those below each root of the search path. -/
def sourceBlocks (r : Registrations) (h : Host) (c : ManagerConfig) : List (List Source) :=
  (if c.scanLinked then [r.records.mergeSort fun a b => a.id ≤ b.id] else []) ++
    c.searchPath.map fun path => (SearchRoot.ofPath h.files path).listed

theorem value_sources (r : Registrations) (h : Host) (c : ManagerConfig) (w : World) :
    ((selector r h c).registry.locator.sources.run w).value =
      .ok (sourceBlocks r h c).flatten := by
  -- no locator of the chain depends on what was asked before, so each has one answer
  have hlinked : List.Forall₂ Locator.Steady (if c.scanLinked then [r.locator] else [])
      (if c.scanLinked then [.ok (r.records.mergeSort fun a b => a.id ≤ b.id)] else []) := by
    split
    · exact .cons (fun _ => rfl) .nil
    · exact .nil
  have hsearched : List.Forall₂ (Locator.Steady (σ := World))
      (if c.searchPath.isEmpty then [] else [.directories (c.searchPath.map (.ofPath h.files))])
      (if c.searchPath.isEmpty then []
        else [.ok ((c.searchPath.map (.ofPath h.files)).flatMap SearchRoot.listed)]) := by
    split
    · exact .nil
    · exact .cons (Locator.steady_directories _) .nil
  rw [selector, (Locator.run_chained _ w).1,
    Locator.value_forEach_of_steady (List.rel_append hlinked hsearched), sourceBlocks,
    List.flatMap_append, List.flatten_append, List.flatMap_map]
  congr 2
  · split <;> rfl
  · cases c.searchPath with
    | nil => rfl
    | cons path rest => simp [Except.toOption, List.flatMap_def]

/-- A search of directories never fails, and it leaves the state as it is. It gives the record
files below each root in the order of the names along their paths, root by root; roots that are
no directories and entries that cannot be read only add reports of themselves. Chained locators
give together what those of them that do not fail answer. So the sources of a configuration
come in blocks, the records of the program first and then one block for each root of the search
path; and wherever the later blocks have a usable source of a priority, what is kept of this
priority, and what is selected if it is the highest one, comes from them. -/
theorem records_found_in_order {σ : Type} {roots : List SearchRoot}
    (hroots : ∀ r ∈ roots, r.WellFormed) (w : σ) :
    let searched := (Locator.directories roots).sources.run w
    (searched.value = .ok (roots.flatMap SearchRoot.listed) ∧ searched.state = w ∧
      (∀ r ∈ roots, r.Lists r.listed) ∧
      (Locator.directories (roots.filterMap SearchRoot.readable?)).sources.run w =
        ⟨searched.value, w, searched.diagnostics.filter Diagnostic.isRecordFound⟩) ∧
    (∀ locators : List (Locator σ),
      let answers := (Traced.forEach Locator.sources locators).run w
      let found := (Locator.chained locators).sources.run w
      found.value = .ok (answers.value.flatMap fun answer => answer.toOption.getD []) ∧
        found.state = answers.state) ∧
    ∀ (r : Registrations) (h : Host) (c : ManagerConfig) (v : World),
      let s := selector r h c
      (h.files.Named → ∀ path, (SearchRoot.ofPath h.files path).Lists
        (SearchRoot.ofPath h.files path).listed) ∧
      (∀ path, h.files.isDirectory path = false →
        (SearchRoot.ofPath h.files path).readable? = none) ∧
      (s.registry.locator.sources.run v).value = .ok (sourceBlocks r h c).flatten ∧
      ∀ earlier later, sourceBlocks r h c = earlier ++ later →
        s.registry.DecidesBehind v earlier.flatten.length ∧
        s.SelectsBehind v earlier.flatten.length := by
  intro searched
  have hsearched : searched = _ := Locator.run_directories roots w
  refine ⟨⟨?_, ?_, ?_, ?_⟩, fun locators => Locator.run_chained locators w, ?_⟩
  · rw [hsearched]
  · rw [hsearched]
  · exact fun r hr => .of_wellFormed (hroots r hr)
  · rw [hsearched, Locator.run_directories_readable]
  · intro r h c v s
    refine ⟨?_, ?_, value_sources r h c v, ?_⟩
    · exact fun hnamed path => .of_wellFormed (SearchRoot.wellFormed_ofPath hnamed path)
    · intro path hpath
      exact Option.map_eq_none_iff.2 ((h.files.tree?_eq_none_iff path).2 hpath)
    · exact fun _ _ _ => ⟨s.registry.decidesBehind v _, s.selectsBehind v _⟩

/-- Two records whose paths are in another order as texts, below the second of two roots, the
first of which is missing. -/
theorem records_found_in_order_siblings :
    let record : FileTree :=
      .directory [("META-INF", .directory [("lumber-provider.toml", .file [])])]
    let tree : FileTree :=
      .directory [("a", record), ("a-b", record), ("b", .unreadable "Permission denied")]
    let roots : List SearchRoot := [⟨"/missing", none⟩, ⟨"/p", some tree⟩]
    let first : Source := ⟨"/p/a/META-INF/lumber-provider.toml", .file (some "")⟩
    let second : Source := ⟨"/p/a-b/META-INF/lumber-provider.toml", .file (some "")⟩
    (∀ r ∈ roots, r.WellFormed) ∧
      ((Locator.directories roots).sources.run ()).value = .ok [first, second] ∧
      Path.names first.id < Path.names second.id ∧ second.id < first.id := by
  intro record tree roots first second
  have hrecord : record.WellFormed :=
    .directory (by decide) (List.pairwise_singleton _ _) (List.forall_mem_singleton.2
      (.directory (by decide) (List.pairwise_singleton _ _)
        (List.forall_mem_singleton.2 (.file []))))
  have htree : tree.WellFormed := by
    refine .directory (by decide) (by decide) ?_
    simp only [List.forall_mem_cons]
    exact ⟨hrecord, hrecord, .unreadable _, by simp⟩
  have hroots : ∀ r ∈ roots, r.WellFormed := by
    simp only [roots, List.forall_mem_cons]
    refine ⟨?_, ?_, by simp⟩
    · intro other hother
      contradiction
    · intro other hother
      exact Option.some.inj hother ▸ htree
  obtain ⟨⟨hvalue, -, hlists, -⟩, -⟩ := records_found_in_order hroots ()
  have hlisted : SearchRoot.listed ⟨"/p", some tree⟩ = [first, second] := by decide +kernel
  have hlists := hlists ⟨"/p", some tree⟩ (by simp [roots])
  have hascending := hlists.ascending
  rw [hlisted, List.pairwise_pair] at hascending
  have hall : roots.flatMap SearchRoot.listed = [first, second] := by decide +kernel
  exact ⟨hroots, hall ▸ hvalue, hascending, by decide⟩

end Bootstrap
end LoggingFacade
