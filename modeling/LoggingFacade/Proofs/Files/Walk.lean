import LoggingFacade.Files.System
import LoggingFacade.Proofs.TextMap

/-!
# Walks below a directory

A walk meets each file of a tree under the names that lead to it, and takes the files in the
lexicographic order of these names. That is another order than that of the paths as texts: a
slash comes after some characters that a name may have.
-/

namespace LoggingFacade

open Text (Bytes)

namespace Path

/-- A name that an entry of a directory can have. -/
def IsName (name : String) : Prop := name ≠ "" ∧ name ≠ "." ∧ '/' ∉ name.toList

instance (name : String) : Decidable (IsName name) := inferInstanceAs (Decidable (_ ∧ _ ∧ _))

/-- The path that names lead to. -/
def below (root : String) (names : List String) : String := names.foldl join root

/-! ## Names along a path -/

/-- One step from the back in cutting a path at its slashes. -/
def cut (c : Char) (s : List Char × List String) : List Char × List String :=
  if c == '/' then ([], String.ofList s.1 :: s.2) else (c :: s.1, s.2)

theorem pieces_eq (path : String) : pieces path =
    .ofList (path.toList.foldr cut ([], [])).1 :: (path.toList.foldr cut ([], [])).2 := rfl

theorem foldr_cut_append (l : List Char) (s : List Char × List String) (done : List String) :
    l.foldr cut (s.1, s.2 ++ done) = ((l.foldr cut s).1, (l.foldr cut s).2 ++ done) := by
  induction l with
  | nil => rfl
  | cons c rest ih =>
    rw [List.foldr_cons, List.foldr_cons, ih, cut, cut]
    split <;> rfl

theorem foldr_cut_of_not_mem {l : List Char} (h : '/' ∉ l) : l.foldr cut ([], []) = (l, []) := by
  induction l with
  | nil => rfl
  | cons c rest ih =>
    rw [List.mem_cons, not_or] at h
    have hc : (c == '/') = false := beq_eq_false_iff_ne.2 (Ne.symm h.1)
    rw [List.foldr_cons, ih h.2, cut, hc]
    rfl

/-- The piece behind the last slash is one of its own. -/
theorem pieces_slash (directory : String) {name : String} (h : '/' ∉ name.toList) :
    pieces (directory ++ "/" ++ name) = pieces directory ++ [name] := by
  have hchars : (directory ++ "/" ++ name).toList = directory.toList ++ '/' :: name.toList := by
    simp
  have hlast : ('/' :: name.toList).foldr cut ([], []) = ([], [] ++ [name]) := by
    rw [List.foldr_cons, foldr_cut_of_not_mem h, cut]
    simp
  rw [pieces_eq, pieces_eq, hchars, List.foldr_append, hlast,
    foldr_cut_append directory.toList ([], []) [name]]
  rfl

theorem names_slash (directory : String) {name : String} (h : IsName name) :
    names (directory ++ "/" ++ name) = names directory ++ [name] := by
  obtain ⟨hempty, hdot, hslash⟩ := h
  rw [names, names, pieces_slash directory hslash, List.filter_append]
  simp [hempty, hdot]

theorem names_trailing (directory : String) : names (directory ++ "/") = names directory := by
  have hpieces := @pieces_slash directory "" (by simp)
  rw [String.append_empty] at hpieces
  rw [names, names, hpieces, List.filter_append]
  simp

theorem exists_of_endsInSlash {path : String} (h : path.toList.getLast? = some '/') :
    ∃ front, path = front ++ "/" := by
  obtain ⟨front, hfront⟩ := List.getLast?_eq_some_iff.1 h
  refine ⟨.ofList front, ?_⟩
  rw [← String.toList_inj, hfront]
  simp

/-- Whatever slashes a path ends with, a name that is joined to it comes last. -/
theorem names_join (directory : String) {name : String} (h : IsName name) :
    names (join directory name) = names directory ++ [name] := by
  have hrelative : isAbsolute name = false := by
    rw [isAbsolute, beq_eq_false_iff_ne]
    intro hslash
    exact h.2.2 (List.mem_of_mem_head? hslash)
  rw [join, hrelative, Bool.false_or]
  -- an empty path, one that ends with a slash, and one that does not
  by_cases hempty : directory.isEmpty = true
  · rw [if_pos hempty, String.isEmpty_iff.1 hempty]
    obtain ⟨hname, hdot, hslash⟩ := h
    rw [names, pieces_eq, foldr_cut_of_not_mem hslash]
    simp [hname, hdot, names, pieces]
  · rw [if_neg hempty]
    split
    · rename_i hlast
      obtain ⟨front, rfl⟩ := exists_of_endsInSlash (beq_iff_eq.1 hlast)
      rw [names_slash front h, names_trailing]
    · exact names_slash directory h

theorem names_below (root : String) {names : List String} (h : ∀ name ∈ names, IsName name) :
    Path.names (below root names) = Path.names root ++ names := by
  induction names generalizing root with
  | nil => simp [below]
  | cons name rest ih =>
    obtain ⟨hname, hrest⟩ := List.forall_mem_cons.1 h
    change Path.names (below (join root name) rest) = _
    rw [ih _ hrest, names_join root hname]
    simp

end Path

namespace FileTree

/-- A file stands in a tree, under the names that lead to it. -/
inductive Holds : FileTree → List String → Bytes → Prop
  | file (content : Bytes) : Holds (.file content) [] content
  | entry {entries : List (String × FileTree)} {name : String} {tree : FileTree}
      {names : List String} {content : Bytes} (hentry : (name, tree) ∈ entries)
      (h : Holds tree names content) : Holds (.directory entries) (name :: names) content

/-- Every directory has its entries under names that differ, in their order. -/
inductive WellFormed : FileTree → Prop
  | file (content : Bytes) : WellFormed (.file content)
  | directory {entries : List (String × FileTree)} (hnames : ∀ e ∈ entries, Path.IsName e.1)
      (hascending : entries.Pairwise fun a b => a.1 < b.1)
      (hbelow : ∀ e ∈ entries, WellFormed e.2) : WellFormed (.directory entries)
  | unreadable (reason : String) : WellFormed (.unreadable reason)

/-- The same tree without what cannot be read. -/
def readable : FileTree → FileTree
  | file content => file content
  | directory entries => directory (entriesReadable entries)
  | unreadable _ => directory []
where
  entriesReadable : List (String × FileTree) → List (String × FileTree)
    | [] => []
    | (_, unreadable _) :: rest => entriesReadable rest
    | (name, tree) :: rest => (name, tree.readable) :: entriesReadable rest

/-! ## What a walk meets -/

theorem entriesVisits_eq (path : String) (entries : List (String × FileTree)) :
    visits.entriesVisits path entries =
      entries.flatMap fun e => e.2.visits (Path.join path e.1) := by
  induction entries with
  | nil => rfl
  | cons e rest ih => rw [visits.entriesVisits, ih, List.flatMap_cons]

theorem visits_directory (path : String) (entries : List (String × FileTree)) :
    (directory entries).visits path =
      entries.flatMap fun e => e.2.visits (Path.join path e.1) := by
  rw [visits, entriesVisits_eq]

theorem Holds.isName {tree : FileTree} {names : List String} {content : Bytes}
    (h : tree.Holds names content) (htree : tree.WellFormed) :
    ∀ name ∈ names, Path.IsName name := by
  induction h with
  | file content => simp
  | entry hentry _ ih =>
    cases htree with
    | directory hnames _ hbelow =>
      exact List.forall_mem_cons.2 ⟨hnames _ hentry, ih (hbelow _ hentry)⟩

/-- A walk meets every file. -/
theorem Holds.mem_visits {tree : FileTree} {names : List String} {content : Bytes}
    (h : tree.Holds names content) (root : String) :
    .file (Path.below root names) content ∈ tree.visits root := by
  induction h generalizing root with
  | file content => exact List.mem_singleton_self _
  | @entry entries name tree names content hentry _ ih =>
    rw [visits_directory]
    exact List.mem_flatMap_of_mem hentry (ih (Path.join root name))

mutual

/-- A walk meets nothing but the files. -/
theorem exists_holds (root : String) (tree : FileTree) {path : String} {content : Bytes}
    (h : .file path content ∈ tree.visits root) :
    ∃ names, tree.Holds names content ∧ path = Path.below root names := by
  cases tree with
  | file bytes =>
    rw [visits, List.mem_singleton] at h
    cases h
    exact ⟨[], .file content, rfl⟩
  | directory entries =>
    rw [visits] at h
    obtain ⟨name, tree, names, hentry, hholds, rfl⟩ := exists_entry_holds root entries h
    exact ⟨name :: names, .entry hentry hholds, rfl⟩
  | unreadable reason =>
    rw [visits, List.mem_singleton] at h
    contradiction

theorem exists_entry_holds (root : String) (entries : List (String × FileTree)) {path : String}
    {content : Bytes} (h : .file path content ∈ visits.entriesVisits root entries) :
    ∃ name tree names, (name, tree) ∈ entries ∧ tree.Holds names content ∧
      path = Path.below (Path.join root name) names := by
  cases entries with
  | nil => contradiction
  | cons e rest =>
    obtain ⟨name, tree⟩ := e
    rw [visits.entriesVisits, List.mem_append] at h
    obtain hhead | hrest := h
    · obtain ⟨names, hholds, hpath⟩ := exists_holds (Path.join root name) tree hhead
      exact ⟨name, tree, names, List.mem_cons_self, hholds, hpath⟩
    · obtain ⟨other, below, names, hentry, hholds, hpath⟩ := exists_entry_holds root rest hrest
      exact ⟨other, below, names, List.mem_cons_of_mem _ hentry, hholds, hpath⟩

end

theorem file_mem_visits_iff {root path : String} {tree : FileTree} {content : Bytes} :
    .file path content ∈ tree.visits root ↔
      ∃ names, tree.Holds names content ∧ path = Path.below root names := by
  constructor
  · exact exists_holds root tree
  · rintro ⟨names, hholds, rfl⟩
    exact hholds.mem_visits root

end FileTree

/-- The path at which something is met. -/
def Visit.path : Visit → String
  | file path _ => path
  | unreadable path _ => path

/-- Met where its path comes first, by its names one after the other. -/
def Visit.Before (a b : Visit) : Prop := Path.names a.path < Path.names b.path

namespace FileTree

/-- What is met below a directory has the names of the directory first. -/
theorem WellFormed.exists_names {tree : FileTree} (h : tree.WellFormed) {root : String}
    {v : Visit} (hv : v ∈ tree.visits root) :
    ∃ names, Path.names v.path = Path.names root ++ names := by
  induction h generalizing root with
  | file content =>
    rw [visits, List.mem_singleton] at hv
    exact ⟨[], by rw [hv, Visit.path, List.append_nil]⟩
  | unreadable reason =>
    rw [visits, List.mem_singleton] at hv
    exact ⟨[], by rw [hv, Visit.path, List.append_nil]⟩
  | directory hnames _ _ ih =>
    rw [visits_directory, List.mem_flatMap] at hv
    obtain ⟨e, he, hv⟩ := hv
    obtain ⟨names, hpath⟩ := ih e he hv
    refine ⟨e.1 :: names, ?_⟩
    rw [hpath, Path.names_join root (hnames e he), List.append_assoc, List.singleton_append]

/-- A walk takes things in the order of the names along their paths. -/
theorem WellFormed.pairwise_visits {tree : FileTree} (h : tree.WellFormed) (root : String) :
    (tree.visits root).Pairwise Visit.Before := by
  induction h generalizing root with
  | file content => exact List.pairwise_singleton _ _
  | unreadable reason => exact List.pairwise_singleton _ _
  | @directory entries hnames hascending hbelow ih =>
    rw [visits_directory, List.pairwise_flatMap]
    refine ⟨fun e he => ih e he _, ?_⟩
    -- siblings share the names of the directory, and what follows starts with their own names
    refine hascending.imp_of_mem ?_
    intro a b ha hb hlt v hv w hw
    obtain ⟨front, hfront⟩ := (hbelow a ha).exists_names hv
    obtain ⟨back, hback⟩ := (hbelow b hb).exists_names hw
    rw [Path.names_join root (hnames a ha), List.append_assoc] at hfront
    rw [Path.names_join root (hnames b hb), List.append_assoc] at hback
    rw [Visit.Before, hfront, hback]
    exact List.append_left_lt (List.cons_lt_cons_iff.2 (.inl hlt))

/-! ## Without what cannot be read -/

end FileTree

def Visit.isFile : Visit → Bool
  | file .. => true
  | unreadable .. => false

namespace FileTree

mutual

/-- What cannot be read stands in the way of nothing else. -/
theorem visits_readable (path : String) (tree : FileTree) :
    tree.readable.visits path = (tree.visits path).filter Visit.isFile := by
  cases tree with
  | file content => rfl
  | directory entries =>
    rw [readable, visits, visits]
    exact entriesVisits_readable path entries
  | unreadable reason => rfl

theorem entriesVisits_readable (path : String) (entries : List (String × FileTree)) :
    visits.entriesVisits path (readable.entriesReadable entries) =
      (visits.entriesVisits path entries).filter Visit.isFile := by
  cases entries with
  | nil => rfl
  | cons e rest =>
    obtain ⟨name, tree⟩ := e
    have hrest := entriesVisits_readable path rest
    cases tree with
    | unreadable reason => exact hrest
    | _ =>
      rw [readable.entriesReadable, visits.entriesVisits, visits.entriesVisits, List.filter_append,
        hrest, visits_readable (Path.join path name) _]
      simp

end

end FileTree

namespace FileSystem

/-- Every node stands under names. -/
def Named (fs : FileSystem) : Prop := ∀ n ∈ fs.nodes, ∀ name ∈ n.1, Path.IsName name

instance (fs : FileSystem) : Decidable fs.Named :=
  inferInstanceAs (Decidable (∀ n ∈ fs.nodes, ∀ name ∈ n.1, Path.IsName name))

theorem mem_nodes_of_mem_entries {fs : FileSystem} {place : List String}
    {e : String × FileNode} (he : e ∈ fs.entries place) : (place ++ [e.1], e.2) ∈ fs.nodes := by
  obtain ⟨n, hn, hentry⟩ := List.mem_filterMap.1 (TextMap.mem_of_mem_ofList he)
  cases hlast : n.1.getLast? with
  | none => simp [hlast] at hentry
  | some name =>
    obtain ⟨front, hfront⟩ := List.getLast?_eq_some_iff.1 hlast
    simp only [hlast, Option.ite_none_right_eq_some, Option.some.injEq] at hentry
    obtain ⟨rfl, rfl⟩ := hentry
    rwa [hfront, List.dropLast_concat, ← hfront]

theorem Named.isName_of_mem_entries {fs : FileSystem} (h : fs.Named) {place : List String}
    {e : String × FileNode} (he : e ∈ fs.entries place) : Path.IsName e.1 :=
  h _ (mem_nodes_of_mem_entries he) e.1 (List.mem_append_right _ (List.mem_singleton_self _))

theorem Named.wellFormed_treeBelow {fs : FileSystem} (h : fs.Named) (fuel : Nat)
    (above : List (List String × String)) (place : List String) (path : String) :
    (fs.treeBelow fuel above place path).WellFormed := by
  induction fuel generalizing above place path with
  | zero => exact .directory (by simp) .nil (by simp)
  | succ fuel ih =>
    rw [treeBelow]
    refine .directory ?_ ?_ ?_
    · intro e he
      obtain ⟨entry, hentry, rfl⟩ := List.mem_map.1 he
      exact h.isName_of_mem_entries hentry
    · rw [List.pairwise_map]
      exact (TextMap.ofList _).ascending
    · intro e he
      obtain ⟨⟨name, node⟩, -, rfl⟩ := List.mem_map.1 he
      cases node with
      | file content => exact .file content
      | directory => exact ih _ _ _
      | link target =>
        dsimp only
        split
        · exact .unreadable _
        · exact .file _
        · split
          · exact .unreadable _
          · exact ih _ _ _

/-- The tree below a directory of a file system is one that a walk can follow. -/
theorem Named.wellFormed_tree? {fs : FileSystem} (h : fs.Named) {path : String} {tree : FileTree}
    (htree : fs.tree? path = some tree) : tree.WellFormed := by
  rw [tree?] at htree
  split at htree
  · cases htree
    exact h.wellFormed_treeBelow _ _ _ _
  · contradiction

theorem tree?_eq_none_iff (fs : FileSystem) (path : String) :
    fs.tree? path = none ↔ fs.isDirectory path = false := by
  rw [tree?, isDirectory]
  split <;> simp

end FileSystem
end LoggingFacade
