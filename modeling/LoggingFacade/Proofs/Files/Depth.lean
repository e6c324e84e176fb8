import LoggingFacade.Proofs.Files.Walk
import Mathlib.Data.List.Basic

/-!
# How deep a walk goes

A walk never uses up the levels that it is given. Every link that it follows leads to a place
it is not in yet, and so there are fewer such places left; between two links it only goes down.
-/

namespace LoggingFacade
namespace FileSystem

variable {fs : FileSystem}

/-! ## Places -/

/-- The root, and the places of the nodes. -/
def places (fs : FileSystem) : List (List String) := [] :: fs.nodes.map Prod.fst

theorem mem_places_of_node? {place : List String} {node : FileNode}
    (h : fs.node? place = some node) : place ∈ fs.places := by
  rw [node?] at h
  split at h
  · rename_i hempty
    rw [List.isEmpty_iff.1 hempty]
    exact List.mem_cons_self
  · obtain ⟨front, back, hnodes, -⟩ := List.lookup_eq_some_iff.1 h
    have hnode : (place, node) ∈ fs.nodes := by simp [hnodes]
    exact List.mem_cons_of_mem _ (List.mem_map_of_mem hnode)

/-- What names lead to is a node that stands there. -/
theorem node?_of_follow {links : Nat} {here names place : List String} {node : FileNode}
    (h : fs.follow links here names = .ok (place, node)) : fs.node? place = some node := by
  fun_induction follow fs links here names with
  | case1 links here found hnode =>
    cases h
    exact hnode
  | case6 links here name rest hname content hnode hlast =>
    cases h
    exact hnode
  | case3 links here rest ih => exact ih h
  | case5 links here name rest hname hnode ih => exact ih h
  | case9 here name rest hname target hnode links ih => exact ih h
  | _ => contradiction

theorem length_le_height {place : List String} {node : FileNode} (h : (place, node) ∈ fs.nodes) :
    place.length ≤ fs.height :=
  List.le_max?_getD_of_mem (List.mem_map_of_mem (f := (·.1.length)) h)

/-! ## Levels -/

/-- The places that a walk is not in. -/
def fresh (fs : FileSystem) (above : List (List String × String)) : List (List String) :=
  fs.places.filter fun place => above.all (·.1 != place)

/-- The levels that a walk can still go down from a place. -/
def levelsLeft (fs : FileSystem) (above : List (List String × String)) (place : List String) :
    Nat :=
  (fs.fresh above).length * (fs.height + 1) + (fs.height - place.length)

theorem fresh_cons (place : List String) (path : String) (above : List (List String × String)) :
    fs.fresh ((place, path) :: above) = (fs.fresh above).filter (place != ·) := by
  rw [fresh, fresh, List.filter_filter]
  simp only [List.all_cons]

theorem length_fresh_cons_le (place : List String) (path : String)
    (above : List (List String × String)) :
    (fs.fresh ((place, path) :: above)).length ≤ (fs.fresh above).length := by
  rw [fresh_cons]
  exact List.length_filter_le _ _

theorem length_fresh_cons_lt {place : List String} {above : List (List String × String)}
    (h : place ∈ fs.fresh above) (path : String) :
    (fs.fresh ((place, path) :: above)).length < (fs.fresh above).length := by
  rw [fresh_cons, List.length_filter_lt_length_iff_exists]
  exact ⟨place, h, by simp⟩

theorem mem_fresh {place : List String} {above : List (List String × String)}
    (hplace : place ∈ fs.places) (h : above.find? (·.1 == place) = none) :
    place ∈ fs.fresh above := by
  rw [List.find?_eq_none] at h
  refine List.mem_filter.2 ⟨hplace, List.all_eq_true.2 ?_⟩
  intro x hx
  simpa using h x hx

/-- One level is used up in going down. -/
theorem levelsLeft_directory {place : List String} {name : String} {node : FileNode}
    (h : (name, node) ∈ fs.entries place) (above : List (List String × String)) (path : String) :
    fs.levelsLeft ((place ++ [name], path) :: above) (place ++ [name]) <
      fs.levelsLeft above place := by
  have hheight := length_le_height (mem_nodes_of_mem_entries h)
  have hfewer : (fs.fresh ((place ++ [name], path) :: above)).length ≤ (fs.fresh above).length :=
    length_fresh_cons_le _ _ _
  have hlinks := Nat.mul_le_mul_right (fs.height + 1) hfewer
  rw [List.length_append, List.length_singleton] at hheight
  rw [levelsLeft, levelsLeft, List.length_append, List.length_singleton]
  omega

/-- At least one is used up in following a link. -/
theorem levelsLeft_link {reached : List String} {above : List (List String × String)}
    (h : reached ∈ fs.fresh above) (path : String) (place : List String) :
    fs.levelsLeft ((reached, path) :: above) reached < fs.levelsLeft above place := by
  have hlinks := Nat.mul_le_mul_right (fs.height + 1) (length_fresh_cons_lt h path)
  rw [Nat.succ_mul] at hlinks
  rw [levelsLeft, levelsLeft]
  omega

/-- With more levels than a walk can go down, their number makes no difference. -/
theorem treeBelow_eq_of_lt {levels more : Nat} {above : List (List String × String)}
    {place : List String} (path : String) (h : fs.levelsLeft above place < levels)
    (hmore : fs.levelsLeft above place < more) :
    fs.treeBelow levels above place path = fs.treeBelow more above place path := by
  induction levels generalizing more above place path with
  | zero => omega
  | succ levels ih =>
    cases more with
    | zero => omega
    | succ more =>
      rw [treeBelow, treeBelow]
      congr 1
      refine List.map_congr_left ?_
      rintro ⟨name, node⟩ he
      cases node with
      | file content => rfl
      | directory =>
        have hless := levelsLeft_directory he above (Path.join path name)
        dsimp only
        rw [ih _ (by omega : _ < levels) (by omega : _ < more)]
      | link target =>
        dsimp only
        split
        · rfl
        · rfl
        · rename_i reached _ _ hfollow
          split
          · rfl
          · rename_i hnone
            have hfresh := mem_fresh (mem_places_of_node? (node?_of_follow hfollow)) hnone
            have hless := levelsLeft_link hfresh (Path.join path name) place
            rw [ih _ (by omega : _ < levels) (by omega : _ < more)]

theorem levelsLeft_lt_greatestDepth (above : List (List String × String)) (place : List String) :
    fs.levelsLeft above place < fs.greatestDepth := by
  have hplaces : fs.places.length = fs.nodes.length + 1 := by simp [places]
  have hfresh : (fs.fresh above).length ≤ fs.places.length := List.length_filter_le _ _
  have hlinks := Nat.mul_le_mul_right (fs.height + 1) (hplaces ▸ hfresh)
  rw [levelsLeft, greatestDepth, Nat.succ_mul]
  omega

/-- No walk is cut: with any more levels it meets the same tree. -/
theorem tree?_eq_of_le {levels : Nat} (hlevels : fs.greatestDepth ≤ levels) {path : String}
    {place : List String} (hplace : fs.resolve path = .ok (place, .directory)) :
    fs.tree? path = some (fs.treeBelow levels [(place, path)] place path) := by
  have hleft : fs.levelsLeft [(place, path)] place < fs.greatestDepth :=
    levelsLeft_lt_greatestDepth _ _
  rw [tree?, hplace]
  exact congrArg some (treeBelow_eq_of_lt path hleft (Nat.lt_of_lt_of_le hleft hlevels))

end FileSystem
end LoggingFacade
