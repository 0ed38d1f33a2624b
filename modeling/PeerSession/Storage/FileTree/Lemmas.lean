import PeerSession.Storage.FileTree.Basic

namespace PeerSession.Storage

/-!
# Looking up places in changed file trees

Setting or clearing a place in a directory of the tree shows there and nowhere
else, and leaves the directories where they are.
-/

namespace Directory

/-- Entries of other names do not matter to a look-up. -/
private theorem lookup_filter_ne
    (entries : List (String × Node))
    {name other : String}
    (different : other ≠ name) :
    (entries.filter fun entry => entry.1 ≠ name).lookup other =
      entries.lookup other := by
  induction entries with
  | nil =>
      rfl
  | cons entry rest inductionHypothesis =>
      rcases entry with ⟨key, node⟩
      by_cases here : key = name
      · have elsewhere : (other == key) = false := by
          simp [here, different]
        rw [List.filter_cons_of_neg (by simp [here]),
          List.lookup_cons, elsewhere]
        exact inductionHypothesis
      · rw [List.filter_cons_of_pos (by simp [here]),
          List.lookup_cons, List.lookup_cons, inductionHypothesis]

/-- Entries of one name are all gone once it is cleared. -/
private theorem lookup_filter_same
    (entries : List (String × Node))
    (name : String) :
    (entries.filter fun entry => entry.1 ≠ name).lookup name = none := by
  induction entries with
  | nil =>
      rfl
  | cons entry rest inductionHypothesis =>
      rcases entry with ⟨key, node⟩
      by_cases here : key = name
      · rw [List.filter_cons_of_neg (by simp [here])]
        exact inductionHypothesis
      · have elsewhere : (name == key) = false := by
          simp [Ne.symm here]
        rw [List.filter_cons_of_pos (by simp [here]),
          List.lookup_cons, elsewhere]
        exact inductionHypothesis

/-- A directory without names has nothing at any name. -/
@[simp] theorem node?_empty
    (parent : DirectoryId)
    (name : String) :
    (empty parent).node? name = none :=
  rfl

/-- Clearing a name leaves nothing there and all else alone. -/
theorem node?_clear
    (directory : Directory)
    (name other : String) :
    (directory.clear name).node? other =
      if other = name then none else directory.node? other := by
  by_cases here : other = name
  · subst other
    simpa only [node?, clear, if_true] using
      lookup_filter_same directory.entries name
  · simpa only [node?, clear, here, if_false] using
      lookup_filter_ne directory.entries here

/-- Setting a name changes what stands there and nothing else. -/
theorem node?_set
    (directory : Directory)
    (name : String)
    (node : Node)
    (other : String) :
    (directory.set name node).node? other =
      if other = name then some node else directory.node? other := by
  by_cases here : other = name
  · simp [node?, set, here]
  · have elsewhere : (other == name) = false := by
      simp [here]
    have cleared := node?_clear directory name other
    simp only [node?, set, List.lookup_cons, elsewhere, here,
      if_false] at cleared ⊢
    exact cleared

end Directory

namespace FileTree

/-- A change of one directory shows at the places in it only. -/
private theorem node?_modify
    (tree : FileTree)
    {id : DirectoryId}
    (known : id < tree.directories.size)
    (change : Directory → Directory)
    (place : Place) :
    (FileTree.mk (tree.directories.modify id change)).node? place =
      if place.inside = id then
        (change tree.directories[id]).node? place.name
      else
        tree.node? place := by
  by_cases here : place.inside = id
  · simp [node?, here, Array.getElem_modify, known]
  · simp [node?, here, Array.getElem?_modify, Ne.symm here]

/-- Setting a node in a known directory changes what stands there and nothing else. -/
theorem node?_set
    (tree : FileTree)
    {place : Place}
    (known : place.inside < tree.directories.size)
    (node : Node)
    (other : Place) :
    (tree.set place node).node? other =
      if other = place then some node else tree.node? other := by
  rcases place with ⟨id, name⟩
  rcases other with ⟨otherId, otherName⟩
  rw [set, node?_modify tree known]
  by_cases inside : otherId = id
  · subst otherId
    simp [Directory.node?_set, node?, known]
  · simp [inside]

/-- Clearing a place in a known directory leaves nothing there and all else alone. -/
theorem node?_clear
    (tree : FileTree)
    {place : Place}
    (known : place.inside < tree.directories.size)
    (other : Place) :
    (tree.clear place).node? other =
      if other = place then none else tree.node? other := by
  rcases place with ⟨id, name⟩
  rcases other with ⟨otherId, otherName⟩
  rw [clear, node?_modify tree known]
  by_cases inside : otherId = id
  · subst otherId
    simp [Directory.node?_clear, node?, known]
  · simp [inside]

/-- A new directory has no names and changes none. -/
theorem node?_addDirectory
    (tree : FileTree)
    (parent : DirectoryId)
    (place : Place) :
    (tree.addDirectory parent).node? place = tree.node? place := by
  by_cases fresh : place.inside = tree.directories.size
  · simp [node?, addDirectory, fresh]
  · simp [node?, addDirectory, Array.getElem?_push, fresh]

/-- Setting a node does not move a directory. -/
theorem above_set
    (tree : FileTree)
    (place : Place)
    (node : Node)
    (id : DirectoryId) :
    (tree.set place node).above id = tree.above id := by
  by_cases here : place.inside = id
  · cases found : tree.directories[id]? <;>
      simp [above, set, here, Array.getElem?_modify, found, Directory.set]
  · simp [above, set, here, Array.getElem?_modify]

/-- Clearing a place does not move a directory. -/
theorem above_clear
    (tree : FileTree)
    (place : Place)
    (id : DirectoryId) :
    (tree.clear place).above id = tree.above id := by
  by_cases here : place.inside = id
  · cases found : tree.directories[id]? <;>
      simp [above, clear, here, Array.getElem?_modify, found, Directory.clear]
  · simp [above, clear, here, Array.getElem?_modify]

end FileTree

end PeerSession.Storage
