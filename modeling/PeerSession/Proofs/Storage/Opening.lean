import PeerSession.Proofs.Storage.FileTree
import PeerSession.Storage.Folder

namespace PeerSession.Storage

/-!
# Opened folders

Making directories keeps a file tree well-formed. Once the directory of a folder
has been made, together with those above it as far as they were missing, the
path of the folder leads to it.
-/

namespace FileTree

/-- A well-formed tree in which a path leads to a directory. -/
structure Reaches
    (tree : FileTree)
    (path : List PathPart)
    (id : DirectoryId) :
    Prop where
  wellFormed : tree.WellFormed
  find : tree.find path = .ok (.directory id)

theorem Reaches.known
    {tree : FileTree}
    {path : List PathPart}
    {id : DirectoryId}
    (reaches : tree.Reaches path id) :
    id < tree.directories.size :=
  reaches.wellFormed.holds_find reaches.find

/-- What changes no directory does not change what directory a path leads to. -/
theorem FileChange.reaches
    {old new : FileTree}
    {place : Place}
    {contents : Option Bytes}
    {path : List PathPart}
    {id : DirectoryId}
    (change : FileChange old place contents new)
    (free : ∀ other, old.node? place ≠ some (.directory other))
    (reaches : old.Reaches path id) :
    new.Reaches path id where
  wellFormed := change.wellFormed reaches.wellFormed
  find := (change.extends_old free).find reaches.wellFormed reaches.find

theorem size_addDirectory
    (tree : FileTree)
    (parent : DirectoryId) :
    (tree.addDirectory parent).directories.size =
      tree.directories.size + 1 :=
  Array.size_push _

theorem above_addDirectory
    (tree : FileTree)
    (parent id : DirectoryId) :
    (tree.addDirectory parent).above id =
      if id = tree.directories.size then parent else tree.above id := by
  by_cases fresh : id = tree.directories.size
  · simp [above, addDirectory, fresh, Directory.empty]
  · simp [above, addDirectory, Array.getElem?_push, fresh]

section Made

variable {tree : FileTree} {place : Place}

/-- The tree with a new directory at a place. -/
def withDirectory (tree : FileTree) (place : Place) : FileTree :=
  (tree.addDirectory place.inside).set
    place (.directory tree.directories.size)

theorem size_withDirectory (tree : FileTree) (place : Place) :
    (tree.withDirectory place).directories.size =
      tree.directories.size + 1 := by
  unfold withDirectory set
  rw [Array.size_modify, size_addDirectory]

theorem above_withDirectory
    (tree : FileTree)
    (place : Place)
    (id : DirectoryId) :
    (tree.withDirectory place).above id =
      if id = tree.directories.size then place.inside else tree.above id := by
  unfold withDirectory
  rw [above_set, above_addDirectory]

theorem node?_withDirectory
    (known : place.inside < tree.directories.size)
    (other : Place) :
    (tree.withDirectory place).node? other =
      if other = place then
        some (.directory tree.directories.size)
      else
        tree.node? other := by
  have stillKnown :
      place.inside <
        (tree.addDirectory place.inside).directories.size := by
    rw [size_addDirectory]
    exact Nat.lt_succ_of_lt known
  unfold withDirectory
  rw [node?_set _ stillKnown, node?_addDirectory]

theorem WellFormed.withDirectory
    (wellFormed : tree.WellFormed)
    (known : place.inside < tree.directories.size) :
    (tree.withDirectory place).WellFormed where
  rooted := by
    rw [size_withDirectory]
    exact Nat.succ_pos _
  named := by
    intro other id stands
    rw [node?_withDirectory known] at stands
    rw [size_withDirectory]
    split at stands
    · cases stands
      exact Nat.lt_succ_self _
    · exact Nat.lt_succ_of_lt (wellFormed.named other id stands)
  above := by
    intro id isDirectory
    rw [size_withDirectory] at isDirectory ⊢
    rw [above_withDirectory]
    by_cases isNew : id = tree.directories.size
    · rw [if_pos isNew]
      exact Nat.lt_succ_of_lt known
    · have isOld : id < tree.directories.size :=
        Nat.lt_of_le_of_ne (Nat.le_of_lt_succ isDirectory) isNew
      rw [if_neg isNew]
      exact Nat.lt_succ_of_lt (wellFormed.above id isOld)

theorem extends_withDirectory
    (known : place.inside < tree.directories.size)
    (vacant : tree.node? place = none) :
    Extends tree (tree.withDirectory place) where
  size := by
    rw [size_withDirectory]
    exact Nat.le_succ _
  named := by
    intro other id stands
    have elsewhere : other ≠ place := by
      intro here
      rw [here, vacant] at stands
      exact nomatch stands
    rw [node?_withDirectory known, if_neg elsewhere]
    exact stands
  above := by
    intro id isDirectory
    rw [above_withDirectory, if_neg (Nat.ne_of_lt isDirectory)]

end Made

/-- A directory that was made is where its path leads. -/
theorem reaches_makeDirectory
    {tree made : FileTree}
    {path : List PathPart}
    (wellFormed : tree.WellFormed)
    (success : tree.makeDirectory path = .ok made) :
    ∃ id, made.Reaches path id := by
  unfold makeDirectory at success
  split at success
  next place ended =>
    obtain ⟨known, vacant⟩ := wellFormed.holds_find ended
    have isMade : tree.withDirectory place = made :=
      Except.ok.inj success
    subst isMade
    obtain ⟨front, rfl, fits, reached⟩ := find_eq_nothing ended
    have grown := extends_withDirectory known vacant
    have looked :
        (tree.withDirectory place).look place =
          .directory tree.directories.size := by
      rw [look_eq_directory, node?_withDirectory known, if_pos rfl]
    refine ⟨tree.directories.size, wellFormed.withDirectory known, ?_⟩
    rw [find_name (grown.find wellFormed reached) fits]
    exact congrArg Except.ok looked
  next =>
    exact nomatch success
  next =>
    exact nomatch success

theorem reaches_keepDirectory
    {tree kept : FileTree}
    {path : List PathPart}
    {error : Error}
    (wellFormed : tree.WellFormed)
    (success : tree.keepDirectory path error = .ok kept) :
    ∃ id, kept.Reaches path id := by
  unfold keepDirectory at success
  split at success
  next isThere =>
    cases success
    unfold hasDirectory at isThere
    split at isThere
    next id ended =>
      exact ⟨id, wellFormed, ended⟩
    next =>
      exact nomatch isThere
  next =>
    exact nomatch success

/-- Making a list of directories from the outermost one missing ends with the first. -/
theorem reaches_makeInner
    {tree made : FileTree}
    {paths : List (List PathPart)}
    (wellFormed : tree.WellFormed)
    (success : tree.makeInner paths = .ok made) :
    made.WellFormed ∧
      ∀ path outer, paths = path :: outer → ∃ id, made.Reaches path id := by
  induction paths generalizing made with
  | nil =>
      cases success
      exact ⟨wellFormed, nofun⟩
  | cons path outer inductionHypothesis =>
      have reaches : ∃ id, made.Reaches path id := by
        unfold makeInner at success
        split at success
        next first madeFirst =>
          cases success
          exact reaches_makeDirectory wellFormed madeFirst
        next error failed =>
          split at success
          · split at success
            next =>
              exact nomatch success
            next grown madeOuter =>
              obtain ⟨grownSound, _⟩ := inductionHypothesis madeOuter
              split at success
              next again madeAgain =>
                cases success
                exact reaches_makeDirectory grownSound madeAgain
              next =>
                exact reaches_keepDirectory grownSound success
          · exact reaches_keepDirectory wellFormed success
      obtain ⟨id, reached⟩ := reaches
      refine ⟨reached.wellFormed, ?_⟩
      rintro _ _ ⟨⟩
      exact ⟨id, reached⟩

theorem reaches_makeDirectories
    {tree made : FileTree}
    {path : List PathPart}
    (wellFormed : tree.WellFormed)
    (success : tree.makeDirectories path = .ok made) :
    ∃ id, made.Reaches path id :=
  (reaches_makeInner wellFormed success).2 path _ rfl

end FileTree

/-- Wherever a folder is opened, its path leads to a directory. -/
theorem Folder.reaches_open
    {tree : FileTree}
    {base : Path}
    {directory : String}
    {folder : Folder}
    (wellFormed : tree.WellFormed)
    (success : open? tree base directory = .ok folder) :
    ∃ id, folder.tree.Reaches folder.path.parts id := by
  unfold open? at success
  simp only at success
  split at success
  · exact nomatch success
  · split at success
    · split at success
      next made madeAll =>
        cases success
        exact FileTree.reaches_makeDirectories wellFormed madeAll
      next =>
        exact nomatch success
    · exact nomatch success

end PeerSession.Storage
