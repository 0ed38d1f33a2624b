import PeerSession.Storage.FileTree.Files
import PeerSession.Storage.FileTree.Lemmas

namespace PeerSession.Storage.FileTree

/-!
# Well-formed file trees

In a well-formed tree all names of directories, and all steps up, lead to
directories of the tree. A walk then ends at a place of the tree, and later
changes do not lead a walk to a directory elsewhere as long as every name of a
directory stays what it is. Changes of regular files are of this kind.
-/

/-- There is a root directory, and no directory leads out of the tree. -/
structure WellFormed (tree : FileTree) : Prop where
  rooted : 0 < tree.directories.size
  named :
    ∀ place id,
      tree.node? place = some (.directory id) →
        id < tree.directories.size
  above :
    ∀ id,
      id < tree.directories.size →
        tree.above id < tree.directories.size

theorem wellFormed_empty : empty.WellFormed where
  rooted := by decide
  named := by
    intro place id stands
    rcases place with ⟨inside, name⟩
    cases inside with
    | zero =>
        exact nomatch stands
    | succ beyond =>
        simp [empty, node?] at stands
  above := by
    intro id known
    have isRoot : id = 0 := Nat.lt_one_iff.mp known
    subst isRoot
    decide

/-- What a walk can end at in a tree. -/
def Holds (tree : FileTree) : Found → Prop
  | .directory id => id < tree.directories.size
  | .file place contents =>
      place.inside < tree.directories.size ∧
        tree.node? place = some (.file contents)
  | .nothing place =>
      place.inside < tree.directories.size ∧ tree.node? place = none

/-- A tree keeps the directories of an older one and the names for them. -/
structure Extends (old new : FileTree) : Prop where
  size : old.directories.size ≤ new.directories.size
  named :
    ∀ place id,
      old.node? place = some (.directory id) →
        new.node? place = some (.directory id)
  above :
    ∀ id,
      id < old.directories.size →
        new.above id = old.above id

theorem look_eq_directory
    {tree : FileTree}
    {place : Place}
    {id : DirectoryId} :
    tree.look place = .directory id ↔
      tree.node? place = some (.directory id) := by
  unfold look
  split <;> simp_all

theorem walk_eq_directory
    {tree : FileTree}
    {found : Found}
    {path : List PathPart}
    {last : DirectoryId}
    (walked : tree.walk found path = .ok (.directory last)) :
    ∃ id, found = .directory id := by
  cases found with
  | directory id =>
      exact ⟨id, rfl⟩
  | file place contents =>
      cases path <;> exact nomatch walked
  | nothing place =>
      cases path <;> exact nomatch walked

/-- A walk takes a first step that can be taken. -/
theorem walk_cons_of_ok
    {tree : FileTree}
    {id : DirectoryId}
    {part : PathPart}
    {rest : List PathPart}
    {found : Found}
    (walked : tree.walk (.directory id) (part :: rest) = .ok found) :
    part.fits = true ∧
      tree.walk (tree.follow id part) rest = .ok found := by
  by_cases fits : part.fits = true
  · simp only [walk, fits, if_true] at walked
    exact ⟨fits, walked⟩
  · simp only [walk, fits] at walked
    cases walked

namespace WellFormed

variable {tree : FileTree}

theorem holds_look
    (wellFormed : tree.WellFormed)
    {place : Place}
    (known : place.inside < tree.directories.size) :
    tree.Holds (tree.look place) := by
  unfold look
  cases stands : tree.node? place with
  | none =>
      exact ⟨known, stands⟩
  | some node =>
      cases node with
      | file contents =>
          exact ⟨known, stands⟩
      | directory id =>
          exact wellFormed.named place id stands

theorem holds_follow
    (wellFormed : tree.WellFormed)
    {id : DirectoryId}
    (known : id < tree.directories.size)
    (part : PathPart) :
    tree.Holds (tree.follow id part) := by
  cases part with
  | name entry =>
      exact wellFormed.holds_look known
  | same =>
      exact known
  | above =>
      exact wellFormed.above id known

/-- A walk that starts in the tree ends in it. -/
theorem holds_walk
    (wellFormed : tree.WellFormed)
    {found last : Found}
    {path : List PathPart}
    (holds : tree.Holds found)
    (walked : tree.walk found path = .ok last) :
    tree.Holds last := by
  induction path generalizing found with
  | nil =>
      cases walked
      exact holds
  | cons part rest inductionHypothesis =>
      cases found with
      | directory id =>
          obtain ⟨_, continued⟩ := walk_cons_of_ok walked
          exact inductionHypothesis
            (wellFormed.holds_follow holds part) continued
      | file place contents =>
          exact nomatch walked
      | nothing place =>
          exact nomatch walked

theorem holds_find
    (wellFormed : tree.WellFormed)
    {path : List PathPart}
    {found : Found}
    (ended : tree.find path = .ok found) :
    tree.Holds found := by
  have started : tree.Holds (.directory 0) := wellFormed.rooted
  exact wellFormed.holds_walk started ended

end WellFormed

/-- A name in a directory is looked up one step further. -/
theorem find_name
    {tree : FileTree}
    {path : List PathPart}
    {id : DirectoryId}
    {name : String}
    (ended : tree.find path = .ok (.directory id))
    (fits : (PathPart.name name).fits = true) :
    tree.find (path ++ [.name name]) =
      .ok (tree.look { inside := id, name := name }) := by
  unfold find at ended ⊢
  rw [walk_append, ended]
  simp only [walk, fits, if_true]
  rfl

/-- Only a name leads to a place where nothing stands. -/
theorem find_eq_nothing
    {tree : FileTree}
    {path : List PathPart}
    {place : Place}
    (ended : tree.find path = .ok (.nothing place)) :
    ∃ front,
      path = front ++ [.name place.name] ∧
        (PathPart.name place.name).fits = true ∧
        tree.find front = .ok (.directory place.inside) := by
  rcases List.eq_nil_or_concat path with rfl | ⟨front, part, rfl⟩
  · exact nomatch ended
  · unfold find at ended
    rw [List.concat_eq_append, walk_append] at ended
    split at ended
    next middle reached =>
      cases middle with
      | directory id =>
          obtain ⟨fits, followed⟩ := walk_cons_of_ok ended
          cases part with
          | name entry =>
              have looked :
                  tree.look { inside := id, name := entry } =
                    .nothing place :=
                Except.ok.inj followed
              unfold look at looked
              split at looked
              · exact nomatch looked
              · exact nomatch looked
              · cases looked
                exact ⟨front, by simp, fits, reached⟩
          | same =>
              exact nomatch followed
          | above =>
              exact nomatch followed
      | file other contents =>
          exact nomatch ended
      | nothing other =>
          exact nomatch ended
    next =>
      exact nomatch ended

namespace Extends

variable {old new : FileTree}

theorem follow
    (grown : Extends old new)
    {id next : DirectoryId}
    {part : PathPart}
    (known : id < old.directories.size)
    (followed : old.follow id part = .directory next) :
    new.follow id part = .directory next := by
  cases part with
  | name entry =>
      exact look_eq_directory.mpr
        (grown.named _ _ (look_eq_directory.mp followed))
  | same =>
      exact followed
  | above =>
      have unmoved := grown.above id known
      simp only [FileTree.follow] at followed ⊢
      rw [unmoved]
      exact followed

/-- A walk to a directory goes on leading there. -/
theorem walk
    (grown : Extends old new)
    (wellFormed : old.WellFormed)
    {id last : DirectoryId}
    {path : List PathPart}
    (known : id < old.directories.size)
    (walked : old.walk (.directory id) path = .ok (.directory last)) :
    new.walk (.directory id) path = .ok (.directory last) := by
  induction path generalizing id with
  | nil =>
      exact walked
  | cons part rest inductionHypothesis =>
      obtain ⟨fits, continued⟩ := walk_cons_of_ok walked
      obtain ⟨next, followed⟩ := walk_eq_directory continued
      have nextKnown : old.Holds (.directory next) := by
        rw [← followed]
        exact wellFormed.holds_follow known part
      rw [followed] at continued
      simp only [FileTree.walk, fits, if_true, grown.follow known followed]
      exact inductionHypothesis nextKnown continued

theorem find
    (grown : Extends old new)
    (wellFormed : old.WellFormed)
    {path : List PathPart}
    {id : DirectoryId}
    (ended : old.find path = .ok (.directory id)) :
    new.find path = .ok (.directory id) :=
  grown.walk wellFormed wellFormed.rooted ended

end Extends

/-- A tree differs from an older one in what regular file, if any, stands at a place. -/
structure FileChange
    (old : FileTree)
    (place : Place)
    (contents : Option Bytes)
    (new : FileTree) :
    Prop where
  size : new.directories.size = old.directories.size
  above : ∀ id, new.above id = old.above id
  node? :
    ∀ other,
      new.node? other =
        if other = place then contents.map .file else old.node? other

namespace FileChange

variable {old middle new : FileTree} {place : Place}
  {contents between : Option Bytes}

theorem refl
    (stands : old.node? place = contents.map .file) :
    FileChange old place contents old where
  size := rfl
  above := fun _ => rfl
  node? := by
    intro other
    by_cases here : other = place
    · rw [if_pos here, here, stands]
    · rw [if_neg here]

/-- Of two changes at one place the later one counts. -/
theorem trans
    (first : FileChange old place between middle)
    (second : FileChange middle place contents new) :
    FileChange old place contents new where
  size := second.size.trans first.size
  above := fun id => (second.above id).trans (first.above id)
  node? := by
    intro other
    rw [second.node?, first.node?]
    split <;> rfl

theorem node?_same
    (change : FileChange old place contents new) :
    new.node? place = contents.map .file := by
  rw [change.node?, if_pos rfl]

theorem node?_other
    (change : FileChange old place contents new)
    {other : Place}
    (different : other ≠ place) :
    new.node? other = old.node? other := by
  rw [change.node?, if_neg different]

theorem wellFormed
    (change : FileChange old place contents new)
    (sound : old.WellFormed) :
    new.WellFormed where
  rooted := change.size ▸ sound.rooted
  named := by
    intro other id stands
    rw [change.size]
    by_cases here : other = place
    · rw [here, change.node?_same] at stands
      cases contents <;> exact nomatch stands
    · rw [change.node?_other here] at stands
      exact sound.named other id stands
  above := by
    intro id known
    rw [change.size] at known ⊢
    rw [change.above]
    exact sound.above id known

/-- Where no directory stood, a file can come or go without moving a directory. -/
theorem extends_old
    (change : FileChange old place contents new)
    (free : ∀ id, old.node? place ≠ some (.directory id)) :
    Extends old new where
  size := Nat.le_of_eq change.size.symm
  named := by
    intro other id stands
    have elsewhere : other ≠ place := by
      intro here
      subst here
      exact free id stands
    rw [change.node?_other elsewhere]
    exact stands
  above := fun id _ => change.above id

end FileChange

section Files

variable {tree : FileTree} {place : Place} {path : List PathPart}

theorem fileChange_set
    (known : place.inside < tree.directories.size)
    (contents : Bytes) :
    FileChange tree place (some contents)
      (tree.set place (.file contents)) where
  size := Array.size_modify
  above := tree.above_set place (.file contents)
  node? := tree.node?_set known (.file contents)

theorem fileChange_clear
    (known : place.inside < tree.directories.size) :
    FileChange tree place none (tree.clear place) where
  size := Array.size_modify
  above := tree.above_clear place
  node? := tree.node?_clear known

theorem fileChange_changeFile
    (known : place.inside < tree.directories.size)
    {contents : Bytes}
    (stands : tree.node? place = some (.file contents))
    (change : Bytes → Bytes) :
    FileChange tree place (some (change contents))
      (tree.changeFile place change) := by
  simp only [changeFile, stands]
  exact fileChange_set known (change contents)

/-- Opening leaves the file that stands at a place, or makes an empty one. -/
theorem openFile_at
    (known : place.inside < tree.directories.size)
    {contents : Option Bytes}
    (stands : tree.node? place = contents.map .file)
    (ended : tree.find path = .ok (tree.look place)) :
    ∃ opened,
      tree.openFile path = .ok (place, opened) ∧
        FileChange tree place (some (contents.getD [])) opened := by
  unfold openFile
  rw [ended]
  cases contents with
  | none =>
      simp only [look, stands, Option.map_none]
      exact ⟨_, rfl, fileChange_set known []⟩
  | some contents =>
      simp only [look, stands, Option.map_some]
      exact ⟨tree, rfl, .refl stands⟩

/-- Opening a place without a directory leaves a file there. -/
theorem openFile_place
    (known : place.inside < tree.directories.size)
    (free : ∀ id, tree.node? place ≠ some (.directory id))
    (ended : tree.find path = .ok (tree.look place)) :
    ∃ opened contents,
      tree.openFile path = .ok (place, opened) ∧
        FileChange tree place (some contents) opened := by
  obtain ⟨contents, stands⟩ :
      ∃ contents : Option Bytes,
        tree.node? place = contents.map .file := by
    cases stands : tree.node? place with
    | none =>
        exact ⟨none, rfl⟩
    | some node =>
        cases node with
        | file contents =>
            exact ⟨some contents, rfl⟩
        | directory id =>
            exact (free id stands).elim
  obtain ⟨opened, isOpen, fileChange⟩ := openFile_at known stands ended
  exact ⟨opened, contents.getD [], isOpen, fileChange⟩

/-- Whatever file stood there, the steps of a replacement leave exactly the data. -/
theorem writeFile_place
    (known : place.inside < tree.directories.size)
    (free : ∀ id, tree.node? place ≠ some (.directory id))
    (ended : tree.find path = .ok (tree.look place))
    (data : Bytes) :
    ∃ written,
      tree.writeFile path data = .ok written ∧
        FileChange tree place (some data) written := by
  obtain ⟨opened, contents, isOpen, opening⟩ :=
    openFile_place known free ended
  have knownOpen : place.inside < opened.directories.size := by
    rw [opening.size]
    exact known
  have overwriting :=
    fileChange_changeFile knownOpen opening.node?_same
      fun old => overwriteFront old data
  have knownOverwritten :
      place.inside <
        (opened.changeFile place fun old =>
          overwriteFront old data).directories.size := by
    rw [overwriting.size]
    exact knownOpen
  have cutting :=
    fileChange_changeFile knownOverwritten overwriting.node?_same
      (setLength data.length)
  have exactly :
      setLength data.length (overwriteFront contents data) = data :=
    replaceInPlace_eq contents data
  rw [exactly] at cutting
  refine ⟨_, ?_, (opening.trans overwriting).trans cutting⟩
  simp only [writeFile, isOpen]

theorem removeFile_vacant
    (vacant : tree.node? place = none)
    (ended : tree.find path = .ok (tree.look place)) :
    tree.removeFile path = .error noSuchFile := by
  unfold removeFile
  rw [ended]
  simp only [look, vacant]

theorem removeFile_file
    {contents : Bytes}
    (stands : tree.node? place = some (.file contents))
    (ended : tree.find path = .ok (tree.look place)) :
    tree.removeFile path = .ok (tree.clear place) := by
  unfold removeFile
  rw [ended]
  simp only [look, stands]

end Files

end PeerSession.Storage.FileTree
