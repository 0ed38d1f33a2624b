import PeerSession.Bytes

namespace PeerSession.Storage

/-!
# File trees

A file tree is a table of directories. Each directory knows the one above it and
what its names stand for: a regular file or another directory of the table. A
directory that no name stands for any more stays in the table without harm.
-/

/-- Directories are numbered as they are made; the root directory is number 0. -/
abbrev DirectoryId := Nat

/-- A name in a directory, whether it stands for something or not. -/
structure Place where
  inside : DirectoryId
  name : String
  deriving DecidableEq, Repr

/-- What a name can stand for. -/
inductive Node where
  | file (contents : Bytes)
  | directory (id : DirectoryId)
  deriving DecidableEq, Repr

/-- A directory: the one above it, and what its names stand for. -/
structure Directory where
  parent : DirectoryId
  entries : List (String × Node)
  deriving DecidableEq, Repr

namespace Directory

/-- A directory without names. -/
def empty (parent : DirectoryId) : Directory where
  parent := parent
  entries := []

/-- What a name stands for. -/
def node?
    (directory : Directory)
    (name : String) :
    Option Node :=
  directory.entries.lookup name

/-- The directory without a name. -/
def clear
    (directory : Directory)
    (name : String) :
    Directory where
  parent := directory.parent
  entries := directory.entries.filter fun entry => entry.1 ≠ name

/-- The directory with a name for a node. -/
def set
    (directory : Directory)
    (name : String)
    (node : Node) :
    Directory where
  parent := directory.parent
  entries := (name, node) :: (directory.clear name).entries

end Directory

/-- The directories of a file tree, by number. -/
structure FileTree where
  directories : Array Directory

namespace FileTree

/-- A root directory without names, which is above itself. -/
def empty : FileTree where
  directories := #[.empty 0]

/-- What stands at a place. -/
def node?
    (tree : FileTree)
    (place : Place) :
    Option Node :=
  match tree.directories[place.inside]? with
  | some directory => directory.node? place.name
  | none => none

/-- The directory above a directory. -/
def above
    (tree : FileTree)
    (id : DirectoryId) :
    DirectoryId :=
  match tree.directories[id]? with
  | some directory => directory.parent
  | none => id

/-- The names in a directory, with what they stand for. -/
def children
    (tree : FileTree)
    (id : DirectoryId) :
    List (String × Node) :=
  match tree.directories[id]? with
  | some directory => directory.entries
  | none => []

/-- The tree with a node at a place. -/
def set
    (tree : FileTree)
    (place : Place)
    (node : Node) :
    FileTree where
  directories :=
    tree.directories.modify place.inside fun directory =>
      directory.set place.name node

/-- The tree with nothing at a place. -/
def clear
    (tree : FileTree)
    (place : Place) :
    FileTree where
  directories :=
    tree.directories.modify place.inside fun directory =>
      directory.clear place.name

/-- The tree with a new directory, which no name stands for yet. -/
def addDirectory
    (tree : FileTree)
    (parent : DirectoryId) :
    FileTree where
  directories := tree.directories.push (.empty parent)

end FileTree

end PeerSession.Storage
