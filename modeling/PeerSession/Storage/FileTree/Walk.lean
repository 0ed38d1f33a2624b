import PeerSession.Storage.Error
import PeerSession.Storage.FileTree.Basic
import PeerSession.Storage.PathPart

namespace PeerSession.Storage

/-!
# Walking a file tree

A path is walked from the root directory part by part. All that comes before a
part must be a directory that is there, and a name must not be too long to be
looked up in it.
-/

/-- What stands where a path ends. -/
inductive Found where
  | directory (id : DirectoryId)
  | file (place : Place) (contents : Bytes)
  | nothing (place : Place)
  deriving DecidableEq, Repr

namespace FileTree

/-- Nothing stands at the end of a path, or a directory on it is missing. -/
def noSuchFile : Error where
  kind := .notFound
  text := "No such file or directory (os error 2)"

/-- A path leads through a regular file. -/
def notDirectory : Error where
  kind := .notADirectory
  text := "Not a directory (os error 20)"

/-- A name on a path, or the whole path, is longer than can be looked up. -/
def nameTooLong : Error where
  kind := .invalidFilename
  text := "File name too long (os error 36)"

/-- Find what stands at a place. -/
def look
    (tree : FileTree)
    (place : Place) :
    Found :=
  match tree.node? place with
  | some (.directory id) => .directory id
  | some (.file contents) => .file place contents
  | none => .nothing place

/-- Where one part of a path leads from a directory. -/
def follow
    (tree : FileTree)
    (id : DirectoryId) :
    PathPart →
    Found
  | .name entry => tree.look { inside := id, name := entry }
  | .same => .directory id
  | .above => .directory (tree.above id)

/-- Walk on along the parts of a path. -/
def walk
    (tree : FileTree)
    (found : Found) :
    List PathPart →
    Except Error Found
  | [] => .ok found
  | part :: rest =>
      match found with
      | .directory id =>
          if part.fits then
            tree.walk (tree.follow id part) rest
          else
            .error nameTooLong
      | .file _ _ => .error notDirectory
      | .nothing _ => .error noSuchFile

/-- What stands at the end of a path from the root directory. -/
def find
    (tree : FileTree)
    (path : List PathPart) :
    Except Error Found :=
  tree.walk (.directory 0) path

/-- Whether a path leads to a directory. -/
def hasDirectory
    (tree : FileTree)
    (path : List PathPart) :
    Bool :=
  match tree.find path with
  | .ok (.directory _) => true
  | _ => false

/-- Whether a path leads to a regular file. -/
def hasFile
    (tree : FileTree)
    (path : List PathPart) :
    Bool :=
  match tree.find path with
  | .ok (.file _ _) => true
  | _ => false

/-- A walk can be interrupted and taken up again. -/
theorem walk_append
    (tree : FileTree)
    (found : Found)
    (first second : List PathPart) :
    tree.walk found (first ++ second) =
      match tree.walk found first with
      | .ok middle => tree.walk middle second
      | .error error => .error error := by
  induction first generalizing found with
  | nil =>
      rfl
  | cons part rest inductionHypothesis =>
      cases found with
      | directory id =>
          by_cases fits : part.fits = true
          · simp only [List.cons_append, walk, fits, if_true]
            exact inductionHypothesis (tree.follow id part)
          · simp only [List.cons_append, walk, fits]
            rfl
      | file place contents =>
          rfl
      | nothing place =>
          rfl

end FileTree

end PeerSession.Storage
