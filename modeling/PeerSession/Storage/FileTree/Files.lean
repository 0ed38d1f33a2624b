import PeerSession.Storage.FileTree.Walk
import PeerSession.Storage.Overwrite

namespace PeerSession.Storage.FileTree

/-!
# Regular files

Reading, replacing and removing the regular file at the end of a path. Replacing
takes separate steps: a file is opened, or made empty, before it is changed.
-/

/-- A directory stands where a regular file is needed. -/
def isDirectory : Error where
  kind := .isADirectory
  text := "Is a directory (os error 21)"

/-- The contents of the file at the end of a path. -/
def readFile
    (tree : FileTree)
    (path : List PathPart) :
    Except Error Bytes :=
  match tree.find path with
  | .ok (.file _ contents) => .ok contents
  | .ok (.directory _) => .error isDirectory
  | .ok (.nothing _) => .error noSuchFile
  | .error error => .error error

/-- Find a file for writing, making an empty one where nothing stands. -/
def openFile
    (tree : FileTree)
    (path : List PathPart) :
    Except Error (Place × FileTree) :=
  match tree.find path with
  | .ok (.file place _) => .ok (place, tree)
  | .ok (.directory _) => .error isDirectory
  | .ok (.nothing place) => .ok (place, tree.set place (.file []))
  | .error error => .error error

/-- Change the contents of the file at a place, if there is one. -/
def changeFile
    (tree : FileTree)
    (place : Place)
    (change : Bytes → Bytes) :
    FileTree :=
  match tree.node? place with
  | some (.file contents) => tree.set place (.file (change contents))
  | _ => tree

/-- Replace a file: open it, write over its front, then set its length. -/
def writeFile
    (tree : FileTree)
    (path : List PathPart)
    (data : Bytes) :
    Except Error FileTree :=
  match tree.openFile path with
  | .error error => .error error
  | .ok (place, opened) =>
      .ok
        ((opened.changeFile place fun old => overwriteFront old data).changeFile
          place (setLength data.length))

/-- Remove the file at the end of a path. -/
def removeFile
    (tree : FileTree)
    (path : List PathPart) :
    Except Error FileTree :=
  match tree.find path with
  | .ok (.file place _) => .ok (tree.clear place)
  | .ok (.directory _) => .error isDirectory
  | .ok (.nothing _) => .error noSuchFile
  | .error error => .error error

end PeerSession.Storage.FileTree
