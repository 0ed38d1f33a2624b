import PeerSession.Storage.FileTree.Walk

namespace PeerSession.Storage.FileTree

/-!
# Directories

Making a directory, alone or together with those above it, and removing an empty
one.
-/

/-- A directory is to be made where something stands already. -/
def fileExists : Error where
  kind := .alreadyExists
  text := "File exists (os error 17)"

/-- Make one directory. -/
def makeDirectory
    (tree : FileTree)
    (path : List PathPart) :
    Except Error FileTree :=
  match tree.find path with
  | .ok (.nothing place) =>
      .ok ((tree.addDirectory place.inside).set
        place (.directory tree.directories.size))
  | .ok _ => .error fileExists
  | .error error => .error error

/-- Keep a tree that has the directory in spite of an error. -/
def keepDirectory
    (tree : FileTree)
    (path : List PathPart)
    (error : Error) :
    Except Error FileTree :=
  if tree.hasDirectory path then
    .ok tree
  else
    .error error

/-- Make the first directory of a list, making the later ones only if needed for it. -/
def makeInner
    (tree : FileTree) :
    List (List PathPart) →
    Except Error FileTree
  | [] => .ok tree
  | path :: outer =>
      match tree.makeDirectory path with
      | .ok made => .ok made
      | .error error =>
          if error.kind = .notFound then
            match tree.makeInner outer with
            | .error outerError => .error outerError
            | .ok grown =>
                match grown.makeDirectory path with
                | .ok made => .ok made
                | .error again => grown.keepDirectory path again
          else
            tree.keepDirectory path error

/-- The paths above a path, nearest first, without detours through the same directory. -/
def outerPaths (path : List PathPart) : List (List PathPart) :=
  let plain := path.filter fun part => part ≠ .same
  (List.range plain.length).reverse.map plain.take

/-- Make a directory together with the directories above it. -/
def makeDirectories
    (tree : FileTree)
    (path : List PathPart) :
    Except Error FileTree :=
  tree.makeInner (path :: outerPaths path)

/-- The tree in which no name of the directory above stands for a directory. -/
def detach
    (tree : FileTree)
    (id : DirectoryId) :
    FileTree where
  directories :=
    tree.directories.modify (tree.above id) fun directory =>
      { parent := directory.parent
        entries :=
          directory.entries.filter fun entry => entry.2 ≠ .directory id }

/-- Remove the directory at the end of a path, if it is there and empty. -/
def removeDirectory
    (tree : FileTree)
    (path : List PathPart) :
    FileTree :=
  match tree.find path with
  | .ok (.directory id) =>
      if (tree.children id).isEmpty then
        tree.detach id
      else
        tree
  | _ => tree

end PeerSession.Storage.FileTree
