import PeerSession.Storage.Backend
import PeerSession.Storage.FileTree.Directories
import PeerSession.Storage.FileTree.Files
import PeerSession.Storage.Path

namespace PeerSession.Storage

/-!
# Records in a directory

Each record is a regular file in one directory of a file tree, named by the
recipient. The path to the directory is walked at every access.
-/

/-- A directory of records in a file tree. -/
structure Folder where
  tree : FileTree
  path : Path

namespace Folder

/-- A path with a character that no file name can hold. -/
def invalidName : Error where
  kind := .invalidInput
  text := "file name contained an unexpected NUL byte"

/--
Use a directory for records, making it and those above it if needed. Its text is
followed from a base directory.
-/
def open?
    (tree : FileTree)
    (base : Path)
    (directory : String) :
    Except Error Folder :=
  let path := base.join directory
  if directory.contains '\x00' then
    .error invalidName
  else if path.fits then
    match tree.makeDirectories path.parts with
    | .ok made => .ok { tree := made, path := path }
    | .error error => .error error
  else
    .error FileTree.nameTooLong

/-- The path of a recipient's record. -/
def pathFor
    (folder : Folder)
    (recipient : RecipientId) :
    Path :=
  folder.path.child recipient.recordName

/-- Carry out an operation at a recipient's record, unless its path is too long. -/
def reach
    {α : Type}
    (folder : Folder)
    (recipient : RecipientId)
    (operation : List PathPart → Except Error α) :
    Except Error α :=
  if (folder.pathFor recipient).fits then
    operation (folder.pathFor recipient).parts
  else
    .error FileTree.nameTooLong

/-- The folder after an operation on its tree, which a failure leaves alone. -/
def reply
    (folder : Folder) :
    Except Error FileTree →
    Reply Unit Folder
  | .ok tree => (.ok (), { tree := tree, path := folder.path })
  | .error error => (.error error, folder)

/-- Read a record. -/
def read
    (folder : Folder)
    (recipient : RecipientId) :
    Reply Bytes Folder :=
  (folder.reach recipient folder.tree.readFile, folder)

/-- Overwrite a record in place, or a new empty one. -/
def write
    (folder : Folder)
    (recipient : RecipientId)
    (data : Bytes) :
    Reply Unit Folder :=
  folder.reply
    (folder.reach recipient fun path => folder.tree.writeFile path data)

/-- Remove a record. -/
def delete
    (folder : Folder)
    (recipient : RecipientId) :
    Reply Unit Folder :=
  folder.reply (folder.reach recipient folder.tree.removeFile)

/-- Whether there is a record. -/
def contains
    (folder : Folder)
    (recipient : RecipientId) :
    Bool :=
  (folder.pathFor recipient).fits &&
    folder.tree.hasFile (folder.pathFor recipient).parts

/-- Put a record in place, unless something else than a file stands there. -/
def put
    (folder : Folder)
    (recipient : RecipientId)
    (record : Bytes) :
    Folder :=
  (folder.write recipient record).2

/-- Make a directory in the place of a recipient's record, if nothing stands there. -/
def obstruct
    (folder : Folder)
    (recipient : RecipientId) :
    Folder :=
  (folder.reply (folder.reach recipient folder.tree.makeDirectory)).2

/-- Remove an empty directory from the place of a recipient's record. -/
def unobstruct
    (folder : Folder)
    (recipient : RecipientId) :
    Folder :=
  (folder.reply
    (folder.reach recipient fun path =>
      .ok (folder.tree.removeDirectory path))).2

instance : Backend Folder where
  read := Folder.read
  write := Folder.write
  delete := Folder.delete
  contains := Folder.contains

/-- What stands in the directory, by name. -/
def listing (folder : Folder) : List (String × Node) :=
  match folder.tree.find folder.path.parts with
  | .ok (.directory id) =>
      (folder.tree.children id).mergeSort fun left right =>
        decide (left.1 ≤ right.1)
  | _ => []

end Folder

end PeerSession.Storage
