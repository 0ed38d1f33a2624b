import PeerSession.Storage.PathPart

namespace PeerSession.Storage

/-!
# Paths

A path leads down from the root directory. It is walked by its parts, but its
text counts as well: a path with too long a text is not walked at all, and
repeated slashes make the text longer without adding a part.
-/

/-- The parts of a path, with what matters of its text. -/
structure Path where
  parts : List PathPart
  octets : Nat
  slashed : Bool
  deriving DecidableEq, Repr

namespace Path

/-- The longest text of a path that can be walked, in octets. -/
def longestText : Nat := 4095

/-- Whether the text of a path is short enough for it to be walked. -/
def fits (path : Path) : Bool :=
  path.octets ≤ longestText

/-- The path that a text stands for, seen from the root directory. -/
def ofText (text : String) : Path where
  parts := PathPart.ofPathText text
  octets := text.utf8ByteSize
  slashed := text.endsWith "/"

/-- The octets that stand between a path and what is put after it. -/
def separator (path : Path) : Nat :=
  if path.slashed then 0 else 1

/-- The path of a name in the directory that a path leads to. -/
def child
    (path : Path)
    (name : String) :
    Path where
  parts := path.parts ++ [.name name]
  octets := path.octets + path.separator + name.utf8ByteSize
  slashed := false

/-- Follow a text from a path; one that starts with a slash leads from the root. -/
def join
    (path : Path)
    (text : String) :
    Path :=
  if text.startsWith "/" then
    ofText text
  else
    { parts := path.parts ++ PathPart.ofPathText text
      octets := path.octets + path.separator + text.utf8ByteSize
      slashed := text.isEmpty || text.endsWith "/" }

/-- The pieces of a path as they are shown, of which the root directory is one. -/
def pieces (path : Path) : List String :=
  "/" :: path.parts.filterMap PathPart.shown?

/-- A path as it is shown from a directory, in full if it leads elsewhere. -/
def textFrom
    (base : Path)
    (path : Path) :
    String :=
  "/".intercalate
    (if base.pieces.isPrefixOf path.pieces then
      path.pieces.drop base.pieces.length
    else
      path.pieces)

/-- The record of a recipient is one part further than its directory. -/
@[simp] theorem parts_child (path : Path) (name : String) :
    (path.child name).parts = path.parts ++ [.name name] :=
  rfl

end Path

end PeerSession.Storage
