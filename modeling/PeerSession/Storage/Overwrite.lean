import PeerSession.Bytes

namespace PeerSession.Storage

/-!
# Overwriting in place

Storage replaces contents without discarding them first: the new octets go over
the front of the old ones, and the length is set afterwards. The result is
exactly the new contents, whatever was there before.
-/

/-- Write over the front of the old contents, growing them if needed. -/
def overwriteFront (old data : Bytes) : Bytes :=
  data ++ old.drop data.length

/-- Cut contents off at a length, or fill them up to it with zeros. -/
def setLength (length : Nat) (contents : Bytes) : Bytes :=
  contents.take length ++ List.replicate (length - contents.length) 0

/-- Fill contents up to a length with zeros, but keep longer ones. -/
def growTo (length : Nat) (contents : Bytes) : Bytes :=
  contents ++ List.replicate (length - contents.length) 0

/-- Grow the old contents to the data, overwrite them, and cut off the rest. -/
def replaceGrowing (old data : Bytes) : Bytes :=
  setLength data.length
    (overwriteFront (growTo data.length old) data)

/-- Overwrite the old contents, then set their length. -/
def replaceInPlace (old data : Bytes) : Bytes :=
  setLength data.length (overwriteFront old data)

/-- Overwriting and then setting the length leaves exactly the data. -/
@[simp] theorem replaceInPlace_eq (old data : Bytes) :
    replaceInPlace old data = data := by
  simp [replaceInPlace, setLength, overwriteFront]

/-- Growing first leaves exactly the data, too. -/
@[simp] theorem replaceGrowing_eq (old data : Bytes) :
    replaceGrowing old data = data := by
  simp [replaceGrowing, setLength, overwriteFront]

end PeerSession.Storage
