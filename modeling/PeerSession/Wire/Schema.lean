import PeerSession.Wire.Cursor

namespace PeerSession.Wire

/-!
# Reading and writing several fields

A schema lists the kinds of consecutive fields with the names to report. Reading
a whole schema stops at the first failure. Reading each request goes on after a
failure, from wherever the failed read left the cursor.
-/

/-- The kinds and names of consecutive fields. -/
abbrev Schema := List (Kind × String)

/-- Read all fields of a schema, or report the first that fails. -/
def Cursor.readAll
    (cursor : Cursor) :
    Schema →
    Except Error (List Value) × Cursor
  | [] => (.ok [], cursor)
  | (kind, field) :: schema =>
      match cursor.read kind field with
      | (.error error, next) => (.error error, next)
      | (.ok value, next) =>
          match next.readAll schema with
          | (.error error, last) => (.error error, last)
          | (.ok values, last) => (.ok (value :: values), last)

/-- The answer and the cursor after each request, failed ones included. -/
def Cursor.readEach
    (cursor : Cursor) :
    Schema →
    List (Except Error Value × Cursor)
  | [] => []
  | (kind, field) :: schema =>
      let answer := cursor.read kind field
      answer :: answer.2.readEach schema

/-- The answer and the buffer after each write, refused ones included. -/
def appendEach
    (buffer : Bytes) :
    List Value →
    List (Except Error Unit × Bytes)
  | [] => []
  | value :: values =>
      let answer := append buffer value
      answer :: appendEach answer.2 values

end PeerSession.Wire
