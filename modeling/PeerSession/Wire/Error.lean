namespace PeerSession.Wire

/-!
# Wire errors

Reading can run off the end of the record; writing can meet a blob whose length
has no four-octet form.
-/

/-- Why a field could not be read or written. -/
inductive Error where
  /-- The octets end before the named field does. -/
  | truncated (field : String)
  /-- A blob of this many octets has no four-octet length. -/
  | blobTooLarge (length : Nat)
  deriving DecidableEq, Repr

/-- The text shown for a wire error. -/
def Error.message : Error → String
  | .truncated field =>
      "Record truncated while reading " ++ field
  | .blobTooLarge length =>
      "Blob of " ++ toString length ++
        " bytes does not fit a 32-bit length prefix"

end PeerSession.Wire
