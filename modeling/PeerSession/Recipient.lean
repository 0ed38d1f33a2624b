namespace PeerSession

/-!
# Recipients

A recipient is known to the storage by a 64-bit identifier; its record bears
the decimal digits of that identifier as its name.
-/

/-- Storage-level identifier of a recipient. -/
abbrev RecipientId := UInt64

/-- The name of a recipient's record: the decimal digits of the identifier. -/
def RecipientId.recordName (recipient : RecipientId) : String :=
  toString recipient.toNat

end PeerSession
