namespace PeerSession.Guard

/-!
# Handles

A handle gives access to one mutex. There is one mutex for the whole process;
every other one comes into being with an isolated handle. Cloning a handle gives
access to the same mutex.
-/

/-- Where a mutex comes from: the process, or the handle it was made for. -/
inductive Origin where
  | process
  | isolated (serial : Nat)
  deriving DecidableEq, Repr

/-- Access to the mutex of an origin. -/
structure Handle where
  origin : Origin
  deriving DecidableEq, Repr

namespace Handle

/-- The handle to the mutex of the process. -/
def process : Handle where
  origin := .process

/-- A handle to a mutex of its own. -/
def isolated (serial : Nat) : Handle where
  origin := .isolated serial

/-- Whether two handles give access to the same mutex. -/
def contendsWith (left right : Handle) : Bool :=
  left.origin = right.origin

theorem contendsWith_iff (left right : Handle) :
    left.contendsWith right = true ↔ left.origin = right.origin :=
  decide_eq_true_iff

end Handle

/-- The ways to obtain a handle. -/
inductive Construction where
  | process
  | standard
  | isolated
  | clone (index : Nat)
  deriving DecidableEq, Repr

namespace Construction

/-- Obtain a handle, given those obtained before; only those can be cloned. -/
def handle?
    (built : List Handle) :
    Construction →
    Option Handle
  | .process => some .process
  | .standard => some .process
  | .isolated => some (.isolated built.length)
  | .clone index => built[index]?

/-- Obtain further handles, one after the other. -/
def buildOnto?
    (built : List Handle) :
    List Construction →
    Option (List Handle)
  | [] => some built
  | construction :: rest =>
      match construction.handle? built with
      | none => none
      | some handle => buildOnto? (built ++ [handle]) rest

/-- Obtain handles one after the other. -/
def build? (constructions : List Construction) : Option (List Handle) :=
  buildOnto? [] constructions

end Construction

end PeerSession.Guard
