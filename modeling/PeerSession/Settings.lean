import PeerSession.Guard.Shards

namespace PeerSession

/-!
# Settings

The settings of an archive have default values and are changed one at a time. A
number of shards below one becomes one.
-/

/-- How an archive is set up. -/
structure Settings where
  sessionsDirectory : String
  syncOnSave : Bool
  lockShards : Guard.Shards
  deriving DecidableEq

/-- A change of one setting. -/
inductive Setting where
  | sessionsDirectory (directory : String)
  | syncOnSave (sync : Bool)
  | lockShards (count : UInt64)
  deriving DecidableEq, Repr

namespace Settings

/-- The directory that holds the records unless another one is set. -/
def defaultDirectory : String := "sessions"

/-- The number of shards unless another one is set. -/
def defaultShards : UInt64 := 16

/-- The settings before any change. -/
def standard : Settings where
  sessionsDirectory := defaultDirectory
  syncOnSave := true
  lockShards := .ofCount defaultShards

/-- The settings after one change. -/
def change (settings : Settings) : Setting → Settings
  | .sessionsDirectory directory =>
      { settings with sessionsDirectory := directory }
  | .syncOnSave sync =>
      { settings with syncOnSave := sync }
  | .lockShards count =>
      { settings with lockShards := .ofCount count }

/-- The settings after several changes, in order. -/
def changeAll
    (settings : Settings)
    (changes : List Setting) :
    Settings :=
  changes.foldl change settings

/-- The settings after each change. -/
def changeEach
    (settings : Settings) :
    List Setting →
    List Settings
  | [] => []
  | setting :: rest =>
      settings.change setting ::
        (settings.change setting).changeEach rest

end Settings

end PeerSession
