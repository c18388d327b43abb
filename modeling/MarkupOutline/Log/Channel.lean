import MarkupOutline.Log.Record

/-!
# Log channels

Records of the library and of its service go out through one channel each. A channel has a
threshold and the thresholds of its handlers; it is given one handler when it is first configured.
-/

namespace MarkupOutline.Log

/-- The threshold of a channel and those of its handlers. -/
structure Channel where
  level : Int
  handlers : List Int
deriving DecidableEq, Repr

/-- The channel of the library and the channel of the service. -/
structure Channels where
  core : Channel
  service : Channel
deriving DecidableEq, Repr

/-- Sets a channel and its handlers to a threshold; without a handler it is given one. -/
def Channel.configure (level : Int) (c : Channel) : Channel :=
  ⟨level, if c.handlers.isEmpty then [level] else c.handlers.map fun _ => level⟩

namespace Channels

/-- Channels that nobody has configured. -/
def unset : Channels :=
  ⟨⟨0, []⟩, ⟨0, []⟩⟩

/-- Configures both channels. Without a threshold the setting decides. -/
def configure (setting : String) (level : Option Int) (c : Channels) : Channels :=
  let level := level.getD (levelFor setting false false)
  ⟨c.core.configure level, c.service.configure level⟩

/-- Configures the channels if neither has a handler yet. -/
def ensure (setting : String) (c : Channels) : Channels :=
  if c.core.handlers.isEmpty && c.service.handlers.isEmpty then c.configure setting none else c

end Channels

/-- The name of the channel asked for; no name asks for the root. -/
def channelName (name : String) : String :=
  if name = "" then "root" else name

end MarkupOutline.Log
