import Syndication.Codec.Gzip
import Syndication.Time.Instant
import Syndication.Workspace.Opening
/-!
# Hosts

A host is everything outside a command that the command needs: variables, files, the standard
input, stores at their locations, the clock, and the compressor of payloads. A workspace is a host
whose clock stands still.
-/

namespace Syndication

/-- What a command needs of the outside. -/
structure Host (m : Type → Type) where
  /-- The variables with their values. -/
  environment : List (String × String)
  /-- The bytes of the file at a path, if it is there and can be read. -/
  readFile : String → m (Option (List UInt8))
  /-- The bytes of the standard input. -/
  readInput : m (List UInt8)
  /-- The store at a location, which from then on is there, if one can be kept there. -/
  openStore : Location → m (Option Store)
  /-- Keeps a store at a location. -/
  saveStore : Location → Store → m Unit
  /-- The time. -/
  now : m Instant
  /-- What writes the gzip members of large payloads. -/
  compress : List UInt8 → List UInt8 := Codec.Gzip.write

/-- The host of a command in a workspace, with variables, a standard input and the time. -/
def Host.inWorkspace (environment : List (String × String)) (input : List UInt8) (now : Instant) :
    Host (StateM Workspace) where
  environment := environment
  readFile path := do pure ((← get).readFile? path)
  readInput := pure input
  openStore location := modifyGet fun w => w.openStore location
  saveStore location store := modify fun w => w.saveStore location store
  now := pure now

end Syndication
