import Syndication.Codec.Base64
import Syndication.Feed.Fingerprint
import Syndication.Feed.Status
import Syndication.Json.Record
import Syndication.Time.Written
/-!
# Single values in records

How a record writes and reads what is not a JSON scalar of its own: instants, statuses and
digests.
-/

namespace Syndication

open Json

/-- An instant as text. -/
def Instant.toJson (t : Instant) : Json := .text t.written

/-- A status by its name. -/
def Status.toJson (s : Status) : Json := .text s.name

/-- A status by its name, which may also stand alone in an object with null. -/
def Status.ofJson? : Json → Option Status
  | .str (some name) => Status.ofName? name
  | .obj [(some name, .null)] => Status.ofName? name
  | _ => none

namespace Record

/-- A digest in Base64. -/
def hashToJson (hash : List UInt8) : Json := .text (String.ofList (Base64.encode hash))

/-- A digest in Base64. -/
def hash? (value : Json) : Option (List UInt8) := do Base64.decode? (← text? value).toList

end Record

end Syndication
