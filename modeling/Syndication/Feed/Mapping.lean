import Syndication.Time.Instant
/-!
# Mappings

One entry of the log of resolutions: at some time a source address led to a target address.
-/

namespace Syndication

/-- A source address led to a target address. -/
structure Mapping where
  id : Int
  source : String
  target : String
  createdAt : Instant
  deriving DecidableEq

end Syndication
