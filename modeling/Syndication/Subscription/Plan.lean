import Syndication.Feed.Status
/-!
# Planning subscriptions

A list of addresses becomes a list of rows to insert. Each distinct address counts once, at its
first place. An address that leads to a known feed asks for a bound row, unless the user holds the
feed or an earlier address has asked for it; any other address asks for a pending row.
-/

namespace Syndication

/-- A subscription about to be inserted. -/
structure Planned where
  user : Int
  feedId : Option Int
  status : Status
  url : String
  deriving DecidableEq

namespace Planned

/-- Bound to a feed, and ready at once. -/
def bound (user feedId : Int) (url : String) : Planned := ⟨user, some feedId, .ready, url⟩

/-- Not resolved yet. -/
def pending (user : Int) (url : String) : Planned := ⟨user, none, .pending, url⟩

/-- The plan for the rest of a list. `seen` are the addresses before it, `held` the feeds the user
holds or an address before it has asked for. -/
def listFrom (user : Int) (feedOf : String → Option Int) :
    (seen : List String) → (held : List Int) → List String → List Planned
  | _, _, [] => []
  | seen, held, url :: urls =>
    if url ∈ seen then listFrom user feedOf seen held urls
    else
      match feedOf url with
      | some feed =>
        if feed ∈ held then listFrom user feedOf (url :: seen) held urls
        else bound user feed url :: listFrom user feedOf (url :: seen) (feed :: held) urls
      | none => pending user url :: listFrom user feedOf (url :: seen) held urls

/-- The plan for a list of addresses, where `target` resolves an address, `feed` finds the feed of
a canonical address, and `held` are the feeds the user holds. -/
def list (user : Int) (target : String → Option String) (feed : String → Option Int)
    (held : List Int) (urls : List String) : List Planned :=
  listFrom user (fun url => (target url).bind feed) [] held urls

end Planned

end Syndication
