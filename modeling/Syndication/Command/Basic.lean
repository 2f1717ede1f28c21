/-!
# Commands

What can be asked for on the command line. Files are given by their paths; what they hold is read
when a command is carried out.
-/

namespace Syndication

/-- What is told about a feed when a crawl of it has ended well. -/
structure CrawlReport where
  title : Option String
  link : Option String
  encoding : Option String
  etag : Option String
  lastModified : Option String
  totalStories : Int
  deriving DecidableEq

/-- What can be asked for. -/
inductive Command
  /-- A subscription to one address. -/
  | subscribe (url : String)
  /-- Subscriptions to every address of a list. -/
  | subscribeAll (file : String)
  /-- The user's subscriptions, or those that are newer than hints. -/
  | list (hints : Option String) (detail showPending : Bool)
  /-- One subscription. -/
  | get (id : Int) (detail : Bool)
  | unsubscribe (id : Int)
  /-- How far the user has read. -/
  | setOffset (id offset : Int)
  /-- A source leads to a target. -/
  | map (source target : String)
  /-- Where a source leads. -/
  | resolve (source : String)
  /-- A pending subscription belongs to the feed at a target. -/
  | bind (id : Int) (target : String)
  /-- The feed at an address. -/
  | feed (url : String) (detail : Bool)
  | beginCrawl (feedId : Int)
  /-- A crawl of a feed has brought the payload in a file. -/
  | finishCrawl (feedId : Int) (body : String) (report : CrawlReport)
  | failCrawl (feedId : Int)
  deriving DecidableEq

/-- A command with the path of the settings and the user who gives it. -/
structure Invocation where
  settings : String
  user : Option Int
  command : Command
  deriving DecidableEq

/-- Why a command line asks for nothing that could be carried out. -/
inductive UsageError
  /-- It asks for help. -/
  | help
  /-- It asks for the version. -/
  | version
  /-- It is empty where a command is due. -/
  | nothing
  /-- It has options but no command. -/
  | noCommand
  | unknownCommand
  | unknownArgument
  | missingArgument
  /-- An option without its value, or an empty path. -/
  | missingValue
  /-- A value that is no number where one is due. -/
  | badValue
  /-- A switch with a value. -/
  | needlessValue
  /-- An option given twice. -/
  | repeated
  deriving DecidableEq

end Syndication
