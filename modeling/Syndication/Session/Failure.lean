import Syndication.Command.Basic
import Syndication.Settings.Assignment
import Syndication.Store.Error
import Syndication.Text.Quoted
/-!
# How a command fails

The causes for which a command is not carried out or stops, and the wording of each.
-/

namespace Syndication

/-- Why a command is not carried out or stops. -/
inductive Failure
  | usage (cause : UsageError)
  /-- The file of the settings is malformed. -/
  | malformedSettings (path : String)
  /-- The name of a setting leads nowhere. -/
  | misplacedSetting (cause : Setting.Misplacement)
  /-- A setting has a value of another kind or out of range. -/
  | unusableSettings
  /-- No store can be kept where the settings say. -/
  | unusableStore (path : String)
  /-- The command needs a user and there is none. -/
  | noUser
  | noFeedAt (url : String)
  | noFeedWith (id : Int)
  | unreadableFile (path : String)
  | unreadableInput
  | malformedHints
  | store (cause : StoreError)
  deriving DecidableEq

namespace Failure

/-- The wording of a name that leads nowhere. -/
def misplacement : Setting.Misplacement → String
  | .beforeStart => "attempt to subtract with overflow"
  | .beyondEnd => "capacity overflow"

/-- The wording of a failure. A command line that asks for nothing is answered by the usage, which
has no wording here. -/
def message : Failure → Option String
  | usage _ => none
  | malformedSettings path => some ("failed to read config file " ++ path)
  | misplacedSetting cause => some (misplacement cause)
  | unusableSettings => some "failed to deserialise StoreConfig"
  | unusableStore path => some ("failed to open store at " ++ Text.quoted path)
  | noUser => some "this command needs --user (or FEEDSYNC_USER)"
  | noFeedAt url => some ("no feed at " ++ url)
  | noFeedWith id => some ("no feed with id " ++ toString id)
  | unreadableFile path => some ("reading " ++ path)
  | unreadableInput => some "reading stdin"
  | malformedHints => some "parsing hints"
  | store cause => some cause.message

end Failure

end Syndication
