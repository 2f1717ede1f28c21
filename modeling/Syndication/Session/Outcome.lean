import Syndication.Session.Failure
/-!
# Outcomes

What a process that runs a command leaves behind: an exit code, what it has written, and what it
says has gone wrong.
-/

namespace Syndication

/-- What a process leaves behind. -/
structure Outcome where
  code : Nat
  output : String
  report : Option String
  deriving DecidableEq

namespace Outcome

/-- The name of the program and its version. -/
def versionText : String := "feedsync 0.1.0\n"

/-- What a command's answer or failure comes to. Asking for the version or for help is no failure,
any other fault of the command line is one of its own kind, and after a name that leads nowhere
the process only stops. -/
def of : Except Failure String → Outcome
  | .ok output => ⟨0, output, none⟩
  | .error (.usage .version) => ⟨0, versionText, none⟩
  | .error (.usage .help) => ⟨0, "", none⟩
  | .error (.usage _) => ⟨2, "", none⟩
  | .error (.misplacedSetting _) => ⟨101, "", none⟩
  | .error failure => ⟨1, "", failure.message.map fun text => "Error: " ++ text⟩

end Outcome

end Syndication
