import Syndication.Command.Grammar
import Syndication.Text.Decimal
/-!
# Reading command lines

Arguments are read one after another. What has been given for an option or operand is settled,
and its faults come to light, when the next one begins or the level ends; an argument that is not
known at all comes before them. Levels end from the last one back to the program's own, and only
then it is seen whether the user named outside the command line is a number and whether anything
is missing.
-/

namespace Syndication.CommandLine

/-- A level as far as it has been read. -/
structure Reading where
  /-- The values that are settled. -/
  given : Given
  /-- The option or operand that is not settled yet, with what has been given for it. -/
  pending : Option (Parameter × Option String)
  /-- The operands to come. -/
  operands : List Parameter
  /-- No argument is an option or command from here on. -/
  literal : Bool

/-- A level of which nothing has been read. -/
def Reading.start (g : Grammar) : Reading := ⟨[], none, g.operands, false⟩

/-! ## Values -/

/-- The value that an argument stands for. -/
def Kind.read (kind : Kind) (argument : String) : Except UsageError Value :=
  match kind with
  | .number =>
    match Decimal.toInt64? argument.toList with
    | some n => .ok (.number n)
    | none => .error .badValue
  | .path => if argument = "" then .error .missingValue else .ok (.text argument)
  | .text => .ok (.text argument)
  | _ => .ok .on

namespace Reading

/-- Gives a value to an option or operand that has none yet. -/
def give (r : Reading) (p : Parameter) (argument : String) : Except UsageError Reading :=
  if r.given.has p.name then .error .repeated
  else do
    let value ← p.kind.read argument
    pure { r with given := (p.name, value) :: r.given }

/-- Settles what is pending. -/
def settle (r : Reading) : Except UsageError Reading :=
  match r.pending with
  | none => pure r
  | some (_, none) => .error .missingValue
  | some (p, some argument) => give { r with pending := none } p argument

/-- An option without a value. -/
def switchOn (r : Reading) (p : Parameter) : Except UsageError Reading := do
  let r ← r.settle
  match p.kind with
  | .help => .error .help
  | .version => .error .version
  | _ => r.give p ""

/-- An option with its value, or before it. -/
def beginOption (r : Reading) (p : Parameter) (argument : Option String) :
    Except UsageError Reading := do
  let r ← r.settle
  match argument with
  | some argument => r.give p argument
  | none => pure { r with pending := some (p, none) }

/-! ## Arguments -/

/-- An option by its long name, with a value after an equals sign if there is one. -/
def long (r : Reading) (g : Grammar) (text : List Char) : Except UsageError Reading :=
  let name := String.ofList (text.takeWhile (· ≠ '='))
  let argument := match text.dropWhile (· ≠ '=') with
    | _ :: rest => some (String.ofList rest)
    | [] => none
  match g.options.find? fun p => p.name = name with
  | none => .error .unknownArgument
  | some p =>
    if p.kind.takesValue then r.beginOption p argument
    else if argument.isSome then .error .needlessValue
    else r.switchOn p

/-- The value that follows the letter of an option in the same argument. -/
def attached : List Char → Option String
  | [] => none
  | '=' :: rest => some (String.ofList rest)
  | rest => some (String.ofList rest)

/-- Options by their letters, of which the first that takes a value takes all that follows. -/
def short (g : Grammar) : Reading → List Char → Except UsageError Reading
  | r, [] => pure r
  | r, c :: rest =>
    match g.options.find? fun p => p.short = some c with
    | none => .error .unknownArgument
    | some p =>
      if p.kind.takesValue then r.beginOption p (attached rest)
      else do
        let r ← r.switchOn p
        short g r rest

/-- Whether a name is that of a command of a level. A group has a command for help. -/
def names (g : Grammar) (name : String) : Bool :=
  match g with
  | .group _ commands => name = "help" || (commands.lookup name).isSome
  | .command _ _ _ => false

/-- An argument that is no option. -/
def operand (r : Reading) (g : Grammar) (argument : String) : Except UsageError Reading :=
  match r.operands with
  | p :: operands => do
    let r ← r.settle
    pure { r with pending := some (p, some argument), operands }
  | [] =>
    match g with
    | .group _ _ =>
      .error (if r.literal && names g argument then .unknownArgument else .unknownCommand)
    | .command _ _ _ => .error .unknownArgument

/-- The value of the option just before. -/
def valueOrOperand (r : Reading) (g : Grammar) (argument : String) : Except UsageError Reading :=
  match r.pending with
  | some (p, none) => pure { r with pending := some (p, some argument) }
  | _ => r.operand g argument

/-- An argument that names no command. -/
def accept (r : Reading) (g : Grammar) (argument : String) : Except UsageError Reading :=
  if r.literal then r.operand g argument
  else
    match argument.toList with
    | ['-', '-'] => pure { r with literal := true }
    | '-' :: '-' :: text => r.long g text
    | '-' :: c :: text => short g r (c :: text)
    | _ => r.valueOrOperand g argument

/-- Whether the next argument may name a command. -/
def expectsCommand (r : Reading) : Bool :=
  !r.literal &&
    match r.pending with
    | some (_, none) => false
    | _ => true

end Reading

/-! ## Levels -/

/-- What asking for help on names leads to. -/
def helpOn (g : Grammar) : List String → UsageError
  | [] => .help
  | name :: rest =>
    match g with
    | .command _ _ _ => .unknownCommand
    | .group _ commands =>
      match commands.lookup name with
      | some inner => helpOn inner rest
      | none => if name = "help" ∧ rest = [] then .help else .unknownCommand

/-- The end of a level: what is pending is settled, and a user named outside has to be a number
where the level names none. -/
def endLevel (outside : Option String) (r : Reading) : Except UsageError Given := do
  let r ← r.settle
  match r.given.number? user.name, outside with
  | none, some text =>
    let _ ← user.kind.read text
    pure r.given
  | _, _ => pure r.given

/-- The end of the last level. -/
def finish (outside : Option String) (g : Grammar) (r : Reading) :
    Except UsageError (List Given × Command) := do
  let given ← endLevel outside r
  match g with
  | .group _ _ => .error (if given.isEmpty && outside.isNone then .nothing else .noCommand)
  | .command _ _ make =>
    match make given with
    | some command => pure ([given], command)
    | none => .error .missingArgument

/-- The values of every level, from the given one on, and the command. -/
def readLevels (outside : Option String) :
    Grammar → Reading → List String → Except UsageError (List Given × Command)
  | g, r, [] => finish outside g r
  | g, r, argument :: rest =>
    if r.expectsCommand && Reading.names g argument then
      match g.commands.lookup argument with
      | none => .error (helpOn g rest)
      | some inner => do
        let (levels, command) ← readLevels outside inner (.start inner) rest
        let given ← endLevel outside r
        pure (given :: levels, command)
    else do
      let r ← r.accept g argument
      readLevels outside g r rest

/-- The path of the settings if none is given. -/
def defaultSettings : String := "feedsync.toml"

/-- The user that the last of the levels that name one names. -/
def lastUser? (levels : List Given) : Option Int :=
  levels.reverse.findSome? fun given => given.number? user.name

/-- Reads a command line; the user may also be named outside of it. -/
def read (outside : Option String) (arguments : List String) : Except UsageError Invocation := do
  let (levels, command) ← readLevels outside program (.start program) arguments
  let named := outside.bind fun text => Decimal.toInt64? text.toList
  pure
    { settings := ((levels.head?.bind fun given => given.text? "config")).getD defaultSettings
      user := (lastUser? levels).or named
      command }

end Syndication.CommandLine
