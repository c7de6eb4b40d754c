import Reachability.CommandLine.Options

/-!
# Reading a command line

Arguments are read from left to right. A value stands behind an equals sign, or it is the next
argument; an argument that looks like an option is never a value. The value of an option is looked
at only when the next option has been recognized or the line has ended, so an unknown argument
behind it is reported first.

## Main definitions

* `CommandLine.read`: the options that a list of arguments sets.
-/

namespace Reachability.CommandLine

/-- The state between two arguments. -/
structure Progress where
  options : Options
  /-- The settings that have been applied. -/
  given : List Setting
  /-- The option that was named last, with its value once there is one, if it is not yet applied. -/
  pending : Option (Setting × Option String)

namespace Progress

/-- Nothing has been read. -/
def start : Progress := ⟨.default, [], none⟩

/-- Applies a setting. A missing value is reported before a repetition, and a repetition before what
is wrong with the value. -/
def apply (p : Progress) (s : Setting) (value : Option String) : Except UsageError Progress :=
  if value.isNone && !s.isFlag then .error .invalidValue
  else if p.given.contains s && !s.isRepeatable then .error .repeatedOption
  else do return { p with options := ← s.apply (value.getD "") p.options, given := s :: p.given }

/-- Applies the pending option. -/
def settle (p : Progress) : Except UsageError Progress :=
  match p.pending with
  | none => .ok p
  | some (s, value) => { p with pending := none }.apply s value

/-- Reads an option, from its name on. -/
def readOption (p : Progress) (body : List Char) : Except UsageError Progress :=
  match Setting.ofName? (String.ofList (body.takeWhile (· ≠ '='))) with
  | none => .error .unknownArgument
  | some s =>
    match body.dropWhile (· ≠ '=') with
    | '=' :: value =>
      if s.isFlag then .error .tooManyValues
      else do (← p.settle).apply s (some (String.ofList value))
    | _ => do
      let p ← p.settle
      if s.isFlag then p.apply s none else return { p with pending := some (s, none) }

/-- Reads an argument. -/
def readArgument (p : Progress) (argument : String) : Except UsageError Progress :=
  match argument.toList, p.pending with
  | '-' :: '-' :: body, _ => p.readOption body
  | '-' :: _ :: _, _ => .error .unknownArgument
  | _, some (s, none) => .ok { p with pending := some (s, some argument) }
  | _, _ => .error .unknownArgument

/-- Reads arguments up to two dashes, behind which nothing may stand. -/
def readArguments (p : Progress) : List String → Except UsageError Progress
  | [] => p.settle
  | argument :: rest =>
    if argument = "--" then if rest.isEmpty then p.settle else .error .unknownArgument
    else do (← p.readArgument argument).readArguments rest

/-- Whether something is missing: there must be policies to verify, and a protocol restricts probing
only together with a port. -/
def isIncomplete (p : Progress) : Bool :=
  !(p.given.contains .mode || p.given.contains .policy) ||
    p.given.contains .probeProtocol && !p.given.contains .probePort

end Progress

/-- The options that a list of arguments sets. -/
def read (arguments : List String) : Except UsageError Options := do
  let p ← Progress.start.readArguments arguments
  if p.isIncomplete then throw .missingRequired
  return p.options

end Reachability.CommandLine
