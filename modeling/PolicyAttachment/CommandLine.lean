import PolicyAttachment.Condition.Set
import PolicyAttachment.ControllerName
import PolicyAttachment.Text.Decimal
import PolicyAttachment.Text.Quoted

/-!
# The command line

All options are long, take one value and have a default. The value follows an equals sign or is the
next argument, which must not look like an option. Since a value in an argument of its own is only
looked at when the next option or the end is reached, an unknown argument after it is reported
first.
-/

namespace PolicyAttachment
set_option autoImplicit false

/-- How the controller is set up. -/
structure Settings where
  controllerName : ControllerName
  deploymentName : String
  controlPlaneNs : String
  /-- How many milliseconds a patch may take. -/
  patchTimeout : Nat
  overflow : OverflowRule
deriving DecidableEq

/-- Why a command line is refused. -/
inductive CommandLineError where
  /-- An option that does not exist, or an argument that belongs to none. -/
  | unknownArgument
  /-- An option without its value, or with one that is not among its possible values. -/
  | invalidValue
  /-- A value that does not read. -/
  | malformedValue
  /-- An option given twice. -/
  | repeated
deriving DecidableEq, Repr

def CommandLineError.message : CommandLineError → String
  | unknownArgument => "unexpected argument"
  | invalidValue => "an option lacks its value or has an impossible one"
  | malformedValue => "the value of an option does not read"
  | repeated => "an option is given twice"

namespace Settings

def default : Settings where
  controllerName := ⟨"networking.gke.io/gateway", by decide⟩
  deploymentName := "gke-policy-controller"
  controlPlaneNs := "gke-system"
  patchTimeout := 5000
  overflow := .reject

instance : Inhabited Settings := ⟨default⟩

end Settings

namespace CommandLine

/-- The options. -/
inductive Flag where
  | controllerName
  | deploymentName
  | controlPlaneNs
  | patchTimeout
  | conditionOverflow
deriving DecidableEq, Repr

namespace Flag

def all : List Flag :=
  [controllerName, deploymentName, controlPlaneNs, patchTimeout, conditionOverflow]

def name : Flag → String
  | controllerName => "controller-name"
  | deploymentName => "deployment-name"
  | controlPlaneNs => "control-plane-namespace"
  | patchTimeout => "patch-timeout-ms"
  | conditionOverflow => "condition-eviction"

def ofName? (s : String) : Option Flag := all.find? (·.name == s)

end Flag

/-- A number in decimal digits below `2 ^ 64`, with an optional plus sign. -/
def word64? (s : String) : Option Nat :=
  let ds := match s.toList with
    | '+' :: ds => ds
    | ds => ds
  if !ds.isEmpty && ds.all Char.isDigit then
    let n := Text.ofDigits ds
    if n < UInt64.size then some n else none
  else none

def overflow? (s : String) : Option OverflowRule :=
  if s = "reject" then some .reject
  else if s = "evict-oldest" then some .displaceOldest
  else none

/-- The settings with the value of one option replaced by what `value` spells. -/
def set (settings : Settings) (flag : Flag) (value : String) :
    Except CommandLineError Settings :=
  match flag with
  | .controllerName =>
    match ControllerName.parse value with
    | .ok controllerName => .ok { settings with controllerName }
    | .error _ => .error .malformedValue
  | .deploymentName => .ok { settings with deploymentName := value }
  | .controlPlaneNs => .ok { settings with controlPlaneNs := value }
  | .patchTimeout =>
    match word64? value with
    | some patchTimeout => .ok { settings with patchTimeout }
    | none => .error .malformedValue
  | .conditionOverflow =>
    match overflow? value with
    | some overflow => .ok { settings with overflow }
    | none => .error .invalidValue

/-- What has been read of a command line: the settings so far, the options that gave them, and an
option whose value has not been looked at. -/
structure State where
  settings : Settings
  given : List Flag
  pending : Option (Flag × Option String)

/-- Takes in an option with its value, if it has one. -/
def take (s : State) (flag : Flag) (value : Option String) : Except CommandLineError State :=
  match value with
  | none => .error .invalidValue
  | some value =>
    if flag ∈ s.given then .error .repeated
    else do
      let settings ← set s.settings flag value
      .ok { settings, given := flag :: s.given, pending := none }

/-- Takes in the pending option. -/
def settle (s : State) : Except CommandLineError State :=
  match s.pending with
  | none => .ok s
  | some (flag, value) => take { s with pending := none } flag value

/-- A long option: its name, and its value if an equals sign follows. -/
def long? (arg : List Char) : Option (String × Option String) :=
  match arg with
  | '-' :: '-' :: rest =>
    let name := String.ofList (rest.takeWhile (· != '='))
    match rest.dropWhile (· != '=') with
    | _ :: value => some (name, some (String.ofList value))
    | [] => some (name, none)
  | _ => none

/-- Whether an argument looks like a short option: a hyphen and more. -/
def isShort : List Char → Bool
  | '-' :: _ :: _ => true
  | _ => false

/-- Reads the arguments that are left. After a lone double hyphen there must be none. -/
def read (s : State) : List String → Except CommandLineError Settings
  | [] => (settle s).map State.settings
  | arg :: args =>
    if arg = "--" then
      if args.isEmpty then (settle s).map State.settings else .error .unknownArgument
    else
      match long? arg.toList with
      | some (name, value) =>
        match Flag.ofName? name with
        | none => .error .unknownArgument
        | some flag => do
          let s ← settle s
          match value with
          | some value => read (← take s flag (some value)) args
          | none => read { s with pending := some (flag, none) } args
      | none =>
        match s.pending with
        | some (flag, none) =>
          if isShort arg.toList then .error .unknownArgument
          else read { s with pending := some (flag, some arg) } args
        | _ => .error .unknownArgument

/-- The settings that the arguments of a command line give. -/
def parse (args : List String) : Except CommandLineError Settings :=
  read { settings := .default, given := [], pending := none } args

end CommandLine
end PolicyAttachment
