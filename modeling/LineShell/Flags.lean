import LineShell.Text

/-! The options of the shell on its command line. An option is a switch, or takes the argument
after it as its value, whatever that argument looks like. Reading stops at the first argument that
is no option; the values read before it stay. -/

namespace LineShell

inductive Flag
  | help
  | version
  | config
  | quiet
  | debug
  deriving Repr, DecidableEq

namespace Flag

/-- All options, in the order in which they are listed. -/
def all : List Flag := [help, version, config, quiet, debug]

theorem mem_all (flag : Flag) : flag ∈ all := by cases flag <;> simp [all]

def name : Flag → Text
  | help => "help".toList
  | version => "version".toList
  | config => "config".toList
  | quiet => "quiet".toList
  | debug => "debug".toList

def short : Flag → Text
  | help => "-h".toList
  | version => "-v".toList
  | config => "-c".toList
  | quiet => "-q".toList
  | debug => "-d".toList

def long : Flag → Text
  | help => "--help".toList
  | version => "--version".toList
  | config => "--config".toList
  | quiet => "--quiet".toList
  | debug => "--debug".toList

def description : Flag → Text
  | help => "Print this help message".toList
  | version => "Show version information".toList
  | config => "Source this rc file instead of ~/.venarc".toList
  | quiet => "Suppress job and exit notices".toList
  | debug => "Enable debug tracing on stderr".toList

def takesValue : Flag → Bool
  | config => true
  | _ => false

/-- The option that an argument is, in its short or its long form. -/
def ofArgument? (argument : Text) : Option Flag :=
  all.find? fun flag => argument = flag.short || argument = flag.long

end Flag

inductive FlagError
  | unknown (argument : Text)
  | missingValue (argument : Text)
  deriving Repr, DecidableEq

def FlagError.message : FlagError → Text
  | unknown argument => "unknown option: ".toList ++ argument
  | missingValue argument => "option ".toList ++ argument ++ " requires a value".toList

/-- The values of the options that have been given. -/
structure Flags where
  help : Option Text := none
  version : Option Text := none
  config : Option Text := none
  quiet : Option Text := none
  debug : Option Text := none
  deriving Repr, DecidableEq

namespace Flags

def value? (flags : Flags) : Flag → Option Text
  | .help => flags.help
  | .version => flags.version
  | .config => flags.config
  | .quiet => flags.quiet
  | .debug => flags.debug

def isSet (flags : Flags) (flag : Flag) : Bool := (flags.value? flag).isSome

def setValue (flags : Flags) (flag : Flag) (value : Text) : Flags :=
  match flag with
  | .help => { flags with help := value }
  | .version => { flags with version := value }
  | .config => { flags with config := value }
  | .quiet => { flags with quiet := value }
  | .debug => { flags with debug := value }

@[simp] theorem value?_setValue (flags : Flags) (flag other : Flag) (value : Text) :
    (flags.setValue flag value).value? other =
      if other = flag then some value else flags.value? other := by
  cases flag <;> cases other <;> rfl

/-- The value of a switch that is given. -/
def switchedOn : Text := "true".toList

/-- Reads arguments. The flags that come with an error hold what was read before it. -/
def parse (flags : Flags) : List Text → Except FlagError Unit × Flags
  | [] => (.ok (), flags)
  | argument :: rest =>
    match Flag.ofArgument? argument with
    | none => (.error (.unknown argument), flags)
    | some flag =>
      if flag.takesValue then
        match rest with
        | [] => (.error (.missingValue argument), flags)
        | value :: rest => parse (flags.setValue flag value) rest
      else parse (flags.setValue flag switchedOn) rest

/-- The long form as it is listed. -/
def listedForm (flag : Flag) : Text :=
  if flag.takesValue then flag.long ++ " <file>".toList else flag.long

def helpLine (flag : Flag) : Text :=
  "  ".toList ++ flag.short ++ ", ".toList ++ padRight 17 (listedForm flag) ++ ' ' ::
    flag.description

/-- The help message. -/
def helpText : Text :=
  "Usage: vena [OPTIONS]\n\nOptions:\n".toList ++
    Flag.all.flatMap fun flag => helpLine flag ++ ['\n']

end Flags
end LineShell
