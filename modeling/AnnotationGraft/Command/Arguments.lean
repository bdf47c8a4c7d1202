/-!
# Command line arguments

The command has two subcommands.  `graft` takes a directory, `inspect` takes a file.  Some options
may stand before the subcommand as well as after it; one that stands after it wins.  An option may
be given once in each of the two places.
-/

namespace AnnotationGraft

/-- What `graft` was asked to do. -/
structure GraftArguments where
  directory : String
  out : Option String
  dryRun : Bool
  json : Bool
  sequential : Bool
  deriving DecidableEq, Repr

/-- What `inspect` was asked to do. -/
structure InspectArguments where
  file : String
  json : Bool
  deriving DecidableEq, Repr

/-- A subcommand with its arguments. -/
inductive Subcommand where
  | graft (arguments : GraftArguments)
  | inspect (arguments : InspectArguments)
  deriving DecidableEq, Repr

/-- What the command line asks for. -/
inductive Invocation where
  | version
  | help
  | run (config : Option String) (subcommand : Subcommand)
  deriving DecidableEq, Repr

/-- What is wrong with a command line. -/
inductive UsageError where
  | unknownOption (argument : String)
  | unexpectedArgument (argument : String)
  | unexpectedValue (option : String)
  | missingValue (option : String)
  | repeated (option : String)
  | missingArgument (name : String)
  | unknownSubcommand (name : String)
  | missingSubcommand
  deriving DecidableEq, Repr

/-- The fault in words. -/
def UsageError.message : UsageError → String
  | unknownOption argument => "unknown option " ++ argument
  | unexpectedArgument argument => "unexpected argument " ++ argument
  | unexpectedValue option => "--" ++ option ++ " takes no value"
  | missingValue option => "--" ++ option ++ " needs a value"
  | repeated option => "--" ++ option ++ " is given more than once"
  | missingArgument name => "missing argument " ++ name
  | unknownSubcommand name => "unknown subcommand " ++ name
  | missingSubcommand => "missing subcommand"

namespace Arguments

/-- An option that may be given. -/
structure OptionForm where
  long : String
  short : Option Char := none
  takesValue : Bool := false

/-- What may be given at one place of the command line. -/
structure Place where
  options : List OptionForm
  /-- The name of the argument that is no option, where there is one. -/
  argument : Option String

/-- What was given at one place. -/
structure Given where
  flags : List String := []
  values : List (String × String) := []
  argument : Option String := none

/-- Why reading the arguments ends early. -/
inductive Halt where
  | usage (error : UsageError)
  | help
  | version

/-- Asks for a more talkative run; the report stays the same. -/
def verboseOption : OptionForm := { long := "verbose", short := some 'v' }

/-- Asks for a quieter run; the report stays the same. -/
def quietOption : OptionForm := { long := "quiet", short := some 'q' }

/-- Names the settings file. -/
def configOption : OptionForm := { long := "config", takesValue := true }

/-- Asks for help and for nothing else. -/
def helpOption : OptionForm := { long := "help", short := some 'h' }

/-- Asks for the version and for nothing else. -/
def versionOption : OptionForm := { long := "version", short := some 'V' }

/-- The options that may stand anywhere. -/
def sharedOptions : List OptionForm := [verboseOption, quietOption, configOption, helpOption]

/-- What may stand before the subcommand. -/
def outerPlace : Place := ⟨versionOption :: sharedOptions, none⟩

/-- What may follow `graft`. -/
def graftPlace : Place where
  options := sharedOptions
    ++ [{ long := "out", takesValue := true }, { long := "dry-run" }, { long := "json" },
      { long := "sequential" }]
  argument := some "CLASSES_DIR"

/-- What may follow `inspect`. -/
def inspectPlace : Place where
  options := sharedOptions ++ [{ long := "json" }]
  argument := some "FILE"

/-- Notes an option without a value. -/
def addFlag (given : Given) (name : String) : Except Halt Given :=
  if name = "help" then .error .help
  else if name = "version" then .error .version
  else if given.flags.contains name then .error (.usage (.repeated name))
  else .ok { given with flags := name :: given.flags }

/-- Notes an option with its value. -/
def addValue (given : Given) (name value : String) : Except Halt Given :=
  if value = "" then .error (.usage (.missingValue name))
  else if (given.values.lookup name).isSome then .error (.usage (.repeated name))
  else .ok { given with values := (name, value) :: given.values }

/-- Notes an argument that is no option. -/
def addArgument (place : Place) (given : Given) (value : String) : Except Halt Given :=
  match place.argument, given.argument with
  | some name, none =>
    if value = "" then .error (.usage (.missingArgument name))
    else .ok { given with argument := some value }
  | _, _ => .error (.usage (.unexpectedArgument value))

/-- Notes options given by their letters. -/
def addLetters (place : Place) (given : Given) : List Char → Except Halt Given
  | [] => .ok given
  | c :: cs =>
    match place.options.find? fun o => o.short == some c with
    | none => .error (.usage (.unknownOption ("-" ++ String.singleton c)))
    | some o =>
      match addFlag given o.long with
      | .error halt => .error halt
      | .ok given => addLetters place given cs

/-- Whether an argument is written like an option.  A lone dash is not. -/
def looksLikeOption (argument : String) : Bool := argument.startsWith "-" && argument != "-"

/-- The name of an option written with two dashes, and the value that follows its equals sign. -/
def splitLong (argument : String) : String × Option String :=
  let text := argument.toList.drop 2
  let name := String.ofList (text.takeWhile (· != '='))
  match text.dropWhile (· != '=') with
  | [] => (name, none)
  | _ :: value => (name, some (String.ofList value))

/-- Notes arguments none of which is an option. -/
def addArguments (place : Place) (given : Given) : List String → Except Halt Given
  | [] => .ok given
  | a :: rest =>
    match addArgument place given a with
    | .error halt => .error halt
    | .ok given => addArguments place given rest

/-- Reads the arguments of one place.  Where arguments that are no options are not expected, the
first one ends the place: it is given with those that follow it. -/
def readPlace (place : Place) (given : Given) :
    List String → Except Halt (Given × Option (String × List String))
  | [] => .ok (given, none)
  | a :: rest =>
    if a = "--" then (addArguments place given rest).map fun given => (given, none)
    else if !looksLikeOption a then
      if place.argument.isNone then .ok (given, some (a, rest))
      else
        match addArgument place given a with
        | .error halt => .error halt
        | .ok given => readPlace place given rest
    else if !a.startsWith "--" then
      match addLetters place given (a.toList.drop 1) with
      | .error halt => .error halt
      | .ok given => readPlace place given rest
    else
      let (name, value?) := splitLong a
      match place.options.find? fun o => o.long == name with
      | none => .error (.usage (.unknownOption a))
      | some o =>
        match o.takesValue, value? with
        | false, none =>
          match addFlag given name with
          | .error halt => .error halt
          | .ok given => readPlace place given rest
        | false, some _ => .error (.usage (.unexpectedValue name))
        | true, some value =>
          match addValue given name value with
          | .error halt => .error halt
          | .ok given => readPlace place given rest
        | true, none =>
          match rest with
          | [] => .error (.usage (.missingValue name))
          | value :: rest =>
            if looksLikeOption value then .error (.usage (.missingValue name))
            else
              match addValue given name value with
              | .error halt => .error halt
              | .ok given => readPlace place given rest

/-- Whether an option without a value was given. -/
def Given.has (given : Given) (name : String) : Bool := given.flags.contains name

/-- The value that was given for an option. -/
def Given.value? (given : Given) (name : String) : Option String := given.values.lookup name

/-- Reads what follows a subcommand; its one argument has to be there. -/
def readSubcommand (place : Place) (rest : List String) : Except Halt (Given × String) := do
  let (given, _) ← readPlace place {} rest
  match given.argument with
  | some value => return (given, value)
  | none => throw (.usage (.missingArgument (place.argument.getD "")))

/-- The names of the subcommands. -/
def subcommandNames : List String := ["graft", "inspect", "help"]

/-- Reads what follows `help`: nothing, or the name of one subcommand. -/
def readHelp : List String → Halt
  | [] => .help
  | name :: rest =>
    if name ∈ subcommandNames then
      match rest with
      | [] => .help
      | next :: _ => .usage (.unknownSubcommand next)
    else .usage (.unknownSubcommand name)

/-- Reads the arguments of a command line that asks for a subcommand. -/
def readInvocation (arguments : List String) :
    Except Halt (Option String × Subcommand) := do
  let (outer, command) ← readPlace outerPlace {} arguments
  let config (given : Given) : Option String := (given.value? "config").or (outer.value? "config")
  match command with
  | none => throw (.usage .missingSubcommand)
  | some ("graft", rest) =>
    let (given, directory) ← readSubcommand graftPlace rest
    return (config given,
      .graft ⟨directory, given.value? "out", given.has "dry-run", given.has "json",
        given.has "sequential"⟩)
  | some ("inspect", rest) =>
    let (given, file) ← readSubcommand inspectPlace rest
    return (config given, .inspect ⟨file, given.has "json"⟩)
  | some ("help", rest) => throw (readHelp rest)
  | some (name, _) => throw (.usage (.unknownSubcommand name))

end Arguments

/-- What a command line asks for. -/
def Invocation.ofArguments (arguments : List String) : Except UsageError Invocation :=
  match Arguments.readInvocation arguments with
  | .ok (config, subcommand) => .ok (.run config subcommand)
  | .error .help => .ok .help
  | .error .version => .ok .version
  | .error (.usage e) => .error e

end AnnotationGraft
