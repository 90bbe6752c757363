/-!
# The command line

The arguments of the command and what they ask for. Options are long ones, with their values
behind them or after an equals sign, and each is given at most once; what does not follow these
rules is a usage error.

Main definitions:

* `Request`: what is asked for.
* `Request.ofArguments?`: the request of the arguments.
-/

namespace ArchDoc.Command

/-- The options of the two commands, as far as they are given. -/
structure Options where
  facts : Option String := none
  config : Option String := none
  root : Option String := none
  output : Option String := none
  maxCycles : Option UInt64 := none
  jsonLogs : Bool := false

/-- The commands: to keep the document in step with facts, and to print it. -/
inductive Verb where
  | generate
  | render
  deriving DecidableEq

/-- What is asked for: the version, or a command for a file of facts. -/
inductive Request where
  | version
  | run (verb : Verb) (facts : String) (options : Options)

/-- The version of the command. -/
def versionText : String := "calm 0.1.0"

/-! ## Values of options -/

/-- A path, which must not be empty. -/
def path? (text : String) : Option String :=
  if text.isEmpty then none else some text

/-- The number that a text spells: digits, perhaps after a plus, within 64 bits. -/
def count? (text : String) : Option UInt64 :=
  let digits :=
    match text.toList with
    | '+' :: rest => rest
    | cs => cs
  let n := digits.foldl (fun n c => 10 * n + (c.toNat - '0'.toNat)) 0
  if !digits.isEmpty && digits.all (fun c => '0' ≤ c && c ≤ '9') && n < UInt64.size then
    some (UInt64.ofNat n)
  else none

/-- Gives an option its value, unless it has one or the command does not know it. -/
def setOption (verb : Verb) (options : Options) (name value : String) : Option Options :=
  match name with
  | "facts" => do
    guard options.facts.isNone
    return { options with facts := ← path? value }
  | "config" => do
    guard options.config.isNone
    return { options with config := ← path? value }
  | "root" => do
    guard (verb = .generate ∧ options.root.isNone)
    return { options with root := ← path? value }
  | "output" => do
    guard (verb = .generate ∧ options.output.isNone)
    return { options with output := ← path? value }
  | "max-cycles" => do
    guard (verb = .generate ∧ options.maxCycles.isNone)
    return { options with maxCycles := ← count? value }
  | _ => none

/-! ## Arguments -/

/-- The flag that asks for the journal as JSON. -/
def jsonLogsFlag : String := "--json-logs"

/-- A long option: its name, and its value if there is an equals sign. -/
def longOption? (argument : String) : Option (String × Option String) :=
  match argument.toList with
  | '-' :: '-' :: rest =>
    let name := rest.takeWhile (· != '=')
    match rest.dropWhile (· != '=') with
    | [] => some (String.ofList name, none)
    | _ :: value => some (String.ofList name, some (String.ofList value))
  | _ => none

/-- Whether an argument can be the value of the option before it: it does not look like an option
itself. -/
def isValue (argument : String) : Bool :=
  match argument.toList with
  | '-' :: _ :: _ => false
  | _ => true

/-- The argument behind which no more options follow. -/
def endOfOptions : String := "--"

/-- The options that arguments behind a command spell. Nothing but options can be given, so the
argument that ends them may only be the last one. -/
def readOptions (verb : Verb) (options : Options) : List String → Option Options
  | [] => some options
  | [argument] =>
    if argument = endOfOptions then some options
    else if argument = jsonLogsFlag then
      if options.jsonLogs then none else some { options with jsonLogs := true }
    else
      match longOption? argument with
      | some (name, some value) => setOption verb options name value
      | _ => none
  | argument :: next :: rest =>
    if argument = jsonLogsFlag then
      if options.jsonLogs then none
      else readOptions verb { options with jsonLogs := true } (next :: rest)
    else
      match longOption? argument with
      | some (name, some value) => do
        readOptions verb (← setOption verb options name value) (next :: rest)
      | some (name, none) => do
        guard (isValue next)
        readOptions verb (← setOption verb options name next) rest
      | none => none

/-- The command of a name. -/
def verb? : String → Option Verb
  | "generate" => some .generate
  | "render" => some .render
  | _ => none

namespace Request

/-- The request of arguments that may begin with the flag for the journal as JSON, which has been
given already or not. -/
def ofArgumentsFrom (jsonLogs : Bool) : List String → Option Request
  | [] => none
  | argument :: rest =>
    if argument = jsonLogsFlag then
      if jsonLogs then none else ofArgumentsFrom true rest
    else if argument = "--version" ∨ argument = "-V" then some .version
    else do
      let verb ← verb? argument
      let options ← readOptions verb {} rest
      return .run verb (← options.facts) { options with jsonLogs := jsonLogs || options.jsonLogs }

/-- The request of arguments; none if they are not used as they should. -/
def ofArguments? (arguments : List String) : Option Request :=
  ofArgumentsFrom false arguments

end Request

end ArchDoc.Command
