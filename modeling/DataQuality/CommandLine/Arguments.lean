import DataQuality.Number.Text
import DataQuality.Text.Basic

/-!
# Arguments

What the arguments of the program ask for. Options may stand anywhere after the command that they
belong to, and those about logs before it too; each is given at most once, the one for more logs
aside.
-/

namespace DataQuality

/-- What a scan is asked to do. -/
structure ScanRequest where
  file : String
  url : String
  output : Option String
  json : Bool
  concurrency : Nat
  maxAggregates : Option Nat
  deriving DecidableEq, Repr

/-- What the program is asked to do. -/
inductive Command where
  | scan (request : ScanRequest)
  | test (url : String)
  | list
  deriving DecidableEq, Repr

/-- A command with the wish for more or fewer logs. -/
structure Invocation where
  command : Command
  verbose : Nat
  quiet : Bool
  deriving DecidableEq, Repr

/-- The commands by name. -/
inductive CommandName where
  | scan
  | test
  | list
  deriving DecidableEq, Repr

namespace CommandName

/-- The command of a name. -/
def ofName? : String → Option CommandName
  | "scan" => some scan
  | "test" => some test
  | "list" => some list
  | _ => none

/-- Whether the command needs the URL of a warehouse. -/
def needsUrl : CommandName → Bool
  | scan | test => true
  | list => false

end CommandName

/-- What help is about: the whole program, a command, or help itself. -/
inductive HelpTopic where
  | program
  | command (name : CommandName)
  | help
  deriving DecidableEq, Repr

/-- The topic of a name. -/
def HelpTopic.ofName? (name : String) : Option HelpTopic :=
  if name = "help" then some help else (CommandName.ofName? name).map command

/-- What the arguments come to. Help is given in full or in short. -/
inductive Request where
  | invoke (invocation : Invocation)
  | help (topic : HelpTopic) (inFull : Bool)
  | version
  deriving DecidableEq, Repr

/-- The document that is asked for. -/
def Request.document? : Request → Option String
  | .invoke ⟨.scan request, _, _⟩ => some request.file
  | _ => none

/-- The URL of the warehouse that is asked for. -/
def Request.url? : Request → Option String
  | .invoke ⟨.scan request, _, _⟩ => some request.url
  | .invoke ⟨.test url, _, _⟩ => some url
  | _ => none

/-- The options that may be given. -/
inductive OptionName where
  | verbose
  | quiet
  | help
  | version
  | warehouseUrl
  | output
  | json
  | concurrency
  | maxAggregates
  deriving DecidableEq, Repr

namespace OptionName

/-- The option of a long name. -/
def ofLong? : String → Option OptionName
  | "verbose" => some verbose
  | "quiet" => some quiet
  | "help" => some help
  | "version" => some version
  | "warehouse-url" => some warehouseUrl
  | "output" => some output
  | "json" => some json
  | "concurrency" => some concurrency
  | "max-aggregates" => some maxAggregates
  | _ => none

/-- The option of a letter. -/
def ofShort? : Char → Option OptionName
  | 'v' => some verbose
  | 'q' => some quiet
  | 'h' => some help
  | 'V' => some version
  | 'o' => some output
  | _ => none

/-- Whether a value follows the option. -/
def takesValue : OptionName → Bool
  | warehouseUrl | output | concurrency | maxAggregates => true
  | verbose | quiet | help | version | json => false

/-- Whether the option may be given with a command, or before any. -/
def isAllowed : OptionName → Option CommandName → Bool
  | verbose, _ | quiet, _ | help, _ => true
  | version, command => command.isNone
  | warehouseUrl, command => command.any CommandName.needsUrl
  | output, command | json, command | concurrency, command | maxAggregates, command =>
    command = some .scan

end OptionName

/-- The arguments read so far. `given` holds the options given since the command, and `verbose` how
often more logs were asked for since then; `verboseBefore` is how often they were before it. -/
structure Arguments where
  command : Option CommandName := none
  given : List OptionName := []
  verboseBefore : Nat := 0
  verbose : Nat := 0
  quiet : Bool := false
  json : Bool := false
  values : List (OptionName × String) := []
  file : Option String := none

/-- What one argument does: the reading goes on, ends early, or fails. -/
inductive ArgumentStep where
  | go (state : Arguments)
  | stop (request : Request)
  | fail

namespace Arguments

/-- No arguments. -/
def empty : Arguments := {}

/-- A natural number between bounds; a plus sign may stand in front. -/
def boundedNat? (low high : Nat) (s : String) : Option Nat :=
  (Number.parseNat? high s).filter (low ≤ ·)

/-- The largest value of a count. -/
def maxCount : Nat := 65535

/-- The largest number of queries at once. -/
def maxConcurrency : Nat := 64

/-- Whether a value suits its option. -/
def isValue (name : OptionName) (value : String) : Bool :=
  match name with
  | .concurrency => (boundedNat? 1 maxConcurrency value).isSome
  | .maxAggregates => (boundedNat? 1 maxCount value).isSome
  | .output => !value.isEmpty
  | _ => true

/-- Takes up an option without a value. `long` says that it was given by its long name. -/
def flag (a : Arguments) (name : OptionName) (long : Bool) : ArgumentStep :=
  if !name.isAllowed a.command || name.takesValue then .fail
  else
    match name with
    | .help => .stop (.help (a.command.elim .program .command) long)
    | .version => .stop .version
    | .verbose => .go { a with verbose := a.verbose + 1 }
    | _ =>
      if a.given.contains name then .fail
      else
        .go { a with
          given := name :: a.given
          quiet := a.quiet || name == .quiet
          json := a.json || name == .json }

/-- Takes up an option with a value. -/
def assign (a : Arguments) (name : OptionName) (value : String) : ArgumentStep :=
  if name.isAllowed a.command && name.takesValue && !a.given.contains name &&
      isValue name value then
    .go { a with given := name :: a.given, values := (name, value) :: a.values }
  else .fail

/-- Takes up an argument that is no option: the command, or else the file to scan. -/
def positional (a : Arguments) (s : String) : ArgumentStep :=
  match a.command with
  | none =>
    match CommandName.ofName? s with
    | some command =>
      .go { a with command := some command, given := [], verboseBefore := a.verbose, verbose := 0 }
    | none => .fail
  | some .scan =>
    if a.file.isNone && !s.isEmpty then .go { a with file := some s } else .fail
  | some _ => .fail

/-- Whether an argument is an option, and no value of one. -/
def looksLikeOption (s : String) : Bool := Text.startsWith s "-" && s != "-"

/-- Takes up letters behind one dash. The letters after one that takes a value are its value; if
there are none, the next argument is. -/
def letters (a : Arguments) (next : Option String) :
    List Char → Bool × ArgumentStep
  | [] => (false, .go a)
  | c :: rest =>
    match OptionName.ofShort? c with
    | none => (false, .fail)
    | some name =>
      if name.takesValue then
        match rest, next with
        | '=' :: value, _ => (false, a.assign name (String.ofList value))
        | _ :: _, _ => (false, a.assign name (String.ofList rest))
        | [], some value =>
          if looksLikeOption value then (false, .fail) else (true, a.assign name value)
        | [], none => (false, .fail)
      else
        match a.flag name false with
        | .go a => a.letters next rest
        | step => (false, step)

/-- Takes up a long option. The first component says that the next argument was its value. -/
def long (a : Arguments) (next : Option String) (s : String) : Bool × ArgumentStep :=
  match Text.cut '=' (s.toList.drop 2) with
  | some (name, value) =>
    match OptionName.ofLong? (String.ofList name) with
    | some name => (false, a.assign name (String.ofList value))
    | none => (false, .fail)
  | none =>
    match OptionName.ofLong? (String.ofList (s.toList.drop 2)) with
    | none => (false, .fail)
    | some name =>
      if name.takesValue then
        match next with
        | some value =>
          if looksLikeOption value then (false, .fail) else (true, a.assign name value)
        | none => (false, .fail)
      else (false, a.flag name true)

/-- Takes up one argument; `next` is the one after it. -/
def step (a : Arguments) (next : Option String) (s : String) : Bool × ArgumentStep :=
  if !looksLikeOption s then (false, a.positional s)
  else if Text.startsWith s "--" then a.long next s
  else a.letters next (s.toList.drop 1)

/-- The value of an option. -/
def value? (a : Arguments) (name : OptionName) : Option String := a.values.lookup name

/-- The URL of the warehouse: given, or else that of the environment. -/
def url? (a : Arguments) (environment : Option String) : Option String :=
  a.value? .warehouseUrl <|> environment

/-- How often more logs are asked for: what is said behind the command counts, if anything is. -/
def verbosity (a : Arguments) : Nat := if a.verbose = 0 then a.verboseBefore else a.verbose

/-- What all arguments come to. -/
def finish (a : Arguments) (environment : Option String) : Option Request :=
  let invoke (command : Command) : Request := .invoke ⟨command, a.verbosity, a.quiet⟩
  match a.command with
  | none => none
  | some .list => some (invoke .list)
  | some .test => (a.url? environment).map fun url ↦ invoke (.test url)
  | some .scan => do
    let file ← a.file
    let url ← a.url? environment
    some (invoke (.scan
      { file, url, output := a.value? .output, json := a.json
        concurrency := ((a.value? .concurrency).bind (boundedNat? 1 maxConcurrency)).getD 1
        maxAggregates := (a.value? .maxAggregates).bind (boundedNat? 1 maxCount) }))

/-- The request for help on what is named; no command has commands of its own. -/
def helpOn : List String → Option Request
  | [] => some (.help .program true)
  | [name] => (HelpTopic.ofName? name).map fun topic ↦ .help topic true
  | _ => none

/-- Takes up arguments in order. After two dashes none is an option. -/
def run (environment : Option String) (a : Arguments) : List String → Option Request
  | [] => a.finish environment
  | "--" :: rest => runPositional environment a rest
  | s :: rest =>
    if a.command.isNone ∧ s = "help" then helpOn rest
    else
      match a.step rest.head? s with
      | (_, .stop request) => some request
      | (_, .fail) => none
      | (false, .go b) => b.run environment rest
      | (true, .go b) =>
        match rest with
        | _ :: rest => b.run environment rest
        | [] => none
where
  /-- Takes up arguments none of which is an option or a command. -/
  runPositional (environment : Option String) (a : Arguments) :
      List String → Option Request
    | [] => a.finish environment
    | s :: rest =>
      if a.command.isNone then none
      else
        match a.positional s with
        | .go b => runPositional environment b rest
        | .stop request => some request
        | .fail => none

end Arguments

/-- Reads the arguments of the program. `environment` is the URL of the warehouse that is used if
none is given. -/
def Request.ofArguments (environment : Option String) (arguments : List String) : Option Request :=
  Arguments.empty.run environment arguments

end DataQuality
