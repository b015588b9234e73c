/-
Arguments of the command line, read into a `Command`.

Arguments are read from left to right and the first that does not fit decides:
it is an error, or asks for help.  An option has a long name and perhaps a letter;
its value follows it, after an equals sign or as the next argument.  A value that is
an argument of its own is looked at when the next option comes, or at the end: help
that is asked for after a command's name comes before a fault in the last value
before that name.
-/
import PropertyGraph.Build
import PropertyGraph.Template.Basic

namespace PropertyGraph

/-- What a value has to be. -/
inductive ValueKind where
  | text
  /-- A text that is not empty. -/
  | path
  /-- An integer of sixty-four bits. -/
  | integer
deriving DecidableEq, Repr

/-- An option of a command: its long name, its letter, and the kind of its value
if it takes one. -/
structure OptionSpec where
  name : String
  letter : Option Char := none
  value : Option ValueKind := none
deriving DecidableEq

/-- The commands by name. -/
inductive CommandName where
  | build | compile | guard | query | template | load
deriving DecidableEq, Repr

/-- A command with its settings. -/
inductive Command where
  | build (plan : BuildPlan)
  | compile
  | guard (query : String) (limit : Option Int64)
  | query (text : String)
  | template (file : String) (marking : Template.Marking)
  | load (nodes edges : String) (clear : Bool)
deriving DecidableEq

/-- A command, and the start of the name of its configuration file. -/
structure Invocation where
  config : String
  command : Command
deriving DecidableEq

/-- What there is help on. -/
inductive HelpTopic where
  | overview
  | command (name : CommandName)
  /-- The word that asks for help. -/
  | help
deriving DecidableEq, Repr

/-- Why arguments make no invocation. -/
inductive UsageOutcome where
  /-- Help is asked for. -/
  | help (topic : HelpTopic)
  /-- The arguments do not fit. -/
  | misused
deriving DecidableEq

namespace CommandName

/-- All commands. -/
def all : List CommandName := [build, compile, guard, query, template, load]

/-- The name as an argument. -/
def text : CommandName → String
  | build => "build"
  | compile => "compile"
  | guard => "guard"
  | query => "query"
  | template => "template"
  | load => "import"

/-- The command of a name. -/
def ofText? (s : String) : Option CommandName := all.find? fun c => c.text = s

/-- The options of a command of its own. -/
def options : CommandName → List OptionSpec
  | build => [{ name := "input", letter := 'i', value := some .path }, { name := "merge" },
      { name := "jsonl", value := some .path }, { name := "csv-dir", value := some .path },
      { name := "partitioned" }]
  | compile => []
  | guard => [{ name := "query", letter := 'q', value := some .text },
      { name := "limit", value := some .integer }]
  | query => [{ name := "query", letter := 'q', value := some .text }]
  | template => [{ name := "file", letter := 'f', value := some .path },
      { name := "prefix", value := some .text }, { name := "suffix", value := some .text },
      { name := "annotated" }]
  | load => [{ name := "nodes", value := some .text }, { name := "edges", value := some .text },
      { name := "clear" }]

end CommandName

/-- The options of every command. -/
def globalOptions : List OptionSpec :=
  [{ name := "config", letter := 'c', value := some .text }, { name := "log-json" }]

namespace Arguments

/-! ### Options -/

/-- Options given, by their names; a flag has the empty value. -/
abbrev Given := OrderedMap String String

/-- Whether a value is of a kind. -/
def fits (s : String) : ValueKind → Bool
  | .text => true
  | .path => s ≠ ""
  | .integer => (Text.int64OfDigits? s.toList).isSome

/-- The options given with one more; an error if it is there already or does not
fit. -/
def give (given : Given) (o : OptionSpec) (value : String) : Except UsageOutcome Given :=
  if given.contains o.name || o.value.any fun k => !fits value k then .error .misused
  else .ok (given.insert o.name value)

/-- An option whose value is an argument of its own. -/
inductive Unsettled where
  /-- The value has to follow. -/
  | awaiting (o : OptionSpec)
  /-- The value has been read and not been looked at. -/
  | filled (o : OptionSpec) (value : String)
deriving DecidableEq

/-- The options given with the unsettled one; an error if that has no value or does
not fit. -/
def settle (given : Given) : Option Unsettled → Except UsageOutcome Given
  | none => .ok given
  | some (.awaiting _) => .error .misused
  | some (.filled o value) => give given o value

/-- Whether an argument can be no value of an option before it. -/
def isDashed (s : String) : Bool := s.toList.head? = some '-' && s ≠ "-"

/-- An argument that starts with a dash, taken apart. -/
inductive Dashed where
  /-- Two dashes alone. -/
  | stop
  /-- A long name, and what stands after an equals sign. -/
  | long (name : String) (value : Option String)
  /-- Letters, or a letter and its value. -/
  | short (letters : List Char)
deriving DecidableEq

/-- The parts of an argument that starts with a dash. -/
def dashed? (s : String) : Option Dashed :=
  match s.toList with
  | ['-', '-'] => some .stop
  | '-' :: '-' :: cs =>
    let name := String.ofList (cs.takeWhile (· ≠ '='))
    match cs.dropWhile (· ≠ '=') with
    | _ :: value => some (.long name (some (String.ofList value)))
    | [] => some (.long name none)
  | '-' :: c :: cs => some (.short (c :: cs))
  | _ => none

/-- An option given by its long name, or left waiting for its value. -/
def giveLong (specs : List OptionSpec) (topic : HelpTopic) (given : Given) (name : String)
    (value : Option String) : Except UsageOutcome (Given × Option Unsettled) :=
  if name = "help" then .error (if value.isNone then .help topic else .misused)
  else
    match specs.find? fun o => o.name = name with
    | none => .error .misused
    | some o =>
      match o.value, value with
      | some _, some v => (give given o v).map fun given => (given, none)
      | some _, none => .ok (given, some (.awaiting o))
      | none, none => (give given o "").map fun given => (given, none)
      | none, some _ => .error .misused

/-- Options given by letters that stand together; the first that takes a value
takes what follows it, or is left waiting for it. -/
def giveShort (specs : List OptionSpec) (topic : HelpTopic) (given : Given) :
    List Char → Except UsageOutcome (Given × Option Unsettled)
  | [] => .ok (given, none)
  | c :: cs =>
    if c = 'h' then .error (.help topic)
    else
      match specs.find? fun o => o.letter = some c with
      | none => .error .misused
      | some o =>
        if o.value.isNone then
          match give given o "" with
          | .ok given => giveShort specs topic given cs
          | .error e => .error e
        else
          match cs with
          | [] => .ok (given, some (.awaiting o))
          | '=' :: value => (give given o (String.ofList value)).map fun given => (given, none)
          | value => (give given o (String.ofList value)).map fun given => (given, none)

/-- The options before the first argument that is none. -/
structure Scanned where
  given : Given
  /-- The last option, if its value is an argument of its own. -/
  last : Option Unsettled := none
  /-- The first argument that is no option, and what follows it. -/
  rest : Option (String × List String) := none

/-- All options given. -/
def Scanned.settled (s : Scanned) : Except UsageOutcome Given := settle s.given s.last

/-- Reads options up to the first argument that is none.  The last option read may
be unsettled. -/
def scan (specs : List OptionSpec) (topic : HelpTopic) :
    Option Unsettled → Given → List String → Except UsageOutcome Scanned
  | last, given, [] => .ok { given, last }
  | some (.awaiting o), given, arg :: args =>
    if isDashed arg then .error .misused else scan specs topic (some (.filled o arg)) given args
  | last, given, arg :: args =>
    match dashed? arg with
    | none => .ok { given, last, rest := some (arg, args) }
    | some .stop => if args = [] then .ok { given, last } else .error .misused
    | some (.long name value) =>
      match (settle given last).bind fun given => giveLong specs topic given name value with
      | .ok (given, last) => scan specs topic last given args
      | .error e => .error e
    | some (.short letters) =>
      match (settle given last).bind fun given => giveShort specs topic given letters with
      | .ok (given, last) => scan specs topic last given args
      | .error e => .error e

/-! ### Commands -/

/-- An option that has to be given. -/
def required (given : Given) (name : String) : Except UsageOutcome String :=
  match given.get? name with
  | some value => .ok value
  | none => .error .misused

/-- The command that options make. -/
def command (given : Given) : CommandName → Except UsageOutcome Command
  | .build => do
    let input ← required given "input"
    if given.contains "partitioned" && !given.contains "csv-dir" then .error .misused
    else return .build {
      input
      merge := given.contains "merge"
      records := given.get? "jsonl"
      tables := given.get? "csv-dir"
      partitioned := given.contains "partitioned" }
  | .compile => return .compile
  | .guard => do
    let query ← required given "query"
    return .guard query ((given.get? "limit").bind fun s => Text.int64OfDigits? s.toList)
  | .query => return .query (← required given "query")
  | .template => do
    let file ← required given "file"
    return .template file ⟨(given.get? "prefix").getD "\x7b", (given.get? "suffix").getD "\x7d",
      given.contains "annotated"⟩
  | .load => do
    return .load (← required given "nodes") (← required given "edges") (given.contains "clear")

/-- The word that asks for help in place of a command's name. -/
def helpWord : String := "help"

/-- What help is asked for by the names after the word. -/
def helpTopic : List String → UsageOutcome
  | [] => .help .overview
  | [name] =>
    match CommandName.ofText? name with
    | some c => .help (.command c)
    | none => if name = helpWord then .help .help else .misused
  | _ => .misused

/-- The invocation that arguments make.  The configuration may be named before
and after the command's name; what stands after it counts. -/
def parse (args : List String) : Except UsageOutcome Invocation := do
  let before ← scan globalOptions .overview none .empty args
  match before.rest with
  | none => .error .misused
  | some (name, rest) =>
    match CommandName.ofText? name with
    | none => .error (if name = helpWord then helpTopic rest else .misused)
    | some c => do
      let after ← scan (globalOptions ++ c.options) (.command c) none .empty rest
      if after.rest.isSome then .error .misused
      else
        let outer ← before.settled
        let given ← after.settled
        let command ← command given c
        let named := (given.get? "config").orElse fun _ => outer.get? "config"
        return ⟨named.getD "annograph", command⟩

end Arguments

end PropertyGraph
