/-
Running the command line.

An invocation answers with an exit code and what it prints: code 2 for arguments
that do not fit, 1 for any later error, with nothing printed then.
-/
import PropertyGraph.CommandLine.Help
import PropertyGraph.Config.File
import PropertyGraph.Cypher.Query
import PropertyGraph.Result.Response
import PropertyGraph.Template.File

namespace PropertyGraph

/-- A connection to a graph database. -/
structure Session (m : Type → Type) where
  run : String → m (Except RunFailure ResultSet)
  /-- Deletes all nodes and edges, and tells whether that was possible. -/
  clear : m Bool
  /-- Loads node and edge tables, and tells whether that was possible. -/
  load : String → String → m Bool

/-- What commands ask of the world around them. -/
structure Surroundings (m : Type → Type) where
  storage : Storage m
  /-- All of the standard input. -/
  input : m String
  /-- The environment variables. -/
  environment : List (String × String)
  /-- A connection, where the server can be reached. -/
  connect? : ServerConfig → m (Option (Session m))

/-- The exit code of a run, and what it prints. -/
structure ExitState where
  code : UInt8
  output : String := ""
deriving DecidableEq

namespace ExitState

/-- The end of a run that fails after its arguments are read. -/
def failed : ExitState := { code := 1 }

/-- The end of a run that prints a line. -/
def printed (s : String) : ExitState := { code := 0, output := s ++ "\n" }

/-- The end of a run that prints a value. -/
def shown (j : Json) : ExitState := printed j.pretty

end ExitState

section

variable {m : Type → Type} [Monad m] (world : Surroundings m)

/-- Runs a command under a configuration. -/
def Command.run (config : Config) : Command → m ExitState
  | .build plan => do
    if plan.records.isNone ∧ plan.tables.isNone then return .failed
    match ← (PropertyGraph.build world.storage config plan).run with
    | .ok report => return .shown report.toJson
    | .error _ => return .failed
  | .compile => do
    match PatternGraph.parse? (← world.input) with
    | none => return .failed
    | some pattern =>
      match Cypher.compile config.matching pattern with
      | .ok compiled => return .printed compiled.text
      | .error _ => return .failed
  | .guard text limit => return .shown (Guard.check (limit.getD config.guard.limit) text).toJson
  | .query text => do
    match ← world.connect? config.server with
    | none => return .failed
    | some session =>
      let response ← execute session.run config.guard.limit text
      return { ExitState.shown response.toJson with code := if response.success then 0 else 1 }
  | .template file marking => do
    match ← renderFile world.storage marking file with
    | .ok rendered => return .shown (.array (rendered.map Template.toJson))
    | .error _ => return .failed
  | .load nodes edges clear => do
    match ← world.connect? config.server with
    | none => return .failed
    | some session =>
      let cleared ← if clear then session.clear else pure true
      if cleared then
        if ← session.load nodes edges then return { code := 0 } else return .failed
      else return .failed

/-- Runs the command line. -/
def runArguments (args : List String) : m ExitState := do
  match Arguments.parse args with
  | .error (.help topic) => return { code := 0, output := Help.text topic }
  | .error .misused => return { code := 2 }
  | .ok invocation =>
    let file ← Config.findFile world.storage invocation.config
    match Config.load file world.environment with
    | .error _ => return .failed
    | .ok config => Command.run world config invocation.command

end

end PropertyGraph
