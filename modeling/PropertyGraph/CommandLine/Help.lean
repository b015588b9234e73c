/-
The help texts of the command line.
-/
import PropertyGraph.CommandLine.Arguments

namespace PropertyGraph.Help

/-- A line on an option: how it is written, and what it is for. -/
structure Entry where
  usage : String
  about : String := ""

/-- The line on the option that names the configuration. -/
def config : Entry :=
  ⟨"-c, --config <CONFIG>", "Config file prefix (default: annograph) [default: annograph]"⟩

/-- The line on the option that asks for structured logs. -/
def logJson : Entry := ⟨"    --log-json", "Emit logs as JSON lines"⟩

/-- The line on the option that asks for help. -/
def help : Entry := ⟨"-h, --help", "Print help"⟩

/-- Lines in two columns, indented. -/
def columns (entries : List Entry) : String :=
  let width := (entries.map fun e => e.usage.length).foldl max 0
  "\n".intercalate (entries.map fun e =>
    "  " ++ e.usage ++ "".pushn ' ' (width + 2 - e.usage.length) ++ e.about)

/-- What a command does. -/
def about : CommandName → String
  | .build => "Ingest JSONL records, optionally merge synonyms, and export"
  | .compile => "Compile a query graph (JSON on stdin) into Cypher"
  | .guard => "Check a query against the keyword guard and print the verdict"
  | .query => "Guard and run a query against Neo4j"
  | .template => "Render query templates from a JSON file"
  | .load => "Bulk-load a CSV export into Neo4j with APOC"

/-- The options that a command requires. -/
def requiredUsage : CommandName → String
  | .build => " --input <INPUT>"
  | .compile => ""
  | .guard | .query => " --query <QUERY>"
  | .template => " --file <FILE>"
  | .load => " --nodes <NODES> --edges <EDGES>"

/-- The lines on the options of a command. -/
def entries : CommandName → List Entry
  | .build => [config, ⟨"-i, --input <INPUT>", "Input records, one JSON object per line"⟩, logJson,
      ⟨"    --merge", "Run the synonym merge pass before exporting"⟩,
      ⟨"    --jsonl <JSONL>", "Write the graph as JSONL here"⟩,
      ⟨"    --csv-dir <CSV_DIR>", "Write nodes.csv / edges.csv into this directory"⟩,
      ⟨"    --partitioned", "Split CSV output by property key set"⟩, help]
  | .compile => [config, logJson, help]
  | .guard => [config, ⟨"-q, --query <QUERY>", ""⟩,
      ⟨"    --limit <LIMIT>", "Override the configured result ceiling"⟩, logJson, help]
  | .query => [config, ⟨"-q, --query <QUERY>", ""⟩, logJson, help]
  | .template => [config, ⟨"-f, --file <FILE>", ""⟩, logJson,
      ⟨"    --prefix <PREFIX>", "[default: \x7b]"⟩, ⟨"    --suffix <SUFFIX>", "[default: \x7d]"⟩,
      ⟨"    --annotated", "Annotate text placeholders with their input type"⟩, help]
  | .load => [config,
      ⟨"    --nodes <NODES>", "Node CSV, as the server resolves it (e.g. file:///nodes.csv)"⟩,
      ⟨"    --edges <EDGES>", ""⟩, logJson, ⟨"    --clear", "Delete everything before importing"⟩,
      help]

/-- The help on a command. -/
def onCommand (c : CommandName) : String :=
  about c ++ "\n\nUsage: annograph " ++ c.text ++ " [OPTIONS]" ++ requiredUsage c ++
    "\n\nOptions:\n" ++ columns (entries c) ++ "\n"

/-- What asking for help does. -/
def aboutHelp : String := "Print this message or the help of the given subcommand(s)"

/-- The help on asking for help. -/
def onHelp : String :=
  aboutHelp ++ "\n\nUsage: annograph help [COMMAND]...\n\nArguments:\n" ++
    columns [⟨"[COMMAND]...", "Print help for the subcommand(s)"⟩] ++ "\n"

/-- The help on all commands. -/
def overview : String :=
  let commands := CommandName.all.map (fun c => Entry.mk c.text (about c)) ++
    [⟨Arguments.helpWord, aboutHelp⟩]
  "Build, export, and query annotation property graphs" ++
    "\n\nUsage: annograph [OPTIONS] <COMMAND>\n\nCommands:\n" ++ columns commands ++
    "\n\nOptions:\n" ++ columns [config, logJson, help] ++ "\n"

/-- The help on a topic. -/
def text : HelpTopic → String
  | .overview => overview
  | .command c => onCommand c
  | .help => onHelp

end PropertyGraph.Help
