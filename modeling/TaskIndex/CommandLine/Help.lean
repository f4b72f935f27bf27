import TaskIndex.CommandLine.Arguments

/-!
The texts that explain the command line.

Rows have two columns, as wide as the widest left one asks for. If the left column is so wide that a
right one does not fit in the line, every right column goes to a line of its own.
-/

namespace TaskIndex.CommandLine

/-- How wide a line is. -/
def lineWidth : Nat := 100

/-- A row of a table: how the left column begins, the left column, and the right column. -/
structure Row where
  lead : String := ""
  left : String
  right : String

namespace Row

/-- The right columns do not fit beside the left ones. -/
def needOwnLines (rows : List Row) (widest : Nat) : Bool :=
  let taken := widest + 12
  40 < taken && rows.any fun row => lineWidth < taken + row.right.length

def lines (rows : List Row) : List String :=
  let widest := (rows.map (·.left.length)).foldl max 0
  if needOwnLines rows widest then
    rows.flatMap fun row => [s!"  {row.lead}{row.left}", s!"          {row.right}"]
  else
    rows.map fun row =>
      let gap := String.ofList (List.replicate (widest + 2 - row.left.length) ' ')
      s!"  {row.lead}{row.left}{gap}{row.right}"

/-- An option without a letter. -/
def option (left right : String) : Row := ⟨"    ", left, right⟩

def help : Row := ⟨"-h, ", "--help", "Print help"⟩

def version : Row := ⟨"-V, ", "--version", "Print version"⟩

end Row

/-- What the command is for. -/
def CommandName.about : CommandName → String
  | query => "Run one query on behalf of an actor and print the match as JSON"
  | stats => "Load one shard and print its index statistics"
  | shards => "List the shards present in the snapshot"
  | help => "Print this message or the help of the given subcommand(s)"

namespace Topic

def about : Topic → String
  | program => "Query an in-memory task index built from a snapshot"
  | command name => name.about

/-- How the words follow each other. -/
def usage : Topic → String
  | program => "tracker-cache [OPTIONS] <COMMAND>"
  | command .query => "tracker-cache query [OPTIONS] --actor <NAME>"
  | command .stats => "tracker-cache stats --project <SHARD>"
  | command .shards => "tracker-cache shards"
  | command .help => "tracker-cache help [COMMAND]..."

/-- The options in front of the command. -/
def programOptions (environment : Environment) : List Row :=
  let current := (environment.lookup configFileVariable).getD ""
  [
  .option "--config-file <PATH>"
    s!"Optional path to a configuration file [env: {configFileVariable}={current}]",
  .option "--snapshot <PATH>" "Override the snapshot file tasks are loaded from",
  .option "--log-level <LEVEL>" "Override the base log level (trace|debug|info|warn|error)",
  .option "--log-json <BOOL>" "Toggle JSON logging [possible values: true, false]",
  .option "--cache-default-page-length <COUNT>"
    "Override the page length used when a query names none",
  .option "--cache-max-page-length <COUNT>" "Override the largest page length a query may request",
  .help, .version]

def queryOptions : List Row := [
  .option "--actor <NAME>" "Actor the query runs for",
  .option "--affiliation <SHARD>" "Extra shard affiliation for the actor; may be repeated",
  .option "--where <PREDICATE>"
    "Predicate in `property<op>value[,value...]` form; may be repeated",
  .option "--order <KEY>" "Sort key in `property[:asc|:desc]` form; may be repeated",
  .option "--offset <COUNT>" "Number of matches to skip",
  .option "--length <COUNT>" "Maximum number of matches to return",
  .help]

/-- The tables below the usage, each with its heading. -/
def tables (environment : Environment) : Topic → List (String × List Row)
  | program => [
    ("Commands", CommandName.all.map fun c => ⟨"", c.name, c.about⟩),
    ("Options", programOptions environment)]
  | command .query => [("Options", queryOptions)]
  | command .stats => [
    ("Options", [.option "--project <SHARD>" "Shard (project) to load", .help])]
  | command .shards => [("Options", [.help])]
  | command .help => [("Arguments", [⟨"", "[COMMAND]...", "Print help for the subcommand(s)"⟩])]

def text (environment : Environment) (topic : Topic) : String :=
  let tables := (topic.tables environment).flatMap fun (heading, rows) =>
    "" :: s!"{heading}:" :: Row.lines rows
  let lines := [topic.about, "", s!"Usage: {topic.usage}"] ++ tables
  "\n".intercalate lines ++ "\n"

end Topic

/-- What the program says of itself. -/
def versionText : String := "tracker-cache 0.1.0\n"

end TaskIndex.CommandLine
