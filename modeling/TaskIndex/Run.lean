import TaskIndex.CommandLine.Help
import TaskIndex.Document.JsonText
import TaskIndex.Failure
import TaskIndex.Record.Report
import TaskIndex.Router.Basic
import TaskIndex.Snapshot

/-!
One run of the program: settings and a snapshot are read, one command is carried out on a router with
nothing cached, and its result is printed as JSON.

A query first has the shards indexed that it may touch, so that none of them is missing from its answer.
-/

namespace TaskIndex

/-- What a run leaves behind. -/
structure Run where
  exitCode : Nat
  output : String := ""
  /-- What is told about a run that fails. -/
  complaint : Option String := none
deriving DecidableEq

namespace Run

/-- The shards that a query may touch: those that an inclusive shard predicate names, or else those of the
actor. -/
def warmTargets (actor : Actor) (ps : List Predicate) : SortedSet ShardKey :=
  let inclusive := ps.filter fun p => p.isTargeting && p.operator.isInclusive
  let named := SortedSet.ofList (inclusive.flatMap (·.operands.filterMap Operand.shard?))
  if named.toList.isEmpty then actor.shards else named

def routerOver (settings : Settings) (snapshot : Snapshot) (today : Date) : Router :=
  .start { store := snapshot.store } today settings.limits

def actorWith (snapshot : Snapshot) (name : String) (affiliations : List String) :
    Except Failure Actor :=
  match affiliations.mapM ShardKey.parse with
  | .ok keys => .ok ((snapshot.actor name).withShards keys)
  | .error p => .error (.problem p)

/-- Has shards indexed for an actor. -/
def warm (r : Router) (actor : Actor) (keys : SortedSet ShardKey) : Router :=
  keys.toList.foldl (fun r key => (r.query actor [.inShard key]).1) r

def answer (settings : Settings) (snapshot : Snapshot) (today : Date) (name : String)
    (options : QueryOptions) : Except Failure Answer :=
  (actorWith snapshot name options.affiliations).map fun actor =>
    let ps := options.allPredicates
    let r := warm (routerOver settings snapshot today) actor (warmTargets actor ps)
    (r.query actor ps).2

/-- Loads one shard and tells how full it is. -/
def stats (settings : Settings) (snapshot : Snapshot) (today : Date) (project : String) :
    Except Failure Stats := do
  let key ← (ShardKey.parse project).mapError .problem
  let actor : Actor := { name := "tracker-cache", shards := .single key }
  let (r, loaded) := (routerOver settings snapshot today).query actor [.inShard key]
  if key ∈ loaded.erroneous then .error (.unexpected s!"shard `{key.text}` failed to load")
  else
    match r.stats key with
    | .ok (some stats) => .ok stats
    | .ok none => .error (.unexpected s!"shard `{key.text}` is not cached")
    | .error e => .error (.cache e)

def execute (settings : Settings) (snapshot : Snapshot) (today : Date) :
    Command → Except Failure Document
  | .query name options => (answer settings snapshot today name options).map Answer.document
  | .stats project => (stats settings snapshot today project).map Stats.document
  | .shards => .ok (keysDocument snapshot.store.shards)

def readSnapshot (files : Files) (path : String) : Except Failure Snapshot :=
  match files path with
  | none => .error (.io s!"{path} cannot be read")
  | some text => (Snapshot.ofToml? text).elim (.error (.snapshot path "not a snapshot")) .ok

def readSettings (files : Files) (environment : Environment) (a : Arguments) :
    Except Failure Settings :=
  (Settings.load files environment a.configFile a.choices).mapError fun e =>
    .configuration ("failed to load configuration: " ++ e.message)

/-- The result of a command line that can be read. -/
def result (files : Files) (environment : Environment) (today : Date) (a : Arguments) :
    Except Failure Document := do
  let settings ← readSettings files environment a
  let snapshot ← readSnapshot files settings.snapshotPath
  execute settings snapshot today a.command

/-- The run that a result ends. -/
def ofResult : Except Failure Document → Run
  | .ok d => { exitCode := 0, output := d.longJson ++ "\n" }
  | .error f => { exitCode := f.exitCode, complaint := some f.chain }

/-- The run of a command line whose reading stops. -/
def ofStop (environment : Environment) : CommandLine.Stop → Run
  | .help topic => { exitCode := 0, output := topic.text environment }
  | .version => { exitCode := 0, output := CommandLine.versionText }
  | .nothingGiven =>
    { exitCode := 2, complaint := some (CommandLine.Topic.program.text environment) }
  | .misuse _ =>
    { exitCode := 2, complaint := some s!"Usage: {CommandLine.Topic.program.usage}" }

def of (files : Files) (environment : Environment) (today : Date) (words : List String) : Run :=
  match Arguments.parse environment words with
  | .ok a => ofResult (result files environment today a)
  | .error stop => ofStop environment stop

end Run

end TaskIndex
