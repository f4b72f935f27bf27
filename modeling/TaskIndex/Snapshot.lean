import TaskIndex.Document.Toml
import TaskIndex.Record.Query
import TaskIndex.Store

/-!
Snapshots: the actors and the committed tasks, as a TOML document lists them.

Both lists may be missing. A record that cannot be read makes the whole snapshot invalid, but a task may
have an id that no shard can index.
-/

namespace TaskIndex

structure Snapshot where
  actors : List Actor := []
  tasks : List Task := []
deriving DecidableEq

namespace Snapshot

instance : Inhabited Snapshot := ⟨{}⟩

def ofDocument? (d : Document) : Option Snapshot := do
  return {
    actors := ← d.fieldOr "actors" [] (Document.list? Actor.ofDocument?)
    tasks := ← d.fieldOr "tasks" [] (Document.list? Task.ofDocument?) }

def ofToml? (s : String) : Option Snapshot := (Toml.read? s).bind ofDocument?

/-- The first actor of that name; an unknown name belongs to an actor without shards. -/
def actor (s : Snapshot) (name : String) : Actor := (s.actors.find? (·.name = name)).getD { name }

/-- The tasks in a store; of several with one shard and id the last one stays. -/
def store (s : Snapshot) : Store := .ofTasks s.tasks

end Snapshot

end TaskIndex
