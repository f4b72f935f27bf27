import TaskIndex.Calendar.DateText
import TaskIndex.Document.Reading
import TaskIndex.Task.Basic

/-!
The record of a task.

A task is a table with an entry for each of its parts. What a task may lack may be missing from its
record, but writing gives every entry. Reading does not look at the range of the id, beyond that it is
a word of sixteen bits.
-/

namespace TaskIndex

def Date.ofDocument? (d : Document) : Option Date := d.named? Date.ofText?

def Date.document (d : Date) : Document := .text d.text

def ShardKey.ofDocument? (d : Document) : Option ShardKey := d.named? ShardKey.of?

def ShardKey.document (k : ShardKey) : Document := .text k.text

/-- A set of names is a list in ascending order; reading takes any order and repetitions. -/
def namesOfDocument? (d : Document) : Option (SortedSet String) :=
  (d.list? Document.text?).map .ofList

/-- A set of shard keys is a list like a set of names. -/
def keysOfDocument? (d : Document) : Option (SortedSet ShardKey) :=
  (d.list? ShardKey.ofDocument?).map .ofList

def keysDocument (keys : SortedSet ShardKey) : Document := .list (keys.toList.map ShardKey.document)

namespace Task

def ofDocument? (d : Document) : Option Task := do
  return {
    id := ← d.field "id" Document.uint16?
    shard := ← d.field "shard" ShardKey.ofDocument?
    title := ← d.fieldOr "title" "" Document.text?
    status := ← d.field "status" (Document.named? Status.ofName?)
    motive := ← d.field "motive" (Document.named? Motive.ofName?)
    purpose := ← d.field "purpose" (Document.named? Purpose.ofName?)
    area := ← d.fieldOr "area" "" Document.text?
    version := ← d.fieldOr "version" "" Document.text?
    reporter := ← d.fieldOr "reporter" "" Document.text?
    solver := ← d.fieldOr "solver" none (Document.orNull Document.text?)
    participants := ← d.fieldOr "participants" ∅ namesOfDocument?
    aspirants := ← d.fieldOr "aspirants" ∅ namesOfDocument?
    watchers := ← d.fieldOr "watchers" ∅ namesOfDocument?
    predecessor := ← d.fieldOr "predecessor" none (Document.orNull Document.uint32?)
    origin := ← d.fieldOr "origin" none (Document.orNull Document.uint32?)
    serial := ← d.fieldOr "serial" none (Document.orNull Document.uint32?)
    archived := ← d.fieldOr "archived" false Document.flag?
    emphasis := ← d.fieldOr "emphasis" 0 Document.uint32?
    created := ← d.field "created" Date.ofDocument?
    revision := ← d.fieldOr "revision" 0 Document.uint64? }

def document (t : Task) : Document :=
  .table [
    ("id", .ofNat t.id.toNat),
    ("shard", t.shard.document),
    ("title", .text t.title),
    ("status", .text t.status.name),
    ("motive", .text t.motive.name),
    ("purpose", .text t.purpose.name),
    ("area", .text t.area),
    ("version", .text t.version),
    ("reporter", .text t.reporter),
    ("solver", .ofOption .text t.solver),
    ("participants", .ofTexts t.participants.toList),
    ("aspirants", .ofTexts t.aspirants.toList),
    ("watchers", .ofTexts t.watchers.toList),
    ("predecessor", .ofOption (.ofNat ·.toNat) t.predecessor),
    ("origin", .ofOption (.ofNat ·.toNat) t.origin),
    ("serial", .ofOption (.ofNat ·.toNat) t.serial),
    ("archived", .flag t.archived),
    ("emphasis", .ofNat t.emphasis.toNat),
    ("created", t.created.document),
    ("revision", .ofNat t.revision.toNat)]

end Task

end TaskIndex
