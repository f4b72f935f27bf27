import TaskIndex.Change.Batch
import TaskIndex.Record.Task

/-!
The records of changes. Every text is a tag, and a tag is written by its canonical name.
-/

namespace TaskIndex

def Operation.ofDocument? (d : Document) : Option Operation := d.text?.map Operation.ofText

def Operation.document (o : Operation) : Document := .text o.text

namespace ChangeEntry

def ofDocument? (d : Document) : Option ChangeEntry := do
  return {
    before := ← d.fieldOr "before" none (Document.orNull Task.ofDocument?)
    after := ← d.field "after" Task.ofDocument?
    operations := ← d.field "operations" (Document.list? Operation.ofDocument?) }

def document (e : ChangeEntry) : Document :=
  .table [
    ("before", .ofOption Task.document e.before),
    ("after", e.after.document),
    ("operations", .list (e.operations.map Operation.document))]

end ChangeEntry

end TaskIndex
