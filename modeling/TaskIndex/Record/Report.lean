import TaskIndex.Index.Change
import TaskIndex.Index.Stats
import TaskIndex.Record.Query
import TaskIndex.Router.Answer

/-!
The records of what comes out: pages, answers, tallies and statistics. They are only written.
-/

namespace TaskIndex

def Page.document (p : Page) : Document :=
  .table [("tasks", .list (p.tasks.map Task.document)), ("total", .ofNat p.total)]

def Answer.document (a : Answer) : Document :=
  .table [
    ("tasks", .list (a.tasks.map Task.document)),
    ("total", .ofNat a.total),
    ("included", keysDocument a.included),
    ("excluded", keysDocument a.excluded),
    ("erroneous", keysDocument a.erroneous)]

def Tally.document (t : Tally) : Document :=
  .table [
    ("applied", .ofNat t.applied),
    ("stale", .ofNat t.stale),
    ("rejected", .ofNat t.rejected),
    ("unrecognized", .ofNat t.unrecognized)]

def Stats.document (s : Stats) : Document :=
  .table [
    ("shard", s.shard.document),
    ("tasks", .ofNat s.tasks),
    ("archived", .ofNat s.archived),
    ("primary_slots", .ofNat s.slots),
    ("buckets", .table (s.occupied.map fun (p, n) => (p.name, .ofNat n)))]

end TaskIndex
