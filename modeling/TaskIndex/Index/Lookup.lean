import TaskIndex.Index.Plan
import TaskIndex.Query.Matching
import TaskIndex.Query.Page

/-!
Answering a query from an index.
-/

namespace TaskIndex

namespace Index

/-- Every predicate lets the task through on the day of the index. -/
def passes (idx : Index) (ps : List Predicate) (t : Task) : Bool :=
  ps.all (·.Matches t idx.today)

/-- Every task that matches, in no order that counts. The predicate that is walked is not looked at
again. -/
def filter (idx : Index) (ps : List Predicate) : List Task :=
  match Plan.of idx ps with
  | .everything => idx.tasks
  | .nothing => []
  | .fullScan => idx.tasks.filter (idx.passes ps)
  | .walk probe position =>
    (probe.ids.filterMap idx.get?).filter (idx.passes (ps.eraseIdx position))

/-- The page that a query asks for. -/
def lookup (idx : Index) (limits : PageLimits) (ps : List Predicate) : Page :=
  Page.ofMatches (.ofPredicates limits ps) idx.today (idx.filter ps)

end Index

end TaskIndex
