import TaskIndex.Change.Batch
import TaskIndex.Query.Order

/-!
The committed tasks, in memory.

There is one task for each shard and id, the one that was put in last, and they are kept in the order
of shard and id.
-/

namespace TaskIndex

/-- A store of tasks. -/
structure Store where
  tasks : List Task := []
  ascending : tasks.Pairwise fun a b => Task.comparePlace a b = .lt := by exact .nil

namespace Store

instance : EmptyCollection Store := ⟨{}⟩

instance : Inhabited Store := ⟨∅⟩

/-- Puts a task at its place, instead of the one that is there. -/
def place (t : Task) : List Task → List Task
  | [] => [t]
  | u :: us =>
    match t.comparePlace u with
    | .lt => t :: u :: us
    | .eq => t :: us
    | .gt => u :: place t us

theorem mem_of_mem_place {t u : Task} {us : List Task} (h : u ∈ place t us) : u = t ∨ u ∈ us := by
  induction us with
  | nil => simpa [place] using h
  | cons v us ih =>
    simp only [place] at h
    split at h
    · simpa using h
    · rcases List.mem_cons.1 h with h | h
      · exact .inl h
      · exact .inr (List.mem_cons_of_mem _ h)
    · rcases List.mem_cons.1 h with h | h
      · exact .inr (h ▸ List.mem_cons_self)
      · exact (ih h).imp_right (List.mem_cons_of_mem _)

theorem pairwise_place (t : Task) {us : List Task}
    (h : us.Pairwise fun a b => Task.comparePlace a b = .lt) :
    (place t us).Pairwise fun a b => Task.comparePlace a b = .lt := by
  induction us with
  | nil => exact List.pairwise_singleton _ t
  | cons u us ih =>
    obtain ⟨hu, hus⟩ := List.pairwise_cons.1 h
    simp only [place]
    split
    next htu =>
      refine List.pairwise_cons.2 ⟨fun v hv => ?_, h⟩
      rcases List.mem_cons.1 hv with rfl | hv
      · exact htu
      · exact Std.TransCmp.lt_trans htu (hu v hv)
    next htu =>
      exact List.pairwise_cons.2
        ⟨fun v hv => Std.TransCmp.lt_of_eq_of_lt htu (hu v hv), hus⟩
    next htu =>
      refine List.pairwise_cons.2 ⟨fun v hv => ?_, ih hus⟩
      rcases mem_of_mem_place hv with rfl | hv
      · exact Std.OrientedCmp.lt_of_gt htu
      · exact hu v hv

def get? (s : Store) (shard : ShardKey) (id : TaskId) : Option Task :=
  s.tasks.find? fun t => t.shard = shard && t.id = id

def insert (s : Store) (t : Task) : Store :=
  ⟨place t s.tasks, pairwise_place t s.ascending⟩

/-- Puts in the new state of a change. -/
def commit (s : Store) (e : ChangeEntry) : Store := s.insert e.after

/-- The store of a list of tasks, put in one after the other. -/
def ofTasks (tasks : List Task) : Store := tasks.foldl insert ∅

/-- The shards that some task is filed under. -/
def shards (s : Store) : SortedSet ShardKey := .ofList (s.tasks.map (·.shard))

/-- The tasks of a shard that are not archived, in the order of their ids. -/
def live (s : Store) (shard : ShardKey) : List Task :=
  s.tasks.filter fun t => t.shard = shard && !t.archived

def size (s : Store) : Nat := s.tasks.length

end Store

end TaskIndex
