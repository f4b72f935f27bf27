import TaskIndex.Index.Basic
import TaskIndex.Query.Predicate

/-!
How a shard goes about a query.

An equality with one operand may be backed by a bucket, and an equality on the id by a slot. If one
of them has nothing behind it, nothing matches. Otherwise the smallest is walked; of equally small
ones the one on the more selective property, and of those the first in the query.
-/

namespace TaskIndex

/-- What stands behind an equality. -/
inductive Probe where
  | empty
  | single (id : TaskId)
  | bucket (ids : IdSet)
deriving DecidableEq

namespace Probe

def size : Probe → Nat
  | empty => 0
  | single _ => 1
  | bucket ids => ids.size

def ids : Probe → List TaskId
  | empty => []
  | single id => [id]
  | bucket ids => ids.toList

end Probe

def TaskId.ofNumber? (n : Int64) : Option TaskId :=
  if 0 ≤ n ∧ n < 65536 then some (.ofNat n.toInt.toNat) else none

namespace Index

/-- What stands behind an equality of a property and an operand, if that is indexed. -/
def probe? (idx : Index) : Property → Operand → Option Probe
  | .id, .number n =>
    match (TaskId.ofNumber? n).filter fun id => (idx.get? id).isSome with
    | some id => some (.single id)
    | none => some .empty
  | property, operand =>
    let f : Facet := ⟨property, operand⟩
    if f.isIndexed then
      let ids := idx.bucket f
      some (if ids.isEmpty then .empty else .bucket ids)
    else none

/-- What stands behind a predicate of a query, if it is an indexed equality with one operand. -/
def probeOf? (idx : Index) (p : Predicate) : Option Probe :=
  if p.property.isFilter then p.equalityOperand?.bind (idx.probe? p.property) else none

end Index

/-- The way to answer a query. -/
inductive Plan where
  /-- Nothing filters: every task. -/
  | everything
  /-- No filter is indexed: look at every task. -/
  | fullScan
  /-- An indexed equality has nothing behind it. -/
  | nothing
  /-- Walk what stands behind the predicate at a position. -/
  | walk (probe : Probe) (position : Nat)
deriving DecidableEq

namespace Plan

/-- A predicate that could be walked. -/
structure Candidate where
  probe : Probe
  position : Nat
  selectivity : Nat

namespace Candidate

/-- The candidate is worth more than the other: fewer ids, or as many and a more selective
property. -/
def beats (c other : Candidate) : Bool :=
  c.probe.size < other.probe.size ||
    (c.probe.size == other.probe.size && other.selectivity < c.selectivity)

/-- The better of a candidate and the best one before it. -/
def orBest (c : Candidate) : Option Candidate → Candidate
  | none => c
  | some best => if c.beats best then c else best

end Candidate

/-- The plan for the predicates from a position on, when `best` is the best candidate before. -/
def choose (idx : Index) : (position : Nat) → Option Candidate → List Predicate → Plan
  | _, none, [] => .fullScan
  | _, some best, [] => .walk best.probe best.position
  | position, best, p :: ps =>
    match idx.probeOf? p with
    | none => choose idx (position + 1) best ps
    | some .empty => .nothing
    | some probe =>
      choose idx (position + 1)
        (some (Candidate.orBest ⟨probe, position, p.property.selectivity⟩ best)) ps

def of (idx : Index) (ps : List Predicate) : Plan :=
  if ps.any (·.property.isFilter) then choose idx 0 none ps else .everything

end Plan

end TaskIndex
