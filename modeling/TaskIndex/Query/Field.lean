import TaskIndex.Query.Operand
import TaskIndex.Task.Basic
import TaskIndex.Text.Lowercase

/-!
What a task has to say about a property, and how that compares with an operand and with what another
task has to say.

A field compares only with an operand of its own kind, and a text also with a shard key. A set of
names equals each of its members. Two fields of one property are ordered with the absent one first
and sets of names by how many they are.
-/

namespace TaskIndex

/-- The value of a property of one task. -/
inductive Field where
  | text (s : String)
  | number (n : Int)
  | flag (b : Bool)
  | status (s : Status)
  | motive (m : Motive)
  | purpose (p : Purpose)
  | date (d : Date)
  | names (s : SortedSet String)
  | absent

namespace Field

def ofText? (s : Option String) : Field := s.elim absent text

def ofNumber? (n : Option UInt32) : Field := n.elim absent fun n => number n.toNat

/-- How the field stands to an operand, if it can be compared with it. -/
def compare? : Field → Operand → Option Ordering
  | text s, .text o => some (compare s o)
  | text s, .shard o => some (compare s o.text)
  | number n, .number o => some (compare n o.toInt)
  | flag b, .flag o => some (compare b o)
  | status s, .status o => some (compare s o)
  | motive m, .motive o => some (compare m o)
  | purpose p, .purpose o => some (compare p o)
  | date d, .date o => some (compare d o)
  | _, _ => none

/-- The field equals the operand, or is a set that has it as a member. -/
def equals : Field → Operand → Bool
  | names s, .text o => o ∈ s
  | field, operand => field.compare? operand == some .eq

/-- The field is a text that holds the operand's text, or a set with a member that does, whatever
the case of the letters. -/
def contains : Field → Operand → Bool
  | text s, .text o => Text.holdsIgnoringCase o s
  | names s, .text o => s.toList.any (Text.holdsIgnoringCase o)
  | _, _ => false

/-- How two fields of one property are ordered. -/
def order : Field → Field → Ordering
  | absent, absent => .eq
  | absent, _ => .lt
  | _, absent => .gt
  | text s, text t => compare s t
  | number m, number n => compare m n
  | flag a, flag b => compare a b
  | status s, status t => compare s t
  | motive m, motive n => compare m n
  | purpose p, purpose q => compare p q
  | date d, date e => compare d e
  | names s, names t => compare s.size t.size
  | _, _ => .eq

end Field

/-- What the task has to say about a property on a day. -/
def Task.field (t : Task) (today : Date) : Property → Field
  | .id => .number t.id.toNat
  | .title => .text t.title
  | .status => .status t.status
  | .motive => .motive t.motive
  | .purpose => .purpose t.purpose
  | .area => .text t.area
  | .version => .text t.version
  | .reporter => .text t.reporter
  | .solver => .ofText? t.solver
  | .participant => .names t.participants
  | .aspirant => .names t.aspirants
  | .watcher => .names t.watchers
  | .predecessor => .ofNumber? t.predecessor
  | .origin => .ofNumber? t.origin
  | .serial => .ofNumber? t.serial
  | .temperature => .number (t.temperature today)
  | .archived => .flag t.archived
  | .created => .date t.created
  | .shard => .text t.shard.text
  | .offset | .length | .order => .absent

end TaskIndex
