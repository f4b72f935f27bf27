import TaskIndex.Query.Property
import TaskIndex.Task.ShardKey

/-!
What can be wrong with a task, a query or a change that somebody hands in.
-/

namespace TaskIndex

/-- A rule of the domain that an input breaks. -/
inductive Problem where
  | blankShardKey
  /-- There is no property of that name. -/
  | unknownProperty (name : String)
  /-- A sort direction is neither of the two. -/
  | unknownDirection (word : String)
  | missingOperator (raw : String)
  /-- A text is no operand of the property. -/
  | invalidOperand (property : Property) (raw : String)
  /-- Another rule, told in words. -/
  | invalid (message : String)
  /-- A task's id lies outside the ids that can be indexed. -/
  | idOutOfRange (id largest : Nat)
  /-- A batch of changes for one shard holds an entry for another. -/
  | mixedShards (expected found : ShardKey)
  | emptyBatch
deriving DecidableEq

namespace Problem

/-- What a rule of validity says, without the words in front. -/
def detail? : Problem → Option String
  | blankShardKey => some "shard key must not be empty"
  | unknownProperty name => some s!"unknown property `{name}`"
  | unknownDirection word => some s!"unknown sort direction `{word}`"
  | missingOperator raw => some s!"missing operator in `{raw}`"
  | invalidOperand property raw => some s!"invalid {property.name} value `{raw}`"
  | invalid message => some message
  | _ => none

def message : Problem → String
  | idOutOfRange id largest => s!"task id {id} is outside the supported range 1..={largest}"
  | mixedShards expected found =>
    s!"change batch for shard `{expected.text}` contains an entry for shard `{found.text}`"
  | emptyBatch => "change batch is empty"
  | problem => "domain validation failed: " ++ problem.detail?.getD ""

end Problem

/-- Reads a shard key and says what is wrong with a blank one. -/
def ShardKey.parse (s : String) : Except Problem ShardKey :=
  match ShardKey.of? s with
  | some k => .ok k
  | none => .error .blankShardKey

end TaskIndex
