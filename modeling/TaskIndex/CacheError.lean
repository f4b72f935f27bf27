import TaskIndex.Task.ShardKey

/-!
Why the cache does not answer a request.
-/

namespace TaskIndex

inductive CacheError where
  /-- The shard takes no more requests. -/
  | shardClosed (shard : ShardKey)
  /-- The shard could not be loaded. -/
  | loadFailed (shard : ShardKey) (detail : String)
  /-- The shard has gone without a reply. -/
  | replyDropped (shard : ShardKey)
  /-- The router is closed. -/
  | routerClosed
deriving DecidableEq

def CacheError.message : CacheError → String
  | shardClosed shard => s!"shard `{shard.text}` is closed"
  | loadFailed shard detail => s!"shard `{shard.text}` failed to load: {detail}"
  | replyDropped shard => s!"shard `{shard.text}` dropped the reply"
  | routerClosed => "cache router is closed"

end TaskIndex
