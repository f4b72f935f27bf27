import TaskIndex.Router.Basic
import TaskIndex.Shard.Mailbox

/-!
The router with many requests under way.

A request is started at once: the day is checked, the route is found, letters are posted and the
cached shards change, all in one step. What is left of it goes on later: shards load and serve their
mailboxes, a query over several shards waits for all of them and then posts its replies to be merged,
and the merger takes one posting after the other. Which of these happens next is not laid down, so a
schedule is a list of events.
-/

namespace TaskIndex

namespace Traffic

/-- What can be asked of a router. -/
inductive Start where
  | query (actor : Actor) (ps : List Predicate)
  | notify (batch : ChangeBatch)
  | stats (key : ShardKey)
  | evict (key : ShardKey)
  | close

inductive Result where
  | answer (answer : Answer)
  | tally (tally : Except CacheError (Option Tally))
  | stats (stats : Except CacheError (Option Stats))
  | evicted (wasCached : Bool)
  | closed

/-- What a request to be merged carries: the replies of the shards, and how to order and page them. -/
structure Job where
  call : Ticket
  parts : List (List Task)
  spec : PageSpec
  today : Date

/-- What can be posted to the merger. -/
inductive MergePosting where
  | job (job : Job)
  | close

/-- The merger and what is posted to it. It is gone once it has come to a closing note. -/
structure Merger where
  queue : List MergePosting := []
  stopped : Bool := false
  /-- The merged pages, and the requests that were turned away. -/
  replies : List (Ticket × Except CacheError Page) := []

/-- A part of a query over several shards: which mailbox it was posted to. -/
structure Part where
  key : ShardKey
  box : Nat

/-- How far a request has come. -/
inductive Call where
  | done (result : Result)
  /-- Waits for the page of one shard. -/
  | page (key : ShardKey) (box : Nat)
  /-- Waits for a shard to apply changes. -/
  | tally (box : Nat)
  /-- Waits for the occupancy of a shard. -/
  | stats (box : Nat)
  /-- Waits for every part of a query over several shards. -/
  | parts (parts : List Part) (excluded : SortedSet ShardKey) (spec : PageSpec) (today : Date)
  /-- Waits for the merger. -/
  | merge (included excluded erroneous : SortedSet ShardKey)

end Traffic

/-- A router with requests under way. -/
structure Traffic where
  source : Source
  today : Date
  limits : PageLimits
  validFor : Date
  closed : Bool := false
  /-- Every mailbox that was ever opened; a mailbox is known by its position. -/
  boxes : Array Mailbox := #[]
  cached : List (ShardKey × Nat) := []
  merger : Traffic.Merger := {}
  /-- Every request that was ever started; a request is known by its position. -/
  calls : Array Traffic.Call := #[]

namespace Traffic

inductive Event where
  | start (start : Start)
  /-- The scan of a shard is finished. -/
  | load (box : Nat)
  /-- A shard does the next thing it has to do. -/
  | work (box : Nat)
  /-- A query over several shards has all its replies and posts them to be merged. -/
  | collect (call : Ticket)
  | merge

def boxOf? (t : Traffic) (key : ShardKey) : Option Nat := t.cached.lookup key

/-- Lets something happen to a mailbox. -/
def atBox (t : Traffic) (box : Nat) (e : Mailbox.Event) : Traffic :=
  { t with boxes := t.boxes.modify box (·.step e) }

/-- Posts the same event to each of several mailboxes. -/
def atBoxes (t : Traffic) (boxes : List Nat) (e : Mailbox.Event) : Traffic :=
  boxes.foldl (fun t box => t.atBox box e) t

def nextTicket (t : Traffic) : Ticket := t.calls.size

/-- Notes how far a new request has come. -/
def opened (t : Traffic) (call : Call) : Traffic := { t with calls := t.calls.push call }

/-- The reply of a mailbox to a request. -/
def replyOf? (t : Traffic) (box : Nat) (call : Ticket) : Option (Except CacheError Reply) :=
  t.boxes[box]?.bind (·.answerTo? call)

/-! ### Starting a request -/

/-- Drops every cached shard; each finishes what is in its mailbox. -/
def retire (t : Traffic) : Traffic :=
  { t.atBoxes (t.cached.map (·.2)) .close with cached := [] }

/-- Drops every shard when the day has moved on. -/
def rollOver (t : Traffic) : Traffic :=
  if compare t.validFor t.today = .lt then { t.retire with validFor := t.today } else t

/-- The mailbox of a shard, opened if there is none. -/
def obtain (t : Traffic) (key : ShardKey) : Traffic × Nat :=
  match t.boxOf? key with
  | some box => (t, box)
  | none =>
    ({ t with
        boxes := t.boxes.push { key, today := t.today, limits := t.limits }
        cached := t.cached ++ [(key, t.boxes.size)] }, t.boxes.size)

/-- Starts a query on one mailbox. -/
def startPage (t : Traffic) (key : ShardKey) (box : Nat) (ps : List Predicate) : Traffic :=
  (t.atBox box (.post t.nextTicket (.lookup (withoutTargeting ps)))).opened (.page key box)

/-- Starts a query on the cached ones among several shards, which are merged on the day. -/
def startParts (t : Traffic) (today : Date) (keys : SortedSet ShardKey) (ps : List Predicate) :
    Traffic :=
  let parts := keys.toList.filterMap fun key => (t.boxOf? key).map fun box => ⟨key, box⟩
  let excluded := keys.filter fun key => (t.boxOf? key).isNone
  (t.atBoxes (parts.map (·.box)) (.post t.nextTicket (.filter (filtersOnly ps)))).opened
    (.parts parts excluded (.ofPredicates t.limits ps) today)

/-- Answers a query that comes to a closed router. -/
def refuse (t : Traffic) (actor : Actor) (ps : List Predicate) : Traffic :=
  t.opened (.done (.answer (.excluding (Route.of actor ps).targets)))

/-- Sends a query its way, which has found at the check of the day that it is `today`. -/
def route (t : Traffic) (today : Date) (actor : Actor) (ps : List Predicate) : Traffic :=
  match Route.of actor ps with
  | .index key =>
    let (t, box) := t.obtain key
    t.startPage key box ps
  | .empty => t.opened (.done (.answer {}))
  | .single key =>
    match t.boxOf? key with
    | some box => t.startPage key box ps
    | none => t.opened (.done (.answer (.excluding (.single key))))
  | .multi keys => t.startParts today keys ps

def startQuery (t : Traffic) (actor : Actor) (ps : List Predicate) : Traffic :=
  let t := t.rollOver
  if t.closed then t.refuse actor ps else t.route t.today actor ps

def start (t : Traffic) : Start → Traffic
  | .query actor ps => t.startQuery actor ps
  | .notify batch =>
    match t.boxOf? batch.shard with
    | some box => (t.atBox box (.post t.nextTicket (.apply batch))).opened (.tally box)
    | none => t.opened (.done (.tally (.ok none)))
  | .stats key =>
    match t.boxOf? key with
    | some box => (t.atBox box (.post t.nextTicket .stats)).opened (.stats box)
    | none => t.opened (.done (.stats (.ok none)))
  | .evict key =>
    match t.boxOf? key with
    | some box =>
      { t.atBox box .close with cached := t.cached.filter (·.1 ≠ key) }.opened (.done (.evicted true))
    | none => t.opened (.done (.evicted false))
  | .close =>
    if t.closed then t.opened (.done .closed)
    else
      { t.retire with
          closed := true
          merger := { t.merger with queue := t.merger.queue ++ [MergePosting.close] } }.opened (.done .closed)

/-! ### Going on -/

def load (t : Traffic) (box : Nat) : Traffic :=
  match t.boxes[box]? with
  | some m =>
    match m.phase with
    | .loading =>
      let (source, scanned) := t.source.scan m.key
      { t with source }.atBox box (.loaded scanned)
    | _ => t
  | none => t

def Merger.post (m : Merger) (job : Job) : Merger :=
  if m.stopped then { m with replies := m.replies ++ [(job.call, .error .routerClosed)] }
  else { m with queue := m.queue ++ [.job job] }

/-- Takes the next posting. At a closing note everything behind it is turned away. -/
def Merger.work (m : Merger) : Merger :=
  match m.queue with
  | [] => m
  | .job job :: rest =>
    let page := Page.ofMatches job.spec job.today job.parts.flatten
    { m with queue := rest, replies := m.replies ++ [(job.call, .ok page)] }
  | .close :: rest =>
    let turnedAway := rest.filterMap fun
      | .job job => some (job.call, .error .routerClosed)
      | .close => none
    { queue := [], stopped := true, replies := m.replies ++ turnedAway }

/-- The replies to every part of a query, once they are all there. -/
def replies? (t : Traffic) (call : Ticket) (parts : List Part) :
    Option (List (ShardKey × Except CacheError Reply)) :=
  parts.mapM fun part => (t.replyOf? part.box call).map fun reply => (part.key, reply)

def tasksOf? : Except CacheError Reply → Option (List Task)
  | .ok (.tasks tasks) => some tasks
  | _ => none

/-- Posts the replies of a query over several shards to be merged, once they are all there. -/
def collect (t : Traffic) (call : Ticket) : Traffic :=
  match t.calls[call]? with
  | some (.parts parts excluded spec today) =>
    match t.replies? call parts with
    | some replies =>
      let answered := replies.filterMap fun (key, reply) => (tasksOf? reply).map fun ts => (key, ts)
      let failed := replies.filter fun (_, reply) => (tasksOf? reply).isNone
      { t with
          merger := t.merger.post ⟨call, answered.map (·.2), spec, today⟩
          calls := t.calls.setIfInBounds call
            (.merge (.ofList (answered.map (·.1))) excluded (.ofList (failed.map (·.1)))) }
    | none => t
  | _ => t

def step (t : Traffic) : Event → Traffic
  | .start s => t.start s
  | .load box => t.load box
  | .work box => t.atBox box .work
  | .collect call => t.collect call
  | .merge => { t with merger := t.merger.work }

def run (t : Traffic) (events : List Event) : Traffic := events.foldl step t

@[simp] theorem run_nil (t : Traffic) : run t [] = t := rfl

@[simp] theorem run_cons (t : Traffic) (e : Event) (es : List Event) :
    run t (e :: es) = run (step t e) es := rfl

/-! ### Results -/

/-- What a request has come to, once it has. -/
def result? (t : Traffic) (call : Ticket) : Option Result :=
  match t.calls[call]? with
  | some (.done result) => some result
  | some (.page key box) =>
    match t.replyOf? box call with
    | some (.ok (.page page)) => some (.answer (.ofShard key (.ok page)))
    | some (.error e) => some (.answer (.ofShard key (.error e)))
    | _ => none
  | some (.tally box) =>
    match t.replyOf? box call with
    | some (.ok (.tally tally)) => some (.tally (.ok (some tally)))
    | some (.error e) => some (.tally (.error e))
    | _ => none
  | some (.stats box) =>
    match t.replyOf? box call with
    | some (.ok (.stats stats)) => some (.stats (.ok (some stats)))
    | some (.error e) => some (.stats (.error e))
    | _ => none
  | some (.merge included excluded erroneous) =>
    match t.merger.replies.lookup call with
    | some (.ok page) => some (.answer (.ofPage page included excluded erroneous))
    | some (.error _) => some (.answer (.unmerged included excluded erroneous))
    | none => none
  | _ => none

/-! ### Beginning and ending -/

/-- The router with no request under way. -/
def ofRouter (r : Router) : Traffic where
  source := r.source
  today := r.today
  limits := r.limits
  validFor := r.validFor
  closed := r.closed
  boxes := (r.shards.map fun s =>
    { key := s.key, today := s.today, limits := r.limits, phase := .serving s }).toArray
  cached := r.shards.mapIdx fun i s => (s.key, i)
  merger := { stopped := r.closed }

/-- One schedule that leaves nothing to do: every shard finishes its scan and empties its mailbox,
then every query over several shards posts its replies, and then the merger takes them. -/
def settle (t : Traffic) : Traffic :=
  let boxes := List.range t.boxes.size
  let t := t.run (boxes.map .load)
  let t := boxes.foldl (fun t box =>
    t.run (List.replicate ((t.boxes[box]?.elim 0 (·.queue.length)) + 2) (.work box))) t
  let t := t.run ((List.range t.calls.size).map .collect)
  t.run (List.replicate t.merger.queue.length .merge)

/-- The router when nothing is left to do. -/
def toRouter (t : Traffic) : Router where
  source := t.source
  today := t.today
  limits := t.limits
  validFor := t.validFor
  shards := t.cached.filterMap fun (_, box) => t.boxes[box]?.bind (·.shard?)
  closed := t.closed

end Traffic

/-! ### Over time -/

/-- What happens to a router over time. -/
inductive Happening where
  | event (e : Traffic.Event)
  /-- The clock is set. -/
  | tick (today : Date)
  /-- Tasks are committed to the store, shards go offline or come back. -/
  | restock (store : Store) (offline : List ShardKey) (further : List Task)

@[match_pattern] abbrev Happening.request (s : Traffic.Start) : Happening := .event (.start s)

namespace Traffic

def befall (t : Traffic) : Happening → Traffic
  | .event e => t.step e
  | .tick today => { t with today }
  | .restock store offline further => { t with source := { t.source with store, offline, further } }

def after (t : Traffic) (hs : List Happening) : Traffic := hs.foldl befall t

end Traffic

end TaskIndex
