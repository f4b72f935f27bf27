import TaskIndex.Router.Traffic

/-!
The router when requests begin side by side.

A query begins in steps, and others can come between them. It reads the clock and then the marker. When the
day has moved on it moves the marker, unless another query has moved it meanwhile, and the query that has
moved it drops the cached shards. After that it looks whether the router is closed, and goes its way. A close
is announced before the shards are dropped. What is done to the cached shards while they are locked is one
step, together with closing those that are taken out, which nobody can post to any more. Every other request
is one step, too.
-/

namespace TaskIndex

namespace Overlap

/-- What a query does next. -/
inductive Stage where
  | readClock
  | readMarker (day : Date)
  /-- Moves the marker to the day, if it still is where it was read. -/
  | moveMarker (day marked : Date)
  /-- Drops the cached shards, having moved the marker. -/
  | dropShards (day : Date)
  /-- Looks whether the router is closed. It has lost when another query has moved the marker before it. -/
  | enter (day : Date) (lost : Bool)
  | leave (day : Date) (lost : Bool)
  | gone

/-- A query and how far it has come with its beginning. -/
structure Caller where
  actor : Actor
  ps : List Predicate
  stage : Stage := .readClock

inductive Event where
  /-- A query comes. -/
  | arrive (actor : Actor) (ps : List Predicate)
  /-- A query does what it does next. -/
  | go (caller : Nat)
  /-- A close is announced. -/
  | shut
  /-- The shards are dropped that an announced close has left. -/
  | clear
  /-- Anything happens that is one step, or is made one. -/
  | happen (h : Happening)

end Overlap

/-- A router with queries that are beginning. -/
structure Overlap where
  traffic : Traffic
  /-- Every query that has come; a query is known by its position. -/
  callers : List Overlap.Caller := []
  /-- An announced close has still to drop the shards. -/
  closing : Bool := false

/-- Closes the router, but for its cached shards. -/
def Traffic.shut (t : Traffic) : Traffic :=
  { t with
      closed := true
      merger := { t.merger with queue := t.merger.queue ++ [MergePosting.close] } }

namespace Overlap

/-- Sends a query its way. While the cached shards are locked for a request to index, it is looked once more
whether the router is closed, and the clock is read once more. -/
def Caller.depart (c : Caller) (t : Traffic) (day : Date) : Traffic :=
  if t.closed && (Route.indexKey? c.ps).isSome then t.refuse c.actor c.ps
  else t.route day c.actor c.ps

/-- What a query makes of the router, and what it does then. -/
def Caller.next (c : Caller) (t : Traffic) : Traffic × Stage :=
  match c.stage with
  | .readClock => (t, .readMarker t.today)
  | .readMarker day =>
    (t, if compare t.validFor day = .lt then .moveMarker day t.validFor else .enter day false)
  | .moveMarker day marked =>
    if t.validFor = marked then ({ t with validFor := day }, .dropShards day)
    else (t, .enter day true)
  | .dropShards day => (t.retire, .enter day false)
  | .enter day lost => if t.closed then (t.refuse c.actor c.ps, .gone) else (t, .leave day lost)
  | .leave day _ => (c.depart t day, .gone)
  | .gone => (t, .gone)

def start (source : Source) (today : Date) (limits : PageLimits) : Overlap where
  traffic := .ofRouter (.start source today limits)

def step (o : Overlap) : Event → Overlap
  | .arrive actor ps => { o with callers := o.callers ++ [{ actor, ps }] }
  | .go caller =>
    match o.callers[caller]? with
    | some c =>
      let (traffic, stage) := c.next o.traffic
      { o with traffic, callers := o.callers.set caller { c with stage } }
    | none => o
  | .shut =>
    if o.traffic.closed then { o with traffic := o.traffic.opened (.done .closed) }
    else { o with traffic := o.traffic.shut, closing := true }
  | .clear =>
    if o.closing then { o with traffic := o.traffic.retire.opened (.done .closed), closing := false }
    else o
  | .happen h => { o with traffic := o.traffic.befall h }

def run (o : Overlap) (es : List Event) : Overlap := es.foldl step o

end Overlap

end TaskIndex
