import TaskIndex.Shard.Basic

/-!
A shard behind its mailbox.

Requests are posted to the mailbox while the shard is loading or at work, and are served one at a time
in the order in which they were posted. A closing note is posted like a request. When the shard comes
to it, the shard first shuts the mailbox, then refuses what is still in it, and then is gone; a
request that meets a shut mailbox is refused at once.

The mailbox is driven from outside, one event at a time, so every order in which posting and working
can interleave is a list of events.
-/

namespace TaskIndex

/-- What identifies a request among those posted to a mailbox. -/
abbrev Ticket := Nat

inductive Letter where
  | request (ticket : Ticket) (request : Request)
  | close

/-- How far a shard has come. -/
inductive Phase where
  /-- The scan is not finished. -/
  | loading
  | serving (shard : Shard)
  /-- Has come to a closing note; the mailbox is still open. -/
  | closing
  /-- Refuses what is left in the shut mailbox. -/
  | draining
  | stopped

/-- A shard, its mailbox and the answers it has given. -/
structure Mailbox where
  key : ShardKey
  today : Date
  limits : PageLimits
  phase : Phase := .loading
  queue : List Letter := []
  answers : List (Ticket × Except CacheError Reply) := []

namespace Mailbox

inductive Event where
  | post (ticket : Ticket) (request : Request)
  | close
  | loaded (scanned : Except SourceError (List Task))
  /-- The shard does the next thing it has to do. -/
  | work

/-- Somebody can still post to the mailbox. -/
def isOpen (m : Mailbox) : Bool :=
  match m.phase with
  | .loading | .serving _ | .closing => true
  | .draining | .stopped => false

def answer (m : Mailbox) (ticket : Ticket) (reply : Except CacheError Reply) : Mailbox :=
  { m with answers := m.answers ++ [(ticket, reply)] }

def post (m : Mailbox) (letter : Letter) : Mailbox :=
  if m.isOpen then { m with queue := m.queue ++ [letter] }
  else
    match letter with
    | .request ticket _ => m.answer ticket (.error (.shardClosed m.key))
    | .close => m

/-- The next thing the shard has to do. -/
def work (m : Mailbox) : Mailbox :=
  match m.phase, m.queue with
  | .loading, _ => m
  | .serving _, [] => m
  | .serving _, .close :: rest => { m with phase := .closing, queue := rest }
  | .serving shard, .request ticket request :: rest =>
    let (shard, reply) := shard.serve m.limits request
    { m with phase := .serving shard, queue := rest }.answer ticket reply
  | .closing, _ => { m with phase := .draining }
  | .draining, .request ticket _ :: rest =>
    { m with queue := rest }.answer ticket (.error (.shardClosed m.key))
  | .draining, .close :: rest => { m with queue := rest }
  | .draining, [] => { m with phase := .stopped }
  | .stopped, .request ticket _ :: rest =>
    { m with queue := rest }.answer ticket (.error (.replyDropped m.key))
  | .stopped, .close :: rest => { m with queue := rest }
  | .stopped, [] => m

def step (m : Mailbox) : Event → Mailbox
  | .post ticket request => m.post (.request ticket request)
  | .close => m.post .close
  | .loaded scanned =>
    match m.phase with
    | .loading => { m with phase := .serving (.ofScan m.key m.today scanned) }
    | _ => m
  | .work => m.work

def run (m : Mailbox) (events : List Event) : Mailbox := events.foldl step m

@[simp] theorem run_nil (m : Mailbox) : run m [] = m := rfl

@[simp] theorem run_cons (m : Mailbox) (e : Event) (es : List Event) :
    run m (e :: es) = run (step m e) es := rfl

theorem run_append (m : Mailbox) (es fs : List Event) : run m (es ++ fs) = run (run m es) fs := by
  simp [run, List.foldl_append]

/-- Works until there is nothing to do: once for each letter, once to shut the mailbox and once to
go. -/
def settle (m : Mailbox) : Mailbox := m.run (List.replicate (m.queue.length + 2) .work)

def answerTo? (m : Mailbox) (ticket : Ticket) : Option (Except CacheError Reply) :=
  m.answers.lookup ticket

/-- The shard at work, if it is. -/
def shard? (m : Mailbox) : Option Shard :=
  match m.phase with
  | .serving shard => some shard
  | _ => none

end Mailbox

end TaskIndex
