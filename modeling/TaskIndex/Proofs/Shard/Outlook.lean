import Mathlib.Data.List.Basic
import TaskIndex.Shard.Mailbox

/-!
What a mailbox will have answered.

The replies that a mailbox is going to give are settled as soon as the letters lie in it, because the
shard serves them in their order and nothing else touches it, and because what a scan will hand over is
known when nobody writes to the source. The outlook of a mailbox is what it has answered together with
what it is going to answer. Finishing the scan, working and closing do not change it, and a request that
is posted while the mailbox is not closed adds to its end the reply of the shard that everything posted
before leads to.
-/

namespace TaskIndex

/-! ### Serving letters -/

def refusals (e : CacheError) (letters : List Letter) : List (Ticket × Except CacheError Reply) :=
  letters.filterMap fun
    | .request ticket _ => some (ticket, .error e)
    | .close => none

namespace Shard

variable (limits : PageLimits)

def afterLetters (s : Shard) : List Letter → Shard
  | .request _ request :: rest => afterLetters (s.serve limits request).1 rest
  | .close :: _ | [] => s

/-- The replies to the letters; behind a closing note nothing is served. -/
def replies (key : ShardKey) (s : Shard) : List Letter → List (Ticket × Except CacheError Reply)
  | .request ticket request :: rest =>
    (ticket, (s.serve limits request).2) :: replies key (s.serve limits request).1 rest
  | .close :: rest => refusals (.shardClosed key) rest
  | [] => []

variable {letters : List Letter}

lemma serve_append (hopen : Letter.close ∉ letters) (key : ShardKey) (s : Shard) (ticket : Ticket)
    (request : Request) :
    s.afterLetters limits (letters ++ [.request ticket request]) =
        ((s.afterLetters limits letters).serve limits request).1 ∧
      s.replies limits key (letters ++ [.request ticket request]) =
        s.replies limits key letters ++
          [(ticket, ((s.afterLetters limits letters).serve limits request).2)] := by
  induction letters generalizing s with
  | nil => exact ⟨rfl, rfl⟩
  | cons letter rest ih =>
    rw [List.mem_cons, not_or] at hopen
    cases letter with
    | close => exact absurd rfl hopen.1
    | request ticket' request' =>
      obtain ⟨hafter, hreplies⟩ := ih hopen.2 (s.serve limits request').1
      exact ⟨hafter, congrArg _ hreplies⟩

lemma replies_append_close (key : ShardKey) (s : Shard) (letters : List Letter) :
    s.replies limits key (letters ++ [.close]) = s.replies limits key letters := by
  induction letters generalizing s with
  | nil => rfl
  | cons letter rest ih =>
    cases letter with
    | close => simp [replies, refusals]
    | request ticket request => rw [List.cons_append, replies, replies, ih]

end Shard

namespace Mailbox

variable (scan : ShardKey → Except SourceError (List Task))

/-- The replies that the mailbox is still going to give, if the scan of a shard hands over what `scan`
says. -/
def toCome (m : Mailbox) : List (Ticket × Except CacheError Reply) :=
  match m.phase with
  | .loading => (Shard.ofScan m.key m.today (scan m.key)).replies m.limits m.key m.queue
  | .serving s => s.replies m.limits m.key m.queue
  | .closing | .draining => refusals (.shardClosed m.key) m.queue
  | .stopped => refusals (.replyDropped m.key) m.queue

def outlook (m : Mailbox) : List (Ticket × Except CacheError Reply) := m.answers ++ m.toCome scan

/-- The shard that the mailbox began with, or is going to begin with, unless it has come to a closing
note. -/
def shardToServe? (m : Mailbox) : Option Shard :=
  match m.phase with
  | .loading => some (.ofScan m.key m.today (scan m.key))
  | .serving s => some s
  | .closing | .draining | .stopped => none

/-- Nobody has closed the mailbox, and the shard will be `s` when it has served the letters in it. -/
structure ComesTo (m : Mailbox) (s : Shard) : Prop where
  stays : Letter.close ∉ m.queue
  serves : ∃ s₀, m.shardToServe? scan = some s₀ ∧ s₀.afterLetters m.limits m.queue = s

variable {scan} {m : Mailbox} {s : Shard}

/-! ### What does not change the outlook -/

@[simp] lemma frame_post (m : Mailbox) (letter : Letter) :
    (m.post letter).key = m.key ∧ (m.post letter).limits = m.limits := by
  unfold post
  split
  · exact ⟨rfl, rfl⟩
  · cases letter <;> exact ⟨rfl, rfl⟩

@[simp] lemma frame_work (m : Mailbox) : m.work.key = m.key ∧ m.work.limits = m.limits := by
  unfold work
  split <;> exact ⟨rfl, rfl⟩

lemma frame_step (m : Mailbox) (e : Event) : (m.step e).key = m.key ∧ (m.step e).limits = m.limits := by
  cases e with
  | post | close => exact frame_post m _
  | work => exact frame_work m
  | loaded scanned =>
    simp only [step]
    split <;> exact ⟨rfl, rfl⟩

/-- A letter that is posted lies in the queue, or is turned away. -/
lemma kept_post (m : Mailbox) (letter : Letter) :
    (m.post letter).today = m.today ∧ (m.post letter).phase = m.phase ∧
      m.answers <+: (m.post letter).answers := by
  unfold post
  split
  · exact ⟨rfl, rfl, List.prefix_rfl⟩
  · cases letter
    · exact ⟨rfl, rfl, List.prefix_append _ _⟩
    · exact ⟨rfl, rfl, List.prefix_rfl⟩

lemma today_step (m : Mailbox) (e : Event) : (m.step e).today = m.today := by
  cases e with
  | post | close => exact (kept_post m _).1
  | work =>
    simp only [step, work]
    split <;> rfl
  | loaded scanned =>
    simp only [step]
    split <;> rfl

/-- Only the end of the scan brings a mailbox out of loading, and nothing brings it back. -/
lemma loading_step (m : Mailbox) {e : Event} (he : ∀ scanned, e ≠ .loaded scanned) :
    (m.step e).phase = .loading ↔ m.phase = .loading := by
  cases e with
  | post | close =>
    simp only [step]
    rw [(kept_post m _).2.1]
  | loaded scanned => exact absurd rfl (he scanned)
  | work =>
    simp only [step, work]
    split <;> simp_all [answer]

/-- Working turns an expected reply into an answer. -/
lemma outlook_work (m : Mailbox) : m.work.outlook scan = m.outlook scan := by
  unfold work
  split
  · rfl
  · rfl
  · next rest hphase hqueue => simp [outlook, toCome, hphase, hqueue, Shard.replies]
  · next s ticket request rest hphase hqueue =>
    simp [outlook, toCome, answer, hphase, hqueue, Shard.replies]
  · next hphase => simp [outlook, toCome, hphase]
  · next hphase hqueue => simp [outlook, toCome, answer, hphase, hqueue, refusals]
  · next hphase hqueue => simp [outlook, toCome, hphase, hqueue, refusals]
  · next hphase hqueue => simp [outlook, toCome, hphase, hqueue, refusals]
  · next hphase hqueue => simp [outlook, toCome, answer, hphase, hqueue, refusals]
  · next hphase hqueue => simp [outlook, toCome, hphase, hqueue, refusals]
  · rfl

/-- What the scan hands over was reckoned with. -/
lemma outlook_loaded (m : Mailbox) : (m.step (.loaded (scan m.key))).outlook scan = m.outlook scan := by
  simp only [step]
  split
  · next hphase => simp [outlook, toCome, hphase]
  · rfl

/-- Whoever closes a mailbox takes nothing from those who have posted to it. -/
lemma outlook_close (m : Mailbox) : (m.post .close).outlook scan = m.outlook scan := by
  unfold post
  split
  · cases hphase : m.phase <;>
      simp [outlook, toCome, hphase, Shard.replies_append_close, refusals]
  · rfl

/-! ### What the shard comes to -/

lemma ComesTo.isOpen (h : m.ComesTo scan s) : m.isOpen = true := by
  obtain ⟨s₀, hs₀, -⟩ := h.serves
  cases hphase : m.phase with
  | loading | serving => simp [Mailbox.isOpen, hphase]
  | closing | draining | stopped => simp [shardToServe?, hphase] at hs₀

lemma ComesTo.work (h : m.ComesTo scan s) : m.work.ComesTo scan s := by
  obtain ⟨hstays, s₀, hs₀, hs⟩ := h
  unfold Mailbox.work
  split
  · exact ⟨hstays, s₀, hs₀, hs⟩
  · exact ⟨hstays, s₀, hs₀, hs⟩
  · next hqueue => exact absurd (hqueue ▸ List.mem_cons_self) hstays
  · next s₁ ticket request rest hphase hqueue =>
    rw [hqueue, List.mem_cons, not_or] at hstays
    simp only [shardToServe?, hphase, Option.some.injEq] at hs₀
    subst hs₀
    rw [hqueue] at hs
    exact ⟨hstays.2, (s₁.serve m.limits request).1, rfl, hs⟩
  all_goals simp_all [shardToServe?]

lemma ComesTo.loaded (h : m.ComesTo scan s) : (m.step (.loaded (scan m.key))).ComesTo scan s := by
  obtain ⟨hstays, s₀, hs₀, hs⟩ := h
  simp only [step]
  split
  · next hphase =>
    simp only [shardToServe?, hphase, Option.some.injEq] at hs₀
    exact ⟨hstays, s₀, by rw [shardToServe?, hs₀], hs⟩
  · exact ⟨hstays, s₀, hs₀, hs⟩

/-- A request that is posted before anybody closes the mailbox is served by the shard that the letters
before it lead to. -/
lemma ComesTo.post (h : m.ComesTo scan s) (ticket : Ticket) (request : Request) :
    (m.post (.request ticket request)).ComesTo scan (s.serve m.limits request).1 ∧
      (m.post (.request ticket request)).outlook scan =
        m.outlook scan ++ [(ticket, (s.serve m.limits request).2)] := by
  have hpost : m.post (.request ticket request) =
      { m with queue := m.queue ++ [.request ticket request] } := by
    simp [Mailbox.post, h.isOpen]
  obtain ⟨hstays, s₀, hs₀, rfl⟩ := h
  obtain ⟨hafter, hreplies⟩ := Shard.serve_append m.limits hstays m.key s₀ ticket request
  rw [hpost]
  refine ⟨⟨by simp [hstays], s₀, hs₀, hafter⟩, ?_⟩
  unfold shardToServe? at hs₀
  split at hs₀
  · next hphase =>
    obtain rfl := Option.some.inj hs₀
    simp only [outlook, toCome, hphase, hreplies, List.append_assoc]
  · next hphase =>
    obtain rfl := Option.some.inj hs₀
    simp only [outlook, toCome, hphase, hreplies, List.append_assoc]
  all_goals cases hs₀

lemma comesTo_new (key : ShardKey) (today : Date) (limits : PageLimits) :
    ComesTo scan { key, today, limits } (.ofScan key today (scan key)) :=
  ⟨List.not_mem_nil, _, rfl, rfl⟩

lemma comesTo_serving (key : ShardKey) (today : Date) (limits : PageLimits) (s : Shard) :
    ComesTo scan { key, today, limits, phase := .serving s } s :=
  ⟨List.not_mem_nil, s, rfl, rfl⟩

/-! ### Looking up -/

/-- An answer that is there is the one that was expected. -/
lemma lookup_outlook {ticket : Ticket} {reply : Except CacheError Reply}
    (h : m.answerTo? ticket = some reply) : (m.outlook scan).lookup ticket = some reply := by
  rw [outlook, List.lookup_append, show m.answers.lookup ticket = some reply from h, Option.some_or]

end Mailbox

end TaskIndex
