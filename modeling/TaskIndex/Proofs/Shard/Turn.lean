import Mathlib.Data.List.Induction
import Mathlib.Data.List.Perm.Subperm
import TaskIndex.Proofs.Shard.Due

/-!
One answer for each request, in turn.

A run of a mailbox may post, load and work in any order. At every moment the letters that were posted fall
into those that are dealt with and those that still lie in the queue, and what has been answered is what
the first ones are due. So every request comes to the one answer that it is due, whatever the order was.
-/

namespace TaskIndex

open Letter (ticket? untilClose sinceClose)

variable {letters : List Letter} {s : Shard}

/-! ### Where a mailbox stands -/

namespace Mailbox

variable {m : Mailbox} {e : Event} {es : List Event}

def Event.letter? : Event → Option Letter
  | .post ticket request => some (.request ticket request)
  | .close => some .close
  | .loaded _ | .work => none

def lettersOf (es : List Event) : List Letter := es.filterMap Event.letter?

def Event.scanned? : Event → Option (Except SourceError (List Task))
  | .loaded scanned => some scanned
  | .post .. | .close | .work => none

def scanned? (es : List Event) : Option (Except SourceError (List Task)) :=
  es.findSome? Event.scanned?

def Event.isWork : Event → Bool
  | .work => true
  | .post .. | .close | .loaded _ => false

def opened (key : ShardKey) (today : Date) (limits : PageLimits) : Mailbox := { key, today, limits }

/-- The letters that were posted are dealt with up to some point: so far they have been answered, and
behind it they lie in the queue. Once the mailbox is shut, letters are turned away before those in front
of them, so that the answers come in some other order. -/
inductive Stands (s : Shard) (letters : List Letter) (m : Mailbox) : Prop where
  | loading (hphase : m.phase = .loading) (hqueue : m.queue = letters) (hanswers : m.answers = [])
  | serving (done : List Letter) (hphase : m.phase = .serving (s.afterLetters m.limits done))
      (hletters : done ++ m.queue = letters) (hopen : .close ∉ done)
      (hanswers : m.answers = s.replies m.limits m.key done)
  | closing (done : List Letter) (hphase : m.phase = .closing)
      (hletters : done ++ .close :: m.queue = letters) (hopen : .close ∉ done)
      (hanswers : m.answers = s.replies m.limits m.key done)
  | shut (done rest : List Letter) (hphase : m.phase = .draining ∨ m.phase = .stopped ∧ m.queue = [])
      (hletters : done ++ .close :: rest = letters) (hopen : .close ∉ done)
      (hanswers : (m.answers ++ refusals (.shardClosed m.key) m.queue).Perm
        (s.replies m.limits m.key done ++ refusals (.shardClosed m.key) rest))

namespace Stands

lemma post (h : m.Stands s letters) (letter : Letter) :
    (m.post letter).Stands s (letters ++ [letter]) := by
  cases h with
  | loading hphase hqueue hanswers =>
    have hpost : m.post letter = { m with queue := m.queue ++ [letter] } := by
      simp [Mailbox.post, isOpen, hphase]
    rw [hpost]
    exact .loading hphase (by rw [hqueue]) hanswers
  | serving done hphase hletters hopen hanswers =>
    have hpost : m.post letter = { m with queue := m.queue ++ [letter] } := by
      simp [Mailbox.post, isOpen, hphase]
    rw [hpost]
    exact .serving done hphase (by rw [← hletters, List.append_assoc]) hopen hanswers
  | closing done hphase hletters hopen hanswers =>
    have hpost : m.post letter = { m with queue := m.queue ++ [letter] } := by
      simp [Mailbox.post, isOpen, hphase]
    rw [hpost]
    exact .closing done hphase (by rw [← hletters, List.append_assoc, List.cons_append]) hopen hanswers
  | shut done rest hphase hletters hopen hanswers =>
    have hclosed : m.isOpen = false := by
      rcases hphase with hphase | ⟨hphase, -⟩ <;> simp [isOpen, hphase]
    have hletters' : done ++ .close :: (rest ++ [letter]) = letters ++ [letter] := by
      rw [← hletters, List.append_assoc, List.cons_append]
    cases letter with
    | close =>
      have hpost : m.post .close = m := by simp [Mailbox.post, hclosed]
      rw [hpost]
      refine .shut done _ hphase hletters' hopen ?_
      simpa [refusals_append, refusals] using hanswers
    | request ticket request =>
      have hpost : m.post (.request ticket request) =
          m.answer ticket (.error (.shardClosed m.key)) := by simp [Mailbox.post, hclosed]
      rw [hpost]
      refine .shut done _ hphase hletters' hopen ?_
      -- the new refusal is given in front of those that still lie in the queue
      have hlast := hanswers.append_right [(ticket, .error (.shardClosed m.key))]
      rw [refusals_append, ← List.append_assoc]
      refine List.Perm.trans ?_ hlast
      simp only [answer, List.append_assoc]
      exact List.perm_append_comm.append_left m.answers

lemma loaded (h : m.Stands s letters) {scanned : Except SourceError (List Task)}
    (hs : m.phase = .loading → s = .ofScan m.key m.today scanned) :
    (m.step (.loaded scanned)).Stands s letters := by
  cases h with
  | loading hphase hqueue hanswers =>
    obtain rfl := hs hphase
    simp only [step, hphase]
    exact .serving [] rfl hqueue List.not_mem_nil hanswers
  | serving done hphase hletters hopen hanswers =>
    have hsame : m.step (.loaded scanned) = m := by simp [step, hphase]
    rw [hsame]
    exact .serving done hphase hletters hopen hanswers
  | closing done hphase hletters hopen hanswers =>
    have hsame : m.step (.loaded scanned) = m := by simp [step, hphase]
    rw [hsame]
    exact .closing done hphase hletters hopen hanswers
  | shut done rest hphase hletters hopen hanswers =>
    have hsame : m.step (.loaded scanned) = m := by
      rcases hphase with hphase | ⟨hphase, -⟩ <;> simp [step, hphase]
    rw [hsame]
    exact .shut done rest hphase hletters hopen hanswers

lemma work (h : m.Stands s letters) : m.work.Stands s letters := by
  cases h with
  | loading hphase hqueue hanswers =>
    have hsame : m.work = m := by simp [Mailbox.work, hphase]
    rw [hsame]
    exact .loading hphase hqueue hanswers
  | serving done hphase hletters hopen hanswers =>
    cases hqueue : m.queue with
    | nil =>
      have hsame : m.work = m := by simp [Mailbox.work, hphase, hqueue]
      rw [hsame]
      exact .serving done hphase hletters hopen hanswers
    | cons letter rest =>
      rw [hqueue] at hletters
      cases letter with
      | close =>
        have hwork : m.work = { m with phase := .closing, queue := rest } := by
          simp [Mailbox.work, hphase, hqueue]
        rw [hwork]
        exact .closing done rfl hletters hopen hanswers
      | request ticket request =>
        obtain ⟨hafter, hreplies⟩ := Shard.serve_append m.limits hopen m.key s ticket request
        have hwork : m.work = ({ m with
            phase := .serving (s.afterLetters m.limits (done ++ [.request ticket request]))
            queue := rest } : Mailbox).answer ticket
              ((s.afterLetters m.limits done).serve m.limits request).2 := by
          simp [Mailbox.work, hphase, hqueue, hafter]
        rw [hwork]
        refine .serving (done ++ [.request ticket request]) rfl ?_ ?_ ?_
        · rw [← hletters]
          simp [answer]
        · simpa using hopen
        · simp [answer, hanswers, hreplies]
  | closing done hphase hletters hopen hanswers =>
    have hwork : m.work = { m with phase := .draining } := by simp [Mailbox.work, hphase]
    rw [hwork]
    exact .shut done m.queue (.inl rfl) hletters hopen (by rw [hanswers])
  | shut done rest hphase hletters hopen hanswers =>
    rcases hphase with hphase | ⟨hphase, hqueue⟩
    · cases hqueue : m.queue with
      | nil =>
        have hwork : m.work = { m with phase := .stopped } := by simp [Mailbox.work, hphase, hqueue]
        rw [hwork]
        exact .shut done rest (.inr ⟨rfl, hqueue⟩) hletters hopen hanswers
      | cons letter left =>
        rw [hqueue] at hanswers
        cases letter with
        | close =>
          have hwork : m.work = { m with queue := left } := by simp [Mailbox.work, hphase, hqueue]
          rw [hwork]
          exact .shut done rest (.inl hphase) hletters hopen hanswers
        | request ticket request =>
          have hwork : m.work = ({ m with queue := left } : Mailbox).answer ticket
              (.error (.shardClosed m.key)) := by simp [Mailbox.work, hphase, hqueue]
          rw [hwork]
          refine .shut done rest (.inl hphase) hletters hopen ?_
          simpa [answer, refusals] using hanswers
    · have hsame : m.work = m := by simp [Mailbox.work, hphase, hqueue]
      rw [hsame]
      exact .shut done rest (.inr ⟨hphase, hqueue⟩) hletters hopen hanswers

/-- Letters that are dealt with came before anybody closed the mailbox. -/
lemma prefix_untilClose (h : m.Stands s letters) {s' : Shard} (hserving : m.phase = .serving s') :
    ∃ done, done <+: untilClose letters ∧ s' = s.afterLetters m.limits done := by
  cases h with
  | serving done hphase hletters hopen =>
    have hs' : s' = s.afterLetters m.limits done := Phase.serving.inj (hserving.symm.trans hphase)
    refine ⟨done, ?_, hs'⟩
    rw [← hletters, (parts_append hopen m.queue).1]
    exact List.prefix_append _ _
  | loading hphase => rw [hphase] at hserving; cases hserving
  | closing _ hphase => rw [hphase] at hserving; cases hserving
  | shut _ _ hphase =>
    rcases hphase with hphase | ⟨hphase, -⟩ <;> rw [hphase] at hserving <;> cases hserving

/-- What a loaded mailbox has answered and is going to answer is what its letters are due. -/
lemma outlook_perm (h : m.Stands s letters) (hloaded : m.phase ≠ .loading)
    (scan : ShardKey → Except SourceError (List Task)) :
    (m.outlook scan).Perm (s.due m.limits m.key letters) := by
  rw [← Shard.replies_eq_due]
  cases h with
  | loading hphase => exact absurd hphase hloaded
  | serving done hphase hletters hopen hanswers =>
    rw [← hletters, Shard.replies_append hopen, outlook, toCome, hphase, hanswers]
  | closing done hphase hletters hopen hanswers =>
    rw [← hletters, Shard.replies_append hopen, outlook, toCome, hphase, hanswers]
    rfl
  | shut done rest hphase hletters hopen hanswers =>
    rw [← hletters, Shard.replies_append hopen, outlook, toCome]
    rcases hphase with hphase | ⟨hphase, hqueue⟩
    · rw [hphase]
      exact hanswers
    · rw [hqueue] at hanswers
      rw [hphase, hqueue]
      exact hanswers

lemma answers_subperm (h : m.Stands s letters) :
    m.answers.Subperm (s.due m.limits m.key letters) := by
  by_cases hphase : m.phase = .loading
  · have hnone : m.answers = [] := by
      cases h with
      | loading _ _ hanswers => exact hanswers
      | serving _ hphase' => rw [hphase] at hphase'; cases hphase'
      | closing _ hphase' => rw [hphase] at hphase'; cases hphase'
      | shut _ _ hphase' =>
        rcases hphase' with hphase' | ⟨hphase', -⟩ <;> rw [hphase] at hphase' <;> cases hphase'
    rw [hnone]
    exact List.nil_subperm
  · have hsofar : m.answers.Subperm (m.outlook fun _ => .ok []) :=
      (List.prefix_append m.answers _).sublist.subperm
    exact hsofar.trans (h.outlook_perm hphase _).subperm

end Stands

/-! ### Runs -/

lemma lettersOf_concat (es : List Event) (e : Event) :
    lettersOf (es ++ [e]) = lettersOf es ++ e.letter?.toList := by
  cases h : e.letter? <;> simp [lettersOf, h]

lemma scanned?_of_loading (h : (m.run es).phase = .loading) :
    m.phase = .loading ∧ scanned? es = none := by
  induction es generalizing m with
  | nil => exact ⟨h, rfl⟩
  | cons e es ih =>
    obtain ⟨hphase, hscanned⟩ := ih h
    cases e with
    | post ticket request =>
      exact ⟨(loading_step (e := .post ticket request) m (fun _ heq => nomatch heq)).1 hphase, hscanned⟩
    | close => exact ⟨(loading_step (e := .close) m (fun _ heq => nomatch heq)).1 hphase, hscanned⟩
    | work => exact ⟨(loading_step (e := .work) m (fun _ heq => nomatch heq)).1 hphase, hscanned⟩
    | loaded scanned =>
      simp only [step] at hphase
      split at hphase
      · cases hphase
      · next hnot => exact absurd hphase hnot

lemma frame_run (m : Mailbox) (es : List Event) :
    (m.run es).key = m.key ∧ (m.run es).today = m.today ∧ (m.run es).limits = m.limits := by
  induction es generalizing m with
  | nil => exact ⟨rfl, rfl, rfl⟩
  | cons e es ih =>
    obtain ⟨hkey, htoday, hlimits⟩ := ih (m.step e)
    obtain ⟨hkey', hlimits'⟩ := frame_step m e
    exact ⟨hkey.trans hkey', htoday.trans (today_step m e), hlimits.trans hlimits'⟩

/-- **At every moment**: whatever has happened since a mailbox was opened, what its letters are due is
answered as far as they are dealt with. -/
theorem stands_run (key : ShardKey) (today : Date) (limits : PageLimits)
    {scanned : Except SourceError (List Task)} (es : List Event)
    (hscan : ∀ x ∈ scanned? es, x = scanned) :
    ((opened key today limits).run es).Stands (.ofScan key today scanned) (lettersOf es) := by
  induction es using List.reverseRecOn with
  | nil => exact .loading rfl rfl rfl
  | append_singleton es e ih =>
    have hsplit : scanned? (es ++ [e]) = (scanned? es).or e.scanned? := by
      rw [scanned?, List.findSome?_append, List.findSome?_singleton]
      rfl
    have hstands := ih fun x hx => hscan x (by rw [hsplit, Option.mem_def.1 hx]; rfl)
    rw [run_append, lettersOf_concat]
    obtain ⟨hkey, htoday, -⟩ := frame_run (opened key today limits) es
    cases e with
    | post ticket request => exact hstands.post _
    | close => exact hstands.post _
    | work =>
      rw [show Event.work.letter?.toList = [] from rfl, List.append_nil]
      exact hstands.work
    | loaded x =>
      rw [show (Event.loaded x).letter?.toList = [] from rfl, List.append_nil]
      refine hstands.loaded fun hphase => ?_
      have hx : x = scanned := hscan x (by rw [hsplit, (scanned?_of_loading hphase).2]; rfl)
      rw [hkey, htoday, hx]
      rfl

/-! ### Everything is answered -/

def ahead (m : Mailbox) (n : Nat) : Mailbox := { m with queue := m.queue.take n }

/-- Beside serving its letters, a mailbox that is not shut has to be shut once. -/
def slack (m : Mailbox) : Nat :=
  match m.phase with
  | .loading | .serving _ | .closing => 1
  | .draining | .stopped => 0

variable {scan : ShardKey → Except SourceError (List Task)} {n : Nat}

lemma answers_step (m : Mailbox) (e : Event) : m.answers <+: (m.step e).answers := by
  cases e with
  | post | close => exact (kept_post m _).2.2
  | loaded scanned =>
    simp only [step]
    split <;> exact List.prefix_rfl
  | work =>
    show m.answers <+: m.work.answers
    unfold Mailbox.work
    split
    -- a request is served or turned away
    case h_4 | h_6 | h_9 => exact List.prefix_append _ _
    all_goals exact List.prefix_rfl

lemma answers_run (m : Mailbox) (es : List Event) : m.answers <+: (m.run es).answers := by
  induction es generalizing m with
  | nil => exact List.prefix_rfl
  | cons e es ih => exact (answers_step m e).trans (ih (m.step e))

/-- A loaded mailbox with nothing in it has answered everything that it was going to answer. -/
lemma outlook_of_empty (hloaded : m.phase ≠ .loading) (hqueue : m.queue = []) :
    m.outlook scan = m.answers := by
  rw [outlook, toCome, hqueue]
  cases hphase : m.phase with
  | loading => exact absurd hphase hloaded
  | serving | closing | draining | stopped => exact List.append_nil _

lemma outlook_ahead_zero (hloaded : m.phase ≠ .loading) : (m.ahead 0).outlook scan = m.answers :=
  outlook_of_empty (m := m.ahead 0) hloaded (List.take_zero (l := m.queue))

/-- Working deals with the first letter or shuts the mailbox, whatever lies behind. -/
lemma work_ahead (hloaded : m.phase ≠ .loading) (hpos : n ≠ 0) (hn : n ≤ m.queue.length) :
    ∃ n', (m.ahead n).work = m.work.ahead n' ∧ n' + m.work.slack < n + m.slack ∧
      n' ≤ m.work.queue.length ∧ m.work.phase ≠ .loading := by
  obtain ⟨k, rfl⟩ := Nat.exists_eq_succ_of_ne_zero hpos
  obtain ⟨letter, rest, hqueue⟩ := List.exists_cons_of_length_pos (Nat.lt_of_lt_of_le k.succ_pos hn)
  have hk : k ≤ rest.length := by
    rw [hqueue, List.length_cons] at hn
    omega
  cases hphase : m.phase with
  | loading => exact absurd hphase hloaded
  | serving s =>
    refine ⟨k, ?_⟩
    cases letter <;> simp [Mailbox.work, ahead, slack, answer, hphase, hqueue, hk]
  | closing =>
    refine ⟨k + 1, ?_⟩
    simp [Mailbox.work, ahead, slack, hphase, hqueue, hk]
  | draining =>
    refine ⟨k, ?_⟩
    cases letter <;> simp [Mailbox.work, ahead, slack, answer, hphase, hqueue, hk]
  | stopped =>
    refine ⟨k, ?_⟩
    cases letter <;> simp [Mailbox.work, ahead, slack, answer, hphase, hqueue, hk]

/-- Posting takes nothing away from those who have posted before. -/
lemma post_ahead (hloaded : m.phase ≠ .loading) (hn : n ≤ m.queue.length) (letter : Letter) :
    ((m.ahead n).outlook scan).Subperm (((m.post letter).ahead n).outlook scan) ∧
      n ≤ (m.post letter).queue.length ∧ (m.post letter).slack = m.slack ∧
      (m.post letter).phase ≠ .loading := by
  unfold Mailbox.post
  split
  · have htake : (m.queue ++ [letter]).take n = m.queue.take n := List.take_append_of_le_length hn
    refine ⟨?_, ?_, rfl, hloaded⟩
    · simp only [ahead, htake]
      exact List.Subperm.refl _
    · rw [List.length_append]
      omega
  · cases letter with
    | close => exact ⟨List.Subperm.refl _, hn, rfl, hloaded⟩
    | request ticket request =>
      refine ⟨?_, hn, rfl, hloaded⟩
      have hmore : m.answers.Sublist (m.answers ++ [(ticket, .error (.shardClosed m.key))]) :=
        List.sublist_append_left _ _
      exact (hmore.append_right _).subperm

/-- Whatever else is posted meanwhile, a loaded mailbox has answered its first `n` letters once the shard
has done as many things and shut it if need be. -/
lemma answered_run (es : List Event) (hloaded : m.phase ≠ .loading) (hn : n ≤ m.queue.length)
    (hworks : n + m.slack ≤ es.countP (·.isWork)) :
    ((m.ahead n).outlook scan).Subperm (m.run es).answers := by
  induction es generalizing m n with
  | nil =>
    have hnone : n = 0 := by
      rw [List.countP_nil] at hworks
      omega
    subst hnone
    rw [outlook_ahead_zero hloaded]
    exact List.Subperm.refl _
  | cons e es ih =>
    by_cases hzero : n = 0
    · subst hzero
      rw [outlook_ahead_zero hloaded]
      exact (answers_run m (e :: es)).sublist.subperm
    · cases e with
      | post ticket request =>
        obtain ⟨hmore, hn', hslack, hloaded'⟩ := post_ahead hloaded hn (.request ticket request)
        exact hmore.trans (ih hloaded' hn' (hslack ▸ hworks))
      | close =>
        obtain ⟨hmore, hn', hslack, hloaded'⟩ := post_ahead hloaded hn .close
        exact hmore.trans (ih hloaded' hn' (hslack ▸ hworks))
      | loaded scanned =>
        have hsame : m.step (.loaded scanned) = m := by
          simp only [step]
        rw [run_cons, hsame]
        exact ih hloaded hn hworks
      | work =>
        obtain ⟨n', hwork, hless, hn', hloaded'⟩ := work_ahead hloaded hzero hn
        have hworks' : n' + m.work.slack ≤ es.countP (·.isWork) := by
          rw [List.countP_cons_of_pos rfl] at hworks
          omega
        rw [← outlook_work, hwork]
        exact ih hloaded' hn' hworks'

/-! ### In turn -/

/-- **One answer for each request, in turn**: however posting, loading and working interleave, the letters
that were posted say alone what is due, one answer to each request. Requests in front of the first closing
note are served one at a time in the order of posting, and if the scan has failed they are all turned away
for that one reason; requests behind it are turned away because the shard is closed. Nothing is answered
that is not due, or twice; a loaded mailbox has answered everything that was due once the shard has done
one thing more than there were letters in the queue, whatever is posted meanwhile. The shard is never
changed but by requests in front of the closing note, and no request hears that its reply was dropped. -/
theorem answered_in_turn (key : ShardKey) (today : Date) (limits : PageLimits)
    (scanned : Except SourceError (List Task)) (es : List Event)
    (hscan : ∀ x ∈ scanned? es, x = scanned) :
    let m := (opened key today limits).run es
    let s := Shard.ofScan key today scanned
    let letters := lettersOf es
    let due := s.due limits key letters
    due.map (·.1) = letters.filterMap ticket? ∧
    (∀ e, scanned = .error e →
      due = refusals (.loadFailed key e.message) (untilClose letters) ++
        refusals (.shardClosed key) (sinceClose letters)) ∧
    m.answers.Subperm due ∧
    (m.phase ≠ .loading → m.queue = [] → m.answers.Perm due) ∧
    (m.phase ≠ .loading → ∀ later : List Event, m.queue.length < later.countP (·.isWork) →
      due.Subperm (m.run later).answers) ∧
    (∀ s', m.phase = .serving s' →
      ∃ done, done <+: untilClose letters ∧ s' = s.afterLetters limits done) ∧
    (∀ entry ∈ m.answers, ∀ k, entry.2 ≠ .error (.replyDropped k)) ∧
    ∀ es' : List Event, lettersOf es' = letters → (∀ x ∈ scanned? es', x = scanned) →
      let m' := (opened key today limits).run es'
      m.phase ≠ .loading → m.queue = [] → m'.phase ≠ .loading → m'.queue = [] →
      m'.answers.Perm m.answers := by
  intro m s letters due
  obtain ⟨hkey, -, hlimits⟩ := frame_run (opened key today limits) es
  have hstands : m.Stands s letters := stands_run key today limits es hscan
  have hdue : s.due m.limits m.key letters = due := by rw [hkey, hlimits]; rfl
  have hanswers : m.answers.Subperm due := hdue ▸ hstands.answers_subperm
  have hall : ∀ es' : List Event, lettersOf es' = letters → (∀ x ∈ scanned? es', x = scanned) →
      let m' := (opened key today limits).run es'
      m'.phase ≠ .loading → m'.queue = [] → m'.answers.Perm due := by
    intro es' hletters hscan' m' hloaded hqueue
    obtain ⟨hkey', -, hlimits'⟩ := frame_run (opened key today limits) es'
    have houtlook := (stands_run key today limits es' hscan').outlook_perm hloaded fun _ => .ok []
    rw [outlook_of_empty hloaded hqueue, hkey', hlimits', hletters] at houtlook
    exact houtlook
  refine ⟨Shard.tickets_due limits key s letters, fun e he => ?_, hanswers, hall es rfl hscan,
    fun hloaded later hworks => ?_, fun s' hs' => ?_, fun entry hentry k =>
      Shard.not_replyDropped_of_mem_due (hanswers.subset hentry) k,
    fun es' hletters hscan' hloaded hqueue hloaded' hqueue' => ?_⟩
  · have hcontent : s.content = .error (.loadFailed key e.message) :=
      congrArg (fun scanned => (Shard.ofScan key today scanned).content) he
    exact congrArg (· ++ _) (Shard.replies_of_error hcontent (close_not_mem_untilClose letters))
  · have hslack : m.slack ≤ 1 := by
      unfold slack
      split <;> omega
    have hanswered : ((m.ahead m.queue.length).outlook fun _ => .ok []).Subperm (m.run later).answers :=
      answered_run later hloaded (Nat.le_refl _) (by omega)
    have hahead : m.ahead m.queue.length = m := by simp [ahead]
    have houtlook := hstands.outlook_perm hloaded fun _ => .ok []
    rw [hahead] at hanswered
    rw [hdue] at houtlook
    exact houtlook.symm.subperm.trans hanswered
  · have hprefix := hstands.prefix_untilClose hs'
    rwa [hlimits] at hprefix
  · have hfirst := hall es rfl hscan hloaded hqueue
    exact (hall es' hletters hscan' hloaded' hqueue').trans hfirst.symm

/-- The mailbox is closed while its shard is still being scanned. Of the two requests behind the closing
note the one that meets the shut mailbox is turned away first. -/
theorem answered_in_turn_closing :
    let key : ShardKey := ⟨"elm", by decide, by decide⟩
    let today : Date := ⟨2026, 3, 1, by decide⟩
    let es : List Event := [.post 0 .stats, .close, .post 1 .stats, .loaded (.ok []), .work, .work, .work,
      .post 2 .stats, .work]
    let m := (opened key today default).run es
    (∀ x ∈ scanned? es, x = .ok []) ∧ m.answers.map (·.1) = [0, 2, 1] ∧
      m.answers.Perm ((Shard.ofScan key today (.ok [])).due default key (lettersOf es)) := by
  intro key today es m
  have hscan : ∀ x ∈ scanned? es, x = .ok [] := by
    rintro x hx
    exact (Option.some.inj hx).symm
  have hphase : m.phase = .draining := rfl
  obtain ⟨-, -, -, hall, -⟩ := answered_in_turn key today default (.ok []) es hscan
  exact ⟨hscan, rfl, hall (fun hloading => nomatch hphase.symm.trans hloading) rfl⟩

end Mailbox

end TaskIndex
