import TaskIndex.Proofs.Router.Traffic
import TaskIndex.Proofs.Shard.Outlook

/-!
What requests under way will come to.

The outlooks of the mailboxes and of the merger tell for every request that has been started what its
result is going to be. Nothing that merely goes on changes that, with one exception: when the parts of a
query reach a merger that has been closed, the query ends without its page.
-/

namespace TaskIndex.Traffic

/-! ### The merger -/

def MergePosting.isClose : MergePosting → Bool
  | .job _ => false
  | .close => true

namespace Merger

/-- What the merger will reply to the postings; behind a closing note everything is turned away. -/
def repliesTo : List MergePosting → List (Ticket × Except CacheError Page)
  | .job job :: rest =>
    (job.call, .ok (.ofMatches job.spec job.today job.parts.flatten)) :: repliesTo rest
  | .close :: rest => rest.filterMap fun
    | .job job => some (job.call, .error .routerClosed)
    | .close => none
  | [] => []

def outlook (m : Merger) : List (Ticket × Except CacheError Page) := m.replies ++ repliesTo m.queue

/-- The merger is or is not closed, as told, and has nothing left once it is gone. -/
structure InOrder (m : Merger) (closed : Bool) : Prop where
  closed_eq : closed = (m.stopped || m.queue.any (·.isClose))
  empty : m.stopped = true → m.queue = []

variable {m : Merger} {closed : Bool} {job : Job} {queue : List MergePosting}

lemma repliesTo_append_close (queue : List MergePosting) :
    repliesTo (queue ++ [.close]) = repliesTo queue := by
  induction queue with
  | nil => rfl
  | cons posting rest ih =>
    cases posting with
    | job job => rw [List.cons_append, repliesTo, repliesTo, ih]
    | close => simp [repliesTo]

/-- A job behind all others is merged, unless there is a closing note before it. -/
lemma repliesTo_append_job (queue : List MergePosting) (job : Job) :
    repliesTo (queue ++ [.job job]) = repliesTo queue ++
      [(job.call, if queue.any (·.isClose) then .error .routerClosed
        else .ok (.ofMatches job.spec job.today job.parts.flatten))] := by
  induction queue with
  | nil => rfl
  | cons posting rest ih =>
    cases posting with
    | job j => simp [repliesTo, ih, MergePosting.isClose]
    | close => simp [repliesTo, MergePosting.isClose]

lemma outlook_work (m : Merger) : m.work.outlook = m.outlook := by
  unfold work
  split
  · rfl
  · next hqueue => simp [outlook, hqueue, repliesTo]
  · next rest hqueue =>
    have hrest : m.outlook = m.replies ++ repliesTo (.close :: rest) :=
      congrArg (m.replies ++ repliesTo ·) hqueue
    exact (List.append_nil _).trans hrest.symm

lemma InOrder.outlook_post (h : m.InOrder closed) (job : Job) :
    (m.post job).outlook = m.outlook ++ [(job.call, if closed then .error .routerClosed
      else .ok (.ofMatches job.spec job.today job.parts.flatten))] := by
  obtain ⟨rfl, hempty⟩ := h
  unfold post
  split
  · next hstopped => simp [outlook, hempty hstopped, hstopped, repliesTo]
  · next hstopped => simp [outlook, repliesTo_append_job, hstopped]

lemma InOrder.work (h : m.InOrder closed) : m.work.InOrder closed := by
  obtain ⟨rfl, hempty⟩ := h
  unfold Merger.work
  split
  · exact ⟨rfl, hempty⟩
  · next hqueue =>
    rw [hqueue] at hempty
    exact ⟨by simp [hqueue, MergePosting.isClose], fun hstopped => nomatch hempty hstopped⟩
  · next hqueue => exact ⟨by simp [hqueue, MergePosting.isClose], fun _ => rfl⟩

lemma InOrder.post (h : m.InOrder closed) (job : Job) : (m.post job).InOrder closed := by
  obtain ⟨rfl, hempty⟩ := h
  unfold Merger.post
  split
  · exact ⟨rfl, hempty⟩
  · next hstopped => exact ⟨by simp [MergePosting.isClose], fun h => absurd h hstopped⟩

lemma outlook_close (m : Merger) : outlook { m with queue := m.queue ++ [.close] } = m.outlook := by
  rw [outlook, outlook, repliesTo_append_close]

lemma InOrder.close (h : m.InOrder false) : InOrder { m with queue := m.queue ++ [.close] } true := by
  have hstopped : m.stopped = false := (Bool.or_eq_false_iff.1 h.closed_eq.symm).1
  exact ⟨by simp [MergePosting.isClose], fun hgone => Bool.noConfusion (hstopped.symm.trans hgone)⟩

end Merger

/-! ### Mailboxes -/

variable (scan : ShardKey → Except SourceError (List Task))

def outlookAt (t : Traffic) (box : Nat) : List (Ticket × Except CacheError Reply) :=
  (t.boxes[box]?).elim [] (·.outlook scan)

variable {scan} {t t' : Traffic} {box : Nat} {call : Ticket} {e : Event}

/-- An event that leaves the outlook of its mailbox alone leaves them all alone. -/
lemma outlookAt_atBox {event : Mailbox.Event}
    (h : ∀ m, t.boxes[box]? = some m → (m.step event).outlook scan = m.outlook scan) (i : Nat) :
    (t.atBox box event).outlookAt scan i = t.outlookAt scan i := by
  rw [outlookAt, outlookAt, getElem?_atBox]
  split
  · next hi =>
    subst hi
    cases hm : t.boxes[box]? with
    | none => rfl
    | some m => exact h m hm
  · rfl

lemma lookup_outlookAt {reply : Except CacheError Reply} (h : t.replyOf? box call = some reply) :
    (t.outlookAt scan box).lookup call = some reply := by
  obtain ⟨m, hm, hreply⟩ := Option.bind_eq_some_iff.1 h
  rw [outlookAt, hm]
  exact Mailbox.lookup_outlook hreply

/-! ### Results -/

def mergedAnswer (replies : List (ShardKey × Except CacheError Reply)) (excluded : SortedSet ShardKey)
    (spec : PageSpec) (today : Date) : Answer :=
  let answered := replies.filterMap fun (key, reply) => (tasksOf? reply).map fun ts => (key, ts)
  let failed := replies.filter fun (_, reply) => (tasksOf? reply).isNone
  .ofPage (.ofMatches spec today (answered.map (·.2)).flatten)
    (.ofList (answered.map (·.1))) excluded (.ofList (failed.map (·.1)))

def outcomeOf? (reply? : Nat → Option (Except CacheError Reply))
    (page? : Option (Except CacheError Page)) : Call → Option Result
  | .done result => some result
  | .page key box =>
    match reply? box with
    | some (.ok (.page page)) => some (.answer (.ofShard key (.ok page)))
    | some (.error e) => some (.answer (.ofShard key (.error e)))
    | _ => none
  | .tally box =>
    match reply? box with
    | some (.ok (.tally tally)) => some (.tally (.ok (some tally)))
    | some (.error e) => some (.tally (.error e))
    | _ => none
  | .stats box =>
    match reply? box with
    | some (.ok (.stats stats)) => some (.stats (.ok (some stats)))
    | some (.error e) => some (.stats (.error e))
    | _ => none
  | .parts parts excluded spec today =>
    (parts.mapM fun part => (reply? part.box).map fun reply => (part.key, reply)).map fun replies =>
      .answer (mergedAnswer replies excluded spec today)
  | .merge included excluded erroneous =>
    match page? with
    | some (.ok page) => some (.answer (.ofPage page included excluded erroneous))
    | some (.error _) => some (.answer (.unmerged included excluded erroneous))
    | none => none

variable (scan) in
/-- What a request is going to come to. -/
def foreseen (t : Traffic) (call : Ticket) : Option Result :=
  (t.calls[call]?).bind
    (outcomeOf? (fun box => (t.outlookAt scan box).lookup call) (t.merger.outlook.lookup call))

lemma foreseen_congr (hcall : t'.calls[call]? = t.calls[call]?)
    (hreply : ∀ box, (t'.outlookAt scan box).lookup call = (t.outlookAt scan box).lookup call)
    (hpage : t'.merger.outlook.lookup call = t.merger.outlook.lookup call) :
    t'.foreseen scan call = t.foreseen scan call := by
  rw [foreseen, foreseen, hcall, hpage]
  simp only [hreply]

lemma foreseen_of_result? {result : Result} (h : t.result? call = some result) :
    t.foreseen scan call = some result := by
  unfold result? at h
  unfold foreseen
  cases hcall : t.calls[call]? with
  | none =>
    rw [hcall] at h
    cases h
  | some c =>
    rw [hcall] at h
    rw [Option.bind_some]
    cases c with
    | done => exact h
    | page | tally | stats =>
      dsimp only at h
      split at h
      · next hreply => rwa [outcomeOf?, lookup_outlookAt hreply]
      · next hreply => rwa [outcomeOf?, lookup_outlookAt hreply]
      · cases h
    | parts => cases h
    | merge =>
      dsimp only at h
      split at h
      · next hpage => simpa [outcomeOf?, Merger.outlook, List.lookup_append, hpage] using h
      · next hpage => simpa [outcomeOf?, Merger.outlook, List.lookup_append, hpage] using h
      · cases h

/-! ### Collecting the parts of a query -/

lemma mapM_mono {α β : Type} {f g : α → Option β} (h : ∀ a b, f a = some b → g a = some b) {l : List α}
    {bs : List β} (hl : l.mapM f = some bs) : l.mapM g = some bs := by
  induction l generalizing bs with
  | nil => exact hl
  | cons a l ih =>
    rw [List.mapM_cons] at hl ⊢
    obtain ⟨b, hb, hrest⟩ := Option.bind_eq_some_iff.1 hl
    obtain ⟨cs, hcs, hbs⟩ := Option.bind_eq_some_iff.1 hrest
    exact Option.bind_eq_some_iff.2 ⟨b, h a b hb, Option.bind_eq_some_iff.2 ⟨cs, ih hcs, hbs⟩⟩

def CanCollect (t : Traffic) (call : Ticket) : Prop :=
  ∃ parts excluded spec today, t.calls[call]? = some (.parts parts excluded spec today) ∧
    (t.replies? call parts).isSome

def collected (t : Traffic) (job : Job) (a : Answer) : Traffic :=
  { t with
      merger := t.merger.post job
      calls := t.calls.setIfInBounds job.call (.merge a.included a.excluded a.erroneous) }

variable (scan) in
/-- Either there is nothing to collect, or the job that is posted leads to the answer that is foreseen. -/
lemma collect_cases (t : Traffic) (call : Ticket) :
    (¬t.CanCollect call ∧ t.collect call = t) ∨
      (t.CanCollect call ∧ ∃ job a, job.call = call ∧ t.foreseen scan call = some (.answer a) ∧
        Page.ofMatches job.spec job.today job.parts.flatten = ⟨a.tasks, a.total⟩ ∧
        t.collect call = t.collected job a) := by
  unfold collect
  split
  · next parts excluded spec today hcall =>
    split
    · next replies hreplies =>
      refine .inr ⟨⟨parts, excluded, spec, today, hcall, by rw [hreplies]; rfl⟩, _,
        mergedAnswer replies excluded spec today, rfl, ?_, rfl, rfl⟩
      have hforeseen : (parts.mapM fun part =>
          ((t.outlookAt scan part.box).lookup call).map fun reply => (part.key, reply)) = some replies := by
        refine mapM_mono (fun part entry hentry => ?_) hreplies
        obtain ⟨reply, hreply, rfl⟩ := Option.map_eq_some_iff.1 hentry
        rw [lookup_outlookAt hreply, Option.map_some]
      simp [foreseen, hcall, outcomeOf?, hforeseen]
    · next hnone =>
      refine .inl ⟨?_, rfl⟩
      rintro ⟨parts', excluded', spec', today', hcall', hsome⟩
      obtain ⟨rfl, -⟩ := Call.parts.inj (Option.some.inj (hcall.symm.trans hcall'))
      rw [hnone] at hsome
      cases hsome
  · next hother =>
    refine .inl ⟨?_, rfl⟩
    rintro ⟨parts, excluded, spec, today, hcall, -⟩
    exact hother parts excluded spec today hcall

/-! ### Going on -/

def Served (reply : Except CacheError Reply) : Prop :=
  ∀ key, reply ≠ .error (.shardClosed key) ∧ reply ≠ .error (.replyDropped key)

variable (scan) in
/-- Scans hand over what is reckoned with, mailboxes have been posted nothing but requests that were
started and will be served, and the merger is in order and has been posted nothing but what waits for
it. -/
structure Ordered (t : Traffic) : Prop where
  scans : ∀ key, (t.source.scan key).2 = scan key
  posted : ∀ box, ∀ entry ∈ t.outlookAt scan box, entry.1 < t.calls.size ∧ Served entry.2
  merger : t.merger.InOrder t.closed
  merging : ∀ entry ∈ t.merger.outlook,
    ∃ included excluded erroneous, t.calls[entry.1]? = some (.merge included excluded erroneous)

lemma scan_fst (s : Source) (key : ShardKey) : ∃ log, (s.scan key).1 = { s with log } := by
  unfold Source.scan
  split <;> exact ⟨_, rfl⟩

lemma scan_log (s : Source) (log : List Scan) (key : ShardKey) :
    (({ s with log } : Source).scan key).2 = (s.scan key).2 := by
  unfold Source.scan
  dsimp only
  split <;> rfl

/-- Going on changes no outlook. -/
lemma Ordered.outlookAt_step (h : t.Ordered scan) (he : ∀ s, e ≠ .start s) (box : Nat) :
    (t.step e).outlookAt scan box = t.outlookAt scan box := by
  cases e with
  | start s => exact absurd rfl (he s)
  | load b =>
    simp only [step, load]
    split
    · next m hm =>
      split
      · rw [h.scans]
        refine outlookAt_atBox (t := { t with source := _ }) (fun m' hm' => ?_) box
        obtain rfl : m = m' := Option.some.inj (hm.symm.trans hm')
        exact Mailbox.outlook_loaded m
      · rfl
    · rfl
  | work b => exact outlookAt_atBox (fun m _ => Mailbox.outlook_work m) box
  | collect call =>
    rcases collect_cases scan t call with ⟨-, hsame⟩ | ⟨-, job, a, -, -, -, hcollected⟩
    · rw [step, hsame]
    · rw [step, hcollected]
      rfl
  | merge => rfl

/-- Going on leaves a request that waits for the merger waiting for it, and every request as it is that
has nothing to collect. -/
lemma calls_step (t : Traffic) (he : ∀ s, e ≠ .start s) :
    (t.step e).calls.size = t.calls.size ∧
      ∀ call, (e = .collect call → ¬t.CanCollect call) → (t.step e).calls[call]? = t.calls[call]? := by
  cases e with
  | start s => exact absurd rfl (he s)
  | load b =>
    have hsame : (t.load b).calls = t.calls := by
      unfold load
      split
      · split <;> rfl
      · rfl
    rw [step, hsame]
    exact ⟨rfl, fun _ _ => rfl⟩
  | work | merge => exact ⟨rfl, fun _ _ => rfl⟩
  | collect c =>
    rcases collect_cases (fun _ => .ok []) t c with ⟨-, hsame⟩ | ⟨hcan, job, a, rfl, -, -, hcollected⟩
    · rw [step, hsame]
      exact ⟨rfl, fun _ _ => rfl⟩
    · rw [step, hcollected]
      refine ⟨Array.size_setIfInBounds, fun call hcall => Array.getElem?_setIfInBounds_ne ?_⟩
      rintro rfl
      exact hcall rfl hcan

/-- What the merger has been asked, and will have replied, only grows by what is collected. -/
lemma Ordered.merger_step (h : t.Ordered scan) (he : ∀ s, e ≠ .start s) :
    (t.step e).closed = t.closed ∧ (t.step e).merger.InOrder t.closed ∧
      ((t.step e).merger.outlook = t.merger.outlook ∨
        ∃ job a, e = .collect job.call ∧ t.CanCollect job.call ∧ t.step e = t.collected job a ∧
          (t.step e).merger.outlook = t.merger.outlook ++ [(job.call,
            if t.closed then .error .routerClosed else .ok ⟨a.tasks, a.total⟩)]) := by
  cases e with
  | start s => exact absurd rfl (he s)
  | load b =>
    have hsame : (t.load b).closed = t.closed ∧ (t.load b).merger = t.merger := by
      unfold load
      split
      · split <;> exact ⟨rfl, rfl⟩
      · exact ⟨rfl, rfl⟩
    rw [step, hsame.1, hsame.2]
    exact ⟨rfl, h.merger, .inl rfl⟩
  | work b => exact ⟨rfl, h.merger, .inl rfl⟩
  | merge => exact ⟨rfl, h.merger.work, .inl (Merger.outlook_work t.merger)⟩
  | collect c =>
    rcases collect_cases scan t c with ⟨-, hsame⟩ | ⟨hcan, job, a, rfl, -, hpage, hcollected⟩
    · rw [step, hsame]
      exact ⟨rfl, h.merger, .inl rfl⟩
    · refine ⟨by rw [step, hcollected]; rfl, by rw [step, hcollected]; exact h.merger.post job,
        .inr ⟨job, a, rfl, hcan, hcollected, ?_⟩⟩
      rw [step, hcollected, ← hpage]
      exact h.merger.outlook_post job

lemma not_canCollect_of_merge {included excluded erroneous : SortedSet ShardKey}
    (h : t.calls[call]? = some (.merge included excluded erroneous)) : ¬t.CanCollect call := by
  rintro ⟨parts, excluded', spec, today, hcall, -⟩
  rw [h] at hcall
  cases hcall

/-- The merger knows nothing of a request that does not wait for it. -/
lemma Ordered.lookup_of_not_merge (h : t.Ordered scan) (hnot : ∀ included excluded erroneous,
    t.calls[call]? ≠ some (.merge included excluded erroneous)) : t.merger.outlook.lookup call = none := by
  refine List.lookup_eq_none_iff.2 fun entry hentry => ?_
  obtain ⟨included, excluded, erroneous, hcall⟩ := h.merging entry hentry
  rw [bne_iff_ne]
  rintro rfl
  exact hnot included excluded erroneous hcall

lemma Ordered.step (h : t.Ordered scan) (he : ∀ s, e ≠ .start s) : (t.step e).Ordered scan := by
  obtain ⟨hsize, hcalls⟩ := calls_step t he
  obtain ⟨hclosed, hmerger, houtlook⟩ := h.merger_step he
  have hkept : ∀ entry ∈ t.merger.outlook, ∃ included excluded erroneous,
      (t.step e).calls[entry.1]? = some (.merge included excluded erroneous) := by
    intro entry hentry
    obtain ⟨included, excluded, erroneous, hcall⟩ := h.merging entry hentry
    exact ⟨included, excluded, erroneous,
      (hcalls entry.1 fun _ => not_canCollect_of_merge hcall).trans hcall⟩
  refine ⟨fun key => ?_, fun box entry hentry => ?_, hclosed ▸ hmerger, fun entry hentry => ?_⟩
  · obtain ⟨log, hsource⟩ := source_step t e
    rw [hsource, scan_log, h.scans]
  · rw [h.outlookAt_step he] at hentry
    rw [hsize]
    exact h.posted box entry hentry
  · rcases houtlook with hsame | ⟨job, a, rfl, hcan, hcollected, hmore⟩
    · rw [hsame] at hentry
      exact hkept entry hentry
    · rw [hmore] at hentry
      rcases List.mem_append.1 hentry with hentry | hentry
      · exact hkept entry hentry
      · obtain ⟨parts, excluded, spec, today, hcall, -⟩ := hcan
        rw [List.mem_singleton.1 hentry, hcollected]
        refine ⟨a.included, a.excluded, a.erroneous, Array.getElem?_setIfInBounds_self_of_lt ?_⟩
        exact (Array.getElem?_eq_some_iff.1 hcall).1

/-- What collecting the parts of a query does to what is foreseen for it. -/
lemma Ordered.foreseen_collect (h : t.Ordered scan) (hcan : t.CanCollect call) :
    ∃ a, t.foreseen scan call = some (.answer a) ∧
      (t.step (.collect call)).calls[call]? = some (.merge a.included a.excluded a.erroneous) ∧
      (t.step (.collect call)).foreseen scan call = some (.answer
        (if t.closed then .unmerged a.included a.excluded a.erroneous else a)) := by
  rcases collect_cases scan t call with ⟨hnot, -⟩ | ⟨-, job, a, rfl, hforeseen, hpage, hcollected⟩
  · exact absurd hcan hnot
  · have hcalls : (t.collected job a).calls[job.call]? =
        some (.merge a.included a.excluded a.erroneous) := by
      obtain ⟨parts, excluded, spec, today, hcall, -⟩ := hcan
      exact Array.getElem?_setIfInBounds_self_of_lt (Array.getElem?_eq_some_iff.1 hcall).1
    have hlookup : (t.collected job a).merger.outlook.lookup job.call =
        some (if t.closed then .error .routerClosed else .ok ⟨a.tasks, a.total⟩) := by
      rw [← hpage, show (t.collected job a).merger = t.merger.post job from rfl, h.merger.outlook_post,
        List.lookup_append, h.lookup_of_not_merge fun _ _ _ h => not_canCollect_of_merge h hcan]
      simp
    rw [show t.step (.collect job.call) = t.collected job a from hcollected]
    refine ⟨a, hforeseen, hcalls, ?_⟩
    rw [foreseen, hcalls, Option.bind_some, hlookup]
    cases t.closed <;> rfl

/-- **Foreseen and left alone**: what goes on does not change what is foreseen, unless it is the parts of
a query that reach a closed merger. -/
theorem Ordered.foreseen_step (h : t.Ordered scan) (he : ∀ s, e ≠ .start s)
    (hlate : e = .collect call → t.closed = true → ¬t.CanCollect call) :
    (t.step e).foreseen scan call = t.foreseen scan call := by
  by_cases hcollect : e = .collect call ∧ t.CanCollect call
  · obtain ⟨rfl, hcan⟩ := hcollect
    have hopen : t.closed = false := by
      by_contra hclosed
      exact hlate rfl (by simpa using hclosed) hcan
    obtain ⟨a, hforeseen, -, hafter⟩ := h.foreseen_collect hcan
    rw [hafter, hforeseen, hopen]
    rfl
  · refine foreseen_congr ((calls_step t he).2 call fun heq hcan => hcollect ⟨heq, hcan⟩)
      (fun box => by rw [h.outlookAt_step he]) ?_
    obtain ⟨-, -, hsame | ⟨job, a, rfl, hcan, -, hmore⟩⟩ := h.merger_step he
    · rw [hsame]
    · have hne : call ≠ job.call := by
        rintro rfl
        exact hcollect ⟨rfl, hcan⟩
      rw [hmore, List.lookup_append, List.lookup_cons, beq_false_of_ne hne, List.lookup_nil, Option.or_none]

end TaskIndex.Traffic
