import TaskIndex.Proofs.Router.Front

/-!
What requests wait for.

A request is noted behind the others when it is started, and waits for what it was started with. Only the
collection of its parts changes that: they are posted to be merged, with the day that the request has kept.
So what is posted to be merged was asked for on the day of its request, whatever has happened since.
-/

namespace TaskIndex

namespace Traffic

variable {t : Traffic}

/-! ### The calls and the merger aside -/

lemma rest_atBoxes (t : Traffic) (boxes : List Nat) (e : Mailbox.Event) :
    (t.atBoxes boxes e).calls = t.calls ∧ (t.atBoxes boxes e).merger = t.merger := by
  rw [atBoxes_eq]
  exact ⟨rfl, rfl⟩

lemma rest_rollOver (t : Traffic) : t.rollOver.calls = t.calls ∧ t.rollOver.merger = t.merger := by
  unfold rollOver
  split
  · exact rest_atBoxes t _ .close
  · exact ⟨rfl, rfl⟩

lemma rest_obtain (t : Traffic) (key : ShardKey) :
    (t.obtain key).1.calls = t.calls ∧ (t.obtain key).1.merger = t.merger := by
  unfold obtain
  split <;> exact ⟨rfl, rfl⟩

lemma rest_route (t : Traffic) (today : Date) (actor : Actor) (ps : List Predicate) :
    (∃ c, (t.route today actor ps).calls = t.calls.push c) ∧ (t.route today actor ps).merger = t.merger := by
  unfold route
  split
  · next key _ =>
    obtain ⟨hcalls, hmerger⟩ := t.rest_obtain key
    rw [← hcalls]
    exact ⟨⟨_, rfl⟩, hmerger⟩
  · exact ⟨⟨_, rfl⟩, rfl⟩
  · split <;> exact ⟨⟨_, rfl⟩, rfl⟩
  · next keys _ =>
    obtain ⟨hcalls, hmerger⟩ := t.rest_atBoxes
      ((keys.toList.filterMap fun key => (t.boxOf? key).map fun box => ⟨key, box⟩).map Part.box)
      (.post t.nextTicket (.filter (filtersOnly ps)))
    rw [← hcalls]
    exact ⟨⟨_, rfl⟩, hmerger⟩

/-- A request that is started is noted behind the others, and posts nothing to be merged. -/
lemma rest_start (t : Traffic) (s : Start) : (∃ c, (t.start s).calls = t.calls.push c) ∧
    ∀ job, .job job ∈ (t.start s).merger.queue → .job job ∈ t.merger.queue := by
  cases s with
  | query actor ps =>
    obtain ⟨hcalls, hmerger⟩ := t.rest_rollOver
    show (∃ c, (t.startQuery actor ps).calls = _) ∧
      ∀ job, .job job ∈ (t.startQuery actor ps).merger.queue → _
    rw [← hcalls, ← hmerger]
    unfold startQuery
    dsimp only
    split
    · exact ⟨⟨_, rfl⟩, fun _ hjob => hjob⟩
    · obtain ⟨hnoted, hsame⟩ := t.rollOver.rest_route t.rollOver.today actor ps
      exact ⟨hnoted, fun job hjob => hsame ▸ hjob⟩
  | notify | stats | evict =>
    unfold start
    dsimp only
    split <;> exact ⟨⟨_, rfl⟩, fun _ hjob => hjob⟩
  | close =>
    unfold start
    dsimp only
    split
    · exact ⟨⟨_, rfl⟩, fun _ hjob => hjob⟩
    · have hcalls : t.retire.calls = t.calls := (rest_atBoxes t _ .close).1
      refine ⟨⟨.done .closed, congrArg (fun calls => calls.push (.done .closed)) hcalls⟩, fun job hjob => ?_⟩
      have hqueue : (.job job : MergePosting) ∈ t.merger.queue ++ [.close] := hjob
      simpa using hqueue

/-! ### Merging -/

lemma mem_queue_post {m : Merger} {job job' : Job} (h : .job job' ∈ (m.post job).queue) :
    .job job' ∈ m.queue ∨ job' = job := by
  unfold Merger.post at h
  split at h
  · exact .inl h
  · simpa using h

lemma mem_queue_work {m : Merger} {p : MergePosting} (h : p ∈ m.work.queue) : p ∈ m.queue := by
  unfold Merger.work at h
  split at h
  · exact h
  · next hqueue =>
    rw [hqueue]
    exact List.mem_cons_of_mem _ h
  · cases h

/-- The parts of a query are posted to be merged with the day that the query has kept. -/
lemma collect_posts (t : Traffic) (call : Ticket) : t.collect call = t ∨
    ∃ parts excluded spec today, t.calls[call]? = some (.parts parts excluded spec today) ∧
      ∃ job included erroneous, job.call = call ∧ job.today = today ∧
        t.collect call = { t with
          merger := t.merger.post job
          calls := t.calls.setIfInBounds call (.merge included excluded erroneous) } := by
  unfold collect
  split
  · next parts excluded spec today hcall =>
    split
    · exact .inr ⟨parts, excluded, spec, today, hcall, _, _, _, rfl, rfl, rfl⟩
    · exact .inl rfl
  · exact .inl rfl

/-! ### Going on -/

/-- From the first state to the second a request waits for what it has waited for, or its parts have been
posted to be merged, with the day that it has kept. -/
structure Onward (t t' : Traffic) : Prop where
  size : t.calls.size ≤ t'.calls.size
  calls : ∀ call < t.calls.size, t'.calls[call]? = t.calls[call]? ∨
    ∃ included excluded erroneous, t'.calls[call]? = some (.merge included excluded erroneous)
  queue : ∀ job, .job job ∈ t'.merger.queue → .job job ∈ t.merger.queue ∨
    ∃ parts excluded spec, t.calls[job.call]? = some (.parts parts excluded spec job.today)

namespace Onward

variable {t' : Traffic}

lemma of_calls (hcalls : t'.calls = t.calls)
    (hqueue : ∀ job, .job job ∈ t'.merger.queue → .job job ∈ t.merger.queue) : Onward t t' where
  size := Nat.le_of_eq (congrArg Array.size hcalls.symm)
  calls call _ := .inl (by rw [hcalls])
  queue job hjob := .inl (hqueue job hjob)

lemma of_push {c : Call} (hcalls : t'.calls = t.calls.push c)
    (hqueue : ∀ job, .job job ∈ t'.merger.queue → .job job ∈ t.merger.queue) : Onward t t' := by
  refine ⟨?_, fun call hcall => .inl ?_, fun job hjob => .inl (hqueue job hjob)⟩
  · rw [hcalls, Array.size_push]
    exact Nat.le_succ _
  · rw [hcalls, Array.getElem?_push, if_neg (Nat.ne_of_lt hcall)]

lemma start (t : Traffic) (s : Start) : Onward t (t.start s) := by
  obtain ⟨⟨c, hcalls⟩, hqueue⟩ := t.rest_start s
  exact of_push hcalls hqueue

lemma collect (t : Traffic) (call : Ticket) : Onward t (t.collect call) := by
  rcases collect_posts t call with hsame | ⟨parts, excluded, spec, today, hcall, job, included, erroneous,
    rfl, rfl, hposted⟩
  · rw [hsame]
    exact of_calls rfl fun _ hjob => hjob
  · rw [hposted]
    refine ⟨Nat.le_of_eq Array.size_setIfInBounds.symm, fun i hi => ?_, fun job' hjob' => ?_⟩
    · by_cases hthis : job.call = i
      · subst hthis
        exact .inr ⟨included, excluded, erroneous, Array.getElem?_setIfInBounds_self_of_lt hi⟩
      · exact .inl (Array.getElem?_setIfInBounds_ne hthis)
    · rcases mem_queue_post hjob' with hqueue | rfl
      · exact .inl hqueue
      · exact .inr ⟨parts, excluded, spec, hcall⟩

lemma befall (t : Traffic) (h : Happening) : Onward t (t.befall h) := by
  match h with
  | .request s => exact start t s
  | .event (.load box) =>
    show Onward t (t.load box)
    rcases load_cases t box with ⟨m, -, -, hload⟩ | ⟨-, hload⟩ <;> rw [hload] <;>
      exact of_calls rfl fun _ hjob => hjob
  | .event (.collect call) => exact collect t call
  | .event (.work box) | .tick _ | .restock _ _ _ => exact of_calls rfl fun _ hjob => hjob
  | .event .merge => exact of_calls rfl fun _ hjob => mem_queue_work hjob

end Onward

def Posts (t : Traffic) : Prop := ∀ job, .job job ∈ t.merger.queue → job.call < t.calls.size

lemma Posts.of_rest {t' : Traffic} (ht : t.Posts) (hcalls : t'.calls = t.calls)
    (hmerger : t'.merger = t.merger) : t'.Posts := by
  intro job hjob
  rw [hcalls]
  exact ht job (hmerger ▸ hjob)

lemma Posts.onward {t' : Traffic} (ht : t.Posts) (h : Onward t t') : t'.Posts := by
  intro job hjob
  rcases h.queue job hjob with hqueue | ⟨parts, excluded, spec, hcall⟩
  · exact Nat.lt_of_lt_of_le (ht job hqueue) h.size
  · exact Nat.lt_of_lt_of_le (Array.getElem?_eq_some_iff.1 hcall).1 h.size

end Traffic

end TaskIndex
