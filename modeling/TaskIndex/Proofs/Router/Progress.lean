import Mathlib.Algebra.GroupWithZero.Nat
import TaskIndex.Proofs.Router.Foresight

/-!
What is under way comes to an end.

A mailbox, a query over several shards and the merger each have only so much left to do, and whatever goes
on and changes anything leaves one of them with less. So when nothing more is started, everything comes to
rest sooner or later, and a router at rest owes nobody a result.
-/

namespace TaskIndex

/-! ### One mailbox -/

namespace Mailbox

def toDo (m : Mailbox) : Nat :=
  m.queue.length +
    match m.phase with
    | .loading => 4
    | .serving _ => 3
    | .closing => 2
    | .draining => 1
    | .stopped => 0

def Rests (m : Mailbox) : Prop :=
  m.queue = [] ∧ ((∃ s, m.phase = .serving s) ∨ m.phase = .stopped)

variable {scan : ShardKey → Except SourceError (List Task)} {m : Mailbox}

lemma toDo_work (m : Mailbox) :
    m.work = m ∧ (m.phase = .loading ∨ m.Rests) ∨ m.work.toDo < m.toDo := by
  unfold work
  split
  · next hphase => exact .inl ⟨rfl, .inl hphase⟩
  · next s hphase hqueue => exact .inl ⟨rfl, .inr ⟨hqueue, .inl ⟨s, hphase⟩⟩⟩
  · next hphase hqueue => exact .inr (by simp [toDo, hphase, hqueue])
  · next hphase hqueue => exact .inr (by simp [toDo, answer, hphase, hqueue])
  · next hphase => exact .inr (by simp [toDo, hphase])
  · next hphase hqueue => exact .inr (by simp [toDo, answer, hphase, hqueue])
  · next hphase hqueue => exact .inr (by simp [toDo, hphase, hqueue])
  · next hphase hqueue => exact .inr (by simp [toDo, hphase, hqueue])
  · next hphase hqueue => exact .inr (by simp [toDo, answer, hphase, hqueue])
  · next hphase hqueue => exact .inr (by simp [toDo, hphase, hqueue])
  · next hphase hqueue => exact .inl ⟨rfl, .inr ⟨hqueue, .inr hphase⟩⟩

lemma toDo_loaded (hphase : m.phase = .loading) (scanned : Except SourceError (List Task)) :
    (m.step (.loaded scanned)).toDo < m.toDo := by
  simp [step, toDo, hphase]

lemma Rests.outlook_eq (h : m.Rests) : m.outlook scan = m.answers := by
  obtain ⟨hqueue, ⟨s, hphase⟩ | hphase⟩ := h
  · simp [outlook, toCome, hphase, hqueue, Shard.replies]
  · simp [outlook, toCome, hphase, hqueue, refusals]

end Mailbox

namespace Traffic

variable {scan : ShardKey → Except SourceError (List Task)} {t : Traffic} {box : Nat} {call : Ticket}
  {e : Event}

/-! ### Everything together -/

def Call.toDo : Call → Nat
  | .parts .. => 2
  | _ => 0

/-- How much there is still to do. -/
def toDo (t : Traffic) : Nat :=
  (t.boxes.toList.map Mailbox.toDo).sum + (t.calls.toList.map Call.toDo).sum + t.merger.queue.length

/-- Nothing changes any more unless something is started. -/
def AtRest (t : Traffic) : Prop := ∀ e, (∀ s, e ≠ .start s) → t.step e = t

lemma sum_modify_add {α : Type} (weight : α → Nat) (f : α → α) {l : List α} {i : Nat} {a : α}
    (ha : l[i]? = some a) :
    ((l.modify i f).map weight).sum + weight a = (l.map weight).sum + weight (f a) := by
  obtain ⟨hi, rfl⟩ := List.getElem?_eq_some_iff.1 ha
  obtain ⟨before, b, after, rfl, rfl, hmodify⟩ := List.exists_of_modify f hi
  rw [hmodify]
  simp
  omega

lemma toDo_atBox {m : Mailbox} (hm : t.boxes[box]? = some m) {event : Mailbox.Event}
    (hless : (m.step event).toDo < m.toDo) : (t.atBox box event).toDo < t.toDo := by
  have hsum := sum_modify_add Mailbox.toDo (·.step event) (l := t.boxes.toList) (i := box) (a := m)
    (by simpa using hm)
  simp only [toDo, atBox, Array.toList_modify]
  omega

lemma atBox_eq_self {event : Mailbox.Event} (h : ∀ m, t.boxes[box]? = some m → m.step event = m) :
    t.atBox box event = t := by
  have hboxes : t.boxes.modify box (·.step event) = t.boxes := by
    refine Array.ext_getElem? fun i => ?_
    have hi := getElem?_atBox t box event i
    rw [show (t.atBox box event).boxes = t.boxes.modify box (·.step event) from rfl] at hi
    rw [hi]
    split
    · next heq =>
      subst heq
      cases hm : t.boxes[box]? with
      | none => rfl
      | some m => rw [Option.map_some, h m hm]
    · rfl
  rw [atBox, hboxes]

lemma toDo_load {m : Mailbox} (hm : t.boxes[box]? = some m) (hphase : m.phase = .loading) :
    (t.step (.load box)).toDo < t.toDo := by
  simp only [step, load, hm, hphase]
  exact toDo_atBox (t := { t with source := _ }) hm (Mailbox.toDo_loaded hphase _)

lemma toDo_work {m : Mailbox} (hm : t.boxes[box]? = some m) (hless : m.work.toDo < m.toDo) :
    (t.step (.work box)).toDo < t.toDo := toDo_atBox hm hless

lemma toDo_collect (hcan : t.CanCollect call) : (t.step (.collect call)).toDo < t.toDo := by
  rcases collect_cases (fun _ => .ok []) t call with ⟨hnot, -⟩ | ⟨-, job, a, rfl, -, -, hcollected⟩
  · exact absurd hcan hnot
  · obtain ⟨parts, excluded, spec, today, hcall, -⟩ := hcan
    have hcalls := sum_modify_add Call.toDo (fun _ => .merge a.included a.excluded a.erroneous)
      (show t.calls.toList[job.call]? = some _ by simpa using hcall)
    have hqueue : (t.merger.post job).queue.length ≤ t.merger.queue.length + 1 := by
      unfold Merger.post
      split <;> simp
    rw [step, hcollected]
    simp only [toDo, collected, Array.toList_setIfInBounds, List.set_eq_modify]
    simp only [Call.toDo] at hcalls
    omega

lemma toDo_merge (hqueue : t.merger.queue ≠ []) : (t.step .merge).toDo < t.toDo := by
  simp only [step, Merger.work]
  split
  · next hempty => exact absurd hempty hqueue
  · next hcons => simp [toDo, hcons]
  · next hcons => simp [toDo, hcons]

/-- **Going on comes to an end**: whatever goes on either changes nothing or leaves less to do. -/
theorem toDo_step (t : Traffic) (he : ∀ s, e ≠ .start s) :
    t.step e = t ∨ (t.step e).toDo < t.toDo := by
  cases e with
  | start s => exact absurd rfl (he s)
  | load box =>
    by_cases hloading : ∃ m, t.boxes[box]? = some m ∧ m.phase = .loading
    · obtain ⟨m, hm, hphase⟩ := hloading
      exact .inr (toDo_load hm hphase)
    · refine .inl ?_
      simp only [step, load]
      split
      · next m hm =>
        split
        · next hphase => exact absurd ⟨m, hm, hphase⟩ hloading
        · rfl
      · rfl
  | work box =>
    by_cases hless : ∃ m, t.boxes[box]? = some m ∧ m.work.toDo < m.toDo
    · obtain ⟨m, hm, hless⟩ := hless
      exact .inr (toDo_work hm hless)
    · refine .inl (atBox_eq_self fun m hm => ?_)
      exact (m.toDo_work.resolve_right fun h => hless ⟨m, hm, h⟩).1
  | collect call =>
    rcases collect_cases (fun _ => .ok []) t call with ⟨-, hsame⟩ | ⟨hcan, -⟩
    · exact .inl hsame
    · exact .inr (toDo_collect hcan)
  | merge =>
    by_cases hqueue : t.merger.queue = []
    · refine .inl ?_
      simp only [step, Merger.work, hqueue]
    · exact .inr (toDo_merge hqueue)

def EachChanges (t : Traffic) : List Event → Prop
  | [] => True
  | e :: es => t.step e ≠ t ∧ (t.step e).EachChanges es

/-- There are only so many events that change anything, in whatever order they come. -/
lemma EachChanges.length_le {es : List Event} (h : t.EachChanges es)
    (hes : ∀ e ∈ es, ∀ s, e ≠ .start s) : es.length ≤ t.toDo := by
  induction es generalizing t with
  | nil => exact Nat.zero_le _
  | cons e es ih =>
    obtain ⟨he, hes⟩ := List.forall_mem_cons.1 hes
    have hless : (t.step e).toDo < t.toDo := (toDo_step t he).resolve_left h.1
    have hrest : es.length ≤ (t.step e).toDo := ih h.2 hes
    rw [List.length_cons]
    omega

/-- From everywhere a schedule that starts nothing leads to rest. -/
theorem exists_atRest (t : Traffic) :
    ∃ es : List Event, (∀ e ∈ es, ∀ s, e ≠ .start s) ∧ (t.run es).AtRest := by
  induction htodo : t.toDo using Nat.strongRecOn generalizing t with
  | ind n ih =>
    by_cases hrest : t.AtRest
    · exact ⟨[], fun e he => absurd he List.not_mem_nil, hrest⟩
    · simp only [AtRest, not_forall] at hrest
      obtain ⟨e, he, hchange⟩ := hrest
      have hless : (t.step e).toDo < n := htodo ▸ (toDo_step t he).resolve_left hchange
      obtain ⟨es, hes, hrest⟩ := ih _ hless (t.step e) rfl
      exact ⟨e :: es, List.forall_mem_cons.2 ⟨he, hes⟩, hrest⟩

/-! ### At rest -/

namespace AtRest

lemma not_less (h : t.AtRest) (he : ∀ s, e ≠ .start s) : ¬(t.step e).toDo < t.toDo := by
  rw [h e he]
  exact Nat.lt_irrefl _

lemma rests (h : t.AtRest) {m : Mailbox} (hm : t.boxes[box]? = some m) : m.Rests := by
  rcases m.toDo_work with ⟨-, hphase | hrests⟩ | hless
  · exact absurd (toDo_load hm hphase) (h.not_less fun s hs => by cases hs)
  · exact hrests
  · exact absurd (toDo_work hm hless) (h.not_less fun s hs => by cases hs)

lemma queue_eq (h : t.AtRest) : t.merger.queue = [] := by
  by_contra hqueue
  exact absurd (toDo_merge hqueue) (h.not_less fun s hs => by cases hs)

lemma not_canCollect (h : t.AtRest) : ¬t.CanCollect call :=
  fun hcan => absurd (toDo_collect hcan) (h.not_less fun s hs => by cases hs)

lemma lookup_outlookAt (h : t.AtRest) (box : Nat) (call : Ticket) :
    (t.outlookAt scan box).lookup call = t.replyOf? box call := by
  unfold outlookAt replyOf?
  cases hm : t.boxes[box]? with
  | none => rfl
  | some m =>
    rw [Option.elim_some, (h.rests hm).outlook_eq]
    rfl

/-- **At rest nothing is owed**: what is foreseen for a request is what it has come to. -/
theorem result?_eq (h : t.AtRest) (call : Ticket) : t.result? call = t.foreseen scan call := by
  have hpage : t.merger.outlook = t.merger.replies := by
    rw [Merger.outlook, h.queue_eq]
    exact List.append_nil _
  have hreply : (fun box => (t.outlookAt scan box).lookup call) = fun box => t.replyOf? box call :=
    funext fun box => h.lookup_outlookAt box call
  unfold result? foreseen
  rw [hreply, hpage]
  cases hcall : t.calls[call]? with
  | none => rfl
  | some c =>
    cases c with
    | done | page | tally | stats | merge => rfl
    | parts parts excluded spec today =>
      have hnone : t.replies? call parts = none := by
        by_contra hsome
        exact h.not_canCollect ⟨parts, excluded, spec, today, hcall, Option.isSome_iff_ne_none.2 hsome⟩
      exact (congrArg (Option.map _) hnone).symm

end AtRest

end Traffic

end TaskIndex
