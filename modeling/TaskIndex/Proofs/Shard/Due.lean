import Mathlib.Data.List.TakeWhile
import TaskIndex.Proofs.Shard.Outlook

/-!
What the letters to a mailbox are due.

The letters that were posted say alone what every request among them is due: those in front of the first
closing note are served one at a time in the order of posting, and those behind it are turned away.
-/

namespace TaskIndex

namespace Letter

def isClose : Letter → Bool
  | .request .. => false
  | .close => true

def ticket? : Letter → Option Ticket
  | .request ticket _ => some ticket
  | .close => none

def untilClose (letters : List Letter) : List Letter := letters.takeWhile (!·.isClose)

def sinceClose (letters : List Letter) : List Letter := letters.dropWhile (!·.isClose)

end Letter

open Letter (isClose ticket? untilClose sinceClose)

/-- What the requests among the letters are due from a shard: those in front of the first closing note are
served one at a time, the others are turned away. -/
def Shard.due (limits : PageLimits) (key : ShardKey) (s : Shard) (letters : List Letter) :
    List (Ticket × Except CacheError Reply) :=
  s.replies limits key (untilClose letters) ++ refusals (.shardClosed key) (sinceClose letters)

variable {letters done rest : List Letter} {limits : PageLimits} {key : ShardKey} {s : Shard}

lemma close_not_mem_untilClose (letters : List Letter) : .close ∉ untilClose letters := by
  intro hclose
  have hopen := List.mem_takeWhile_imp (p := fun letter : Letter => !letter.isClose) hclose
  simp [isClose] at hopen

lemma untilClose_append_sinceClose (letters : List Letter) :
    untilClose letters ++ sinceClose letters = letters := List.takeWhile_append_dropWhile

/-- Letters without a closing note among them do not change what is behind them. -/
lemma parts_append (hopen : .close ∉ done) (rest : List Letter) :
    untilClose (done ++ rest) = done ++ untilClose rest ∧
      sinceClose (done ++ rest) = sinceClose rest := by
  have hnone : ∀ letter ∈ done, (!letter.isClose) = true := by
    intro letter hletter
    cases letter with
    | request => rfl
    | close => exact absurd hletter hopen
  exact ⟨List.takeWhile_append_of_pos hnone, List.dropWhile_append_of_pos hnone⟩

lemma refusals_append (e : CacheError) (letters rest : List Letter) :
    refusals e (letters ++ rest) = refusals e letters ++ refusals e rest := List.filterMap_append

namespace Shard

/-- Letters are served where those before them have led. -/
lemma replies_append (hopen : .close ∉ done) (rest : List Letter) :
    s.replies limits key (done ++ rest) =
      s.replies limits key done ++ (s.afterLetters limits done).replies limits key rest := by
  induction done generalizing s with
  | nil => rfl
  | cons letter done ih =>
    rw [List.mem_cons, not_or] at hopen
    cases letter with
    | close => exact absurd rfl hopen.1
    | request ticket request =>
      have hrest := ih (s := (s.serve limits request).1) hopen.2
      rw [List.cons_append, replies, replies, afterLetters, hrest, List.cons_append]

/-- The replies to letters are what the letters are due. -/
lemma replies_eq_due (limits : PageLimits) (key : ShardKey) (s : Shard) (letters : List Letter) :
    s.replies limits key letters = s.due limits key letters := by
  have hopen := close_not_mem_untilClose letters
  have hsplit : s.replies limits key (untilClose letters ++ sinceClose letters) = _ :=
    replies_append hopen (sinceClose letters)
  rw [untilClose_append_sinceClose] at hsplit
  rw [hsplit, due]
  congr 1
  -- what is left begins with a closing note, if there is anything left
  cases hrest : sinceClose letters with
  | nil => rfl
  | cons letter rest =>
    have hhead := List.head?_dropWhile_not (fun letter : Letter => !letter.isClose) letters
    rw [show letters.dropWhile (fun letter => !letter.isClose) = letter :: rest from hrest] at hhead
    cases letter with
    | request => simp [isClose] at hhead
    | close => rfl

lemma tickets_refusals (e : CacheError) (letters : List Letter) :
    (refusals e letters).map (·.1) = letters.filterMap ticket? := by
  rw [refusals, List.map_filterMap]
  refine List.filterMap_congr fun letter _ => ?_
  cases letter <;> rfl

lemma tickets_due (limits : PageLimits) (key : ShardKey) (s : Shard) (letters : List Letter) :
    (s.due limits key letters).map (·.1) = letters.filterMap ticket? := by
  rw [← replies_eq_due]
  induction letters generalizing s with
  | nil => rfl
  | cons letter rest ih =>
    cases letter with
    | request ticket request => simp [replies, ticket?, ih]
    | close =>
      have hrest := tickets_refusals (.shardClosed key) rest
      rwa [replies, List.filterMap_cons_none rfl]

lemma error_of_mem_refusals {e : CacheError} {entry : Ticket × Except CacheError Reply}
    (h : entry ∈ refusals e letters) : entry.2 = .error e := by
  obtain ⟨letter, -, hletter⟩ := List.mem_filterMap.1 h
  cases letter with
  | request ticket request => exact congrArg Prod.snd (Option.some.inj hletter).symm
  | close => cases hletter

lemma replies_of_error {e : CacheError} (hcontent : s.content = .error e) (hopen : .close ∉ letters) :
    s.replies limits key letters = refusals e letters := by
  induction letters with
  | nil => rfl
  | cons letter rest ih =>
    rw [List.mem_cons, not_or] at hopen
    cases letter with
    | close => exact absurd rfl hopen.1
    | request ticket request =>
      have hserve : s.serve limits request = (s, .error e) := by
        cases request <;> simp [serve, lookup, filter, apply, stats, hcontent, Except.map]
      rw [replies, hserve, ih hopen.2]
      rfl

lemma serve_of_ok {idx : Index} (hcontent : s.content = .ok idx) (limits : PageLimits)
    (request : Request) : (∃ idx', (s.serve limits request).1.content = .ok idx') ∧
      ∃ reply, (s.serve limits request).2 = .ok reply := by
  cases request <;> simp [serve, lookup, filter, apply, stats, hcontent, Except.map]

lemma exists_reply_of_ok {idx : Index} (hcontent : s.content = .ok idx) (hopen : .close ∉ letters) :
    ∀ entry ∈ s.replies limits key letters, ∃ reply, entry.2 = .ok reply := by
  induction letters generalizing s idx with
  | nil => exact fun entry hentry => absurd hentry List.not_mem_nil
  | cons letter rest ih =>
    rw [List.mem_cons, not_or] at hopen
    cases letter with
    | close => exact absurd rfl hopen.1
    | request ticket request =>
      obtain ⟨⟨idx', hcontent'⟩, hreply⟩ := serve_of_ok hcontent limits request
      intro entry hentry
      rcases List.mem_cons.1 hentry with rfl | hentry
      · exact hreply
      · exact ih hcontent' hopen.2 entry hentry

/-- Nobody hears that a reply was dropped. -/
lemma not_replyDropped_of_mem_due {scanned : Except SourceError (List Task)} {today : Date}
    {entry : Ticket × Except CacheError Reply}
    (hentry : entry ∈ (ofScan key today scanned).due limits key letters) (k : ShardKey) :
    entry.2 ≠ .error (.replyDropped k) := by
  have hopen := close_not_mem_untilClose letters
  rcases List.mem_append.1 hentry with hserved | hrefused
  · cases scanned with
    | ok scanned =>
      have hcontent : (ofScan key today (.ok scanned)).content = .ok (Index.load key today scanned) := rfl
      obtain ⟨reply, hreply⟩ := exists_reply_of_ok hcontent hopen entry hserved
      rw [hreply]
      exact fun h => nomatch h
    | error e =>
      rw [replies_of_error (e := .loadFailed key e.message) rfl hopen] at hserved
      rw [error_of_mem_refusals hserved]
      exact fun h => nomatch h
  · rw [error_of_mem_refusals hrefused]
    exact fun h => nomatch h

end Shard

end TaskIndex
