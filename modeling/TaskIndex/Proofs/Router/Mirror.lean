import TaskIndex.Proofs.Router.Account
import TaskIndex.Proofs.Router.Foresight

/-!
Letters in the mailboxes, and the shards that they lead to.

A router with requests under way mirrors one that serves each request before the next when its cached
shards, once they have worked off their mailboxes, are those of the other. Whatever goes on keeps it so,
and so does posting a request in the one and serving it in the other. A request that is posted changes no
outlook but adds the reply to it that the other router has at once, and closing a mailbox changes none:
every letter is posted before anybody closes the mailbox.
-/

namespace TaskIndex.Traffic

variable {scan : ShardKey → Except SourceError (List Task)} {t t' t'' : Traffic} {r : Router}
  {key : ShardKey} {box : Nat} {entries : List (Nat × Except CacheError Reply)}

/-! ### Posting -/

lemma frame_atBoxes (t : Traffic) (boxes : List Nat) (e : Mailbox.Event) :
    (t.atBoxes boxes e).today = t.today ∧ (t.atBoxes boxes e).limits = t.limits ∧
      (t.atBoxes boxes e).validFor = t.validFor ∧ (t.atBoxes boxes e).closed = t.closed := by
  rw [atBoxes_eq]
  exact ⟨rfl, rfl, rfl, rfl⟩

lemma obtain_of_boxOf?_some (hbox : t.boxOf? key = some box) : t.obtain key = (t, box) := by
  unfold Traffic.obtain
  rw [hbox]

lemma obtain_of_boxOf?_none (hbox : t.boxOf? key = none) :
    t.obtain key = ({ t with
      boxes := t.boxes.push { key, today := t.today, limits := t.limits }
      cached := t.cached ++ [(key, t.boxes.size)] }, t.boxes.size) := by
  unfold Traffic.obtain
  rw [hbox]

lemma boxOf?_obtain (t : Traffic) (key k : ShardKey) :
    (t.obtain key).1.boxOf? k = if k = key then some (t.obtain key).2 else t.boxOf? k := by
  cases hbox : t.boxOf? key with
  | some box =>
    rw [obtain_of_boxOf?_some hbox]
    split
    · next hk => rw [hk, hbox]
    · rfl
  | none =>
    rw [obtain_of_boxOf?_none hbox]
    simp only [boxOf?, List.lookup_append, List.lookup_cons, List.lookup_nil]
    by_cases hk : k = key
    · subst hk
      rw [show t.cached.lookup k = none from hbox]
      simp
    · simp [hk, beq_false_of_ne hk]

variable (scan) in
/-- The second state is the first one with what a request that is being started has posted: the listed
mailboxes are going to reply to it as listed, and no other outlook has changed. -/
structure Posted (t t' : Traffic) (entries : List (Nat × Except CacheError Reply)) : Prop where
  source : t'.source = t.source
  calls : t'.calls = t.calls
  pages : t'.merger.outlook = t.merger.outlook
  merger : t.merger.InOrder t.closed → t'.merger.InOrder t'.closed
  replies : ∀ box, t'.outlookAt scan box =
    t.outlookAt scan box ++ (entries.lookup box).toList.map (t.nextTicket, ·)

variable (scan) in
structure Opens (t t' : Traffic) (result : Result) : Prop where
  ordered : t'.Ordered scan
  size : t'.calls.size = t.calls.size + 1
  foreseen : t'.foreseen scan t.calls.size = some result
  others : ∀ call, call < t.calls.size →
    t'.calls[call]? = t.calls[call]? ∧ t'.foreseen scan call = t.foreseen scan call

namespace Posted

lemma refl (t : Traffic) : Posted scan t t [] :=
  ⟨rfl, rfl, rfl, id, fun _ => (List.append_nil _).symm⟩

lemma trans (h : Posted scan t t' []) (h' : Posted scan t' t'' entries) : Posted scan t t'' entries where
  source := h'.source.trans h.source
  calls := h'.calls.trans h.calls
  pages := h'.pages.trans h.pages
  merger := h'.merger ∘ h.merger
  replies box := by
    have hticket : t'.nextTicket = t.nextTicket := congrArg Array.size h.calls
    rw [h'.replies, h.replies, hticket]
    simp

/-- The mailboxes that are closed have the outlook that they had. -/
lemma atBoxes_close (t : Traffic) (boxes : List Nat) : Posted scan t (t.atBoxes boxes .close) [] := by
  induction boxes generalizing t with
  | nil => exact refl t
  | cons box boxes ih =>
    have hfirst : Posted scan t (t.atBox box .close) [] := by
      refine ⟨rfl, rfl, rfl, id, fun i => ?_⟩
      rw [outlookAt_atBox fun m _ => Mailbox.outlook_close m]
      exact (List.append_nil _).symm
    exact hfirst.trans (ih (t.atBox box .close))

lemma retire (t : Traffic) : Posted scan t t.retire [] := by
  obtain ⟨hsource, hcalls, hpages, hmerger, hreplies⟩ := atBoxes_close t (t.cached.map (·.2))
  exact ⟨hsource, hcalls, hpages, hmerger, hreplies⟩

lemma evict (t : Traffic) (key : ShardKey) (box : Nat) :
    Posted scan t { t.atBox box .close with cached := t.cached.filter (·.1 ≠ key) } [] := by
  obtain ⟨hsource, hcalls, hpages, hmerger, hreplies⟩ := atBoxes_close t [box]
  exact ⟨hsource, hcalls, hpages, hmerger, hreplies⟩

lemma rollOver (t : Traffic) : Posted scan t t.rollOver [] := by
  unfold Traffic.rollOver
  split
  · obtain ⟨hsource, hcalls, hpages, hmerger, hreplies⟩ := retire t
    exact ⟨hsource, hcalls, hpages, hmerger, hreplies⟩
  · exact refl t

lemma shut (hopen : t.closed = false) : Posted scan t { t.retire with
    closed := true
    merger := { t.merger with queue := t.merger.queue ++ [MergePosting.close] } } [] := by
  have hretired : Posted scan t t.retire [] := .retire t
  refine ⟨hretired.source, hretired.calls, Merger.outlook_close t.merger, fun h => ?_, hretired.replies⟩
  rw [hopen] at h
  exact h.close

/-- A mailbox that is opened has nothing to answer. -/
lemma obtain (t : Traffic) (key : ShardKey) : Posted scan t (t.obtain key).1 [] := by
  unfold Traffic.obtain
  split
  · exact refl t
  · refine ⟨rfl, rfl, rfl, id, fun box => ?_⟩
    simp only [List.lookup_nil, Option.toList_none, List.map_nil, List.append_nil, outlookAt,
      Array.getElem?_push]
    split
    · next hbox =>
      rw [hbox, Array.getElem?_eq_none (Nat.le_refl _)]
      rfl
    · rfl

lemma atBox {m : Mailbox} {s : Shard} (hm : t.boxes[box]? = some m) (hs : m.ComesTo scan s)
    (request : Request) :
    Posted scan t (t.atBox box (.post t.nextTicket request)) [(box, (s.serve m.limits request).2)] := by
  refine ⟨rfl, rfl, rfl, id, fun i => ?_⟩
  rw [outlookAt, outlookAt, getElem?_atBox, List.lookup_cons]
  split
  · next hi =>
    subst hi
    rw [hm, beq_self_eq_true]
    exact (hs.post t.nextTicket request).2
  · next hi =>
    rw [beq_false_of_ne (Ne.symm hi)]
    exact (List.append_nil _).symm

lemma cons {reply : Except CacheError Reply} (h : Posted scan t t' [(box, reply)])
    (h' : Posted scan t' t'' entries) (hbox : box ∉ entries.map (·.1)) :
    Posted scan t t'' ((box, reply) :: entries) where
  source := h'.source.trans h.source
  calls := h'.calls.trans h.calls
  pages := h'.pages.trans h.pages
  merger := h'.merger ∘ h.merger
  replies i := by
    have hticket : t'.nextTicket = t.nextTicket := congrArg Array.size h.calls
    rw [h'.replies, h.replies, hticket, List.lookup_cons, List.lookup_cons]
    by_cases hi : i = box
    · subst hi
      have hnone : entries.lookup i = none := List.lookup_eq_none_iff.2 fun entry hentry =>
        bne_iff_ne.2 fun heq => hbox (List.mem_map.2 ⟨entry, hentry, heq.symm⟩)
      simp [hnone]
    · simp [beq_false_of_ne hi]

variable {c : Call}

lemma calls_opened (h : Posted scan t t' entries) {call : Ticket} (hcall : call < t.calls.size) :
    (t'.opened c).calls[call]? = t.calls[call]? := by
  rw [opened, h.calls, Array.getElem?_push, if_neg (Nat.ne_of_lt hcall)]

/-- The replies that are to come are those that were to come, and those to the new request. -/
lemma lookup_opened (h : Posted scan t t' entries) (box : Nat) (call : Ticket) :
    ((t'.opened c).outlookAt scan box).lookup call =
      ((t.outlookAt scan box).lookup call).or
        (if call = t.calls.size then entries.lookup box else none) := by
  rw [show (t'.opened c).outlookAt scan box = t'.outlookAt scan box from rfl, h.replies,
    List.lookup_append]
  cases entries.lookup box with
  | none => simp
  | some reply =>
    by_cases hcall : call = t.calls.size
    · simp [hcall, nextTicket]
    · simp [hcall, nextTicket, List.lookup_cons, beq_false_of_ne hcall]

lemma ordered_opened (h : Posted scan t t' entries) (ho : t.Ordered scan)
    (hserved : ∀ entry ∈ entries, Served entry.2) : (t'.opened c).Ordered scan where
  scans key := by
    rw [opened, h.source]
    exact ho.scans key
  posted box entry hentry := by
    have hsize : (t'.opened c).calls.size = t.calls.size + 1 := by
      rw [opened, h.calls, Array.size_push]
    rw [show (t'.opened c).outlookAt scan box = t'.outlookAt scan box from rfl, h.replies] at hentry
    rw [hsize]
    rcases List.mem_append.1 hentry with hentry | hentry
    · obtain ⟨hlt, hentry⟩ := ho.posted box entry hentry
      exact ⟨Nat.lt_succ_of_lt hlt, hentry⟩
    · obtain ⟨reply, hreply, rfl⟩ := List.mem_map.1 hentry
      obtain ⟨before, after, hsplit, -⟩ := List.lookup_eq_some_iff.1 (Option.mem_toList.1 hreply)
      exact ⟨Nat.lt_succ_self _, hserved (box, reply) (by rw [hsplit]; simp)⟩
  merger := h.merger ho.merger
  merging entry hentry := by
    rw [show (t'.opened c).merger = t'.merger from rfl, h.pages] at hentry
    obtain ⟨included, excluded, erroneous, hcall⟩ := ho.merging entry hentry
    exact ⟨included, excluded, erroneous,
      (h.calls_opened (Array.getElem?_eq_some_iff.1 hcall).1).trans hcall⟩

/-- With the letters posted, the request is under way. -/
lemma opens (h : Posted scan t t' entries) (ho : t.Ordered scan)
    (hserved : ∀ entry ∈ entries, Served entry.2) {result : Result}
    (hc : outcomeOf? (fun box => entries.lookup box) none c = some result) :
    Opens scan t (t'.opened c) result where
  ordered := h.ordered_opened ho hserved
  size := by rw [opened, h.calls, Array.size_push]
  foreseen := by
    have hthis : (t'.opened c).calls[t.calls.size]? = some c := by
      rw [opened, h.calls, Array.getElem?_push_size]
    have hreplies : ∀ box, (t.outlookAt scan box).lookup t.calls.size = none := fun box =>
      List.lookup_eq_none_iff.2 fun entry hentry =>
        bne_iff_ne.2 (Nat.ne_of_gt (ho.posted box entry hentry).1)
    have hpage : (t'.opened c).merger.outlook.lookup t.calls.size = none := by
      rw [show (t'.opened c).merger = t'.merger from rfl, h.pages]
      refine ho.lookup_of_not_merge fun _ _ _ hcall => ?_
      exact Nat.lt_irrefl _ (Array.getElem?_eq_some_iff.1 hcall).1
    rw [Traffic.foreseen, hthis, Option.bind_some, hpage]
    simpa only [h.lookup_opened, hreplies, if_true, Option.none_or] using hc
  others call hcall := by
    refine ⟨h.calls_opened hcall, foreseen_congr (h.calls_opened hcall) (fun box => ?_) ?_⟩
    · rw [h.lookup_opened, if_neg (Nat.ne_of_lt hcall), Option.or_none]
    · rw [show (t'.opened c).merger = t'.merger from rfl, h.pages]

end Posted

/-! ### Mirroring -/

variable (scan) in
/-- What is cached under the key, once the shard has worked off its mailbox. -/
def Has (t : Traffic) (key : ShardKey) : Option Shard → Prop
  | none => t.boxOf? key = none
  | some s => ∃ box m, t.boxOf? key = some box ∧ t.boxes[box]? = some m ∧ m.key = key ∧
      m.limits = t.limits ∧ m.ComesTo scan s

variable (scan) in
/-- Requests aside that are under way, the router is the one that serves them one at a time. -/
structure Mirrors (t : Traffic) (r : Router) : Prop where
  today : t.today = r.today
  limits : t.limits = r.limits
  validFor : t.validFor = r.validFor
  closed : t.closed = r.closed
  scans : ∀ key, (r.source.scan key).2 = scan key
  cached : ∀ key, t.Has scan key (r.find? key)
  idle : t.closed = true → t.cached = []

lemma Has.congr {o : Option Shard} (h : t.Has scan key o) (hbox : t'.boxOf? key = t.boxOf? key)
    (hlimits : t'.limits = t.limits)
    (hboxes : ∀ i m, t.boxOf? key = some i → t.boxes[i]? = some m → t'.boxes[i]? = some m) :
    t'.Has scan key o := by
  cases o with
  | none => exact hbox.trans h
  | some s =>
    obtain ⟨i, m, hi, hm, hkey, hsame, hs⟩ := h
    exact ⟨i, m, hbox.trans hi, hboxes i m hi hm, hkey, hsame.trans hlimits.symm, hs⟩

/-- What happens to one mailbox leaves a shard cached when it leaves the shard that the mailbox comes
to. -/
lemma Has.atBox {o : Option Shard} {event : Mailbox.Event} (h : t.Has scan key o)
    (he : ∀ m s, t.boxes[box]? = some m → m.ComesTo scan s → (m.step event).ComesTo scan s) :
    (t.atBox box event).Has scan key o := by
  cases o with
  | none => exact h
  | some s =>
    obtain ⟨i, m, hi, hm, hkey, hlimits, hs⟩ := h
    by_cases hbox : box = i
    · subst hbox
      obtain ⟨hkey', hlimits'⟩ := m.frame_step event
      refine ⟨box, m.step event, hi, ?_, hkey'.trans hkey, hlimits'.trans hlimits, he m s hm hs⟩
      rw [getElem?_atBox, if_pos rfl, hm, Option.map_some]
    · exact ⟨i, m, hi, by rw [getElem?_atBox, if_neg hbox, hm], hkey, hlimits, hs⟩

namespace Mirrors

lemma find?_of_boxOf? (h : t.Mirrors scan r) (hbox : t.boxOf? key = some box) :
    ∃ s m, r.find? key = some s ∧ t.boxes[box]? = some m ∧ m.key = key ∧ m.limits = r.limits ∧
      m.ComesTo scan s := by
  have hhas := h.cached key
  cases hfind : r.find? key with
  | none =>
    rw [hfind] at hhas
    rw [show t.boxOf? key = none from hhas] at hbox
    cases hbox
  | some s =>
    rw [hfind] at hhas
    obtain ⟨i, m, hi, hm, hkey, hlimits, hs⟩ := hhas
    obtain rfl : i = box := Option.some.inj (hi.symm.trans hbox)
    exact ⟨s, m, rfl, hm, hkey, hlimits.trans h.limits, hs⟩

lemma find?_of_boxOf?_none (h : t.Mirrors scan r) (hbox : t.boxOf? key = none) : r.find? key = none := by
  have hhas := h.cached key
  cases hfind : r.find? key with
  | none => rfl
  | some s =>
    rw [hfind] at hhas
    obtain ⟨i, m, hi, -⟩ := hhas
    rw [hbox] at hi
    cases hi

lemma cached_cases (h : t.Mirrors scan r) (key : ShardKey) :
    (t.boxOf? key = none ∧ r.find? key = none) ∨
      ∃ box s, t.boxOf? key = some box ∧ r.find? key = some s := by
  cases hbox : t.boxOf? key with
  | none => exact .inl ⟨rfl, h.find?_of_boxOf?_none hbox⟩
  | some box =>
    obtain ⟨s, -, hs, -⟩ := h.find?_of_boxOf? hbox
    exact .inr ⟨box, s, rfl, hs⟩

lemma key_unique (h : t.Mirrors scan r) {key' : ShardKey} (hbox : t.boxOf? key = some box)
    (hbox' : t.boxOf? key' = some box) : key = key' := by
  obtain ⟨-, m, -, hm, hkey, -⟩ := h.find?_of_boxOf? hbox
  obtain ⟨-, m', -, hm', hkey', -⟩ := h.find?_of_boxOf? hbox'
  obtain rfl : m = m' := Option.some.inj (hm.symm.trans hm')
  exact hkey.symm.trans hkey'

lemma getElem?_atBox_of_ne (h : t.Mirrors scan r) (hbox : t.boxOf? key = some box) {k : ShardKey}
    {i : Nat} (hk : k ≠ key) (hi : t.boxOf? k = some i) (event : Mailbox.Event) :
    (t.atBox box event).boxes[i]? = t.boxes[i]? := by
  refine (getElem?_atBox t box event i).trans (if_neg ?_)
  rintro rfl
  exact hk (h.key_unique hi hbox)

lemma opened (h : t.Mirrors scan r) (c : Call) : (t.opened c).Mirrors scan r :=
  ⟨h.today, h.limits, h.validFor, h.closed, h.scans, h.cached, h.idle⟩

/-- What goes on changes nothing that is mirrored. -/
lemma step {e : Event} (h : t.Mirrors scan r) (ho : t.Ordered scan) (he : ∀ s, e ≠ .start s) :
    (t.step e).Mirrors scan r := by
  cases e with
  | start s => exact absurd rfl (he s)
  | load box =>
    simp only [Traffic.step, load]
    split
    · next m hm =>
      split
      · rw [ho.scans]
        refine ⟨h.today, h.limits, h.validFor, h.closed, h.scans, fun key => ?_, h.idle⟩
        refine Has.atBox (t := { t with source := _ }) (h.cached key) fun m' s hm' hs => ?_
        obtain rfl : m = m' := Option.some.inj (hm.symm.trans hm')
        exact hs.loaded
      · exact h
    · exact h
  | work box =>
    exact ⟨h.today, h.limits, h.validFor, h.closed, h.scans,
      fun key => (h.cached key).atBox fun _ _ _ hs => hs.work, h.idle⟩
  | collect call =>
    rcases collect_cases scan t call with ⟨-, hsame⟩ | ⟨-, job, a, -, -, -, hcollected⟩
    · rwa [Traffic.step, hsame]
    · rw [Traffic.step, hcollected]
      exact ⟨h.today, h.limits, h.validFor, h.closed, h.scans, h.cached, h.idle⟩
  | merge => exact ⟨h.today, h.limits, h.validFor, h.closed, h.scans, h.cached, h.idle⟩

/-! ### What a start does first -/

lemma retire (h : t.Mirrors scan r) : t.retire.Mirrors scan { r with shards := [] } := by
  obtain ⟨htoday, hlimits, hvalidFor, hclosed⟩ := frame_atBoxes t (t.cached.map (·.2)) .close
  exact ⟨htoday.trans h.today, hlimits.trans h.limits, hvalidFor.trans h.validFor, hclosed.trans h.closed,
    h.scans, fun _ => rfl, fun _ => rfl⟩

lemma evict (h : t.Mirrors scan r) (hbox : t.boxOf? key = some box) :
    Mirrors scan { t.atBox box .close with cached := t.cached.filter (·.1 ≠ key) } (r.evict key).1 := by
  refine ⟨h.today, h.limits, h.validFor, h.closed, h.scans, fun k => ?_, fun hclosed => ?_⟩
  · have hlookup := lookup_filter_ne t.cached key k
    rw [Router.find?_evict]
    split
    · next hk => exact hlookup.trans (if_pos hk)
    · next hk =>
      refine (h.cached k).congr (hlookup.trans (if_neg hk)) rfl fun i m hi hm => ?_
      exact (h.getElem?_atBox_of_ne hbox hk hi .close).trans hm
  · simp [h.idle hclosed]

lemma rollOver (h : t.Mirrors scan r) : t.rollOver.Mirrors scan r.rollOver := by
  unfold Traffic.rollOver Router.rollOver
  rw [h.validFor, h.today]
  split
  · obtain ⟨htoday, hlimits, -, hclosed, hscans, hcached, hidle⟩ := h.retire
    exact ⟨htoday, hlimits, rfl, hclosed, hscans, hcached, hidle⟩
  · exact h

/-- A mailbox that is opened is that of the shard which is loaded at once in the other router. -/
lemma obtain (h : t.Mirrors scan r) (hopen : r.closed = false) (key : ShardKey) :
    (t.obtain key).1.Mirrors scan (r.obtain key).1 := by
  cases hbox : t.boxOf? key with
  | some box =>
    obtain ⟨s, -, hfind, -⟩ := h.find?_of_boxOf? hbox
    rw [Router.obtain_of_find?_some hfind, obtain_of_boxOf?_some hbox]
    exact h
  | none =>
    have hfind := h.find?_of_boxOf?_none hbox
    have hshard := r.find?_obtain_eq key
    have hlookup := boxOf?_obtain t key
    obtain ⟨log, hlog⟩ := scan_fst r.source key
    rw [Router.obtain_of_find?_none hfind] at hshard ⊢
    rw [obtain_of_boxOf?_none hbox] at hlookup ⊢
    refine ⟨h.today, h.limits, h.validFor, h.closed, fun k => ?_, fun k => ?_, fun hclosed => ?_⟩
    · dsimp only
      rw [hlog, scan_log, h.scans]
    · rw [hshard]
      split
      · next hk =>
        subst hk
        refine ⟨t.boxes.size, _, (hlookup k).trans (if_pos rfl), Array.getElem?_push_size, rfl, rfl, ?_⟩
        dsimp only
        rw [h.scans, ← h.today]
        exact Mailbox.comesTo_new k t.today t.limits
      · next hk =>
        refine (h.cached k).congr ((hlookup k).trans (if_neg hk)) rfl fun i m _ hm => ?_
        obtain ⟨hi, rfl⟩ := Array.getElem?_eq_some_iff.1 hm
        exact Array.getElem?_push_lt hi
    · rw [show t.closed = r.closed from h.closed, hopen] at hclosed
      cases hclosed

/-! ### What a start posts -/

/-- A request is posted to a cached shard, and is served at once in the other router. -/
lemma post (h : t.Mirrors scan r) (hbox : t.boxOf? key = some box) {s : Shard}
    (hs : r.find? key = some s) (request : Request) (shards : List Shard)
    (hfind : ∀ k, ({ r with shards } : Router).find? k =
      if k = key then some (s.serve r.limits request).1 else r.find? k) :
    (t.atBox box (.post t.nextTicket request)).Mirrors scan { r with shards } ∧
      Posted scan t (t.atBox box (.post t.nextTicket request)) [(box, (s.serve r.limits request).2)] := by
  obtain ⟨u, m, hu, hm, hkey, hlimits, hcomes⟩ := h.find?_of_boxOf? hbox
  obtain rfl : s = u := Option.some.inj (hs.symm.trans hu)
  have hposted := Posted.atBox hm hcomes request
  have hnext := (hcomes.post t.nextTicket request).1
  rw [hlimits] at hposted hnext
  refine ⟨⟨h.today, h.limits, h.validFor, h.closed, h.scans, fun k => ?_, h.idle⟩, hposted⟩
  rw [hfind]
  split
  · next hk =>
    subst hk
    obtain ⟨hkey', hlimits'⟩ := m.frame_step (.post t.nextTicket request)
    refine ⟨box, m.step (.post t.nextTicket request), hbox, ?_, hkey'.trans hkey,
      hlimits'.trans (hlimits.trans h.limits.symm), hnext⟩
    rw [getElem?_atBox, if_pos rfl, hm, Option.map_some]
  · next hk =>
    refine (h.cached k).congr rfl rfl fun i m' hi hm' => ?_
    exact (h.getElem?_atBox_of_ne hbox hk hi _).trans hm'

lemma ask (h : t.Mirrors scan r) (hbox : t.boxOf? key = some box) {s : Shard}
    (hs : r.find? key = some s) (request : Request) (hsame : (s.serve r.limits request).1 = s) :
    (t.atBox box (.post t.nextTicket request)).Mirrors scan r ∧
      Posted scan t (t.atBox box (.post t.nextTicket request)) [(box, (s.serve r.limits request).2)] :=
  h.post hbox hs request r.shards (Router.find?_unchanged hs hsame)

end Mirrors

/-! ### Several shards at once -/

lemma lookup_of_nodup {α β : Type} [BEq α] [LawfulBEq α] {l : List (α × β)} (h : (l.map (·.1)).Nodup)
    {a : α} {b : β} (hmem : (a, b) ∈ l) : l.lookup a = some b := by
  obtain ⟨before, after, rfl⟩ := List.append_of_mem hmem
  rw [List.map_append, List.nodup_append] at h
  refine List.lookup_eq_some_iff.2 ⟨before, after, rfl, fun entry hentry => ?_⟩
  refine bne_iff_ne.2 fun heq => ?_
  exact h.2.2 entry.1 (List.mem_map_of_mem hentry) a (by simp) heq.symm

/-- The cached ones among several shards, each with its mailbox. -/
lemma Mirrors.exists_asked (h : t.Mirrors scan r) {keys : List ShardKey} (hkeys : keys.Nodup) :
    ∃ asked : List (Part × Shard),
      (keys.filterMap fun key => (t.boxOf? key).map fun box => ⟨key, box⟩) = asked.map (·.1) ∧
      keys.filterMap r.find? = asked.map (·.2) ∧
      (∀ x ∈ asked, t.boxOf? x.1.key = some x.1.box ∧ r.find? x.1.key = some x.2) ∧
      (asked.map (·.1.box)).Nodup := by
  let asked? (key : ShardKey) : Option (Part × Shard) :=
    (t.boxOf? key).bind fun box => (r.find? key).map fun s => (⟨key, box⟩, s)
  have hasked : ∀ key, ((t.boxOf? key).map fun box => ⟨key, box⟩) = (asked? key).map (·.1) ∧
      r.find? key = (asked? key).map (·.2) ∧ t.boxOf? key = (asked? key).map (·.1.box) := by
    intro key
    rcases h.cached_cases key with ⟨hbox, hs⟩ | ⟨box, s, hbox, hs⟩ <;> simp [asked?, hbox, hs]
  refine ⟨keys.filterMap asked?, ?_, ?_, fun x hx => ?_, ?_⟩
  · rw [List.map_filterMap]
    exact List.filterMap_congr fun key _ => (hasked key).1
  · rw [List.map_filterMap]
    exact List.filterMap_congr fun key _ => (hasked key).2.1
  · obtain ⟨key, -, hx⟩ := List.mem_filterMap.1 hx
    obtain ⟨box, hbox, hx⟩ := Option.bind_eq_some_iff.1 hx
    obtain ⟨s, hs, rfl⟩ := Option.map_eq_some_iff.1 hx
    exact ⟨hbox, hs⟩
  · rw [List.map_filterMap]
    refine hkeys.filterMap fun key key' box hbox hbox' => ?_
    rw [← (hasked key).2.2] at hbox
    rw [← (hasked key').2.2] at hbox'
    exact h.key_unique hbox hbox'

lemma Mirrors.askAll (h : t.Mirrors scan r) (request : Request)
    (hsame : ∀ s : Shard, (s.serve r.limits request).1 = s) {asked : List (Part × Shard)}
    (hasked : ∀ x ∈ asked, t.boxOf? x.1.key = some x.1.box ∧ r.find? x.1.key = some x.2)
    (hboxes : (asked.map (·.1.box)).Nodup) :
    (t.atBoxes (asked.map (·.1.box)) (.post t.nextTicket request)).Mirrors scan r ∧
      Posted scan t (t.atBoxes (asked.map (·.1.box)) (.post t.nextTicket request))
        (asked.map fun x => (x.1.box, (x.2.serve r.limits request).2)) := by
  induction asked generalizing t with
  | nil => exact ⟨h, .refl t⟩
  | cons x asked ih =>
    obtain ⟨hbox, hs⟩ := hasked x List.mem_cons_self
    obtain ⟨hnew, hrest⟩ := List.nodup_cons.1 hboxes
    obtain ⟨hmirrors, hposted⟩ := h.ask hbox hs request (hsame x.2)
    obtain ⟨hmirrors', hposted'⟩ := ih hmirrors (fun y hy => hasked y (List.mem_cons_of_mem x hy)) hrest
    exact ⟨hmirrors', hposted.cons hposted' (by simpa [List.map_map] using hnew)⟩

end TaskIndex.Traffic
