import TaskIndex.Proofs.Router.History

/-!
What a router shows of what is under way.

The clock, the marker, the cached shards and the labels of the mailboxes are the front of a router with
requests under way. Letters and replies do not show there. So the front that a history leads to can be
computed from the front alone, and it is the same as that of a router that serves every request at once: a
mailbox is opened when the other router loads a shard. The scan comes later, but it is one for each mailbox,
and nothing else is scanned.
-/

namespace TaskIndex

structure Label where
  key : ShardKey
  today : Date
  /-- The scan is not finished. -/
  awaited : Bool

def Mailbox.label (m : Mailbox) : Label where
  key := m.key
  today := m.today
  awaited := match m.phase with
    | .loading => true
    | _ => false

lemma Mailbox.awaited_iff {m : Mailbox} : m.label.awaited = true ↔ m.phase = .loading := by
  cases hphase : m.phase <;> simp [label, hphase]

lemma Mailbox.label_step (m : Mailbox) {e : Mailbox.Event} (he : ∀ scanned, e ≠ .loaded scanned) :
    (m.step e).label = m.label := by
  have hawaited : (m.step e).label.awaited = m.label.awaited := by
    rw [Bool.eq_iff_iff, awaited_iff, awaited_iff]
    exact m.loading_step he
  show Label.mk (m.step e).key (m.step e).today _ = Label.mk m.key m.today m.label.awaited
  rw [(m.frame_step e).1, m.today_step e, ← hawaited]
  rfl

structure Front where
  today : Date
  validFor : Date
  closed : Bool
  cached : List (ShardKey × Nat)
  labels : List Label

namespace Front

def keys (f : Front) : List ShardKey := f.cached.map (·.1)

def rollOver (f : Front) : Front :=
  if compare f.validFor f.today = .lt then { f with validFor := f.today, cached := [] } else f

def create (f : Front) (key : ShardKey) : Front :=
  { f with
      cached := f.cached ++ [(key, f.labels.length)]
      labels := f.labels ++ [⟨key, f.today, true⟩] }

def created? (f : Front) (route : Route) : Option ShardKey :=
  if f.closed then none else route.creates? f.keys

def befall (f : Front) : Happening → Front
  | .request (.query actor ps) =>
    (f.rollOver.created? (Route.of actor ps)).elim f.rollOver f.rollOver.create
  | .request (.evict key) => { f with cached := f.cached.filter (·.1 ≠ key) }
  | .request .close => if f.closed then f else { f with closed := true, cached := [] }
  | .event (.load box) => { f with labels := f.labels.modify box ({ · with awaited := false }) }
  | .tick today => { f with today }
  | _ => f

end Front

/-! ### Requests under way -/

namespace Traffic

def front (t : Traffic) : Front where
  today := t.today
  validFor := t.validFor
  closed := t.closed
  cached := t.cached
  labels := t.boxes.toList.map (·.label)

variable {t t' : Traffic} {r : Router} {key : ShardKey} {box : Nat} {h : Happening} {hs : List Happening}

@[simp] lemma after_nil (t : Traffic) : t.after [] = t := rfl

@[simp] lemma after_cons (t : Traffic) (h : Happening) (hs : List Happening) :
    t.after (h :: hs) = (t.befall h).after hs := rfl

lemma getElem?_labels (t : Traffic) (i : Nat) : t.front.labels[i]? = t.boxes[i]?.map (·.label) := by
  rw [front, List.getElem?_map, Array.getElem?_toList]

lemma front_atBox (t : Traffic) (box : Nat) {e : Mailbox.Event} (he : ∀ scanned, e ≠ .loaded scanned) :
    (t.atBox box e).front = t.front := by
  have hlabels : (t.atBox box e).front.labels = t.front.labels := by
    refine List.ext_getElem? fun i => ?_
    rw [getElem?_labels, getElem?_labels, getElem?_atBox]
    split
    · rw [Option.map_map]
      exact congrArg (t.boxes[i]?.map ·) (funext fun m => m.label_step he)
    · rfl
  exact congrArg (Front.mk t.today t.validFor t.closed t.cached) hlabels

lemma front_atBoxes (t : Traffic) (boxes : List Nat) {e : Mailbox.Event}
    (he : ∀ scanned, e ≠ .loaded scanned) : (t.atBoxes boxes e).front = t.front := by
  induction boxes generalizing t with
  | nil => rfl
  | cons box boxes ih => exact (ih (t.atBox box e)).trans (front_atBox t box he)

lemma front_retire (t : Traffic) : t.retire.front = { t.front with cached := [] } :=
  congrArg (fun f : Front => { f with cached := [] })
    (front_atBoxes t (t.cached.map (·.2)) (e := .close) fun _ heq => nomatch heq)

lemma front_rollOver (t : Traffic) : t.rollOver.front = t.front.rollOver := by
  show _ = if compare t.validFor t.today = .lt then _ else _
  unfold Traffic.rollOver
  split
  · exact congrArg (fun f : Front => { f with validFor := t.today }) (front_retire t)
  · rfl

lemma boxOf?_eq_none_iff : t.boxOf? key = none ↔ key ∉ t.front.keys := by
  rw [boxOf?, List.lookup_eq_none_iff, Front.keys, List.mem_map]
  constructor
  · rintro hnone ⟨entry, hentry, rfl⟩
    simpa using hnone entry hentry
  · intro hnone entry hentry
    exact bne_iff_ne.2 fun hkey => hnone ⟨entry, hentry, hkey.symm⟩

lemma front_obtain (t : Traffic) (key : ShardKey) :
    (t.obtain key).1.front = if key ∈ t.front.keys then t.front else t.front.create key := by
  cases hbox : t.boxOf? key with
  | some box =>
    have hmem : key ∈ t.front.keys := by
      by_contra hnone
      rw [boxOf?_eq_none_iff.2 hnone] at hbox
      cases hbox
    rw [obtain_of_boxOf?_some hbox, if_pos hmem]
  | none =>
    rw [obtain_of_boxOf?_none hbox, if_neg (boxOf?_eq_none_iff.1 hbox)]
    simp [front, Front.create, Mailbox.label]

/-! ### Requests -/

lemma front_startPage (t : Traffic) (key : ShardKey) (box : Nat) (ps : List Predicate) :
    (t.startPage key box ps).front = t.front :=
  front_atBox t box (e := .post t.nextTicket (.lookup (withoutTargeting ps))) fun _ heq => nomatch heq

lemma front_startParts (t : Traffic) (today : Date) (keys : SortedSet ShardKey) (ps : List Predicate) :
    (t.startParts today keys ps).front = t.front :=
  front_atBoxes t _ (e := .post t.nextTicket (.filter (filtersOnly ps))) fun _ heq => nomatch heq

lemma front_route (t : Traffic) (today : Date) (actor : Actor) (ps : List Predicate) :
    (t.route today actor ps).front =
      ((Route.of actor ps).creates? t.front.keys).elim t.front t.front.create := by
  unfold route
  generalize Route.of actor ps = route
  cases route with
  | index key =>
    dsimp only [Route.creates?]
    rw [front_startPage, front_obtain]
    split <;> rfl
  | empty => rfl
  | single key =>
    dsimp only
    split
    · exact front_startPage t key _ ps
    · rfl
  | multi keys => exact front_startParts t today keys ps

lemma front_startQuery (t : Traffic) (actor : Actor) (ps : List Predicate) :
    (t.startQuery actor ps).front = t.front.befall (.request (.query actor ps)) := by
  show _ = (t.front.rollOver.created? (Route.of actor ps)).elim t.front.rollOver t.front.rollOver.create
  rw [← front_rollOver]
  unfold startQuery Front.created?
  dsimp only
  rw [show t.rollOver.front.closed = t.rollOver.closed from rfl]
  split
  · rfl
  · exact front_route _ _ actor ps

lemma front_start (t : Traffic) (s : Start) : (t.start s).front = t.front.befall (.request s) := by
  cases s with
  | query actor ps => exact front_startQuery t actor ps
  | notify batch =>
    unfold start
    dsimp only
    split
    · exact front_atBox t _ (e := .post t.nextTicket (.apply batch)) fun _ heq => nomatch heq
    · rfl
  | stats key =>
    unfold start
    dsimp only
    split
    · exact front_atBox t _ (e := .post t.nextTicket .stats) fun _ heq => nomatch heq
    · rfl
  | evict key =>
    unfold start
    dsimp only
    split
    · next box _ =>
      exact congrArg (fun f : Front => { f with cached := t.cached.filter (·.1 ≠ key) })
        (front_atBox t box (e := .close) fun _ heq => nomatch heq)
    · next hnone =>
      have hkept : t.cached.filter (·.1 ≠ key) = t.cached := by
        refine List.filter_eq_self.2 fun entry hentry => decide_eq_true ?_
        rintro rfl
        exact boxOf?_eq_none_iff.1 hnone (List.mem_map_of_mem hentry)
      exact congrArg (fun cached => { t.front with cached }) hkept.symm
  | close =>
    show _ = if t.closed then t.front else _
    unfold start
    dsimp only
    split
    · rfl
    · exact congrArg (fun f : Front => { f with closed := true }) (front_retire t)

/-- A shard is scanned for a mailbox that waits for it, and for no other. -/
lemma load_cases (t : Traffic) (box : Nat) :
    (∃ m, t.boxes[box]? = some m ∧ m.label.awaited = true ∧ t.load box =
      { t with source := (t.source.scan m.key).1 }.atBox box (.loaded (t.source.scan m.key).2)) ∨
    ((∀ m, t.boxes[box]? = some m → m.label.awaited = false) ∧ t.load box = t) := by
  unfold load
  cases t.boxes[box]? with
  | none => exact .inr ⟨fun m hm => (nomatch hm), rfl⟩
  | some m =>
    dsimp only
    cases hphase : m.phase with
    | loading => exact .inl ⟨m, rfl, Mailbox.awaited_iff.2 hphase, rfl⟩
    | serving | closing | draining | stopped =>
      refine .inr ⟨fun m' hm' => ?_, rfl⟩
      obtain rfl := Option.some.inj hm'
      simp [Mailbox.label, hphase]

lemma front_load (t : Traffic) (box : Nat) : (t.load box).front = t.front.befall (.event (.load box)) := by
  have hlabels : (t.load box).front.labels = t.front.labels.modify box ({ · with awaited := false }) := by
    refine List.ext_getElem? fun i => ?_
    rw [List.getElem?_modify, getElem?_labels, getElem?_labels]
    rcases load_cases t box with ⟨m, hm, hawaited, hload⟩ | ⟨hnot, hload⟩
    · rw [hload, getElem?_atBox]
      by_cases hi : box = i
      · subst hi
        have hlabel : (m.step (.loaded (t.source.scan m.key).2)).label = { m.label with awaited := false } := by
          cases hphase : m.phase <;> simp_all [Mailbox.label, Mailbox.step]
        simp [hm, hlabel]
      · simp [hi]
    · rw [hload]
      cases hm : t.boxes[i]? with
      | none => rfl
      | some m =>
        by_cases hi : box = i
        · have hsame : m.label = { m.label with awaited := false } := by
            rw [← hnot m (hi ▸ hm)]
          simp [hi, ← hsame]
        · simp [hi]
  show _ = { t.front with labels := t.front.labels.modify box ({ · with awaited := false }) }
  rw [← hlabels]
  rcases load_cases t box with ⟨m, -, -, hload⟩ | ⟨-, hload⟩
  · rw [hload]
    rfl
  · rw [hload]

/-- The front goes its own way. -/
lemma front_befall (t : Traffic) (h : Happening) : (t.befall h).front = t.front.befall h := by
  match h with
  | .request s => exact front_start t s
  | .event (.load box) => exact front_load t box
  | .event (.work box) => exact front_atBox t box (e := .work) fun _ heq => nomatch heq
  | .event (.collect call) =>
    show (t.collect call).front = t.front
    unfold collect
    split
    · split <;> rfl
    · rfl
  | .event .merge | .tick _ | .restock _ _ _ => rfl

end Traffic

/-! ### Two routers, one front -/

structure Front.Of (f : Front) (r : Router) : Prop where
  today : f.today = r.today
  validFor : f.validFor = r.validFor
  closed : f.closed = r.closed
  keys : f.keys = r.keys

namespace Front

variable {f : Front} {r : Router}

lemma labels_rollOver (f : Front) : f.rollOver.labels = f.labels := by
  unfold Front.rollOver
  split <;> rfl

lemma elim_create (f : Front) (created : Option ShardKey) :
    (created.elim f f.create).today = f.today ∧ (created.elim f f.create).validFor = f.validFor ∧
      (created.elim f f.create).closed = f.closed ∧
      (created.elim f f.create).keys = f.keys ++ created.toList ∧
      (created.elim f f.create).labels = f.labels ++ (created.map (⟨·, f.today, true⟩)).toList := by
  cases created with
  | none => exact ⟨rfl, rfl, rfl, (List.append_nil _).symm, (List.append_nil _).symm⟩
  | some key => exact ⟨rfl, rfl, rfl, List.map_append, rfl⟩

lemma Of.rollOver (h : f.Of r) : f.rollOver.Of r.rollOver := by
  unfold Front.rollOver Router.rollOver
  rw [h.validFor, h.today]
  split
  · exact ⟨rfl, rfl, h.closed, rfl⟩
  · exact h

lemma Of.created? (h : f.Of r) (actor : Actor) (ps : List Predicate) :
    f.rollOver.created? (Route.of actor ps) =
      Happening.creates? r.rollOver.keys r.closed (.request (.query actor ps)) := by
  have hday := h.rollOver
  rw [Front.created?, hday.keys, hday.closed, (Router.frame_rollOver r).2.2]
  rfl

lemma Of.query (h : f.Of r) (actor : Actor) (ps : List Predicate) :
    (f.befall (.request (.query actor ps))).Of (r.query actor ps).1 := by
  obtain ⟨htoday, hvalidFor, hclosed, hkeys⟩ := h.rollOver
  obtain ⟨htoday', hvalidFor', hclosed', hkeys', -⟩ := f.rollOver.elim_create
    (Happening.creates? r.rollOver.keys r.closed (.request (.query actor ps)))
  obtain ⟨hrtoday, hrvalidFor, hrclosed⟩ := r.frame_query actor ps
  show ((f.rollOver.created? (Route.of actor ps)).elim f.rollOver f.rollOver.create).Of _
  rw [h.created?]
  refine ⟨?_, ?_, ?_, ?_⟩
  · rw [htoday', htoday, hrtoday]
  · rw [hvalidFor', hvalidFor, hrvalidFor]
  · rw [hclosed', hclosed, hrclosed]
  · rw [hkeys', hkeys, (r.query_creates actor ps).1]

/-- **One front**: what is under way makes no difference to what is cached, to the clock and to the
marker. -/
lemma Of.befall (hr : r.Reachable) (hf : f.Of r) (h : Happening) : (f.befall h).Of (r.befall h) := by
  match h with
  | .request (.query actor ps) => exact hf.query actor ps
  | .request (.notify batch) =>
    obtain ⟨shards, hstate, hkeys⟩ := r.frame_notify batch
    have hbefall : r.befall (.request (.notify batch)) = { r with shards } := hstate
    rw [hbefall]
    exact ⟨hf.today, hf.validFor, hf.closed, hf.keys.trans hkeys.symm⟩
  | .request (.evict key) =>
    have hkeys : (f.cached.filter (·.1 ≠ key)).map (·.1) = (r.shards.filter (·.key ≠ key)).map (·.key) := by
      have hmap := congrArg (List.filter (· ≠ key)) hf.keys
      simpa [Front.keys, Router.keys, List.filter_map, Function.comp_def] using hmap
    exact ⟨hf.today, hf.validFor, hf.closed, hkeys⟩
  | .request .close =>
    show (if f.closed then f else { f with closed := true, cached := [] }).Of r.close
    split
    · next hclosed =>
      -- a closed router has nothing left that could be dropped
      have hempty : r.shards = [] := hr.shards_of_closed (hf.closed.symm.trans hclosed)
      refine ⟨hf.today, hf.validFor, hclosed, ?_⟩
      rw [hf.keys, Router.keys, hempty]
      rfl
    · exact ⟨hf.today, hf.validFor, rfl, rfl⟩
  | .tick today => exact ⟨rfl, hf.validFor, hf.closed, hf.keys⟩
  | .restock store offline further => exact ⟨hf.today, hf.validFor, hf.closed, hf.keys⟩
  | .event (.load box) => exact ⟨hf.today, hf.validFor, hf.closed, hf.keys⟩
  | .request (.stats _) | .event (.work _) | .event (.collect _) | .event .merge => exact hf

/-! ### Mailboxes -/

def opened (f : Front) : List ShardKey := f.labels.map (·.key)

def scanned (f : Front) : List ShardKey := (f.labels.filter (!·.awaited)).map (·.key)

lemma Of.opened_befall (hf : f.Of r) (h : Happening) :
    (f.befall h).opened = f.opened ++ (h.creates? (r.checked h).keys r.closed).toList := by
  match h with
  | .request (.query actor ps) =>
    show ((f.rollOver.created? (Route.of actor ps)).elim f.rollOver f.rollOver.create).labels.map _ = _
    rw [hf.created?, (f.rollOver.elim_create _).2.2.2.2, labels_rollOver, List.map_append, Router.checked_query]
    cases Happening.creates? r.rollOver.keys r.closed (.request (.query actor ps)) <;> rfl
  | .event (.load box) =>
    refine Eq.trans ?_ (List.append_nil _).symm
    show (f.labels.modify box _).map _ = _
    refine List.ext_getElem? fun i => ?_
    rw [opened, List.getElem?_map, List.getElem?_map, List.getElem?_modify]
    by_cases hi : box = i <;> cases f.labels[i]? <;> simp [hi]
  | .request .close =>
    refine Eq.trans ?_ (List.append_nil _).symm
    show (if f.closed then f else { f with closed := true, cached := [] }).opened = _
    split <;> rfl
  | .request (.notify _) | .request (.stats _) | .request (.evict _) | .event (.work _)
  | .event (.collect _) | .event .merge | .tick _ | .restock _ _ _ => exact (List.append_nil _).symm

lemma scanned_load {l : Label} {box : Nat} (hl : f.labels[box]? = some l) (hawaited : l.awaited = true) :
    (f.befall (.event (.load box))).scanned.Perm (l.key :: f.scanned) := by
  have hbox : box < f.labels.length := (List.getElem?_eq_some_iff.1 hl).1
  obtain ⟨before, l', later, hsplit, rfl, hmodify⟩ :=
    List.exists_of_modify (fun l : Label => { l with awaited := false }) hbox
  obtain rfl : l' = l := by
    rw [hsplit, List.getElem?_append_right (Nat.le_refl _), Nat.sub_self] at hl
    exact Option.some.inj hl
  show (((f.labels.modify before.length _).filter (!·.awaited)).map (·.key)).Perm _
  rw [hmodify, scanned, hsplit]
  simp [hawaited]

/-- A mailbox that is opened is awaited, and no mailbox is ever taken away. -/
lemma scanned_befall (f : Front) {h : Happening} (hnot : ∀ box, h ≠ .event (.load box)) :
    (f.befall h).scanned = f.scanned := by
  match h with
  | .request (.query actor ps) =>
    show ((f.rollOver.created? (Route.of actor ps)).elim f.rollOver f.rollOver.create).scanned = _
    rw [scanned, (f.rollOver.elim_create _).2.2.2.2, labels_rollOver]
    cases f.rollOver.created? (Route.of actor ps) <;> simp [scanned]
  | .event (.load box) => exact absurd rfl (hnot box)
  | .request .close =>
    show (if f.closed then f else { f with closed := true, cached := [] }).scanned = _
    split <;> rfl
  | .request (.notify _) | .request (.stats _) | .request (.evict _) | .event (.work _)
  | .event (.collect _) | .event .merge | .tick _ | .restock _ _ _ => rfl

end Front

namespace Traffic

variable {t : Traffic} {r : Router} {earlier : List ShardKey}

/-- Besides the earlier scans there is one for each mailbox that is awaited no longer. -/
lemma scans_befall (ht : t.source.scans.Perm (t.front.scanned ++ earlier))
    (h : Happening) : (t.befall h).source.scans.Perm ((t.befall h).front.scanned ++ earlier) := by
  have hother : (∀ box, h ≠ .event (.load box)) → (t.befall h).source.scans = t.source.scans →
      (t.befall h).source.scans.Perm ((t.befall h).front.scanned ++ earlier) := by
    intro hnot hscans
    rwa [hscans, front_befall, t.front.scanned_befall hnot]
  match h with
  | .event (.load box) =>
    rcases load_cases t box with ⟨m, hm, hawaited, hload⟩ | ⟨-, hload⟩
    · have hscans : (t.load box).source.scans = m.key :: t.source.scans := by
        rw [hload]
        exact congrArg (List.map (·.shard)) (t.source.log_scan m.key)
      have hlabel : t.front.labels[box]? = some m.label := by rw [getElem?_labels, hm, Option.map_some]
      calc (t.load box).source.scans
        _ = m.key :: t.source.scans := hscans
        _ |>.Perm (m.key :: (t.front.scanned ++ earlier)) := ht.cons m.key
        _ |>.Perm ((t.front.befall (.event (.load box))).scanned ++ earlier) :=
          ((Front.scanned_load hlabel hawaited).append_right earlier).symm
        _ = (t.load box).front.scanned ++ earlier := by rw [front_load]
    · show (t.load box).source.scans.Perm ((t.load box).front.scanned ++ earlier)
      rwa [hload]
  | .request s => exact hother (fun _ heq => nomatch heq) (congrArg Source.scans (source_start t s))
  | .event (.collect call) =>
    refine hother (fun _ heq => nomatch heq) (congrArg Source.scans ?_)
    show (t.collect call).source = t.source
    unfold collect
    split
    · split <;> rfl
    · rfl
  | .event (.work _) | .event .merge | .tick _ | .restock _ _ _ =>
    exact hother (fun _ heq => nomatch heq) rfl

/-! ### Histories -/

/-- The front after a history is that of the router that serves every request at once. -/
lemma front_after (hr : r.Reachable) (h : t.front.Of r) (hs : List Happening) :
    (t.after hs).front.Of (r.after hs) := by
  induction hs generalizing t r with
  | nil => exact h
  | cons happening hs ih =>
    refine ih (hr.befall happening) ?_
    rw [front_befall]
    exact h.befall hr happening

lemma scans_after (ht : t.source.scans.Perm (t.front.scanned ++ earlier))
    (hs : List Happening) : (t.after hs).source.scans.Perm ((t.after hs).front.scanned ++ earlier) := by
  induction hs generalizing t with
  | nil => exact ht
  | cons h hs ih => exact ih (scans_befall ht h)

end Traffic

end TaskIndex
