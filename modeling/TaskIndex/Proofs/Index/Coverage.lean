import TaskIndex.Proofs.Index.Bucket
import TaskIndex.Proofs.Index.Facet

/-!
Tags that cover a change.

Whatever a tag moves, it moves to where the new task belongs: after the moves of any tag, a facet that
the tag speaks of holds the id exactly when the new task carries the facet. So tags may come in any
order and number, and it only matters that every facet in which the two tasks differ is spoken of by
one of them.
-/

namespace TaskIndex

namespace Move

/-- The moves leave the id behind a facet they speak of exactly when the task carries it. -/
def Settle (today : Date) (after : Task) (ms : List Move) : Prop :=
  ∀ f b, outcome? f ms = some b → (b = true ↔ f ∈ after.facets today)

variable {today : Date} {before after : Task} {ms ns : List Move}

lemma settle_nil : Settle today after [] := fun _ _ h => by cases h

lemma Settle.append (hm : Settle today after ms) (hn : Settle today after ns) :
    Settle today after (ms ++ ns) := by
  intro f b h
  rw [outcome?_append] at h
  cases hf : outcome? f ns with
  | some c =>
    rw [hf] at h
    obtain rfl : c = b := by simpa using h
    exact hn f c hf
  | none =>
    rw [hf, Option.none_or] at h
    exact hm f b h

lemma settle_leave {l : List Facet} (h : ∀ f ∈ l, f ∉ after.facets today) :
    Settle today after (l.map leave) := by
  intro f b hb
  rw [outcome?_map_leave] at hb
  split at hb
  · next hf =>
    obtain rfl : false = b := by simpa using hb
    simpa using h f hf
  · cases hb

lemma settle_enter {l : List Facet} (h : ∀ f ∈ l, f ∈ after.facets today) :
    Settle today after (l.map enter) := by
  intro f b hb
  rw [outcome?_map_enter] at hb
  split at hb
  · next hf =>
    obtain rfl : true = b := by simpa using hb
    simpa using h f hf
  · cases hb

lemma settle_shift {f g : Facet} (hg : g ∈ after.facets today)
    (hf : f ≠ g → f ∉ after.facets today) : Settle today after (shift f g) := by
  unfold shift
  split
  · exact settle_nil
  · next hne =>
    exact (settle_leave (l := [f]) (by simpa using hf hne)).append
      (settle_enter (l := [g]) (by simpa using hg))

lemma settle_reindex (today : Date) (before after : Task) :
    Settle today after ((before.facets today).map leave ++ (after.facets today).map enter) := by
  intro f b h
  rw [outcome?_append, outcome?_map_enter, outcome?_map_leave] at h
  by_cases ha : f ∈ after.facets today
  · simp [ha] at h ⊢; exact h
  · simp [ha] at h ⊢; exact h.2

lemma settle_dropped {facet : String → Facet} (names : Task → SortedSet String)
    (hfacet : ∀ name (t : Task), facet name ∈ t.facets today ↔ name ∈ names t) :
    Settle today after (dropped facet (names before) (names after)) := by
  have h : dropped facet (names before) (names after) =
      (((names before).diff (names after)).toList.map facet).map leave := by
    simp [dropped]
  rw [h]
  refine settle_leave ?_
  simp only [List.mem_map, ← SortedSet.mem_def, SortedSet.mem_diff]
  rintro f ⟨name, ⟨-, hgone⟩, rfl⟩
  rwa [hfacet]

lemma settle_exchanged {facet : String → Facet} (names : Task → SortedSet String)
    (hfacet : ∀ name (t : Task), facet name ∈ t.facets today ↔ name ∈ names t) :
    Settle today after (exchanged facet (names before) (names after)) := by
  have h : exchanged facet (names before) (names after) =
      dropped facet (names before) (names after) ++
        (((names after).diff (names before)).toList.map facet).map enter := by
    simp [exchanged]
  rw [h]
  refine (settle_dropped names hfacet).append (settle_enter ?_)
  simp only [List.mem_map, ← SortedSet.mem_def, SortedSet.mem_diff]
  rintro f ⟨name, ⟨hnew, -⟩, rfl⟩
  rwa [hfacet]

end Move

/-- **Truthful tags**: the moves of a tag settle every facet that they speak of. -/
theorem Tag.settle_moves (today : Date) (before after : Task) (tag : Tag) :
    Move.Settle today after (tag.moves today before after) := by
  cases tag with
  | created => exact Move.settle_reindex today before after
  | temperature =>
    refine Move.settle_shift (Facet.temperature_mem.2 rfl) fun hne hmem => ?_
    exact hne (Facet.temperature_mem.1 hmem).symm
  | resolved | absolved | dissolved =>
    have hstatus : Move.Settle today after
        (Move.shift (.status before.status) (.status after.status)) :=
      Move.settle_shift (by simp) fun hne hmem => hne (by rw [Facet.status_mem.1 hmem])
    have hleft : Move.Settle today after (if before.solver ≠ after.solver then
        before.solver.toList.map fun s => .leave (.solver s) else []) := by
      split
      · next hne =>
        rw [show (before.solver.toList.map fun s => Move.leave (.solver s)) =
          (before.solver.toList.map Facet.solver).map .leave by rw [List.map_map]; rfl]
        refine Move.settle_leave fun f hf hmem => ?_
        obtain ⟨s, hs, rfl⟩ := List.mem_map.1 hf
        rw [Facet.solver_mem] at hmem
        exact hne ((Option.mem_toList.1 hs).trans hmem.symm)
      · exact Move.settle_nil
    have hcame : Move.Settle today after (after.solver.toList.map fun s => .enter (.solver s)) := by
      rw [show (after.solver.toList.map fun s => Move.enter (.solver s)) =
        (after.solver.toList.map Facet.solver).map .enter by rw [List.map_map]; rfl]
      refine Move.settle_enter fun f hf => ?_
      obtain ⟨s, hs, rfl⟩ := List.mem_map.1 hf
      exact Facet.solver_mem.2 (Option.mem_toList.1 hs)
    exact (((hstatus.append hleft).append hcame).append
      (Move.settle_dropped Task.participants fun _ _ => Facet.participant_mem)).append
      (Move.settle_dropped Task.aspirants fun _ _ => Facet.aspirant_mem)
  | area => exact Move.settle_shift (by simp) fun hne hmem => hne (by rw [Facet.area_mem.1 hmem])
  | version =>
    exact Move.settle_shift (by simp) fun hne hmem => hne (by rw [Facet.version_mem.1 hmem])
  | membership =>
    exact ((Move.settle_exchanged Task.participants fun _ _ => Facet.participant_mem).append
      (Move.settle_exchanged Task.aspirants fun _ _ => Facet.aspirant_mem)).append
      (Move.settle_exchanged Task.watchers fun _ _ => Facet.watcher_mem)
  | archived => exact Move.settle_nil

lemma Operation.settle_moves (today : Date) (before after : Task) (o : Operation) :
    Move.Settle today after (o.moves today before after) := by
  cases o with
  | known tag => exact tag.settle_moves today before after
  | unrecognized => exact Move.settle_nil

lemma settle_flatMap (today : Date) (before after : Task) (ops : List Operation) :
    Move.Settle today after (ops.flatMap (·.moves today before after)) := by
  induction ops with
  | nil => exact Move.settle_nil
  | cons o ops ih =>
    rw [List.flatMap_cons]
    exact (o.settle_moves today before after).append ih

/-! ### Which tags cover a change -/

def Closing (ops : List Operation) : Prop :=
  .known .resolved ∈ ops ∨ .known .absolved ∈ ops ∨ .known .dissolved ∈ ops

/-- Each difference between two tasks that can be looked up on a day has a tag that speaks of it. -/
structure CoveredPart (today : Date) (before after : Task) (ops : List Operation) : Prop where
  area : before.area ≠ after.area → .known .area ∈ ops
  version : before.version ≠ after.version → .known .version ∈ ops
  status : before.status ≠ after.status → Closing ops
  solver : before.solver ≠ after.solver → Closing ops
  participantLeft : ∀ name ∈ before.participants, name ∉ after.participants →
    Closing ops ∨ .known .membership ∈ ops
  aspirantLeft : ∀ name ∈ before.aspirants, name ∉ after.aspirants →
    Closing ops ∨ .known .membership ∈ ops
  participantJoined : ∀ name ∈ after.participants, name ∉ before.participants →
    .known .membership ∈ ops
  aspirantJoined : ∀ name ∈ after.aspirants, name ∉ before.aspirants → .known .membership ∈ ops
  watchers : before.watchers ≠ after.watchers → .known .membership ∈ ops
  temperature : before.temperature today ≠ after.temperature today → .known .temperature ∈ ops
  reporter : before.reporter = after.reporter
  motive : before.motive = after.motive
  purpose : before.purpose = after.purpose
  predecessor : before.predecessor = after.predecessor
  origin : before.origin = after.origin
  serial : before.serial = after.serial

/-- The operations cover the change of a task: one of them is its creation, which covers anything, or
each difference has its tag. -/
def Covered (today : Date) (before after : Task) (ops : List Operation) : Prop :=
  .known .created ∈ ops ∨ CoveredPart today before after ops

namespace Move

def Speaks (f : Facet) (ms : List Move) : Prop := ∃ m ∈ ms, m.facet = f

variable {today : Date} {before after : Task} {f : Facet}

lemma outcome?_isSome_of_speaks {ms : List Move} (h : Speaks f ms) : (outcome? f ms).isSome := by
  obtain ⟨m, hm, rfl⟩ := h
  induction ms with
  | nil => cases hm
  | cons n ms ih =>
    rcases List.mem_cons.1 hm with rfl | hm
    · cases h : outcome? m.facet ms <;> simp [outcome?, h]
    · simp [outcome?, Option.isSome_or, ih hm]

lemma speaks_shift {g g' : Facet} (h : ¬(f = g ↔ f = g')) : Speaks f (shift g g') := by
  have hne : g ≠ g' := by rintro rfl; exact h Iff.rfl
  rw [shift, if_neg hne]
  by_cases hg : f = g
  · exact ⟨leave f, by simp [hg], rfl⟩
  · have hg' : f = g' := by by_contra hg'; exact h ⟨fun hf => absurd hf hg, fun hf => absurd hf hg'⟩
    exact ⟨enter f, by simp [hg'], rfl⟩

lemma speaks_dropped {facet : String → Facet} {s t : SortedSet String} {name : String}
    (hs : name ∈ s) (ht : name ∉ t) : Speaks (facet name) (dropped facet s t) :=
  ⟨leave (facet name), List.mem_map_of_mem (SortedSet.mem_diff.2 ⟨hs, ht⟩), rfl⟩

lemma speaks_exchanged {facet : String → Facet} {s t : SortedSet String} {name : String}
    (h : ¬(name ∈ s ↔ name ∈ t)) : Speaks (facet name) (exchanged facet s t) := by
  by_cases hs : name ∈ s
  · have ht : name ∉ t := fun ht => h ⟨fun _ => ht, fun _ => hs⟩
    obtain ⟨m, hm, hf⟩ : Speaks (facet name) (dropped facet s t) := speaks_dropped hs ht
    exact ⟨m, List.mem_append_left _ hm, hf⟩
  · have ht : name ∈ t := by by_contra ht; exact h ⟨fun hs' => absurd hs' hs, fun ht' => absurd ht' ht⟩
    exact ⟨enter (facet name),
      List.mem_append_right _ (List.mem_map_of_mem (SortedSet.mem_diff.2 ⟨ht, hs⟩)), rfl⟩

lemma Speaks.append_left {ms : List Move} (ns : List Move) (h : Speaks f ms) : Speaks f (ms ++ ns) := by
  obtain ⟨m, hm, hf⟩ := h
  exact ⟨m, List.mem_append_left ns hm, hf⟩

lemma Speaks.append_right (ms : List Move) {ns : List Move} (h : Speaks f ns) :
    Speaks f (ms ++ ns) := by
  obtain ⟨m, hm, hf⟩ := h
  exact ⟨m, List.mem_append_right ms hm, hf⟩

lemma Speaks.flatMap {ops : List Operation} {tag : Tag} (htag : .known tag ∈ ops)
    (h : Speaks f (tag.moves today before after)) :
    Speaks f (ops.flatMap (·.moves today before after)) := by
  obtain ⟨m, hm, hf⟩ := h
  exact ⟨m, List.mem_flatMap.2 ⟨_, htag, hm⟩, hf⟩

/-- What one closing tag speaks of, each of them does. -/
lemma Speaks.of_closing {ops : List Operation} (hops : Closing ops)
    (h : Speaks f (Tag.resolved.moves today before after)) :
    Speaks f (ops.flatMap (·.moves today before after)) := by
  rcases hops with htag | htag | htag
  · exact h.flatMap htag
  · have habsolved : Speaks f (Tag.absolved.moves today before after) := h
    exact habsolved.flatMap htag
  · have hdissolved : Speaks f (Tag.dissolved.moves today before after) := h
    exact hdissolved.flatMap htag

lemma speaks_resolved_status (h : ¬(f = .status before.status ↔ f = .status after.status)) :
    Speaks f (Tag.resolved.moves today before after) :=
  ((((speaks_shift h).append_left _).append_left _).append_left _).append_left _

lemma speaks_resolved_solver {name : String}
    (h : ¬(before.solver = some name ↔ after.solver = some name)) :
    Speaks (.solver name) (Tag.resolved.moves today before after) := by
  by_cases hs : after.solver = some name
  · refine (Speaks.append_left _ (Speaks.append_left _ (Speaks.append_right _ ?_)))
    exact ⟨enter (.solver name), by simp [hs], rfl⟩
  · have hb : before.solver = some name := by
      by_contra hb
      exact h ⟨fun h' => absurd h' hb, fun h' => absurd h' hs⟩
    have hne : before.solver ≠ after.solver := by rw [hb]; exact Ne.symm hs
    refine Speaks.append_left _ (Speaks.append_left _ (Speaks.append_left _
      (Speaks.append_right _ ?_)))
    rw [if_pos hne]
    exact ⟨leave (.solver name), by simp [hb], rfl⟩

lemma Speaks.of_names {ops : List Operation} {facet : String → Facet} {s t : SortedSet String}
    {name : String} (hdiff : ¬(name ∈ s ↔ name ∈ t))
    (hleft : name ∈ s → name ∉ t → Closing ops ∨ .known .membership ∈ ops)
    (hjoined : name ∈ t → name ∉ s → .known .membership ∈ ops)
    (hclosing : Speaks (facet name) (dropped facet s t) →
      Speaks (facet name) (Tag.resolved.moves today before after))
    (hmembership : Speaks (facet name) (exchanged facet s t) →
      Speaks (facet name) (Tag.membership.moves today before after)) :
    Speaks (facet name) (ops.flatMap (·.moves today before after)) := by
  have hmoves := hmembership (speaks_exchanged hdiff)
  by_cases hs : name ∈ s
  · have ht : name ∉ t := fun ht => hdiff ⟨fun _ => ht, fun _ => hs⟩
    rcases hleft hs ht with hops | htag
    · exact .of_closing hops (hclosing (speaks_dropped hs ht))
    · exact hmoves.flatMap htag
  · have ht : name ∈ t := by
      by_contra ht
      exact hdiff ⟨fun h => absurd h hs, fun h => absurd h ht⟩
    exact hmoves.flatMap (hjoined ht hs)

end Move

variable {today : Date} {before after : Task} {ops : List Operation} {f : Facet}

/-- Tags that cover a change leave no facet out in which the two tasks differ. -/
lemma Covered.speaks (h : Covered today before after ops)
    (hdiff : ¬(f ∈ before.facets today ↔ f ∈ after.facets today)) :
    Move.Speaks f (ops.flatMap (·.moves today before after)) := by
  rcases h with hcreated | h
  · refine Move.Speaks.flatMap hcreated ?_
    by_cases hb : f ∈ before.facets today
    · exact .append_left _ ⟨.leave f, List.mem_map_of_mem hb, rfl⟩
    · have ha : f ∈ after.facets today := by
        by_contra ha
        exact hdiff ⟨fun h' => absurd h' hb, fun h' => absurd h' ha⟩
      exact .append_right _ ⟨.enter f, List.mem_map_of_mem ha, rfl⟩
  have hindexed : f.isIndexed = true := by
    by_contra hf
    exact hdiff ⟨fun h' => absurd (Facet.isIndexed_of_mem h') hf,
      fun h' => absurd (Facet.isIndexed_of_mem h') hf⟩
  -- a family that no tag but `created` speaks of cannot differ at all
  have hsame : (before.field today f.property).equals f.operand =
      (after.field today f.property).equals f.operand → False := fun heq =>
    hdiff (by rw [Facet.mem_facets, Facet.mem_facets, heq])
  cases Facet.family_of_isIndexed hindexed with
  | area =>
    rw [Facet.area_mem, Facet.area_mem] at hdiff
    refine (Move.speaks_shift ?_).flatMap (h.area fun heq => hdiff (by rw [heq]))
    simpa [Facet.area, eq_comm] using hdiff
  | version =>
    rw [Facet.version_mem, Facet.version_mem] at hdiff
    refine (Move.speaks_shift ?_).flatMap (h.version fun heq => hdiff (by rw [heq]))
    simpa [Facet.version, eq_comm] using hdiff
  | solver =>
    rw [Facet.solver_mem, Facet.solver_mem] at hdiff
    exact .of_closing (h.solver fun heq => hdiff (by rw [heq])) (Move.speaks_resolved_solver hdiff)
  | participant name =>
    rw [Facet.participant_mem, Facet.participant_mem] at hdiff
    exact .of_names hdiff (h.participantLeft name) (h.participantJoined name)
      (fun hs => (hs.append_right _).append_left _) fun hs => (hs.append_left _).append_left _
  | aspirant name =>
    rw [Facet.aspirant_mem, Facet.aspirant_mem] at hdiff
    exact .of_names hdiff (h.aspirantLeft name) (h.aspirantJoined name)
      (fun hs => hs.append_right _) fun hs => (hs.append_right _).append_left _
  | watcher =>
    rw [Facet.watcher_mem, Facet.watcher_mem] at hdiff
    exact ((Move.speaks_exchanged hdiff).append_right _).flatMap
      (h.watchers fun heq => hdiff (by rw [heq]))
  | temperature =>
    rw [Facet.temperature_mem, Facet.temperature_mem] at hdiff
    refine (Move.speaks_shift ?_).flatMap (h.temperature fun heq => hdiff (by rw [heq]))
    simpa [eq_comm] using hdiff
  | status =>
    rw [Facet.status_mem, Facet.status_mem] at hdiff
    refine .of_closing (h.status fun heq => hdiff (by rw [heq])) (Move.speaks_resolved_status ?_)
    simpa [Facet.status, eq_comm] using hdiff
  | reporter => exact (hsame (by simp [Facet.reporter, Task.field, h.reporter])).elim
  | motive => exact (hsame (by simp [Facet.motive, Task.field, h.motive])).elim
  | purpose => exact (hsame (by simp [Facet.purpose, Task.field, h.purpose])).elim
  | predecessor => exact (hsame (by simp [Task.field, h.predecessor])).elim
  | origin => exact (hsame (by simp [Task.field, h.origin])).elim
  | serial => exact (hsame (by simp [Task.field, h.serial])).elim

end TaskIndex
