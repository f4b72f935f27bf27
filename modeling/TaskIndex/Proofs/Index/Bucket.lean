import Std.Data.HashMap.Lemmas
import TaskIndex.Index.Change
import TaskIndex.Proofs.IdSet

/-!
The buckets of an index under moves.

A move touches the bucket of its facet and nothing else. Carrying out a list of moves of one id leaves
that id behind a facet as the last move that speaks of the facet says, and every other id where it is.
-/

namespace TaskIndex

namespace Move

def facet : Move → Facet
  | leave f | enter f => f

def enters : Move → Bool
  | leave _ => false
  | enter _ => true

/-- Where the last move that speaks of a facet leaves the id: behind it or not. -/
def outcome? (f : Facet) : List Move → Option Bool
  | [] => none
  | m :: ms => (outcome? f ms).or (if m.facet = f then some m.enters else none)

@[simp] lemma outcome?_nil (f : Facet) : outcome? f [] = none := rfl

lemma outcome?_append (f : Facet) (ms ns : List Move) :
    outcome? f (ms ++ ns) = (outcome? f ns).or (outcome? f ms) := by
  induction ms with
  | nil => simp
  | cons m ms ih => rw [List.cons_append, outcome?, ih, outcome?, Option.or_assoc]

lemma outcome?_map {k : Facet → Move} {b : Bool}
    (h : ∀ f, (k f).facet = f ∧ (k f).enters = b) (f : Facet) (l : List Facet) :
    outcome? f (l.map k) = if f ∈ l then some b else none := by
  induction l with
  | nil => rfl
  | cons g l ih =>
    rw [List.map_cons, outcome?, ih, (h g).1, (h g).2]
    by_cases hl : f ∈ l
    · simp [hl]
    · by_cases hg : g = f
      · simp [hl, hg]
      · simp [hl, hg, Ne.symm hg]

lemma outcome?_map_leave (f : Facet) (l : List Facet) :
    outcome? f (l.map leave) = if f ∈ l then some false else none :=
  outcome?_map (k := leave) (fun _ => ⟨rfl, rfl⟩) f l

lemma outcome?_map_enter (f : Facet) (l : List Facet) :
    outcome? f (l.map enter) = if f ∈ l then some true else none :=
  outcome?_map (k := enter) (fun _ => ⟨rfl, rfl⟩) f l

end Move

namespace Index

variable {id x : TaskId} {idx : Index} {f g : Facet}

/-! ### One move -/

lemma bucket_enterNew : (idx.enterNew id f).bucket g =
    if f = g then (idx.bucket f).init id else idx.bucket g := by
  simp only [bucket, enterNew, Std.HashMap.getD_alter]
  by_cases h : f = g <;> simp [h, Std.HashMap.getD_eq_getD_getElem?]

lemma bucket_enter : (idx.enter id f).bucket g =
    if f = g then ((idx.bucket f).add id).1 else idx.bucket g := by
  simp only [bucket, enter, Std.HashMap.getD_alter]
  by_cases h : f = g <;> simp [h, Std.HashMap.getD_eq_getD_getElem?]

lemma remove_empty (id : TaskId) : ((∅ : IdSet).remove id).1 = ∅ := by
  rcases IdSet.sound_empty.remove_cases id with ⟨-, h⟩ | ⟨h, -⟩
  · rw [h]
  · exact absurd h (IdSet.not_mem_empty id)

lemma bucket_leave : (idx.leave id f).bucket g =
    if f = g then ((idx.bucket f).remove id).1 else idx.bucket g := by
  simp only [bucket, leave, Std.HashMap.getD_modify]
  by_cases h : f = g
  · subst h
    rw [Std.HashMap.getD_eq_getD_getElem?]
    cases idx.buckets[f]? <;> simp [remove_empty]
  · simp [h]

/-- What a move does to a bucket: it stays sound, and the id is in it afterwards as the move says. -/
lemma bucket_move (hs : ∀ f, (idx.bucket f).Sound) (hid : id ≠ 0) (m : Move) (f : Facet) :
    ((idx.move id m).bucket f).Sound ∧ ∀ x, x ∈ (idx.move id m).bucket f ↔
      if m.facet = f ∧ x = id then m.enters = true else x ∈ idx.bucket f := by
  cases m with
  | leave g =>
    simp only [move, bucket_leave, Move.facet, Move.enters]
    by_cases h : g = f
    · subst h
      refine ⟨by simpa using (hs g).remove id, fun x => ?_⟩
      simp only [if_true, (hs g).mem_remove]
      by_cases hx : x = id <;> simp [hx]
    · simpa [h] using hs f
  | enter g =>
    simp only [move, bucket_enter, Move.facet, Move.enters]
    by_cases h : g = f
    · subst h
      refine ⟨by simpa using (hs g).add id, fun x => ?_⟩
      simp only [if_true, (hs g).mem_add hid]
      by_cases hx : x = id <;> simp [hx]
    · simpa [h] using hs f

/-! ### Many moves -/

lemma frame_moves (id : TaskId) (ms : List Move) (idx : Index) :
    (ms.foldl (move id) idx).shard = idx.shard ∧ (ms.foldl (move id) idx).today = idx.today ∧
      (ms.foldl (move id) idx).slots = idx.slots := by
  induction ms generalizing idx with
  | nil => exact ⟨rfl, rfl, rfl⟩
  | cons m ms ih =>
    obtain ⟨h1, h2, h3⟩ := ih (idx.move id m)
    rw [List.foldl_cons, h1, h2, h3]
    cases m <;> exact ⟨rfl, rfl, rfl⟩

/-- **The last move counts**: after a list of moves the id is behind a facet as the last move that
speaks of the facet says, and behind the others as before. -/
theorem bucket_moves (hs : ∀ f, (idx.bucket f).Sound) (hid : id ≠ 0) (ms : List Move) (f : Facet) :
    ((ms.foldl (move id) idx).bucket f).Sound ∧ ∀ x, x ∈ (ms.foldl (move id) idx).bucket f ↔
      if x = id then (Move.outcome? f ms).elim (id ∈ idx.bucket f) (· = true)
      else x ∈ idx.bucket f := by
  induction ms generalizing idx with
  | nil => exact ⟨hs f, fun x => by by_cases hx : x = id <;> simp [hx]⟩
  | cons m ms ih =>
    obtain ⟨hsound, hmem⟩ := ih fun g => (bucket_move hs hid m g).1
    refine ⟨hsound, fun x => (hmem x).trans ?_⟩
    have hm := (bucket_move hs hid m f).2
    by_cases hx : x = id
    · simp only [hx, if_true, Move.outcome?]
      cases Move.outcome? f ms with
      | some b => simp
      | none =>
        rw [hm id]
        by_cases hf : m.facet = f <;> simp [hf]
    · simpa [hx] using hm x

/-! ### Entering for the first time -/

lemma frame_enterNew (id : TaskId) (l : List Facet) (idx : Index) :
    (l.foldl (enterNew id) idx).shard = idx.shard ∧ (l.foldl (enterNew id) idx).today = idx.today ∧
      (l.foldl (enterNew id) idx).slots = idx.slots := by
  induction l generalizing idx with
  | nil => exact ⟨rfl, rfl, rfl⟩
  | cons f l ih => exact ih (idx.enterNew id f)

/-- An id that is behind none of several different facets is behind all of them once it has entered
them, although no bucket is looked into. -/
theorem bucket_enterNew_all (hs : ∀ f, (idx.bucket f).Sound) (hid : id ≠ 0) {l : List Facet}
    (hl : l.Nodup) (hnew : ∀ f ∈ l, id ∉ idx.bucket f) (f : Facet) :
    ((l.foldl (enterNew id) idx).bucket f).Sound ∧ ∀ x, x ∈ (l.foldl (enterNew id) idx).bucket f ↔
      x ∈ idx.bucket f ∨ (x = id ∧ f ∈ l) := by
  induction l generalizing idx with
  | nil => exact ⟨hs f, by simp⟩
  | cons g l ih =>
    obtain ⟨hg, hl⟩ := List.nodup_cons.1 hl
    have hstep : ∀ f, ((idx.enterNew id g).bucket f).Sound := by
      intro f
      rw [bucket_enterNew]
      split
      · exact (hs g).init hid (hnew g List.mem_cons_self)
      · exact hs f
    have hrest : ∀ f ∈ l, id ∉ (idx.enterNew id g).bucket f := by
      intro f hf
      have hne : g ≠ f := by rintro rfl; exact hg hf
      rw [bucket_enterNew, if_neg hne]
      exact hnew f (List.mem_cons_of_mem g hf)
    obtain ⟨hsound, hmem⟩ := ih hstep hl hrest
    refine ⟨hsound, fun x => (hmem x).trans ?_⟩
    rw [bucket_enterNew]
    by_cases h : g = f
    · subst h
      rw [if_pos rfl, IdSet.mem_init hid]
      simp [hg]
    · simp [h, Ne.symm h]

end Index

end TaskIndex
