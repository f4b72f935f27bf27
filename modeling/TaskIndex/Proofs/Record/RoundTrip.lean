import TaskIndex.Proofs.Calendar.DateText
import TaskIndex.Proofs.Document.Reading
import TaskIndex.Record.Change
import TaskIndex.Record.Query

/-!
Records, written and read back.

Days, shard keys and tags are texts that are brought into shape when they are read; what is in shape already
stays as it is. Every other part of a record is written as the kind of value that is asked for again, so a
record is read back entry by entry.
-/

namespace TaskIndex

/-! ### Texts that are brought into shape -/

lemma Date.codec : Codec 0 Date.document Date.ofDocument? := .named Date.ofText?_text

lemma ShardKey.codec : Codec 0 ShardKey.document ShardKey.ofDocument? := .named ShardKey.of?_text

lemma Tag.trim_name (t : Tag) : Text.trim t.name = t.name := by cases t <;> rfl

/-- A tag in its canonical writing stands for itself: a known name is trimmed already, and so is a text that
is none of the names. -/
lemma Operation.ofText_text (o : Operation) : ofText o.text = o := by
  cases o with
  | known tag =>
    have hknown : Tag.ofText? (Text.trim tag.name) = some tag := by
      rw [tag.trim_name, tag.ofText?_name]
    unfold ofText
    split
    · next heq => exact congrArg known (Option.some.inj (heq.symm.trans hknown))
    · next heq => cases heq.symm.trans hknown
  | unrecognized s trimmed foreign =>
    have hforeign : Tag.ofText? (Text.trim s) = none := by rw [trimmed, foreign]
    unfold ofText
    split
    · next heq => cases heq.symm.trans hforeign
    · simp only [text, trimmed]

example : (Operation.ofText " watchers ").text = "membership" := by decide

lemma Operation.codec : Codec 0 Operation.document Operation.ofDocument? where
  reads o := congrArg some o.ofText_text
  writable o _ _ := .text o.text

/-! ### Tasks -/

lemma names_codec : Codec 1 (fun names => .ofTexts names.toList) namesOfDocument? := .set .text

lemma keys_codec : Codec 1 keysDocument keysOfDocument? := .set ShardKey.codec

namespace Task

lemma ofDocument?_document (t : Task) : ofDocument? t.document = some t := by
  unfold ofDocument?
  refine Option.bind_eq_some_iff.2 ⟨t.id, Codec.uint16.field rfl, ?_⟩
  refine Option.bind_eq_some_iff.2 ⟨t.shard, ShardKey.codec.field rfl, ?_⟩
  refine Option.bind_eq_some_iff.2 ⟨t.title, Codec.text.fieldOr rfl, ?_⟩
  refine Option.bind_eq_some_iff.2 ⟨t.status, (Codec.named Status.ofName?_name).field rfl, ?_⟩
  refine Option.bind_eq_some_iff.2 ⟨t.motive, (Codec.named Motive.ofName?_name).field rfl, ?_⟩
  refine Option.bind_eq_some_iff.2 ⟨t.purpose, (Codec.named Purpose.ofName?_name).field rfl, ?_⟩
  refine Option.bind_eq_some_iff.2 ⟨t.area, Codec.text.fieldOr rfl, ?_⟩
  refine Option.bind_eq_some_iff.2 ⟨t.version, Codec.text.fieldOr rfl, ?_⟩
  refine Option.bind_eq_some_iff.2 ⟨t.reporter, Codec.text.fieldOr rfl, ?_⟩
  refine Option.bind_eq_some_iff.2 ⟨t.solver, (Codec.text.option nofun).fieldOr rfl, ?_⟩
  refine Option.bind_eq_some_iff.2 ⟨t.participants, names_codec.fieldOr rfl, ?_⟩
  refine Option.bind_eq_some_iff.2 ⟨t.aspirants, names_codec.fieldOr rfl, ?_⟩
  refine Option.bind_eq_some_iff.2 ⟨t.watchers, names_codec.fieldOr rfl, ?_⟩
  refine Option.bind_eq_some_iff.2 ⟨t.predecessor, (Codec.uint32.option nofun).fieldOr rfl, ?_⟩
  refine Option.bind_eq_some_iff.2 ⟨t.origin, (Codec.uint32.option nofun).fieldOr rfl, ?_⟩
  refine Option.bind_eq_some_iff.2 ⟨t.serial, (Codec.uint32.option nofun).fieldOr rfl, ?_⟩
  refine Option.bind_eq_some_iff.2 ⟨t.archived, Codec.flag.fieldOr rfl, ?_⟩
  refine Option.bind_eq_some_iff.2 ⟨t.emphasis, Codec.uint32.fieldOr rfl, ?_⟩
  refine Option.bind_eq_some_iff.2 ⟨t.created, Date.codec.field rfl, ?_⟩
  refine Option.bind_eq_some_iff.2 ⟨t.revision, Codec.uint64.fieldOr rfl, ?_⟩
  rfl

lemma writable_document (t : Task) {room : Nat} (h : 2 ≤ room) : Json.Writable room t.document := by
  obtain ⟨room, rfl⟩ := Nat.exists_eq_add_of_le' h
  have hnone : 0 ≤ room + 1 := Nat.zero_le _
  have hone : 1 ≤ room + 1 := Nat.le_add_left 1 room
  refine .table ?_ ?_
  · simp only [List.map_cons, List.map_nil]
    decide
  · simp only [List.forall_mem_cons]
    exact ⟨Codec.uint16.writable t.id hnone, ShardKey.codec.writable t.shard hnone, .text t.title,
      .text t.status.name, .text t.motive.name, .text t.purpose.name, .text t.area, .text t.version,
      .text t.reporter, (Codec.text.option nofun).writable t.solver hnone,
      names_codec.writable t.participants hone, names_codec.writable t.aspirants hone,
      names_codec.writable t.watchers hone,
      (Codec.uint32.option nofun).writable t.predecessor hnone,
      (Codec.uint32.option nofun).writable t.origin hnone,
      (Codec.uint32.option nofun).writable t.serial hnone, .flag t.archived,
      Codec.uint32.writable t.emphasis hnone, Date.codec.writable t.created hnone,
      Codec.uint64.writable t.revision hnone, List.forall_mem_nil _⟩

lemma codec : Codec 2 document ofDocument? := ⟨ofDocument?_document, writable_document⟩

lemma document_ne_null (t : Task) : t.document ≠ .null := by
  unfold document
  exact nofun

end Task

/-! ### Queries -/

lemma Property.codec : Codec 0 Property.document Property.ofDocument? := .named Property.ofName?_name

lemma Operator.codec : Codec 0 Operator.document Operator.ofDocument? := .named Operator.ofName?_name

lemma Direction.codec : Codec 0 Direction.document Direction.ofDocument? :=
  .named Direction.ofName?_name

lemma SortKey.codec : Codec 1 SortKey.document SortKey.ofDocument? where
  reads k := by
    unfold ofDocument?
    refine Option.bind_eq_some_iff.2 ⟨k.property, Property.codec.field rfl, ?_⟩
    refine Option.bind_eq_some_iff.2 ⟨k.direction, Direction.codec.field rfl, ?_⟩
    rfl
  writable k room hroom := by
    obtain ⟨room, rfl⟩ := Nat.exists_eq_add_of_le' hroom
    refine .table ?_ ?_
    · simp only [List.map_cons, List.map_nil]
      decide
    · simp only [List.forall_mem_cons]
      exact ⟨.text k.property.name, .text k.direction.name, List.forall_mem_nil _⟩

namespace Operand

lemma ofDocument?_document (o : Operand) : ofDocument? o.document = some o := by
  cases o with
  | text s => rfl
  | number n => exact congrArg (Option.map number) (Codec.int64.reads n)
  | flag b => rfl
  | status s => exact congrArg (Option.map status) (Status.ofName?_name s)
  | motive m => exact congrArg (Option.map motive) (Motive.ofName?_name m)
  | purpose p => exact congrArg (Option.map purpose) (Purpose.ofName?_name p)
  | date d => exact congrArg (Option.map date) (Date.codec.reads d)
  | shard k => exact congrArg (Option.map shard) (ShardKey.codec.reads k)
  | sort k => exact congrArg (Option.map sort) (SortKey.codec.reads k)

lemma writable_single {room : Nat} {value : Document} (kind : String) (h : Json.Writable room value) :
    Json.Writable (room + 1) (.table [(kind, value)]) :=
  .table (List.nodup_singleton kind) (by simpa using h)

lemma writable_document (o : Operand) {room : Nat} (h : 2 ≤ room) : Json.Writable room o.document := by
  obtain ⟨room, rfl⟩ := Nat.exists_eq_add_of_le' h
  cases o with
  | text s => exact writable_single "text" (.text s)
  | number n => exact writable_single "number" (Codec.int64.writable n (Nat.zero_le _))
  | flag b => exact writable_single "flag" (.flag b)
  | status s => exact writable_single "status" (.text s.name)
  | motive m => exact writable_single "motive" (.text m.name)
  | purpose p => exact writable_single "purpose" (.text p.name)
  | date d => exact writable_single "date" (.text d.text)
  | shard k => exact writable_single "shard" (.text k.text)
  | sort k => exact writable_single "sort" (SortKey.codec.writable k (Nat.le_add_left 1 room))

lemma codec : Codec 2 document ofDocument? := ⟨ofDocument?_document, writable_document⟩

end Operand

lemma Predicate.codec : Codec 4 Predicate.document Predicate.ofDocument? where
  reads p := by
    unfold ofDocument?
    refine Option.bind_eq_some_iff.2 ⟨p.property, Property.codec.field rfl, ?_⟩
    refine Option.bind_eq_some_iff.2 ⟨p.operator, Operator.codec.field rfl, ?_⟩
    refine Option.bind_eq_some_iff.2 ⟨p.operands, Operand.codec.list.field rfl, ?_⟩
    rfl
  writable p room hroom := by
    obtain ⟨room, rfl⟩ := Nat.exists_eq_add_of_le' hroom
    refine .table ?_ ?_
    · simp only [List.map_cons, List.map_nil]
      decide
    · simp only [List.forall_mem_cons]
      exact ⟨.text p.property.name, .text p.operator.name,
        Operand.codec.list.writable p.operands (Nat.le_add_left 3 room), List.forall_mem_nil _⟩

lemma Actor.codec : Codec 2 Actor.document Actor.ofDocument? where
  reads a := by
    unfold ofDocument?
    refine Option.bind_eq_some_iff.2 ⟨a.name, Codec.text.field rfl, ?_⟩
    refine Option.bind_eq_some_iff.2 ⟨a.shards, keys_codec.fieldOr rfl, ?_⟩
    rfl
  writable a room hroom := by
    obtain ⟨room, rfl⟩ := Nat.exists_eq_add_of_le' hroom
    refine .table ?_ ?_
    · simp only [List.map_cons, List.map_nil]
      decide
    · simp only [List.forall_mem_cons]
      exact ⟨.text a.name, keys_codec.writable a.shards (Nat.le_add_left 1 room),
        List.forall_mem_nil _⟩

/-! ### Changes -/

lemma ChangeEntry.codec : Codec 3 ChangeEntry.document ChangeEntry.ofDocument? where
  reads e := by
    unfold ofDocument?
    have hbefore := Task.codec.option Task.document_ne_null
    refine Option.bind_eq_some_iff.2 ⟨e.before, hbefore.fieldOr rfl, ?_⟩
    refine Option.bind_eq_some_iff.2 ⟨e.after, Task.codec.field rfl, ?_⟩
    refine Option.bind_eq_some_iff.2 ⟨e.operations, Operation.codec.list.field rfl, ?_⟩
    rfl
  writable e room hroom := by
    obtain ⟨room, rfl⟩ := Nat.exists_eq_add_of_le' hroom
    refine .table ?_ ?_
    · simp only [List.map_cons, List.map_nil]
      decide
    · simp only [List.forall_mem_cons]
      exact ⟨(Task.codec.option Task.document_ne_null).writable e.before (Nat.le_add_left 2 room),
        e.after.writable_document (Nat.le_add_left 2 room),
        Operation.codec.list.writable e.operations (Nat.le_add_left 1 (room + 1)),
        List.forall_mem_nil _⟩

/-! ### All records -/

/-- **Records**: what is written of a task, an operand, a sort key, a predicate, a change or an actor is read
back as it was, from the document as well as from its JSON. A tag that has been read once keeps its writing,
and a shard key is the key of its own text. -/
theorem records_round_trip :
    RoundTrips Task.document Task.ofDocument? ∧
      RoundTrips Operand.document Operand.ofDocument? ∧
      RoundTrips SortKey.document SortKey.ofDocument? ∧
      RoundTrips Predicate.document Predicate.ofDocument? ∧
      RoundTrips ChangeEntry.document ChangeEntry.ofDocument? ∧
      RoundTrips Actor.document Actor.ofDocument? ∧
      (∀ s, Operation.ofText (Operation.ofText s).text = Operation.ofText s) ∧
      ∀ k : ShardKey, ShardKey.of? k.text = some k :=
  ⟨Task.codec.roundTrips (by decide), Operand.codec.roundTrips (by decide),
    SortKey.codec.roundTrips (by decide), Predicate.codec.roundTrips (by decide),
    ChangeEntry.codec.roundTrips (by decide), Actor.codec.roundTrips (by decide),
    fun s => (Operation.ofText s).ofText_text, ShardKey.of?_text⟩

end TaskIndex
