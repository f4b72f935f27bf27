import TaskIndex.Document.Reading
import TaskIndex.Proofs.Document.Json
import TaskIndex.Proofs.SortedSet

/-!
Writers and readers that belong together.

A writer and a reader belong together when reading undoes writing and when JSON holds what is written. This is
shown once for every kind of value and once for every way to put values together; a table then needs no more
than one step for each of its entries. The brackets that are open at one place are counted on the way, because
the reader of JSON limits them.
-/

namespace TaskIndex

/-- Reading undoes writing, of a document and of its JSON in either form. -/
def RoundTrips {α : Type} (write : α → Document) (read : Document → Option α) : Prop :=
  ∀ a, read (write a) = some a ∧ (Json.read? (write a).json).bind read = some a ∧
    (Json.read? (write a).longJson).bind read = some a

/-- Reading undoes writing, and JSON holds what is written, with no more than `depth` brackets open at one
place. -/
structure Codec {α : Type} (depth : Nat) (write : α → Document) (read : Document → Option α) : Prop where
  reads (a : α) : read (write a) = some a
  writable (a : α) {room : Nat} (h : depth ≤ room) : Json.Writable room (write a)

namespace Codec

variable {α : Type} {depth : Nat} {write : α → Document} {read : Document → Option α}

lemma roundTrips (h : Codec depth write read) (hdepth : depth ≤ Json.maxDepth) :
    RoundTrips write read := by
  intro a
  have hwritable := h.writable a hdepth
  rw [Json.read?_json hwritable, Json.read?_longJson hwritable]
  exact ⟨h.reads a, h.reads a, h.reads a⟩

/-! ### Single values -/

lemma text : Codec 0 .text Document.text? where
  reads _ := rfl
  writable s _ _ := .text s

lemma flag : Codec 0 .flag Document.flag? where
  reads _ := rfl
  writable b _ _ := .flag b

lemma below?_ofNat {n bound : Nat} (h : n < bound) : (Document.ofNat n).below? bound = some n := by
  rw [Document.ofNat, Document.below?, if_pos (by omega), Int.toNat_natCast]

lemma writable_ofNat {n room : Nat} (h : n < 2 ^ 64) : Json.Writable room (.ofNat n) :=
  .integer (by omega) (by omega)

lemma uint16 : Codec 0 (fun n => .ofNat n.toNat) Document.uint16? where
  reads n := by
    rw [Document.uint16?, below?_ofNat n.toNat_lt_size, Option.map_some, UInt16.ofNat_toNat]
  writable n _ _ := writable_ofNat (Nat.lt_trans n.toNat_lt (by decide))

lemma uint32 : Codec 0 (fun n => .ofNat n.toNat) Document.uint32? where
  reads n := by
    rw [Document.uint32?, below?_ofNat n.toNat_lt_size, Option.map_some, UInt32.ofNat_toNat]
  writable n _ _ := writable_ofNat (Nat.lt_trans n.toNat_lt (by decide))

lemma uint64 : Codec 0 (fun n => .ofNat n.toNat) Document.uint64? where
  reads n := by
    rw [Document.uint64?, below?_ofNat n.toNat_lt_size, Option.map_some, UInt64.ofNat_toNat]
  writable n _ _ := writable_ofNat n.toNat_lt

lemma int64 : Codec 0 (fun n => .integer n.toInt) Document.int64? where
  reads n := by
    rw [Document.int64?, if_pos ⟨n.minValue_le_toInt, n.toInt_le⟩, Int64.ofInt_toInt]
  writable n _ _ := .integer n.le_toInt (Int.lt_trans n.toInt_lt (by decide))

lemma named {name : α → String} {ofName? : String → Option α} (h : ∀ a, ofName? (name a) = some a) :
    Codec 0 (fun a => .text (name a)) (Document.named? ofName?) where
  reads := h
  writable a _ _ := .text (name a)

/-! ### Values put together -/

lemma option (h : Codec depth write read) (hnull : ∀ a, write a ≠ .null) :
    Codec depth (Document.ofOption write) (Document.orNull read) where
  reads
    | none => rfl
    | some a => by
      have hvalue : Document.orNull read (write a) = (read (write a)).map some := by
        unfold Document.orNull
        split
        · next heq => exact absurd heq (hnull a)
        · rfl
      rw [Document.ofOption, hvalue, h.reads a]
      rfl
  writable a _ hroom :=
    match a with
    | none => .null
    | some a => h.writable a hroom

lemma mapM_map (h : Codec depth write read) (items : List α) :
    (items.map write).mapM read = some items := by
  induction items with
  | nil => rfl
  | cons a items ih =>
    rw [List.map_cons, List.mapM_cons, h.reads a, ih]
    rfl

lemma list (h : Codec depth write read) :
    Codec (depth + 1) (fun items : List α => .list (items.map write)) (Document.list? read) where
  reads := h.mapM_map
  writable items room hroom := by
    obtain ⟨room, rfl⟩ := Nat.exists_eq_add_of_lt hroom
    refine .list fun d hd => ?_
    obtain ⟨a, -, rfl⟩ := List.mem_map.1 hd
    exact h.writable a (Nat.le_add_right depth room)

/-- A set is written as its list, which is in order and has no repetitions already. -/
lemma set [Ord α] [Std.TransOrd α] [Std.LawfulEqOrd α] (h : Codec depth write read) :
    Codec (depth + 1) (fun s : SortedSet α => .list (s.toList.map write))
      (fun d => (d.list? read).map .ofList) where
  reads s := by
    rw [h.list.reads s.toList, Option.map_some, SortedSet.ofList_toList]
  writable s _ hroom := h.list.writable s.toList hroom

/-! ### Entries of a table -/

variable {entries : List (String × Document)} {key : String} {a : α}

lemma field (h : Codec depth write read) (hentry : entries.lookup key = some (write a)) :
    (Document.table entries).field key read = some a :=
  Option.bind_eq_some_iff.2 ⟨write a, hentry, h.reads a⟩

lemma fieldOr (h : Codec depth write read) {other : α}
    (hentry : entries.lookup key = some (write a)) :
    (Document.table entries).fieldOr key other read = some a := by
  simp only [Document.fieldOr, Document.get?, Document.valueOf?, hentry, h.reads a]

end Codec

end TaskIndex
