import TaskIndex.Document.Basic
import TaskIndex.Text.Blank
import TaskIndex.Text.Numeral

/-!
Laying one document over another.

Tables are merged entry by entry and everything else replaces what it lies on. A layer is a list of
entries whose keys may be paths: names with dots between them, and positions in brackets. A key that is no
path is a plain name.
-/

namespace TaskIndex

namespace Document

/-- The entries of a table; other documents have none. -/
def entries : Document → List (String × Document)
  | table entries => entries
  | _ => []

/-- The items of a list; other documents have none. -/
def items : Document → List Document
  | list items => items
  | _ => []

mutual

/-- A document laid over another one. -/
def overlay (below : Document) : Document → Document
  | table entries => table (overlayEntries below.entries entries)
  | null => null
  | flag b => flag b
  | integer n => integer n
  | real x => real x
  | moment s => moment s
  | text s => text s
  | list items => list items

/-- Entries laid over others one after the other. -/
def overlayEntries (below : List (String × Document)) :
    List (String × Document) → List (String × Document)
  | [] => below
  | (key, value) :: rest =>
    overlayEntries (putEntry key (overlay ((valueOf? key below).getD null) value) below) rest

end

inductive Step where
  | key (name : String)
  /-- A position in a list, counted from the end when it is negative. -/
  | position (n : Int)
deriving DecidableEq

/-- A list that has an item at a position, filled up with nulls, and where the item stands. -/
def reach (n : Int) (items : List Document) : List Document × Nat :=
  if 0 ≤ n then (items ++ List.replicate (n.toNat + 1 - items.length) null, n.toNat)
  else if n.natAbs ≤ items.length then (items, items.length - n.natAbs)
  else (List.replicate (n.natAbs - items.length) null ++ items, 0)

/-- Changes what a path leads to. On the way, what is no table or list becomes one. -/
def alterAt (change : Document → Document) : List Step → Document → Document
  | [], d => change d
  | .key name :: path, d =>
    table (putEntry name (alterAt change path ((valueOf? name d.entries).getD null)) d.entries)
  | .position n :: path, d =>
    let (items, i) := reach n d.items
    list (items.set i (alterAt change path (items[i]?.getD null)))

end Document

namespace Overlay

open Document (Step)

/-- A character of a name in a path. -/
def isNameChar (c : Char) : Bool := c.isAlphanum || c = '_' || c = '-'

def name? (cs : List Char) : Option (String × List Char) :=
  let name := cs.takeWhile isNameChar
  if name.isEmpty then none else some (.ofList name, cs.drop name.length)

/-- A position, as a signed 64-bit word. -/
def word? (negative : Bool) (digits : List Char) : Option Int :=
  (Text.natural? digits).bind fun n =>
    let n : Int := if negative then -n else n
    if Int64.minValue.toInt ≤ n ∧ n ≤ Int64.maxValue.toInt then some n else none

/-- A position at the head of a text, up to its closing bracket. Blanks may stand around it. -/
def position? (cs : List Char) : Option (Int × List Char) :=
  let isSpace (c : Char) : Bool := c = ' ' || c = '\t'
  let inside := cs.takeWhile (· != ']')
  match cs.drop inside.length, Text.strip isSpace inside with
  | ']' :: rest, '-' :: digits => (word? true digits).map fun n => (n, rest)
  | ']' :: rest, digits => (word? false digits).map fun n => (n, rest)
  | _, _ => none

def furtherSteps? : (fuel : Nat) → List Char → Option (List Step)
  | _, [] => some []
  | fuel + 1, '.' :: cs => do
    let (name, rest) ← name? cs
    return .key name :: (← furtherSteps? fuel rest)
  | fuel + 1, '[' :: cs => do
    let (n, rest) ← position? cs
    return .position n :: (← furtherSteps? fuel rest)
  | _, _ => none

def steps? (key : String) : Option (List Step) := do
  let (name, rest) ← name? key.toList
  return .key name :: (← furtherSteps? rest.length rest)

/-- Gives one key of a layer its value. -/
def put (d : Document) (entry : String × Document) : Document :=
  d.alterAt (·.overlay entry.2) ((steps? entry.1).getD [.key entry.1])

def lay (d : Document) (layer : List (String × Document)) : Document := layer.foldl put d

/-- Lays layers over each other, the lowest first. -/
def merge (layers : List (List (String × Document))) : Document := layers.foldl lay (.table [])

end Overlay

end TaskIndex
