/-!
Blank characters and trimming.

A character is blank when it has the Unicode property `White_Space`. Trimming takes blanks off
both ends of a text and nothing from its inside, and doing it twice is doing it once.
-/

namespace TaskIndex.Text

/-- The twenty-five characters of the property `White_Space`. -/
def isBlank (c : Char) : Bool :=
  let n := c.toNat
  (9 ≤ n && n ≤ 13) || n == 0x20 || n == 0x85 || n == 0xA0 || n == 0x1680 ||
    (0x2000 ≤ n && n ≤ 0x200A) || n == 0x2028 || n == 0x2029 || n == 0x202F || n == 0x205F ||
    n == 0x3000

/-- Takes the elements with property `p` off both ends of a list. -/
def strip {α : Type} (p : α → Bool) (l : List α) : List α :=
  ((l.dropWhile p).reverse.dropWhile p).reverse

/-- The text without the blanks at its two ends. -/
def trim (s : String) : String :=
  String.ofList (strip isBlank s.toList)

/-! ### Trimming twice -/

/-- No element with property `p` stands at the head of the list. -/
def Headless {α : Type} (p : α → Bool) (l : List α) : Prop :=
  ∀ a ∈ l.head?, p a = false

theorem dropWhile_of_headless {α : Type} {p : α → Bool} {l : List α} (h : Headless p l) :
    l.dropWhile p = l := by
  cases l with
  | nil => rfl
  | cons a l =>
    have ha : p a = false := h a rfl
    simp [List.dropWhile, ha]

theorem headless_dropWhile {α : Type} (p : α → Bool) (l : List α) :
    Headless p (l.dropWhile p) := by
  induction l with
  | nil => simp [Headless]
  | cons a l ih =>
    cases ha : p a with
    | true => simpa [List.dropWhile, ha] using ih
    | false => simp [List.dropWhile, ha, Headless]

/-- Dropping from the far end leaves a head that was fine as it was. -/
theorem headless_reverse_dropWhile {α : Type} {p : α → Bool} {l : List α} (h : Headless p l) :
    Headless p (l.reverse.dropWhile p).reverse := by
  cases l with
  | nil => simp [Headless]
  | cons a l =>
    have ha : p a = false := h a rfl
    simp only [List.reverse_cons, List.dropWhile_append, List.dropWhile_cons, ha,
      List.dropWhile_nil]
    split <;> simp [Headless, ha]

theorem strip_strip {α : Type} (p : α → Bool) (l : List α) : strip p (strip p l) = strip p l := by
  have h : Headless p (strip p l) := headless_reverse_dropWhile (headless_dropWhile p l)
  have h' : Headless p (strip p l).reverse := by
    simpa [strip] using headless_dropWhile p (l.dropWhile p).reverse
  rw [strip, dropWhile_of_headless h, dropWhile_of_headless h', List.reverse_reverse]

theorem trim_trim (s : String) : trim (trim s) = trim s := by
  simp [trim, strip_strip]

end TaskIndex.Text
