import Mathlib.Data.List.TakeWhile
import TaskIndex.Text.Blank

/-!
Blanks around a text.

Stripping takes away what was put around a text and leaves everything else in it, so blanks around a name or
a numeral do not count, while a character that is no blank is never lost.
-/

namespace TaskIndex.Text

variable {α : Type} {p : α → Bool} {l front back : List α}

/-- What is stripped from both ends may as well not be there. -/
lemma strip_append (hfront : ∀ a ∈ front, p a = true) (hback : ∀ a ∈ back, p a = true) :
    strip p (front ++ l ++ back) = strip p l := by
  rw [strip, List.append_assoc, List.dropWhile_append_of_pos hfront, List.dropWhile_append]
  split
  · next hall =>
    rw [strip, List.isEmpty_iff.1 hall, List.dropWhile_eq_nil_iff.2 hback]
  · rw [List.reverse_append, List.dropWhile_append_of_pos fun a ha => hback a (List.mem_reverse.1 ha), strip]

lemma strip_eq_self (h : ∀ a ∈ l, p a = false) : strip p l = l := by
  have hfront : Headless p l := fun a ha => h a (List.mem_of_mem_head? ha)
  have hback : Headless p l.reverse := fun a ha => h a (List.mem_reverse.1 (List.mem_of_mem_head? ha))
  rw [strip, dropWhile_of_headless hfront, dropWhile_of_headless hback, List.reverse_reverse]

lemma mem_strip {a : α} (ha : a ∈ l) (hp : p a = false) : a ∈ strip p l := by
  have hdrop : ∀ l : List α, a ∈ l → a ∈ l.dropWhile p := by
    intro l hl
    rw [← List.takeWhile_append_dropWhile (p := p) (l := l), List.mem_append] at hl
    exact hl.resolve_left fun htake => by simp [List.mem_takeWhile_imp htake] at hp
  exact List.mem_reverse.2 (hdrop _ (List.mem_reverse.2 (hdrop l ha)))

def Around (s t : List Char) : Prop :=
  ∃ front back, (∀ c ∈ front, isBlank c = true) ∧ (∀ c ∈ back, isBlank c = true) ∧ t = front ++ s ++ back

lemma Around.refl (s : List Char) : Around s s := ⟨[], [], nofun, nofun, (List.append_nil s).symm⟩

lemma Around.strip_eq {s t : List Char} (h : Around s t) : strip isBlank t = strip isBlank s := by
  obtain ⟨front, back, hfront, hback, rfl⟩ := h
  exact strip_append hfront hback

lemma Around.mem {s t : List Char} (h : Around s t) {c : Char} (hc : c ∈ t) : c ∈ s ∨ isBlank c = true := by
  obtain ⟨front, back, hfront, hback, rfl⟩ := h
  rcases List.mem_append.1 hc with hc | hc
  · exact (List.mem_append.1 hc).elim (fun hc => .inr (hfront c hc)) .inl
  · exact .inr (hback c hc)

lemma trim_ofList (l : List Char) : trim (String.ofList l) = String.ofList (strip isBlank l) := by
  rw [trim, String.toList_ofList]

end TaskIndex.Text
