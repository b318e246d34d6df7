/-
Trimming a text once is enough.

* `takeWhile_append_of_head?`, `dropWhile_append_of_head?`: the front of a list with a property
  ends at the first element without it.
* `trimStart_trim`, `trimEnd_trim`: a trimmed text has no blanks at its two ends;
  `trim_trim`: trimming it again changes nothing. `trim_eq_self_iff`: the trimmed texts are those
  whose first and last character are not blank.
* `trimEnd_append_cons`, `trim_append_cons`: behind a character that is not blank only what
  follows it is trimmed.
-/
import Mathlib.Data.List.DropRight
import Mathlib.Tactic.Common
import DocLint.Text.Blank

namespace DocLint.Text

/-! ### Fronts -/

section Front

variable {α : Type} {p : α → Bool} {s t : List α}

lemma takeWhile_append_of_head? (hs : ∀ a ∈ s, p a = true)
    (ht : ∀ a, t.head? = some a → p a = false) : (s ++ t).takeWhile p = s := by
  rw [List.takeWhile_append_of_pos hs]
  cases t with
  | nil => exact List.append_nil s
  | cons a t => rw [List.takeWhile_cons_of_neg (by simp [ht a rfl]), List.append_nil]

lemma dropWhile_append_of_head? (hs : ∀ a ∈ s, p a = true)
    (ht : ∀ a, t.head? = some a → p a = false) : (s ++ t).dropWhile p = t := by
  rw [List.dropWhile_append_of_pos hs]
  cases t with
  | nil => rfl
  | cons a t => exact List.dropWhile_cons_of_neg (by simp [ht a rfl])

lemma eq_false_of_head?_dropWhile {a : α} (h : (s.dropWhile p).head? = some a) : p a = false := by
  have hstop := List.head?_dropWhile_not p s
  rwa [h] at hstop

end Front

/-! ### Blanks at both ends -/

/-- Blanks at the back are those that `rdropWhile` drops. -/
lemma trimEnd_eq_rdropWhile (s : List Char) : trimEnd s = s.rdropWhile isBlank := rfl

lemma trim_prefix_trimStart (s : List Char) : trim s <+: trimStart s := by
  rw [trim, trimEnd_eq_rdropWhile]
  exact List.rdropWhile_prefix isBlank _

lemma mem_of_mem_trim {s : List Char} {c : Char} (h : c ∈ trim s) : c ∈ s :=
  (List.dropWhile_suffix _).subset ((trim_prefix_trimStart s).subset h)

lemma trimEnd_trim (s : List Char) : trimEnd (trim s) = trim s := by
  rw [trim, trimEnd_eq_rdropWhile, trimEnd_eq_rdropWhile, List.rdropWhile_idempotent]

/-- What the front of a text was trimmed to starts with no blank, and so does what
is left of it. -/
lemma trimStart_trim (s : List Char) : trimStart (trim s) = trim s := by
  obtain ⟨t, ht⟩ := trim_prefix_trimStart s
  cases h : trim s with
  | nil => rfl
  | cons c cs =>
      have hhead : (trimStart s).head? = some c := by
        rw [← ht, h]
        rfl
      have hblank : isBlank c = false := eq_false_of_head?_dropWhile hhead
      rw [trimStart, List.dropWhile_cons_of_neg (by simp [hblank])]

lemma trim_trim (s : List Char) : trim (trim s) = trim s := by
  conv_lhs => rw [trim, trimStart_trim, trimEnd_trim]

/-- **Trimmed texts**: neither the first nor the last character is blank. -/
lemma trim_eq_self_iff {s : List Char} : trim s = s ↔
    (∀ c, s.head? = some c → isBlank c = false) ∧ ∀ c, s.getLast? = some c → isBlank c = false := by
  constructor
  · intro h
    have hstart : s.dropWhile isBlank = s := h ▸ trimStart_trim s
    have hend : s.reverse.dropWhile isBlank = s.reverse :=
      List.reverse_eq_iff.mp (h ▸ trimEnd_trim s)
    refine ⟨fun c hc => ?_, fun c hc => ?_⟩
    · exact eq_false_of_head?_dropWhile (hstart.symm ▸ hc)
    · exact eq_false_of_head?_dropWhile (hend.symm ▸ s.head?_reverse ▸ hc)
  · rintro ⟨hhead, hlast⟩
    have hstart : trimStart s = s := dropWhile_append_of_head? (List.forall_mem_nil _) hhead
    have hend : s.reverse.dropWhile isBlank = s.reverse :=
      dropWhile_append_of_head? (List.forall_mem_nil _) (s.head?_reverse ▸ hlast)
    rw [trim, hstart, trimEnd, hend, List.reverse_reverse]

/-! ### In front of a character that is not blank -/

section Append

variable {c : Char} {s : List Char}

lemma trimEnd_append_cons (hc : isBlank c = false) (s t : List Char) :
    trimEnd (s ++ c :: t) = s ++ c :: trimEnd t := by
  rw [trimEnd_eq_rdropWhile, trimEnd_eq_rdropWhile]
  induction t using List.reverseRecOn with
  | nil =>
      rw [List.rdropWhile_concat_neg _ _ _ (by simp [hc])]
      rfl
  | append_singleton t d ih =>
      have hsplit : s ++ c :: (t ++ [d]) = (s ++ c :: t) ++ [d] := by simp
      rw [hsplit]
      by_cases hd : isBlank d = true
      · rw [List.rdropWhile_concat_pos _ _ _ hd, List.rdropWhile_concat_pos _ _ _ hd, ih]
      · rw [List.rdropWhile_concat_neg _ _ _ hd, List.rdropWhile_concat_neg _ _ _ hd, hsplit]

lemma trim_append_cons (hne : s ≠ []) (hs : trim s = s) (hc : isBlank c = false)
    (t : List Char) : trim (s ++ c :: t) = s ++ c :: trimEnd t := by
  have hstart : trimStart s = s := by
    rw [← hs]
    exact trimStart_trim s
  have hfront : trimStart (s ++ c :: t) = s ++ c :: t := by
    have hempty : ¬(s.dropWhile isBlank).isEmpty = true := by
      rw [← trimStart, hstart, List.isEmpty_iff]
      exact hne
    rw [trimStart, List.dropWhile_append, if_neg hempty, ← trimStart, hstart]
  rw [trim, hfront, trimEnd_append_cons hc]

end Append

end DocLint.Text
