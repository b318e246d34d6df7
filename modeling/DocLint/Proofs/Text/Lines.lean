/-
What the pieces and the lines of a text hold, and where its lines stand.

* `notMem_of_mem_pieces`, `mem_of_mem_pieces`: a piece does not hold the separator, and
  what it holds, the text holds; `mem_glue`: glue adds nothing but separators.
* `pieces_append`: what stands before a separator is cut by itself.
* `newline_notMem_of_mem_numberedLines`: no line holds a line feed.
* `line_induction`: a text is cut at its first line feed, and then what follows it.
* `IsWhole`: texts made of whole lines. `lines_append`, `numberedLines_append`: behind such
  a text the lines go on with those of what follows, counted further.
* `LineAt`: a line, its number and the whole lines before it. `exists_lineAt`: every line
  has such a place; `exists_lineAt_append`: so has the line that holds a character.
-/
import Mathlib.Data.List.Basic
import Mathlib.Tactic.Common
import DocLint.Text.Lines

namespace DocLint.Text

variable {α : Type} {sep a : α} {s p : List α} {ps : List (List α)}

/-! ### Pieces -/

lemma mem_consPiece (h : p ∈ consPiece a ps) : p = [a] ∨ (∃ q ∈ ps, p = a :: q) ∨ p ∈ ps := by
  cases ps with
  | nil => exact Or.inl (List.mem_singleton.mp h)
  | cons q qs =>
      rcases List.mem_cons.mp h with rfl | h
      · exact Or.inr (Or.inl ⟨q, List.mem_cons_self, rfl⟩)
      · exact Or.inr (Or.inr (List.mem_cons_of_mem q h))

lemma notMem_of_mem_pieces [DecidableEq α] (h : p ∈ pieces sep s) : sep ∉ p := by
  induction s generalizing p with
  | nil =>
      rw [List.mem_singleton.mp h]
      exact List.not_mem_nil
  | cons b s ih =>
      rw [pieces_cons] at h
      split_ifs at h with hb
      · rcases List.mem_cons.mp h with rfl | h
        · exact List.not_mem_nil
        · exact ih h
      · rcases mem_consPiece h with rfl | ⟨q, hq, rfl⟩ | h
        · exact fun hsep => hb (List.mem_singleton.mp hsep).symm
        · rw [List.mem_cons, not_or]
          exact ⟨Ne.symm hb, ih hq⟩
        · exact ih h

lemma mem_of_mem_pieces [DecidableEq α] (h : p ∈ pieces sep s) (ha : a ∈ p) : a ∈ s := by
  induction s generalizing p with
  | nil =>
      rw [List.mem_singleton.mp h] at ha
      exact ha
  | cons b s ih =>
      rw [pieces_cons] at h
      split_ifs at h
      · rcases List.mem_cons.mp h with rfl | h
        · cases ha
        · exact List.mem_cons_of_mem b (ih h ha)
      · rcases mem_consPiece h with rfl | ⟨q, hq, rfl⟩ | h
        · rw [List.mem_singleton.mp ha]
          exact List.mem_cons_self
        · rcases List.mem_cons.mp ha with rfl | ha
          · exact List.mem_cons_self
          · exact List.mem_cons_of_mem b (ih hq ha)
        · exact List.mem_cons_of_mem b (ih h ha)

lemma mem_glue (h : a ∈ glue sep ps) : a = sep ∨ ∃ p ∈ ps, a ∈ p := by
  induction ps with
  | nil => cases h
  | cons p ps ih =>
      cases ps with
      | nil => exact Or.inr ⟨p, List.mem_cons_self, h⟩
      | cons q qs =>
          have hglue : a ∈ p ++ sep :: glue sep (q :: qs) := h
          rw [List.mem_append, List.mem_cons] at hglue
          rcases hglue with h | rfl | h
          · exact Or.inr ⟨p, List.mem_cons_self, h⟩
          · exact Or.inl rfl
          · obtain hsep | ⟨r, hr, har⟩ := ih h
            · exact Or.inl hsep
            · exact Or.inr ⟨r, List.mem_cons_of_mem p hr, har⟩

/-- What stands before a separator and what stands behind it are cut apart. -/
lemma pieces_append [DecidableEq α] (sep : α) (s t : List α) :
    pieces sep (s ++ sep :: t) = pieces sep s ++ pieces sep t := by
  induction s with
  | nil => rw [List.nil_append, pieces_cons, if_pos rfl, pieces_nil, List.singleton_append]
  | cons a s ih =>
      rw [List.cons_append, pieces_cons, pieces_cons, ih]
      split_ifs
      · rw [List.cons_append]
      · obtain ⟨q, qs, hq⟩ := List.exists_cons_of_ne_nil (pieces_ne_nil sep s)
        rw [hq, List.cons_append, consPiece, consPiece, List.cons_append]

/-! ### Lines -/

lemma dropReturn_prefix_line (l : List Char) : dropReturn l <+: l := by
  rw [dropReturn]
  split_ifs
  · exact List.dropLast_prefix l
  · exact List.prefix_rfl

lemma newline_notMem_of_mem_lines {s l : List Char} (h : l ∈ lines s) : '\n' ∉ l := by
  rcases List.mem_append.mp h with h | h
  · obtain ⟨p, hp, rfl⟩ := List.mem_map.mp h
    exact fun hn => notMem_of_mem_pieces ((List.dropLast_prefix _).subset hp)
      ((dropReturn_prefix_line p).subset hn)
  · have hlast := Option.mem_toList.mp (List.mem_of_mem_filter h)
    exact notMem_of_mem_pieces (List.mem_of_getLast? hlast)

lemma newline_notMem_of_mem_numberedLines {s : List Char} {l : Nat × List Char}
    (h : l ∈ numberedLines s) : '\n' ∉ l.2 := by
  obtain ⟨p, hp, rfl⟩ := List.mem_map.mp h
  exact newline_notMem_of_mem_lines (List.fst_mem_of_mem_zipIdx hp)

/-! ### One line after the other -/

section Lines

variable {s t p before rest line : List Char} {c : Char} {i n : ℕ}

lemma lines_of_notMem (hp : '\n' ∉ p) (hne : p ≠ []) : lines p = [p] := by
  rw [lines, pieces_of_notMem hp]
  simp [hne]

lemma lines_append_newline (hp : '\n' ∉ p) (t : List Char) :
    lines (p ++ '\n' :: t) = dropReturn p :: lines t := by
  obtain ⟨q, qs, hq⟩ := List.exists_cons_of_ne_nil (pieces_ne_nil '\n' t)
  rw [lines, lines, pieces_append_cons hp, hq]
  rfl

lemma lineCount_cons_newline (s : List Char) : lineCount ('\n' :: s) = lineCount s + 1 :=
  List.count_cons_self

lemma lineCount_cons (hc : c ≠ '\n') (s : List Char) : lineCount (c :: s) = lineCount s :=
  List.count_cons_of_ne hc

lemma lineCount_append (s t : List Char) : lineCount (s ++ t) = lineCount s + lineCount t :=
  List.count_append

lemma lineCount_of_notMem (hp : '\n' ∉ p) : lineCount p = 0 :=
  List.count_eq_zero_of_not_mem hp

lemma lineCount_append_newline (hp : '\n' ∉ p) (t : List Char) :
    lineCount (p ++ '\n' :: t) = lineCount t + 1 := by
  rw [lineCount_append, lineCount_of_notMem hp, Nat.zero_add, lineCount_cons_newline]

/-- A text is one stretch without a line feed, or starts with such a stretch, a line feed
and a text behind it. -/
@[elab_as_elim]
lemma line_induction {P : List Char → Prop} (last : ∀ p, '\n' ∉ p → P p)
    (line : ∀ p t, '\n' ∉ p → P t → P (p ++ '\n' :: t)) (s : List Char) : P s := by
  induction hlen : s.length using Nat.strongRecOn generalizing s with
  | ind n ih =>
    by_cases hs : '\n' ∈ s
    · obtain ⟨p, t, rfl, hp⟩ := List.eq_append_cons_of_mem hs
      have hlt : t.length < n := by
        rw [← hlen, List.length_append, List.length_cons]
        omega
      exact line p t hp (ih t.length hlt t rfl)
    · exact last s hs

/-- Whether a text is made of whole lines: it is empty, or a line feed ends it. -/
def IsWhole (s : List Char) : Prop :=
  s = [] ∨ s.getLast? = some '\n'

instance (s : List Char) : Decidable (IsWhole s) :=
  inferInstanceAs (Decidable (_ ∨ _))

lemma isWhole_nil : IsWhole [] := Or.inl rfl

lemma isWhole_append_newline_iff : IsWhole (p ++ '\n' :: t) ↔ IsWhole t := by
  cases t with
  | nil => simp [IsWhole]
  | cons c t => simp [IsWhole, List.getLast?_cons_cons]

lemma IsWhole.eq_nil_of_notMem (h : IsWhole p) (hp : '\n' ∉ p) : p = [] := by
  rcases h with h | h
  · exact h
  · exact absurd (List.mem_of_getLast? h) hp

/-- Every text is whole lines and the beginning of one more. -/
lemma exists_isWhole_append (s : List Char) :
    ∃ before front, s = before ++ front ∧ IsWhole before ∧ '\n' ∉ front := by
  induction s using line_induction with
  | last p hp => exact ⟨[], p, rfl, isWhole_nil, hp⟩
  | line p t hp ih =>
      obtain ⟨before, front, rfl, hwhole, hfront⟩ := ih
      refine ⟨p ++ '\n' :: before, front, by simp, ?_, hfront⟩
      exact isWhole_append_newline_iff.mpr hwhole

/-- Behind whole lines the lines are those of what follows. -/
lemma lines_append (h : IsWhole s) (t : List Char) : lines (s ++ t) = lines s ++ lines t := by
  induction s using line_induction with
  | last p hp =>
      rw [h.eq_nil_of_notMem hp]
      rfl
  | line p s hp ih =>
      have hs := isWhole_append_newline_iff.mp h
      rw [List.append_assoc, List.cons_append, lines_append_newline hp, lines_append_newline hp,
        ih hs, List.cons_append]

/-- Whole lines are as many as their line feeds. -/
lemma length_lines_of_isWhole (h : IsWhole s) : (lines s).length = lineCount s := by
  induction s using line_induction with
  | last p hp =>
      rw [h.eq_nil_of_notMem hp]
      rfl
  | line p s hp ih =>
      rw [lines_append_newline hp, List.length_cons, ih (isWhole_append_newline_iff.mp h),
        lineCount_append_newline hp]

lemma numberedLines_append (h : IsWhole s) (t : List Char) :
    numberedLines (s ++ t) =
      numberedLines s ++ (numberedLines t).map fun l => (l.1 + (lines s).length, l.2) := by
  rw [numberedLines, lines_append h, List.zipIdx_append, List.map_append, numberedLines,
    numberedLines, List.map_map, List.zipIdx_eq_map_add (l := lines t), List.map_map]
  refine congrArg _ (List.map_congr_left fun l _ => ?_)
  refine Prod.ext ?_ rfl
  simp only [Function.comp_apply]
  omega

/-! ### Where a line stands -/

/-- Whether a text has a line with a number behind the whole lines before it. -/
structure LineAt (s : List Char) (n : ℕ) (before line : List Char) : Prop where
  number : n = lineCount before + 1
  isWhole : IsWhole before
  getElem? : (lines s)[n - 1]? = some line
  isPrefix : before ++ line <+: s

/-- The first line of a text is written at its front. -/
lemma prefix_of_head?_lines (h : (lines s).head? = some line) : line <+: s := by
  induction s using line_induction with
  | last p hp =>
      rcases eq_or_ne p [] with rfl | hne
      · cases h
      · rw [lines_of_notMem hp hne, List.head?_cons, Option.some.injEq] at h
        exact h ▸ List.prefix_rfl
  | line p t hp _ =>
      rw [lines_append_newline hp, List.head?_cons, Option.some.injEq] at h
      rw [← h]
      exact (dropReturn_prefix_line p).trans (List.prefix_append _ _)

/-- Behind whole lines stands the first line of what follows. -/
lemma lineAt_append (hwhole : IsWhole before) (h : (lines rest).head? = some line) :
    LineAt (before ++ rest) (lineCount before + 1) before line where
  number := rfl
  isWhole := hwhole
  getElem? := by
    rw [Nat.add_sub_cancel, lines_append hwhole, ← length_lines_of_isWhole hwhole,
      List.getElem?_append_right (Nat.le_refl _), Nat.sub_self, ← List.head?_eq_getElem?, h]
  isPrefix := (List.prefix_append_right_inj before).mpr (prefix_of_head?_lines h)

/-- Every line is the first one behind the whole lines before it. -/
lemma exists_append_of_getElem?_lines (h : (lines s)[i]? = some line) :
    ∃ before rest, s = before ++ rest ∧ IsWhole before ∧ lineCount before = i ∧
      (lines rest).head? = some line := by
  induction s using line_induction generalizing i with
  | last p hp =>
      rcases eq_or_ne p [] with rfl | hne
      · cases h
      · rw [lines_of_notMem hp hne, List.getElem?_singleton] at h
        split_ifs at h with hi
        refine ⟨[], p, rfl, isWhole_nil, hi.symm, ?_⟩
        rw [lines_of_notMem hp hne, ← h]
        rfl
  | line p t hp ih =>
      cases i with
      | zero =>
          rw [← List.head?_eq_getElem?] at h
          exact ⟨[], _, rfl, isWhole_nil, rfl, h⟩
      | succ i =>
          rw [lines_append_newline hp, List.getElem?_cons_succ] at h
          obtain ⟨before, rest, rfl, hwhole, hcount, hhead⟩ := ih h
          refine ⟨p ++ '\n' :: before, rest, by simp, isWhole_append_newline_iff.mpr hwhole, ?_,
            hhead⟩
          rw [lineCount_append_newline hp, hcount]

lemma exists_lineAt (h : (lines s)[i]? = some line) :
    ∃ before, LineAt s (i + 1) before line := by
  obtain ⟨before, rest, rfl, hwhole, rfl, hhead⟩ := exists_append_of_getElem?_lines h
  exact ⟨before, lineAt_append hwhole hhead⟩

lemma LineAt.one_le (h : LineAt s n before line) : 1 ≤ n := by
  rw [h.number]
  exact Nat.le_add_left 1 _

lemma LineAt.le_length (h : LineAt s n before line) : n ≤ (lines s).length := by
  obtain ⟨hlt, -⟩ := List.getElem?_eq_some_iff.mp h.getElem?
  have hone := h.one_le
  omega

lemma exists_lineAt_of_mem_numberedLines {l : ℕ × List Char} (h : l ∈ numberedLines s) :
    ∃ before, LineAt s l.1 before l.2 := by
  obtain ⟨p, hp, rfl⟩ := List.mem_map.mp h
  exact exists_lineAt (List.mem_zipIdx_iff_getElem?.mp hp)

lemma pairwise_numberedLines (s : List Char) :
    (numberedLines s).Pairwise fun k l => k.1 < l.1 := by
  have hindex : ((lines s).zipIdx.map Prod.snd).Pairwise (· < ·) := by
    rw [List.zipIdx_map_snd]
    exact List.pairwise_lt_range'
  rw [numberedLines, List.pairwise_map]
  exact (List.pairwise_map.mp hindex).imp Nat.succ_lt_succ

/-! ### The line that holds a character -/

lemma dropReturn_append_cons (hc : c ≠ '\r') (s t : List Char) :
    dropReturn (s ++ c :: t) = s ++ c :: dropReturn t := by
  rw [dropReturn, dropReturn]
  cases t with
  | nil => simp [hc]
  | cons d t =>
      rw [List.getLast?_append_of_ne_nil _ (List.cons_ne_nil c _), List.getLast?_cons_cons]
      split_ifs
      · rw [List.dropLast_append_of_ne_nil (List.cons_ne_nil c _), List.dropLast_cons_cons]
      · rfl

/-- A character that is no part of a line end is kept in its line. -/
lemma exists_head?_lines (hnewline : c ≠ '\n') (hreturn : c ≠ '\r') (hs : '\n' ∉ s)
    (t : List Char) : ∃ back, (lines (s ++ c :: t)).head? = some (s ++ c :: back) := by
  by_cases ht : '\n' ∈ t
  · obtain ⟨p, t, rfl, hp⟩ := List.eq_append_cons_of_mem ht
    have hnone : '\n' ∉ s ++ c :: p := by simp [hs, hp, Ne.symm hnewline]
    refine ⟨dropReturn p, ?_⟩
    rw [← List.cons_append, ← List.append_assoc, lines_append_newline hnone,
      dropReturn_append_cons hreturn, List.head?_cons]
  · have hnone : '\n' ∉ s ++ c :: t := by simp [hs, ht, Ne.symm hnewline]
    refine ⟨t, ?_⟩
    rw [lines_of_notMem hnone (by simp), List.head?_cons]

/-- Such a character stands on the line that its place counts. -/
lemma exists_lineAt_append (hnewline : c ≠ '\n') (hreturn : c ≠ '\r') (p q : List Char) :
    ∃ before front back, p = before ++ front ∧
      LineAt (p ++ c :: q) (lineCount p + 1) before (front ++ c :: back) := by
  obtain ⟨before, front, rfl, hwhole, hfront⟩ := exists_isWhole_append p
  obtain ⟨back, hhead⟩ := exists_head?_lines hnewline hreturn hfront q
  refine ⟨before, front, back, rfl, ?_⟩
  rw [lineCount_append, lineCount_of_notMem hfront, Nat.add_zero, List.append_assoc]
  exact lineAt_append hwhole hhead

end Lines

end DocLint.Text
