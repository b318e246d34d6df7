/-
Texts whose lines end in a carriage return and a line feed.

* `withReturns`: a text with a carriage return in front of every line feed.
* `lines_withReturns`: it has the same lines, if it had no carriage returns before;
  `trim_withReturns`: it is trimmed to the same.
* `exists_eq_append_cons_of_withReturns`: where a character stands in it that is no part of a
  line end, there stands one in the text that it was made of.
* `newlinesBefore`: the line feeds among the first bytes of a text, which are those before a
  place (`newlinesBefore_append`).
-/
import DocLint.Proofs.Text.Lines
import DocLint.Proofs.Text.Trim
import DocLint.Proofs.Text.Utf8
import DocLint.Text.ByteCount

namespace DocLint.Text

variable {s t a b : List Char} {c : Char}

/-- The text with a carriage return in front of every line feed. -/
def withReturns (s : List Char) : List Char :=
  s.flatMap fun c => if c = '\n' then ['\r', '\n'] else [c]

@[simp]
lemma withReturns_nil : withReturns [] = [] := rfl

@[simp]
lemma withReturns_append (s t : List Char) :
    withReturns (s ++ t) = withReturns s ++ withReturns t :=
  List.flatMap_append

lemma withReturns_cons_newline (s : List Char) :
    withReturns ('\n' :: s) = '\r' :: '\n' :: withReturns s := rfl

lemma withReturns_cons (hc : c ≠ '\n') (s : List Char) :
    withReturns (c :: s) = c :: withReturns s := by
  rw [withReturns, List.flatMap_cons, if_neg hc]
  rfl

lemma withReturns_of_notMem (h : '\n' ∉ s) : withReturns s = s := by
  induction s with
  | nil => rfl
  | cons c s ih =>
      rw [List.mem_cons, not_or] at h
      rw [withReturns_cons (Ne.symm h.1), ih h.2]

lemma withReturns_eq_nil_iff : withReturns s = [] ↔ s = [] := by
  cases s with
  | nil => simp
  | cons c s =>
      by_cases hc : c = '\n'
      · simp [hc, withReturns_cons_newline]
      · simp [withReturns_cons hc]

lemma mem_withReturns_iff (hc : c ≠ '\r') : c ∈ withReturns s ↔ c ∈ s := by
  induction s with
  | nil => rfl
  | cons d s ih =>
      by_cases hd : d = '\n'
      · subst hd
        rw [withReturns_cons_newline, List.mem_cons, List.mem_cons, List.mem_cons, ih]
        exact ⟨fun h => h.resolve_left hc, Or.inr⟩
      · rw [withReturns_cons hd, List.mem_cons, List.mem_cons, ih]

/-! ### What stays as it is -/

lemma lineCount_withReturns (s : List Char) : lineCount (withReturns s) = lineCount s := by
  induction s with
  | nil => rfl
  | cons c s ih =>
      by_cases hc : c = '\n'
      · subst hc
        rw [withReturns_cons_newline, lineCount_cons (by decide), lineCount_cons_newline, ih,
          lineCount_cons_newline]
      · rw [withReturns_cons hc, lineCount_cons hc, ih, lineCount_cons hc]

/-- Every line end is one byte longer. -/
lemma byteCount_withReturns (s : List Char) :
    byteCount (withReturns s) = byteCount s + lineCount s := by
  induction s with
  | nil => rfl
  | cons c s ih =>
      by_cases hc : c = '\n'
      · subst hc
        have hreturn : '\r'.utf8Size = 1 := by decide
        rw [withReturns_cons_newline, byteCount_cons, byteCount_cons, byteCount_cons, ih,
          lineCount_cons_newline, hreturn]
        omega
      · rw [withReturns_cons hc, byteCount_cons, byteCount_cons, ih, lineCount_cons hc,
          Nat.add_assoc]

/-- **Lines** are the same with either line end. -/
lemma lines_withReturns (h : '\r' ∉ s) : lines (withReturns s) = lines s := by
  induction s using line_induction with
  | last p hp => rw [withReturns_of_notMem hp]
  | line p t hp ih =>
      rw [List.mem_append, List.mem_cons, not_or, not_or] at h
      obtain ⟨hreturn, -, ht⟩ := h
      have hsplit : withReturns (p ++ '\n' :: t) = (p ++ ['\r']) ++ '\n' :: withReturns t := by
        rw [withReturns_append, withReturns_of_notMem hp, withReturns_cons_newline]
        simp
      have hnone : '\n' ∉ p ++ ['\r'] := by simp [hp]
      have hline : dropReturn (p ++ ['\r']) = p := by simp [dropReturn]
      have hkeep : dropReturn p = p :=
        if_neg fun hlast => hreturn (List.mem_of_getLast? hlast)
      rw [hsplit, lines_append_newline hnone, lines_append_newline hp, hline, hkeep, ih ht]

/-! ### Trimming -/

lemma isBlank_return : isBlank '\r' = true := by decide

lemma isBlank_newline : isBlank '\n' = true := by decide

lemma trimStart_withReturns (s : List Char) :
    trimStart (withReturns s) = withReturns (trimStart s) := by
  rw [trimStart, trimStart]
  induction s with
  | nil => rfl
  | cons c s ih =>
      by_cases hc : c = '\n'
      · subst hc
        rw [withReturns_cons_newline, List.dropWhile_cons_of_pos isBlank_return,
          List.dropWhile_cons_of_pos isBlank_newline, List.dropWhile_cons_of_pos isBlank_newline,
          ih]
      · rw [withReturns_cons hc]
        by_cases hblank : isBlank c = true
        · rw [List.dropWhile_cons_of_pos hblank, List.dropWhile_cons_of_pos hblank, ih]
        · rw [List.dropWhile_cons_of_neg hblank, List.dropWhile_cons_of_neg hblank,
            withReturns_cons hc]

lemma trimEnd_withReturns (s : List Char) :
    trimEnd (withReturns s) = withReturns (trimEnd s) := by
  rw [trimEnd_eq_rdropWhile, trimEnd_eq_rdropWhile]
  induction s using List.reverseRecOn with
  | nil => rfl
  | append_singleton s c ih =>
      by_cases hc : c = '\n'
      · subst hc
        have hsplit : withReturns (s ++ ['\n']) = withReturns s ++ ['\r'] ++ ['\n'] := by
          simp [withReturns_cons_newline]
        rw [hsplit, List.rdropWhile_concat_pos _ _ _ isBlank_newline,
          List.rdropWhile_concat_pos _ _ _ isBlank_return,
          List.rdropWhile_concat_pos _ _ _ isBlank_newline, ih]
      · have hsplit : withReturns (s ++ [c]) = withReturns s ++ [c] := by
          rw [withReturns_append, withReturns_cons hc, withReturns_nil]
        rw [hsplit]
        by_cases hblank : isBlank c = true
        · rw [List.rdropWhile_concat_pos _ _ _ hblank, List.rdropWhile_concat_pos _ _ _ hblank, ih]
        · rw [List.rdropWhile_concat_neg _ _ _ hblank, List.rdropWhile_concat_neg _ _ _ hblank,
            hsplit]

/-- Line ends at either end of a text are trimmed away whole. -/
lemma trim_withReturns (s : List Char) : trim (withReturns s) = withReturns (trim s) := by
  rw [trim, trim, trimStart_withReturns, trimEnd_withReturns]

/-! ### Places -/

/-- A character that is no part of a line end was there before. -/
lemma exists_eq_append_cons_of_withReturns (hnewline : c ≠ '\n') (hreturn : c ≠ '\r')
    (h : withReturns s = a ++ c :: b) :
    ∃ a' b', s = a' ++ c :: b' ∧ withReturns a' = a ∧ withReturns b' = b := by
  induction s generalizing a with
  | nil => simp at h
  | cons d s ih =>
      by_cases hd : d = '\n'
      · subst hd
        rw [withReturns_cons_newline] at h
        -- Both characters of the line end stand before the one that is looked for.
        match a, h with
        | [], h => exact absurd (List.cons.inj h).1.symm hreturn
        | [_], h => exact absurd (List.cons.inj (List.cons.inj h).2).1.symm hnewline
        | x :: y :: a, h =>
            obtain ⟨hx, h⟩ := List.cons.inj h
            obtain ⟨hy, h⟩ := List.cons.inj h
            obtain ⟨a', b', rfl, ha, hb⟩ := ih h
            refine ⟨'\n' :: a', b', rfl, ?_, hb⟩
            rw [withReturns_cons_newline, ha, hx, hy]
      · rw [withReturns_cons hd] at h
        cases a with
        | nil =>
            obtain ⟨rfl, hb⟩ := List.cons.inj h
            exact ⟨[], s, rfl, rfl, hb⟩
        | cons x a =>
            obtain ⟨hx, h⟩ := List.cons.inj h
            obtain ⟨a', b', rfl, ha, hb⟩ := ih h
            refine ⟨d :: a', b', rfl, ?_, hb⟩
            rw [withReturns_cons hd, ha, hx]

/-- The number of line feeds among the first bytes of a text. -/
def newlinesBefore (offset : ℕ) (s : List Char) : ℕ :=
  ((Utf8.encode s).take offset).count 0x0A

lemma count_newline_encode (s : List Char) : (Utf8.encode s).count 0x0A = lineCount s := by
  have hone : ∀ c : Char, (String.utf8EncodeChar c).count 0x0A = if c = '\n' then 1 else 0 := by
    intro c
    split_ifs with hc
    · subst hc
      decide
    · refine List.count_eq_zero_of_not_mem fun h => hc ?_
      exact Utf8.eq_of_mem_encodeChar h (by decide)
  induction s with
  | nil => rfl
  | cons c s ih =>
      rw [Utf8.encode_cons, List.count_append, hone, ih]
      split_ifs with hc
      · rw [hc, lineCount_cons_newline, Nat.add_comm]
      · rw [lineCount_cons hc, Nat.zero_add]

lemma length_encode (s : List Char) : (Utf8.encode s).length = byteCount s := by
  induction s with
  | nil => rfl
  | cons c s ih =>
      rw [Utf8.encode_cons, List.length_append, String.length_utf8EncodeChar, ih, byteCount_cons]

/-- Of the bytes of a text the first are those of what stands before a place. -/
lemma newlinesBefore_append (s t : List Char) :
    newlinesBefore (byteCount s) (s ++ t) = lineCount s := by
  rw [newlinesBefore, Utf8.encode_append, ← length_encode, List.take_left, count_newline_encode]

end DocLint.Text
