/-
The lines that are fences.

* `Cut`: blanks, then three or more of one mark, then what does not go on with it. `Cut.line` is
  the line that these make, and `Cut.fence` the fence.
* `ofLine?_line`: such a line is read as its fence; `exists_cut`: and no other line is read as
  one. `Cut.eq_of_line_eq`: a line has at most one cut.
* `ofBytes?`: the mark is told by a byte, its run is counted in bytes, and so many bytes are cut
  off; `ofBytes?_eq`: the same lines are the same fences, as what is left is always a text.
* `ofLine?_iff_cut`: **the lines that are fences** are those with a cut.
-/
import Mathlib.Data.List.Basic
import Mathlib.Tactic.Common
import DocLint.Fence
import DocLint.Proofs.Text.Trim
import DocLint.Proofs.Text.Utf8

namespace DocLint.Fence

variable {l s : List Char} {f : Fence} {m : Mark}

/-! ### Runs -/

section Run

variable {α : Type} [DecidableEq α] {a : α} {t : List α}

lemma takeWhile_replicate_append (n : ℕ) (ht : t.head? ≠ some a) :
    (List.replicate n a ++ t).takeWhile (· = a) = List.replicate n a := by
  refine Text.takeWhile_append_of_head? (fun b hb => ?_) fun b hb => ?_
  · exact decide_eq_true (List.eq_of_mem_replicate hb)
  · exact decide_eq_false fun hba => ht (hba ▸ hb)

lemma dropWhile_replicate_append (n : ℕ) (ht : t.head? ≠ some a) :
    (List.replicate n a ++ t).dropWhile (· = a) = t := by
  refine Text.dropWhile_append_of_head? (fun b hb => ?_) fun b hb => ?_
  · exact decide_eq_true (List.eq_of_mem_replicate hb)
  · exact decide_eq_false fun hba => ht (hba ▸ hb)

/-- Any list begins with a run of any element, which may be empty. -/
lemma replicate_append_dropWhile (a : α) (t : List α) :
    List.replicate (t.takeWhile (· = a)).length a ++ t.dropWhile (· = a) = t := by
  have hrun : t.takeWhile (· = a) = List.replicate (t.takeWhile (· = a)).length a :=
    List.eq_replicate_of_mem fun b hb => by simpa using List.mem_takeWhile_imp hb
  rw [← hrun, List.takeWhile_append_dropWhile]

lemma head?_dropWhile_ne (a : α) (t : List α) : (t.dropWhile (· = a)).head? ≠ some a := fun h => by
  simpa using Text.eq_false_of_head?_dropWhile h

end Run

/-! ### Cuts -/

/-- A line as a fence: blanks, then three or more of one mark, then what does not go on with
it. -/
structure Cut where
  blanks : List Char
  mark : Mark
  run : ℕ
  rest : List Char
  isBlank_of_mem : ∀ c ∈ blanks, Text.isBlank c = true
  three_le : 3 ≤ run
  head?_ne : rest.head? ≠ some mark.char

lemma Mark.isBlank_char (m : Mark) : Text.isBlank m.char = false := by
  cases m <;> decide

lemma Mark.ofFront?_eq_some_iff : Mark.ofFront? s = some m ↔ s.head? = some m.char := by
  cases s with
  | nil => simp [Mark.ofFront?]
  | cons c s =>
      rw [Mark.ofFront?, List.head?_cons]
      cases m <;> grind [Mark.char]

namespace Cut

/-- The run of the mark, and what follows it. -/
def marked (c : Cut) : List Char :=
  List.replicate c.run c.mark.char ++ c.rest

/-- The line. -/
def line (c : Cut) : List Char :=
  c.blanks ++ c.marked

/-- The fence. -/
def fence (c : Cut) : Fence :=
  ⟨c.mark, c.rest⟩

lemma head?_marked (c : Cut) : c.marked.head? = some c.mark.char := by
  obtain ⟨k, hk⟩ := Nat.exists_eq_succ_of_ne_zero (Nat.ne_zero_of_lt c.three_le)
  rw [marked, hk, List.replicate_succ, List.cons_append, List.head?_cons]

/-- The blanks end where the run begins. -/
lemma isBlank_of_head?_marked (c : Cut) (d : Char) (h : c.marked.head? = some d) :
    Text.isBlank d = false := by
  rw [head?_marked] at h
  rw [← Option.some.inj h, Mark.isBlank_char]

lemma takeWhile_line (c : Cut) : c.line.takeWhile Text.isBlank = c.blanks :=
  Text.takeWhile_append_of_head? c.isBlank_of_mem c.isBlank_of_head?_marked

lemma trimStart_line (c : Cut) : Text.trimStart c.line = c.marked :=
  Text.dropWhile_append_of_head? c.isBlank_of_mem c.isBlank_of_head?_marked

/-- **A line with a cut** is read as its fence. -/
lemma ofLine?_line (c : Cut) : ofLine? c.line = some c.fence := by
  have hfront : Mark.ofFront? c.marked = some c.mark :=
    Mark.ofFront?_eq_some_iff.mpr c.head?_marked
  have htake : c.marked.takeWhile (· = c.mark.char) = List.replicate c.run c.mark.char :=
    takeWhile_replicate_append c.run c.head?_ne
  have hdrop : c.marked.dropWhile (· = c.mark.char) = c.rest :=
    dropWhile_replicate_append c.run c.head?_ne
  rw [ofLine?, trimStart_line]
  simp only [hfront, htake, hdrop, List.length_replicate, if_pos c.three_le, fence]

/-- Two cuts of one line are the same: its front are the blanks, its fence is the mark and the
rest, and what is left is the run. -/
lemma eq_of_line_eq {c d : Cut} (h : c.line = d.line) : c = d := by
  have hblanks : c.blanks = d.blanks := by rw [← c.takeWhile_line, h, d.takeWhile_line]
  have hfence : c.fence = d.fence :=
    Option.some.inj (by rw [← c.ofLine?_line, h, d.ofLine?_line])
  have hmarked : c.marked = d.marked := by rw [← c.trimStart_line, h, d.trimStart_line]
  obtain ⟨hmark, hrest⟩ := Fence.mk.inj hfence
  have hrun : c.run = d.run := by
    have hlength := congrArg List.length hmarked
    rw [marked, marked, List.length_append, List.length_append, List.length_replicate,
      List.length_replicate, hrest] at hlength
    exact Nat.add_right_cancel hlength
  cases c
  cases d
  subst hblanks hmark hrest hrun
  rfl

end Cut

/-- **A line that is read as a fence** has a cut. -/
lemma exists_cut (h : ofLine? l = some f) : ∃ c : Cut, c.line = l ∧ c.fence = f := by
  rw [ofLine?] at h
  cases hfront : Mark.ofFront? (Text.trimStart l) with
  | none => simp [hfront] at h
  | some m =>
      simp only [hfront, Option.ite_none_right_eq_some, Option.some.injEq] at h
      obtain ⟨hthree, rfl⟩ := h
      refine ⟨⟨l.takeWhile Text.isBlank, m, _, _, fun c => List.mem_takeWhile_imp, hthree,
        head?_dropWhile_ne m.char (Text.trimStart l)⟩, ?_, rfl⟩
      rw [Cut.line, Cut.marked, replicate_append_dropWhile]
      exact List.takeWhile_append_dropWhile

lemma ofLine?_eq_some_iff : ofLine? l = some f ↔ ∃ c : Cut, c.line = l ∧ c.fence = f := by
  refine ⟨exists_cut, ?_⟩
  rintro ⟨c, rfl, rfl⟩
  exact c.ofLine?_line

lemma ofLine?_eq_none_iff : ofLine? l = none ↔ ∀ c : Cut, c.line ≠ l := by
  constructor
  · rintro h c rfl
    cases h.symm.trans c.ofLine?_line
  · intro h
    cases hf : ofLine? l with
    | none => rfl
    | some f =>
        obtain ⟨c, hc, -⟩ := exists_cut hf
        exact absurd hc (h c)

/-! ### In bytes -/

/-- The byte of a mark. -/
def Mark.byte : Mark → UInt8
  | .backtick => 0x60
  | .tilde => 0x7E

/-- The mark that bytes start with. -/
def Mark.ofByte? : List UInt8 → Option Mark
  | b :: _ => if b = Mark.backtick.byte then some .backtick
      else if b = Mark.tilde.byte then some .tilde else none
  | [] => none

/-- The fence that a line is, found in its bytes: what is left of them behind the run has to be a
text. -/
def ofBytes? (line : List Char) : Option Fence :=
  let bs := Text.Utf8.encode (Text.trimStart line)
  match Mark.ofByte? bs with
  | none => none
  | some m =>
    let run := (bs.takeWhile (· = m.byte)).length
    if 3 ≤ run then (Text.Utf8.decode? (bs.drop run)).map (Fence.mk m) else none

/-- Only a mark has its byte as the first one. -/
lemma Mark.head?_encodeChar_iff (m : Mark) (c : Char) :
    (String.utf8EncodeChar c).head? = some m.byte ↔ c = m.char := by
  constructor
  · intro h
    have hmem : m.byte ∈ String.utf8EncodeChar c := List.mem_of_head? h
    rw [Text.Utf8.eq_of_mem_encodeChar hmem (by cases m <;> decide)]
    cases m <;> rfl
  · rintro rfl
    cases m <;> rfl

lemma head?_encode_cons (c : Char) (s : List Char) :
    (Text.Utf8.encode (c :: s)).head? = (String.utf8EncodeChar c).head? := by
  rw [Text.Utf8.encode_cons, List.head?_append_of_ne_nil _ String.utf8EncodeChar_ne_nil]

lemma Mark.head?_encode_iff (m : Mark) (s : List Char) :
    (Text.Utf8.encode s).head? = some m.byte ↔ s.head? = some m.char := by
  cases s with
  | nil => exact iff_of_false (Option.some_ne_none _).symm (Option.some_ne_none _).symm
  | cons c s =>
      rw [head?_encode_cons, m.head?_encodeChar_iff, List.head?_cons, Option.some.injEq]

lemma Mark.ofByte?_eq_some_iff {bs : List UInt8} :
    Mark.ofByte? bs = some m ↔ bs.head? = some m.byte := by
  cases bs with
  | nil => simp [Mark.ofByte?]
  | cons b bs =>
      rw [Mark.ofByte?, List.head?_cons]
      cases m <;> grind [Mark.byte]

lemma Mark.ofByte?_encode (s : List Char) :
    Mark.ofByte? (Text.Utf8.encode s) = Mark.ofFront? s := by
  refine Option.ext fun m => ?_
  rw [Mark.ofByte?_eq_some_iff, Mark.ofFront?_eq_some_iff, m.head?_encode_iff]

/-- A run has one byte for each of its characters, and what follows it starts with another
byte. -/
lemma Mark.encode_eq (m : Mark) (s : List Char) :
    Text.Utf8.encode s = List.replicate (s.takeWhile (· = m.char)).length m.byte ++
      Text.Utf8.encode (s.dropWhile (· = m.char)) := by
  have hchar : String.utf8EncodeChar m.char = [m.byte] := by cases m <;> rfl
  conv_lhs => rw [← replicate_append_dropWhile m.char s, Text.Utf8.encode_append]
  rw [Text.Utf8.encode, List.flatMap_replicate, hchar, List.flatten_replicate_singleton]

/-- **Counting bytes** finds the same fences. -/
lemma ofBytes?_eq (line : List Char) : ofBytes? line = ofLine? line := by
  rw [ofBytes?, ofLine?, Mark.ofByte?_encode]
  generalize Text.trimStart line = s
  cases Mark.ofFront? s with
  | none => rfl
  | some m =>
      have hhead : (Text.Utf8.encode (s.dropWhile (· = m.char))).head? ≠ some m.byte := by
        rw [Ne, m.head?_encode_iff]
        exact head?_dropWhile_ne m.char s
      have hrun : ((Text.Utf8.encode s).takeWhile (· = m.byte)).length =
          (s.takeWhile (· = m.char)).length := by
        rw [m.encode_eq, takeWhile_replicate_append _ hhead, List.length_replicate]
      have hdrop : (Text.Utf8.encode s).drop (s.takeWhile (· = m.char)).length =
          Text.Utf8.encode (s.dropWhile (· = m.char)) := by
        conv_lhs => rw [m.encode_eq]
        exact List.drop_left' List.length_replicate
      simp only [hrun, hdrop, Text.Utf8.decode?_encode, Option.map_some]

/-! ### Lines -/

/-- **The lines that are fences**: a line is read as a fence exactly if it has a cut with that
fence, it has at most one cut, and it is read as none exactly if it has no cut. Counting bytes
instead of characters finds the same. -/
theorem ofLine?_iff_cut (line : List Char) :
    (∀ f, ofLine? line = some f ↔ ∃ c : Cut, c.line = line ∧ c.fence = f) ∧
    (∀ c d : Cut, c.line = line → d.line = line → c = d) ∧
    (ofLine? line = none ↔ ∀ c : Cut, c.line ≠ line) ∧
    ofBytes? line = ofLine? line :=
  ⟨fun _ => ofLine?_eq_some_iff, fun _ _ hc hd => Cut.eq_of_line_eq (hc.trans hd.symm),
    ofLine?_eq_none_iff, ofBytes?_eq line⟩

/-- Behind an ideographic space, tildes are no part of a run of backticks. -/
example : ofLine? "\u3000```~~~".toList = some ⟨.backtick, "~~~".toList⟩ ∧
    ofLine? "``~".toList = none ∧ ofLine? "\u200b```".toList = none := by decide

end DocLint.Fence
