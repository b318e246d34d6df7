/-
Which of the forms in a text are its links.

* `Form.IsProper`: what the two parts of a form may hold. `form?_eq_some_iff`: a
  form is read exactly where a proper one is written, so at most one starts at
  any place.
* `Occurrence`: a form and the text before it. `eq_of_offset_eq`: the occurrences
  in a text differ in their offsets.
* `IsGreedy`: occurrences that are taken from the left, each the first one behind
  the one before. `IsGreedy.unique`, `IsGreedy.exists_mem`: there is one way to
  do so, and no form starts outside all that are taken; `IsGreedy.pairwise_offset`:
  they are taken in order.
* `exists_isGreedy`, `exists_isGreedy_extract`: a walk through a text takes its links
  so.
* `extract_eq_map_link`: the links of a text are the occurrences that are taken from
  its start, each with its parts, its line and its offset.
-/
import Mathlib.Data.List.Basic
import Mathlib.Tactic.Common
import DocLint.Link.Extract

namespace DocLint.Link

/-! ### Proper forms -/

/-- Whether the parts of a form are such that it is read as it is written. -/
structure Form.IsProper (f : Form) : Prop where
  text_ne_nil : f.text ≠ []
  notMem_text : ']' ∉ f.text
  target_ne_nil : f.target ≠ []
  notMem_target : ')' ∉ f.target

lemma takeWhile_ne_append_cons {c : Char} {s : List Char} (h : c ∉ s) (t : List Char) :
    (s ++ c :: t).takeWhile (· ≠ c) = s := by
  rw [List.takeWhile_append_of_pos fun a ha => by simpa using fun hac : a = c => h (hac ▸ ha)]
  simp

lemma dropWhile_ne_append_cons {c : Char} {s : List Char} (h : c ∉ s) (t : List Char) :
    (s ++ c :: t).dropWhile (· ≠ c) = c :: t := by
  rw [List.dropWhile_append_of_pos fun a ha => by simpa using fun hac : a = c => h (hac ▸ ha)]
  simp

lemma target?_append {target : List Char} (hne : target ≠ []) (hmem : ')' ∉ target)
    (rest : List Char) : target? (']' :: '(' :: (target ++ ')' :: rest)) = some (target, rest) := by
  rw [target?, dropWhile_ne_append_cons hmem]
  simp only [takeWhile_ne_append_cons hmem, if_neg hne]

/-- A proper form is read as it is written. -/
lemma form?_written_append {f : Form} (hf : f.IsProper) (rest : List Char) :
    form? (f.written ++ rest) = some (f, rest) := by
  have hsplit : f.written ++ rest =
      '[' :: (f.text ++ ']' :: '(' :: (f.target ++ ')' :: rest)) := by
    simp [Form.written]
  rw [hsplit, form?]
  simp only [takeWhile_ne_append_cons hf.notMem_text, dropWhile_ne_append_cons hf.notMem_text,
    target?_append hf.target_ne_nil hf.notMem_target, if_neg hf.text_ne_nil]

lemma target_of_target? {s target rest : List Char} (h : target? s = some (target, rest)) :
    target ≠ [] ∧ ')' ∉ target := by
  unfold target? at h
  split at h
  · split at h
    · dsimp only at h
      split_ifs at h with hne
      cases h
      exact ⟨hne, not_mem_takeWhile_ne ')' _⟩
    · cases h
  · cases h

/-- What is read is a proper form. -/
lemma isProper_of_form? {s rest : List Char} {f : Form} (h : form? s = some (f, rest)) :
    f.IsProper := by
  unfold form? at h
  split at h
  · dsimp only at h
    split_ifs at h with hne
    split at h
    · next ht =>
      cases h
      obtain ⟨hne', hmem'⟩ := target_of_target? ht
      exact ⟨hne, not_mem_takeWhile_ne ']' _, hne', hmem'⟩
    · cases h
  · cases h

/-- A form is read exactly where a proper one is written. -/
lemma form?_eq_some_iff {s rest : List Char} {f : Form} :
    form? s = some (f, rest) ↔ f.IsProper ∧ s = f.written ++ rest := by
  constructor
  · intro h
    exact ⟨isProper_of_form? h, eq_written_append_of_form? h⟩
  · rintro ⟨hf, rfl⟩
    exact form?_written_append hf rest

lemma Form.written_ne_nil (f : Form) : f.written ≠ [] := List.cons_ne_nil _ _

/-- A form that is read is the first link. -/
lemma extractFrom_of_form? {s rest : List Char} {f : Form} (offset line : ℕ)
    (h : form? s = some (f, rest)) :
    extractFrom offset line s = ofForm f offset line ::
      extractFrom (offset + Text.byteCount f.written) (line + Text.lineCount f.written) rest := by
  cases s with
  | nil => cases h
  | cons c cs =>
      rw [extractFrom]
      split
      · next h' =>
        rw [h] at h'
        cases h'
        rfl
      · next h' =>
        rw [h] at h'
        cases h'

/-! ### Occurrences -/

/-- A form and the text before it. -/
structure Occurrence where
  before : List Char
  form : Form

namespace Occurrence

/-- Whether a text has a proper form at a place. -/
def IsIn (o : Occurrence) (s : List Char) : Prop :=
  o.form.IsProper ∧ o.before ++ o.form.written <+: s

/-- The number of bytes before the form. -/
def offset (o : Occurrence) : Nat :=
  Text.byteCount o.before

/-- The number of bytes up to the end of the form. -/
def stop (o : Occurrence) : Nat :=
  Text.byteCount (o.before ++ o.form.written)

/-- The link that the form is: its text, its target without the blanks around it,
the line it starts on and the bytes before it. -/
def link (o : Occurrence) : Link where
  text := o.form.text
  target := Text.trim o.form.target
  line := 1 + Text.lineCount o.before
  offset := o.offset

end Occurrence

variable {s p q : List Char} {o o' : Occurrence} {os os' : List Occurrence} {start : Nat}

/-- Of two beginnings of a text the one with fewer bytes is a beginning of the
other. -/
lemma prefix_of_byteCount_le (hp : p <+: s) (hq : q <+: s)
    (h : Text.byteCount p ≤ Text.byteCount q) : p <+: q := by
  rcases List.prefix_or_prefix_of_prefix hp hq with hpq | ⟨t, rfl⟩
  · exact hpq
  · rw [Text.byteCount_append] at h
    have ht : t = [] := Text.eq_nil_of_byteCount_eq_zero (by omega)
    exact ⟨[], by rw [ht, List.append_nil, List.append_nil]⟩

lemma eq_of_byteCount_eq (hp : p <+: s) (hq : q <+: s)
    (h : Text.byteCount p = Text.byteCount q) : p = q := by
  obtain ⟨t, rfl⟩ := prefix_of_byteCount_le hp hq (Nat.le_of_eq h)
  rw [Text.byteCount_append] at h
  have ht : t = [] := Text.eq_nil_of_byteCount_eq_zero (by omega)
  rw [ht, List.append_nil]

namespace Occurrence

lemma IsIn.prefix_before (h : o.IsIn s) : o.before <+: s :=
  (List.prefix_append _ _).trans h.2

lemma offset_lt_stop (o : Occurrence) : o.offset < o.stop := by
  have hpos : Text.byteCount o.form.written ≠ 0 := fun h =>
    o.form.written_ne_nil (Text.eq_nil_of_byteCount_eq_zero h)
  rw [offset, stop, Text.byteCount_append]
  omega

lemma IsIn.stop_le (h : o.IsIn s) : o.stop ≤ Text.byteCount s := by
  obtain ⟨t, rfl⟩ := h.2
  rw [stop, Text.byteCount_append _ t]
  omega

/-- A text has a form behind a stretch exactly if one is read there. -/
lemma isIn_iff {rest : List Char} :
    o.IsIn (o.before ++ rest) ↔ ∃ after, form? rest = some (o.form, after) := by
  rw [IsIn, List.prefix_append_right_inj]
  constructor
  · rintro ⟨hform, after, rfl⟩
    exact ⟨after, form?_written_append hform after⟩
  · rintro ⟨after, h⟩
    obtain ⟨hform, rfl⟩ := form?_eq_some_iff.mp h
    exact ⟨hform, List.prefix_append _ _⟩

/-- At most one form starts at an offset. -/
lemma eq_of_offset_eq (h : o.IsIn s) (h' : o'.IsIn s) (heq : o.offset = o'.offset) : o = o' := by
  obtain ⟨before, form⟩ := o
  obtain ⟨before', form'⟩ := o'
  obtain rfl : before = before' := eq_of_byteCount_eq h.prefix_before h'.prefix_before heq
  obtain ⟨rest, rfl⟩ := h.prefix_before
  obtain ⟨after, hread⟩ := isIn_iff.mp h
  obtain ⟨after', hread'⟩ := isIn_iff.mp h'
  cases hread.symm.trans hread'
  rfl

end Occurrence

/-- Of two forms the one that starts first is on no later line. -/
lemma Occurrence.line_le (h : o.IsIn s) (h' : o'.IsIn s) (hle : o.offset ≤ o'.offset) :
    o.link.line ≤ o'.link.line := by
  have hbefore := prefix_of_byteCount_le h.prefix_before h'.prefix_before hle
  exact Nat.add_le_add_left (hbefore.sublist.count_le '\n') 1

/-! ### Taking forms from the left -/

/-- Whether occurrences are those that are taken from an offset on: first the
leftmost form that starts there or later, then the leftmost one behind its end,
and so on until there is none. -/
inductive IsGreedy (s : List Char) : Nat → List Occurrence → Prop
  | done {start : Nat} (none : ∀ o : Occurrence, o.IsIn s → o.offset < start) :
      IsGreedy s start []
  | next {start : Nat} {o : Occurrence} {os : List Occurrence} (isIn : o.IsIn s)
      (start_le : start ≤ o.offset)
      (least : ∀ o' : Occurrence, o'.IsIn s → start ≤ o'.offset → o.offset ≤ o'.offset)
      (rest : IsGreedy s o.stop os) : IsGreedy s start (o :: os)

namespace IsGreedy

/-- There is one way to take forms from the left. -/
lemma unique (h : IsGreedy s start os) (h' : IsGreedy s start os') : os = os' := by
  induction h generalizing os' with
  | done hnone =>
      cases h' with
      | done => rfl
      | next hin hle => exact absurd (hnone _ hin) (Nat.not_lt.mpr hle)
  | @next start o os hin hle hleast _ ih =>
      cases h' with
      | done hnone => exact absurd (hnone _ hin) (Nat.not_lt.mpr hle)
      | @next _ o' os' hin' hle' hleast' hrest' =>
          have hoffset : o.offset = o'.offset :=
            Nat.le_antisymm (hleast _ hin' hle') (hleast' _ hin hle)
          obtain rfl := Occurrence.eq_of_offset_eq hin hin' hoffset
          rw [ih hrest']

/-- Every form from the start on begins within one that is taken. -/
lemma exists_mem (h : IsGreedy s start os) (ho : o.IsIn s) (hle : start ≤ o.offset) :
    ∃ o' ∈ os, o'.offset ≤ o.offset ∧ o.offset < o'.stop := by
  induction h with
  | done hnone => exact absurd (hnone o ho) (Nat.not_lt.mpr hle)
  | @next start o' os _ _ hleast _ ih =>
      by_cases hlt : o.offset < o'.stop
      · exact ⟨o', List.mem_cons_self, hleast o ho hle, hlt⟩
      · obtain ⟨o'', hmem, hwithin⟩ := ih (Nat.not_lt.mp hlt)
        exact ⟨o'', List.mem_cons_of_mem o' hmem, hwithin⟩

lemma isIn (h : IsGreedy s start os) (ho : o ∈ os) : o.IsIn s := by
  induction h with
  | done => cases ho
  | next hin _ _ _ ih =>
      rcases List.mem_cons.mp ho with rfl | ho
      · exact hin
      · exact ih ho

lemma start_le (h : IsGreedy s start os) (ho : o ∈ os) : start ≤ o.offset := by
  induction h with
  | done => cases ho
  | @next start o' os _ hle _ _ ih =>
      rcases List.mem_cons.mp ho with rfl | ho
      · exact hle
      · have hstop := Nat.le_trans hle (Nat.le_of_lt o'.offset_lt_stop)
        exact Nat.le_trans hstop (ih ho)

/-- Forms that are taken later stand further behind. -/
lemma pairwise_offset (h : IsGreedy s start os) : os.Pairwise fun o o' => o.offset < o'.offset := by
  induction h with
  | done => exact .nil
  | @next start o os _ _ _ hrest ih =>
      refine .cons (fun o' ho' => ?_) ih
      exact Nat.lt_of_lt_of_le o.offset_lt_stop (hrest.start_le ho')

/-- Offsets at which no form begins may be left out at the start. -/
lemma of_forall_lt {start' : Nat} (h : IsGreedy s start' os) (hle : start ≤ start')
    (hnone : ∀ o : Occurrence, o.IsIn s → start ≤ o.offset → start' ≤ o.offset) :
    IsGreedy s start os := by
  cases h with
  | done hlt =>
      refine .done fun o ho => ?_
      by_contra hstart
      exact absurd (hlt o ho) (Nat.not_lt.mpr (hnone o ho (Nat.not_lt.mp hstart)))
  | next hin hle' hleast hrest =>
      exact .next hin (Nat.le_trans hle hle') (fun o' ho' h' => hleast o' ho' (hnone o' ho' h')) hrest

end IsGreedy

/-- Where no form is read, none begins before the next character. -/
lemma byteCount_concat_le_offset {before cs : List Char} {c : Char}
    (hnone : form? (c :: cs) = none) (ho : o.IsIn (before ++ c :: cs))
    (hle : Text.byteCount before ≤ o.offset) :
    Text.byteCount (before ++ [c]) ≤ o.offset := by
  have hbefore : before <+: before ++ c :: cs := List.prefix_append _ _
  obtain ⟨t, ht⟩ := prefix_of_byteCount_le hbefore ho.prefix_before hle
  cases t with
  | nil =>
      -- The form would begin right here, where none is read.
      rw [List.append_nil] at ht
      subst ht
      obtain ⟨after, hread⟩ := Occurrence.isIn_iff.mp ho
      rw [hnone] at hread
      cases hread
  | cons d t =>
      have hd : before ++ d :: t <+: before ++ c :: cs := ht ▸ ho.prefix_before
      rw [List.prefix_append_right_inj, List.cons_prefix_cons] at hd
      rw [Occurrence.offset, ← ht, hd.1]
      simp only [Text.byteCount_append, Text.byteCount_cons, Text.byteCount_nil]
      omega

lemma lineCount_concat (before : List Char) (c : Char) :
    Text.lineCount (before ++ [c]) =
      if c = '\n' then Text.lineCount before + 1 else Text.lineCount before := by
  rw [Text.lineCount, Text.lineCount, List.count_append, List.count_singleton]
  by_cases h : c = '\n' <;> simp [h]

/-- **A walk takes the leftmost forms**: behind any stretch of a text it finds those
that are taken from there on. -/
lemma exists_isGreedy (before rest : List Char) :
    ∃ os, IsGreedy (before ++ rest) (Text.byteCount before) os ∧
      extractFrom (Text.byteCount before) (1 + Text.lineCount before) rest =
        os.map Occurrence.link := by
  induction hlen : rest.length using Nat.strongRecOn generalizing before rest with
  | ind n ih =>
    cases rest with
    | nil =>
        refine ⟨[], .done fun o ho => ?_, by rw [extractFrom, List.map_nil]⟩
        have hstop := ho.stop_le
        rw [List.append_nil] at hstop
        exact Nat.lt_of_lt_of_le o.offset_lt_stop hstop
    | cons c cs =>
        rw [extractFrom]
        split
        · next f after hread =>
          have hsplit := eq_written_append_of_form? hread
          have hlt := length_lt_of_form? hread
          obtain ⟨os, hos, hlinks⟩ := ih after.length (by omega) (before ++ f.written) after rfl
          rw [List.append_assoc, ← hsplit] at hos
          have hin : (Occurrence.mk before f).IsIn (before ++ c :: cs) :=
            Occurrence.isIn_iff.mpr ⟨after, hread⟩
          refine ⟨⟨before, f⟩ :: os, .next hin (Nat.le_refl _) (fun _ _ h => h) hos, ?_⟩
          have hline : Text.lineCount (before ++ f.written) =
              Text.lineCount before + Text.lineCount f.written := List.count_append
          rw [Text.byteCount_append, hline, ← Nat.add_assoc] at hlinks
          rw [hlinks, List.map_cons]
          rfl
        · next hread =>
          obtain ⟨os, hos, hlinks⟩ :=
            ih cs.length (by rw [← hlen, List.length_cons]; omega) (before ++ [c]) cs rfl
          rw [List.append_assoc, List.singleton_append] at hos
          refine ⟨os, hos.of_forall_lt ?_ fun o ho hle => ?_, ?_⟩
          · rw [Text.byteCount_append]
            omega
          · exact byteCount_concat_le_offset hread ho hle
          · have hbytes : Text.byteCount (before ++ [c]) =
                Text.byteCount before + c.utf8Size := by simp
            have hline : (if c = '\n' then 1 + Text.lineCount before + 1
                else 1 + Text.lineCount before) = 1 + Text.lineCount (before ++ [c]) := by
              rw [lineCount_concat]
              split_ifs <;> omega
            rw [hline, ← hbytes, hlinks]

lemma exists_isGreedy_extract (content : String) :
    ∃ os, IsGreedy content.toList 0 os ∧ extract content = os.map Occurrence.link := by
  obtain ⟨os, hos, hlinks⟩ := exists_isGreedy [] content.toList
  rw [List.nil_append, Text.byteCount_nil] at hos
  refine ⟨os, hos, ?_⟩
  rw [extract_eq_extractFrom]
  exact hlinks

/-- **The links of a text** are the forms in it that are taken one after another from
the left, with their own parts, lines and offsets; there is one way to take them,
and no form begins outside all that are taken. -/
theorem extract_eq_map_link (content : String) :
    ∃ os, IsGreedy content.toList 0 os ∧
      (∀ os', IsGreedy content.toList 0 os' → os' = os) ∧
      extract content = os.map Occurrence.link ∧
      ∀ o : Occurrence, o.IsIn content.toList →
        ∃ o' ∈ os, o'.offset ≤ o.offset ∧ o.offset < o'.stop := by
  obtain ⟨os, hos, hlinks⟩ := exists_isGreedy_extract content
  refine ⟨os, hos, ?_, hlinks, ?_⟩
  · intro os' hos'
    exact hos'.unique hos
  · intro o ho
    exact hos.exists_mem ho (Nat.zero_le _)

end DocLint.Link
