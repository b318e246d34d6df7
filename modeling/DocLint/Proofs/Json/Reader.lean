/-
Reading JSON texts.

* `readString?`, `readNumber?`, `readValue`: what stands at the front of a text, and
  what is left behind it; `read?`: the value of a document.
* `readValue_of_spells`: a text of a value is read as that value, whatever stands
  behind it that does not continue a number.
* `read_of_isText`, `IsText.unique`: so is a document, and it has no other value.
-/
import DocLint.Proofs.Json.Grammar
import DocLint.Proofs.Text.Trim

namespace DocLint.Json

/-! ### The reader -/

/-- A text from its first character on that is not white space. -/
def skip (s : List Char) : List Char :=
  s.dropWhile isSpace

/-- Reads one given character, with white space before it. -/
def expect? (c : Char) (s : List Char) : Option (List Char) :=
  if (skip s).head? = some c then some (skip s).tail else none

/-- Reads four hexadecimal digits. -/
def readUnit? (s : List Char) : Option (Nat × List Char) :=
  (codeUnit? (s.take 4)).map (·, s.drop 4)

/-- Reads the second of two surrogates. -/
def readLow? : List Char → Option (Nat × List Char)
  | '\\' :: 'u' :: s => (readUnit? s).filter fun p => 0xDC00 ≤ p.1 ∧ p.1 < 0xE000
  | _ => none

/-- Reads the code of a character, in one unit or two. -/
def readCode? (s : List Char) : Option (Char × List Char) :=
  (readUnit? s).bind fun p =>
    if 0xD800 ≤ p.1 ∧ p.1 < 0xDC00 then
      (readLow? p.2).map fun q => (Char.ofNat (pairCode p.1 q.1), q.2)
    else if p.1.isValidChar then some (Char.ofNat p.1, p.2)
    else none

/-- Reads what stands behind a backslash. -/
def readEscape? : List Char → Option (Char × List Char)
  | [] => none
  | e :: s => if e = 'u' then readCode? s else (shortEscape? e).map (·, s)

/-- Reads one character within quotes. -/
def readChar? : List Char → Option (Char × List Char)
  | [] => none
  | c :: s =>
    if c = '\\' then readEscape? s
    else if 0x20 ≤ c.toNat ∧ c ≠ '\x22' then some (c, s)
    else none

/-- Reads at most so many characters, and the quote behind them. -/
def readChars? : Nat → List Char → Option (List Char × List Char)
  | 0, _ => none
  | n + 1, s =>
    if s.head? = some '\x22' then some ([], s.tail)
    else (readChar? s).bind fun p => (readChars? n p.2).map fun q => (p.1 :: q.1, q.2)

/-- Reads a string. -/
def readString? (s : List Char) : Option (String × List Char) :=
  (expect? '\x22' s).bind fun r =>
    (readChars? r.length r).map fun p => (String.ofList p.1, p.2)

/-- Reads a number. -/
def readNumber? (s : List Char) : Option (Nat × List Char) :=
  let ds := s.takeWhile Char.isDigit
  if ds = [] ∨ (ds.head? = some '0' ∧ ds ≠ ['0']) then none
  else some (Nat.ofDigitChars 10 ds 0, s.dropWhile Char.isDigit)

section Lists

variable {α : Type} (item : List Char → Option (α × List Char)) (close : Char)

/-- Reads at most so many items, at least one, with commas between them and the closing
character behind them. -/
def readMore : Nat → List Char → Option (List α × List Char)
  | 0, _ => none
  | n + 1, s =>
    (item (skip s)).bind fun p =>
      match expect? ',' p.2 with
      | some r => (readMore n r).map fun q => (p.1 :: q.1, q.2)
      | none => (expect? close p.2).map ([p.1], ·)

/-- Reads items up to the closing character. -/
def readList (s : List Char) : Option (List α × List Char) :=
  match expect? close s with
  | some r => some ([], r)
  | none => readMore item close s.length s

end Lists

/-- Reads a field. -/
def readField (value : List Char → Option (Json × List Char)) (s : List Char) :
    Option ((String × Json) × List Char) :=
  (readString? s).bind fun p =>
    (expect? ':' p.2).bind fun r => (value (skip r)).map fun q => ((p.1, q.1), q.2)

/-- Reads a value that its first character tells from the others. -/
def readMarked (value : List Char → Option (Json × List Char)) :
    List Char → Option (Json × List Char)
  | '\x22' :: s => (readString? ('\x22' :: s)).map fun p => (string p.1, p.2)
  | '[' :: s => (readList value ']' s).map fun p => (array p.1, p.2)
  | '\x7b' :: s => (readList (readField value) '\x7d' s).map fun p => (object p.1, p.2)
  | 't' :: 'r' :: 'u' :: 'e' :: s => some (bool true, s)
  | 'f' :: 'a' :: 'l' :: 's' :: 'e' :: s => some (bool false, s)
  | _ => none

/-- Reads a value in which values are nested at most so many levels deep. -/
def readValue : Nat → List Char → Option (Json × List Char)
  | 0, _ => none
  | depth + 1, s =>
    if s.head?.any Char.isDigit then (readNumber? s).map fun p => (number p.1, p.2)
    else readMarked (readValue depth) s

/-- Reads a document. No value is nested deeper than its text is long. -/
def read? (s : List Char) : Option Json :=
  (readValue s.length (skip s)).bind fun p => if skip p.2 = [] then some p.1 else none

/-- Escapes are read in all their forms. -/
example : read? "[ \"\\u00E9\\uD834\\udd1e\\/\" , 10 ]".toList =
    some (array [string "é𝄞/", number 10]) := by rfl

/-! ### White space -/

lemma skip_append {w : List Char} (hw : IsGap w) (s : List Char) : skip (w ++ s) = skip s :=
  List.dropWhile_append_of_pos hw

lemma skip_cons {c : Char} (hc : isSpace c = false) (s : List Char) : skip (c :: s) = c :: s :=
  List.dropWhile_cons_of_neg (by rw [hc]; exact Bool.false_ne_true)

lemma expect_of_skip {c : Char} {s r : List Char} (h : skip s = c :: r) :
    expect? c s = some r := by
  rw [expect?, h, List.head?_cons, if_pos rfl, List.tail_cons]

lemma expect_eq_none {c d : Char} {s r : List Char} (h : skip s = d :: r) (hd : d ≠ c) :
    expect? c s = none := by
  rw [expect?, h, List.head?_cons, if_neg fun he => hd (Option.some.inj he)]

/-- What ends a number. -/
def Stops (r : List Char) : Prop :=
  ∀ c ∈ r.head?, c.isDigit = false

lemma isDigit_of_isSpace {c : Char} (h : isSpace c = true) : c.isDigit = false := by
  simp only [isSpace, Bool.or_eq_true, beq_iff_eq] at h
  rcases h with ((rfl | rfl) | rfl) | rfl <;> rfl

lemma Stops.append {w r : List Char} (hw : IsGap w) (hr : Stops r) : Stops (w ++ r) := by
  cases w with
  | nil => exact hr
  | cons c w =>
      intro d hd
      cases Option.some.inj hd
      exact isDigit_of_isSpace (hw c List.mem_cons_self)

lemma stops_cons {c : Char} (hc : c.isDigit = false) (r : List Char) : Stops (c :: r) := by
  intro d hd
  cases Option.some.inj hd
  exact hc

/-! ### Strings -/

lemma length_of_codeUnit {ds : List Char} {n : Nat} (h : codeUnit? ds = some n) :
    ds.length = 4 := by
  unfold codeUnit? at h
  split at h
  · rfl
  · cases h

lemma readUnit_append {ds : List Char} {n : Nat} (h : codeUnit? ds = some n) (r : List Char) :
    readUnit? (ds ++ r) = some (n, r) := by
  have hlen := length_of_codeUnit h
  rw [readUnit?, List.take_left' hlen, List.drop_left' hlen, h]
  rfl

lemma readLow_append {ds : List Char} {n : Nat} (h : codeUnit? ds = some n)
    (hlow : 0xDC00 ≤ n ∧ n < 0xE000) (r : List Char) :
    readLow? ('\\' :: 'u' :: (ds ++ r)) = some (n, r) := by
  rw [readLow?, readUnit_append h]
  exact if_pos (decide_eq_true hlow)

/-- A character is read from whatever may stand for it. -/
lemma readChar_of_spells {c : Char} {t : List Char} (h : SpellsChar c t) (r : List Char) :
    readChar? (t ++ r) = some (c, r) := by
  cases h with
  | plain hcontrol hquote hslash =>
      rw [List.singleton_append, readChar?, if_neg hslash, if_pos ⟨hcontrol, hquote⟩]
  | @short e c h =>
      have he : e ≠ 'u' := by
        rintro rfl
        cases h
      rw [List.cons_append, List.cons_append, readChar?, if_pos rfl, readEscape?, if_neg he, h]
      rfl
  | @unit ds n h hn =>
      have hhigh : ¬ (0xD800 ≤ n ∧ n < 0xDC00) := by
        rcases hn with hn | hn <;> omega
      rw [List.cons_append, List.cons_append, readChar?, if_pos rfl, readEscape?, if_pos rfl,
        readCode?, readUnit_append h, Option.bind_some, if_neg hhigh, if_pos hn]
  | pair hds hhigh hes hlow =>
      rw [List.cons_append, List.cons_append, List.append_assoc, readChar?, if_pos rfl,
        readEscape?, if_pos rfl, readCode?, readUnit_append hds, Option.bind_some, if_pos hhigh,
        List.cons_append, List.cons_append, readLow_append hes hlow]
      rfl

/-- No quote stands for a character, so the one behind them is found. -/
lemma head_ne_of_spells {c : Char} {t : List Char} (h : SpellsChar c t) (r : List Char) :
    (t ++ r).head? ≠ some '\x22' := by
  intro hhead
  cases h with
  | plain hcontrol hquote hslash => exact hquote (Option.some.inj hhead)
  | short h => exact absurd (Option.some.inj hhead) (by decide)
  | unit h hn => exact absurd (Option.some.inj hhead) (by decide)
  | pair hds hhigh hes hlow => exact absurd (Option.some.inj hhead) (by decide)

lemma length_pos_of_spells {c : Char} {t : List Char} (h : SpellsChar c t) : 0 < t.length := by
  cases h <;> exact Nat.zero_lt_succ _

lemma readChars_of_spells {cs t : List Char} (h : SpellsChars cs t) (r : List Char) {n : Nat}
    (hn : t.length < n) : readChars? n (t ++ '\x22' :: r) = some (cs, r) := by
  induction h generalizing n with
  | nil =>
      obtain ⟨n, rfl⟩ := Nat.exists_eq_succ_of_ne_zero (Nat.ne_of_gt hn)
      rfl
  | @cons c cs t u h hrest ih =>
      obtain ⟨n, rfl⟩ := Nat.exists_eq_succ_of_ne_zero (Nat.ne_zero_of_lt hn)
      have hpos := length_pos_of_spells h
      rw [List.length_append] at hn
      rw [List.append_assoc, readChars?, if_neg (head_ne_of_spells h _), readChar_of_spells h,
        Option.bind_some, ih (by omega)]
      rfl

lemma readString_of_spells {v : String} {s : List Char} (h : SpellsString v s) (r : List Char) :
    readString? (s ++ r) = some (v, r) := by
  obtain ⟨t, ht, rfl⟩ := h
  have hopen : expect? '\x22' ('\x22' :: (t ++ ['\x22']) ++ r) = some (t ++ '\x22' :: r) := by
    rw [List.cons_append, List.append_assoc]
    exact expect_of_skip (skip_cons rfl _)
  rw [readString?, hopen, Option.bind_some, readChars_of_spells ht r (by simp),
    Option.map_some, String.ofList_toList]

/-! ### Numbers -/

lemma readNumber_of_spells {n : Nat} {s r : List Char} (h : SpellsNumber n s) (hr : Stops r) :
    readNumber? (s ++ r) = some (n, r) := by
  have htake := Text.takeWhile_append_of_head? h.isDigit hr
  have hdrop := Text.dropWhile_append_of_head? h.isDigit hr
  have hwell : ¬ (s = [] ∨ (s.head? = some '0' ∧ s ≠ ['0'])) := by
    rintro (hnil | ⟨hhead, hne⟩)
    · exact h.ne_nil hnil
    · exact hne (h.head_ne hhead)
  rw [readNumber?, htake, hdrop, if_neg hwell, h.value]

lemma any_isDigit_of_spells {n : Nat} {s : List Char} (h : SpellsNumber n s) (r : List Char) :
    (s ++ r).head?.any Char.isDigit = true := by
  obtain ⟨c, t, rfl⟩ := List.exists_cons_of_ne_nil h.ne_nil
  exact h.isDigit c List.mem_cons_self

/-! ### Lists -/

/-- Whether all texts of a kind start with a character that is neither white space nor the
one that closes a list. -/
def Starts (P : List Char → Prop) (close : Char) : Prop :=
  ∀ s, P s → ∃ c t, s = c :: t ∧ isSpace c = false ∧ c ≠ close

section Lists

variable {α : Type} {item : List Char → Option (α × List Char)} {close : Char}
  {P : List Char → Prop} {x : α} {xs : List α} {s t r r' : List Char} {n k : Nat}

lemma expect_of_spaced (hP : Starts P close) (h : Spaced P t) (r : List Char) :
    expect? close (t ++ r) = none := by
  obtain ⟨w, s, w', hw, hs, -, rfl⟩ := h
  obtain ⟨c, s, rfl, hc, hclose⟩ := hP s hs
  refine expect_eq_none (r := s ++ (w' ++ r)) ?_ hclose
  rw [List.append_assoc, List.append_assoc, skip_append hw]
  exact skip_cons hc _

/-- What is read off its texts is read off them between white space. -/
lemma read_of_spaced (hP : Starts P close) (h : Spaced P t) (hk : t.length ≤ k) (hr : Stops r)
    (hitem : ∀ {s r}, P s → s.length ≤ k → Stops r → item (s ++ r) = some (x, r)) :
    ∃ r', item (skip (t ++ r)) = some (x, r') ∧ skip r' = skip r := by
  obtain ⟨w, s, w', hw, hs, hw', rfl⟩ := h
  have hlen : s.length ≤ k := by
    rw [List.length_append, List.length_append] at hk
    omega
  refine ⟨w' ++ r, ?_, skip_append hw' r⟩
  rw [List.append_assoc, List.append_assoc, skip_append hw, ← hitem hs hlen (hr.append hw')]
  obtain ⟨c, s, rfl, hc, -⟩ := hP s hs
  rw [List.cons_append, skip_cons hc]

lemma readMore_last (h : item (skip s) = some (x, r')) (hr : skip r' = close :: r)
    (hclose : close ≠ ',') : readMore item close (n + 1) s = some ([x], r) := by
  rw [readMore, h, Option.bind_some, expect_eq_none hr hclose, expect_of_skip hr]
  rfl

lemma readMore_cons (h : item (skip s) = some (x, r')) (hr : skip r' = ',' :: t)
    (hmore : readMore item close n t = some (xs, r)) :
    readMore item close (n + 1) s = some (x :: xs, r) := by
  rw [readMore, h, Option.bind_some, expect_of_skip hr]
  exact congrArg (Option.map fun q => (x :: q.1, q.2)) hmore

lemma readList_nil (hw : IsGap s) (hclose : isSpace close = false) :
    readList item close (s ++ close :: r) = some ([], r) := by
  have hskip : skip (s ++ close :: r) = close :: r := by
    rw [skip_append hw, skip_cons hclose]
  rw [readList, expect_of_skip hskip]

lemma readList_eq (h : expect? close s = none) :
    readList item close s = readMore item close s.length s := by
  rw [readList, h]

end Lists

/-! ### Values -/

lemma starts_spells (x : Json) : Starts (Spells x) ']' := by
  intro s h
  cases x with
  | bool b => cases b <;> exact ⟨_, _, h, rfl, by decide⟩
  | number n =>
      obtain ⟨c, t, rfl⟩ := List.exists_cons_of_ne_nil h.ne_nil
      have hdigit := h.isDigit c List.mem_cons_self
      refine ⟨c, t, rfl, ?_, ?_⟩
      · by_contra hspace
        rw [isDigit_of_isSpace (Bool.of_not_eq_false hspace)] at hdigit
        cases hdigit
      · rintro rfl
        cases hdigit
  | string v =>
      obtain ⟨t, -, rfl⟩ := h
      exact ⟨_, _, rfl, rfl, by decide⟩
  | array xs =>
      obtain ⟨t, -, rfl⟩ := h
      exact ⟨_, _, rfl, rfl, by decide⟩
  | object fs =>
      obtain ⟨t, -, rfl⟩ := h
      exact ⟨_, _, rfl, rfl, by decide⟩

lemma starts_spellsString (v : String) : Starts (SpellsString v) '\x7d' := by
  rintro s ⟨t, -, rfl⟩
  exact ⟨_, _, rfl, rfl, by decide⟩

lemma readValue_cons {c : Char} (hc : c.isDigit = false) (depth : Nat) (s : List Char) :
    readValue (depth + 1) (c :: s) = readMarked (readValue depth) (c :: s) := by
  refine if_neg ?_
  rw [List.head?_cons, Option.any_some, hc]
  exact Bool.false_ne_true

lemma expect_of_spellsField {f : String × Json} {t : List Char} (h : SpellsField f t)
    (r : List Char) : expect? '\x7d' (t ++ r) = none := by
  obtain ⟨name, x⟩ := f
  obtain ⟨k, u, hk, -, rfl⟩ := h
  rw [List.append_assoc]
  exact expect_of_spaced (starts_spellsString name) hk _

mutual

/-- **A text of a value** is read as that value, whatever stands behind it that does not
continue a number. -/
lemma readValue_of_spells : ∀ (x : Json) {s r : List Char} {depth : Nat}, Spells x s →
    s.length ≤ depth → Stops r → readValue depth (s ++ r) = some (x, r)
  | x, s, r, 0, h, hdepth, _ => by
      obtain ⟨c, t, rfl, -⟩ := starts_spells x s h
      exact absurd hdepth (Nat.not_succ_le_zero _)
  | bool true, _, _, depth + 1, h, _, _ => by
      rw [h]
      rfl
  | bool false, _, _, depth + 1, h, _, _ => by
      rw [h]
      rfl
  | number n, _, r, depth + 1, h, _, hr => by
      rw [readValue, if_pos (any_isDigit_of_spells h r), readNumber_of_spells h hr]
      rfl
  | string v, s, r, depth + 1, h, _, _ => by
      have hread := readString_of_spells h r
      obtain ⟨t, -, rfl⟩ := h
      rw [List.cons_append] at hread ⊢
      rw [readValue_cons rfl, readMarked, hread]
      rfl
  | array xs, _, r, depth + 1, h, hdepth, _ => by
      obtain ⟨t, ht, rfl⟩ := h
      have hlen : t.length ≤ depth := by
        simp only [List.length_cons, List.length_append] at hdepth
        omega
      rw [List.cons_append, List.append_assoc, List.singleton_append, readValue_cons rfl,
        readMarked, readItems_of_spells xs ht hlen]
      rfl
  | object fs, _, r, depth + 1, h, hdepth, _ => by
      obtain ⟨t, ht, rfl⟩ := h
      have hlen : t.length ≤ depth := by
        simp only [List.length_cons, List.length_append] at hdepth
        omega
      rw [List.cons_append, List.append_assoc, List.singleton_append, readValue_cons rfl,
        readMarked, readFields_of_spells fs ht hlen]
      rfl

lemma readItems_of_spells : ∀ (xs : List Json) {t r : List Char} {depth : Nat},
    SpellsItems xs t → t.length ≤ depth →
    readList (readValue depth) ']' (t ++ ']' :: r) = some (xs, r)
  | [], _, _, _, h, _ => readList_nil h rfl
  | x :: xs, t, r, depth, h, hlen => by
      have hfirst : expect? ']' (t ++ ']' :: r) = none := by
        cases xs with
        | nil => exact expect_of_spaced (starts_spells x) h _
        | cons y ys =>
            obtain ⟨u, v, hu, -, rfl⟩ := h
            rw [List.append_assoc]
            exact expect_of_spaced (starts_spells x) hu _
      rw [readList_eq hfirst]
      exact readMoreItems_of_spells (x :: xs) (List.cons_ne_nil x xs) h hlen (by simp)

lemma readMoreItems_of_spells : ∀ (xs : List Json) {t r : List Char} {depth n : Nat}, xs ≠ [] →
    SpellsItems xs t → t.length ≤ depth → t.length < n →
    readMore (readValue depth) ']' n (t ++ ']' :: r) = some (xs, r)
  | [], _, _, _, _, h, _, _, _ => absurd rfl h
  | [x], t, r, depth, n + 1, _, h, hlen, _ => by
      have hstops : Stops (']' :: r) := stops_cons rfl r
      obtain ⟨r', hx, hr'⟩ := read_of_spaced (starts_spells x) h hlen hstops
        (readValue_of_spells x)
      exact readMore_last hx hr' (by decide)
  | x :: y :: ys, _, r, depth, n + 1, _, h, hlen, hn => by
      obtain ⟨t, u, ht, hu, rfl⟩ := h
      rw [List.length_append, List.length_cons] at hlen hn
      have hstops : Stops (',' :: (u ++ ']' :: r)) := stops_cons rfl _
      obtain ⟨r', hx, hr'⟩ := read_of_spaced (k := depth) (starts_spells x) ht (by omega) hstops
        (readValue_of_spells x)
      rw [List.append_assoc]
      exact readMore_cons hx hr' (readMoreItems_of_spells (y :: ys) (List.cons_ne_nil y ys) hu
        (by omega) (by omega))

lemma readFields_of_spells : ∀ (fs : List (String × Json)) {t r : List Char} {depth : Nat},
    SpellsFields fs t → t.length ≤ depth →
    readList (readField (readValue depth)) '\x7d' (t ++ '\x7d' :: r) = some (fs, r)
  | [], _, _, _, h, _ => readList_nil h rfl
  | f :: fs, t, r, depth, h, hlen => by
      have hfirst : expect? '\x7d' (t ++ '\x7d' :: r) = none := by
        cases fs with
        | nil => exact expect_of_spellsField h _
        | cons g gs =>
            obtain ⟨u, v, hu, -, rfl⟩ := h
            rw [List.append_assoc]
            exact expect_of_spellsField hu _
      rw [readList_eq hfirst]
      exact readMoreFields_of_spells (f :: fs) (List.cons_ne_nil f fs) h hlen (by simp)

lemma readMoreFields_of_spells : ∀ (fs : List (String × Json)) {t r : List Char} {depth n : Nat},
    fs ≠ [] → SpellsFields fs t → t.length ≤ depth → t.length < n →
    readMore (readField (readValue depth)) '\x7d' n (t ++ '\x7d' :: r) = some (fs, r)
  | [], _, _, _, _, h, _, _, _ => absurd rfl h
  | [f], t, r, depth, n + 1, _, h, hlen, _ => by
      have hstops : Stops ('\x7d' :: r) := stops_cons rfl r
      obtain ⟨r', hf, hr'⟩ := readField_of_spells f h hlen hstops
      exact readMore_last hf hr' (by decide)
  | f :: g :: gs, _, r, depth, n + 1, _, h, hlen, hn => by
      obtain ⟨t, u, ht, hu, rfl⟩ := h
      rw [List.length_append, List.length_cons] at hlen hn
      have hstops : Stops (',' :: (u ++ '\x7d' :: r)) := stops_cons rfl _
      have hfits : t.length ≤ depth := by omega
      obtain ⟨r', hf, hr'⟩ := readField_of_spells f ht hfits hstops
      rw [List.append_assoc]
      exact readMore_cons hf hr' (readMoreFields_of_spells (g :: gs) (List.cons_ne_nil g gs) hu
        (by omega) (by omega))

lemma readField_of_spells : ∀ (f : String × Json) {t r : List Char} {depth : Nat},
    SpellsField f t → t.length ≤ depth → Stops r →
    ∃ r', readField (readValue depth) (skip (t ++ r)) = some (f, r') ∧ skip r' = skip r
  | (name, x), _, r, depth, h, hlen, hr => by
      obtain ⟨k, u, hk, hu, rfl⟩ := h
      rw [List.length_append, List.length_cons] at hlen
      have hstops : Stops (':' :: (u ++ r)) := stops_cons rfl _
      obtain ⟨r₁, hname, hr₁⟩ := read_of_spaced (starts_spellsString name) hk (Nat.le_refl _)
        hstops fun hs _ _ => readString_of_spells hs _
      obtain ⟨r₂, hx, hr₂⟩ := read_of_spaced (k := depth) (starts_spells x) hu (by omega) hr
        (readValue_of_spells x)
      refine ⟨r₂, ?_, hr₂⟩
      rw [List.append_assoc, List.cons_append, readField, hname, Option.bind_some,
        expect_of_skip (c := ':') hr₁, Option.bind_some, hx]
      rfl

end

/-! ### Documents -/

/-- **A document** is read as what it is the text of. -/
lemma read_of_isText {x : Json} {s : List Char} (h : IsText x s) : read? s = some x := by
  have hend : Stops [] := fun c hc => nomatch hc
  obtain ⟨r', hx, hr'⟩ := read_of_spaced (starts_spells x) h (Nat.le_refl _) hend
    (readValue_of_spells x)
  rw [List.append_nil] at hx
  rw [read?, hx]
  exact if_pos hr'

/-- No text is one of two values. -/
lemma IsText.unique {x y : Json} {s : List Char} (hx : IsText x s) (hy : IsText y s) : x = y :=
  Option.some.inj ((read_of_isText hx).symm.trans (read_of_isText hy))

end DocLint.Json
