/-
The grammar of JSON texts.

* `SpellsChar`, `SpellsString`, `SpellsNumber`: what may stand for a character within
  quotes, for a string and for a number. There is more than one way to write a
  character, and any may be used.
* `Spells`: the texts of a value, with white space wherever it may stand; `IsText`:
  those of a document.
* `spells_write`: what is written for a value is one of its texts.
-/
import Mathlib.Data.List.Basic
import Mathlib.Tactic.Common
import DocLint.Json
import DocLint.Text.Hexadecimal

namespace DocLint.Json

/-! ### White space -/

/-- Whether a character is white space between the parts of a value. -/
def isSpace (c : Char) : Bool :=
  c == ' ' || c == '\t' || c == '\n' || c == '\r'

/-- Only white space, or nothing at all. -/
def IsGap (w : List Char) : Prop :=
  ∀ c ∈ w, isSpace c = true

/-- A part of a value between white space. -/
def Spaced (P : List Char → Prop) (s : List Char) : Prop :=
  ∃ w t w', IsGap w ∧ P t ∧ IsGap w' ∧ s = w ++ t ++ w'

/-! ### Strings and numbers -/

/-- The value of four hexadecimal digits. -/
def codeUnit? : List Char → Option Nat
  | [a, b, c, d] => do
    return 4096 * (← Text.hexValue? a) + 256 * (← Text.hexValue? b) +
      16 * (← Text.hexValue? c) + (← Text.hexValue? d)
  | _ => none

/-- The character that a backslash and a letter stand for. -/
def shortEscape? (e : Char) : Option Char :=
  if e = '\x22' ∨ e = '\\' ∨ e = '/' then some e
  else if e = 'b' then some '\x08'
  else if e = 'f' then some '\x0c'
  else if e = 'n' then some '\n'
  else if e = 'r' then some '\r'
  else if e = 't' then some '\t'
  else none

/-- The code of a character above the basic plane, from its two surrogates. -/
def pairCode (high low : Nat) : Nat :=
  0x10000 + (high - 0xD800) * 0x400 + (low - 0xDC00)

/-- What may stand for a character within quotes: itself, a backslash with a letter, or
its code in one unit or two. -/
inductive SpellsChar : Char → List Char → Prop
  | plain {c : Char} (hcontrol : 0x20 ≤ c.toNat) (hquote : c ≠ '\x22') (hslash : c ≠ '\\') :
      SpellsChar c [c]
  | short {e c : Char} (h : shortEscape? e = some c) : SpellsChar c ['\\', e]
  | unit {ds : List Char} {n : Nat} (h : codeUnit? ds = some n) (hn : n.isValidChar) :
      SpellsChar (Char.ofNat n) ('\\' :: 'u' :: ds)
  | pair {ds es : List Char} {high low : Nat} (hds : codeUnit? ds = some high)
      (hhigh : 0xD800 ≤ high ∧ high < 0xDC00) (hes : codeUnit? es = some low)
      (hlow : 0xDC00 ≤ low ∧ low < 0xE000) :
      SpellsChar (Char.ofNat (pairCode high low)) ('\\' :: 'u' :: (ds ++ '\\' :: 'u' :: es))

/-- What may stand for characters one after another. -/
inductive SpellsChars : List Char → List Char → Prop
  | nil : SpellsChars [] []
  | cons {c : Char} {cs t u : List Char} (h : SpellsChar c t) (hrest : SpellsChars cs u) :
      SpellsChars (c :: cs) (t ++ u)

/-- The texts of a string. -/
def SpellsString (v : String) (s : List Char) : Prop :=
  ∃ t, SpellsChars v.toList t ∧ s = '\x22' :: (t ++ ['\x22'])

/-- The text of a number: its digits, and no zero before others. -/
structure SpellsNumber (n : Nat) (s : List Char) : Prop where
  ne_nil : s ≠ []
  isDigit : ∀ c ∈ s, c.isDigit = true
  head_ne : s.head? = some '0' → s = ['0']
  value : Nat.ofDigitChars 10 s 0 = n

/-! ### Values -/

mutual

/-- The texts of a value, from its first character to its last. -/
def Spells : Json → List Char → Prop
  | bool b, s => s = (if b then "true" else "false").toList
  | number n, s => SpellsNumber n s
  | string v, s => SpellsString v s
  | array xs, s => ∃ t, SpellsItems xs t ∧ s = '[' :: (t ++ [']'])
  | object fs, s => ∃ t, SpellsFields fs t ∧ s = '\x7b' :: (t ++ ['\x7d'])

/-- The texts of items, with commas between them. -/
def SpellsItems : List Json → List Char → Prop
  | [], s => IsGap s
  | [x], s => Spaced (Spells x) s
  | x :: y :: ys, s => ∃ t u, Spaced (Spells x) t ∧ SpellsItems (y :: ys) u ∧ s = t ++ ',' :: u

/-- The texts of fields, with commas between them. -/
def SpellsFields : List (String × Json) → List Char → Prop
  | [], s => IsGap s
  | [f], s => SpellsField f s
  | f :: g :: gs, s => ∃ t u, SpellsField f t ∧ SpellsFields (g :: gs) u ∧ s = t ++ ',' :: u

/-- The texts of a field: a name, a colon and a value. -/
def SpellsField : String × Json → List Char → Prop
  | (name, x), s =>
    ∃ t u, Spaced (SpellsString name) t ∧ Spaced (Spells x) u ∧ s = t ++ ':' :: u

end

/-- The texts of a value as a document. -/
def IsText (x : Json) (s : List Char) : Prop :=
  Spaced (Spells x) s

/-! ### What is written -/

lemma isGap_nil : IsGap [] := fun _ h => nomatch h

lemma IsGap.append {v w : List Char} (hv : IsGap v) (hw : IsGap w) : IsGap (v ++ w) := by
  intro c hc
  rcases List.mem_append.mp hc with hc | hc
  · exact hv c hc
  · exact hw c hc

lemma isGap_newline (level : Nat) : IsGap (newline level) := by
  intro c hc
  rcases List.mem_cons.mp hc with rfl | hc
  · rfl
  · rw [List.eq_of_mem_replicate hc]
    rfl

lemma Spaced.of {P : List Char → Prop} {s : List Char} (h : P s) : Spaced P s :=
  ⟨[], s, [], isGap_nil, h, isGap_nil, by rw [List.nil_append, List.append_nil]⟩

lemma Spaced.append {P : List Char → Prop} {s w : List Char} (h : Spaced P s) (hw : IsGap w) :
    Spaced P (s ++ w) := by
  obtain ⟨v, t, v', hv, ht, hv', rfl⟩ := h
  exact ⟨v, t, v' ++ w, hv, ht, hv'.append hw, by simp only [List.append_assoc]⟩

lemma Spaced.prepend {P : List Char → Prop} {s w : List Char} (hw : IsGap w) (h : Spaced P s) :
    Spaced P (w ++ s) := by
  obtain ⟨v, t, v', hv, ht, hv', rfl⟩ := h
  exact ⟨w ++ v, t, v', hw.append hv, ht, hv', by simp only [List.append_assoc]⟩

lemma codeUnit_hexDigit : ∀ n < 32,
    codeUnit? ['0', '0', hexDigit (n / 16), hexDigit (n % 16)] = some n := by
  decide

lemma spellsChar_escape (c : Char) : SpellsChar c (escape c) := by
  rw [escape]
  split_ifs with hquote hslash hb ht hn hf hr hcontrol
  any_goals subst c; exact .short rfl
  · have hunit := SpellsChar.unit (codeUnit_hexDigit c.toNat hcontrol)
      (Or.inl (Nat.lt_trans hcontrol (by decide)))
    rwa [Char.ofNat_toNat] at hunit
  · exact .plain (by omega) hquote hslash

lemma spellsChars_escape (cs : List Char) : SpellsChars cs (cs.flatMap escape) := by
  induction cs with
  | nil => exact .nil
  | cons c cs ih =>
      rw [List.flatMap_cons]
      exact .cons (spellsChar_escape c) ih

lemma spellsString_quote (v : String) : SpellsString v (quote v) :=
  ⟨v.toList.flatMap escape, spellsChars_escape v.toList, rfl⟩

lemma digitChar_ne_zero : ∀ n < 10, 0 < n → n.digitChar ≠ '0' := by
  decide

/-- Digits do not start with a zero, unless there is no other. -/
lemma head_toDigits {n : Nat} (hn : 0 < n) : (Nat.toDigits 10 n).head? ≠ some '0' := by
  induction n using Nat.strongRecOn with
  | ind n ih =>
      rw [Nat.toDigits_eq_if (by decide)]
      split_ifs with hlt
      · exact fun h => digitChar_ne_zero n hlt hn (Option.some.inj h)
      · rw [List.head?_append_of_ne_nil _ Nat.toDigits_ne_nil]
        exact ih (n / 10) (by omega) (by omega)

lemma spellsNumber_toString (n : Nat) : SpellsNumber n (toString n).toList := by
  have hdigits : (toString n).toList = Nat.toDigits 10 n := Nat.toList_repr
  rw [hdigits]
  refine ⟨Nat.toDigits_ne_nil, fun c hc => Nat.isDigit_of_mem_toDigits (by decide) (by decide) hc,
    fun hhead => ?_, Nat.ofDigitChars_toDigits (by decide) (by decide)⟩
  rcases Nat.eq_zero_or_pos n with rfl | hpos
  · rfl
  · exact absurd hhead (head_toDigits hpos)

mutual

/-- **What is written** for a value is one of its texts. -/
lemma spells_write (level : Nat) : ∀ x : Json, Spells x (write level x)
  | bool true => rfl
  | bool false => rfl
  | number n => spellsNumber_toString n
  | string v => spellsString_quote v
  | array [] => ⟨[], isGap_nil, rfl⟩
  | array (x :: xs) => by
      rw [write, List.cons_append, List.cons_append]
      exact ⟨_, spellsItems_write (level + 1) (x :: xs) (List.cons_ne_nil x xs)
        (isGap_newline level), rfl⟩
  | object [] => ⟨[], isGap_nil, rfl⟩
  | object (f :: fs) => by
      rw [write, List.cons_append, List.cons_append]
      exact ⟨_, spellsFields_write (level + 1) (f :: fs) (List.cons_ne_nil f fs)
        (isGap_newline level), rfl⟩

lemma spellsItems_write (level : Nat) : ∀ (xs : List Json) {w : List Char}, xs ≠ [] → IsGap w →
    SpellsItems xs (writeItems level xs ++ w)
  | [], _, h, _ => absurd rfl h
  | [x], _, _, hw => by
      rw [writeItems]
      exact ((Spaced.of (spells_write level x)).prepend (isGap_newline level)).append hw
  | x :: y :: ys, _, _, hw => by
      rw [writeItems, List.append_assoc, List.cons_append]
      exact ⟨_, _, (Spaced.of (spells_write level x)).prepend (isGap_newline level),
        spellsItems_write level (y :: ys) (List.cons_ne_nil y ys) hw, rfl⟩

lemma spellsFields_write (level : Nat) : ∀ (fs : List (String × Json)) {w : List Char}, fs ≠ [] →
    IsGap w → SpellsFields fs (writeFields level fs ++ w)
  | [], _, h, _ => absurd rfl h
  | [f], _, _, hw => by
      rw [writeFields]
      exact spellsField_write level f hw
  | f :: g :: gs, _, _, hw => by
      rw [writeFields, List.append_assoc, List.cons_append]
      have hf := spellsField_write level f isGap_nil
      rw [List.append_nil] at hf
      exact ⟨_, _, hf, spellsFields_write level (g :: gs) (List.cons_ne_nil g gs) hw, rfl⟩

lemma spellsField_write (level : Nat) : ∀ (f : String × Json) {w : List Char}, IsGap w →
    SpellsField f (newline level ++ writeField level f ++ w)
  | (name, x), w, hw => by
      have hblank : IsGap [' '] := fun c hc => by rw [List.mem_singleton.mp hc]; rfl
      refine ⟨newline level ++ quote name, [' '] ++ write level x ++ w,
        (Spaced.of (spellsString_quote name)).prepend (isGap_newline level),
        ((Spaced.of (spells_write level x)).prepend hblank).append hw, ?_⟩
      rw [writeField]
      simp only [List.append_assoc, List.cons_append, List.nil_append]

end

/-- The document of a value is one of its texts. -/
lemma isText_document (x : Json) : IsText x x.document.toList := by
  rw [document, String.toList_ofList]
  exact (Spaced.of (spells_write 0 x)).append fun c hc => by rw [List.mem_singleton.mp hc]; rfl

end DocLint.Json
