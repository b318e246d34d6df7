/-!
Glob patterns.

* `Glob.Item` is one part of a pattern: a character, any character, a character
  class, any sequence of characters (`*`), or any sequence of whole directories
  (`**`).
* `Glob.parse` reads a pattern or says where it is ill-formed.
* `Glob.accepts` says whether a text matches as a whole. A slash is a character
  like any other, except that `**` stops right behind one.
* `Glob.matchesText` decides the same in time that grows with the product of the
  lengths; `matchesText_eq_accepts` says so.
-/

namespace DocLint.Glob

/-! ### Patterns -/

/-- One part of a character class: the characters from `first` to `last`. -/
structure Span where
  first : Char
  last : Char
  deriving DecidableEq, Repr

/-- One part of a pattern. -/
inductive Item where
  | char (c : Char)
  | anyChar
  | oneOf (spans : List Span)
  | noneOf (spans : List Span)
  | anySequence
  | anyDirectories
  deriving DecidableEq, Repr

/-- The ways for a pattern to be ill-formed. -/
inductive Fault.Cause where
  | wildcards
  | directories
  | brackets
  deriving DecidableEq, Repr

/-- What is wrong with a pattern, and the character it is near. -/
structure Fault where
  position : Nat
  cause : Fault.Cause
  deriving DecidableEq, Repr

/-- A cause in words. -/
def Fault.Cause.message : Fault.Cause → String
  | wildcards => "wildcards are either regular `*` or recursive `**`"
  | directories => "recursive wildcards must form a single path component"
  | brackets => "invalid range pattern"

/-- A fault in words. -/
def Fault.message (f : Fault) : String :=
  "Pattern syntax error near position " ++ toString f.position ++ ": " ++ f.cause.message

/-! ### Reading -/

/-- The spans of a character class: two characters with a hyphen between them,
or a character by itself. -/
def spans : List Char → List Span
  | a :: '-' :: b :: cs => ⟨a, b⟩ :: spans cs
  | a :: cs => ⟨a, a⟩ :: spans cs
  | [] => []

/-- The class after an opening bracket, and its length. Its first character
belongs to it even if it is a closing bracket. -/
def class? : List Char → Option (Item × Nat)
  | '!' :: a :: cs =>
    (cs.findIdx? (· == ']')).map fun n => (.noneOf (spans (a :: cs.take n)), n + 3)
  | ['!'] => none
  | a :: cs =>
    (cs.findIdx? (· == ']')).map fun n => (.oneOf (spans (a :: cs.take n)), n + 2)
  | [] => none

/-- Adds `**` to the items read so far, last item first. A third one in a row
adds nothing. -/
def addDirectories : List Item → List Item
  | .anyDirectories :: i :: is => .anyDirectories :: i :: is
  | is => .anyDirectories :: is

/-- Reads what follows the first `position` characters of a pattern, of which
`items` is what they say, last item first, and `previous` is the last one. -/
def parseFrom (position : Nat) (previous : Option Char) (items : List Item) (s : List Char) :
    Except Fault (List Item) :=
  match s with
  | [] => .ok items.reverse
  | '?' :: cs => parseFrom (position + 1) (some '?') (.anyChar :: items) cs
  | '*' :: '*' :: '*' :: _ => .error ⟨position + 2, .wildcards⟩
  | '*' :: '*' :: cs =>
    if previous.getD '/' ≠ '/' then .error ⟨position - 1, .directories⟩
    else
      match cs with
      | [] => .ok (addDirectories items).reverse
      | '/' :: ds => parseFrom (position + 3) (some '/') (addDirectories items) ds
      | _ => .error ⟨position + 2, .directories⟩
  | '*' :: cs => parseFrom (position + 1) (some '*') (.anySequence :: items) cs
  | '[' :: cs =>
    match class? cs with
    | some (item, n) => parseFrom (position + 1 + n) (some ']') (item :: items) (cs.drop n)
    | none => .error ⟨position, .brackets⟩
  | c :: cs => parseFrom (position + 1) (some c) (.char c :: items) cs
termination_by s.length
decreasing_by all_goals (simp; try omega)

/-- Reads a pattern. -/
def parse (s : String) : Except Fault (List Item) :=
  parseFrom 0 none [] s.toList

/-! ### Matching -/

/-- Whether a character lies in one of the spans. -/
def inSpans (spans : List Span) (c : Char) : Bool :=
  spans.any fun s => decide (s.first ≤ c) && decide (c ≤ s.last)

/-- Every end of a text, the longest one first. -/
def ends : List Char → List (List Char)
  | [] => [[]]
  | c :: cs => (c :: cs) :: ends cs

/-- The ends of a text that come right behind a slash. -/
def endsBehindSlash : List Char → List (List Char)
  | [] => []
  | c :: cs => if c = '/' then cs :: endsBehindSlash cs else endsBehindSlash cs

/-- Whether an item that takes one character takes this one. -/
def Item.takes : Item → Char → Bool
  | .char a, c => c == a
  | .anyChar, _ => true
  | .oneOf spans, c => inSpans spans c
  | .noneOf spans, c => !inSpans spans c
  | .anySequence, _ | .anyDirectories, _ => false

/-- Whether the items match a text as a whole. What `**` takes is nothing,
everything, or something that ends in a slash. -/
def accepts : List Item → List Char → Bool
  | [], s => s.isEmpty
  | .anySequence :: is, s => (ends s).any (accepts is)
  | .anyDirectories :: is, s =>
    accepts is s || accepts is [] || (endsBehindSlash s).any (accepts is)
  | i :: is, s => match s with
    | c :: cs => i.takes c && accepts is cs
    | [] => false

/-! ### Matching all ends at once -/

/-- From the verdicts on the ends of a text, those on the same ends behind one
more item that takes one character. -/
def takeOne (test : Char → Bool) : List Char → List Bool → List Bool
  | c :: cs, _ :: vs => (test c && vs.headD false) :: takeOne test cs vs
  | _, _ => [false]

/-- From the verdicts on the ends of a text, whether one of the ends that are no
longer is good. -/
def takeAny : List Bool → List Bool
  | [] => []
  | v :: vs =>
    let later := takeAny vs
    (v || later.headD false) :: later

/-- From the verdicts on the ends of a text, whether one of the shorter ends that
come right behind a slash is good. -/
def takeSlashes : List Char → List Bool → List Bool
  | c :: cs, _ :: vs =>
    let later := takeSlashes cs vs
    ((c == '/' && vs.headD false) || later.headD false) :: later
  | _, _ => [false]

/-- Whether items match each end of a text, the longest end first. -/
def verdicts : List Item → List Char → List Bool
  | [], s => (ends s).map List.isEmpty
  | .anySequence :: is, s => takeAny (verdicts is s)
  | .anyDirectories :: is, s =>
    let vs := verdicts is s
    let atEnd := vs.getLastD false
    (vs.zip (takeSlashes s vs)).map fun v => v.1 || atEnd || v.2
  | i :: is, s => takeOne i.takes s (verdicts is s)

/-- Whether the items match a text as a whole, decided for all of its ends
together. -/
def matchesText (items : List Item) (s : List Char) : Bool :=
  (verdicts items s).headD false

/-- The longest end of a text is the text. -/
theorem headD_map_ends (f : List Char → Bool) (s : List Char) :
    ((ends s).map f).headD false = f s := by
  cases s <;> rfl

/-- The shortest end of a text is empty. -/
theorem getLastD_map_ends (f : List Char → Bool) (s : List Char) (b : Bool) :
    ((ends s).map f).getLastD b = f [] := by
  induction s generalizing b with
  | nil => rfl
  | cons c cs ih => rw [ends, List.map_cons, List.getLastD_cons, ih]

/-- One more character goes in front of every end but the empty one. -/
theorem takeOne_ends (test : Char → Bool) (f : List Char → Bool) (s : List Char) :
    takeOne test s ((ends s).map f) = (ends s).map fun t => match t with
      | c :: cs => test c && f cs
      | [] => false := by
  induction s with
  | nil => rfl
  | cons c cs ih => simp only [ends, List.map_cons, takeOne, headD_map_ends, ih]

/-- The ends of an end are the ends that are no longer. -/
theorem takeAny_ends (f : List Char → Bool) (s : List Char) :
    takeAny ((ends s).map f) = (ends s).map fun t => (ends t).any f := by
  induction s with
  | nil => simp [ends, takeAny]
  | cons c cs ih => simp only [ends, List.map_cons, takeAny, ih, headD_map_ends, List.any_cons]

/-- The shorter ends of an end behind a slash are seen from the front. -/
theorem takeSlashes_ends (f : List Char → Bool) (s : List Char) :
    takeSlashes s ((ends s).map f) = (ends s).map fun t => (endsBehindSlash t).any f := by
  induction s with
  | nil => rfl
  | cons c cs ih =>
    simp only [ends, List.map_cons, takeSlashes, ih, headD_map_ends, endsBehindSlash]
    by_cases h : c = '/' <;> simp [h]

/-- The verdicts are right for every end. -/
theorem verdicts_eq (items : List Item) (s : List Char) :
    verdicts items s = (ends s).map (accepts items) := by
  induction items with
  | nil => simp [verdicts, accepts]
  | cons i is ih =>
    cases i
    case anySequence => simp only [verdicts, ih, takeAny_ends, accepts]
    case anyDirectories =>
      simp only [verdicts, ih, takeSlashes_ends, getLastD_map_ends, List.zip_map', List.map_map,
        accepts, Function.comp_def]
    all_goals
      rw [verdicts, ih, takeOne_ends]
      · refine List.map_congr_left fun t _ => ?_
        cases t <;> simp [accepts, Item.takes]
      · simp
      · simp

/-- Matching all ends at once is matching. -/
theorem matchesText_eq_accepts (items : List Item) (s : List Char) :
    matchesText items s = accepts items s := by
  rw [matchesText, verdicts_eq, headD_map_ends]

/-- A star crosses slashes; two stars before a slash take whole directories or
none. -/
example :
    (["*.md", "a/**/c.md", "**/b/*", "[!a-c]/**"].map fun p =>
      (["a/b/c.md", "a/c.md", "b/x", "d/"].map fun s =>
        ((parse p).toOption.map fun is => matchesText is s.toList).getD false)) =
    [[true, true, false, false], [true, true, false, false], [true, false, true, false],
      [false, false, false, true]] := by decide +kernel

end DocLint.Glob
