import DocLint.Link.Form
import DocLint.Link.Target
import DocLint.Text.ByteCount
import DocLint.Text.Lines

/-!
Inline links in a text.

* `Link.extractFrom` goes through a text and takes the first form it meets, then
  the first after that one, and so on; each link knows its line and the number
  of bytes before it.
* `Link.extract` does the same for a whole text in one go that looks at no part
  of it again; `extract_eq_extractFrom` says so.

Nothing else of the markup is looked at: a form inside a code block is a link.
-/

namespace DocLint

/-- A link in a text: its words, its target without the blanks around it, its
line, and the number of bytes before it. -/
structure Link where
  text : List Char
  target : List Char
  line : Nat
  offset : Nat
  deriving DecidableEq, Repr

namespace Link

/-- The link in markup. -/
def markdown (l : Link) : List Char :=
  (Form.mk l.text l.target).written

/-- The link that a form is at a place. -/
def ofForm (f : Form) (offset line : Nat) : Link :=
  ⟨f.text, Text.trim f.target, line, offset⟩

/-- The links of what follows a text that has the given number of bytes and
ends on the given line. -/
def extractFrom (offset line : Nat) (s : List Char) : List Link :=
  match s with
  | [] => []
  | c :: cs =>
    match h : form? (c :: cs) with
    | some (f, rest) =>
      ofForm f offset line ::
        extractFrom (offset + Text.byteCount f.written) (line + Text.lineCount f.written) rest
    | none => extractFrom (offset + c.utf8Size) (if c = '\n' then line + 1 else line) cs
termination_by s.length
decreasing_by
  · exact length_lt_of_form? h
  · simp

/-- The links of what follows a text, in front of which come those found so far,
last one first. -/
def collectFrom (offset line : Nat) (found : List Link) (s : List Char) : List Link :=
  match s with
  | [] => found.reverse
  | c :: cs =>
    match _h : form? (c :: cs) with
    | some (f, rest) =>
      collectFrom (offset + Text.byteCount f.written) (line + Text.lineCount f.written)
        (ofForm f offset line :: found) rest
    | none =>
      let cut := passOver (c :: cs)
      collectFrom (offset + Text.byteCount cut.1) (line + Text.lineCount cut.1) found cut.2
termination_by s.length
decreasing_by
  · exact length_lt_of_form? _h
  · exact length_passOver_lt c cs

/-- The links of a text, in order. -/
def extract (content : String) : List Link :=
  collectFrom 0 1 [] content.toList

/-- Text in which no form starts moves the place and gives no link. -/
theorem extractFrom_append {p r : List Char} (offset line : Nat)
    (h : ∀ u v, p = u ++ v → v ≠ [] → form? (v ++ r) = none) :
    extractFrom offset line (p ++ r) =
      extractFrom (offset + Text.byteCount p) (line + Text.lineCount p) r := by
  induction p generalizing offset line with
  | nil => rfl
  | cons c p ih =>
    have hf : form? (c :: (p ++ r)) = none := h [] (c :: p) rfl (by simp)
    have hp : ∀ u v, p = u ++ v → v ≠ [] → form? (v ++ r) = none := fun u v huv =>
      h (c :: u) v (by rw [huv, List.cons_append])
    rw [List.cons_append, extractFrom]
    split
    · next hs => simp [hf] at hs
    · rw [ih _ _ hp, Text.byteCount_cons, Text.lineCount, Text.lineCount, List.count_cons]
      by_cases hc : c = '\n' <;> simp [hc, Nat.add_assoc, Nat.add_comm 1]

/-- Passing over text without forms gives the same links. -/
theorem collectFrom_eq (offset line : Nat) (found : List Link) (s : List Char) :
    collectFrom offset line found s = found.reverse ++ extractFrom offset line s := by
  fun_induction collectFrom offset line found s with
  | case1 => simp [extractFrom]
  | case2 offset line found c cs f rest h ih =>
    rw [ih, extractFrom]
    split
    · next f' rest' h' =>
      rw [h] at h'
      obtain ⟨rfl, rfl⟩ := Prod.mk.inj (Option.some.inj h')
      simp
    · next h' => simp [h] at h'
  | case3 offset line found c cs h cut ih =>
    rw [ih, ← extractFrom_append offset line fun u v huv hv => form?_append_of_passOver h huv hv,
      passOver_append]

/-- The links of a text are those of the walk from its start. -/
theorem extract_eq_extractFrom (content : String) :
    extract content = extractFrom 0 1 content.toList := by
  rw [extract, collectFrom_eq, List.reverse_nil, List.nil_append]

end Link

end DocLint
