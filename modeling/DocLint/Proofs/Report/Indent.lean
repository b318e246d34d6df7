/-
The text of a JSON value, one level further in.

* `Json.indent`: two more blanks behind every line end.
* `write_succ`: one level further in, a value has its own text, indented; within
  quotes no line ends.
* `document_array`: the document of an array is made of the documents of its items.
-/
import Mathlib.Data.List.Basic
import Mathlib.Tactic.Common
import DocLint.Json

namespace DocLint.Json

/-- A text with two more blanks behind every line end. -/
def indent (cs : List Char) : List Char :=
  cs.flatMap fun c => if c = '\n' then ['\n', ' ', ' '] else [c]

@[simp] lemma indent_nil : indent [] = [] := rfl

@[simp] lemma indent_append (cs ds : List Char) : indent (cs ++ ds) = indent cs ++ indent ds :=
  List.flatMap_append

lemma indent_cons (c : Char) (cs : List Char) :
    indent (c :: cs) = (if c = '\n' then ['\n', ' ', ' '] else [c]) ++ indent cs :=
  List.flatMap_cons

/-- A single line stays as it is. -/
lemma indent_of_notMem {cs : List Char} (h : '\n' ∉ cs) : indent cs = cs := by
  induction cs with
  | nil => rfl
  | cons c cs ih =>
      rw [List.mem_cons, not_or] at h
      rw [indent_cons, if_neg (Ne.symm h.1), ih h.2, List.singleton_append]

/-! ### Single lines -/

lemma hexDigit_ne_newline : ∀ n < 16, hexDigit n ≠ '\n' := by
  decide

lemma newline_notMem_escape (c : Char) : '\n' ∉ escape c := by
  rw [escape]
  split_ifs with _ _ _ _ hline _ _ hcontrol
  any_goals decide
  · have hhigh := hexDigit_ne_newline (c.toNat / 16) (by omega)
    have hlow := hexDigit_ne_newline (c.toNat % 16) (by omega)
    simp [hhigh.symm, hlow.symm]
  · exact fun h => hline (List.mem_singleton.mp h).symm

lemma newline_notMem_quote (s : String) : '\n' ∉ quote s := by
  rw [quote, List.mem_cons, List.mem_append, List.mem_flatMap]
  rintro (h | ⟨c, -, h⟩ | h)
  · cases h
  · exact newline_notMem_escape c h
  · cases List.mem_singleton.mp h

lemma newline_notMem_number (n : Nat) : '\n' ∉ (toString n).toList := by
  have hdigits : (toString n).toList = Nat.toDigits 10 n := Nat.toList_repr
  rw [hdigits]
  intro h
  have hdigit := Nat.isDigit_of_mem_toDigits (by decide) (by decide) h
  cases hdigit

lemma indent_quote (s : String) : indent (quote s) = quote s :=
  indent_of_notMem (newline_notMem_quote s)

lemma indent_newline (level : Nat) : indent (newline level) = newline (level + 1) := by
  have hblanks : '\n' ∉ List.replicate (2 * level) ' ' := fun h =>
    absurd (List.eq_of_mem_replicate h) (by decide)
  have hmore : 2 * (level + 1) = 2 + 2 * level := by omega
  rw [newline, newline, indent_cons, if_pos rfl, indent_of_notMem hblanks, hmore,
    List.replicate_add]
  rfl

/-! ### Values -/

mutual

/-- **One level further in** a value has its own text, indented. -/
lemma write_succ (level : Nat) : ∀ x : Json, write (level + 1) x = indent (write level x)
  | bool true => rfl
  | bool false => rfl
  | number n => (indent_of_notMem (newline_notMem_number n)).symm
  | string s => (indent_quote s).symm
  | array [] => rfl
  | array (x :: xs) => by
      rw [write, write, writeItems_succ (level + 1) (x :: xs), ← indent_newline]
      simp [indent_cons]
  | object [] => rfl
  | object (f :: fs) => by
      rw [write, write, writeFields_succ (level + 1) (f :: fs), ← indent_newline]
      simp [indent_cons]

lemma writeItems_succ (level : Nat) :
    ∀ xs : List Json, writeItems (level + 1) xs = indent (writeItems level xs)
  | [] => rfl
  | [x] => by
      rw [writeItems, writeItems, write_succ level x, indent_append, indent_newline]
  | x :: y :: ys => by
      rw [writeItems, writeItems, write_succ level x, writeItems_succ level (y :: ys),
        indent_append, indent_append, indent_newline]
      simp [indent_cons]

lemma writeFields_succ (level : Nat) :
    ∀ fs : List (String × Json), writeFields (level + 1) fs = indent (writeFields level fs)
  | [] => rfl
  | [f] => by
      rw [writeFields, writeFields, writeField_succ level f, indent_append, indent_newline]
  | f :: g :: gs => by
      rw [writeFields, writeFields, writeField_succ level f, writeFields_succ level (g :: gs),
        indent_append, indent_append, indent_newline]
      simp [indent_cons]

lemma writeField_succ (level : Nat) :
    ∀ f : String × Json, writeField (level + 1) f = indent (writeField level f)
  | (name, x) => by
      rw [writeField, writeField, write_succ level x, indent_append, indent_quote]
      simp [indent_cons]

end

/-! ### Documents -/

/-- The document of an array, made of those of its items: each without its last line
end and on a line of its own, with commas between them, and all of it indented. -/
def arrayDocument (docs : List String) : String :=
  String.ofList ('[' :: indent ('\n' ::
    List.intercalate [',', '\n'] (docs.map fun d => d.toList.dropLast)) ++ ['\n', ']', '\n'])

lemma dropLast_document (x : Json) : x.document.toList.dropLast = write 0 x := by
  rw [document, String.toList_ofList, List.dropLast_concat]

/-- Items stand behind line ends, with commas between them. -/
lemma writeItems_one (x : Json) (xs : List Json) : writeItems 1 (x :: xs) =
    indent ('\n' :: List.intercalate [',', '\n'] ((x :: xs).map fun x => write 0 x)) := by
  rw [writeItems_succ 0]
  congr 1
  induction xs generalizing x with
  | nil => simp [writeItems, newline, List.intercalate]
  | cons y ys ih =>
      rw [writeItems, ih y]
      simp [newline]

/-- **The document of an array** is made of those of its items. -/
lemma document_array {xs : List Json} (h : xs ≠ []) :
    (array xs).document = arrayDocument (xs.map document) := by
  obtain ⟨x, xs, rfl⟩ := List.exists_cons_of_ne_nil h
  have hdocs : ((x :: xs).map document).map (fun d => d.toList.dropLast) =
      (x :: xs).map fun x => write 0 x := by
    rw [List.map_map]
    exact List.map_congr_left fun x _ => dropLast_document x
  rw [arrayDocument, hdocs, document, write, writeItems_one]
  simp [newline]

end DocLint.Json
