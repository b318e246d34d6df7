/-
What is reported of the emoji in a text, and how it is read back.

* `isEmoji_strict`: what counts as emoji in the narrow sense does so in the wide one.
* `find_eq_filter_isEmoji`: the runs of emoji in a text are, put together, all emoji in it.
* `hexNumber?_hexDigits`, `codePoint?_codePointName`, `readListing?_listing`: digits, names of
  code points and listings of them are read back as what they are written for.
* `scan_eq_map`: every line with emoji is reported, and no other; `listed?_violation`: the
  characters that are listed are read back from the message.
* `flatMap_filter_lines`: a character that ends no line is in the text as often as in its lines.
* `scan_listed`: the lines with emoji are reported in order, each with all its emoji; together
  these are the emoji of the text, and what is reported in the narrow sense is part of what is
  reported of the same line in the wide one.
-/
import Mathlib.Algebra.Group.Nat.Defs
import Mathlib.Data.List.Forall2
import Mathlib.Data.List.SplitBy
import Mathlib.Tactic.Common
import DocLint.Emoji
import DocLint.Proofs.Text.Lines
import DocLint.Text.Hexadecimal

namespace DocLint

/-! ### Characters of a text and of its lines -/

namespace Text

variable {p : Char → Bool}

lemma filter_dropReturn (hreturn : p '\r' = false) (l : List Char) :
    (dropReturn l).filter p = l.filter p := by
  rw [dropReturn]
  split_ifs with hlast
  · obtain ⟨front, rfl⟩ : ∃ front, l = front ++ ['\r'] :=
      ⟨_, (List.dropLast_append_getLast? _ hlast).symm⟩
    simp [hreturn]
  · rfl

lemma map_snd_numberedLines (s : List Char) : (numberedLines s).map Prod.snd = lines s := by
  rw [numberedLines, List.map_map]
  exact List.zipIdx_map_fst 0 (lines s)

/-- What is no part of a line end is kept by cutting a text into lines. -/
lemma flatMap_filter_lines (hnewline : p '\n' = false) (hreturn : p '\r' = false)
    (s : List Char) : (lines s).flatMap (fun l => l.filter p) = s.filter p := by
  induction s using line_induction with
  | last l hl =>
      rcases eq_or_ne l [] with rfl | hne
      · rfl
      · rw [lines_of_notMem hl hne, List.flatMap_singleton]
  | line l t hl ih =>
      rw [lines_append_newline hl, List.flatMap_cons, filter_dropReturn hreturn, ih,
        List.filter_append, List.filter_cons_of_neg (by simp [hnewline])]

end Text

namespace Emoji

variable {r : Ranges} {c : Char} {cs s : List Char} {content : String}

/-! ### The two sets -/

/-- **The sets are nested**: each run of the narrow one is a run of the wide one. -/
lemma isEmoji_strict (h : isEmoji .relaxed c = true) : isEmoji .strict c = true := by
  have hruns : ∀ run ∈ relaxed, run ∈ strict := by decide
  obtain ⟨run, hrun, hc⟩ := List.any_eq_true.mp h
  exact List.any_eq_true.mpr ⟨run, hruns run hrun, hc⟩

/-! ### Runs -/

/-- Neighbours that are alike in counting as emoji are all alike. -/
lemma isEmoji_eq_of_isChain {run : List Char} {d : Char}
    (h : (c :: run).IsChain fun c d => (isEmoji r c == isEmoji r d) = true) (hd : d ∈ c :: run) :
    isEmoji r d = isEmoji r c := by
  induction run generalizing c with
  | nil => rw [List.mem_singleton.mp hd]
  | cons e run ih =>
      obtain ⟨hce, hrun⟩ := List.isChain_cons_cons.mp h
      rcases List.mem_cons.mp hd with rfl | hd
      · rfl
      · rw [ih hrun hd, beq_iff_eq.mp hce]

/-- Such a run is one of emoji, or else it has none. -/
lemma filter_of_isChain {run : List Char}
    (h : run.IsChain fun c d => (isEmoji r c == isEmoji r d) = true) :
    run.filter (isEmoji r) = if run.any (isEmoji r) then run else [] := by
  split_ifs with hany
  · obtain ⟨c, hc, hcount⟩ := List.any_eq_true.mp hany
    refine List.filter_eq_self.mpr fun d hd => ?_
    cases run with
    | nil => cases hd
    | cons e run => rw [isEmoji_eq_of_isChain h hd, ← isEmoji_eq_of_isChain h hc, hcount]
  · rw [List.filter_eq_nil_iff, ← List.any_eq_false, Bool.eq_false_iff]
    exact hany

lemma flatten_filter_of_isChain {runs : List (List Char)}
    (h : ∀ run ∈ runs, run.IsChain fun c d => (isEmoji r c == isEmoji r d) = true) :
    (runs.filter fun run => run.any (isEmoji r)).flatten = runs.flatten.filter (isEmoji r) := by
  induction runs with
  | nil => rfl
  | cons run runs ih =>
      obtain ⟨hrun, hruns⟩ := List.forall_mem_cons.mp h
      rw [List.filter_cons, List.flatten_cons, List.filter_append, filter_of_isChain hrun,
        ← ih hruns]
      split_ifs <;> rfl

/-- **The runs together** are all emoji of a text, in order. -/
lemma find_eq_filter_isEmoji (r : Ranges) (s : List Char) : find r s = s.filter (isEmoji r) := by
  rw [find, runs, flatten_filter_of_isChain fun _ => List.isChain_of_mem_splitBy,
    List.flatten_splitBy]

lemma find_relaxed_find_strict (s : List Char) :
    find .relaxed (find .strict s) = find .relaxed s := by
  simp only [find_eq_filter_isEmoji, List.filter_filter]
  refine List.filter_congr fun c _ => ?_
  cases h : isEmoji .relaxed c with
  | false => rw [Bool.false_and]
  | true => rw [isEmoji_strict h, Bool.true_and]

lemma isEmoji_newline (r : Ranges) : isEmoji r '\n' = false := by
  cases r <;> decide

lemma isEmoji_return (r : Ranges) : isEmoji r '\r' = false := by
  cases r <;> decide

/-! ### Reading a listing -/

/-- The character of which a code point is named. -/
def codePoint? : List Char → Option Char
  | 'U' :: '+' :: digits => (Text.hexNumber? digits).bind Text.charOfCode?
  | _ => none

/-- The characters of which the code points are listed, with blanks between them. -/
def readListing? (s : List Char) : Option (List Char) :=
  (Text.pieces ' ' s).mapM codePoint?

/-- The characters that the message of a violation lists. -/
def listed? (v : Violation) : Option (List Char) :=
  ("emoji ".toList.isPrefixOf? v.message.toList).bind readListing?

lemma hexValue?_hexDigit : ∀ d < 16, Text.hexValue? (hexDigit d) = some d := by
  decide

lemma hexNumber?_concat (digits : List Char) (c : Char) :
    Text.hexNumber? (digits ++ [c]) =
      (Text.hexNumber? digits).bind fun n => (Text.hexValue? c).map (16 * n + ·) :=
  List.foldl_append

/-- The last digits of a number are read as what is left of it. -/
lemma hexNumber?_hexDigits (places n : ℕ) :
    Text.hexNumber? (hexDigits places n) = some (n % 16 ^ places) := by
  induction places generalizing n with
  | zero => rw [Nat.pow_zero, Nat.mod_one, hexDigits, Text.hexNumber?, List.foldl_nil]
  | succ places ih =>
      rw [hexDigits, hexNumber?_concat, ih, hexValue?_hexDigit _ (Nat.mod_lt n (by decide)),
        Nat.pow_succ', Nat.mod_mul, Nat.add_comm]
      rfl

lemma toNat_lt (c : Char) : c.toNat < 0x110000 := by
  rcases c.valid with h | h
  · exact Nat.lt_trans h (by decide)
  · exact h.2

/-- A code point has enough places for its digits. -/
lemma codePoint?_codePointName (c : Char) : codePoint? (codePointName c) = some c := by
  have hplaces : c.toNat <
      16 ^ (if c.toNat < 0x10000 then 4 else if c.toNat < 0x100000 then 5 else 6) := by
    have hlast := toNat_lt c
    split_ifs <;> omega
  have hvalid : c.toNat.isValidChar := c.valid
  rw [codePointName, codePoint?, hexNumber?_hexDigits, Nat.mod_eq_of_lt hplaces, Option.bind_some,
    Text.charOfCode?, if_pos hvalid, Char.ofNat_toNat]

lemma exists_eq_hexDigit_of_mem {places n : ℕ} (h : c ∈ hexDigits places n) :
    ∃ d < 16, c = hexDigit d := by
  induction places generalizing n with
  | zero => cases h
  | succ places ih =>
      rcases List.mem_append.mp h with h | h
      · exact ih h
      · exact ⟨n % 16, Nat.mod_lt n (by decide), List.mem_singleton.mp h⟩

/-- What is neither a digit nor in front of the digits is in no name of a code point. -/
lemma notMem_codePointName {x : Char} (hfront : x ≠ 'U' ∧ x ≠ '+')
    (hdigit : ∀ d < 16, x ≠ hexDigit d) (c : Char) : x ∉ codePointName c := by
  rw [codePointName, List.mem_cons, List.mem_cons, not_or, not_or]
  refine ⟨hfront.1, hfront.2, fun h => ?_⟩
  obtain ⟨d, hd, heq⟩ := exists_eq_hexDigit_of_mem h
  exact hdigit d hd heq

lemma listing_eq_glue (cs : List Char) : listing cs = Text.glue ' ' (cs.map codePointName) := by
  induction cs with
  | nil => rfl
  | cons c cs ih =>
      cases cs with
      | nil => rfl
      | cons d cs =>
          rw [listing, ih]
          · rfl
          · exact List.cons_ne_nil d cs

/-- **A listing is read back**, in order and with all repetitions. -/
lemma readListing?_listing (h : cs ≠ []) : readListing? (listing cs) = some cs := by
  have hpieces : Text.pieces ' ' (listing cs) = cs.map codePointName := by
    rw [listing_eq_glue]
    refine Text.pieces_glue (by simpa using h) fun p hp => ?_
    obtain ⟨c, -, rfl⟩ := List.mem_map.mp hp
    exact notMem_codePointName (by decide) (by decide) c
  have hread : codePoint? ∘ codePointName = fun c => pure c := funext codePoint?_codePointName
  rw [readListing?, hpieces, List.mapM_map, hread, List.mapM_pure, List.map_id']
  rfl

/-! ### What is reported -/

/-- Whether a violation reports a line: it shows the line, and lists all emoji in it. -/
structure Reports (r : Ranges) (v : Violation) (l : ℕ × List Char) : Prop where
  line : v.line = l.1
  kind : v.kind = .emoji
  context : v.context = String.ofList l.2
  listed : listed? v = some (l.2.filter (isEmoji r))

lemma isEmpty_find (r : Ranges) (s : List Char) : (find r s).isEmpty = !s.any (isEmoji r) := by
  rw [Bool.eq_iff_iff, List.isEmpty_iff, find_eq_filter_isEmoji, List.filter_eq_nil_iff,
    Bool.not_eq_true', List.any_eq_false]

/-- The lines with emoji are reported, and no others. -/
lemma scan_eq_map (r : Ranges) (content : String) :
    scan r content =
      ((Text.numberedLines content.toList).filter fun l => l.2.any (isEmoji r)).map fun l =>
        violation l.1 (find r l.2) l.2 := by
  rw [scan, ← List.filterMap_eq_filter, List.map_filterMap]
  refine List.filterMap_congr fun l _ => ?_
  dsimp only
  rw [isEmpty_find, Option.guard]
  cases l.2.any (isEmoji r) <;> rfl

lemma listed?_violation (h : cs ≠ []) (n : ℕ) (s : List Char) :
    listed? (violation n cs s) = some cs := by
  have hmessage : "emoji ".toList.isPrefixOf? (violation n cs s).message.toList =
      some (listing cs) := by
    rw [List.isPrefixOf?_eq_some_iff_append_eq]
    exact String.toList_ofList.symm
  rw [listed?, hmessage, Option.bind_some, readListing?_listing h]

lemma reports_violation {l : ℕ × List Char} (h : l.2.any (isEmoji r) = true) :
    Reports r (violation l.1 (find r l.2) l.2) l where
  line := rfl
  kind := rfl
  context := rfl
  listed := by
    have hne : find r l.2 ≠ [] := by
      rw [← List.isEmpty_eq_false_iff, isEmpty_find, h]
      rfl
    rw [listed?_violation hne l.1 l.2, find_eq_filter_isEmoji]

lemma forall₂_reports_scan (r : Ranges) (content : String) :
    List.Forall₂ (Reports r) (scan r content)
      ((Text.numberedLines content.toList).filter fun l => l.2.any (isEmoji r)) := by
  rw [scan_eq_map, List.forall₂_map_left_iff, List.forall₂_same]
  exact fun l hl => reports_violation (List.mem_filter.mp hl).2

/-- Lines without emoji add nothing to those of all lines. -/
lemma flatMap_filter_any (ls : List (ℕ × List Char)) :
    (ls.filter fun l => l.2.any (isEmoji r)).flatMap (fun l => l.2.filter (isEmoji r)) =
      ls.flatMap fun l => l.2.filter (isEmoji r) := by
  induction ls with
  | nil => rfl
  | cons l ls ih =>
      rw [List.filter_cons, List.flatMap_cons]
      split_ifs with hany
      · rw [List.flatMap_cons, ih]
      · have hnone : l.2.filter (isEmoji r) = [] := by
          rw [List.filter_eq_nil_iff, ← List.any_eq_false, Bool.eq_false_iff]
          exact hany
        rw [hnone, ih, List.nil_append]

lemma mapM_listed?_of_forall₂ {vs : List Violation} {ls : List (ℕ × List Char)}
    (h : List.Forall₂ (Reports r) vs ls) :
    vs.mapM listed? = some (ls.map fun l => l.2.filter (isEmoji r)) := by
  induction h with
  | nil => rfl
  | cons hv _ ih =>
      rw [List.mapM_cons, hv.listed, ih]
      rfl

/-- All that is listed are the emoji of the text. -/
lemma mapM_listed?_scan (r : Ranges) (content : String) :
    ((scan r content).mapM listed?).map List.flatten = some (find r content.toList) := by
  rw [mapM_listed?_of_forall₂ (forall₂_reports_scan r content), Option.map_some,
    ← List.flatMap_def, flatMap_filter_any, find_eq_filter_isEmoji,
    ← Text.flatMap_filter_lines (isEmoji_newline r) (isEmoji_return r),
    ← Text.map_snd_numberedLines, List.flatMap_map]

/-- What is reported of a line in the narrow sense is part of what is in the wide one. -/
lemma exists_mem_scan_strict {v : Violation} (h : v ∈ scan .relaxed content) :
    ∃ w ∈ scan .strict content, w.line = v.line ∧
      ∃ cs, listed? w = some cs ∧ listed? v = some (cs.filter (isEmoji .relaxed)) := by
  rw [scan_eq_map, List.mem_map] at h
  obtain ⟨l, hl, rfl⟩ := h
  obtain ⟨hmem, hany⟩ := List.mem_filter.mp hl
  have hstrict : l.2.any (isEmoji .strict) = true := by
    obtain ⟨c, hc, hrelaxed⟩ := List.any_eq_true.mp hany
    exact List.any_eq_true.mpr ⟨c, hc, isEmoji_strict hrelaxed⟩
  refine ⟨violation l.1 (find .strict l.2) l.2, ?_, rfl, find .strict l.2, ?_, ?_⟩
  · rw [scan_eq_map]
    exact List.mem_map_of_mem (List.mem_filter.mpr ⟨hmem, hstrict⟩)
  · rw [(reports_violation hstrict).listed, find_eq_filter_isEmoji]
  · rw [(reports_violation hany).listed, ← find_eq_filter_isEmoji, ← find_eq_filter_isEmoji,
      find_relaxed_find_strict]

/-- **What is reported of emoji can be read back**: the lines of a text that hold some are
reported, one after the other and no others, each with all the emoji in it; what is listed of
all of them together are the emoji of the text; and what is reported of a line in the narrow
sense is, of all that is in the wide one, what counts in the narrow one. -/
theorem scan_listed (content : String) (r : Ranges) :
    List.Forall₂ (Reports r) (scan r content)
        ((Text.numberedLines content.toList).filter fun l => l.2.any (isEmoji r)) ∧
      ((scan r content).mapM listed?).map List.flatten = some (find r content.toList) ∧
      ∀ v ∈ scan .relaxed content, ∃ w ∈ scan .strict content, w.line = v.line ∧
        ∃ cs, listed? w = some cs ∧ listed? v = some (cs.filter (isEmoji .relaxed)) := by
  refine ⟨?_, ?_, ?_⟩
  · exact forall₂_reports_scan r content
  · exact mapM_listed?_scan r content
  · exact fun v => exists_mem_scan_strict

/-- Of a line with a sign, a rocket twice and another sign only the rockets count in the narrow
sense. -/
theorem scan_listed_rockets :
    .atLine 2 .emoji "emoji U+1F680 U+1F680" "✅🚀 a🚀⌚" ∈
        scan .relaxed "é\r\n✅🚀 a🚀⌚\r\n" ∧
      ∃ w ∈ scan .strict "é\r\n✅🚀 a🚀⌚\r\n", w.line = 2 ∧
        ∃ cs, listed? w = some cs ∧
          listed? (.atLine 2 .emoji "emoji U+1F680 U+1F680" "✅🚀 a🚀⌚") =
            some (cs.filter (isEmoji .relaxed)) := by
  have hmem : .atLine 2 .emoji "emoji U+1F680 U+1F680" "✅🚀 a🚀⌚" ∈
      scan .relaxed "é\r\n✅🚀 a🚀⌚\r\n" := by decide
  exact ⟨hmem, (scan_listed _ .relaxed).2.2 _ hmem⟩

end Emoji

end DocLint
