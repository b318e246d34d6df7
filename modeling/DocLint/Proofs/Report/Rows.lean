/-
What the lines of a report for people say.

* `Row` is one such line by what it says, and `Report.rows` are the rows of a report that is not
  verbose.
* `humanLines_eq_map`: these are its lines; a verbose report has one row more behind every entry
  that is explained (`Row.withDetail`).
* `sections` reads rows back: every heading with the entries right behind it. `sections_rows`: what
  is read back are the files with violations.
* `human_rows`: **so a report lists them**, once and in order, and its headline counts what it
  lists.
-/
import Mathlib.Data.List.Basic
import Mathlib.Tactic.Common
import DocLint.Report.Human

namespace DocLint

/-- Whether there is more to say about a violation: it is one of a line, and it is about emoji or
a fence or a link. -/
def Violation.IsExplained (v : Violation) : Prop :=
  v.line ≠ 0 ∧
    (v.kind = .emoji ∨ v.kind = .missingFenceTag ∨ v.kind = .unclosedFence ∨ v.kind = .brokenLink)

instance (v : Violation) : Decidable v.IsExplained :=
  inferInstanceAs (Decidable (_ ∧ (_ ∨ _ ∨ _ ∨ _)))

/-- One line of a report for people. -/
inductive Row where
  /-- Nothing is wrong with any file. -/
  | allFine (files : Nat)
  | headline (issues files : Nat)
  | blank
  | heading (p : Path)
  | entry (v : Violation)
  /-- What more there is to say about the violation above. -/
  | detail (v : Violation)
  | advice
  /-- Some files could not be looked at. -/
  | leftOut (files : Nat)
  deriving DecidableEq

namespace Row

/-- A row in the report of a check, as it is written. -/
def text (c : Check) : Row → String
  | allFine n => c.title ++ ": OK - no issues found (" ++ toString n ++ " file(s) checked)."
  | headline n m =>
    c.title ++ ": " ++ toString n ++ " issue(s) across " ++ toString m ++ " file(s)."
  | blank => ""
  | heading p => p.display ++ ":"
  | entry v => v.humanLine
  | detail v => "    " ++ if v.kind = .emoji then v.context else v.kind.hint?.getD ""
  | advice => Report.renameAdvice
  | leftOut n => toString n ++ " file(s) could not be checked; treat this as a failure."

/-- Rows as a text, each on a line of its own. -/
def write (c : Check) (rows : List Row) : String :=
  String.join (rows.map fun row => row.text c ++ "\n")

/-- A row with what more there is to say about it. -/
def withDetail : Row → List Row
  | entry v => if v.IsExplained then [entry v, detail v] else [entry v]
  | row => [row]

/-- The violation of an entry. -/
def entry? : Row → Option Violation
  | entry v => some v
  | _ => none

/-- The path of a heading. -/
def heading? : Row → Option Path
  | heading p => some p
  | _ => none

/-- The violations of the entries at the front of some rows. -/
def leading : List Row → List Violation
  | entry v :: rows => v :: leading rows
  | _ => []

/-- The headings of some rows, each with the violations of the entries right behind it. -/
def sections : List Row → List (Path × List Violation)
  | [] => []
  | heading p :: rows => (p, leading rows) :: sections rows
  | _ :: rows => sections rows

variable {rows : List Row} {v : Violation} {vs : List Violation}

/-! ### Reading rows back -/

lemma map_fst_sections (rows : List Row) : (sections rows).map (·.1) = rows.filterMap heading? := by
  induction rows with
  | nil => rfl
  | cons row rows ih =>
      cases row with
      | heading p => exact congrArg (p :: ·) ih
      | _ => exact ih

lemma leading_map_entry (vs : List Violation) (rows : List Row) :
    leading (vs.map entry ++ blank :: rows) = vs := by
  induction vs with
  | nil => rfl
  | cons v vs ih => exact congrArg (v :: ·) ih

lemma sections_map_entry (vs : List Violation) (rows : List Row) :
    sections (vs.map entry ++ rows) = sections rows := by
  induction vs with
  | nil => rfl
  | cons v vs ih => exact ih

/-! ### More about a violation -/

/-- There is more to say about just the violations that are explained. -/
lemma detail?_eq_ite (c : Check) (v : Violation) :
    v.detail? = if v.IsExplained then some ((detail v).text c) else none := by
  obtain ⟨line, kind, message, context⟩ := v
  by_cases hline : line = 0
  · subst hline
    rw [if_neg fun h => h.1 rfl]
    rfl
  · cases kind <;>
      simp [Violation.detail?, Violation.isWholeFile, Violation.IsExplained, text, hline,
        Violation.Kind.hint?]

/-- The lines of a violation are its entry and what more there is to say about it. -/
lemma map_text_withDetail_entry (c : Check) (v : Violation) :
    (entry v).withDetail.map (text c) = v.humanLines true := by
  rw [Violation.humanLines, detail?_eq_ite c, withDetail, if_pos rfl]
  split_ifs <;> rfl

end Row

namespace Report

open Row (sections)

variable {r : Report} {e : Path × List Violation} {es : List (Path × List Violation)}

/-! ### The rows of a report -/

/-- The rows of one file. -/
def fileRows (e : Path × List Violation) : List Row :=
  if e.2.isEmpty then [] else .heading e.1 :: (e.2.map .entry ++ [.blank])

/-- The rows at the end of a report with violations. -/
def closingRows (r : Report) : List Row :=
  (if r.check = .filenames ∧ r.findings.hasKind .namingPolicy then [.advice] else []) ++
    if 0 < r.failed then [.leftOut r.failed] else []

/-- The rows of a report that is not verbose. -/
def rows (r : Report) : List Row :=
  if r.ok then [.allFine r.scanned]
  else .headline r.findings.count r.findings.fileCount :: .blank ::
    (r.findings.entries.flatMap fileRows ++ r.closingRows)

/-- Whether a report lists the files with violations, under a headline that counts what is
listed. -/
structure IsLaidOut (r : Report) : Prop where
  /-- Every file with violations has one heading, and its violations right behind it. -/
  sections_eq : sections r.rows = r.findings.entries.filter fun e => !e.2.isEmpty
  inOrder : (sections r.rows).Pairwise Path.Before
  /-- No entry stands anywhere else. -/
  entries_eq : r.rows.filterMap Row.entry? = (sections r.rows).flatMap (·.2)
  headline_eq : r.rows.head? =
    some (.headline (r.rows.filterMap Row.entry?).length (r.rows.filterMap Row.heading?).length)
  count_eq : r.findings.count = (r.rows.filterMap Row.entry?).length
  fileCount_eq : r.findings.fileCount = (r.rows.filterMap Row.heading?).length
  leftOut_iff : ∀ n, .leftOut n ∈ r.rows ↔ 0 < r.failed ∧ n = r.failed

/-! ### Rows and lines -/

/-- A row as a report shows it. -/
def shown (verbose : Bool) (row : Row) : List Row :=
  if verbose then row.withDetail else [row]

lemma map_text_shown_entry (verbose : Bool) (c : Check) (v : Violation) :
    (shown verbose (.entry v)).map (Row.text c) = v.humanLines verbose := by
  cases verbose with
  | false => rfl
  | true => exact Row.map_text_withDetail_entry c v

lemma shown_of_entry?_eq_none (verbose : Bool) {row : Row} (h : row.entry? = none) :
    shown verbose row = [row] := by
  cases verbose with
  | false => rfl
  | true => cases row <;> first | rfl | cases h

/-- The lines of one file are its rows. -/
lemma fileLines_eq_map (verbose : Bool) (c : Check) (e : Path × List Violation) :
    fileLines verbose e = ((fileRows e).flatMap (shown verbose)).map (Row.text c) := by
  have hheading : shown verbose (.heading e.1) = [.heading e.1] :=
    shown_of_entry?_eq_none verbose rfl
  have hblank : shown verbose .blank = [.blank] := shown_of_entry?_eq_none verbose rfl
  rw [fileLines, fileRows]
  split_ifs
  · rfl
  · rw [List.flatMap_cons, List.flatMap_append, List.flatMap_map, hheading, List.flatMap_singleton,
      hblank, List.map_append, List.map_append, List.map_flatMap]
    simp only [map_text_shown_entry]
    rfl

lemma flatMap_shown_closingRows (verbose : Bool) (r : Report) :
    r.closingRows.flatMap (shown verbose) = r.closingRows := by
  have hadvice : shown verbose .advice = [.advice] := shown_of_entry?_eq_none verbose rfl
  have hleftOut : shown verbose (.leftOut r.failed) = [.leftOut r.failed] :=
    shown_of_entry?_eq_none verbose rfl
  rw [closingRows]
  split_ifs <;> simp [hadvice, hleftOut]

lemma flatMap_fileLines (verbose : Bool) (c : Check) (es : List (Path × List Violation)) :
    es.flatMap (fileLines verbose) =
      ((es.flatMap fileRows).flatMap (shown verbose)).map (Row.text c) := by
  rw [List.flatMap_assoc, List.map_flatMap]
  exact List.flatMap_congr fun e _ => fileLines_eq_map verbose c e

/-- **The lines of a report** are its rows, as they are shown. -/
lemma humanLines_eq_map (verbose : Bool) (r : Report) :
    r.humanLines verbose = (r.rows.flatMap (shown verbose)).map (Row.text r.check) := by
  rw [humanLines, rows]
  split_ifs with hok
  · rw [List.flatMap_singleton, shown_of_entry?_eq_none verbose rfl]
    rfl
  · have hclosing : r.closingLines = r.closingRows.map (Row.text r.check) := by
      rw [closingLines, closingRows]
      split_ifs <;> rfl
    rw [List.flatMap_cons, List.flatMap_cons, List.flatMap_append, flatMap_shown_closingRows,
      shown_of_entry?_eq_none verbose rfl, shown_of_entry?_eq_none verbose rfl, List.map_append,
      List.map_append, List.map_append, ← flatMap_fileLines, ← hclosing]
    rfl

/-! ### What the rows list -/

lemma sections_fileRows (e : Path × List Violation) (rows : List Row) :
    sections (fileRows e ++ rows) = [e].filter (fun e => !e.2.isEmpty) ++ sections rows := by
  obtain ⟨p, vs⟩ := e
  cases vs with
  | nil => rfl
  | cons v vs =>
      show sections (.heading p :: ((v :: vs).map .entry ++ [.blank]) ++ rows) = _
      rw [List.cons_append, List.append_assoc, sections, List.singleton_append,
        Row.leading_map_entry, Row.sections_map_entry]
      rfl

lemma sections_flatMap_fileRows (es : List (Path × List Violation)) (rows : List Row) :
    sections (es.flatMap fileRows ++ rows) =
      es.filter (fun e => !e.2.isEmpty) ++ sections rows := by
  induction es with
  | nil => rfl
  | cons e es ih =>
      rw [List.flatMap_cons, List.append_assoc, sections_fileRows, ih, ← List.append_assoc,
        ← List.filter_append, List.singleton_append]

lemma sections_closingRows (r : Report) : sections r.closingRows = [] := by
  rw [closingRows]
  split_ifs <;> rfl

/-- **The rows of a report** list the files with violations. -/
lemma sections_rows (hok : r.ok = false) :
    sections r.rows = r.findings.entries.filter fun e => !e.2.isEmpty := by
  rw [rows, hok, if_neg Bool.false_ne_true, sections, sections, sections_flatMap_fileRows,
    sections_closingRows, List.append_nil]
  all_goals exact fun p h => by cases h

lemma filterMap_entry?_fileRows (e : Path × List Violation) :
    (fileRows e).filterMap Row.entry? = e.2 := by
  obtain ⟨p, vs⟩ := e
  cases vs with
  | nil => rfl
  | cons v vs =>
      show ((.heading p : Row) :: ((v :: vs).map .entry ++ [.blank])).filterMap Row.entry? = _
      rw [List.filterMap_cons_none rfl, List.filterMap_append, List.filterMap_map]
      simp [Function.comp_def, Row.entry?]

/-- The entries of a report are all its violations, file after file. -/
lemma filterMap_entry?_rows (hok : r.ok = false) :
    r.rows.filterMap Row.entry? = r.findings.all := by
  have hclosing : r.closingRows.filterMap Row.entry? = [] := by
    rw [closingRows]
    split_ifs <;> rfl
  rw [rows, hok, if_neg Bool.false_ne_true, List.filterMap_cons_none rfl,
    List.filterMap_cons_none rfl, List.filterMap_append, hclosing, List.append_nil,
    List.filterMap_flatMap, Findings.all]
  exact List.flatMap_congr fun e _ => filterMap_entry?_fileRows e

lemma flatMap_filter_ne_nil (es : List (Path × List Violation)) :
    (es.filter fun e => !e.2.isEmpty).flatMap (·.2) = es.flatMap (·.2) := by
  induction es with
  | nil => rfl
  | cons e es ih =>
      rw [List.filter_cons, List.flatMap_cons, ← ih]
      split_ifs with he
      · rw [List.flatMap_cons]
      · rw [Bool.not_eq_true, Bool.not_eq_false', List.isEmpty_iff] at he
        rw [he, List.nil_append]

lemma leftOut_notMem_fileRows (n : Nat) (e : Path × List Violation) :
    .leftOut n ∉ fileRows e := by
  rw [fileRows]
  split_ifs <;> simp

lemma leftOut_mem_rows_iff (hok : r.ok = false) (n : Nat) :
    .leftOut n ∈ r.rows ↔ 0 < r.failed ∧ n = r.failed := by
  have hfiles : .leftOut n ∉ r.findings.entries.flatMap fileRows := by
    rw [List.mem_flatMap]
    rintro ⟨e, -, he⟩
    exact leftOut_notMem_fileRows n e he
  have hclosing : .leftOut n ∈ r.closingRows ↔ 0 < r.failed ∧ n = r.failed := by
    rw [closingRows]
    split_ifs with _ hfailed hfailed <;> simp [hfailed]
  rw [rows, hok, if_neg Bool.false_ne_true, List.mem_cons, List.mem_cons, List.mem_append, hclosing,
    or_iff_right hfiles, or_iff_right Row.noConfusion, or_iff_right Row.noConfusion]

/-- **The layout of a report** that is not fine. -/
lemma isLaidOut (hok : r.ok = false) : r.IsLaidOut where
  sections_eq := sections_rows hok
  inOrder := by
    rw [sections_rows hok]
    exact r.findings.sorted.filter _
  entries_eq := by
    rw [filterMap_entry?_rows hok, sections_rows hok, flatMap_filter_ne_nil]
    rfl
  headline_eq := by
    rw [filterMap_entry?_rows hok, ← Row.map_fst_sections, sections_rows hok, List.length_map,
      rows, hok]
    rfl
  count_eq := by
    rw [filterMap_entry?_rows hok]
    rfl
  fileCount_eq := by
    rw [← Row.map_fst_sections, sections_rows hok, List.length_map]
    rfl
  leftOut_iff n := leftOut_mem_rows_iff hok n

/-! ### The counts -/

lemma ok_iff_forall : r.ok = true ↔ ∀ e ∈ r.findings.entries, e.2 = [] := by
  rw [ok, Findings.isClean, List.all_eq_true]
  exact forall₂_congr fun e _ => List.isEmpty_iff

lemma count_eq_zero_iff : r.findings.count = 0 ↔ r.ok = true := by
  rw [Findings.count, Findings.all, List.length_eq_zero_iff, List.flatMap_eq_nil_iff, ok_iff_forall]

lemma fileCount_eq_zero_iff : r.findings.fileCount = 0 ↔ r.ok = true := by
  rw [Findings.fileCount, List.length_eq_zero_iff, List.filter_eq_nil_iff, ok_iff_forall]
  exact forall₂_congr fun e _ => by rw [Bool.not_eq_true, Bool.not_eq_false', List.isEmpty_iff]

lemma human_eq_write (verbose : Bool) (r : Report) :
    r.human verbose = Row.write r.check (r.rows.flatMap (shown verbose)) := by
  rw [human, humanLines_eq_map, List.map_map]
  rfl

/-- **The lines of a report**: where nothing is wrong it is one line; else it lists the files with
violations in the order of their paths, each violation under its file, below a headline with the
numbers of what is listed, and says so just if files were left out. To be verbose is to put one
line more right behind every violation that is explained. -/
theorem human_rows (r : Report) :
    r.human false = Row.write r.check r.rows ∧
    r.human true = Row.write r.check (r.rows.flatMap Row.withDetail) ∧
    (r.ok = true → r.rows = [.allFine r.scanned]) ∧
    (r.ok = false → r.IsLaidOut) ∧
    (r.ok = true ↔ r.findings.count = 0 ∧ r.findings.fileCount = 0) := by
  refine ⟨?_, human_eq_write true r, fun hok => ?_, isLaidOut, ?_⟩
  · rw [human_eq_write]
    exact congrArg _ (List.flatMap_singleton' r.rows)
  · rw [rows, if_pos hok]
  · rw [count_eq_zero_iff, fileCount_eq_zero_iff, and_self_iff]

end Report

section Mixed

/-- A file without violations between one that could not be read and one with emoji on a line. -/
def mixedFindings : Findings :=
  .ofList [
    (.ofString "c.md", [.atLine 3 .emoji "emoji U+1F680" "up"]),
    (.ofString "b.md", []),
    (.ofString "a.md", [.unreadable "binary or non-UTF-8 file"])]

/-- A report on these files. -/
def mixedReport : Report := ⟨.emoji, 2, 1, mixedFindings⟩

/-- The headline of the report counts two files, and its reader is told of the one left out. -/
theorem Report.human_rows_mixedReport :
    mixedReport.ok = false ∧ mixedReport.IsLaidOut ∧
      mixedReport.rows.head? = some (.headline 2 2) ∧ .leftOut 1 ∈ mixedReport.rows := by
  have hok : mixedReport.ok = false := by decide
  have hlaid : mixedReport.IsLaidOut := (Report.human_rows mixedReport).2.2.2.1 hok
  exact ⟨hok, hlaid, by decide, (hlaid.leftOut_iff 1).mpr ⟨by decide, rfl⟩⟩

end Mixed

end DocLint
