/-
Which violations are worded on one line.

* `Violation.newline_mem_of_newline_mem_summary`: a wording has a line feed only from the
  message or the context.
* `Fence.newline_notMem_summary`, `Emoji.newline_notMem_summary`: violations on fences and
  on emoji are worded on one line.
* `Link.newline_mem_summary_iff`: one on a link is, just if the link is written on one line.
* `singleLine_summary_of_scan`: all of this, for every text;
  `exists_newline_mem_summary`: a link may be written on two lines.
-/
import DocLint.Proofs.Emoji.Listing
import DocLint.Proofs.Link.Resolved
import DocLint.Proofs.Path.Text
import DocLint.Proofs.Report.Indent
import DocLint.Proofs.Report.Kinds

namespace DocLint

/-! ### Wording -/

namespace Violation

variable {v : Violation}

lemma newline_mem_of_newline_mem_summary (h : '\n' ∈ v.summary.toList) :
    '\n' ∈ v.message.toList ∨ '\n' ∈ v.context.toList := by
  have hnumber : '\n' ∉ (toString v.line).toList := Json.newline_notMem_number v.line
  have hparts : '\n' ∉ "[warning] ".toList ∧ '\n' ∉ "Line ".toList ∧ '\n' ∉ ": ".toList ∧
      '\n' ∉ ": '".toList ∧ '\n' ∉ "'".toList := by decide
  obtain ⟨hwarning, hfront, hcolon, hopen, hclose⟩ := hparts
  rw [summary] at h
  split_ifs at h
  · rw [String.toList_append, List.mem_append] at h
    exact Or.inl (h.resolve_left hwarning)
  · exact Or.inl h
  · simp only [String.toList_append, List.mem_append, hnumber, hfront, hcolon, false_or] at h
    exact Or.inl h
  · simpa only [String.toList_append, List.mem_append, hnumber, hfront, hcolon, hopen, hclose,
      false_or, or_false] using h

/-- The context of a violation of one line is part of its wording. -/
lemma newline_mem_summary (hline : v.line ≠ 0) (h : '\n' ∈ v.context.toList) :
    '\n' ∈ v.summary.toList := by
  have hwhole : v.isWholeFile = false := beq_eq_false_iff_ne.mpr hline
  have hcontext : v.context ≠ "" := by
    intro heq
    rw [heq] at h
    cases h
  rw [summary, hwhole, if_neg Bool.false_ne_true, if_neg hcontext]
  simp only [String.toList_append, List.mem_append]
  exact Or.inl (Or.inr h)

end Violation

/-! ### Fences -/

lemma Fence.newline_notMem_summary {content : String} {v : Violation} (h : v ∈ scan content) :
    '\n' ∉ v.summary.toList := by
  intro hn
  have hparts := Violation.newline_mem_of_newline_mem_summary hn
  rcases eq_of_mem_scan h with ⟨l, hl, rfl⟩ | ⟨n, rfl⟩
  · rcases hparts with hn | hn
    · have hmessage : '\n' ∉ missingTagMessage.toList := by decide
      exact hmessage hn
    · rw [missingTag, Violation.atLine, String.toList_ofList, Text.trimEnd_eq_rdropWhile] at hn
      exact Text.newline_notMem_of_mem_numberedLines hl ((List.rdropWhile_prefix _ _).subset hn)
  · rcases hparts with hn | hn
    · have hmessage : (unclosed n).message.toList =
          "unclosed code block opened at line ".toList ++ (toString n).toList :=
        String.toList_append
      rw [hmessage, List.mem_append] at hn
      rcases hn with hn | hn
      · exact absurd hn (by decide)
      · exact Json.newline_notMem_number n hn
    · have hcontext : (unclosed n).context = "" := rfl
      rw [hcontext] at hn
      cases hn

/-! ### Emoji -/

namespace Emoji

lemma newline_notMem_listing (cs : List Char) : '\n' ∉ listing cs := by
  intro h
  rw [listing_eq_glue] at h
  rcases Text.mem_glue h with hblank | ⟨p, hp, hn⟩
  · exact absurd hblank (by decide)
  · obtain ⟨c, -, rfl⟩ := List.mem_map.mp hp
    exact notMem_codePointName (by decide) (by decide) c hn

lemma newline_notMem_summary {ranges : Ranges} {content : String} {v : Violation}
    (h : v ∈ scan ranges content) : '\n' ∉ v.summary.toList := by
  intro hn
  obtain ⟨l, hl, hv⟩ := List.mem_filterMap.mp h
  dsimp only at hv
  split_ifs at hv
  cases hv
  rcases Violation.newline_mem_of_newline_mem_summary hn with hn | hn
  · rw [violation, Violation.atLine, String.toList_ofList, List.mem_append] at hn
    rcases hn with hn | hn
    · exact absurd hn (by decide)
    · exact newline_notMem_listing _ hn
  · rw [violation, Violation.atLine, String.toList_ofList] at hn
    exact Text.newline_notMem_of_mem_numberedLines hl hn

end Emoji

/-! ### Links -/

namespace Link

variable {sourceDir projectRoot : Path} {probe : Probe} {target : List Char} {l : Link}
  {content : String}

lemma mem_encode_of_subset {a : UInt8} {s t : List Char} (h : a ∈ Text.Utf8.encode s)
    (hst : s ⊆ t) : a ∈ Text.Utf8.encode t := by
  obtain ⟨c, hc, ha⟩ := List.mem_flatMap.mp h
  exact List.mem_flatMap.mpr ⟨c, hst hc, ha⟩

/-- The bytes of the path that a target spells come from the target, or from where it is
seen from. -/
lemma mem_bytes_base {a : UInt8} (h : a ∈ (base sourceDir projectRoot target).bytes)
    (hslash : a ≠ slash) (hdot : a ≠ dot) :
    a ∈ sourceDir.bytes ∨ a ∈ projectRoot.bytes ∨ a ∈ Text.Utf8.encode target := by
  have hjoin : ∀ {p : Path} {s : List Char}, a ∈ (p.join ⟨Text.Utf8.encode s⟩).normal.bytes →
      s ⊆ fileOf (Text.trim target) → a ∈ p.bytes ∨ a ∈ Text.Utf8.encode target := by
    intro p s ha hs
    have ha := ((Path.mem_bytes_normal ha).resolve_left hslash).resolve_left hdot
    rcases (Path.mem_bytes_join ha).resolve_left hslash with ha | ha
    · exact Or.inl ha
    · exact Or.inr (mem_encode_of_subset ha fun c hc =>
        Text.mem_of_mem_trim ((fileOf_prefix_target _).subset (hs hc)))
  rw [base] at h
  split at h
  · next rest hrest =>
    refine Or.inr (hjoin h ?_)
    rw [hrest]
    exact fun c hc => List.mem_cons_of_mem _ ((List.dropWhile_suffix _).subset hc)
  · exact (hjoin h fun c hc => hc).imp_right Or.inr

/-- No line feed is named of a target that it does not hold itself. -/
lemma newline_mem_of_mem_guessText (hsource : Path.lineFeed ∉ sourceDir.bytes)
    (hproject : Path.lineFeed ∉ projectRoot.bytes)
    (h : '\n' ∈ guessText sourceDir projectRoot target) : '\n' ∈ target := by
  rw [guessText] at h
  split_ifs at h
  · cases h
  · have hguess := Path.lineFeed_mem_bytes h
    have hbase : Path.lineFeed ∈ (base sourceDir projectRoot target).bytes := by
      rw [firstGuess] at hguess
      split_ifs at hguess
      · exact (List.mem_append.mp hguess).resolve_right (by decide)
      · exact hguess
    have hbytes := mem_bytes_base hbase (by decide) (by decide)
    exact Path.newline_mem_of_lineFeed_mem
      ((hbytes.resolve_left hsource).resolve_left hproject)

lemma line_ne_zero_of_mem_extract (h : l ∈ extract content) : l.line ≠ 0 := by
  obtain ⟨os, -, hlinks⟩ := exists_isGreedy_extract content
  rw [hlinks] at h
  obtain ⟨o, -, rfl⟩ := List.mem_map.mp h
  exact Nat.ne_of_gt (Nat.add_pos_left Nat.one_pos _)

lemma newline_mem_markdown_iff : '\n' ∈ l.markdown ↔ '\n' ∈ l.text ∨ '\n' ∈ l.target := by
  simp [markdown, Form.written]

/-- **The defect of a link** is worded on one line, just if the link is written on one. -/
lemma newline_mem_summary_iff (hsource : Path.lineFeed ∉ sourceDir.bytes)
    (hproject : Path.lineFeed ∉ projectRoot.bytes) (hl : l ∈ extract content) {v : Violation}
    (hv : violation? sourceDir projectRoot probe l = some v) :
    '\n' ∈ v.summary.toList ↔ '\n' ∈ l.text ∨ '\n' ∈ l.target := by
  rw [violation?_eq_ite (trim_target_of_mem_extract hl)] at hv
  split_ifs at hv
  cases hv
  have hcontext : (brokenLink sourceDir projectRoot l).context.toList = l.markdown :=
    String.toList_ofList
  rw [← newline_mem_markdown_iff]
  constructor
  · intro hn
    rcases Violation.newline_mem_of_newline_mem_summary hn with hn | hn
    · rw [brokenLink, Violation.atLine, String.toList_ofList, List.mem_append] at hn
      have hguess := hn.resolve_left (by decide)
      exact newline_mem_markdown_iff.mpr
        (Or.inr (newline_mem_of_mem_guessText hsource hproject hguess))
    · rwa [hcontext] at hn
  · intro hn
    rw [← hcontext] at hn
    exact Violation.newline_mem_summary (line_ne_zero_of_mem_extract hl) hn

end Link

/-- **Wordings are single lines**, but for links that are written on more than one: so are
all those on fences and on emoji; and if the directory of a file and its project have no
line feeds in their paths, that on a broken link is one just if neither the words nor the
target of the link hold a line feed. -/
theorem singleLine_summary_of_scan (content : String) (ranges : Emoji.Ranges) (probe : Probe)
    {source project : String} (hsource : '\n' ∉ source.toList)
    (hproject : '\n' ∉ project.toList) :
    (∀ v ∈ Fence.scan content, '\n' ∉ v.summary.toList) ∧
    (∀ v ∈ Emoji.scan ranges content, '\n' ∉ v.summary.toList) ∧
    ∀ v ∈ Link.scan (.ofString source) (.ofString project) probe content,
      ∃ l ∈ Link.extract content,
        Link.violation? (.ofString source) (.ofString project) probe l = some v ∧
        ('\n' ∈ v.summary.toList ↔ '\n' ∈ l.text ∨ '\n' ∈ l.target) := by
  have hbytes : ∀ {s : String}, '\n' ∉ s.toList → Path.lineFeed ∉ (Path.ofString s).bytes :=
    fun hs h => hs (Path.newline_mem_of_lineFeed_mem h)
  refine ⟨fun v => Fence.newline_notMem_summary, fun v => Emoji.newline_notMem_summary,
    fun v hv => ?_⟩
  obtain ⟨l, hl, hlv⟩ := List.mem_filterMap.mp hv
  exact ⟨l, hl, hlv, Link.newline_mem_summary_iff (hbytes hsource) (hbytes hproject) hl hlv⟩

section TwoLines

/-- A probe that finds nothing. -/
def noFiles : Probe := ⟨fun _ => false, fun _ => false⟩

/-- A link whose words stand on two lines, and one whose words do not. -/
def twoLines : String := "[a\nb](missing.md) [c](d.md)"

theorem singleLine_summary_of_scan_twoLines :
    '\n' ∉ "/w/docs".toList ∧ '\n' ∉ "/w".toList ∧
    ∀ v ∈ Link.scan (.ofString "/w/docs") (.ofString "/w") noFiles twoLines,
      ∃ l ∈ Link.extract twoLines,
        Link.violation? (.ofString "/w/docs") (.ofString "/w") noFiles l = some v ∧
        ('\n' ∈ v.summary.toList ↔ '\n' ∈ l.text ∨ '\n' ∈ l.target) := by
  have hsource : '\n' ∉ "/w/docs".toList := by decide
  have hproject : '\n' ∉ "/w".toList := by decide
  exact ⟨hsource, hproject,
    (singleLine_summary_of_scan twoLines .relaxed noFiles hsource hproject).2.2⟩

/-- **A wording may take two lines**: that of the first of these links does. -/
theorem exists_newline_mem_summary :
    ∃ v ∈ Link.scan (.ofString "/w/docs") (.ofString "/w") noFiles twoLines,
      v.summary = "Line 1: broken link -> /w/docs/missing.md: '[a\nb](missing.md)'" ∧
        '\n' ∈ v.summary.toList := by
  decide +kernel

end TwoLines

end DocLint
