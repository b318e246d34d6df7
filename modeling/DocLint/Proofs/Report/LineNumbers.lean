/-
Which lines the violations of a text point to.

* `Violation.IsOn`: a violation is on one of the lines of a text, of which something holds.
* `Fence.isOn_of_mem_scan`, `Emoji.isOn_of_mem_scan`, `Link.isOn_of_mem_scan`: the fence that
  a violation is about, the text with emoji, and the opening bracket of the link stand on the
  line with its number.
* `Fence.pairwise_scan`, `Emoji.pairwise_scan`, `Link.pairwise_scan`: the violations of a text
  come in the order of its lines.
* `isOn_of_scan`: all of this, for every text, by one and the same count of lines.
-/
import DocLint.Emoji
import DocLint.Link.Check
import DocLint.Proofs.Fence.Blocks
import DocLint.Proofs.Link.Occurrences
import DocLint.Proofs.Text.Lines

namespace DocLint

/-- Whether a violation is on one of the lines of a text, of which something holds together
with the whole lines before it. -/
structure Violation.IsOn (v : Violation) (s : List Char) (P : List Char → List Char → Prop) :
    Prop where
  one_le : 1 ≤ v.line
  le_length : v.line ≤ (Text.lines s).length
  exists_lineAt : ∃ before line, Text.LineAt s v.line before line ∧ P before line

lemma Text.LineAt.isOn {v : Violation} {s before line : List Char}
    {P : List Char → List Char → Prop} (h : Text.LineAt s v.line before line)
    (hline : P before line) : v.IsOn s P :=
  ⟨h.one_le, h.le_length, before, line, h, hline⟩

variable {content : String} {v : Violation}

/-! ### Fences -/

namespace Fence

lemma mem_of_mem_fenceLines {ls : List (ℕ × List Char)} {l : Line} (h : l ∈ fenceLines ls) :
    (l.number, l.text) ∈ ls ∧ ofLine? l.text = some l.fence := by
  obtain ⟨k, hk, hl⟩ := List.mem_filterMap.mp h
  obtain ⟨f, hf, rfl⟩ := Option.map_eq_some_iff.mp hl
  exact ⟨hk, hf⟩

lemma pairwise_fenceLines {ls : List (ℕ × List Char)} (h : ls.Pairwise fun k l => k.1 < l.1) :
    (fenceLines ls).Pairwise fun k l => k.number < l.number := by
  refine h.filterMap _ ?_
  rintro k l hlt k' hk l' hl
  obtain ⟨f, -, rfl⟩ := Option.map_eq_some_iff.mp hk
  obtain ⟨g, -, rfl⟩ := Option.map_eq_some_iff.mp hl
  exact hlt

/-- What is found in a text is about a line that opens a block. -/
lemma exists_opener_of_mem_violations {p : Partition} (h : v ∈ p.violations) :
    ∃ l ∈ p.openers, v = missingTag l.number l.text ∨ v = unclosed l.number := by
  rcases List.mem_append.mp h with h | h
  · obtain ⟨l, hl, rfl⟩ := List.mem_map.mp h
    exact ⟨l, List.mem_of_mem_filter hl, Or.inl rfl⟩
  · obtain ⟨b, hb, rfl⟩ := Option.map_eq_some_iff.mp (Option.mem_toList.mp h)
    refine ⟨b.opener, List.mem_append_right _ ?_, Or.inr rfl⟩
    rw [hb]
    exact List.mem_singleton_self _

/-- Defects are in the order of the lines that open a block, of which the last may have two. -/
lemma pairwise_violations {p : Partition}
    (h : p.openers.Pairwise fun k l => k.number < l.number) :
    p.violations.Pairwise fun v w => v.line ≤ w.line := by
  have hmissing : p.missingTags.Pairwise fun v w => v.line ≤ w.line := by
    rw [Partition.missingTags, List.pairwise_map]
    exact (h.filter _).imp Nat.le_of_lt
  refine List.pairwise_append.mpr ⟨hmissing, ?_, ?_⟩
  · cases p.last with
    | none => exact .nil
    | some b => exact List.pairwise_singleton _ _
  · intro v hv w hw
    obtain ⟨l, hl, rfl⟩ := List.mem_map.mp hv
    obtain ⟨b, hb, rfl⟩ := Option.map_eq_some_iff.mp (Option.mem_toList.mp hw)
    have hopener := List.mem_of_mem_filter hl
    rw [Partition.openers, hb] at h hopener
    rcases List.mem_append.mp hopener with hclosed | hlast
    · exact Nat.le_of_lt ((List.pairwise_append.mp h).2.2 l hclosed b.opener
        (List.mem_singleton_self _))
    · rw [List.mem_singleton.mp hlast]
      exact Nat.le_refl _

/-- **The defects of fences** point to fence lines. -/
lemma isOn_of_mem_scan (h : v ∈ scan content) :
    v.IsOn content.toList fun _ line => (ofLine? line).isSome ∧
      (v.kind = .missingFenceTag ∧ v.context = String.ofList (Text.trimEnd line) ∨
        v.kind = .unclosedFence) := by
  rw [scan_eq_violations] at h
  obtain ⟨l, hl, hv⟩ := exists_opener_of_mem_violations h
  have hline := (Partition.openers_sublist_lines _).subset hl
  rw [Partition.lines_of] at hline
  obtain ⟨hmem, hfence⟩ := mem_of_mem_fenceLines hline
  obtain ⟨before, hat⟩ := Text.exists_lineAt_of_mem_numberedLines hmem
  have hsome : (ofLine? l.text).isSome := by
    rw [hfence]
    rfl
  rcases hv with rfl | rfl
  · exact hat.isOn ⟨hsome, Or.inl ⟨rfl, rfl⟩⟩
  · exact hat.isOn ⟨hsome, Or.inr rfl⟩

lemma pairwise_scan (content : String) :
    (scan content).Pairwise fun v w => v.line ≤ w.line := by
  rw [scan_eq_violations]
  refine pairwise_violations (List.Pairwise.sublist (Partition.openers_sublist_lines _) ?_)
  rw [Partition.lines_of]
  exact pairwise_fenceLines (Text.pairwise_numberedLines _)

end Fence

/-! ### Emoji -/

namespace Emoji

variable {ranges : Ranges}

/-- **The defects of emoji** show the line that they point to. -/
lemma isOn_of_mem_scan (h : v ∈ scan ranges content) :
    v.IsOn content.toList fun _ line => v.context = String.ofList line := by
  obtain ⟨l, hl, hv⟩ := List.mem_filterMap.mp h
  obtain ⟨before, hat⟩ := Text.exists_lineAt_of_mem_numberedLines hl
  dsimp only at hv
  split_ifs at hv
  cases hv
  exact hat.isOn rfl

lemma pairwise_scan (ranges : Ranges) (content : String) :
    (scan ranges content).Pairwise fun v w => v.line < w.line := by
  refine (Text.pairwise_numberedLines content.toList).filterMap _ ?_
  rintro k l hlt v hv w hw
  dsimp only at hv hw
  split_ifs at hv hw
  cases hv
  cases hw
  exact hlt

end Emoji

/-! ### Links -/

namespace Link

variable {sourceDir projectRoot : Path} {probe : Probe} {l : Link}

lemma line_of_violation? (h : violation? sourceDir projectRoot probe l = some v) :
    v.line = l.line := by
  rw [violation?] at h
  split_ifs at h
  dsimp only at h
  split_ifs at h
  cases h
  rfl

/-- The opening bracket of a link stands on the line of the link, as many bytes behind the
start of the line as the offsets differ. -/
lemma exists_lineAt_of_mem_extract (h : l ∈ extract content) :
    ∃ before front back, Text.LineAt content.toList l.line before (front ++ '[' :: back) ∧
      Text.byteCount before + Text.byteCount front = l.offset := by
  obtain ⟨os, hos, hlinks⟩ := exists_isGreedy_extract content
  rw [hlinks] at h
  obtain ⟨o, ho, rfl⟩ := List.mem_map.mp h
  obtain ⟨-, rest, hrest⟩ := hos.isIn ho
  rw [← hrest, List.append_assoc, Form.written, List.cons_append]
  obtain ⟨before, front, back, hbefore, hat⟩ := Text.exists_lineAt_append
    (show '[' ≠ '\n' by decide) (show '[' ≠ '\r' by decide) o.before _
  refine ⟨before, front, back, ?_, ?_⟩
  · rw [Occurrence.link, Nat.add_comm 1]
    exact hat
  · rw [← Text.byteCount_append, ← hbefore]
    rfl

/-- **The defects of links** point to the line with the opening bracket of the link. -/
lemma isOn_of_mem_scan (h : v ∈ scan sourceDir projectRoot probe content) :
    ∃ l ∈ extract content, violation? sourceDir projectRoot probe l = some v ∧
      v.IsOn content.toList fun before line => ∃ front back, line = front ++ '[' :: back ∧
        Text.byteCount before + Text.byteCount front = l.offset := by
  obtain ⟨l, hl, hv⟩ := List.mem_filterMap.mp h
  obtain ⟨before, front, back, hat, hoffset⟩ := exists_lineAt_of_mem_extract hl
  rw [← line_of_violation? hv] at hat
  exact ⟨l, hl, hv, hat.isOn ⟨front, back, rfl, hoffset⟩⟩

lemma pairwise_extract (content : String) :
    (extract content).Pairwise fun k l => k.line ≤ l.line := by
  obtain ⟨os, hos, hlinks⟩ := exists_isGreedy_extract content
  rw [hlinks, List.pairwise_map]
  refine hos.pairwise_offset.imp_of_mem fun ho ho' hlt => ?_
  exact Occurrence.line_le (hos.isIn ho) (hos.isIn ho') (Nat.le_of_lt hlt)

lemma pairwise_scan (sourceDir projectRoot : Path) (probe : Probe) (content : String) :
    (scan sourceDir projectRoot probe content).Pairwise fun v w => v.line ≤ w.line := by
  refine (pairwise_extract content).filterMap _ ?_
  rintro k l hle v hv w hw
  rw [line_of_violation? hv, line_of_violation? hw]
  exact hle

end Link

/-- **Lines are counted alike** in all checks of a text: the number of a violation is that of
one of its lines, and there stands what the violation is about, a fence, the text with emoji
or the opening bracket of a link, the latter at the column in bytes that its offset says. The
violations of a check are in the order of their lines, and no line has two for emoji. -/
theorem isOn_of_scan (content : String) (ranges : Emoji.Ranges) (sourceDir projectRoot : Path)
    (probe : Probe) :
    (∀ v ∈ Fence.scan content,
      v.IsOn content.toList fun _ line => (Fence.ofLine? line).isSome ∧
        (v.kind = .missingFenceTag ∧ v.context = String.ofList (Text.trimEnd line) ∨
          v.kind = .unclosedFence)) ∧
    (∀ v ∈ Emoji.scan ranges content,
      v.IsOn content.toList fun _ line => v.context = String.ofList line) ∧
    (∀ v ∈ Link.scan sourceDir projectRoot probe content,
      ∃ l ∈ Link.extract content, Link.violation? sourceDir projectRoot probe l = some v ∧
        v.IsOn content.toList fun before line => ∃ front back, line = front ++ '[' :: back ∧
          Text.byteCount before + Text.byteCount front = l.offset) ∧
    (Fence.scan content).Pairwise (fun v w => v.line ≤ w.line) ∧
    (Link.scan sourceDir projectRoot probe content).Pairwise (fun v w => v.line ≤ w.line) ∧
    (Emoji.scan ranges content).Pairwise fun v w => v.line < w.line := by
  refine ⟨?_, ?_, ?_, ?_, ?_, ?_⟩
  · exact fun v => Fence.isOn_of_mem_scan
  · exact fun v => Emoji.isOn_of_mem_scan
  · exact fun v => Link.isOn_of_mem_scan
  · exact Fence.pairwise_scan content
  · exact Link.pairwise_scan sourceDir projectRoot probe content
  · exact Emoji.pairwise_scan ranges content

end DocLint
