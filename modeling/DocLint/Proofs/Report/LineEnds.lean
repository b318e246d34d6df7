/-
What is found in a text does not depend on its line ends.

* `numberedLines_withReturns`: the numbered lines are the same with either line end, so all is
  that is found line by line.
* `Link.Form.withReturns`: a form with a carriage return in front of every line feed.
  `Link.form?_withReturns`: a form is read at the front of a text just if it is without them.
* `Link.extractFrom_withReturns_of_form?`, `Link.extractFrom_withReturns_newline`,
  `Link.extractFrom_withReturns_cons`: the steps of a walk through a text with them;
  `Link.extractFrom_withReturns`: so the links of a text are the same but for their line ends
  and for their offsets, which grow by a byte for every line before.
* `scan_withReturns`: all of this, for every text without carriage returns.
-/
import DocLint.Emoji
import DocLint.Fence
import DocLint.Proofs.Link.Occurrences
import DocLint.Proofs.Text.LineEnds

namespace DocLint

lemma Text.numberedLines_withReturns {s : List Char} (h : '\r' ∉ s) :
    numberedLines (withReturns s) = numberedLines s := by
  rw [numberedLines, numberedLines, lines_withReturns h]

namespace Link

variable {s rest : List Char} {f : Form} {c : Char}

/-! ### Forms -/

/-- The form with a carriage return in front of every line feed. -/
def Form.withReturns (f : Form) : Form :=
  ⟨Text.withReturns f.text, Text.withReturns f.target⟩

lemma Form.written_withReturns (f : Form) :
    f.withReturns.written = Text.withReturns f.written := by
  have hopen (s : List Char) : Text.withReturns ('[' :: s) = '[' :: Text.withReturns s := rfl
  have hmiddle (s : List Char) :
      Text.withReturns (']' :: '(' :: s) = ']' :: '(' :: Text.withReturns s := rfl
  rw [written, written, hopen, Text.withReturns_append, hmiddle, Text.withReturns_append]
  rfl

lemma Form.isProper_withReturns_iff : f.withReturns.IsProper ↔ f.IsProper := by
  have htext : ']' ∈ Text.withReturns f.text ↔ ']' ∈ f.text :=
    Text.mem_withReturns_iff (by decide)
  have htarget : ')' ∈ Text.withReturns f.target ↔ ')' ∈ f.target :=
    Text.mem_withReturns_iff (by decide)
  constructor
  · intro h
    exact ⟨fun hnil => h.text_ne_nil (Text.withReturns_eq_nil_iff.mpr hnil),
      fun hmem => h.notMem_text (htext.mpr hmem),
      fun hnil => h.target_ne_nil (Text.withReturns_eq_nil_iff.mpr hnil),
      fun hmem => h.notMem_target (htarget.mpr hmem)⟩
  · intro h
    exact ⟨fun hnil => h.text_ne_nil (Text.withReturns_eq_nil_iff.mp hnil),
      fun hmem => h.notMem_text (htext.mp hmem),
      fun hnil => h.target_ne_nil (Text.withReturns_eq_nil_iff.mp hnil),
      fun hmem => h.notMem_target (htarget.mp hmem)⟩

/-- What is written with returns as a form and more was written as a form before. -/
lemma exists_written_append_of_withReturns {g : Form} {after : List Char}
    (h : Text.withReturns s = g.written ++ after) :
    ∃ (f : Form) (rest : List Char), s = f.written ++ rest ∧ f.withReturns = g ∧
      Text.withReturns rest = after := by
  have hsplit : g.written ++ after =
      [] ++ '[' :: (g.text ++ ']' :: ([] ++ '(' :: (g.target ++ ')' :: after))) := by
    simp [Form.written]
  rw [hsplit] at h
  -- The four brackets stand in the text itself, one behind the other.
  obtain ⟨a, s₁, rfl, ha, h⟩ := Text.exists_eq_append_cons_of_withReturns (by decide) (by decide) h
  obtain ⟨text, s₂, rfl, htext, h⟩ :=
    Text.exists_eq_append_cons_of_withReturns (by decide) (by decide) h
  obtain ⟨b, s₃, rfl, hb, h⟩ := Text.exists_eq_append_cons_of_withReturns (by decide) (by decide) h
  obtain ⟨target, rest, rfl, htarget, hrest⟩ :=
    Text.exists_eq_append_cons_of_withReturns (by decide) (by decide) h
  rw [Text.withReturns_eq_nil_iff] at ha hb
  subst ha hb
  refine ⟨⟨text, target⟩, rest, by simp [Form.written], ?_, hrest⟩
  rw [Form.withReturns, htext, htarget]

/-- **A form** is read with returns just where it is read without them. -/
lemma form?_withReturns (s : List Char) :
    form? (Text.withReturns s) =
      (form? s).map fun r => (r.1.withReturns, Text.withReturns r.2) := by
  cases h : form? s with
  | some r =>
      obtain ⟨hproper, rfl⟩ := form?_eq_some_iff.mp h
      rw [Text.withReturns_append, ← Form.written_withReturns]
      exact form?_written_append (Form.isProper_withReturns_iff.mpr hproper) _
  | none =>
      cases h' : form? (Text.withReturns s) with
      | none => rfl
      | some r =>
          obtain ⟨hproper, hs⟩ := form?_eq_some_iff.mp h'
          obtain ⟨f, rest, rfl, hf, -⟩ := exists_written_append_of_withReturns hs
          rw [← hf, Form.isProper_withReturns_iff] at hproper
          rw [form?_written_append hproper] at h
          cases h

/-! ### Links -/

lemma extractFrom_cons_of_eq_none (offset line : ℕ) (h : form? (c :: s) = none) :
    extractFrom offset line (c :: s) =
      extractFrom (offset + c.utf8Size) (line + Text.lineCount [c]) s := by
  rw [extractFrom]
  split
  · next h' =>
    rw [h] at h'
    cases h'
  · by_cases hc : c = '\n'
    · rw [if_pos hc, hc]
      rfl
    · rw [if_neg hc, Text.lineCount_cons hc]
      rfl

/-- The link with a carriage return in front of every line feed in a text, where as many of
them stand before it. -/
def withReturns (before : ℕ) (l : Link) : Link where
  text := Text.withReturns l.text
  target := Text.withReturns l.target
  line := l.line
  offset := l.offset + before

lemma ofForm_withReturns (f : Form) (offset line before : ℕ) :
    ofForm f.withReturns (offset + before) line = (ofForm f offset line).withReturns before := by
  rw [ofForm, Form.withReturns, Text.trim_withReturns]
  rfl

variable {offset before : ℕ}

/-- One form: the walk goes on behind it, further by the lines in it. -/
lemma extractFrom_withReturns_of_form? (h : form? s = some (f, rest)) :
    extractFrom (offset + before) (before + 1) (Text.withReturns s) =
      (ofForm f offset (before + 1)).withReturns before ::
        extractFrom (offset + Text.byteCount f.written + (before + Text.lineCount f.written))
          (before + Text.lineCount f.written + 1) (Text.withReturns rest) := by
  have hreturns : form? (Text.withReturns s) = some (f.withReturns, Text.withReturns rest) := by
    rw [form?_withReturns, h]
    rfl
  have hoffset : offset + before + Text.byteCount f.withReturns.written =
      offset + Text.byteCount f.written + (before + Text.lineCount f.written) := by
    rw [Form.written_withReturns, Text.byteCount_withReturns]
    omega
  rw [extractFrom_of_form? _ _ hreturns, hoffset, Form.written_withReturns,
    Text.lineCount_withReturns, ofForm_withReturns, Nat.add_right_comm before 1]

/-- One line end: no form starts with either character of it. -/
lemma extractFrom_withReturns_newline (s : List Char) :
    extractFrom (offset + before) (before + 1) (Text.withReturns ('\n' :: s)) =
      extractFrom (offset + '\n'.utf8Size + (before + 1)) (before + 1 + 1)
        (Text.withReturns s) := by
  have hreturn : form? ('\r' :: '\n' :: Text.withReturns s) = none := rfl
  have hnewline : form? ('\n' :: Text.withReturns s) = none := rfl
  have hoffset : offset + before + '\r'.utf8Size + '\n'.utf8Size =
      offset + '\n'.utf8Size + (before + 1) := by
    have hsize : '\r'.utf8Size = 1 := by decide
    omega
  rw [Text.withReturns_cons_newline, extractFrom_cons_of_eq_none _ _ hreturn,
    extractFrom_cons_of_eq_none _ _ hnewline, hoffset]
  rfl

/-- Any other character with which no form starts. -/
lemma extractFrom_withReturns_cons (hc : c ≠ '\n') (h : form? (c :: s) = none) :
    extractFrom (offset + before) (before + 1) (Text.withReturns (c :: s)) =
      extractFrom (offset + c.utf8Size + before) (before + 1) (Text.withReturns s) := by
  have hreturns : form? (c :: Text.withReturns s) = none := by
    rw [← Text.withReturns_cons hc, form?_withReturns, h]
    rfl
  rw [Text.withReturns_cons hc, extractFrom_cons_of_eq_none _ _ hreturns,
    Text.lineCount_cons hc, Nat.add_right_comm offset]
  rfl

/-- **A walk** through a text with returns finds the same links. It is as many bytes further
than without them as lines are behind it. -/
lemma extractFrom_withReturns (offset before : ℕ) (s : List Char) :
    extractFrom (offset + before) (before + 1) (Text.withReturns s) =
      (extractFrom offset (before + 1) s).map fun l => l.withReturns (l.line - 1) := by
  induction hlen : s.length using Nat.strongRecOn generalizing offset before s with
  | ind n ih =>
    cases hform : form? s with
    | some r =>
        obtain ⟨f, rest⟩ := r
        have hlt : rest.length < n := hlen ▸ length_lt_of_form? hform
        rw [extractFrom_withReturns_of_form? hform, ih rest.length hlt _ _ rest rfl,
          extractFrom_of_form? _ _ hform, Nat.add_right_comm before 1, List.map_cons]
        rfl
    | none =>
        cases s with
        | nil => rw [Text.withReturns_nil, extractFrom, extractFrom, List.map_nil]
        | cons c cs =>
            have hlt : cs.length < n := by
              rw [← hlen]
              exact Nat.lt_succ_self _
            rw [extractFrom_cons_of_eq_none _ _ hform]
            by_cases hc : c = '\n'
            · subst hc
              rw [extractFrom_withReturns_newline]
              exact ih cs.length hlt _ (before + 1) cs rfl
            · rw [extractFrom_withReturns_cons hc hform, Text.lineCount_cons hc]
              exact ih cs.length hlt _ before cs rfl

/-- The line of a link counts the line feeds before it. -/
lemma line_sub_one_of_mem_extract {content : String} {l : Link} (h : l ∈ extract content) :
    l.line - 1 = Text.newlinesBefore l.offset content.toList := by
  obtain ⟨os, hos, hlinks⟩ := exists_isGreedy_extract content
  rw [hlinks] at h
  obtain ⟨o, ho, rfl⟩ := List.mem_map.mp h
  obtain ⟨rest, hrest⟩ := (hos.isIn ho).prefix_before
  have hcount := Text.newlinesBefore_append o.before rest
  rw [hrest] at hcount
  rw [Occurrence.link, Nat.add_sub_cancel_left]
  exact hcount.symm

lemma extract_withReturns (content : String) :
    extract (String.ofList (Text.withReturns content.toList)) =
      (extract content).map fun l =>
        l.withReturns (Text.newlinesBefore l.offset content.toList) := by
  have hwalk := extractFrom_withReturns 0 0 content.toList
  rw [extract_eq_extractFrom, String.toList_ofList]
  refine hwalk.trans ?_
  rw [← extract_eq_extractFrom]
  refine List.map_congr_left fun l hl => ?_
  rw [line_sub_one_of_mem_extract hl]

/-- A link that is written on one line stays as it is written. -/
lemma withReturns_eq_of_newline_notMem {l : Link} (h : '\n' ∉ l.markdown) :
    Text.withReturns l.text = l.text ∧ Text.withReturns l.target = l.target := by
  have hparts : '\n' ∉ l.text ∧ '\n' ∉ l.target := by
    simpa [markdown, Form.written, not_or] using h
  exact ⟨Text.withReturns_of_notMem hparts.1, Text.withReturns_of_notMem hparts.2⟩

end Link

/-- **Line ends make no difference**: if a text without carriage returns gets one in front of
every line feed, the same is found in it of fences and of emoji, and it has the same links on
the same lines: their offsets grow by the line feeds before them, and their words and targets
have the other line ends, if they are written on more than one line at all. -/
theorem scan_withReturns (content : String) (h : '\r' ∉ content.toList) :
    Fence.scan (String.ofList (Text.withReturns content.toList)) = Fence.scan content ∧
    (∀ ranges, Emoji.scan ranges (String.ofList (Text.withReturns content.toList)) =
      Emoji.scan ranges content) ∧
    Link.extract (String.ofList (Text.withReturns content.toList)) =
      (Link.extract content).map (fun l =>
        l.withReturns (Text.newlinesBefore l.offset content.toList)) ∧
    ∀ l ∈ Link.extract content, '\n' ∉ l.markdown →
      Text.withReturns l.text = l.text ∧ Text.withReturns l.target = l.target := by
  have hlines : Text.numberedLines (String.ofList (Text.withReturns content.toList)).toList =
      Text.numberedLines content.toList := by
    rw [String.toList_ofList, Text.numberedLines_withReturns h]
  refine ⟨?_, ?_, ?_, ?_⟩
  · rw [Fence.scan, hlines, Fence.scan]
  · intro ranges
    rw [Emoji.scan, hlines, Emoji.scan]
  · exact Link.extract_withReturns content
  · exact fun l _ => Link.withReturns_eq_of_newline_notMem

/-- A text with a fence, an emoji, and links on one line and on several. -/
def mixedText : String := "~~~ \n🚀 [a](b)\n[c\nd](\n e\n)\n"

theorem scan_withReturns_mixedText :
    '\r' ∉ mixedText.toList ∧
      Fence.scan (String.ofList (Text.withReturns mixedText.toList)) =
        [Fence.missingTag 1 "~~~".toList, Fence.unclosed 1] ∧
      Emoji.scan .relaxed (String.ofList (Text.withReturns mixedText.toList)) =
        [.atLine 2 .emoji "emoji U+1F680" "🚀 [a](b)"] ∧
      Link.extract (String.ofList (Text.withReturns mixedText.toList)) =
        [⟨['a'], ['b'], 2, 11⟩, ⟨"c\r\nd".toList, ['e'], 3, 19⟩] := by
  have h : '\r' ∉ mixedText.toList := by decide
  obtain ⟨hfence, hemoji, hlinks, -⟩ := scan_withReturns mixedText h
  refine ⟨h, ?_, ?_, ?_⟩
  · rw [hfence]
    decide
  · rw [hemoji]
    decide
  · rw [hlinks]
    decide +kernel

end DocLint
