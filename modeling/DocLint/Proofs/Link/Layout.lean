/-
Texts that are put together from links and what stands between them.

* `Form.IsTrimmed`: a form whose parts are those of the link that is read from it; `layout`: a
  text made of forms, and of stretches before, between and behind them.
* `linksBehind_append`, `linksBehind_written`: what a stretch and what a form adds to the links
  behind a text; `linksBehind_layout`: so the forms of such a text are its links, each at its
  place.
* `isTrimmed_of_mem_extract`, `extract_markdown_iff`: the markup of a link is read as that link,
  unless its target is blank; then it is no link any more.
* `scan_markdown`: so it has the same defect.
* `extract_layout`: all of this, for every text.
-/
import Mathlib.Data.List.Basic
import Mathlib.Tactic.Common
import DocLint.Proofs.Link.Broken
import DocLint.Proofs.Text.Lines

namespace DocLint.Link

/-- Whether the parts of a form are those of the link that is read from it: they are
proper, and there are no blanks around the target. -/
structure Form.IsTrimmed (f : Form) : Prop extends f.IsProper where
  trim_target : Text.trim f.target = f.target

/-- The link that a form is behind a text. -/
def Form.linkBehind (f : Form) (before : List Char) : Link where
  text := f.text
  target := f.target
  line := 1 + Text.lineCount before
  offset := Text.byteCount before

/-- A text that starts with a stretch, and goes on with forms, each with a stretch behind it. -/
def layout (front : List Char) (ps : List (Form × List Char)) : List Char :=
  front ++ ps.flatMap fun p => p.1.written ++ p.2

variable {front : List Char} {ps : List (Form × List Char)} {f : Form} {l : Link}
  {content : String}

lemma layout_nil (front : List Char) : layout front [] = front :=
  List.append_nil front

lemma layout_cons (front : List Char) (f : Form) (s : List Char) (ps : List (Form × List Char)) :
    layout front ((f, s) :: ps) = front ++ (f.written ++ layout s ps) := by
  rw [layout, layout, List.flatMap_cons, List.append_assoc]

/-! ### Walking through a text -/

/-- The links of what follows a text. -/
def linksBehind (before rest : List Char) : List Link :=
  extractFrom (Text.byteCount before) (1 + Text.lineCount before) rest

lemma extract_eq_linksBehind (content : String) :
    extract content = linksBehind [] content.toList :=
  extract_eq_extractFrom content

lemma linksBehind_nil (before : List Char) : linksBehind before [] = [] := by
  rw [linksBehind, extractFrom]

/-- A stretch in which no form starts adds no links. -/
lemma linksBehind_append (before : List Char) {rest : List Char}
    (h : ∀ u v, front = u ++ v → v ≠ [] → form? (v ++ rest) = none) :
    linksBehind before (front ++ rest) = linksBehind (before ++ front) rest := by
  rw [linksBehind, linksBehind, extractFrom_append _ _ h, Text.byteCount_append,
    Text.lineCount_append, ← Nat.add_assoc]

/-- Where no bracket opens, no form starts. -/
lemma linksBehind_append_of_notMem (before : List Char) (h : '[' ∉ front) (rest : List Char) :
    linksBehind before (front ++ rest) = linksBehind (before ++ front) rest := by
  refine linksBehind_append before fun u v huv hv => ?_
  obtain ⟨c, v, rfl⟩ := List.exists_cons_of_ne_nil hv
  have hc : c ≠ '[' := by
    rintro rfl
    exact h (by simp [huv])
  rw [List.cons_append, form?]
  rintro cs hcs
  exact hc (List.cons.inj hcs).1

lemma linksBehind_of_notMem (before : List Char) (h : '[' ∉ front) :
    linksBehind before front = [] := by
  rw [← List.append_nil front, linksBehind_append_of_notMem before h, linksBehind_nil]

/-- A form is a link, whatever stands around it. -/
lemma linksBehind_written (before : List Char) (hf : f.IsTrimmed) (rest : List Char) :
    linksBehind before (f.written ++ rest) =
      f.linkBehind before :: linksBehind (before ++ f.written) rest := by
  have hread := form?_written_append hf.toIsProper rest
  rw [linksBehind, extractFrom_of_form? _ _ hread, ofForm, hf.trim_target, linksBehind,
    Text.byteCount_append, Text.lineCount_append, ← Nat.add_assoc]
  rfl

/-- **The links of such a text** are its forms, each at its place. -/
lemma linksBehind_layout (before : List Char) (hfront : '[' ∉ front)
    (hps : ∀ p ∈ ps, p.1.IsTrimmed ∧ '[' ∉ p.2) :
    linksBehind before (layout front ps) =
      ps.mapIdx fun i p => p.1.linkBehind (before ++ layout front (ps.take i)) := by
  induction ps generalizing before front with
  | nil =>
      rw [layout_nil, linksBehind_of_notMem before hfront, List.mapIdx_nil]
  | cons p ps ih =>
      obtain ⟨f, s⟩ := p
      obtain ⟨⟨hf, hs⟩, hps⟩ := List.forall_mem_cons.mp hps
      rw [layout_cons, linksBehind_append_of_notMem before hfront, linksBehind_written _ hf,
        ih _ hs hps, List.mapIdx_cons, List.take_zero, layout_nil]
      simp only [List.take_succ_cons, layout_cons, List.append_assoc]

/-! ### The markup of a link -/

lemma exists_form_of_mem_extract (h : l ∈ extract content) :
    ∃ f : Form, f.IsProper ∧ l.text = f.text ∧ l.target = Text.trim f.target := by
  obtain ⟨os, hos, hlinks⟩ := exists_isGreedy_extract content
  rw [hlinks] at h
  obtain ⟨o, ho, rfl⟩ := List.mem_map.mp h
  exact ⟨o.form, (hos.isIn ho).1, rfl, rfl⟩

/-- A link is written as a form again, if there is something left of its target. -/
lemma isTrimmed_of_mem_extract (h : l ∈ extract content) (hne : l.target ≠ []) :
    (Form.mk l.text l.target).IsTrimmed := by
  obtain ⟨f, hf, htext, htarget⟩ := exists_form_of_mem_extract h
  refine ⟨⟨?_, ?_, hne, ?_⟩, trim_target_of_mem_extract h⟩
  · rw [htext]
    exact hf.text_ne_nil
  · rw [htext]
    exact hf.notMem_text
  · rw [htarget]
    exact fun hmem => hf.notMem_target (Text.mem_of_mem_trim hmem)

/-- The link at the front of a text. -/
def atFront (l : Link) : Link :=
  { l with line := 1, offset := 0 }

/-- Without a target the markup of a link has no form in it. -/
lemma extract_of_target_eq_nil (h : l ∈ extract content) (hnil : l.target = []) :
    extract (String.ofList l.markdown) = [] := by
  obtain ⟨f, hf, htext, -⟩ := exists_form_of_mem_extract h
  have hclosing : ']' ∉ l.text := htext ▸ hf.notMem_text
  have hhead : (l.text ++ ']' :: "()".toList).head? ≠ some ']' := by
    rw [List.head?_append_of_ne_nil _ (htext ▸ hf.text_ne_nil)]
    exact fun hhead => hclosing (List.mem_of_mem_head? hhead)
  have hmarkup : l.markdown = ('[' :: l.text) ++ ']' :: "()".toList := by
    rw [markdown, Form.written, hnil]
    rfl
  -- Behind the words comes a target, and there is none.
  have hnone : form? ('[' :: (l.text ++ ']' :: "()".toList)) = none :=
    form?_append hclosing (by decide)
  have hstart : ∀ u v, '[' :: l.text = u ++ v → v ≠ [] →
      form? (v ++ ']' :: "()".toList) = none := by
    intro u v huv _
    have htake : '[' :: (l.text ++ ']' :: "()".toList).takeWhile (· ≠ ']') = u ++ v := by
      rw [takeWhile_ne_append_cons hclosing, huv]
    exact form?_append_of_takeWhile hhead (dropWhile_ne_append_cons hclosing _) hnone htake
  rw [extract_eq_linksBehind, String.toList_ofList, hmarkup, linksBehind_append [] hstart,
    linksBehind_of_notMem _ (by decide)]

lemma extract_markdown (h : l ∈ extract content) (hne : l.target ≠ []) :
    extract (String.ofList l.markdown) = [l.atFront] := by
  have hlinks := linksBehind_written [] (isTrimmed_of_mem_extract h hne) []
  rw [List.append_nil, linksBehind_nil] at hlinks
  rw [extract_eq_linksBehind, String.toList_ofList, markdown, hlinks]
  rfl

/-- The markup of a link is read as that link, just if there is something left of its target. -/
lemma extract_markdown_iff (h : l ∈ extract content) :
    extract (String.ofList l.markdown) = [l.atFront] ↔ l.target ≠ [] := by
  refine ⟨fun hread hnil => ?_, extract_markdown h⟩
  rw [extract_of_target_eq_nil h hnil] at hread
  cases hread

variable {sourceDir projectRoot : Path} {probe : Probe} {v : Violation}

/-- At the front of a text a link has the same defect, but for the line. -/
lemma violation?_atFront (h : violation? sourceDir projectRoot probe l = some v) :
    v.context = String.ofList l.markdown ∧
      violation? sourceDir projectRoot probe l.atFront = some { v with line := 1 } := by
  rw [violation?] at h
  split_ifs at h with hpath
  dsimp only at h
  split_ifs at h with hbroken
  cases h
  refine ⟨rfl, ?_⟩
  rw [violation?, atFront]
  dsimp only
  rw [if_pos hpath, if_pos hbroken]
  rfl

/-- **The markup of a broken link** has the defect of the link. -/
lemma scan_markdown (h : l ∈ extract content) (hne : l.target ≠ [])
    (hv : violation? sourceDir projectRoot probe l = some v) :
    scan sourceDir projectRoot probe v.context = [{ v with line := 1 }] := by
  obtain ⟨hcontext, hfront⟩ := violation?_atFront hv
  have hextract : extract v.context = [l.atFront] := by rw [hcontext, extract_markdown h hne]
  rw [scan, hextract, List.filterMap_cons_some hfront, List.filterMap_nil]

/-- **Links are read as they are written**: a text made of forms whose targets have no blanks
around them, and of stretches in which no bracket opens, has these forms as its links, in order,
each on the line and with the bytes before it where it is written. The markup of any link is
such a text, just if there is something left of its target; then a broken link has the same
defect in its markup alone, on the first line. -/
theorem extract_layout :
    (∀ (front : List Char) (ps : List (Form × List Char)), '[' ∉ front →
      (∀ p ∈ ps, p.1.IsTrimmed ∧ '[' ∉ p.2) →
      extract (String.ofList (layout front ps)) =
        ps.mapIdx fun i p => p.1.linkBehind (layout front (ps.take i))) ∧
    ∀ (content : String), ∀ l ∈ extract content,
      (extract (String.ofList l.markdown) = [l.atFront] ↔ l.target ≠ []) ∧
      ∀ (sourceDir projectRoot : Path) (probe : Probe) (v : Violation), l.target ≠ [] →
        violation? sourceDir projectRoot probe l = some v →
        scan sourceDir projectRoot probe v.context = [{ v with line := 1 }] := by
  refine ⟨?_, ?_⟩
  · intro front ps hfront hps
    rw [extract_eq_linksBehind, String.toList_ofList, linksBehind_layout [] hfront hps]
    rfl
  · intro content l hl
    refine ⟨extract_markdown_iff hl, ?_⟩
    exact fun sourceDir projectRoot probe v => scan_markdown hl

/-- Forms with brackets of each sort in them and between them. -/
def bracketed : List (Form × List Char) := [
  (⟨"a[(b\n".toList, "c][".toList⟩, []),
  (⟨['d'], "e(\nf".toList⟩, ")](x\n".toList),
  (⟨['g'], ['h']⟩, [])]

/-- All of them are links, and the last one is broken where only the target of the first one is
there. -/
theorem extract_layout_bracketed :
    '[' ∉ "](a) (\n".toList ∧ (∀ p ∈ bracketed, p.1.IsTrimmed ∧ '[' ∉ p.2) ∧
      extract (String.ofList (layout "](a) (\n".toList bracketed)) =
        [⟨"a[(b\n".toList, "c][".toList, 2, 7⟩, ⟨['d'], "e(\nf".toList, 3, 19⟩,
          ⟨['g'], ['h'], 5, 33⟩] ∧
      violation? (.ofString "/d") (.ofString "/") (oneDirectory (.ofString "/d/c]["))
          ⟨['g'], ['h'], 5, 33⟩ =
        some (.atLine 5 .brokenLink "broken link -> /d/h.md" "[g](h)") ∧
      scan (.ofString "/d") (.ofString "/") (oneDirectory (.ofString "/d/c][")) "[g](h)" =
        [.atLine 1 .brokenLink "broken link -> /d/h.md" "[g](h)"] := by
  have hfront : '[' ∉ "](a) (\n".toList := by decide
  have hparts : ∀ p ∈ bracketed, (p.1.text ≠ [] ∧ ']' ∉ p.1.text ∧ p.1.target ≠ [] ∧
      ')' ∉ p.1.target) ∧ Text.trim p.1.target = p.1.target ∧ '[' ∉ p.2 := by decide
  have hps : ∀ p ∈ bracketed, p.1.IsTrimmed ∧ '[' ∉ p.2 := by
    intro p hp
    obtain ⟨⟨htext, hclosing, htarget, hround⟩, htrim, hopening⟩ := hparts p hp
    exact ⟨⟨⟨htext, hclosing, htarget, hround⟩, htrim⟩, hopening⟩
  have hlinks : extract (String.ofList (layout "](a) (\n".toList bracketed)) =
      [⟨"a[(b\n".toList, "c][".toList, 2, 7⟩, ⟨['d'], "e(\nf".toList, 3, 19⟩,
        ⟨['g'], ['h'], 5, 33⟩] := by
    rw [extract_layout.1 _ _ hfront hps]
    decide
  have hlast : (⟨['g'], ['h'], 5, 33⟩ : Link) ∈
      extract (String.ofList (layout "](a) (\n".toList bracketed)) := by
    rw [hlinks]
    decide
  have hbroken : violation? (.ofString "/d") (.ofString "/") (oneDirectory (.ofString "/d/c]["))
      ⟨['g'], ['h'], 5, 33⟩ =
        some (.atLine 5 .brokenLink "broken link -> /d/h.md" "[g](h)") := by
    decide +kernel
  exact ⟨hfront, hps, hlinks, hbroken,
    (extract_layout.2 _ _ hlast).2 _ _ _ _ (List.cons_ne_nil _ _) hbroken⟩

end DocLint.Link
