/-
What stands behind the path in a target.

* `isMark`: the two characters that end the path in a target; `fileOf_eq_takeWhile`: it is
  what stands before the first of them.
* `IsExtended`: a target behind which fragments and queries are written, one after the other.
  `IsExtended.exists_eq_append`: in the end that is one mark, and anything behind it.
* `isAnchor_append_mark`, `isExternal_append_mark`, `fileOf_append_mark`: neither what a target
  is about nor its path changes by that, so `resolve_of_isExtended`: it resolves alike.
-/
import DocLint.Proofs.Link.CandidateList
import DocLint.Proofs.Text.Lowercase
import DocLint.Proofs.Text.Trim

namespace DocLint

namespace Link

variable {sourceDir projectRoot : Path} {probe : Probe} {target extended : List Char} {mark : Char}

/-! ### Marks -/

/-- Whether a character ends the path in a target: that of a fragment or of a query. -/
def isMark (c : Char) : Bool :=
  c == '#' || c == '?'

lemma eq_of_isMark (h : isMark mark = true) : mark = '#' ∨ mark = '?' := by
  simpa [isMark] using h

/-- The path in a target is what stands before the first mark. -/
lemma fileOf_eq_takeWhile (target : List Char) :
    fileOf target = target.takeWhile fun c => !isMark c := by
  rw [fileOf, List.takeWhile_takeWhile]
  refine congrArg (fun p => target.takeWhile p) (funext fun c => ?_)
  rw [isMark, Bool.not_or, Bool.and_comm]
  by_cases hfragment : c = '#' <;> by_cases hquery : c = '?' <;> simp [hfragment, hquery]

lemma takeWhile_append_cons_of_neg {p : Char → Bool} {c : Char} (hc : p c = false)
    (s t : List Char) : (s ++ c :: t).takeWhile p = s.takeWhile p := by
  induction s with
  | nil => rw [List.nil_append, List.takeWhile_cons_of_neg (by simp [hc]), List.takeWhile_nil]
  | cons d s ih => rw [List.cons_append, List.takeWhile_cons, List.takeWhile_cons, ih]

/-- What follows a mark is no part of the path. -/
lemma fileOf_append_mark (hmark : isMark mark = true) (target rest : List Char) :
    fileOf (target ++ mark :: rest) = fileOf target := by
  rw [fileOf_eq_takeWhile, fileOf_eq_takeWhile, takeWhile_append_cons_of_neg]
  rw [hmark]
  rfl

lemma isBlank_of_isMark (hmark : isMark mark = true) : Text.isBlank mark = false := by
  rcases eq_of_isMark hmark with rfl | rfl <;> decide

/-- A mark has no case, so both sides of it are put in lower case by themselves. -/
lemma lowercase_append_mark (hmark : isMark mark = true) (target rest : List Char) :
    Text.lowercase (target ++ mark :: rest) =
      Text.lowercase target ++ mark :: Text.lowercase rest := by
  have hchar : mark ≠ Text.capitalSigma ∧ Text.isCaseIgnorable mark = false ∧
      Text.isCased mark = false ∧ Text.lowercaseChar mark = [mark] := by
    rcases eq_of_isMark hmark with rfl | rfl <;> decide +kernel
  obtain ⟨hsigma, hignorable, hcased, hlower⟩ := hchar
  rw [Text.lowercase_append_cons hsigma hignorable hcased, hlower, List.singleton_append]

lemma mark_notMem_scheme (hmark : isMark mark = true) {scheme : List Char}
    (hscheme : scheme ∈ schemes) : mark ∉ scheme := by
  have hnone : ∀ s ∈ schemes, '#' ∉ s ∧ '?' ∉ s := by decide
  rcases eq_of_isMark hmark with rfl | rfl
  · exact (hnone scheme hscheme).1
  · exact (hnone scheme hscheme).2

/-- What does not hold a character and starts a text starts it before that character. -/
lemma prefix_append_cons_iff {c : Char} {p s t : List Char} (hc : c ∉ p) :
    p <+: s ++ c :: t ↔ p <+: s := by
  constructor
  · intro h
    rcases List.prefix_or_prefix_of_prefix h (List.prefix_append s (c :: t)) with hp | hs
    · exact hp
    · obtain ⟨r, rfl⟩ := hs
      rw [List.prefix_append_right_inj] at h
      cases r with
      | nil => simp
      | cons d r =>
          rw [List.cons_prefix_cons] at h
          exact absurd (by simp [h.1]) hc
  · intro h
    exact h.trans (List.prefix_append s (c :: t))

/-! ### A target with a mark and anything behind it -/

section Mark

variable (hne : target ≠ []) (htrim : Text.trim target = target) (hmark : isMark mark = true)
  (rest : List Char)

include hne htrim hmark

lemma trim_append_mark :
    Text.trim (target ++ mark :: rest) = target ++ mark :: Text.trimEnd rest :=
  Text.trim_append_cons hne htrim (isBlank_of_isMark hmark) rest

lemma isAnchor_append_mark : isAnchor (target ++ mark :: rest) = isAnchor target := by
  rw [isAnchor, isAnchor, trim_append_mark hne htrim hmark, htrim,
    List.head?_append_of_ne_nil _ hne]

lemma isExternal_append_mark : isExternal (target ++ mark :: rest) = isExternal target := by
  rw [isExternal, isExternal, trim_append_mark hne htrim hmark, htrim,
    lowercase_append_mark hmark, Bool.eq_iff_iff, List.any_eq_true, List.any_eq_true]
  refine exists_congr fun scheme => and_congr_right fun hscheme => ?_
  rw [List.isPrefixOf_iff_prefix, List.isPrefixOf_iff_prefix,
    prefix_append_cons_iff (mark_notMem_scheme hmark hscheme)]

lemma isRejected_append_mark : isRejected (target ++ mark :: rest) = isRejected target := by
  rw [isRejected, isRejected, isAnchor_append_mark hne htrim hmark,
    isExternal_append_mark hne htrim hmark, trim_append_mark hne htrim hmark, htrim,
    List.isEmpty_eq_false_iff.mpr hne, List.isEmpty_eq_false_iff.mpr (by simp)]

lemma isPath_append_mark : isPath (target ++ mark :: rest) = isPath target := by
  rw [isPath, isPath, isAnchor_append_mark hne htrim hmark,
    isExternal_append_mark hne htrim hmark]

lemma base_append_mark :
    base sourceDir projectRoot (target ++ mark :: rest) = base sourceDir projectRoot target := by
  rw [base, base, trim_append_mark hne htrim hmark, fileOf_append_mark hmark, htrim]

lemma resolve_append_mark :
    resolve sourceDir projectRoot probe (target ++ mark :: rest) =
      resolve sourceDir projectRoot probe target := by
  rw [resolve, resolve, candidates, candidates, isRejected_append_mark hne htrim hmark,
    base_append_mark hne htrim hmark]

end Mark

/-! ### Fragments and queries -/

/-- Whether a target is another one with fragments and queries behind it, as many as one
likes and in any order. -/
inductive IsExtended (target : List Char) : List Char → Prop
  | self : IsExtended target target
  | fragment {extended : List Char} (h : IsExtended target extended) (f : List Char) :
      IsExtended target (extended ++ '#' :: f)
  | query {extended : List Char} (h : IsExtended target extended) (q : List Char) :
      IsExtended target (extended ++ '?' :: q)

/-- All that is written behind a target makes up one mark and what follows it. -/
lemma IsExtended.exists_eq_append (h : IsExtended target extended) :
    extended = target ∨ ∃ mark rest, isMark mark = true ∧ extended = target ++ mark :: rest := by
  have hstep : ∀ {s : List Char} {c : Char}, isMark c = true → (t : List Char) →
      (s = target ∨ ∃ mark rest, isMark mark = true ∧ s = target ++ mark :: rest) →
      ∃ mark rest, isMark mark = true ∧ s ++ c :: t = target ++ mark :: rest := by
    rintro s c hc t (rfl | ⟨mark, rest, hmark, rfl⟩)
    · exact ⟨c, t, hc, rfl⟩
    · exact ⟨mark, rest ++ c :: t, hmark, by simp⟩
  induction h with
  | self => exact Or.inl rfl
  | fragment _ f ih => exact Or.inr (hstep rfl f ih)
  | query _ q ih => exact Or.inr (hstep rfl q ih)

/-- **Fragments and queries lead nowhere else**: a target without blanks around it is
taken for the same thing, and resolves alike, whatever is written behind it. An empty target
is left out: it is rejected, but a query alone spells the directory of the page. -/
theorem resolve_of_isExtended (sourceDir projectRoot : Path) (probe : Probe) (hne : target ≠ [])
    (htrim : Text.trim target = target) (h : IsExtended target extended) :
    resolve sourceDir projectRoot probe extended = resolve sourceDir projectRoot probe target ∧
      isRejected extended = isRejected target ∧ isPath extended = isPath target := by
  rcases h.exists_eq_append with rfl | ⟨mark, rest, hmark, rfl⟩
  · exact ⟨rfl, rfl, rfl⟩
  · refine ⟨?_, ?_, ?_⟩
    · exact resolve_append_mark hne htrim hmark rest
    · exact isRejected_append_mark hne htrim hmark rest
    · exact isPath_append_mark hne htrim hmark rest

/-- A target with a query of its own, with a scheme in a fragment and then in a query. -/
theorem resolve_of_isExtended_page :
    "../b?v=1".toList ≠ [] ∧ Text.trim "../b?v=1".toList = "../b?v=1".toList ∧
      IsExtended "../b?v=1".toList "../b?v=1# HTTP://?/ ?tel:#\n".toList ∧
      resolve (.ofString "/d/e") (.ofString "/")
          ⟨fun p => decide (p = .ofString "/d/b.yaml"), fun _ => false⟩
          "../b?v=1# HTTP://?/ ?tel:#\n".toList =
        ⟨["/d/b.md", "/d/b.yaml", "/d/b.json", "/d/b"].map Path.ofString,
          some (.ofString "/d/b.yaml")⟩ := by
  have hne : "../b?v=1".toList ≠ [] := by decide
  have htrim : Text.trim "../b?v=1".toList = "../b?v=1".toList := by decide
  have hextended : IsExtended "../b?v=1".toList "../b?v=1# HTTP://?/ ?tel:#\n".toList :=
    .query (.fragment .self " HTTP://?/ ".toList) "tel:#\n".toList
  refine ⟨hne, htrim, hextended, ?_⟩
  rw [(resolve_of_isExtended _ _ _ hne htrim hextended).1]
  decide +kernel

end Link

end DocLint
