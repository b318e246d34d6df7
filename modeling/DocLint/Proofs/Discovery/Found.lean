/-
What is found in a walk, and in which order.

* `find_eq_ok_iff`: a discovery is made of the verdicts on the visits of a walk,
  `Discovery.verdicts`, and nothing but an ill-formed pattern keeps it from being
  made.
* `exists_visits_eq`: the start of a walk is neither a file nor an error, so what
  counts is below it; `mem_verdicts_iff` tells this by what a walk comes by.
* `pairwise_verdicts`: files and errors come in the order of paths, hence
  `pairwise_files`, `pairwise_errors`, and no file is an error as well
  (`key_ne_of_mem`).
-/
import Mathlib.Data.List.Nodup
import DocLint.Discovery.Basic
import DocLint.Proofs.FileSystem.Opening

namespace DocLint

/-- Whether a walk goes beyond its start. -/
def FileSystem.starts (fs : FileSystem) (rules : WalkRules) (start : Path) : Bool :=
  (!rules.followLinks && fs.isLink start) || start.fileName?.all (rules.enters 0)

namespace Discovery

/-- The path that a verdict is about. -/
def Verdict.relative? : Verdict → Option Path
  | error relative _ => some relative
  | file f => some f.relative
  | nothing => none

/-- Whether one verdict is about a path before that of another; a verdict about
nothing is before and behind all others. -/
def Verdict.Before (a b : Verdict) : Prop :=
  ∀ p, a.relative? = some p → ∀ q, b.relative? = some q → p.key < q.key

/-- Whether two verdicts about one path are one verdict. -/
def Verdict.Apart (a b : Verdict) : Prop :=
  ∀ p, a.relative? = some p → ∀ q, b.relative? = some q → p.key = q.key → a = b

/-- The verdicts on the visits of a walk through a root. -/
def verdicts (fs : FileSystem) (root : DocRoot) (c : Config) (selection : Selection)
    (skipArchive : Bool) (ps : List (List Glob.Item)) : List Verdict :=
  (fs.visits (rules c skipArchive) root.path root.canonical).map (judge fs root selection ps)

variable {fs : FileSystem} {root : DocRoot} {c : Config} {selection : Selection}
  {skipArchive : Bool} {ps : List (List Glob.Item)} {d : Discovery}

lemma find_eq_ok_iff : find fs root c selection skipArchive = .ok d ↔
    ∃ ps, patterns c.exclude = .ok ps ∧
      d = ofVerdicts (verdicts fs root c selection skipArchive ps) := by
  rw [find]
  cases patterns c.exclude with
  | error e => simp
  | ok ps => simp [verdicts, eq_comm]

/-- With well-formed patterns there is a discovery. -/
lemma exists_find_eq_ok (fs : FileSystem) (root : DocRoot) (selection : Selection)
    (skipArchive : Bool) (h : patterns c.exclude = .ok ps) :
    ∃ d, find fs root c selection skipArchive = .ok d :=
  ⟨_, find_eq_ok_iff.mpr ⟨ps, h, rfl⟩⟩

/-! ### Files and errors -/

lemma mem_files_ofVerdicts {vs : List Verdict} {f : SourceFile} :
    f ∈ (ofVerdicts vs).files ↔ .file f ∈ vs := by
  rw [ofVerdicts, List.mem_filterMap]
  refine ⟨fun ⟨v, hv, h⟩ => ?_, fun h => ⟨_, h, rfl⟩⟩
  cases v <;> cases h
  exact hv

lemma mem_errors_ofVerdicts {vs : List Verdict} {p : Path} {v : Violation} :
    (p, v) ∈ (ofVerdicts vs).errors ↔ .error p v ∈ vs := by
  rw [ofVerdicts, List.mem_filterMap]
  refine ⟨fun ⟨a, ha, h⟩ => ?_, fun h => ⟨_, h, rfl⟩⟩
  cases a <;> cases h
  exact ha

/-! ### The order of verdicts -/

/-- A verdict other than nothing is about the names that lead to its visit, and
that visit is no directory. -/
lemma relative?_judge {v : Visit} {p : Path}
    (h : (judge fs root selection ps v).relative? = some p) :
    p = .ofRelativeNames v.trail ∧ v.isDirectory = false := by
  cases v with
  | failure trail cause =>
      cases h
      exact ⟨rfl, rfl⟩
  | entry trail kind =>
      cases kind with
      | file =>
          refine ⟨?_, rfl⟩
          rw [judge] at h
          split at h
          · cases h
          · dsimp only at h
            split_ifs at h
            · rw [judgeFile] at h
              split at h
              · exact (Option.some.inj h).symm
              · split_ifs at h <;> exact (Option.some.inj h).symm
            · cases h
      | _ => cases h

/-- The start of a walk is no file, and there is something below it unless the
start is refused. -/
lemma exists_visits_eq (fs : FileSystem) (rules : WalkRules) (start : Path) (place : Location) :
    ∃ kind, kind ≠ .file ∧ fs.visits rules start place =
      if fs.starts rules start then
        .entry [] kind :: fs.visitsBelow rules start rules.maxDepth ⟨place, []⟩ []
      else [] := by
  rw [FileSystem.visits, FileSystem.starts]
  by_cases hlink : (!rules.followLinks && fs.isLink start) = true
  · exact ⟨.other, by decide, by rw [if_pos hlink, hlink, Bool.true_or, if_pos rfl]⟩
  · refine ⟨.directory place, EntryKind.noConfusion, ?_⟩
    rw [if_neg hlink, Bool.eq_false_iff.mpr hlink, Bool.false_or]

lemma judge_entry_of_ne_file {trail : List FileName} {kind : EntryKind} (h : kind ≠ .file) :
    judge fs root selection ps (.entry trail kind) = .nothing := by
  cases kind with
  | file => exact absurd rfl h
  | _ => rfl

/-- Other than that there is nothing to say, a walk leads to the verdicts on what
it comes by below its start. -/
lemma mem_verdicts_iff {v : Verdict} (hv : v ≠ .nothing) :
    v ∈ verdicts fs root c selection skipArchive ps ↔
      fs.starts (rules c skipArchive) root.path = true ∧
        ∃ visit, FileSystem.ComesBy fs (rules c skipArchive) root.path root.canonical visit ∧
          judge fs root selection ps visit = v := by
  obtain ⟨kind, hk, h⟩ := exists_visits_eq fs (rules c skipArchive) root.path root.canonical
  rw [verdicts, h]
  split_ifs with hstarts
  · rw [List.map_cons, judge_entry_of_ne_file hk, List.mem_cons, List.mem_map]
    simp only [FileSystem.mem_visitsBelow_iff, hv, false_or, hstarts, true_and]
  · simp [hstarts]

/-- The verdicts of a walk are in the order of paths. -/
lemma pairwise_verdicts (fs : FileSystem) (root : DocRoot) (c : Config) (selection : Selection)
    (skipArchive : Bool) (ps : List (List Glob.Item)) :
    (verdicts fs root c selection skipArchive ps).Pairwise Verdict.Before := by
  have hbelow : ((fs.visitsBelow (rules c skipArchive) root.path c.maxDepth ⟨root.canonical, []⟩
      []).map (judge fs root selection ps)).Pairwise Verdict.Before := by
    rw [List.pairwise_map]
    have hsorted := List.pairwise_filter.mp (@FileSystem.pairwise_visitsBelow fs
      (rules c skipArchive) root.path c.maxDepth ⟨root.canonical, []⟩ [])
    refine hsorted.imp fun hab p hp q hq => ?_
    obtain ⟨rfl, ha⟩ := relative?_judge hp
    obtain ⟨rfl, hb⟩ := relative?_judge hq
    exact hab (by rw [ha]; rfl) (by rw [hb]; rfl)
  obtain ⟨kind, hk, h⟩ := exists_visits_eq fs (rules c skipArchive) root.path root.canonical
  rw [verdicts, h]
  split_ifs
  · rw [List.map_cons, judge_entry_of_ne_file hk]
    exact List.pairwise_cons.mpr ⟨fun a _ p hp => (nomatch hp), hbelow⟩
  · exact .nil

lemma pairwise_files (h : find fs root c selection skipArchive = .ok d) :
    d.files.Pairwise fun f g => f.relative.key < g.relative.key := by
  obtain ⟨ps, -, rfl⟩ := find_eq_ok_iff.mp h
  rw [ofVerdicts, List.pairwise_filterMap]
  refine (pairwise_verdicts fs root c selection skipArchive ps).imp fun {a b} hab f hf g hg => ?_
  cases a <;> cases hf
  cases b <;> cases hg
  exact hab _ rfl _ rfl

lemma pairwise_errors (h : find fs root c selection skipArchive = .ok d) :
    d.errors.Pairwise fun e e' => e.1.key < e'.1.key := by
  obtain ⟨ps, -, rfl⟩ := find_eq_ok_iff.mp h
  rw [ofVerdicts, List.pairwise_filterMap]
  refine (pairwise_verdicts fs root c selection skipArchive ps).imp fun {a b} hab e he e' he' => ?_
  cases a <;> cases he
  cases b <;> cases he'
  exact hab _ rfl _ rfl

lemma not_same_of_key_lt {p q : Path} (h : p.key < q.key) : ¬ p.Same q := by
  intro hsame
  rw [Path.key_eq_key_iff.mpr hsame] at h
  exact List.lt_irrefl _ h

/-- No file is found twice. -/
lemma pairwise_not_same_files (h : find fs root c selection skipArchive = .ok d) :
    (d.files.map (·.relative)).Pairwise fun p q => ¬ p.Same q :=
  List.pairwise_map.mpr ((pairwise_files h).imp not_same_of_key_lt)

/-- No path is an error twice. -/
lemma pairwise_not_same_errors (h : find fs root c selection skipArchive = .ok d) :
    (d.errors.map (·.1)).Pairwise fun p q => ¬ p.Same q :=
  List.pairwise_map.mpr ((pairwise_errors h).imp not_same_of_key_lt)

/-- A path that is an error is one error. -/
lemma count_errors (h : find fs root c selection skipArchive = .ok d) {e : Path × Violation}
    (he : e ∈ d.errors) : (d.errors.map (·.1)).count e.1 = 1 := by
  have hnodup : (d.errors.map (·.1)).Nodup :=
    (pairwise_not_same_errors h).imp fun hpq heq => hpq (congrArg Path.components heq)
  exact List.count_eq_one_of_mem hnodup (List.mem_map_of_mem he)

/-- Verdicts about one path are one verdict. -/
lemma eq_of_key_eq {a b : Verdict} {p q : Path}
    (ha : a ∈ verdicts fs root c selection skipArchive ps)
    (hb : b ∈ verdicts fs root c selection skipArchive ps)
    (hp : a.relative? = some p) (hq : b.relative? = some q) (h : p.key = q.key) : a = b := by
  have hsorted := pairwise_verdicts fs root c selection skipArchive ps
  have hone : ∀ x ∈ verdicts fs root c selection skipArchive ps,
      ∀ y ∈ verdicts fs root c selection skipArchive ps, x.Apart y := by
    refine fun x hx y hy => List.Pairwise.forall_of_forall_of_flip (fun _ _ _ _ _ _ _ => rfl)
      (hsorted.imp ?_) (hsorted.imp ?_) hx hy
    · exact fun hxy p hp q hq hpq => absurd (hxy p hp q hq) (hpq ▸ List.lt_irrefl _)
    · exact fun hxy p hp q hq hpq => absurd (hxy q hq p hp) (hpq ▸ List.lt_irrefl _)
  exact hone a ha b hb p hp q hq h

/-- No file is an error as well. -/
lemma key_ne_of_mem (h : find fs root c selection skipArchive = .ok d) {e : Path × Violation}
    {f : SourceFile} (he : e ∈ d.errors) (hf : f ∈ d.files) : e.1.key ≠ f.relative.key := by
  obtain ⟨ps, -, rfl⟩ := find_eq_ok_iff.mp h
  intro hk
  cases eq_of_key_eq (mem_errors_ofVerdicts.mp he) (mem_files_ofVerdicts.mp hf) rfl rfl hk

end Discovery

end DocLint
