/-
A report says of every path what belongs to it, and nothing else.

* `Check.ownViolations`: what a check makes of one file by itself.
* `Report.IsPointwise`: every entry of a report is an error of the discovery or
  what one of its files is found to have by itself, and the numbers of the report
  count these.
* `isPointwise_reportOn`: a report on a discovery is such a one, and
  `IsPointwise.unique` the only one.
* `run_eq_ok_iff_isPointwise`: a run succeeds with the one report that is made
  pointwise from what is found below the root.
-/
import DocLint.Proofs.Report.Kinds
import DocLint.Proofs.Report.Listed

namespace DocLint

variable {c : Check} {fs : FileSystem} {root : DocRoot} {config : Config} {f : SourceFile}
  {d : Discovery} {r : Report}

/-! ### What belongs to a path -/

/-- The violations of a file by itself: what is wrong with its name, or with its
text, or that there is no text to look at. -/
def Check.ownViolations (c : Check) (fs : FileSystem) (root : DocRoot) (config : Config)
    (f : SourceFile) : List Violation :=
  if c = .filenames then (Naming.check f.relative).map (.wholeFile .namingPolicy)
  else
    match readBounded fs config.maxFileSize f.path with
    | .error v => [v]
    | .ok content => c.scan fs root config f content

/-- Whether a report is made from a discovery path by path, where `own` are the
violations of a file by itself. -/
structure Report.IsPointwise (r : Report) (d : Discovery) (own : SourceFile → List Violation) :
    Prop where
  mem_entries : ∀ x, x ∈ r.findings.entries ↔
    (∃ e ∈ d.errors, x = (e.1, [e.2])) ∨ ∃ f ∈ d.files, own f ≠ [] ∧ x = (f.relative, own f)
  /-- Looking a path up finds just what belongs to it. -/
  get?_eq_some_iff : ∀ p vs, r.findings.get? p = some vs ↔
    (∃ e ∈ d.errors, e.1.Same p ∧ vs = [e.2]) ∨
      ∃ f ∈ d.files, f.relative.Same p ∧ own f ≠ [] ∧ vs = own f
  entry_ne_nil : ∀ x ∈ r.findings.entries, x.2 ≠ []
  /-- Who could not be looked at has no other violation. -/
  length_eq_one : ∀ x ∈ r.findings.entries, x.2.any (·.isUnreadable) = true → x.2.length = 1
  scanned_add_failed : r.scanned + r.failed = d.files.length + d.errors.length
  failed_eq_countP_all : r.failed = r.findings.all.countP (·.isUnreadable)
  failed_eq_countP_entries : r.failed = r.findings.entries.countP (·.2.any (·.isUnreadable))
  ok_iff : r.ok = true ↔ r.findings.entries = []

/-- What a report lists: the errors, then the files with violations. -/
def Report.listed (d : Discovery) (own : SourceFile → List Violation) :
    List (Path × List Violation) :=
  d.errors.map (fun e => (e.1, [e.2])) ++
    (d.files.map fun f => (f.relative, own f)).filter fun x => !x.2.isEmpty

namespace Check

lemma inspect_of_ne (h : c ≠ .filenames) : c.inspect fs root config f =
    match readBounded fs config.maxFileSize f.path with
    | .error v => .error v
    | .ok content => .ok (c.scan fs root config f content) := by
  cases c with
  | filenames => exact absurd rfl h
  | _ => rfl

lemma violationsOf_inspect (c : Check) (fs : FileSystem) (root : DocRoot) (config : Config)
    (f : SourceFile) :
    violationsOf (c.inspect fs root config f) = c.ownViolations fs root config f := by
  rw [ownViolations]
  by_cases hc : c = .filenames
  · rw [if_pos hc, hc]
    rfl
  · rw [if_neg hc, inspect_of_ne hc]
    cases readBounded fs config.maxFileSize f.path <;> rfl

/-- A file could not be looked at just if one of its own violations says so. -/
lemma any_isUnreadable_ownViolations (c : Check) (fs : FileSystem) (root : DocRoot)
    (config : Config) (f : SourceFile) :
    (c.ownViolations fs root config f).any (·.isUnreadable) =
      !(c.inspect fs root config f).isOk := by
  rw [ownViolations]
  by_cases hc : c = .filenames
  · have hnaming : ∀ m, (Violation.wholeFile .namingPolicy m).isUnreadable = false := fun _ => rfl
    subst hc
    simp [inspect, Except.isOk, Except.toBool, hnaming]
  · rw [if_neg hc, inspect_of_ne hc]
    cases h : readBounded fs config.maxFileSize f.path with
    | error v => simp [Except.isOk, Except.toBool, isUnreadable_of_readBounded_eq_error h]
    | ok content =>
        have hscan : ∀ v ∈ c.scan fs root config f content, v.isUnreadable = false :=
          fun v => isUnreadable_of_mem_scan
        simpa [Except.isOk, Except.toBool] using hscan

/-- A file that could not be looked at has that one violation. -/
lemma length_ownViolations (h : (c.ownViolations fs root config f).any (·.isUnreadable) = true) :
    (c.ownViolations fs root config f).length = 1 := by
  rw [any_isUnreadable_ownViolations] at h
  rw [← violationsOf_inspect]
  cases hi : c.inspect fs root config f with
  | error v => rfl
  | ok vs =>
      rw [hi] at h
      cases h

end Check

/-! ### The listing -/

namespace Report

variable {own : SourceFile → List Violation}

lemma mem_listed {x : Path × List Violation} : x ∈ listed d own ↔
    (∃ e ∈ d.errors, x = (e.1, [e.2])) ∨ ∃ f ∈ d.files, own f ≠ [] ∧ x = (f.relative, own f) := by
  rw [listed, List.mem_append, List.mem_map, List.mem_filter, List.mem_map]
  refine or_congr ⟨?_, ?_⟩ ⟨?_, ?_⟩
  · rintro ⟨e, he, rfl⟩
    exact ⟨e, he, rfl⟩
  · rintro ⟨e, he, rfl⟩
    exact ⟨e, he, rfl⟩
  · rintro ⟨⟨f, hf, rfl⟩, hne⟩
    exact ⟨f, hf, by simpa using hne, rfl⟩
  · rintro ⟨f, hf, hne, rfl⟩
    exact ⟨⟨f, hf, rfl⟩, by simpa using hne⟩

/-- No path is listed twice. -/
lemma pairwise_listed {selection : Selection} {skipArchive : Bool}
    (h : Discovery.find fs root config selection skipArchive = .ok d) :
    (listed d own).Pairwise fun a b => a.1.key ≠ b.1.key := by
  have hne : ∀ {k l : List (List Nat)}, k < l → k ≠ l := fun hlt heq =>
    List.lt_irrefl _ (heq ▸ hlt)
  refine List.pairwise_append.mpr ⟨?_, ?_, ?_⟩
  · exact List.pairwise_map.mpr ((Discovery.pairwise_errors h).imp hne)
  · refine List.Pairwise.filter _ (List.pairwise_map.mpr ?_)
    exact (Discovery.pairwise_files h).imp hne
  · intro a ha b hb
    obtain ⟨e, he, rfl⟩ := List.mem_map.mp ha
    obtain ⟨f, hf, rfl⟩ := List.mem_map.mp (List.mem_filter.mp hb).1
    exact Discovery.key_ne_of_mem h he hf

lemma findings_reportOn (c : Check) (fs : FileSystem) (root : DocRoot) (config : Config)
    (d : Discovery) : (c.reportOn fs root config d).findings =
      .ofList (listed d (c.ownViolations fs root config)) := by
  simp [Check.reportOn, listed, Function.comp_def, Check.violationsOf_inspect]

/-- Where a file that could not be looked at has one violation, as many
violations as files are unreadable. -/
lemma countP_flatMap {es : List (Path × List Violation)}
    (h : ∀ x ∈ es, x.2.any (·.isUnreadable) = true → x.2.length = 1) :
    (es.flatMap (·.2)).countP (·.isUnreadable) = es.countP (·.2.any (·.isUnreadable)) := by
  induction es with
  | nil => rfl
  | cons e es ih =>
      rw [List.flatMap_cons, List.countP_append, List.countP_cons,
        ih fun x hx => h x (List.mem_cons_of_mem _ hx), Nat.add_comm]
      congr 1
      cases hany : e.2.any (·.isUnreadable) with
      | false =>
          refine List.countP_eq_zero.mpr fun v hv hu => ?_
          rw [List.any_eq_true.mpr ⟨v, hv, hu⟩] at hany
          cases hany
      | true =>
          obtain ⟨v, hv⟩ := List.length_eq_one_iff.mp (h e List.mem_cons_self hany)
          rw [hv] at hany ⊢
          simpa using hany

/-- As many files are unreadable as errors were found and files could not be
looked at. -/
lemma countP_listed (herrors : ∀ e ∈ d.errors, e.2.isUnreadable = true) :
    (listed d own).countP (·.2.any (·.isUnreadable)) =
      d.errors.length + d.files.countP fun f => (own f).any (·.isUnreadable) := by
  have hfiles : ∀ f : SourceFile,
      ((own f).any (·.isUnreadable) && !(own f).isEmpty) = (own f).any (·.isUnreadable) := by
    intro f
    cases own f <;> simp
  rw [listed, List.countP_append, List.countP_map, List.countP_filter, List.countP_map]
  congr 1
  · exact List.countP_eq_length.mpr fun e he => by simpa using herrors e he
  · exact List.countP_congr fun f _ => by simp [hfiles f]

lemma scanned_reportOn (c : Check) (fs : FileSystem) (root : DocRoot) (config : Config)
    (d : Discovery) : (c.reportOn fs root config d).scanned =
      d.files.countP fun f => (c.inspect fs root config f).isOk := by
  rw [Check.reportOn, ← List.countP_eq_length_filter, List.countP_map]
  rfl

lemma failed_reportOn (c : Check) (fs : FileSystem) (root : DocRoot) (config : Config)
    (d : Discovery) : (c.reportOn fs root config d).failed =
      d.errors.length + d.files.countP fun f =>
        (c.ownViolations fs root config f).any (·.isUnreadable) := by
  simp only [Check.any_isUnreadable_ownViolations]
  show d.errors.length + (List.filter _ (d.files.map _)).length = _
  rw [← List.countP_eq_length_filter, List.countP_map]
  rfl

/-- Every file is looked at or could not be. -/
lemma scanned_add_failed_reportOn (c : Check) (fs : FileSystem) (root : DocRoot)
    (config : Config) (d : Discovery) :
    (c.reportOn fs root config d).scanned + (c.reportOn fs root config d).failed =
      d.files.length + d.errors.length := by
  have hsplit : ∀ files : List SourceFile, files.length =
      (files.countP fun f => (c.inspect fs root config f).isOk) +
        files.countP fun f => !(c.inspect fs root config f).isOk := by
    intro files
    rw [List.length_eq_countP_add_countP fun f => (c.inspect fs root config f).isOk]
    simp
  rw [scanned_reportOn, failed_reportOn]
  simp only [Check.any_isUnreadable_ownViolations]
  have := hsplit d.files
  omega

/-- What is under a path, of findings whose entries are known. -/
lemma get?_eq_some_iff_of_mem_entries {g : Findings} {p : Path} {vs : List Violation}
    (hmem : ∀ x, x ∈ g.entries ↔ (∃ e ∈ d.errors, x = (e.1, [e.2])) ∨
      ∃ f ∈ d.files, own f ≠ [] ∧ x = (f.relative, own f)) :
    g.get? p = some vs ↔ (∃ e ∈ d.errors, e.1.Same p ∧ vs = [e.2]) ∨
      ∃ f ∈ d.files, f.relative.Same p ∧ own f ≠ [] ∧ vs = own f := by
  rw [Findings.get?_eq_some_iff]
  constructor
  · rintro ⟨x, hx, hp, rfl⟩
    rcases (hmem x).mp hx with ⟨e, he, rfl⟩ | ⟨f, hf, hown, rfl⟩
    · exact Or.inl ⟨e, he, hp, rfl⟩
    · exact Or.inr ⟨f, hf, hp, hown, rfl⟩
  · rintro (⟨e, he, hp, rfl⟩ | ⟨f, hf, hp, hown, rfl⟩)
    · exact ⟨_, (hmem _).mpr (Or.inl ⟨e, he, rfl⟩), hp, rfl⟩
    · exact ⟨_, (hmem _).mpr (Or.inr ⟨f, hf, hown, rfl⟩), hp, rfl⟩

section ReportOn

variable {selection : Selection} {skipArchive : Bool}
  (h : Discovery.find fs root config selection skipArchive = .ok d)

include h

lemma perm_entries_reportOn : (c.reportOn fs root config d).findings.entries.Perm
    (listed d (c.ownViolations fs root config)) := by
  rw [findings_reportOn]
  exact Findings.perm_entries_ofList (pairwise_listed h)

/-- A report lists the errors and the files with violations. -/
lemma mem_entries_reportOn {x : Path × List Violation} :
    x ∈ (c.reportOn fs root config d).findings.entries ↔
      (∃ e ∈ d.errors, x = (e.1, [e.2])) ∨
        ∃ f ∈ d.files, c.ownViolations fs root config f ≠ [] ∧
          x = (f.relative, c.ownViolations fs root config f) := by
  rw [(perm_entries_reportOn h).mem_iff, mem_listed]

lemma entry_ne_nil_reportOn {x : Path × List Violation}
    (hx : x ∈ (c.reportOn fs root config d).findings.entries) : x.2 ≠ [] := by
  rcases (mem_entries_reportOn h).mp hx with ⟨e, -, rfl⟩ | ⟨f, -, hf, rfl⟩
  · exact List.cons_ne_nil _ _
  · exact hf

lemma length_eq_one_reportOn {x : Path × List Violation}
    (hx : x ∈ (c.reportOn fs root config d).findings.entries)
    (hany : x.2.any (·.isUnreadable) = true) : x.2.length = 1 := by
  rcases (mem_entries_reportOn h).mp hx with ⟨e, -, rfl⟩ | ⟨f, -, -, rfl⟩
  · rfl
  · exact Check.length_ownViolations hany

lemma failed_eq_countP_reportOn : (c.reportOn fs root config d).failed =
    (c.reportOn fs root config d).findings.entries.countP (·.2.any (·.isUnreadable)) := by
  have herrors : ∀ e ∈ d.errors, e.2.isUnreadable = true := fun e he =>
    Discovery.isUnreadable_of_mem_errors h he
  rw [(perm_entries_reportOn h).countP_eq, countP_listed herrors, failed_reportOn]

/-- A report on a discovery is made pointwise. -/
lemma isPointwise_reportOn :
    (c.reportOn fs root config d).IsPointwise d (c.ownViolations fs root config) where
  mem_entries _ := mem_entries_reportOn h
  get?_eq_some_iff _ _ := get?_eq_some_iff_of_mem_entries fun _ => mem_entries_reportOn h
  entry_ne_nil _ hx := entry_ne_nil_reportOn h hx
  length_eq_one _ hx hany := length_eq_one_reportOn h hx hany
  scanned_add_failed := scanned_add_failed_reportOn c fs root config d
  failed_eq_countP_all := by
    rw [failed_eq_countP_reportOn h, Findings.all, countP_flatMap]
    intro x hx hany
    exact length_eq_one_reportOn h hx hany
  failed_eq_countP_entries := failed_eq_countP_reportOn h
  ok_iff := by
    rw [ok, Findings.isClean, List.all_eq_true, List.eq_nil_iff_forall_not_mem]
    constructor
    · intro hall x hx
      exact entry_ne_nil_reportOn h hx (List.isEmpty_iff.mp (hall x hx))
    · intro hnone x hx
      exact absurd hx (hnone x)

end ReportOn

/-- Only one report is made pointwise. -/
lemma IsPointwise.unique {own : SourceFile → List Violation} {r' : Report}
    (hr : r.IsPointwise d own) (hr' : r'.IsPointwise d own) (hcheck : r.check = r'.check) :
    r = r' := by
  have hfindings : r.findings = r'.findings :=
    Findings.ext_of_mem_iff fun x => (hr.mem_entries x).trans (hr'.mem_entries x).symm
  have hfailed : r.failed = r'.failed := by
    rw [hr.failed_eq_countP_entries, hr'.failed_eq_countP_entries, hfindings]
  have hscanned : r.scanned = r'.scanned := by
    have := hr.scanned_add_failed
    have := hr'.scanned_add_failed
    omega
  cases r
  cases r'
  congr

end Report

/-- A run reports on what is found below its root. -/
lemma Check.run_eq_ok_iff : c.run fs config = .ok r ↔
    ∃ root d, DocRoot.resolve fs config.root = .ok root ∧
      Discovery.find fs root config (c.selection config) (c.leavesArchive config) = .ok d ∧
      c.reportOn fs root config d = r := by
  rw [run]
  cases DocRoot.resolve fs config.root with
  | error e => simp
  | ok root =>
      dsimp only
      cases hfind : Discovery.find fs root config (c.selection config) (c.leavesArchive config) with
      | error e => simp [hfind]
      | ok d => simp [hfind]

/-- **A report is the pointwise result**: a run succeeds just when the root and
its files are found, and then with the one report that lists under every path
what belongs to it, once and in order, and whose numbers count that. -/
theorem Check.run_eq_ok_iff_isPointwise (c : Check) (fs : FileSystem) (config : Config)
    (r : Report) : c.run fs config = .ok r ↔
      ∃ root d, DocRoot.resolve fs config.root = .ok root ∧
        Discovery.find fs root config (c.selection config) (c.leavesArchive config) = .ok d ∧
        r.check = c ∧ r.IsPointwise d (c.ownViolations fs root config) := by
  rw [run_eq_ok_iff]
  refine exists_congr fun root => exists_congr fun d => and_congr_right fun _ =>
    and_congr_right fun hfind => ?_
  have hreport := @Report.isPointwise_reportOn c fs root config d _ _ hfind
  constructor
  · rintro rfl
    exact ⟨rfl, hreport⟩
  · rintro ⟨hcheck, hr⟩
    exact hreport.unique hr hcheck.symm

end DocLint
