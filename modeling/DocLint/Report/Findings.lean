import DocLint.Path.Basic
import DocLint.Violation

/-!
Violations by file.

* `Findings` lists files with their violations, in the order of paths and each
  file once. A file may be listed with none.
* `Findings.add` puts violations behind those of the same file, or lists the
  file anew. The spelling of the path that came first stays.
* `Findings.count`, `Findings.fileCount`, `Findings.isClean` and
  `Findings.hasKind` sum them up.
-/

namespace DocLint

/-- Whether one file comes before another. -/
def Path.Before {α : Type} (a b : Path × α) : Prop :=
  a.1.key < b.1.key

/-- The violations of files, in the order of paths. -/
structure Findings where
  entries : List (Path × List Violation)
  sorted : entries.Pairwise Path.Before

namespace Findings

/-- No file at all. -/
def empty : Findings := ⟨[], .nil⟩

/-! ### Adding violations -/

/-- Adds violations of a file to an ordered list of files. -/
def insert (p : Path) (vs : List Violation) :
    List (Path × List Violation) → List (Path × List Violation)
  | [] => [(p, vs)]
  | e :: es =>
    if p.key < e.1.key then (p, vs) :: e :: es
    else if p.key = e.1.key then (e.1, e.2 ++ vs) :: es
    else e :: insert p vs es

/-- Whoever is listed after adding was listed before or is the one added. -/
theorem key_of_mem_insert {p : Path} {vs : List Violation} {es : List (Path × List Violation)}
    {x : Path × List Violation} (hx : x ∈ insert p vs es) :
    x.1.key = p.key ∨ ∃ e ∈ es, x.1.key = e.1.key := by
  induction es with
  | nil =>
    simp only [insert, List.mem_singleton] at hx
    exact .inl (by rw [hx])
  | cons e es ih =>
    rw [insert] at hx
    split at hx
    · rcases List.mem_cons.1 hx with rfl | hx
      · exact .inl rfl
      · exact .inr ⟨x, hx, rfl⟩
    · split at hx
      · rcases List.mem_cons.1 hx with rfl | hx
        · exact .inr ⟨e, List.mem_cons_self, rfl⟩
        · exact .inr ⟨x, List.mem_cons_of_mem _ hx, rfl⟩
      · rcases List.mem_cons.1 hx with rfl | hx
        · exact .inr ⟨x, List.mem_cons_self, rfl⟩
        · rcases ih hx with h | ⟨f, hf, h⟩
          · exact .inl h
          · exact .inr ⟨f, List.mem_cons_of_mem _ hf, h⟩

/-- Adding keeps the order. -/
theorem sorted_insert (p : Path) (vs : List Violation) {es : List (Path × List Violation)}
    (h : es.Pairwise Path.Before) : (insert p vs es).Pairwise Path.Before := by
  induction es with
  | nil => simp [insert]
  | cons e es ih =>
    rw [List.pairwise_cons] at h
    rw [insert]
    split
    · next hlt =>
      refine List.pairwise_cons.2 ⟨fun x hx => ?_, List.pairwise_cons.2 h⟩
      rcases List.mem_cons.1 hx with rfl | hx
      · exact hlt
      · exact List.lt_trans hlt (h.1 x hx)
    · next hlt =>
      split
      · exact List.pairwise_cons.2 ⟨fun x hx => h.1 x hx, h.2⟩
      · next hne =>
        refine List.pairwise_cons.2 ⟨fun x hx => ?_, ih h.2⟩
        have hep : e.1.key < p.key := by
          rcases Classical.em (e.1.key < p.key) with h' | h'
          · exact h'
          · exact absurd (List.le_antisymm h' hlt) hne
        rcases key_of_mem_insert hx with hk | ⟨f, hf, hk⟩
        · exact show e.1.key < x.1.key from hk ▸ hep
        · exact show e.1.key < x.1.key from hk ▸ h.1 f hf

/-- Adds violations of a file. -/
def add (f : Findings) (p : Path) (vs : List Violation) : Findings :=
  ⟨insert p vs f.entries, sorted_insert p vs f.sorted⟩

/-- Adds the violations of several files, one file after another. -/
def addAll (f : Findings) (es : List (Path × List Violation)) : Findings :=
  es.foldl (fun f e => f.add e.1 e.2) f

/-- The violations of the files of a list. -/
def ofList (es : List (Path × List Violation)) : Findings :=
  empty.addAll es

/-! ### Summing up -/

/-- All violations, file after file. -/
def all (f : Findings) : List Violation :=
  f.entries.flatMap (·.2)

/-- The number of violations. -/
def count (f : Findings) : Nat :=
  f.all.length

/-- The number of files with at least one violation. -/
def fileCount (f : Findings) : Nat :=
  (f.entries.filter fun e => !e.2.isEmpty).length

/-- Whether no file has a violation. -/
def isClean (f : Findings) : Bool :=
  f.entries.all (·.2.isEmpty)

/-- Whether some violation is of the given kind. -/
def hasKind (f : Findings) (k : Violation.Kind) : Bool :=
  f.all.any (·.kind == k)

end Findings

end DocLint
