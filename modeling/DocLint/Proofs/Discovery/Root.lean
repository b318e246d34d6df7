/-
What a root that was found is like.

* `DocRoot.IsResolved`: its path is written from names, and both ways of following
  that path lead to one directory.
* `resolve_eq_ok`: every root that is found is of this kind.
* `resolve_ofNames`: a normal path that leads to a directory is found as it
  stands.
-/
import DocLint.Discovery.Root
import DocLint.Proofs.FileSystem.Following

namespace DocLint.DocRoot

/-- Whether a root is at the directory where its path leads. -/
structure IsResolved (fs : FileSystem) (root : DocRoot) : Prop where
  names : ∃ ns, root.path = .ofNames ns
  locate : fs.locate root.path = .ok root.canonical
  realPlace : fs.realPlace root.path = .ok root.canonical
  directory : ∃ es, fs.node? root.canonical = some (.directory es)

variable {fs : FileSystem} {root : DocRoot} {p : Path} {ns : List FileName} {loc : Location}

lemma isDirectoryAt_eq_true_iff :
    fs.isDirectoryAt loc = true ↔ ∃ es, fs.node? loc = some (.directory es) := by
  rw [FileSystem.isDirectoryAt]
  cases fs.node? loc with
  | none => simp [Node.isDirectory]
  | some x => cases x <;> simp [Node.isDirectory]

/-- The normal form of an absolute path is written from names. -/
lemma exists_absolute_eq_ofNames (fs : FileSystem) (p : Path) :
    ∃ ns, absolute fs p = .ofNames ns :=
  Path.exists_normal_eq_ofNames (Path.isAbsolute_join (Path.isAbsolute_ofNames _))

/-- **A root that is found** is at the directory where its path leads. -/
lemma resolve_eq_ok (h : resolve fs p = .ok root) : root.IsResolved fs := by
  rw [resolve] at h
  split_ifs at h
  dsimp only at h
  split at h
  · cases h
  · next place hplace =>
    split_ifs at h with hdir
    split at h
    · cases h
    · next canonical hreal =>
      cases h
      have heq : canonical = place := FileSystem.eq_of_realPlace_of_locate hreal hplace
      subst heq
      exact ⟨exists_absolute_eq_ofNames fs p, hplace, hreal, isDirectoryAt_eq_true_iff.mp hdir⟩

lemma absolute_ofNames (fs : FileSystem) (ns : List FileName) :
    absolute fs (.ofNames ns) = .ofNames ns := by
  rw [absolute, Path.join, if_pos (Path.isAbsolute_ofNames ns), Path.normal_ofNames]

/-- A normal path that leads to a directory is found as it stands. -/
lemma resolve_ofNames {es : List (FileName × Node)} (hloc : fs.locate (.ofNames ns) = .ok loc)
    (hreal : fs.realPlace (.ofNames ns) = .ok loc) (hdir : fs.node? loc = some (.directory es)) :
    resolve fs (.ofNames ns) =
      .ok ⟨.ofNames ns, (Path.ofNames ns).parent?.getD (.ofNames ns), loc⟩ := by
  rw [resolve, if_neg (Path.ofNames_bytes_ne_nil ns), absolute_ofNames]
  simp only [hloc, hreal, isDirectoryAt_eq_true_iff.mpr ⟨es, hdir⟩, if_true]

end DocLint.DocRoot
