/-
What is found does not depend on where the root is.

* `FileSystem.SameBelow`: two places hold the same, whatever lies around them.
* `DocRoot.IsEntered`: a walk that follows no links goes into a root.
* `IsWanted.of_sameBelow`: below two roots that hold the same, the same names are
  wanted where no links are followed.
* `files_of_fitsBelow`, `IsWanted.read_eq`: where all paths fit, exactly these are
  found, without errors, and each is read from its place.
-/
import DocLint.Proofs.Discovery.Unfollowed
import DocLint.Proofs.FileSystem.Shape

namespace DocLint

/-- Whether two places hold the same: the same names, the same bytes in files and the
same links. -/
structure FileSystem.SameBelow (fs fs' : FileSystem) (l l' : Location) : Prop where
  face : ∀ t, (fs.node? (l ++ t)).map Node.face = (fs'.node? (l' ++ t)).map Node.face

/-- Whether a walk that follows no links enters a root: the root is a link itself, or
its name is not one of those that are never entered. -/
def DocRoot.IsEntered (fs : FileSystem) (root : DocRoot) : Prop :=
  fs.isLink root.path = true ∨
    ∀ n, root.path.fileName? = some n → skippedDirectories.any n.isWritten = false

variable {fs fs' : FileSystem} {l l' : Location} {root root' : DocRoot} {config : Config}
  {t : List FileName}

namespace FileSystem.SameBelow

lemma symm (h : SameBelow fs fs' l l') : SameBelow fs' fs l' l :=
  ⟨fun t => (h.face t).symm⟩

lemma eq_file (h : SameBelow fs fs' l l') {content : ByteArray}
    (hx : fs.node? (l ++ t) = some (.file content)) :
    fs'.node? (l' ++ t) = some (.file content) := by
  have hface := h.face t
  rw [hx] at hface
  obtain ⟨y, hy, hyface⟩ := Option.map_eq_some_iff.mp hface.symm
  cases y with
  | file content' =>
      cases hyface
      exact hy
  | _ => cases hyface

lemma exists_directory (h : SameBelow fs fs' l l') {es : List (FileName × Node)}
    (hx : fs.node? (l ++ t) = some (.directory es)) :
    ∃ es', fs'.node? (l' ++ t) = some (.directory es') := by
  have hface := h.face t
  rw [hx] at hface
  obtain ⟨y, hy, hyface⟩ := Option.map_eq_some_iff.mp hface.symm
  cases y with
  | directory es' => exact ⟨es', hy⟩
  | _ => cases hyface

end FileSystem.SameBelow

namespace Discovery

variable {selection : Selection} {skipArchive : Bool} {ps : List (List Glob.Item)}
  {d : Discovery} {p : Path}

lemma starts_of_isEntered (h : root.IsEntered fs) (hfollow : config.followLinks = false) :
    fs.starts (rules config skipArchive) root.path = true := by
  rcases h with hlink | hname
  · have hrules : (rules config skipArchive).followLinks = false := hfollow
    rw [FileSystem.starts, hrules, hlink]
    rfl
  · exact starts_of_name hname

/-- Below places that hold the same, the same names are wanted. -/
lemma IsWanted.of_sameBelow (hsame : fs.SameBelow fs' root.canonical root'.canonical)
    (h : IsWanted fs root config selection skipArchive ps t) :
    IsWanted fs' root' { config with root := p } selection skipArchive ps t where
  isFile := by
    obtain ⟨content, hx⟩ := h.isFile
    exact ⟨content, hsame.eq_file hx⟩
  inDirectories s hs hne := by
    obtain ⟨es, hes⟩ := h.inDirectories s hs hne
    exact hsame.exists_directory hes
  depth := h.depth
  notSkipped := h.notSkipped
  notArchived := h.notArchived
  selected := h.selected
  kept := h.kept

/-- Where all paths fit, the wanted files are found, and there are no errors. -/
lemma files_of_fitsBelow (hroot : root.IsResolved fs) (henter : root.IsEntered fs)
    (hfollow : config.followLinks = false) (hfits : FitsBelow fs root)
    (hps : patterns config.exclude = .ok ps)
    (h : find fs root config selection skipArchive = .ok d) :
    d.errors = [] ∧ ∀ f, f ∈ d.files ↔
      ∃ t, IsWanted fs root config selection skipArchive ps t ∧ f = sourceFile root t := by
  have hstarts := @starts_of_isEntered fs root config skipArchive henter hfollow
  constructor
  · refine List.eq_nil_iff_forall_not_mem.mpr fun x hx => ?_
    rcases (mem_errors_unfollowed hroot hfollow hstarts hps h).mp hx with
      ⟨t, ht, -⟩ | ⟨t, hwanted, -, hlong, -⟩
    · obtain ⟨es, hes⟩ := ht.isDirectory
      cases (hfits t _ hes).1.symm.trans ht.tooLong
    · obtain ⟨content, hcontent⟩ := hwanted.isFile
      cases (hfits t _ hcontent).2.symm.trans hlong
  · intro f
    rw [mem_files_unfollowed hroot hfollow hstarts hps h]
    constructor
    · rintro ⟨t, hwanted, -, -, hf⟩
      exact ⟨t, hwanted, hf⟩
    · rintro ⟨t, hwanted, hf⟩
      obtain ⟨content, hcontent⟩ := hwanted.isFile
      obtain ⟨hpath, hplace⟩ := hfits t _ hcontent
      exact ⟨t, hwanted, isShort_dropLast hroot hpath, hplace, hf⟩

/-- A wanted file whose path fits is read from its place. -/
lemma IsWanted.read_eq (h : IsWanted fs root config selection skipArchive ps t)
    (hroot : root.IsResolved fs) (hfits : FitsBelow fs root) :
    ∃ content, fs.node? (root.canonical ++ t) = some (.file content) ∧
      fs.read (sourceFile root t).path = .ok content := by
  obtain ⟨content, hx⟩ := h.isFile
  refine ⟨content, hx, ?_⟩
  have hlocate := locate_along hroot hx rfl
  rw [if_pos (hfits t _ hx).1] at hlocate
  rw [FileSystem.read, sourceFile, hlocate]
  dsimp only
  rw [hx]

end Discovery

end DocLint
