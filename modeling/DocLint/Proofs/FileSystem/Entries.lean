/-
What an entry of a directory is to a walk.

* `isLinkAt`, `entryPlace`, `openAt?`: whether an entry is a symbolic link, where
  it leads, and the open directory that it leads back to.
* `classify_eq`: an entry is what is at the place where it leads, unless that is a
  directory that is open. `classify_eq_file_iff`, `classify_eq_directory_iff` and
  `classify_eq_error_iff` read this off for each answer.
-/
import DocLint.Proofs.FileSystem.Following

namespace DocLint.FileSystem

/-- Whether there is a symbolic link at a location. -/
def isLinkAt (fs : FileSystem) (loc : Location) : Bool :=
  (fs.node? loc).any Node.isLink

/-- Where an entry of an open directory leads. -/
def entryPlace (fs : FileSystem) (followLinks : Bool) (start : Path) (d : OpenDirectory)
    (n : FileName) : Except Fault Location :=
  if followLinks && fs.isLinkAt (d.place ++ [n]) then fs.locate (start.along (d.trail ++ [n]))
  else .ok (d.place ++ [n])

variable {fs : FileSystem} {start : Path} {d : OpenDirectory} {n : FileName}

/-! ### Links -/

lemma isLinkAt_eq_false {loc : Location} {x : Node} (h : fs.node? loc = some x)
    (hx : x.isLink = false) : fs.isLinkAt loc = false := by
  rw [isLinkAt, h, Option.any_some, hx]

lemma isLinkAt_eq_true_iff {loc : Location} :
    fs.isLinkAt loc = true ↔ ∃ target, fs.node? loc = some (.link target) := by
  rw [isLinkAt]
  cases fs.node? loc with
  | none => simp
  | some x => cases x <;> simp [Node.isLink]

/-- The open directory that a followed link leads back to, nearest first. -/
def openAt? (fs : FileSystem) (d : OpenDirectory) (opened : List OpenDirectory) (n : FileName)
    (loc : Location) : Option OpenDirectory :=
  if fs.isLinkAt (d.place ++ [n]) then opened.find? fun a => a.place = loc else none

lemma openAt?_eq_none_iff {opened : List OpenDirectory} {loc : Location} :
    fs.openAt? d opened n loc = none ↔
      (fs.isLinkAt (d.place ++ [n]) = true → ∀ a ∈ opened, a.place ≠ loc) := by
  rw [openAt?]
  split_ifs with h <;> simp [h]

lemma openAt?_eq_some_iff {opened : List OpenDirectory} {loc : Location} {a : OpenDirectory} :
    fs.openAt? d opened n loc = some a ↔
      fs.isLinkAt (d.place ++ [n]) = true ∧ (opened.find? fun a => a.place = loc) = some a := by
  rw [openAt?]
  split_ifs with h <;> simp [h]

/-- Only a followed link may lead nowhere. -/
lemma entryPlace_eq_error_iff {followLinks : Bool} {e : Fault} :
    fs.entryPlace followLinks start d n = .error e ↔ followLinks = true ∧
      fs.isLinkAt (d.place ++ [n]) = true ∧
      fs.locate (start.along (d.trail ++ [n])) = .error e := by
  rw [entryPlace]
  split_ifs with h
  · rw [Bool.and_eq_true] at h
    exact ⟨fun he => ⟨h.1, h.2, he⟩, fun he => he.2.2⟩
  · rw [Bool.and_eq_true] at h
    exact ⟨fun he => (nomatch he), fun he => absurd ⟨he.1, he.2.1⟩ h⟩

/-- A link that leads to a directory is followed. -/
lemma locate_of_entryPlace {followLinks : Bool} {loc : Location} {es : List (FileName × Node)}
    (hlink : fs.isLinkAt (d.place ++ [n]) = true)
    (h : fs.entryPlace followLinks start d n = .ok loc)
    (hx : fs.node? loc = some (.directory es)) :
    followLinks = true ∧ fs.locate (start.along (d.trail ++ [n])) = .ok loc := by
  rw [entryPlace, hlink, Bool.and_true] at h
  split_ifs at h with hfollow
  · exact ⟨hfollow, h⟩
  · cases h
    rw [isLinkAt_eq_false hx rfl] at hlink
    cases hlink

/-! ### What an entry is -/

/-- An entry is what is at the place where it leads, unless that is a directory
that is open. -/
lemma classify_eq (fs : FileSystem) (followLinks : Bool) (start : Path) (d : OpenDirectory)
    (opened : List OpenDirectory) (n : FileName) :
    fs.classify followLinks start (d.place ++ [n]) (d.trail ++ [n]) opened =
      match fs.entryPlace followLinks start d n with
      | .error e => .error (.unreachable (start.along (d.trail ++ [n])) e)
      | .ok loc =>
        match fs.node? loc with
        | some (.file _) => .ok .file
        | some (.directory _) =>
          match fs.openAt? d opened n loc with
          | some a => .error (.loop (start.along (d.trail ++ [n])) (start.along a.trail))
          | none => .ok (.directory loc)
        | _ => .ok .other := by
  rw [classify, entryPlace]
  cases h : fs.node? (d.place ++ [n]) with
  | none => simp [isLinkAt, h]
  | some x =>
      cases x with
      | link target =>
          have hl : fs.isLinkAt (d.place ++ [n]) = true := isLinkAt_eq_true_iff.mpr ⟨target, h⟩
          cases followLinks with
          | false => simp [h]
          | true =>
              simp only [hl, Bool.and_self, if_true, classifyLink, openAt?]
              cases fs.locate (start.along (d.trail ++ [n])) with
              | error e => rfl
              | ok loc =>
                  dsimp only
                  cases fs.node? loc with
                  | none => rfl
                  | some y => cases y <;> rfl
      | _ => simp [isLinkAt, openAt?, h, Node.isLink]

section Classify

variable {followLinks : Bool} {opened : List OpenDirectory} {loc : Location} {cause : WalkFault}

lemma classify_of_error {e : Fault} (h : fs.entryPlace followLinks start d n = .error e) :
    fs.classify followLinks start (d.place ++ [n]) (d.trail ++ [n]) opened =
      .error (.unreachable (start.along (d.trail ++ [n])) e) := by
  rw [classify_eq, h]

lemma classify_of_file {content : ByteArray} (h : fs.entryPlace followLinks start d n = .ok loc)
    (hx : fs.node? loc = some (.file content)) :
    fs.classify followLinks start (d.place ++ [n]) (d.trail ++ [n]) opened = .ok .file := by
  simp only [classify_eq, h, hx]

lemma classify_of_open {es : List (FileName × Node)} {a : OpenDirectory}
    (h : fs.entryPlace followLinks start d n = .ok loc)
    (hx : fs.node? loc = some (.directory es)) (ha : fs.openAt? d opened n loc = some a) :
    fs.classify followLinks start (d.place ++ [n]) (d.trail ++ [n]) opened =
      .error (.loop (start.along (d.trail ++ [n])) (start.along a.trail)) := by
  simp only [classify_eq, h, hx, ha]

lemma classify_of_directory {es : List (FileName × Node)}
    (h : fs.entryPlace followLinks start d n = .ok loc)
    (hx : fs.node? loc = some (.directory es)) (ha : fs.openAt? d opened n loc = none) :
    fs.classify followLinks start (d.place ++ [n]) (d.trail ++ [n]) opened =
      .ok (.directory loc) := by
  simp only [classify_eq, h, hx, ha]

/-- The ways for an entry to be classified. -/
lemma classify_cases (fs : FileSystem) (followLinks : Bool) (start : Path) (d : OpenDirectory)
    (opened : List OpenDirectory) (n : FileName) :
    (∃ e, fs.entryPlace followLinks start d n = .error e) ∨
    ∃ loc, fs.entryPlace followLinks start d n = .ok loc ∧
      ((∃ content, fs.node? loc = some (.file content)) ∨
      (∃ es, fs.node? loc = some (.directory es)) ∨
      fs.classify followLinks start (d.place ++ [n]) (d.trail ++ [n]) opened = .ok .other) := by
  cases h : fs.entryPlace followLinks start d n with
  | error e => exact Or.inl ⟨e, rfl⟩
  | ok loc =>
      refine Or.inr ⟨loc, rfl, ?_⟩
      cases hx : fs.node? loc with
      | none => exact Or.inr (Or.inr (by simp only [classify_eq, h, hx]))
      | some x =>
          cases x with
          | file content => exact Or.inl ⟨content, rfl⟩
          | directory es => exact Or.inr (Or.inl ⟨es, rfl⟩)
          | _ => exact Or.inr (Or.inr (by simp only [classify_eq, h, hx]))

lemma classify_eq_file_iff :
    fs.classify followLinks start (d.place ++ [n]) (d.trail ++ [n]) opened = .ok .file ↔
      ∃ loc content, fs.entryPlace followLinks start d n = .ok loc ∧
        fs.node? loc = some (.file content) := by
  refine ⟨fun hc => ?_, fun ⟨_, _, h, hx⟩ => classify_of_file h hx⟩
  rcases fs.classify_cases followLinks start d opened n with
    ⟨e, h⟩ | ⟨loc, h, ⟨content, hx⟩ | ⟨es, hx⟩ | ho⟩
  · cases (classify_of_error h).symm.trans hc
  · exact ⟨loc, content, h, hx⟩
  · cases ha : fs.openAt? d opened n loc with
    | none => cases (classify_of_directory h hx ha).symm.trans hc
    | some a => cases (classify_of_open h hx ha).symm.trans hc
  · cases ho.symm.trans hc

lemma classify_eq_directory_iff :
    fs.classify followLinks start (d.place ++ [n]) (d.trail ++ [n]) opened =
        .ok (.directory loc) ↔
      fs.entryPlace followLinks start d n = .ok loc ∧
        (∃ es, fs.node? loc = some (.directory es)) ∧
        (fs.isLinkAt (d.place ++ [n]) = true → ∀ a ∈ opened, a.place ≠ loc) := by
  refine ⟨fun hc => ?_, fun ⟨h, ⟨_, hx⟩, hloop⟩ =>
    classify_of_directory h hx (openAt?_eq_none_iff.mpr hloop)⟩
  rcases fs.classify_cases followLinks start d opened n with
    ⟨e, h⟩ | ⟨loc', h, ⟨content, hx⟩ | ⟨es, hx⟩ | ho⟩
  · cases (classify_of_error h).symm.trans hc
  · cases (classify_of_file h hx).symm.trans hc
  · cases ha : fs.openAt? d opened n loc' with
    | none =>
        cases (classify_of_directory h hx ha).symm.trans hc
        exact ⟨h, ⟨es, hx⟩, openAt?_eq_none_iff.mp ha⟩
    | some a => cases (classify_of_open h hx ha).symm.trans hc
  · cases ho.symm.trans hc

/-- Only a followed link fails to be classified: it cannot be resolved, or it
leads to an open directory. -/
lemma classify_eq_error_iff :
    fs.classify followLinks start (d.place ++ [n]) (d.trail ++ [n]) opened = .error cause ↔
      followLinks = true ∧ fs.isLinkAt (d.place ++ [n]) = true ∧
        ((∃ e, fs.locate (start.along (d.trail ++ [n])) = .error e ∧
          cause = .unreachable (start.along (d.trail ++ [n])) e) ∨
        ∃ loc es a, fs.locate (start.along (d.trail ++ [n])) = .ok loc ∧
          fs.node? loc = some (.directory es) ∧
          (opened.find? fun a => a.place = loc) = some a ∧
          cause = .loop (start.along (d.trail ++ [n])) (start.along a.trail)) := by
  constructor
  · intro hc
    rcases fs.classify_cases followLinks start d opened n with
      ⟨e, h⟩ | ⟨loc, h, ⟨content, hx⟩ | ⟨es, hx⟩ | ho⟩
    · cases (classify_of_error h).symm.trans hc
      obtain ⟨hfollow, hlink, he⟩ := entryPlace_eq_error_iff.mp h
      exact ⟨hfollow, hlink, Or.inl ⟨e, he, rfl⟩⟩
    · cases (classify_of_file h hx).symm.trans hc
    · cases ha : fs.openAt? d opened n loc with
      | none => cases (classify_of_directory h hx ha).symm.trans hc
      | some a =>
          cases (classify_of_open h hx ha).symm.trans hc
          obtain ⟨hlink, hfind⟩ := openAt?_eq_some_iff.mp ha
          obtain ⟨hfollow, hloc⟩ := locate_of_entryPlace hlink h hx
          exact ⟨hfollow, hlink, Or.inr ⟨loc, es, a, hloc, hx, hfind, rfl⟩⟩
    · cases ho.symm.trans hc
  · rintro ⟨hfollow, hlink, ⟨e, he, rfl⟩ | ⟨loc, es, a, hloc, hx, hfind, rfl⟩⟩
    · exact classify_of_error (entryPlace_eq_error_iff.mpr ⟨hfollow, hlink, he⟩)
    · have hplace : fs.entryPlace followLinks start d n = .ok loc := by
        rw [entryPlace, hfollow, hlink, Bool.and_self, if_pos rfl, hloc]
      exact classify_of_open hplace hx (openAt?_eq_some_iff.mpr ⟨hlink, hfind⟩)

end Classify

end DocLint.FileSystem
