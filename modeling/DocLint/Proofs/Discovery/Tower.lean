/-
Directories one below the other, all of one name.

* `FileSystem.tower`: a file system that is such a row of directories.
* `resolve_tower`: any of them is a root, as long as its path is short.
* `exists_error_tower`: below a root whose path is just short enough, the next
  directory cannot be read, whether or not links are followed.
* `FileSystem.shortcutTower`: such a row with a link into it. Through the link the
  last directories have short paths (`locate_shortcutTower`), but the very last one
  has no place with a short path (`realPlace_shortcutTower`).
-/
import DocLint.Proofs.Discovery.Reached

namespace DocLint

/-- Rows of directories. -/
def towerEntries (n : FileName) : Nat → List (FileName × Node)
  | 0 => []
  | k + 1 => [(n, .directory (towerEntries n k))]

/-- The file system that is one row of directories. -/
def FileSystem.tower (n : FileName) (height : Nat) : FileSystem :=
  ⟨towerEntries n height, []⟩

/-- A name of `k + 1` letters. -/
def FileName.letters (k : Nat) : FileName :=
  ⟨List.replicate (k + 1) 0x70, by simp, fun h => by
    simpa [dot, List.replicate_succ] using congrArg List.head? h, fun h => by
    simpa [dot, List.replicate_succ] using congrArg List.head? h, by simp [slash]⟩

/-- Short enough letters can be stored. -/
lemma isStorable_letters {k : Nat} (h : k < FileSystem.maxNameLength) :
    (FileName.letters k).isStorable = true := by
  rw [FileName.isStorable, Bool.and_eq_true, decide_eq_true_eq, FileName.letters,
    List.length_replicate]
  exact ⟨h, by simp⟩

variable {n : FileName} {k : Nat}

lemma descend?_tower (hn : n.isStorable = true) (j k : Nat) :
    (Node.directory (towerEntries n (j + k))).descend? (List.replicate j n) =
      some (.directory (towerEntries n k)) := by
  induction j with
  | zero => rw [Nat.zero_add, List.replicate_zero, Node.descend?]
  | succ j ih =>
      have hchild : (Node.directory (towerEntries n (j + 1 + k))).child? n =
          some (.directory (towerEntries n (j + k))) := by
        rw [Nat.add_right_comm, towerEntries, Node.child?, Node.entries]
        simp [hn]
      rw [List.replicate_succ, Node.descend?, hchild, Option.bind_some, ih]

/-- There is a directory at every height. -/
lemma node?_tower (hn : n.isStorable = true) (j k : Nat) :
    (FileSystem.tower n (j + k)).node? (List.replicate j n) =
      some (.directory (towerEntries n k)) :=
  descend?_tower hn j k

/-- A directory of a row has one name. -/
lemma eq_of_child?_tower {m : FileName} {x : Node}
    (h : (Node.directory (towerEntries n (k + 1))).child? m = some x) :
    m = n ∧ x = .directory (towerEntries n k) := by
  rw [Node.child?, towerEntries] at h
  obtain ⟨e, he, rfl⟩ := Option.map_eq_some_iff.mp h
  have hm : e.1 = m := by simpa using List.find?_some he
  obtain rfl := List.mem_singleton.mp (List.mem_filter.mp (List.mem_of_find?_eq_some he)).1
  exact ⟨hm.symm, rfl⟩

lemma isDirectory_of_descend?_tower {loc : Location} {x : Node}
    (h : (Node.directory (towerEntries n k)).descend? loc = some x) : x.isDirectory = true := by
  induction loc generalizing k with
  | nil =>
      cases h
      rfl
  | cons m loc ih =>
      obtain ⟨y, hy, hx⟩ := Option.bind_eq_some_iff.mp h
      cases k with
      | zero => cases hy
      | succ k =>
          obtain ⟨-, rfl⟩ := eq_of_child?_tower hy
          exact ih hx

/-- Everything in a row is reached by its one name, again and again. -/
lemma exists_replicate_of_descend?_tower {loc : Location} {x : Node}
    (h : (Node.directory (towerEntries n k)).descend? loc = some x) :
    ∃ j ≤ k, loc = List.replicate j n := by
  induction loc generalizing k with
  | nil => exact ⟨0, Nat.zero_le k, rfl⟩
  | cons m loc ih =>
      obtain ⟨y, hy, hx⟩ := Option.bind_eq_some_iff.mp h
      cases k with
      | zero => cases hy
      | succ k =>
          obtain ⟨rfl, rfl⟩ := eq_of_child?_tower hy
          obtain ⟨j, hj, rfl⟩ := ih hx
          exact ⟨j + 1, Nat.succ_le_succ hj, rfl⟩

/-- There is nothing but directories. -/
lemma isDirectory_of_node?_tower {loc : Location} {x : Node}
    (h : (FileSystem.tower n k).node? loc = some x) : x.isDirectory = true :=
  isDirectory_of_descend?_tower h

/-- A row of names, each with a slash in front of it. -/
lemma length_flatMap_replicate (n : FileName) (k : Nat) :
    ((List.replicate k n).flatMap fun n => slash :: n.bytes).length =
      k * (n.bytes.length + 1) := by
  induction k with
  | zero => rw [List.replicate_zero, List.flatMap_nil, List.length_nil, Nat.zero_mul]
  | succ k ih =>
      rw [List.replicate_succ, List.flatMap_cons, List.length_append, ih, List.length_cons,
        Nat.succ_mul, Nat.add_comm]

/-- The length of the path of a directory in a row. -/
lemma length_ofNames_replicate (n : FileName) (k : Nat) :
    (Path.ofNames (List.replicate (k + 1) n)).bytes.length = (k + 1) * (n.bytes.length + 1) := by
  have hne : List.replicate (k + 1) n ≠ [] := List.cons_ne_nil n _
  rw [Path.bytes_ofNames_of_ne_nil hne, length_flatMap_replicate]

/-- Fifteen names of 255 letters make a path that is short enough. -/
lemma isShort_letters_fifteen :
    (Path.ofNames (List.replicate 15 (.letters 254))).isShort = true := by
  have hbytes : (FileName.letters 254).bytes.length = 255 := List.length_replicate
  rw [Path.isShort, length_ofNames_replicate _ 14, hbytes]
  decide

/-- Sixteen of them do not. -/
lemma isShort_letters_sixteen :
    (Path.ofNames (List.replicate 16 (.letters 254))).isShort = false := by
  have hbytes : (FileName.letters 254).bytes.length = 255 := List.length_replicate
  rw [Path.isShort, length_ofNames_replicate _ 15, hbytes]
  decide

/-- A directory of a row, as a root. -/
def towerRoot (n : FileName) (k : Nat) : DocRoot :=
  ⟨.ofNames (List.replicate k n),
    (Path.ofNames (List.replicate k n)).parent?.getD (.ofNames (List.replicate k n)),
    List.replicate k n⟩

lemma eq_of_fileName?_towerRoot {m : FileName} (h : (towerRoot n k).path.fileName? = some m) :
    m = n := by
  cases k with
  | zero => cases h
  | succ k =>
      rw [towerRoot, List.replicate_succ', Path.fileName?_ofNames_concat] at h
      exact (Option.some.inj h).symm

/-- A directory of a row whose path is short is found as a root. -/
lemma resolve_tower (hn : n.isStorable = true)
    (hshort : (Path.ofNames (List.replicate k n)).isShort = true) (j : Nat) :
    DocRoot.resolve (.tower n (k + j)) (.ofNames (List.replicate k n)) =
      .ok (towerRoot n k) := by
  have hnode := node?_tower hn k j
  obtain ⟨hlocate, hreal⟩ := FileSystem.locate_ofNames_of_node? hnode rfl hshort
  exact DocRoot.resolve_ofNames hlocate hreal hnode

namespace Discovery

variable {c : Config} {selection : Selection} {skipArchive : Bool}

lemma starts_tower (h : (rules c skipArchive).enters 1 n = true) (j : Nat) :
    (FileSystem.tower n j).starts (rules c skipArchive) (towerRoot n k).path = true := by
  refine starts_of_name fun m hm => ?_
  have henter : (!skippedDirectories.any n.isWritten && _) = true := h
  rw [Bool.and_eq_true, Bool.not_eq_true'] at henter
  rw [eq_of_fileName?_towerRoot hm]
  exact henter.1

/-- The walk below a directory of a row comes to the next one. -/
lemma opens_tower (hn : n.isStorable = true)
    (hshort : (Path.ofNames (List.replicate k n)).isShort = true)
    (h : (rules c skipArchive).enters 1 n = true) :
    (FileSystem.tower n (k + 1)).Opens (rules c skipArchive) (towerRoot n k).path
      (towerRoot n k).canonical ⟨List.replicate (k + 1) n, [n]⟩
      [⟨List.replicate k n, []⟩] := by
  have hroot := DocRoot.resolve_eq_ok (resolve_tower hn hshort 1)
  have hnode := node?_tower hn (k + 1) 0
  have hlink : (FileSystem.tower n (k + 1)).isLinkAt (List.replicate k n ++ [n]) = false := by
    rw [← List.replicate_succ']
    exact FileSystem.isLinkAt_eq_false hnode rfl
  refine .enter .root ⟨List.replicate k n, ?_⟩ ?_ ⟨_, hnode⟩ (fun hl => ?_) h
  · have hlocate := hroot.locate
    rw [towerRoot] at hlocate ⊢
    rwa [Path.along_ofNames, List.append_nil]
  · show FileSystem.entryPlace _ _ _ ⟨List.replicate k n, []⟩ n = _
    rw [FileSystem.entryPlace, hlink, Bool.and_false, if_neg Bool.false_ne_true,
      List.replicate_succ']
  · cases hlink.symm.trans hl

/-- **A directory that is too far down** is an error, whether or not links are
followed. -/
lemma exists_error_tower (hn : n.isStorable = true)
    (hshort : (Path.ofNames (List.replicate k n)).isShort = true)
    (hlong : (Path.ofNames (List.replicate (k + 1) n)).isShort = false)
    (henter : (rules c skipArchive).enters 1 n = true) (hdepth : 1 < c.maxDepth)
    (hexclude : c.exclude = []) :
    ∃ d, find (.tower n (k + 1)) (towerRoot n k) c selection skipArchive = .ok d ∧
      (.ofRelativeNames [n], .unreadable (traversalMessage
        (.unreachable (.ofNames (List.replicate (k + 1) n)) .nameTooLong))) ∈ d.errors := by
  have hps : patterns c.exclude = .ok [] := by
    rw [hexclude]
    rfl
  obtain ⟨d, hfind⟩ :=
    exists_find_eq_ok (.tower n (k + 1)) (towerRoot n k) selection skipArchive hps
  refine ⟨d, hfind, (mem_errors_iff hps hfind).mpr ⟨[n], _, ?_, rfl, rfl⟩⟩
  have hpath : (towerRoot n k).path.along [n] = .ofNames (List.replicate (k + 1) n) := by
    rw [towerRoot, Path.along_ofNames, List.replicate_succ']
  have hlocate : (FileSystem.tower n (k + 1)).locate ((towerRoot n k).path.along [n]) =
      .error .nameTooLong := by
    have hroot := DocRoot.resolve_eq_ok (resolve_tower hn hshort 1)
    have hnode := node?_tower hn (k + 1) 0
    rw [List.replicate_succ'] at hnode
    have happend := FileSystem.locate_append hroot.locate (List.cons_ne_nil n []) hnode rfl
    rw [← List.replicate_succ', hlong] at happend
    rw [hpath]
    exact happend
  rw [← hpath]
  exact .directory ⟨starts_tower henter _, opens_tower hn hshort henter, hdepth⟩ hlocate

/-- Below fifteen directories with names of 255 letters there may be one that is too far
down. -/
lemma exists_errors_letters (c : Config) (selection : Selection) (hdepth : 1 < c.maxDepth)
    (hexclude : c.exclude = []) :
    DocRoot.resolve (.tower (.letters 254) 16) (.ofNames (List.replicate 15 (.letters 254))) =
      .ok (towerRoot (.letters 254) 15) ∧
    (∀ n, (towerRoot (.letters 254) 15).path.fileName? = some n →
      skippedDirectories.any n.isWritten = false) ∧
    ∃ d, find (.tower (.letters 254) 16) (towerRoot (.letters 254) 15) c selection false = .ok d ∧
      d.errors ≠ [] := by
  have hn : (FileName.letters 254).isStorable = true := isStorable_letters (by decide)
  have hskip : skippedDirectories.any (FileName.letters 254).isWritten = false := by decide
  have henter : (rules c false).enters 1 (.letters 254) = true := by
    show enters none 1 (.letters 254) = true
    rw [enters, hskip]
    rfl
  obtain ⟨d, hfind, herror⟩ := @exists_error_tower (.letters 254) 15 c selection false hn
    isShort_letters_fifteen isShort_letters_sixteen henter hdepth hexclude
  refine ⟨resolve_tower hn isShort_letters_fifteen 1, fun n hname => ?_, d, hfind,
    List.ne_nil_of_mem herror⟩
  obtain rfl := eq_of_fileName?_towerRoot hname
  exact hskip

end Discovery

/-! ### A link into a row -/

namespace FileSystem

/-- A row of sixteen directories with names of 255 letters, and a link to the
fifteenth. -/
def shortcutTower : FileSystem :=
  ⟨(.letters 0, .link (.ofNames (List.replicate 15 (.letters 254)))) ::
    towerEntries (.letters 254) 16, []⟩

/-- The path of the fifteenth directory, or of the one below it, through the link. -/
def shortcut (j : Nat) : Path :=
  .ofNames (.letters 0 :: List.replicate j (.letters 254))

lemma node?_shortcutTower_link : shortcutTower.node? [.letters 0] =
    some (.link (.ofNames (List.replicate 15 (.letters 254)))) :=
  node?_cons_self (isStorable_letters (by decide)) _ _ []

lemma node?_shortcutTower (loc : Location) :
    shortcutTower.node? (.letters 254 :: loc) =
      (tower (.letters 254) 16).node? (.letters 254 :: loc) := by
  have hne : FileName.letters 0 ≠ .letters 254 := by decide
  exact node?_cons_of_ne hne _ _ loc

/-- The directories behind the link are those of the row. -/
lemma node?_shortcutTower_replicate {j : Nat} (hj : j ≤ 1) :
    shortcutTower.node? (List.replicate (15 + j) (.letters 254)) =
      some (.directory (towerEntries (.letters 254) (1 - j))) := by
  have hheight : 15 + j + (1 - j) = 16 := by omega
  have hn : (FileName.letters 254).isStorable = true := isStorable_letters (by decide)
  have hnode := node?_tower hn (15 + j) (1 - j)
  rw [hheight] at hnode
  rw [Nat.add_comm, Nat.add_succ, List.replicate_succ] at hnode ⊢
  rw [node?_shortcutTower, hnode]

variable {fits : Location → Bool} {j : Nat}

/-- Through the link the places of the row are looked at, one after another. -/
lemma followPath_shortcut (hlink : fits [.letters 0] = true)
    (hfits : ∀ l m, fits (l ++ m) = true → fits l = true) (hj : j ≤ 1) :
    shortcutTower.followPath fits (shortcut j) =
      if fits (List.replicate (15 + j) (.letters 254)) then
        .ok (List.replicate (15 + j) (.letters 254))
      else .error .nameTooLong := by
  have hlinks : maxLinks = 39 + 1 := rfl
  have hne : List.replicate 15 (FileName.letters 254) ≠ [] := List.cons_ne_nil _ _
  have hne' : List.replicate (15 + j) (FileName.letters 254) ≠ [] := by
    rw [Nat.add_comm]
    exact List.cons_ne_nil _ _
  have hnode := node?_shortcutTower_link
  rw [← List.nil_append [FileName.letters 0]] at hnode
  rw [shortcut, followPath_ofNames, List.map_cons, hlinks, follow_link hnode, List.nil_append,
    if_pos hlink, if_pos (Path.isAbsolute_ofNames _), Path.steps_ofNames hne, List.cons_append,
    follow_stay shortcutTower.node?_nil, ← List.map_append, List.replicate_append_replicate]
  exact follow_downs hfits hne' (node?_shortcutTower_replicate hj) rfl

lemma shortcut_isShort (hj : j ≤ 1) :
    (shortcut j).bytes.contains 0 = false ∧ (shortcut j).isShort = true := by
  rcases Nat.le_one_iff_eq_zero_or_eq_one.mp hj with rfl | rfl
  · decide
  · decide +kernel

lemma locate_shortcutTower (hj : j ≤ 1) :
    shortcutTower.locate (shortcut j) = .ok (List.replicate (15 + j) (.letters 254)) := by
  obtain ⟨hzero, hshort⟩ := shortcut_isShort hj
  have hne : (shortcut j).bytes ≠ [] := Path.ofNames_bytes_ne_nil _
  rw [locate, hzero, if_neg Bool.false_ne_true, if_neg hne, if_pos hshort,
    followPath_shortcut rfl (fun _ _ _ => rfl) hj, if_pos rfl]

/-- Place by place, only the fifteenth directory is reached. -/
lemma realPlace_shortcutTower (hj : j ≤ 1) : shortcutTower.realPlace (shortcut j) =
    if (pathOf (List.replicate (15 + j) (.letters 254))).isShort then
      .ok (List.replicate (15 + j) (.letters 254))
    else .error .nameTooLong := by
  obtain ⟨hzero, -⟩ := shortcut_isShort hj
  have hne : (shortcut j).bytes ≠ [] := Path.ofNames_bytes_ne_nil _
  have hlink : (pathOf [.letters 0]).isShort = true := by decide
  rw [realPlace, hzero, if_neg Bool.false_ne_true, if_neg hne,
    followPath_shortcut hlink (fun _ _ => Path.isShort_of_append) hj]

end FileSystem

end DocLint
