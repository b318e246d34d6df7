/-
File systems that differ only in the bytes of files.

* `FileSystem.SameShape`: two file systems have the same names, links and kinds of
  nodes at every place. `Node.outline` is what is kept of a node.
* `follow_congr`: they lead every path to the same place, so `locate_congr` and
  `realPlace_congr`.
* `visits_congr`: a walk comes by the same in both.
* `FileSystem.DiffersOnlyAt`: they differ in the bytes of one file;
  `read_congr`: every path that does not lead to that file reads the same.
-/
import DocLint.Proofs.FileSystem.Following
import DocLint.FileSystem.Walk

namespace DocLint

/-- A node without the bytes of a file and without what is in a directory. -/
def Node.outline : Node → Node
  | .file _ => .file .empty
  | .directory _ => .directory []
  | x => x

/-- A node without what is in a directory. -/
def Node.face : Node → Node
  | .directory _ => .directory []
  | x => x

@[simp] lemma Node.outline_face (x : Node) : x.face.outline = x.outline := by
  cases x <;> rfl

@[simp] lemma Node.isDirectory_outline (x : Node) : x.outline.isDirectory = x.isDirectory := by
  cases x <;> rfl

@[simp] lemma Node.isLink_outline (x : Node) : x.outline.isLink = x.isLink := by
  cases x <;> rfl

namespace FileSystem

/-- Whether two file systems are the same but for the bytes of files. -/
structure SameShape (fs fs' : FileSystem) : Prop where
  workingDirectory : fs.workingDirectory = fs'.workingDirectory
  outline : ∀ loc, (fs.node? loc).map Node.outline = (fs'.node? loc).map Node.outline

/-- Whether there is a link at a path is read off the place behind the path above. -/
lemma isLink_eq (fs : FileSystem) {p d : Path} {n : FileName} (hd : p.parent? = some d)
    (hn : p.fileName? = some n) : fs.isLink p =
      match fs.locate d with
      | .ok loc => ((fs.node? (loc ++ [n])).map Node.isLink).getD false
      | .error _ => false := by
  rw [isLink, hd, hn]
  dsimp only
  rw [lookup?]
  cases fs.locate d with
  | error e => rfl
  | ok loc =>
      dsimp only
      rw [node?_concat]
      cases fs.node? loc <;> rfl

namespace SameShape

variable {fs fs' : FileSystem} {loc : Location} {p : Path}

/-! ### Nodes -/

lemma eq_none (h : SameShape fs fs') (hx : fs.node? loc = none) : fs'.node? loc = none := by
  have ho := h.outline loc
  rw [hx] at ho
  exact Option.map_eq_none_iff.mp ho.symm

/-- A node of the one is a node of the other with the same outline. -/
lemma exists_eq_some (h : SameShape fs fs') {x : Node} (hx : fs.node? loc = some x) :
    ∃ y, fs'.node? loc = some y ∧ y.outline = x.outline := by
  have ho := h.outline loc
  rw [hx] at ho
  exact Option.map_eq_some_iff.mp ho.symm

lemma exists_directory (h : SameShape fs fs') {es : List (FileName × Node)}
    (hx : fs.node? loc = some (.directory es)) :
    ∃ es', fs'.node? loc = some (.directory es') := by
  obtain ⟨y, hy, ho⟩ := h.exists_eq_some hx
  cases y with
  | directory es' => exact ⟨es', hy⟩
  | _ => cases ho

lemma eq_link (h : SameShape fs fs') {target : Path}
    (hx : fs.node? loc = some (.link target)) : fs'.node? loc = some (.link target) := by
  obtain ⟨y, hy, ho⟩ := h.exists_eq_some hx
  cases y with
  | link target' =>
      cases ho
      exact hy
  | _ => cases ho

/-- What is told by outlines is the same. -/
lemma map_eq {α : Type} (h : SameShape fs fs') {g : Node → α}
    (hg : ∀ x, g x.outline = g x) (loc : Location) :
    (fs.node? loc).map g = (fs'.node? loc).map g := by
  have ho := congrArg (Option.map g) (h.outline loc)
  rw [Option.map_map, Option.map_map] at ho
  simpa [Function.comp_def, hg] using ho

/-- Directories list the same names. -/
lemma names_eq (h : SameShape fs fs') (loc : Location) : fs.names loc = fs'.names loc := by
  refine eq_of_pairwise_of_mem_iff FileName.lt_irrefl (fun _ _ _ => FileName.lt_trans)
    (fs.pairwise_names loc) (fs'.pairwise_names loc) fun n => ?_
  rw [mem_names, mem_names, ← Option.isSome_map, h.outline, Option.isSome_map]

/-! ### Paths -/

/-- Steps lead to the same place. -/
lemma follow_congr (h : SameShape fs fs') (fits : Location → Bool) (links : Nat)
    (here : Location) (ss : List Path.Step) :
    fs.follow fits links here ss = fs'.follow fits links here ss := by
  fun_induction follow fs fits links here ss with
  | case1 => rw [follow_nil]
  | case2 links here ss es hes ih =>
      obtain ⟨es', hes'⟩ := h.exists_directory hes
      rw [follow_stay hes', ih]
  | case3 links here ss es hes ih =>
      obtain ⟨es', hes'⟩ := h.exists_directory hes
      rw [follow, hes']
      exact ih
  | case4 links here ss es hes n hlong =>
      obtain ⟨es', hes'⟩ := h.exists_directory hes
      rw [follow, hes']
      simp only [if_pos hlong]
  | case5 links here ss es hes n hfits hchild =>
      obtain ⟨es', hes'⟩ := h.exists_directory hes
      rw [child?_of_directory hes] at hchild
      rw [follow, hes']
      simp only [if_neg hfits, child?_of_directory hes', h.eq_none hchild]
  | case6 here ss es hes n hfits target hchild =>
      obtain ⟨es', hes'⟩ := h.exists_directory hes
      rw [child?_of_directory hes] at hchild
      rw [follow, hes']
      simp only [if_neg hfits, child?_of_directory hes', h.eq_link hchild]
  | case7 here ss es hes n hfits target hchild links ih =>
      obtain ⟨es', hes'⟩ := h.exists_directory hes
      rw [child?_of_directory hes] at hchild
      rw [follow, hes']
      simp only [if_neg hfits, child?_of_directory hes', h.eq_link hchild]
      exact ih
  | case8 links here ss es hes n hfits x hlink hchild ih =>
      obtain ⟨es', hes'⟩ := h.exists_directory hes
      rw [child?_of_directory hes] at hchild
      obtain ⟨y, hy, ho⟩ := h.exists_eq_some hchild
      rw [follow, hes']
      simp only [if_neg hfits, child?_of_directory hes', hy]
      cases y with
      | link target =>
          cases x with
          | link target' => exact absurd rfl (hlink target')
          | _ => cases ho
      | _ => exact ih
  | case9 links here s ss x hx hdir =>
      obtain ⟨y, hy, ho⟩ := h.exists_eq_some hdir
      rw [follow, hy]
      cases y with
      | directory es =>
          cases x with
          | directory es' => exact absurd rfl (hx es')
          | _ => cases ho
      | _ => rfl
  | case10 links here s ss hnone => rw [follow, h.eq_none hnone]

lemma locate_congr (h : SameShape fs fs') (p : Path) : fs.locate p = fs'.locate p := by
  rw [locate, locate, followPath, followPath, h.workingDirectory, h.follow_congr]

lemma realPlace_congr (h : SameShape fs fs') (p : Path) : fs.realPlace p = fs'.realPlace p := by
  rw [realPlace, realPlace, followPath, followPath, h.workingDirectory, h.follow_congr]

/-- What is told by outlines of the node that a path leads to is the same. -/
lemma map_lookup?_eq {α : Type} (h : SameShape fs fs') {g : Node → α}
    (hg : ∀ x, g x.outline = g x) (p : Path) :
    (fs.lookup? p).map g = (fs'.lookup? p).map g := by
  rw [lookup?, lookup?, h.locate_congr]
  cases fs'.locate p with
  | error e => rfl
  | ok loc => exact h.map_eq hg loc

lemma isThere_congr (h : SameShape fs fs') (p : Path) : fs.isThere p = fs'.isThere p := by
  have hsome := congrArg Option.isSome (h.map_lookup?_eq (g := fun _ => ()) (fun _ => rfl) p)
  rwa [Option.isSome_map, Option.isSome_map] at hsome

lemma isDirectory_congr (h : SameShape fs fs') (p : Path) :
    fs.isDirectory p = fs'.isDirectory p := by
  rw [isDirectory, isDirectory, h.map_lookup?_eq Node.isDirectory_outline]

lemma isDirectoryAt_congr (h : SameShape fs fs') (loc : Location) :
    fs.isDirectoryAt loc = fs'.isDirectoryAt loc := by
  have hmap := h.map_eq Node.isDirectory_outline loc
  rw [isDirectoryAt, isDirectoryAt]
  cases hx : fs.node? loc with
  | none => rw [h.eq_none hx]
  | some x =>
      obtain ⟨y, hy, -⟩ := h.exists_eq_some hx
      rw [hx, hy] at hmap
      rw [hy]
      exact Option.some.inj hmap

/-! ### Walks -/

lemma classify_congr (h : SameShape fs fs') (followLinks : Bool) (start : Path)
    (trail : List FileName) (opened : List OpenDirectory) (loc : Location) :
    fs.classify followLinks start loc trail opened =
      fs'.classify followLinks start loc trail opened := by
  have hlink : fs.classifyLink start trail opened = fs'.classifyLink start trail opened := by
    rw [classifyLink, classifyLink, h.locate_congr]
    cases fs'.locate (start.along trail) with
    | error e => rfl
    | ok place =>
        dsimp only
        cases hx : fs.node? place with
        | none => rw [h.eq_none hx]
        | some x =>
            obtain ⟨y, hy, ho⟩ := h.exists_eq_some hx
            rw [hy]
            cases x <;> cases y <;> first | rfl | cases ho
  rw [classify, classify, hlink]
  cases hx : fs.node? loc with
  | none => rw [h.eq_none hx]
  | some x =>
      obtain ⟨y, hy, ho⟩ := h.exists_eq_some hx
      rw [hy]
      cases x <;> cases y <;> first | rfl | cases ho

lemma visitsBelow_congr (h : SameShape fs fs') (rules : WalkRules) (start : Path) (depth : Nat) :
    fs.visitsBelow rules start depth = fs'.visitsBelow rules start depth := by
  induction depth with
  | zero => rfl
  | succ depth ih =>
      funext d ds
      have hlisting : fs.listing start d = fs'.listing start d := by
        rw [listing, listing, h.locate_congr, h.names_eq]
      have hvisits : fs.visitsAt rules start (fs.visitsBelow rules start depth) d ds =
          fs'.visitsAt rules start (fs'.visitsBelow rules start depth) d ds := by
        funext n
        rw [visitsAt, visitsAt, h.classify_congr, ih]
      rw [visitsBelow, visitsBelow, hlisting, hvisits]

lemma isLink_congr (h : SameShape fs fs') (p : Path) : fs.isLink p = fs'.isLink p := by
  cases hd : p.parent? with
  | none => rw [isLink, isLink, hd]
  | some d =>
      cases hn : p.fileName? with
      | none => rw [isLink, isLink, hd, hn]
      | some n =>
          rw [isLink_eq fs hd hn, isLink_eq fs' hd hn, h.locate_congr]
          cases fs'.locate d with
          | error e => rfl
          | ok loc => exact congrArg (Option.getD · false) (h.map_eq Node.isLink_outline _)

/-- A walk comes by the same. -/
lemma visits_congr (h : SameShape fs fs') (rules : WalkRules) (start : Path) (place : Location) :
    fs.visits rules start place = fs'.visits rules start place := by
  rw [visits, visits, h.visitsBelow_congr, h.isLink_congr]

end SameShape

/-! ### One file -/

/-- Whether two file systems are the same but for the bytes of the file at a
place. -/
structure DiffersOnlyAt (f : Location) (fs fs' : FileSystem) : Prop where
  workingDirectory : fs.workingDirectory = fs'.workingDirectory
  isFile : ∃ a b, fs.node? f = some (.file a) ∧ fs'.node? f = some (.file b)
  elsewhere : ∀ loc, loc ≠ f → (fs.node? loc).map Node.face = (fs'.node? loc).map Node.face

namespace DiffersOnlyAt

variable {fs fs' : FileSystem} {f : Location} {p : Path}

lemma sameShape (h : DiffersOnlyAt f fs fs') : SameShape fs fs' := by
  refine ⟨h.workingDirectory, fun loc => ?_⟩
  by_cases hloc : loc = f
  · obtain ⟨a, b, ha, hb⟩ := h.isFile
    rw [hloc, ha, hb]
    rfl
  · have hface := congrArg (Option.map Node.outline) (h.elsewhere loc hloc)
    rw [Option.map_map, Option.map_map] at hface
    simpa [Function.comp_def] using hface

/-- Every path that does not lead to the file reads the same. -/
lemma read_congr (h : DiffersOnlyAt f fs fs') (hp : fs.locate p ≠ .ok f) :
    fs.read p = fs'.read p := by
  rw [read, read, ← h.sameShape.locate_congr]
  cases hloc : fs.locate p with
  | error e => rfl
  | ok loc =>
      have hface := h.elsewhere loc fun heq => hp (by rw [hloc, heq])
      dsimp only
      cases hx : fs.node? loc with
      | none => rw [h.sameShape.eq_none hx]
      | some x =>
          obtain ⟨y, hy, -⟩ := h.sameShape.exists_eq_some hx
          rw [hx, hy] at hface
          rw [hy]
          cases x <;> cases y <;> cases hface <;> rfl

end DiffersOnlyAt

end FileSystem

/-! ### Writing over a file -/

section Put

variable {d : Node} {n m : FileName} {x y : Node} {es : List (FileName × Node)}

lemma Node.child?_bindName_self (hn : n.isStorable = true) :
    (Node.directory (bindName n x es)).child? n = some x := by
  simp [child?, entries, bindName, hn]

/-- Binding a name leaves the others alone. -/
lemma Node.child?_bindName_of_ne (h : m ≠ n) :
    (Node.directory (bindName n x d.entries)).child? m = d.child? m := by
  have hstored : ∀ e ∈ d.entries, e.1.isStorable = true := by
    intro e he
    cases d with
    | directory es => exact (List.mem_filter.mp he).2
    | _ => cases he
  have hrest : ((d.entries.filter fun e => e.1 ≠ n).filter fun e => e.1.isStorable) =
      d.entries.filter fun e => e.1 ≠ n :=
    List.filter_eq_self.mpr fun e he => hstored e (List.mem_filter.mp he).1
  have hfind : ((d.entries.filter fun e => e.1 ≠ n).find? fun e => e.1 = m) =
      d.entries.find? fun e => e.1 = m := by
    rw [List.find?_filter]
    refine congrFun (congrArg List.find? (funext fun e => ?_)) _
    by_cases he : e.1 = m
    · simp [he, h]
    · simp [he]
  rw [child?, child?, ← hfind, ← hrest, entries, bindName]
  cases hn : n.isStorable <;> simp [hn, h.symm]

/-- Writing over a file changes no face but its own. -/
lemma Node.face_descend?_put {f loc : Location} {a b : ByteArray}
    (h : d.descend? f = some (.file a)) (hloc : loc ≠ f) :
    ((put (.file b) f d).descend? loc).map Node.face = (d.descend? loc).map Node.face := by
  induction f generalizing d loc with
  | nil =>
      cases h
      cases loc with
      | nil => exact absurd rfl hloc
      | cons m loc => rfl
  | cons n f ih =>
      obtain ⟨y, hy, hf⟩ := Option.bind_eq_some_iff.mp h
      obtain ⟨es, rfl⟩ := exists_directory_of_child? hy
      rw [put, hy, Option.getD_some]
      cases loc with
      | nil => rfl
      | cons m loc =>
          rw [descend?, descend?]
          by_cases hm : m = n
          · subst hm
            rw [child?_bindName_self (isStorable_of_child? hy), hy]
            exact ih hf fun heq => hloc (by rw [heq])
          · rw [child?_bindName_of_ne hm]

lemma Node.descend?_put_self {f : Location} {a b : ByteArray}
    (h : d.descend? f = some (.file a)) :
    (put (.file b) f d).descend? f = some (.file b) := by
  induction f generalizing d with
  | nil => rfl
  | cons n f ih =>
      obtain ⟨y, hy, hf⟩ := Option.bind_eq_some_iff.mp h
      rw [put, hy, Option.getD_some, descend?, child?_bindName_self (isStorable_of_child? hy)]
      exact ih hf

/-- The bindings of a directory make up the directory, once more. -/
lemma Node.descend?_directory_entries {loc : Location} (hloc : loc ≠ []) (d : Node) :
    (Node.directory d.entries).descend? loc = d.descend? loc := by
  cases loc with
  | nil => exact absurd rfl hloc
  | cons n loc =>
      have hchild : (Node.directory d.entries).child? n = d.child? n := by
        cases d <;> simp [child?, entries]
      rw [descend?, descend?, hchild]

/-- **Writing over a file** makes a file system that differs in it only. -/
lemma FileSystem.differsOnlyAt_put {fs : FileSystem} {f : Location} {a b : ByteArray}
    (h : fs.node? f = some (.file a)) : DiffersOnlyAt f fs (fs.put f (.file b)) := by
  have hf : f ≠ [] := by
    rintro rfl
    cases h
  refine ⟨rfl, ⟨a, b, h, ?_⟩, fun loc hloc => ?_⟩
  · exact (Node.descend?_directory_entries hf _).trans (Node.descend?_put_self h)
  · by_cases hnil : loc = []
    · subst hnil
      rfl
    · rw [node?, node?, put, Node.descend?_directory_entries hnil]
      exact (Node.face_descend?_put h hloc).symm

end Put

end DocLint
