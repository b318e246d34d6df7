/-
Looking places up, and what a directory lists.

* `node?_concat`: a place below another is a binding of the node there, so only
  directories have anything below them (`exists_directory_of_node?_concat`) and
  every name on the way is storable (`isStorable_of_node?`).
* `mem_names`: a directory lists exactly the names it binds;
  `pairwise_names`: each once and in order.
* `exists_places`: the places of a file system are finitely many.
-/
import Mathlib.Data.List.Basic
import Mathlib.Data.List.Nodup
import Mathlib.Tactic.Common
import DocLint.FileSystem.Basic

namespace DocLint

/-! ### Listings -/

/-- Lists in a strict order are equal if they have the same members. -/
lemma eq_of_pairwise_of_mem_iff {α : Type} {r : α → α → Prop} (hirrefl : ∀ a, ¬ r a a)
    (htrans : ∀ a b c, r a b → r b c → r a c) {l m : List α} (hl : l.Pairwise r)
    (hm : m.Pairwise r) (h : ∀ a, a ∈ l ↔ a ∈ m) : l = m := by
  have hne : ∀ {a b}, r a b → a ≠ b := by
    rintro a b hab rfl
    exact hirrefl a hab
  have hnodup : ∀ {l : List α}, l.Pairwise r → l.Nodup := fun hl => hl.imp hne
  have hperm : l.Perm m := (List.perm_ext_iff_of_nodup (hnodup hl) (hnodup hm)).mpr h
  exact hperm.eq_of_pairwise
    (fun a b _ _ hab hba => absurd (htrans a b a hab hba) (hirrefl a)) hl hm

lemma mem_insertName {n m : FileName} {ns : List FileName} :
    m ∈ insertName n ns ↔ m = n ∨ m ∈ ns := by
  induction ns with
  | nil => simp [insertName]
  | cons k ns ih =>
      rw [insertName]
      split_ifs with hlt heq
      · rw [List.mem_cons]
      · subst heq
        simp
      · rw [List.mem_cons, ih, List.mem_cons, or_left_comm]

lemma FileName.lt_irrefl (n : FileName) : ¬ n < n :=
  List.lt_irrefl (α := UInt8) n.bytes

lemma FileName.lt_trans {n m k : FileName} (h : n < m) (h' : m < k) : n < k :=
  List.lt_trans (α := UInt8) h h'

lemma FileName.eq_of_not_lt {n m : FileName} (h : ¬ n < m) (h' : ¬ m < n) : n = m := by
  have hb : n.bytes = m.bytes := List.le_antisymm h' h
  cases n
  cases m
  simpa using hb

lemma pairwise_insertName (n : FileName) {ns : List FileName} (h : ns.Pairwise (· < ·)) :
    (insertName n ns).Pairwise (· < ·) := by
  induction ns with
  | nil => simp [insertName]
  | cons k ns ih =>
      rw [List.pairwise_cons] at h
      rw [insertName]
      split_ifs with hlt heq
      · refine List.pairwise_cons.mpr ⟨fun m hm => ?_, List.pairwise_cons.mpr h⟩
        rcases List.mem_cons.mp hm with rfl | hm
        · exact hlt
        · exact FileName.lt_trans hlt (h.1 m hm)
      · exact List.pairwise_cons.mpr h
      · refine List.pairwise_cons.mpr ⟨fun m hm => ?_, ih h.2⟩
        rcases mem_insertName.mp hm with rfl | hm
        · by_contra hkm
          exact heq (FileName.eq_of_not_lt hlt hkm)
        · exact h.1 m hm

lemma mem_sortedNames {n : FileName} {es : List (FileName × Node)} :
    n ∈ sortedNames es ↔ ∃ e ∈ es, e.1 = n := by
  induction es with
  | nil => simp [sortedNames]
  | cons e es ih =>
      rw [sortedNames, List.foldr_cons, mem_insertName, ← sortedNames, ih]
      simp [eq_comm]

/-- A listing is in order and has no name twice. -/
lemma pairwise_sortedNames (es : List (FileName × Node)) :
    (sortedNames es).Pairwise (· < ·) := by
  induction es with
  | nil => exact .nil
  | cons e es ih => exact pairwise_insertName e.1 ih

/-! ### Nodes -/

namespace Node

lemma isSome_child? {d : Node} {n : FileName} :
    (d.child? n).isSome = true ↔ ∃ e ∈ d.entries, e.1 = n := by
  rw [child?, Option.isSome_map, List.find?_isSome]
  simp

/-- The first binding of a name counts. -/
lemma child?_cons_self {n : FileName} (h : n.isStorable = true) (x : Node)
    (es : List (FileName × Node)) : (directory ((n, x) :: es)).child? n = some x := by
  rw [child?, entries, List.filter_cons, if_pos h, List.find?_cons_of_pos (by simp),
    Option.map_some]

lemma child?_cons_of_ne {m n : FileName} (h : m ≠ n) (x : Node) (es : List (FileName × Node)) :
    (directory ((m, x) :: es)).child? n = (directory es).child? n := by
  rw [child?, child?, entries, entries, List.filter_cons]
  split_ifs
  · rw [List.find?_cons_of_neg (by simpa using h)]
  · rfl

/-- Only a directory binds names. -/
lemma exists_directory_of_child? {d x : Node} {n : FileName} (h : d.child? n = some x) :
    ∃ es, d = .directory es := by
  cases d with
  | directory es => exact ⟨es, rfl⟩
  | _ => simp [child?, entries] at h

/-- A name that is bound can be stored. -/
lemma isStorable_of_child? {d x : Node} {n : FileName} (h : d.child? n = some x) :
    n.isStorable = true := by
  obtain ⟨es, rfl⟩ := exists_directory_of_child? h
  obtain ⟨e, he, rfl⟩ := isSome_child?.mp (Option.isSome_of_mem h)
  exact (List.mem_filter.mp he).2

lemma descend?_append (d : Node) (l m : Location) :
    d.descend? (l ++ m) = (d.descend? l).bind (·.descend? m) := by
  induction l generalizing d with
  | nil => rfl
  | cons n l ih =>
      rw [List.cons_append, descend?, descend?, Option.bind_assoc]
      exact congrArg _ (funext fun x => ih x)

@[simp] lemma descend?_singleton (d : Node) (n : FileName) : d.descend? [n] = d.child? n := by
  cases h : d.child? n <;> simp [descend?, h]

/-- The induction principle of the nested inductive: what is inherited from the
bindings of a directory holds of every node. -/
@[elab_as_elim]
theorem ind {P : Node → Prop} (file : ∀ content, P (.file content))
    (directory : ∀ es, (∀ e ∈ es, P e.2) → P (.directory es))
    (link : ∀ target, P (.link target)) (socket : P .socket) (d : Node) : P d :=
  @Node.rec P (fun es => ∀ e ∈ es, P e.2) (fun e => P e.2)
    file directory link socket (fun _ he => absurd he List.not_mem_nil)
    (fun _ _ first rest => List.forall_mem_cons.mpr ⟨first, rest⟩) (fun _ _ second => second) d

/-- A node has finitely many places below it. -/
lemma exists_descents (d : Node) : ∃ L : List Location, ∀ l x, d.descend? l = some x → l ∈ L := by
  have hleaf : ∀ d : Node, d.entries = [] →
      ∃ L : List Location, ∀ l x, d.descend? l = some x → l ∈ L := by
    refine fun d hd => ⟨[[]], fun l x hl => ?_⟩
    cases l with
    | nil => exact List.mem_singleton_self _
    | cons n l => simp [descend?, child?, hd] at hl
  induction d using ind with
  | file content => exact hleaf _ rfl
  | link target => exact hleaf _ rfl
  | socket => exact hleaf _ rfl
  | directory es ih =>
      choose! L hL using ih
      refine ⟨[] :: es.flatMap fun e => (L e).map (e.1 :: ·), fun l x hl => ?_⟩
      cases l with
      | nil => exact List.mem_cons_self
      | cons n l =>
          obtain ⟨y, hy, hbelow⟩ := Option.bind_eq_some_iff.mp hl
          rw [child?] at hy
          obtain ⟨e, he, rfl⟩ := Option.map_eq_some_iff.mp hy
          have hn : e.1 = n := by simpa using List.find?_some he
          have hmem : e ∈ es := (List.mem_filter.mp (List.mem_of_find?_eq_some he)).1
          subst hn
          refine List.mem_cons_of_mem _ (List.mem_flatMap.mpr ⟨e, hmem, ?_⟩)
          exact List.mem_map.mpr ⟨l, hL e hmem l x hbelow, rfl⟩

end Node

/-! ### Places -/

namespace FileSystem

variable {fs : FileSystem} {loc : Location} {n : FileName} {x : Node}

lemma node?_append (fs : FileSystem) (l m : Location) :
    fs.node? (l ++ m) = (fs.node? l).bind (·.descend? m) :=
  Node.descend?_append _ l m

lemma node?_concat (fs : FileSystem) (loc : Location) (n : FileName) :
    fs.node? (loc ++ [n]) = (fs.node? loc).bind (·.child? n) := by
  rw [node?_append]
  exact congrArg _ (funext fun d => Node.descend?_singleton d n)

lemma node?_nil (fs : FileSystem) : fs.node? [] = some (.directory fs.top) := rfl

/-- Below the first entry of the top there is what that entry holds. -/
lemma node?_cons_self {w : Location} (h : n.isStorable = true) (x : Node)
    (es : List (FileName × Node)) (loc : Location) :
    (FileSystem.mk ((n, x) :: es) w).node? (n :: loc) = x.descend? loc := by
  rw [node?, Node.descend?, Node.child?_cons_self h, Option.bind_some]

lemma node?_cons_of_ne {m : FileName} {w : Location} (h : m ≠ n) (x : Node)
    (es : List (FileName × Node)) (loc : Location) :
    (FileSystem.mk ((m, x) :: es) w).node? (n :: loc) = (FileSystem.mk es w).node? (n :: loc) := by
  rw [node?, node?, Node.descend?, Node.descend?, Node.child?_cons_of_ne h]

/-- What has something below it is a directory. -/
lemma exists_directory_of_node?_concat (h : fs.node? (loc ++ [n]) = some x) :
    ∃ es, fs.node? loc = some (.directory es) := by
  rw [node?_concat] at h
  obtain ⟨d, hd, hx⟩ := Option.bind_eq_some_iff.mp h
  obtain ⟨es, rfl⟩ := Node.exists_directory_of_child? hx
  exact ⟨es, hd⟩

lemma exists_directory_of_node?_append {m : Location} (hm : m ≠ [])
    (h : fs.node? (loc ++ m) = some x) : ∃ es, fs.node? loc = some (.directory es) := by
  obtain ⟨n, m, rfl⟩ := List.exists_cons_of_ne_nil hm
  rw [← List.singleton_append, ← List.append_assoc, node?_append] at h
  obtain ⟨y, hy, -⟩ := Option.bind_eq_some_iff.mp h
  exact exists_directory_of_node?_concat hy

/-- So the way to anything leads through directories. -/
lemma exists_directory_of_prefix {s t : Location} (h : fs.node? (loc ++ t) = some x)
    (hs : s <+: t) (hne : s ≠ t) : ∃ es, fs.node? (loc ++ s) = some (.directory es) := by
  obtain ⟨m, rfl⟩ := hs
  have hm : m ≠ [] := fun h0 => hne (by rw [h0, List.append_nil])
  rw [← List.append_assoc] at h
  exact exists_directory_of_node?_append hm h

lemma child?_of_directory {es : List (FileName × Node)} (h : fs.node? loc = some (.directory es))
    (n : FileName) : (Node.directory es).child? n = fs.node? (loc ++ [n]) := by
  rw [node?_concat, h, Option.bind_some]

lemma isStorable_of_node?_concat (h : fs.node? (loc ++ [n]) = some x) : n.isStorable = true := by
  rw [node?_concat] at h
  obtain ⟨d, -, hx⟩ := Option.bind_eq_some_iff.mp h
  exact Node.isStorable_of_child? hx

/-- Every name on the way to a node is storable. -/
lemma isStorable_of_node? (h : fs.node? loc = some x) : ∀ n ∈ loc, n.isStorable = true := by
  intro n hn
  obtain ⟨l, m, rfl⟩ := List.append_of_mem hn
  rw [← List.singleton_append, ← List.append_assoc, node?_append] at h
  obtain ⟨y, hy, -⟩ := Option.bind_eq_some_iff.mp h
  exact isStorable_of_node?_concat hy

/-- A directory lists the names that it binds. -/
lemma mem_names : n ∈ fs.names loc ↔ (fs.node? (loc ++ [n])).isSome = true := by
  rw [names, mem_sortedNames, node?_concat]
  cases fs.node? loc with
  | none => simp [Node.entries]
  | some d => rw [Option.getD_some, Option.bind_some, Node.isSome_child?]

lemma pairwise_names (fs : FileSystem) (loc : Location) : (fs.names loc).Pairwise (· < ·) :=
  pairwise_sortedNames _

/-- A file system has finitely many places. -/
lemma exists_places (fs : FileSystem) :
    ∃ L : List Location, ∀ loc x, fs.node? loc = some x → loc ∈ L :=
  Node.exists_descents (.directory fs.top)

end FileSystem

end DocLint
