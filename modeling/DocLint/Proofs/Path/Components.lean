/-
Paths that are written from names: what their components and their steps read
back as, and how long they are.

* `components_ofNames`, `components_ofRelativeNames`: writing names as a path and
  reading its components gives the names back.
* `steps_ofNames`: the steps of such a path go down one name after another.
* `bytes_ofNames_of_ne_nil`: each name is written with a slash in front of it, so
  more names make a longer path.
* `key_injective`: paths have the same place in the order only if they have the
  same components; `key_ofRelativeNames_lt`: below one directory the first name
  that differs decides.
* `collapse_current`, `collapse_name_eq_cons`, `collapse_root`: what a component adds to
  those before it; `exists_normal_eq_ofNames`: an absolute path in normal form is written from
  names, so `along_ofNames` holds for every start that is normal.
* `join_ofRelativeNames`, `below?_ofNames`: names behind a path are joined to it,
  and they are what the longer path has below the shorter one.
-/
import Mathlib.Data.List.Basic
import Mathlib.Tactic.Common
import DocLint.Path.Normal
import DocLint.FileSystem.Walk

namespace DocLint

lemma FileName.slash_notMem_bytes (n : FileName) : slash ∉ n.bytes := n.valid.2.2.2

lemma FileName.bytes_ne_nil (n : FileName) : n.bytes ≠ [] := n.valid.1

lemma FileName.bytes_ne_dot (n : FileName) : n.bytes ≠ [dot] := n.valid.2.1

@[simp] lemma Component.ofPiece?_bytes (n : FileName) :
    Component.ofPiece? n.bytes = some (.name n) := by
  rw [Component.ofPiece?, dif_pos n.valid]

@[simp] lemma Component.ofPiece?_nil : Component.ofPiece? [] = none := by decide

@[simp] lemma Path.Step.ofPiece_bytes (n : FileName) : Path.Step.ofPiece n.bytes = .down n := by
  rw [Path.Step.ofPiece, Component.ofPiece?_bytes]

@[simp] lemma Path.Step.ofPiece_nil : Path.Step.ofPiece [] = .stay := by decide

lemma Component.key_injective : Function.Injective Component.key := by
  intro c d h
  cases c with
  | name n =>
      cases d with
      | name m =>
          have hb : n.bytes = m.bytes :=
            List.map_injective_iff.mpr (fun a b hab => UInt8.toNat_inj.mp hab) (List.cons.inj h).2
          cases n
          cases m
          exact congrArg _ (by simpa using hb)
      | _ => simp [Component.key] at h
  | _ => cases d <;> simp_all [Component.key]

namespace Path

/-! ### Reading names back -/

/-- The stretches of a relative path are the names it is written from. -/
lemma pieces_glue_names {ns : List FileName} (h : ns ≠ []) :
    Text.pieces slash (Text.glue slash (ns.map FileName.bytes)) = ns.map FileName.bytes := by
  refine Text.pieces_glue (by simpa using h) fun p hp => ?_
  obtain ⟨n, _, rfl⟩ := List.mem_map.mp hp
  exact n.slash_notMem_bytes

lemma bytes_ofNames (ns : List FileName) :
    (ofNames ns).bytes = slash :: Text.glue slash (ns.map FileName.bytes) := by
  rw [ofNames, ofComponents, List.map_map]
  rfl

lemma bytes_ofRelativeNames (ns : List FileName) :
    (ofRelativeNames ns).bytes = Text.glue slash (ns.map FileName.bytes) := by
  cases ns with
  | nil => rfl
  | cons n ns => simp [ofRelativeNames, ofComponents, Function.comp_def, Component.bytes]

lemma pieces_ofNames {ns : List FileName} (h : ns ≠ []) :
    (ofNames ns).pieces = [] :: ns.map FileName.bytes := by
  rw [pieces, bytes_ofNames, Text.pieces_cons, if_pos rfl, pieces_glue_names h]

lemma pieces_ofNames_nil : (ofNames []).pieces = [[], []] := by decide

lemma filterMap_ofPiece?_bytes (ns : List FileName) :
    (ns.map FileName.bytes).filterMap Component.ofPiece? = ns.map .name := by
  rw [List.filterMap_map, ← List.filterMap_eq_map]
  exact List.filterMap_congr fun n _ => Component.ofPiece?_bytes n

@[simp] lemma isAbsolute_ofNames (ns : List FileName) : (ofNames ns).isAbsolute = true := by
  rw [isAbsolute, bytes_ofNames]
  rfl

/-- The components of an absolute path that is written from names. -/
@[simp] lemma components_ofNames (ns : List FileName) :
    (ofNames ns).components = .root :: ns.map .name := by
  rw [components, front, if_pos (isAbsolute_ofNames ns)]
  cases ns with
  | nil => rw [pieces_ofNames_nil]; rfl
  | cons n ns =>
      rw [pieces_ofNames (List.cons_ne_nil n ns), List.filterMap_cons, Component.ofPiece?_nil,
        filterMap_ofPiece?_bytes]
      rfl

/-- A relative path that is written from names is no absolute one. -/
@[simp] lemma isAbsolute_ofRelativeNames (ns : List FileName) :
    (ofRelativeNames ns).isAbsolute = false := by
  rw [isAbsolute, bytes_ofRelativeNames]
  cases ns with
  | nil => rfl
  | cons n ns =>
      have hslash : n.bytes.head? ≠ some slash := fun h =>
        n.slash_notMem_bytes (List.mem_of_mem_head? h)
      obtain ⟨b, bs, hb⟩ := List.exists_cons_of_ne_nil n.bytes_ne_nil
      rw [List.map_cons]
      rw [hb] at hslash ⊢
      cases ns <;> simpa [Text.glue] using hslash

/-- The components of a relative path that is written from names. -/
@[simp] lemma components_ofRelativeNames (ns : List FileName) :
    (ofRelativeNames ns).components = ns.map .name := by
  cases ns with
  | nil => decide
  | cons n ns =>
      have hp : (ofRelativeNames (n :: ns)).pieces = (n :: ns).map FileName.bytes := by
        rw [pieces, bytes_ofRelativeNames, pieces_glue_names (List.cons_ne_nil n ns)]
      have hf : (ofRelativeNames (n :: ns)).front = [] := by
        rw [front, isAbsolute_ofRelativeNames, hp]
        simp [n.bytes_ne_dot]
      rw [components, hf, hp, filterMap_ofPiece?_bytes, List.nil_append]

@[simp] lemma names_ofRelativeNames (ns : List FileName) : (ofRelativeNames ns).names = ns := by
  rw [names, components_ofRelativeNames, List.filterMap_map]
  exact List.filterMap_some

/-- The steps of an absolute path that is written from names; the one in front
stands for the slash. -/
lemma steps_ofNames {ns : List FileName} (h : ns ≠ []) :
    (ofNames ns).steps = .stay :: ns.map .down := by
  rw [steps, pieces_ofNames h, List.map_cons, List.map_map, Step.ofPiece_nil]
  exact congrArg _ (List.map_congr_left fun n _ => Step.ofPiece_bytes n)

lemma steps_ofNames_nil : (ofNames []).steps = [.stay, .stay] := by decide

lemma steps_ofRelativeNames {ns : List FileName} (h : ns ≠ []) :
    (ofRelativeNames ns).steps = ns.map .down := by
  rw [steps, pieces, bytes_ofRelativeNames, pieces_glue_names h, List.map_map]
  exact List.map_congr_left fun n _ => Step.ofPiece_bytes n

/-! ### Lengths and bytes -/

/-- With a separator in front of them, pieces that are glued have one each. -/
lemma cons_glue (sep : UInt8) {ps : List (List UInt8)} (h : ps ≠ []) :
    sep :: Text.glue sep ps = ps.flatMap fun p => sep :: p := by
  induction ps with
  | nil => exact absurd rfl h
  | cons p ps ih =>
      cases ps with
      | nil => rw [Text.glue, List.flatMap_cons, List.flatMap_nil, List.append_nil]
      | cons q qs =>
          rw [List.flatMap_cons, ← ih (List.cons_ne_nil q qs), Text.glue, List.cons_append]
          exact List.cons_ne_nil q qs

/-- Each name comes with the slash in front of it. -/
lemma bytes_ofNames_of_ne_nil {ns : List FileName} (h : ns ≠ []) :
    (ofNames ns).bytes = ns.flatMap fun n => slash :: n.bytes := by
  rw [bytes_ofNames, cons_glue slash (List.map_eq_nil_iff.not.mpr h), List.flatMap_map]

lemma length_ofNames_nil : (ofNames []).bytes.length = 1 := by decide

/-- More names make a path longer. -/
lemma length_ofNames_append_le (ns ms : List FileName) :
    (ofNames ns).bytes.length ≤ (ofNames (ns ++ ms)).bytes.length := by
  cases ns with
  | nil =>
      rw [List.nil_append, length_ofNames_nil, bytes_ofNames, List.length_cons]
      omega
  | cons n ns =>
      rw [List.cons_append, bytes_ofNames_of_ne_nil (List.cons_ne_nil n ns),
        bytes_ofNames_of_ne_nil (List.cons_ne_nil n (ns ++ ms)), ← List.cons_append,
        List.flatMap_append, List.length_append]
      omega

lemma isShort_of_append {ns ms : List FileName} (h : (ofNames (ns ++ ms)).isShort = true) :
    (ofNames ns).isShort = true := by
  have := length_ofNames_append_le ns ms
  simp only [isShort, decide_eq_true_eq] at h ⊢
  omega

/-- A byte other than the slash comes from one of the names. -/
lemma mem_bytes_ofNames {a : UInt8} (ha : a ≠ slash) (ns : List FileName) :
    a ∈ (ofNames ns).bytes ↔ ∃ n ∈ ns, a ∈ n.bytes := by
  cases ns with
  | nil => simp [bytes_ofNames, Text.glue, ha]
  | cons n ns =>
      rw [bytes_ofNames_of_ne_nil (List.cons_ne_nil n ns), List.mem_flatMap]
      simp only [List.mem_cons, ha, false_or]

lemma ofNames_bytes_ne_nil (ns : List FileName) : (ofNames ns).bytes ≠ [] := by
  rw [bytes_ofNames]
  exact List.cons_ne_nil _ _

/-! ### The order of paths -/

/-- Two paths have the same place in the order of paths exactly if they are the
same. -/
lemma key_eq_key_iff {p q : Path} : p.key = q.key ↔ p.Same q :=
  (List.map_injective_iff.mpr Component.key_injective).eq_iff

@[simp] lemma key_ofRelativeNames (ns : List FileName) :
    (ofRelativeNames ns).key = ns.map fun n => (Component.name n).key := by
  rw [key, components_ofRelativeNames, List.map_map]
  rfl

lemma key_name_lt {n m : FileName} (h : n < m) :
    (Component.name n).key < (Component.name m).key := by
  rw [Component.key, Component.key, List.cons_lt_cons_iff]
  exact Or.inr ⟨rfl, List.map_lt (fun a b hab => UInt8.lt_iff_toNat_lt.mp hab) h⟩

/-- Below one directory the first name that differs decides. -/
lemma key_ofRelativeNames_lt {t u v : List FileName} {n m : FileName} (h : n < m) :
    (ofRelativeNames (t ++ n :: u)).key < (ofRelativeNames (t ++ m :: v)).key := by
  rw [key_ofRelativeNames, key_ofRelativeNames, List.map_append, List.map_append]
  refine List.append_left_lt ?_
  rw [List.map_cons, List.map_cons, List.cons_lt_cons_iff]
  exact Or.inl (key_name_lt h)

/-! ### Normal starts -/

lemma collapse_current (out : List Component) : collapse out .current = out := by
  rw [collapse]

lemma collapse_name_eq_cons (out : List Component) (n : FileName) :
    collapse out (.name n) = .name n :: out := by
  cases out <;> rfl

lemma collapse_root (out : List Component) : collapse out .root = .root :: out := by
  cases out <;> rfl

/-- A component other than the root keeps a rooted stack of names one. -/
lemma exists_collapse_eq (ns : List FileName) {c : Component} (h : c ≠ .root) :
    ∃ ms : List FileName, collapse (ns.map .name ++ [.root]) c = ms.map .name ++ [.root] := by
  cases c with
  | root => exact absurd rfl h
  | current => exact ⟨ns, collapse_current _⟩
  | name n => exact ⟨n :: ns, collapse_name_eq_cons _ n⟩
  | parent =>
      cases ns with
      | nil => exact ⟨[], rfl⟩
      | cons n ns => exact ⟨ns, rfl⟩

lemma exists_foldl_collapse_eq (cs : List Component) (h : .root ∉ cs) (ns : List FileName) :
    ∃ ms : List FileName,
      cs.foldl collapse (ns.map .name ++ [.root]) = ms.map .name ++ [.root] := by
  refine List.foldlRecOn cs collapse (motive := fun out => ∃ ms : List FileName,
    out = ms.map .name ++ [.root]) ⟨ns, rfl⟩ ?_
  rintro _ ⟨ms, rfl⟩ c hc
  exact exists_collapse_eq ms (ne_of_mem_of_not_mem hc h)

lemma root_notMem_filterMap_ofPiece? (ps : List (List UInt8)) :
    Component.root ∉ ps.filterMap Component.ofPiece? := by
  intro h
  obtain ⟨p, _, hp⟩ := List.mem_filterMap.mp h
  rw [Component.ofPiece?] at hp
  split at hp
  · cases hp
  · split at hp <;> cases hp

/-- What is left of an absolute path are the root and names. -/
lemma exists_normalComponents_eq {p : Path} (h : p.isAbsolute = true) :
    ∃ ns : List FileName, p.normalComponents = .root :: ns.map .name := by
  obtain ⟨ms, hms⟩ := exists_foldl_collapse_eq _ (root_notMem_filterMap_ofPiece? p.pieces) []
  refine ⟨ms.reverse, ?_⟩
  rw [normalComponents, components, front, if_pos h, List.singleton_append, List.foldl_cons]
  rw [List.map_nil, List.nil_append] at hms
  rw [collapse_root, hms]
  simp

lemma normal_of_normalComponents {p : Path} {ns : List FileName}
    (h : p.normalComponents = .root :: ns.map .name) : p.normal = ofNames ns := by
  rw [normal, h, ofNames]

/-- The normal form of an absolute path is written from names. -/
lemma exists_normal_eq_ofNames {p : Path} (h : p.isAbsolute = true) :
    ∃ ns, p.normal = ofNames ns := by
  obtain ⟨ns, hns⟩ := exists_normalComponents_eq h
  exact ⟨ns, normal_of_normalComponents hns⟩

/-- Names alone are not taken away again. -/
lemma foldl_collapse_names (ns : List FileName) (out : List Component) :
    (ns.map Component.name).foldl collapse out = (ns.map Component.name).reverse ++ out := by
  induction ns generalizing out with
  | nil => rfl
  | cons n ns ih =>
      rw [List.map_cons, List.foldl_cons, collapse_name_eq_cons, ih, List.reverse_cons,
        List.append_assoc]
      rfl

lemma normal_ofNames (ns : List FileName) : (ofNames ns).normal = ofNames ns := by
  refine normal_of_normalComponents ?_
  rw [normalComponents, components_ofNames, List.foldl_cons, collapse_root, foldl_collapse_names]
  simp

lemma fileName?_ofNames_concat (ns : List FileName) (n : FileName) :
    (ofNames (ns ++ [n])).fileName? = some n := by
  rw [fileName?, components_ofNames, List.map_append, ← List.cons_append, List.map_singleton,
    List.getLast?_concat]

lemma parent?_ofNames_concat (ns : List FileName) (n : FileName) :
    (ofNames (ns ++ [n])).parent? = some (ofNames ns) := by
  rw [parent?, components_ofNames, List.map_append, ← List.cons_append, List.map_singleton,
    List.getLast?_concat]
  dsimp only
  rw [List.dropLast_concat, ofNames]

lemma isAbsolute_join {p q : Path} (h : p.isAbsolute = true) : (p.join q).isAbsolute = true := by
  rw [join]
  have hne : p.bytes ≠ [] := fun hp => by simp [isAbsolute, hp] at h
  obtain ⟨b, bs, hb⟩ := List.exists_cons_of_ne_nil hne
  rw [isAbsolute, hb] at h
  split
  · assumption
  · split <;> simpa [isAbsolute, hb] using h

/-- Relative names are written like absolute ones, without the slash in front. -/
lemma cons_bytes_ofRelativeNames {t : List FileName} (ht : t ≠ []) :
    slash :: (ofRelativeNames t).bytes = t.flatMap fun n => slash :: n.bytes := by
  rw [bytes_ofRelativeNames, ← bytes_ofNames, bytes_ofNames_of_ne_nil ht]

lemma join_ofRelativeNames_of_ne_nil {ns t : List FileName} (hns : ns ≠ []) (ht : t ≠ []) :
    (ofNames ns).join (ofRelativeNames t) = ofNames (ns ++ t) := by
  have hlast : (ofNames ns).bytes.getLast? ≠ some slash := by
    obtain ⟨init, m, rfl⟩ := (List.eq_nil_or_concat' ns).resolve_left hns
    rw [bytes_ofNames_of_ne_nil hns, List.flatMap_append, List.flatMap_singleton,
      List.getLast?_append_cons, List.getLast?_cons_of_ne_nil m.bytes_ne_nil]
    exact fun hslash => m.slash_notMem_bytes (List.mem_of_getLast? hslash)
  have hbytes : (ofNames (ns ++ t)).bytes =
      (ofNames ns).bytes ++ slash :: (ofRelativeNames t).bytes := by
    rw [bytes_ofNames_of_ne_nil (List.append_ne_nil_of_left_ne_nil hns t),
      bytes_ofNames_of_ne_nil hns, List.flatMap_append, cons_bytes_ofRelativeNames ht]
  rw [join, isAbsolute_ofRelativeNames, if_neg Bool.false_ne_true,
    if_neg (not_or.mpr ⟨ofNames_bytes_ne_nil ns, hlast⟩), ← hbytes]

/-- A relative path behind an absolute one is written with all the names. -/
lemma join_ofRelativeNames (ns : List FileName) {t : List FileName} (ht : t ≠ []) :
    (ofNames ns).join (ofRelativeNames t) = ofNames (ns ++ t) := by
  by_cases hns : ns = []
  · subst hns
    have htop : (ofNames []).bytes = [slash] := rfl
    have hlast : [slash].getLast? = some slash := rfl
    rw [join, isAbsolute_ofRelativeNames, if_neg Bool.false_ne_true, htop,
      if_pos (Or.inr hlast), List.singleton_append, cons_bytes_ofRelativeNames ht,
      List.nil_append, ← bytes_ofNames_of_ne_nil ht]
  · exact join_ofRelativeNames_of_ne_nil hns ht

/-- A name behind a path that is written from names. -/
lemma join_ofNames {ns : List FileName} (h : ns ≠ []) (n : FileName) :
    (ofNames ns).join ⟨n.bytes⟩ = ofNames (ns ++ [n]) :=
  join_ofRelativeNames_of_ne_nil h (List.cons_ne_nil n [])

/-- Names below a normal start. -/
@[simp] lemma along_ofNames (ns trail : List FileName) :
    (ofNames ns).along trail = ofNames (ns ++ trail) := by
  rw [along, components_ofNames, List.cons_append, ← List.map_append, ofNames]

/-! ### Paths below a path -/

lemma isIdle_bytes (n : FileName) : isIdle n.bytes = false := by
  rw [isIdle, Bool.or_eq_false_iff, beq_eq_false_iff_ne, beq_eq_false_iff_ne]
  exact ⟨n.bytes_ne_nil, n.bytes_ne_dot⟩

/-- No name is idle, so none is dropped at either end. -/
lemma dropWhile_isIdle_names (ns : List FileName) :
    (ns.map FileName.bytes).dropWhile isIdle = ns.map FileName.bytes := by
  cases ns with
  | nil => rfl
  | cons n ns => rw [List.map_cons, List.dropWhile_cons, isIdle_bytes, if_neg Bool.false_ne_true]

lemma dropPieces_names (ns t : List FileName) :
    dropPieces ns.length ((ns ++ t).map FileName.bytes) = t.map FileName.bytes := by
  induction ns with
  | nil => rw [List.length_nil, List.nil_append, dropPieces, dropWhile_isIdle_names]
  | cons n ns ih =>
      rw [List.length_cons, List.cons_append, List.map_cons, dropPieces, isIdle_bytes,
        if_neg Bool.false_ne_true, ih]

/-- The empty stretch in front of the first slash counts for nothing. -/
lemma dropPieces_cons_nil (n : Nat) (ps : List (List UInt8)) :
    dropPieces n ([] :: ps) = dropPieces n ps := by
  have hidle : isIdle [] = true := rfl
  cases n with
  | zero => rw [dropPieces, dropPieces, List.dropWhile_cons, hidle, if_pos rfl]
  | succ n => rw [dropPieces, hidle, if_pos rfl]

/-- What a path of names has below one with fewer names. -/
lemma below?_ofNames (ns t : List FileName) :
    below? (ofNames ns) (ofNames (ns ++ t)) = some (ofRelativeNames t) := by
  have hstarts : (ofNames (ns ++ t)).startsWith (ofNames ns) = true := by
    rw [startsWith, components_ofNames, components_ofNames, List.map_append, ← List.cons_append,
      List.isPrefixOf_iff_prefix]
    exact List.prefix_append _ _
  have hdrop : dropPieces ns.length (ofNames (ns ++ t)).pieces = t.map FileName.bytes := by
    by_cases hne : ns ++ t = []
    · obtain ⟨rfl, rfl⟩ := List.append_eq_nil_iff.mp hne
      rfl
    · rw [pieces_ofNames hne, dropPieces_cons_nil, dropPieces_names]
  have hlength : (ofNames ns).components.length - 1 = ns.length := by
    rw [components_ofNames, List.length_cons, List.length_map, Nat.add_sub_cancel]
  have hrelative : ofRelativeNames t = ⟨Text.glue slash (t.map FileName.bytes)⟩ :=
    congrArg Path.mk (bytes_ofRelativeNames t)
  rw [below?, if_pos hstarts, hlength, hdrop]
  dsimp only
  rw [← List.map_reverse, dropWhile_isIdle_names, List.map_reverse, List.reverse_reverse,
    hrelative]

end Path

end DocLint
