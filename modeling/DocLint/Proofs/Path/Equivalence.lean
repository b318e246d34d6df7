/-
The normal form of a path decides which paths lead alike when no file is looked at.

* `Shortens`: one detour is left out of some components; `Equivalent`: components that
  are turned into each other by leaving detours out and putting them in.
* `foldl_collapse`: such components add the same to whatever stands before them.
* `reduces_normalComponents`: what is left of a path is got by leaving detours out only.
* `IsCollapsed`: components without detours; `isCollapsed_normal`: those of a normal form.
* `foldl_components_join`: a path behind another goes on from what the other one leaves.
* `normal_canonical`: paths have one normal form exactly if they are equivalent, it is its
  own normal form, and either part of a joined path may be brought into it first.
-/
import Mathlib.Logic.Relation
import DocLint.Proofs.Path.Normal
import DocLint.Proofs.Text.Lines

namespace DocLint

/-! ### Components that are written between slashes -/

/-- Whether a component is written the same wherever it stands in a path. -/
def Component.IsStep : Component → Prop
  | .parent | .name _ => True
  | .root | .current => False

namespace Component

variable {c : Component}

lemma ofPiece?_bytes_of_isStep (h : c.IsStep) : ofPiece? c.bytes = some c := by
  cases c with
  | name n => exact ofPiece?_bytes n
  | parent => rfl
  | _ => cases h

lemma slash_notMem_bytes (c : Component) : slash ∉ c.bytes := by
  cases c with
  | name n => exact n.slash_notMem_bytes
  | _ => decide

lemma bytes_ne_of_isStep (h : c.IsStep) : c.bytes ≠ [] ∧ c.bytes ≠ [dot] := by
  cases c with
  | name n => exact ⟨n.bytes_ne_nil, n.bytes_ne_dot⟩
  | parent => decide
  | _ => cases h

end Component

namespace Path

variable {p q : Path} {cs ds out : List Component} {c : Component}

/-! ### Equivalent components -/

/-- Whether components are others with one detour left out: a single dot, a name with two
dots behind it, or the two dots behind the root. -/
inductive Shortens : List Component → List Component → Prop
  | dot (as bs) : Shortens (as ++ .current :: bs) (as ++ bs)
  | back (as n bs) : Shortens (as ++ .name n :: .parent :: bs) (as ++ bs)
  | top (as bs) : Shortens (as ++ .root :: .parent :: bs) (as ++ .root :: bs)

/-- Whether components are turned into others by leaving detours out and putting them
in. -/
def Equivalent : List Component → List Component → Prop :=
  Relation.EqvGen Shortens

/-- A detour adds nothing to what stands before it. -/
lemma Shortens.foldl_collapse (h : Shortens cs ds) (out : List Component) :
    cs.foldl collapse out = ds.foldl collapse out := by
  cases h with
  | dot as bs => rw [List.foldl_append, List.foldl_append, List.foldl_cons, collapse_current]
  | back as n bs =>
      rw [List.foldl_append, List.foldl_append, List.foldl_cons, List.foldl_cons,
        collapse_name_eq_cons]
      rfl
  | top as bs =>
      rw [List.foldl_append, List.foldl_append, List.foldl_cons, List.foldl_cons,
        List.foldl_cons, collapse_root]
      rfl

lemma Equivalent.foldl_collapse (h : Equivalent cs ds) (out : List Component) :
    cs.foldl collapse out = ds.foldl collapse out := by
  induction h with
  | rel cs ds h => exact h.foldl_collapse out
  | refl cs => rfl
  | symm cs ds _ ih => exact ih.symm
  | trans cs ds es _ _ ih ih' => exact ih.trans ih'

/-! ### Leaving detours out -/

/-- A component that is added to a normal path leaves one detour out at most. -/
lemma reduces_collapse (out : List Component) (c : Component) (cs : List Component) :
    Relation.ReflTransGen Shortens (out.reverse ++ c :: cs) ((collapse out c).reverse ++ cs) := by
  unfold collapse
  split
  · exact .single (.dot out.reverse cs)
  · next n out =>
    rw [List.reverse_cons, List.append_assoc, List.singleton_append]
    exact .single (.back out.reverse n cs)
  · next out =>
    rw [List.reverse_cons, List.append_assoc, List.append_assoc, List.singleton_append,
      List.singleton_append]
    exact .single (.top out.reverse cs)
  · rw [List.reverse_cons, List.append_assoc, List.singleton_append]

lemma reduces_foldl_collapse (cs out : List Component) :
    Relation.ReflTransGen Shortens (out.reverse ++ cs) (cs.foldl collapse out).reverse := by
  induction cs generalizing out with
  | nil => rw [List.append_nil, List.foldl_nil]
  | cons c cs ih => exact (reduces_collapse out c cs).trans (ih (collapse out c))

/-- What is left of a path is got by leaving detours out. -/
lemma reduces_normalComponents (p : Path) :
    Relation.ReflTransGen Shortens p.components p.normalComponents :=
  reduces_foldl_collapse p.components []

/-! ### What is left of a path -/

/-- Components without detours: a single dot, names below the root, or names behind
pairs of dots, and of these two there is one at least. -/
inductive IsCollapsed : List Component → Prop
  | here : IsCollapsed [.current]
  | rooted (ns : List FileName) : IsCollapsed (.root :: ns.map .name)
  | upward (k : ℕ) (ns : List FileName) (h : k + ns.length ≠ 0) :
      IsCollapsed (List.replicate k .parent ++ ns.map .name)

/-- Names behind pairs of dots stay that, whatever step is taken. -/
lemma exists_collapse_upward (ns : List FileName) (k : ℕ) (h : c ≠ .root) :
    ∃ (ms : List FileName) (j : ℕ), collapse (ns.map .name ++ List.replicate k .parent) c =
      ms.map .name ++ List.replicate j .parent := by
  cases c with
  | root => exact absurd rfl h
  | current => exact ⟨ns, k, collapse_current _⟩
  | name n => exact ⟨n :: ns, k, collapse_name_eq_cons _ n⟩
  | parent =>
      cases ns with
      | nil =>
          refine ⟨[], k + 1, ?_⟩
          cases k <;> rfl
      | cons n ns => exact ⟨ns, k, rfl⟩

lemma exists_foldl_collapse_upward (cs : List Component) (h : .root ∉ cs) (ns : List FileName)
    (k : ℕ) : ∃ (ms : List FileName) (j : ℕ),
      cs.foldl collapse (ns.map .name ++ List.replicate k .parent) =
        ms.map .name ++ List.replicate j .parent := by
  refine List.foldlRecOn cs collapse (motive := fun out => ∃ (ms : List FileName) (j : ℕ),
    out = ms.map .name ++ List.replicate j .parent) ⟨ns, k, rfl⟩ ?_
  rintro _ ⟨ms, j, rfl⟩ c hc
  exact exists_collapse_upward ms j (ne_of_mem_of_not_mem hc h)

/-- Only an absolute path goes through the root. -/
lemma root_mem_components_iff : .root ∈ p.components ↔ p.isAbsolute = true := by
  have hrest := root_notMem_filterMap_ofPiece? p.pieces
  rw [components, List.mem_append, or_iff_left hrest, front]
  split_ifs with habs hdot <;> simp [habs]

/-- What is left of a relative path are names behind pairs of dots. -/
lemma exists_normalComponents_upward (h : p.isAbsolute = false) :
    ∃ (k : ℕ) (ns : List FileName),
      p.normalComponents = List.replicate k .parent ++ ns.map .name := by
  have hroot : .root ∉ p.components := by
    rw [root_mem_components_iff, h]
    exact Bool.false_ne_true
  obtain ⟨ms, j, hms⟩ := exists_foldl_collapse_upward p.components hroot [] 0
  refine ⟨j, ms.reverse, ?_⟩
  rw [normalComponents]
  rw [show ([] : List FileName).map Component.name ++ List.replicate 0 .parent = [] from rfl] at hms
  rw [hms, List.reverse_append, List.reverse_replicate, List.map_reverse]

/-! ### Reading a normal form -/

/-- Steps that are written with slashes between them are read back. -/
lemma components_ofComponents (hne : cs ≠ []) (h : ∀ c ∈ cs, c.IsStep) :
    (ofComponents cs).components = cs := by
  obtain ⟨c, rest, rfl⟩ := List.exists_cons_of_ne_nil hne
  have hstep : c.IsStep := h c List.mem_cons_self
  have hbytes : (ofComponents (c :: rest)).bytes =
      Text.glue slash ((c :: rest).map Component.bytes) := by
    cases c with
    | root => cases hstep
    | _ => rfl
  have hpieces : (ofComponents (c :: rest)).pieces = (c :: rest).map Component.bytes := by
    rw [pieces, hbytes]
    refine Text.pieces_glue (by simp) fun b hb => ?_
    obtain ⟨d, -, rfl⟩ := List.mem_map.mp hb
    exact d.slash_notMem_bytes
  obtain ⟨hnil, hdot⟩ := Component.bytes_ne_of_isStep hstep
  have hrelative : ¬(ofComponents (c :: rest)).isAbsolute = true := by
    intro habs
    obtain ⟨ps, hps, -⟩ := exists_pieces_eq habs
    rw [hpieces, List.map_cons, List.cons.injEq] at hps
    exact hnil hps.1
  have hfront : (ofComponents (c :: rest)).front = [] := by
    rw [front, if_neg hrelative, hpieces, List.map_cons, List.head?_cons, if_neg]
    exact fun heq => hdot (Option.some.inj heq)
  rw [components, hfront, hpieces, List.nil_append, List.filterMap_map]
  have hread : ∀ d ∈ c :: rest, (Component.ofPiece? ∘ Component.bytes) d = some d :=
    fun d hd => Component.ofPiece?_bytes_of_isStep (h d hd)
  rw [List.filterMap_congr hread, List.filterMap_some]

lemma isStep_of_mem_upward {k : ℕ} {ns : List FileName}
    (h : c ∈ List.replicate k .parent ++ ns.map .name) : c.IsStep := by
  rcases List.mem_append.mp h with h | h
  · rw [List.eq_of_mem_replicate h]
    trivial
  · obtain ⟨n, -, rfl⟩ := List.mem_map.mp h
    trivial

lemma normal_of_normalComponents_eq_nil (h : p.normalComponents = []) : p.normal = ⟨[dot]⟩ := by
  rw [normal, h]

lemma normal_of_normalComponents_ne_nil (h : p.normalComponents ≠ []) :
    p.normal = ofComponents p.normalComponents := by
  obtain ⟨c, cs, hcs⟩ := List.exists_cons_of_ne_nil h
  rw [normal, hcs]

/-- Nothing is left of a path, and its normal form is a single dot, or what is left of it
is read from its normal form. -/
lemma components_normal (p : Path) :
    (p.normalComponents = [] ∧ p.normal.components = [.current]) ∨
      (p.normalComponents ≠ [] ∧ p.normal.components = p.normalComponents) := by
  by_cases hnil : p.normalComponents = []
  · refine Or.inl ⟨hnil, ?_⟩
    rw [normal_of_normalComponents_eq_nil hnil]
    decide
  · refine Or.inr ⟨hnil, ?_⟩
    cases habs : p.isAbsolute with
    | true =>
        obtain ⟨ns, hns⟩ := exists_normalComponents_eq habs
        rw [normal_of_normalComponents hns, components_ofNames, hns]
    | false =>
        obtain ⟨k, ns, hns⟩ := exists_normalComponents_upward habs
        rw [normal_of_normalComponents_ne_nil hnil]
        refine components_ofComponents hnil fun c hc => ?_
        rw [hns] at hc
        exact isStep_of_mem_upward hc

/-- **The shape of a normal form**. -/
lemma isCollapsed_normal (p : Path) : IsCollapsed p.normal.components := by
  rcases components_normal p with ⟨-, hread⟩ | ⟨hnil, hread⟩
  · rw [hread]
    exact .here
  · rw [hread]
    cases habs : p.isAbsolute with
    | true =>
        obtain ⟨ns, hns⟩ := exists_normalComponents_eq habs
        rw [hns]
        exact .rooted ns
    | false =>
        obtain ⟨k, ns, hns⟩ := exists_normalComponents_upward habs
        rw [hns] at hnil ⊢
        refine .upward k ns fun hzero => hnil ?_
        obtain ⟨rfl, hlength⟩ := Nat.add_eq_zero_iff.mp hzero
        rw [List.eq_nil_of_length_eq_zero hlength]
        rfl

/-- A normal form is written from its components, without idle slashes or dots. -/
lemma ofComponents_components_normal (p : Path) : ofComponents p.normal.components = p.normal := by
  rcases components_normal p with ⟨hnil, hread⟩ | ⟨hne, hread⟩
  · rw [hread, normal_of_normalComponents_eq_nil hnil]
    rfl
  · rw [hread, normal_of_normalComponents_ne_nil hne]

lemma same_normal_iff : p.normal.Same q.normal ↔ p.normal = q.normal := by
  constructor
  · intro hsame
    rw [← ofComponents_components_normal p, hsame, ofComponents_components_normal q]
  · intro heq
    rw [heq, Same]

/-! ### Equivalent paths -/

lemma isAbsolute_normal (p : Path) : p.normal.isAbsolute = p.isAbsolute := by
  cases habs : p.isAbsolute with
  | true =>
      obtain ⟨ns, hns⟩ := exists_normal_eq_ofNames habs
      rw [hns, isAbsolute_ofNames]
  | false =>
      rw [Bool.eq_false_iff, ne_eq, ← root_mem_components_iff]
      intro hroot
      rcases components_normal p with ⟨-, hread⟩ | ⟨-, hread⟩
      · rw [hread] at hroot
        cases List.mem_singleton.mp hroot
      · obtain ⟨k, ns, hns⟩ := exists_normalComponents_upward habs
        rw [hread, hns] at hroot
        exact isStep_of_mem_upward hroot

lemma equivalent_of_reduces (h : Relation.ReflTransGen Shortens cs ds) : Equivalent cs ds := by
  induction h with
  | refl => exact .refl cs
  | tail _ hstep ih => exact .trans _ _ _ ih (.rel _ _ hstep)

lemma equivalent_components_normal (p : Path) : Equivalent p.components p.normal.components := by
  have hreduces := equivalent_of_reduces (reduces_normalComponents p)
  rcases components_normal p with ⟨hnil, hread⟩ | ⟨-, hread⟩
  · -- The dot stands for a path of which nothing is left.
    rw [hnil] at hreduces
    rw [hread]
    exact .trans _ _ _ hreduces (.symm _ _ (.rel _ _ (.dot [] [])))
  · rw [hread]
    exact hreduces

/-- A path and its normal form add the same to whatever stands before them. -/
lemma foldl_components_normal (p : Path) (out : List Component) :
    p.normal.components.foldl collapse out = p.components.foldl collapse out :=
  ((equivalent_components_normal p).foldl_collapse out).symm

lemma normal_congr (h : p.components.foldl collapse [] = q.components.foldl collapse []) :
    p.normal = q.normal := by
  rw [normal, normal, normalComponents, normalComponents, h]

lemma normal_eq_normal_iff : p.normal = q.normal ↔
    p.isAbsolute = q.isAbsolute ∧ Equivalent p.components q.components := by
  constructor
  · intro h
    refine ⟨?_, ?_⟩
    · rw [← isAbsolute_normal p, h, isAbsolute_normal q]
    · have hp := equivalent_components_normal p
      rw [h] at hp
      exact .trans _ _ _ hp (.symm _ _ (equivalent_components_normal q))
  · rintro ⟨-, h⟩
    exact normal_congr (h.foldl_collapse [])

lemma normal_normal (p : Path) : p.normal.normal = p.normal :=
  normal_congr (foldl_components_normal p [])

/-! ### Joining -/

/-- The stretches of a joined path are those of its two parts, less the empty one that a
slash at the end of the first part makes. -/
lemma exists_pieces_join (hp : p.bytes ≠ []) (hq : q.isAbsolute = false) :
    ∃ ps, ps ≠ [] ∧ (p.join q).pieces = ps ++ q.pieces ∧ (p.pieces = ps ∨ p.pieces = ps ++ [[]]) := by
  rw [join, hq, if_neg Bool.false_ne_true]
  by_cases hlast : p.bytes.getLast? = some slash
  · obtain ⟨r, hr⟩ : ∃ r, p.bytes = r ++ [slash] := List.getLast?_eq_some_iff.mp hlast
    refine ⟨Text.pieces slash r, Text.pieces_ne_nil slash r, ?_, Or.inr ?_⟩
    · rw [if_pos (Or.inr hlast), pieces, hr, List.append_assoc, List.singleton_append,
        Text.pieces_append, pieces]
    · rw [pieces, hr, Text.pieces_append, Text.pieces_nil]
  · refine ⟨p.pieces, Text.pieces_ne_nil slash p.bytes, ?_, Or.inl rfl⟩
    rw [if_neg (not_or.mpr ⟨hp, hlast⟩), pieces, Text.pieces_append, pieces, pieces]

lemma isAbsolute_join_eq (hp : p.bytes ≠ []) (hq : q.isAbsolute = false) :
    (p.join q).isAbsolute = p.isAbsolute := by
  obtain ⟨b, bs, hb⟩ := List.exists_cons_of_ne_nil hp
  rw [join, hq, if_neg Bool.false_ne_true]
  split_ifs <;> simp [isAbsolute, hb]

/-- What a relative path adds behind another: a dot at its front is lost. -/
lemma components_join (hp : p.bytes ≠ []) (hq : q.isAbsolute = false) :
    (p.join q).components = p.components ++ q.pieces.filterMap Component.ofPiece? := by
  obtain ⟨ps, hne, hjoin, hpieces⟩ := exists_pieces_join hp hq
  obtain ⟨a, as, rfl⟩ := List.exists_cons_of_ne_nil hne
  have hhead : p.pieces.head? = some a := by
    rcases hpieces with h | h <;> rw [h] <;> rfl
  have hfront : (p.join q).front = p.front := by
    rw [front, front, isAbsolute_join_eq hp hq, hjoin, hhead]
    rfl
  have hsteps : p.pieces.filterMap Component.ofPiece? =
      (a :: as).filterMap Component.ofPiece? := by
    rcases hpieces with h | h
    · rw [h]
    · rw [h, List.filterMap_append, List.filterMap_cons_none Component.ofPiece?_nil,
        List.filterMap_nil, List.append_nil]
  rw [components, hfront, hjoin, List.filterMap_append, components, hsteps, List.append_assoc]

lemma foldl_components_of_relative (hq : q.isAbsolute = false) (out : List Component) :
    q.components.foldl collapse out =
      (q.pieces.filterMap Component.ofPiece?).foldl collapse out := by
  rw [components, front, hq, if_neg Bool.false_ne_true]
  split_ifs
  · rw [List.singleton_append, List.foldl_cons, collapse_current]
  · rw [List.nil_append]

/-- **A relative path behind another** goes on from what the other one leaves. -/
lemma foldl_components_join (p : Path) (hq : q.isAbsolute = false) :
    (p.join q).components.foldl collapse [] =
      q.components.foldl collapse (p.components.foldl collapse []) := by
  by_cases hp : p.bytes = []
  · have hjoin : p.join q = q := by
      rw [join, hq, if_neg Bool.false_ne_true, if_pos (Or.inl hp), hp]
      rfl
    have hempty : p.components = [] := by
      obtain ⟨bytes⟩ := p
      cases hp
      decide
    rw [hjoin, hempty]
    rfl
  · rw [components_join hp hq, List.foldl_append, ← foldl_components_of_relative hq]

lemma join_of_isAbsolute (p : Path) (hq : q.isAbsolute = true) : p.join q = q := by
  rw [join, if_pos hq]

lemma normal_join_normal_left (p q : Path) : (p.normal.join q).normal = (p.join q).normal := by
  cases hq : q.isAbsolute with
  | true => rw [join_of_isAbsolute _ hq, join_of_isAbsolute _ hq]
  | false =>
      refine normal_congr ?_
      rw [foldl_components_join _ hq, foldl_components_join _ hq, foldl_components_normal]

lemma normal_join_normal_right (p q : Path) : (p.join q.normal).normal = (p.join q).normal := by
  have habs := isAbsolute_normal q
  cases hq : q.isAbsolute with
  | true =>
      rw [join_of_isAbsolute _ hq, join_of_isAbsolute _ (habs.trans hq), normal_normal]
  | false =>
      refine normal_congr ?_
      rw [foldl_components_join _ hq, foldl_components_join _ (habs.trans hq),
        foldl_components_normal]

/-- **The normal form is canonical**: two paths have the same one exactly if both are
absolute or both relative and their components are equivalent, and normal forms are the
same path only if they are written alike. A normal form holds no detours, it is its own
normal form, and it may take the place of either part of a joined path. -/
theorem normal_canonical (p q : Path) :
    (p.normal = q.normal ↔
      p.isAbsolute = q.isAbsolute ∧ Equivalent p.components q.components) ∧
    (p.normal.Same q.normal ↔ p.normal = q.normal) ∧
    IsCollapsed p.normal.components ∧ ofComponents p.normal.components = p.normal ∧
    p.normal.normal = p.normal ∧
    (p.normal.join q).normal = (p.join q).normal ∧
    (p.join q.normal).normal = (p.join q).normal :=
  ⟨normal_eq_normal_iff, same_normal_iff, isCollapsed_normal p,
    ofComponents_components_normal p, normal_normal p, normal_join_normal_left p q,
    normal_join_normal_right p q⟩

end Path

end DocLint
