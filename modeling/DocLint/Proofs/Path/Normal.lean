/-
The normal form of an absolute path, step by step.

* `components_of_isAbsolute`: the components of an absolute path are what its steps
  stand for.
* `stack`: the components of the path of a place, as they are collected;
  `collapse_name` and `collapse_parent` say what a name and two dots add to them,
  `foldl_collapse_stack` and `foldl_collapse_parents` what several of these do.
* `length_normal_le`: the normal form is never longer than the path.
-/
import DocLint.Proofs.Path.Components

namespace DocLint.Path

/-! ### Steps and components -/

/-- The component that a step stands for. -/
def Step.component? : Step → Option Component
  | .stay => none
  | .up => some .parent
  | .down n => some (.name n)

lemma component?_ofPiece (p : List UInt8) :
    (Step.ofPiece p).component? = Component.ofPiece? p := by
  rw [Step.ofPiece, Component.ofPiece?]
  split_ifs <;> rfl

lemma steps_ne_nil (p : Path) : p.steps ≠ [] :=
  fun h => Text.pieces_ne_nil slash p.bytes (List.map_eq_nil_iff.mp h)

lemma filterMap_component?_steps (p : Path) :
    p.steps.filterMap Step.component? = p.pieces.filterMap Component.ofPiece? := by
  rw [steps, List.filterMap_map]
  exact List.filterMap_congr fun q _ => component?_ofPiece q

/-- The components of an absolute path are those of its steps. -/
lemma components_of_isAbsolute {p : Path} (h : p.isAbsolute = true) :
    p.components = .root :: p.steps.filterMap Step.component? := by
  rw [filterMap_component?_steps, components, front, if_pos h, List.singleton_append]

/-- The components of the path of a place, last one first. -/
def stack (loc : Location) : List Component :=
  loc.reverse.map .name ++ [.root]

lemma collapse_name (loc : Location) (n : FileName) :
    collapse (stack loc) (.name n) = stack (loc ++ [n]) := by
  rw [collapse_name_eq_cons, stack, stack, List.reverse_concat]
  rfl

/-- Two dots lead to the place above; at the top there is none. -/
lemma collapse_parent (loc : Location) : collapse (stack loc) .parent = stack loc.dropLast := by
  rcases List.eq_nil_or_concat' loc with rfl | ⟨init, n, rfl⟩
  · rfl
  · rw [List.dropLast_concat, stack, stack, List.reverse_concat]
    rfl

/-- From the top, names lead to the place below that they name. -/
lemma foldl_collapse_stack (loc : Location) (ns : List FileName) :
    (ns.map Component.name).foldl collapse (stack loc) = stack (loc ++ ns) := by
  rw [foldl_collapse_names, stack, stack, List.reverse_append, List.map_append,
    ← List.map_reverse, List.append_assoc]

/-- Pairs of dots lead up one place each, and stay at the top. -/
lemma foldl_collapse_parents (k : ℕ) (loc : Location) :
    (List.replicate k .parent).foldl collapse (stack loc) =
      stack (loc.take (loc.length - k)) := by
  induction k generalizing loc with
  | zero => rw [List.replicate_zero, List.foldl_nil, Nat.sub_zero, List.take_length]
  | succ k ih =>
      have hlength : min (loc.length - 1 - k) (loc.length - 1) = loc.length - (k + 1) := by
        omega
      rw [List.replicate_succ, List.foldl_cons, collapse_parent, ih, List.length_dropLast,
        List.dropLast_eq_take, List.take_take, hlength]

lemma normal_of_foldl_eq_stack {p : Path} {loc : Location}
    (h : p.components.foldl collapse [] = stack loc) : p.normal = ofNames loc := by
  refine normal_of_normalComponents ?_
  rw [normalComponents, h, stack]
  simp

/-! ### Lengths -/

/-- The number of bytes of components that are written with a slash in front of each. -/
def cost (cs : List Component) : Nat :=
  (cs.flatMap fun c => slash :: c.bytes).length

lemma cost_cons (c : Component) (cs : List Component) :
    cost (c :: cs) = c.bytes.length + 1 + cost cs := by
  rw [cost, List.flatMap_cons, List.length_append, List.length_cons]
  rfl

lemma cost_reverse (cs : List Component) : cost cs.reverse = cost cs := by
  exact ((List.reverse_perm cs).flatMap_right fun c => slash :: c.bytes).length_eq

/-- A component adds its own bytes at most. -/
lemma cost_collapse_le (out : List Component) (c : Component) :
    cost (collapse out c) ≤ cost (c :: out) := by
  have hcons := cost_cons c out
  unfold collapse
  split
  · omega
  · next n out =>
    have hname := cost_cons (.name n) out
    omega
  · omega
  · exact Nat.le_refl _

lemma cost_foldl_collapse_le (cs out : List Component) :
    cost (cs.foldl collapse out) ≤ cost cs + cost out := by
  induction cs generalizing out with
  | nil =>
      rw [List.foldl_nil]
      omega
  | cons c cs ih =>
      have hstep := cost_collapse_le out c
      have hrest := ih (collapse out c)
      rw [cost_cons] at hstep
      rw [List.foldl_cons, cost_cons]
      omega

lemma bytes_of_ofPiece? {p : List UInt8} {c : Component} (h : Component.ofPiece? p = some c) :
    c.bytes = p := by
  rw [Component.ofPiece?] at h
  split_ifs at h with hname hparent
  · cases h
    rfl
  · cases h
    exact hparent.symm

lemma cost_filterMap_ofPiece?_le (ps : List (List UInt8)) :
    cost (ps.filterMap Component.ofPiece?) ≤ (ps.flatMap fun p => slash :: p).length := by
  induction ps with
  | nil => exact Nat.le_refl _
  | cons p ps ih =>
      rw [List.flatMap_cons, List.length_append, List.length_cons]
      cases h : Component.ofPiece? p with
      | none =>
          rw [List.filterMap_cons_none h]
          omega
      | some c =>
          rw [List.filterMap_cons_some h, cost_cons, bytes_of_ofPiece? h]
          omega

/-- The bytes of an absolute path are a slash for each stretch behind the first
slash, and the stretch. -/
lemma exists_pieces_eq {p : Path} (h : p.isAbsolute = true) :
    ∃ ps, p.pieces = [] :: ps ∧ p.bytes = ps.flatMap fun q => slash :: q := by
  obtain ⟨bs, hbs⟩ : ∃ bs, p.bytes = slash :: bs := by
    rw [isAbsolute, beq_iff_eq, List.head?_eq_some_iff] at h
    exact h
  refine ⟨Text.pieces slash bs, ?_, ?_⟩
  · rw [pieces, hbs, Text.pieces_cons, if_pos rfl]
  · rw [← cons_glue slash (Text.pieces_ne_nil slash bs), Text.glue_pieces, hbs]

/-- **The normal form of an absolute path is never longer** than the path. -/
lemma length_normal_le {p : Path} (h : p.isAbsolute = true) :
    p.normal.bytes.length ≤ p.bytes.length := by
  obtain ⟨ns, hns⟩ := exists_normalComponents_eq h
  obtain ⟨ps, hps, hbytes⟩ := exists_pieces_eq h
  have hcost : cost p.normalComponents ≤ p.bytes.length + 1 := by
    have hpieces := cost_filterMap_ofPiece?_le ps
    have hfold := cost_foldl_collapse_le (ps.filterMap Component.ofPiece?) [.root]
    have hcomponents : p.components = .root :: ps.filterMap Component.ofPiece? := by
      rw [components, front, if_pos h, hps, List.filterMap_cons_none Component.ofPiece?_nil]
      rfl
    have hroot : cost [.root] = 1 := rfl
    rw [hbytes, normalComponents, cost_reverse, hcomponents, List.foldl_cons, collapse_root]
    omega
  rw [normal_of_normalComponents hns]
  by_cases hnil : ns = []
  · rw [hnil, length_ofNames_nil]
    have hne : p.bytes ≠ [] := fun hb => by simp [isAbsolute, hb] at h
    exact List.length_pos_iff.mpr hne
  · have hnames : cost (ns.map .name) = (ofNames ns).bytes.length := by
      rw [bytes_ofNames_of_ne_nil hnil, cost, List.flatMap_map]
      rfl
    rw [hns, cost_cons, hnames] at hcost
    simp only [Component.bytes, List.length_nil] at hcost
    omega

end DocLint.Path
