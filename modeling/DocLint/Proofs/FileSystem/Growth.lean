/-
File systems that more is put into.

* `Extends`: whatever is in one file system is in the other at the same place, and a link
  leads the same way.
* `follow_eq_ok`: what leads somewhere still leads there, so `isThere_of_extends` and
  `isDirectory_of_extends`.
* `IsVacant`: there is nothing at a place, and nothing but directories on the way to it;
  `extends_put`: putting something there takes nothing away.
-/
import DocLint.Proofs.FileSystem.Shape

namespace DocLint

/-! ### Putting a node where there is none -/

/-- Whether there is nothing at the end of some names, and nothing but directories on the
way. -/
def Node.IsVacant (d : Node) (loc : Location) : Prop :=
  d.descend? loc = none ∧
    ∀ init x, init <+: loc → d.descend? init = some x → x.isDirectory = true

/-- Putting a node where there is none keeps what there was. -/
lemma Node.exists_descend?_put {d x y : Node} {loc l : Location} (h : d.IsVacant loc)
    (hl : d.descend? l = some y) :
    ∃ z, (Node.put x loc d).descend? l = some z ∧ z.outline = y.outline := by
  induction loc generalizing d l with
  | nil => cases h.1
  | cons n loc ih =>
      have hdir : d.isDirectory = true := h.2 [] d (List.nil_prefix) rfl
      rw [put]
      cases l with
      | nil =>
          obtain rfl : d = y := Option.some.inj hl
          cases d with
          | directory es => exact ⟨_, rfl, rfl⟩
          | _ => cases hdir
      | cons m l =>
          obtain ⟨c, hc, hlc⟩ := Option.bind_eq_some_iff.mp hl
          by_cases hm : m = n
          · subst hm
            have hvacant : c.IsVacant loc := by
              refine ⟨?_, fun init z hinit hz => h.2 (m :: init) z ?_ ?_⟩
              · have hnone := h.1
                rwa [descend?, hc, Option.bind_some] at hnone
              · exact List.cons_prefix_cons.mpr ⟨rfl, hinit⟩
              · rw [descend?, hc, Option.bind_some, hz]
            rw [hc, Option.getD_some, descend?, child?_bindName_self (isStorable_of_child? hc)]
            exact ih hvacant hlc
          · rw [descend?, child?_bindName_of_ne hm, hc]
            exact ⟨y, hlc, rfl⟩

namespace FileSystem

variable {fs fs' : FileSystem} {fits : Location → Bool} {links : Nat} {here loc : Location}
  {ss : List Path.Step} {p : Path} {x : Node}

/-- Whether a file system has all that another one has: at each place a node of the same
kind, and links that lead the same way. -/
structure Extends (fs fs' : FileSystem) : Prop where
  workingDirectory : fs'.workingDirectory = fs.workingDirectory
  outline : ∀ loc x, fs.node? loc = some x → ∃ y, fs'.node? loc = some y ∧ y.outline = x.outline

/-- Whether there is nothing at a place, and nothing but directories on the way to it. -/
def IsVacant (fs : FileSystem) (loc : Location) : Prop :=
  (Node.directory fs.top).IsVacant loc

/-- **Creating** a file, a directory or a link takes nothing away. -/
lemma extends_put (h : fs.IsVacant loc) (x : Node) : Extends fs (fs.put loc x) := by
  refine ⟨rfl, fun l y hl => ?_⟩
  by_cases hnil : l = []
  · subst hnil
    cases hl
    exact ⟨_, rfl, rfl⟩
  · rw [node?, put, Node.descend?_directory_entries hnil]
    exact Node.exists_descend?_put h hl

/-! ### Paths -/

namespace Extends

lemma exists_directory (h : Extends fs fs') {es : List (FileName × Node)}
    (hx : fs.node? loc = some (.directory es)) :
    ∃ es', fs'.node? loc = some (.directory es') := by
  obtain ⟨y, hy, ho⟩ := h.outline _ _ hx
  cases y with
  | directory es' => exact ⟨es', hy⟩
  | _ => cases ho

lemma eq_link (h : Extends fs fs') {target : Path} (hx : fs.node? loc = some (.link target)) :
    fs'.node? loc = some (.link target) := by
  obtain ⟨y, hy, ho⟩ := h.outline _ _ hx
  cases y with
  | link target' =>
      cases ho
      exact hy
  | _ => cases ho

/-- What leads somewhere still leads there. -/
lemma follow_eq_ok (h : Extends fs fs') (hf : fs.follow fits links here ss = .ok loc) :
    fs'.follow fits links here ss = .ok loc := by
  fun_induction follow fs fits links here ss with
  | case1 links here => rwa [follow_nil]
  | case2 links here ss es hes ih =>
      obtain ⟨es', hes'⟩ := h.exists_directory hes
      rw [follow_stay hes', ih hf]
  | case3 links here ss es hes ih =>
      obtain ⟨es', hes'⟩ := h.exists_directory hes
      rw [follow, hes']
      exact ih hf
  | case7 here ss es hes n hfits target hchild links ih =>
      obtain ⟨es', hes'⟩ := h.exists_directory hes
      rw [child?_of_directory hes] at hchild
      rw [follow, hes']
      simp only [if_neg hfits, child?_of_directory hes', h.eq_link hchild]
      exact ih hf
  | case8 links here ss es hes n hfits x hlink hchild ih =>
      obtain ⟨es', hes'⟩ := h.exists_directory hes
      rw [child?_of_directory hes] at hchild
      obtain ⟨y, hy, ho⟩ := h.outline _ _ hchild
      rw [follow, hes']
      simp only [if_neg hfits, child?_of_directory hes', hy]
      cases y with
      | link target =>
          cases x with
          | link target' => exact absurd rfl (hlink target')
          | _ => cases ho
      | _ => exact ih hf
  | _ => cases hf

lemma locate_eq_ok (h : Extends fs fs') (hp : fs.locate p = .ok loc) : fs'.locate p = .ok loc := by
  rw [locate] at hp ⊢
  split_ifs at hp ⊢
  rw [followPath, h.workingDirectory]
  exact h.follow_eq_ok hp

/-- What a path leads to is still found, and is of the same kind. -/
lemma exists_lookup?_eq (h : Extends fs fs') (hx : fs.lookup? p = some x) :
    ∃ y, fs'.lookup? p = some y ∧ y.outline = x.outline := by
  rw [lookup?] at hx
  cases hloc : fs.locate p with
  | error e =>
      rw [hloc] at hx
      cases hx
  | ok loc =>
      rw [hloc] at hx
      rw [lookup?, h.locate_eq_ok hloc]
      exact h.outline loc x hx

lemma isThere_of_extends (h : Extends fs fs') (hp : fs.isThere p = true) :
    fs'.isThere p = true := by
  obtain ⟨x, hx⟩ := Option.isSome_iff_exists.mp hp
  obtain ⟨y, hy, -⟩ := h.exists_lookup?_eq hx
  rw [isThere, hy]
  rfl

lemma isDirectory_of_extends (h : Extends fs fs') (hp : fs.isDirectory p = true) :
    fs'.isDirectory p = true := by
  rw [isDirectory] at hp ⊢
  cases hx : fs.lookup? p with
  | none =>
      rw [hx] at hp
      cases hp
  | some x =>
      obtain ⟨y, hy, ho⟩ := h.exists_lookup?_eq hx
      rw [hx] at hp
      rw [hy, Option.map_some, Option.getD_some, ← Node.isDirectory_outline, ho,
        Node.isDirectory_outline]
      exact hp

end Extends

end FileSystem

end DocLint
