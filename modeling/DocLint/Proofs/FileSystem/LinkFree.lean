/-
Paths where there are no symbolic links.

* `IsLinkFree`: a file system without links.
* `exists_node?_of_follow`: steps that lead somewhere lead to what is there.
* `foldl_collapse_of_follow`: without links the names that are left of the steps when
  no file is looked at are those of the place where they lead;
  `normal_eq_of_followPath`: so an absolute path leads to the place that its
  normal form spells.
* `isThere_ofNames`: something that is no link is found by the path of its place,
  unless that path is too long.
-/
import DocLint.Proofs.FileSystem.Following
import DocLint.Proofs.Path.Normal

namespace DocLint.FileSystem

variable {fs : FileSystem} {fits : Location → Bool} {links : Nat} {here loc : Location}
  {ss : List Path.Step} {p : Path} {x : Node}

/-- Whether there are no symbolic links. -/
def IsLinkFree (fs : FileSystem) : Prop :=
  ∀ loc x, fs.node? loc = some x → x.isLink = false

/-! ### Following steps -/

lemma follow_up {es : List (FileName × Node)} (h : fs.node? here = some (.directory es))
    (ss : List Path.Step) :
    fs.follow fits links here (.up :: ss) = fs.follow fits links here.dropLast ss := by
  rw [follow, h]

/-- There is something above whatever there is. -/
lemma exists_node?_dropLast (h : fs.node? here = some x) : ∃ y, fs.node? here.dropLast = some y := by
  rcases List.eq_nil_or_concat' here with rfl | ⟨init, n, rfl⟩
  · exact ⟨x, h⟩
  · obtain ⟨es, hes⟩ := exists_directory_of_node?_concat h
    exact ⟨_, by rw [List.dropLast_concat, hes]⟩

/-- Steps that lead somewhere lead to what is there. -/
lemma exists_node?_of_follow (hhere : ∃ x, fs.node? here = some x)
    (h : fs.follow fits links here ss = .ok loc) : ∃ x, fs.node? loc = some x := by
  fun_induction follow fs fits links here ss with
  | case1 links here =>
      cases h
      exact hhere
  | case2 links here ss es hes ih => exact ih hhere h
  | case3 links here ss es hes ih => exact ih (exists_node?_dropLast hes) h
  | case7 here ss es hes n hfits target htarget links ih =>
      refine ih ?_ h
      split_ifs
      · exact ⟨_, fs.node?_nil⟩
      · exact hhere
  | case8 links here ss es hes n hfits x hx hchild ih =>
      exact ih ⟨x, by rw [← child?_of_directory hes]; exact hchild⟩ h
  | _ => cases h

/-- **Without links, looking at files makes no difference**: what is left of the steps
that lead from one place to another is what leads to the other one. -/
lemma foldl_collapse_of_follow (hfree : fs.IsLinkFree)
    (h : fs.follow fits links here ss = .ok loc) :
    (ss.filterMap Path.Step.component?).foldl Path.collapse (Path.stack here) =
      Path.stack loc := by
  fun_induction follow fs fits links here ss with
  | case1 links here =>
      cases h
      rfl
  | case2 links here ss es hes ih => exact ih h
  | case3 links here ss es hes ih =>
      have hup : (Path.Step.up :: ss).filterMap Path.Step.component? =
          .parent :: ss.filterMap Path.Step.component? := rfl
      rw [hup, List.foldl_cons, Path.collapse_parent]
      exact ih h
  | case7 here ss es hes n hfits target htarget links ih =>
      rw [child?_of_directory hes] at htarget
      cases hfree _ _ htarget
  | case8 links here ss es hes n hfits x hx hchild ih =>
      have hdown : (Path.Step.down n :: ss).filterMap Path.Step.component? =
          .name n :: ss.filterMap Path.Step.component? := rfl
      rw [hdown, List.foldl_cons, Path.collapse_name]
      exact ih h
  | _ => cases h

/-- Without links an absolute path leads to the place that its normal form
spells. -/
lemma normal_eq_of_followPath (hfree : fs.IsLinkFree) (habs : p.isAbsolute = true)
    (h : fs.followPath fits p = .ok loc) : p.normal = .ofNames loc := by
  rw [followPath, if_pos habs] at h
  refine Path.normal_of_foldl_eq_stack ?_
  rw [Path.components_of_isAbsolute habs, List.foldl_cons]
  exact foldl_collapse_of_follow hfree h

lemma exists_node?_of_followPath (habs : p.isAbsolute = true)
    (h : fs.followPath fits p = .ok loc) : ∃ x, fs.node? loc = some x := by
  rw [followPath, if_pos habs] at h
  exact exists_node?_of_follow ⟨_, fs.node?_nil⟩ h

/-- What is no link is where the names of its place lead. -/
lemma followPath_ofNames_of_node? (h : fs.node? loc = some x) (hx : x.isLink = false) :
    fs.followPath (fun _ => true) (.ofNames loc) = .ok loc := by
  rw [followPath_ofNames]
  by_cases hloc : loc = []
  · rw [hloc, List.map_nil, follow_nil]
  · have hdowns := @follow_downs fs (fun _ => true) maxLinks [] loc x (fun _ _ _ => rfl) hloc h hx
    rw [List.nil_append, if_pos rfl] at hdowns
    exact hdowns

/-! ### What is there -/

/-- Nothing is found by a path that is too long. -/
lemma isThere_of_isShort_eq_false (h : p.isShort = false) : fs.isThere p = false := by
  have hlocate : ∃ e, fs.locate p = .error e := by
    rw [locate, h, if_neg Bool.false_ne_true]
    split_ifs <;> exact ⟨_, rfl⟩
  obtain ⟨e, he⟩ := hlocate
  rw [isThere, lookup?, he]
  rfl

/-- What is no link is found by the path of its place, unless that is too long. -/
lemma isThere_ofNames (h : fs.node? loc = some x) (hx : x.isLink = false) :
    fs.isThere (.ofNames loc) = (Path.ofNames loc).isShort := by
  cases hshort : (Path.ofNames loc).isShort with
  | false => exact isThere_of_isShort_eq_false hshort
  | true =>
      have hlocate := (locate_ofNames_of_node? h hx hshort).1
      rw [isThere, lookup?, hlocate]
      dsimp only
      rw [h]
      rfl

lemma isThere_of_isDirectory (h : fs.isDirectory p = true) : fs.isThere p = true := by
  rw [isDirectory] at h
  rw [isThere]
  cases hl : fs.lookup? p with
  | none => simp [hl] at h
  | some x => rfl

end DocLint.FileSystem
