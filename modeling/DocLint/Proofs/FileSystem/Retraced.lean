/-
Paths that come back the way they went.

* `Retraces`: where steps lead up, they lead back to the place from which the name that they cancel
  was looked up. Behind a symbolic link they need not. `retraces_of_isLinkFree`,
  `retraces_of_up_notMem`: they do without links, and nothing is cancelled without steps up.
* `exists_follow_append`: the first stretch of steps that lead somewhere does so by itself.
* `Leads`: names spell the way to a place, and enough links are left there. `Leads.follow`: what can
  be followed from the place can be followed behind the names.
* `exists_stack_of_follow`: **the names that are left of such steps when no file is looked at**
  lead where the steps lead; `exists_normal_of_followPath`: so does the normal form of a path.
-/
import Mathlib.Data.List.Induction
import DocLint.Proofs.FileSystem.LinkFree
import DocLint.Proofs.Path.Equivalence

namespace DocLint.FileSystem

variable {fs : FileSystem} {fits : Location → Bool} {links links' : Nat} {here loc : Location}
  {trail : List Location} {s : Path.Step} {ss rest : List Path.Step} {ns : List FileName} {p : Path}

/-- Whether steps from a place retrace the way by which they went, wherever they lead up. The trail
has the places where the names on the way were looked up, the last one first. -/
inductive Retraces (fs : FileSystem) : List Location → Location → List Path.Step → Prop
  | nil {trail : List Location} {here : Location} : Retraces fs trail here []
  | stay {trail : List Location} {here : Location} {ss : List Path.Step}
      (h : Retraces fs trail here ss) : Retraces fs trail here (.stay :: ss)
  /-- There is nothing above the top. -/
  | top {ss : List Path.Step} (h : Retraces fs [] [] ss) : Retraces fs [] [] (.up :: ss)
  | up {trail : List Location} {here : Location} {ss : List Path.Step}
      (h : Retraces fs trail here.dropLast ss) :
      Retraces fs (here.dropLast :: trail) here (.up :: ss)
  | down {trail : List Location} {here next : Location} {n : FileName} {ss : List Path.Step}
      (hnext : fs.follow (fun _ => true) maxLinks here [.down n] = .ok next)
      (h : Retraces fs (here :: trail) next ss) : Retraces fs trail here (.down n :: ss)

/-- The places above a place, the nearest one first. -/
def above (loc : Location) : List Location :=
  (List.range loc.length).reverse.map loc.take

/-- Whether a path retraces its way, from the top or from the working directory. -/
def IsRetraced (fs : FileSystem) (p : Path) : Prop :=
  let start := if p.isAbsolute then [] else fs.workingDirectory
  fs.Retraces (above start) start p.steps

lemma above_concat (loc : Location) (n : FileName) : above (loc ++ [n]) = loc :: above loc := by
  have htake : ∀ i ∈ (List.range loc.length).reverse, (loc ++ [n]).take i = loc.take i := by
    intro i hi
    rw [List.mem_reverse, List.mem_range] at hi
    exact List.take_append_of_le_length (Nat.le_of_lt hi)
  rw [above, List.length_append, List.length_singleton, List.range_succ, List.reverse_concat,
    List.map_cons, List.map_congr_left htake, List.take_left, above]

/-! ### Stretches of steps, and links -/

/-- Only a directory can be stepped from. -/
lemma exists_directory_of_follow_cons (h : fs.follow fits links here (s :: ss) = .ok loc) :
    ∃ es, fs.node? here = some (.directory es) := by
  rw [follow] at h
  split at h
  · exact ⟨_, by assumption⟩
  · cases h
  · cases h

/-- The first of several stretches leads somewhere by itself, and the links that it leaves are
those that the others have. -/
lemma exists_follow_append (h : fs.follow fits links here (ss ++ rest) = .ok loc) :
    ∃ mid, fs.follow fits links here ss = .ok mid ∧ ∃ left ≤ links,
      ∀ rest, fs.follow fits links here (ss ++ rest) = fs.follow fits left mid rest := by
  cases hmid : fs.follow fits links here ss with
  | error e =>
      rw [follow_append_of_error hmid] at h
      cases h
  | ok mid => exact ⟨mid, rfl, follow_append hmid⟩

/-! ### Names that spell a way -/

/-- Whether names spell the way to a place: what can be followed from there, with so many links, can
be followed behind the names. The trail has the places that they pass; nothing is asked of names
that would not fit as a place. -/
inductive Leads (fs : FileSystem) (fits : Location → Bool) :
    Nat → List Location → List FileName → Location → Prop
  | top {links : Nat} (hle : links ≤ maxLinks) : Leads fs fits links [] [] []
  | down {links more : Nat} {trail : List Location} {ns : List FileName} {n : FileName}
      {before here : Location} (h : Leads fs fits more trail ns before) (hle : links ≤ more)
      (hstep : fits (ns ++ [n]) = true → ∀ rest loc, fs.follow fits links here rest = .ok loc →
        fs.follow fits more before (.down n :: rest) = .ok loc) :
      Leads fs fits links (before :: trail) (ns ++ [n]) here

lemma Leads.le_maxLinks (h : fs.Leads fits links trail ns here) : links ≤ maxLinks := by
  induction h with
  | top hle => exact hle
  | down h hle hstep ih => exact Nat.le_trans hle ih

lemma Leads.anti (h : fs.Leads fits links trail ns here) (hle : links' ≤ links) :
    fs.Leads fits links' trail ns here := by
  cases h with
  | top hmax => exact .top (Nat.le_trans hle hmax)
  | down h hmore hstep =>
      exact .down h (Nat.le_trans hle hmore) fun hfits rest loc hrest =>
        hstep hfits rest loc (follow_mono_links hle hrest)

/-- What can be followed from the place can be followed behind the names. -/
lemma Leads.follow (h : fs.Leads fits links trail ns here) (hfits : ∀ l, l <+: ns → fits l = true)
    (hrest : fs.follow fits links here rest = .ok loc) :
    fs.follow fits maxLinks [] (ns.map .down ++ rest) = .ok loc := by
  induction h generalizing rest with
  | top hle => exact follow_mono_links hle hrest
  | @down _ _ _ ns n _ _ h hle hstep ih =>
      rw [List.map_append, List.append_assoc]
      exact ih (fun l hl => hfits l (hl.trans (List.prefix_append ns [n])))
        (hstep (hfits _ List.prefix_rfl) _ _ hrest)

/-- A place that is no link is led to by its own names. -/
lemma leads_above {x : Node} (h : fs.node? loc = some x) (hx : x.isLink = false) :
    fs.Leads fits maxLinks (above loc) loc loc := by
  induction loc using List.reverseRecOn generalizing x with
  | nil => exact .top (Nat.le_refl _)
  | append_singleton init n ih =>
      obtain ⟨es, hes⟩ := exists_directory_of_node?_concat h
      rw [above_concat]
      refine .down (ih hes rfl) (Nat.le_refl _) fun hfits rest loc hrest => ?_
      rw [follow_down h hx, if_pos hfits]
      exact hrest

/-! ### What is left of the steps -/

/-- **Steps that retrace their way**: the names that are left of them when no file is looked at
lead where they lead. -/
lemma exists_stack_of_follow (hback : fs.Retraces trail here ss)
    (hlead : fs.Leads fits links trail ns here) (h : fs.follow fits links here ss = .ok loc) :
    ∃ ms, (ss.filterMap Path.Step.component?).foldl Path.collapse (Path.stack ns) =
        Path.stack ms ∧
      ((∀ l, l <+: ms → fits l = true) → fs.follow fits maxLinks [] (ms.map .down) = .ok loc) := by
  induction hback generalizing links ns with
  | nil =>
      refine ⟨ns, rfl, fun hfits => ?_⟩
      rw [← List.append_nil (ns.map Path.Step.down)]
      exact hlead.follow hfits h
  | stay hback ih =>
      obtain ⟨es, hes⟩ := exists_directory_of_follow_cons h
      rw [follow_stay hes] at h
      exact ih hlead h
  | top hback ih =>
      obtain ⟨es, hes⟩ := exists_directory_of_follow_cons h
      rw [follow_up hes] at h
      cases hlead with
      | top hle => exact ih (.top hle) h
  | up hback ih =>
      obtain ⟨es, hes⟩ := exists_directory_of_follow_cons h
      rw [follow_up hes] at h
      cases hlead with
      | @down _ _ _ ns n _ _ hbefore hle hstep =>
          have hup : Path.collapse (Path.stack (ns ++ [n])) .parent = Path.stack ns := by
            rw [Path.collapse_parent, List.dropLast_concat]
          obtain ⟨ms, hms, hfollow⟩ := ih (hbefore.anti hle) h
          refine ⟨ms, ?_, hfollow⟩
          rw [← hms, ← hup]
          rfl
  | @down trail here next n ss hnext hback ih =>
      obtain ⟨mid, hmid, left, hle, hleft⟩ :=
        @exists_follow_append fs fits links here _ [.down n] ss h
      -- With the links that are left the name leads to the same place as with all of them.
      obtain rfl : mid = next := by
        have hall := follow_mono_links hlead.le_maxLinks (follow_mono (fun _ _ => rfl) hmid)
        exact Except.ok.inj (hall.symm.trans hnext)
      have hstep : fs.Leads fits left (here :: trail) (ns ++ [n]) mid :=
        .down hlead hle fun _ rest loc hrest => (hleft rest).trans hrest
      obtain ⟨ms, hms, hfollow⟩ := ih hstep ((hleft ss).symm.trans h)
      refine ⟨ms, ?_, hfollow⟩
      rw [← hms, ← Path.collapse_name]
      rfl

/-! ### Paths -/

/-- Names that are passed can be stored. -/
lemma isStorable_of_follow (h : fs.follow fits links here (ns.map .down) = .ok loc) :
    ∀ n ∈ ns, n.isStorable = true := by
  induction ns generalizing links here with
  | nil => exact fun n hn => absurd hn List.not_mem_nil
  | cons n ns ih =>
      obtain ⟨mid, hmid, left, -, hleft⟩ :=
        @exists_follow_append fs fits links here _ [.down n] (ns.map .down) h
      refine List.forall_mem_cons.mpr ⟨?_, ih ((hleft _).symm.trans h)⟩
      obtain ⟨es, hes⟩ := exists_directory_of_follow_cons hmid
      cases hchild : (Node.directory es).child? n with
      | some x => exact Node.isStorable_of_child? hchild
      | none =>
          rw [follow, hes] at hmid
          simp only [hchild] at hmid
          split_ifs at hmid

/-- So a normal path that leads somewhere holds no NUL. -/
lemma contains_zero_of_followPath (h : fs.followPath fits (.ofNames ns) = .ok loc) :
    (Path.ofNames ns).bytes.contains 0 = false := by
  have hslash : (0 : UInt8) ≠ slash := by decide
  rw [followPath_ofNames] at h
  rw [← Bool.not_eq_true, List.contains_iff_mem, Path.mem_bytes_ofNames hslash]
  rintro ⟨n, hn, hzero⟩
  have hstorable := isStorable_of_follow h n hn
  simp [FileName.isStorable, hzero] at hstorable

/-- What is left of the steps of a path behind that of a place; an absolute path starts anew. -/
lemma foldl_components_join_pathOf (start : Location) (p : Path) :
    ((pathOf start).join p).components.foldl Path.collapse [] =
      (p.steps.filterMap Path.Step.component?).foldl Path.collapse
        (Path.stack (if p.isAbsolute then [] else start)) := by
  cases habs : p.isAbsolute with
  | true =>
      rw [Path.join_of_isAbsolute _ habs, Path.components_of_isAbsolute habs, List.foldl_cons]
      rfl
  | false =>
      have htop : (start.map Component.name).foldl Path.collapse (Path.stack []) =
          Path.stack start := Path.foldl_collapse_stack [] start
      rw [pathOf, Path.components_join (Path.ofNames_bytes_ne_nil _) habs, Path.components_ofNames,
        List.cons_append, List.foldl_cons, List.foldl_append, ← Path.filterMap_component?_steps,
        if_neg Bool.false_ne_true, ← htop]
      rfl

/-- **A path that retraces its way** has a normal form that leads where it leads. -/
lemma exists_normal_of_followPath (hback : fs.IsRetraced p) (h : fs.followPath fits p = .ok loc) :
    ∃ ms, ((pathOf fs.workingDirectory).join p).normal = .ofNames ms ∧
      ((∀ l, l <+: ms → fits l = true) → fs.followPath fits (.ofNames ms) = .ok loc) := by
  rw [followPath] at h
  obtain ⟨es, hes⟩ : ∃ es, fs.node? (if p.isAbsolute then [] else fs.workingDirectory) =
      some (.directory es) := by
    obtain ⟨s, ss, hss⟩ := List.exists_cons_of_ne_nil p.steps_ne_nil
    rw [hss] at h
    exact exists_directory_of_follow_cons h
  obtain ⟨ms, hms, hfollow⟩ := exists_stack_of_follow hback (leads_above hes rfl) h
  refine ⟨ms, Path.normal_of_foldl_eq_stack ?_, fun hfits => ?_⟩
  · rw [foldl_components_join_pathOf, hms]
  · rw [followPath_ofNames]
    exact hfollow hfits

/-! ### Paths that do -/

/-- Without links every path that leads somewhere retraces its way. -/
lemma retraces_of_isLinkFree (hfree : fs.IsLinkFree)
    (h : fs.follow (fun _ => true) links here ss = .ok loc) :
    fs.Retraces (above here) here ss := by
  fun_induction follow fs (fun _ => true) links here ss with
  | case1 => exact .nil
  | case2 links here ss es hes ih => exact .stay (ih h)
  | case3 links here ss es hes ih =>
      rcases List.eq_nil_or_concat' here with rfl | ⟨init, n, rfl⟩
      · exact .top (ih h)
      · have hup := Retraces.up (ih h)
        rw [List.dropLast_concat] at hup
        rw [above_concat]
        exact hup
  | case7 here ss es hes n hfits target htarget links ih =>
      rw [child?_of_directory hes] at htarget
      cases hfree _ _ htarget
  | case8 links here ss es hes n hfits x hx hchild ih =>
      rw [child?_of_directory hes] at hchild
      refine .down ?_ (above_concat here n ▸ ih h)
      rw [follow_down hchild (hfree _ _ hchild), if_pos rfl, follow_nil]
  | _ => cases h

/-- So does a path without steps up, whatever links are on it. -/
lemma retraces_of_up_notMem (hup : .up ∉ ss) (hle : links ≤ maxLinks)
    (h : fs.follow (fun _ => true) links here ss = .ok loc) : fs.Retraces trail here ss := by
  induction ss generalizing links trail here with
  | nil => exact .nil
  | cons s ss ih =>
      rw [List.mem_cons, not_or] at hup
      obtain ⟨hs, hss⟩ := hup
      cases s with
      | stay =>
          obtain ⟨es, hes⟩ := exists_directory_of_follow_cons h
          rw [follow_stay hes] at h
          exact .stay (ih hss hle h)
      | up => exact absurd rfl hs
      | down n =>
          obtain ⟨mid, hmid, left, hleft_le, hleft⟩ :=
            @exists_follow_append fs (fun _ => true) links here _ [.down n] ss h
          have hrest := (hleft ss).symm.trans h
          exact .down (follow_mono_links hle hmid) (ih hss (Nat.le_trans hleft_le hle) hrest)

lemma isRetraced_of_locate (hp : fs.IsLinkFree ∨ .up ∉ p.steps) (h : fs.locate p = .ok loc) :
    fs.IsRetraced p := by
  have hfollow := followPath_of_locate h
  rw [followPath] at hfollow
  rcases hp with hfree | hup
  · exact retraces_of_isLinkFree hfree hfollow
  · exact retraces_of_up_notMem hup (Nat.le_refl _) hfollow

end DocLint.FileSystem
