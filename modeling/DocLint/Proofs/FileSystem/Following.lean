/-
Following paths: what a longer path adds to a shorter one.

* `follow_append`: once a path has led somewhere, the steps behind it are taken
  from there; `follow_append_of_error`: if it leads nowhere, they change nothing.
* `follow_mono_links`: more links are no hindrance.
* `follow_eq_or`: places that do not fit only ever make a path too long;
  `exists_not_fits`: and they are there.
* `follow_downs`: names without links among them lead straight down, unless a
  place on the way does not fit.
* `locate_append`, `realPlace_append`: below a normal path that leads somewhere,
  names without links lead to the place of these names, and the one thing that
  can be in the way is the length of a path.
* `eq_of_realPlace_of_locate`: finding a location place by place gives no other
  one.
-/
import DocLint.Proofs.Path.Components
import DocLint.Proofs.FileSystem.Places

namespace DocLint.FileSystem

variable {fs : FileSystem} {fits : Location → Bool} {links : Nat} {here loc : Location}
  {ns t : List FileName} {n : FileName} {x : Node}

/-! ### Steps -/

lemma follow_nil : fs.follow fits links here [] = .ok here := by
  rw [follow]

lemma follow_stay {es : List (FileName × Node)} (h : fs.node? here = some (.directory es))
    (ss : List Path.Step) :
    fs.follow fits links here (.stay :: ss) = fs.follow fits links here ss := by
  rw [follow, h]

lemma not_lt_length_of_isStorable (h : n.isStorable = true) : ¬ maxNameLength < n.bytes.length := by
  rw [FileName.isStorable, Bool.and_eq_true, decide_eq_true_eq] at h
  exact Nat.not_lt.mpr h.1

/-- A step down to anything but a link. -/
lemma follow_down (h : fs.node? (here ++ [n]) = some x) (hx : x.isLink = false)
    (ss : List Path.Step) :
    fs.follow fits links here (.down n :: ss) =
      if fits (here ++ [n]) then fs.follow fits links (here ++ [n]) ss
      else .error .nameTooLong := by
  obtain ⟨es, hes⟩ := exists_directory_of_node?_concat h
  have hlen := not_lt_length_of_isStorable (isStorable_of_node?_concat h)
  rw [follow, hes]
  simp only [child?_of_directory hes, h]
  by_cases hf : fits (here ++ [n]) = true
  · simp only [hlen, hf, decide_false, Bool.not_true, Bool.or_self, Bool.false_eq_true, if_false,
      if_true]
    cases x with
    | link target => simp [Node.isLink] at hx
    | _ => rfl
  · simp [hf]

/-- A step down to a link is taken back, for the steps of the link. -/
lemma follow_link {target : Path} (h : fs.node? (here ++ [n]) = some (.link target))
    (ss : List Path.Step) :
    fs.follow fits (links + 1) here (.down n :: ss) =
      if fits (here ++ [n]) then
        fs.follow fits links (if target.isAbsolute then [] else here) (target.steps ++ ss)
      else .error .nameTooLong := by
  obtain ⟨es, hes⟩ := exists_directory_of_node?_concat h
  have hlen := not_lt_length_of_isStorable (isStorable_of_node?_concat h)
  rw [follow, hes]
  simp only [child?_of_directory hes, h]
  by_cases hf : fits (here ++ [n]) = true <;> simp [hlen, hf]

/-- Once steps have led somewhere, the steps behind them are taken from there, with the links
that are left. -/
lemma follow_append {ss : List Path.Step} (h : fs.follow fits links here ss = .ok loc) :
    ∃ left ≤ links, ∀ rest, fs.follow fits links here (ss ++ rest) =
      fs.follow fits left loc rest := by
  fun_induction follow fs fits links here ss with
  | case1 links here =>
      cases h
      exact ⟨links, Nat.le_refl links, fun _ => rfl⟩
  | case2 links here ss es hes ih =>
      obtain ⟨left, hle, hleft⟩ := ih h
      exact ⟨left, hle, fun rest => by rw [List.cons_append, follow_stay hes, hleft]⟩
  | case3 links here ss es hes ih =>
      obtain ⟨left, hle, hleft⟩ := ih h
      exact ⟨left, hle, fun rest => by rw [List.cons_append, follow, hes]; exact hleft rest⟩
  | case7 here ss es hes n hfits target htarget links ih =>
      obtain ⟨left, hle, hleft⟩ := ih h
      refine ⟨left, Nat.le_succ_of_le hle, fun rest => ?_⟩
      rw [List.cons_append, follow, hes]
      simp only [if_neg hfits, htarget]
      rw [← List.append_assoc]
      exact hleft rest
  | case8 links here ss es hes n hfits x hx hchild ih =>
      obtain ⟨left, hle, hleft⟩ := ih h
      refine ⟨left, hle, fun rest => ?_⟩
      rw [List.cons_append, follow, hes]
      simp only [if_neg hfits, hchild]
      exact hleft rest
  | _ => cases h

/-- Steps that lead nowhere do so whatever stands behind them. -/
lemma follow_append_of_error {ss : List Path.Step} {e : Fault}
    (h : fs.follow fits links here ss = .error e) (rest : List Path.Step) :
    fs.follow fits links here (ss ++ rest) = .error e := by
  fun_induction follow fs fits links here ss with
  | case1 => cases h
  | case2 links here ss es hes ih =>
      rw [List.cons_append, follow_stay hes]
      exact ih h
  | case3 links here ss es hes ih =>
      rw [List.cons_append, follow, hes]
      exact ih h
  | case7 here ss es hes n hfits target htarget links ih =>
      rw [List.cons_append, follow, hes]
      simp only [if_neg hfits, htarget]
      rw [← List.append_assoc]
      exact ih h
  | case8 links here ss es hes n hfits x hx hchild ih =>
      rw [List.cons_append, follow, hes]
      simp only [if_neg hfits, hchild]
      exact ih h
  | case4 links here ss es hes n hfits =>
      rw [List.cons_append, follow, hes]
      simp only [if_pos hfits]
      exact h
  | case5 links here ss es hes n hfits hchild =>
      rw [List.cons_append, follow, hes]
      simp only [if_neg hfits, hchild]
      exact h
  | case6 here ss es hes n hfits target htarget =>
      rw [List.cons_append, follow, hes]
      simp only [if_neg hfits, htarget]
      exact h
  | _ => simp_all [follow]

/-- More links are no hindrance. -/
lemma follow_mono_links {links' : Nat} {ss : List Path.Step} (hle : links ≤ links')
    (h : fs.follow fits links here ss = .ok loc) : fs.follow fits links' here ss = .ok loc := by
  fun_induction follow fs fits links here ss generalizing links' with
  | case1 => rwa [follow]
  | case2 links here ss es hes ih =>
      rw [follow_stay hes]
      exact ih hle h
  | case3 links here ss es hes ih =>
      rw [follow, hes]
      exact ih hle h
  | case7 here ss es hes n hfits target htarget links ih =>
      obtain ⟨k, rfl⟩ := Nat.exists_eq_add_one_of_ne_zero (Nat.ne_zero_of_lt hle)
      rw [follow, hes]
      simp only [if_neg hfits, htarget]
      exact ih (Nat.le_of_succ_le_succ hle) h
  | case8 links here ss es hes n hfits x hx hchild ih =>
      rw [follow, hes]
      simp only [if_neg hfits, hchild]
      exact ih hle h
  | _ => cases h

/-- What fits in one way of looking fits in a more generous one. -/
lemma follow_mono {fits' : Location → Bool} (hfits : ∀ l, fits l = true → fits' l = true)
    {ss : List Path.Step} (h : fs.follow fits links here ss = .ok loc) :
    fs.follow fits' links here ss = .ok loc := by
  fun_induction follow fs fits links here ss with
  | case1 => rwa [follow]
  | case2 links here ss es hes ih => rw [follow_stay hes]; exact ih h
  | case3 links here ss es hes ih => rw [follow, hes]; exact ih h
  | case7 => simp_all [follow]
  | case8 => simp_all [follow]
  | _ => cases h

/-- A place that does not fit is the one thing that can be in the way of steps
that lead somewhere. -/
lemma follow_eq_or {ss : List Path.Step}
    (h : fs.follow (fun _ => true) links here ss = .ok loc) :
    fs.follow fits links here ss = .ok loc ∨
      fs.follow fits links here ss = .error .nameTooLong := by
  fun_induction follow fs (fun _ => true) links here ss with
  | case1 links here =>
      cases h
      exact Or.inl follow_nil
  | case2 links here ss es hes ih =>
      rw [follow_stay hes]
      exact ih h
  | case3 links here ss es hes ih =>
      rw [follow, hes]
      exact ih h
  | case7 here ss es hes n hlen target htarget links ih =>
      rw [follow, hes]
      by_cases hf : (decide (maxNameLength < n.bytes.length) || !fits (here ++ [n])) = true
      · exact Or.inr (by simp only [if_pos hf])
      · simp only [if_neg hf, htarget]
        exact ih h
  | case8 links here ss es hes n hlen x hx hchild ih =>
      rw [follow, hes]
      by_cases hf : (decide (maxNameLength < n.bytes.length) || !fits (here ++ [n])) = true
      · exact Or.inr (by simp only [if_pos hf])
      · simp only [if_neg hf, hchild]
        exact ih h
  | _ => cases h

/-- Where a place in the way does not fit, it is there. -/
lemma exists_not_fits {ss : List Path.Step} {e : Fault}
    (h : fs.follow (fun _ => true) links here ss = .ok loc)
    (h' : fs.follow fits links here ss = .error e) :
    ∃ l x, fs.node? l = some x ∧ fits l = false := by
  fun_induction follow fs (fun _ => true) links here ss with
  | case1 links here =>
      rw [follow_nil] at h'
      cases h'
  | case2 links here ss es hes ih =>
      rw [follow_stay hes] at h'
      exact ih h h'
  | case3 links here ss es hes ih =>
      rw [follow, hes] at h'
      exact ih h h'
  | case7 here ss es hes n hlen target htarget links ih =>
      rw [child?_of_directory hes] at htarget
      cases hf : fits (here ++ [n]) with
      | false => exact ⟨here ++ [n], _, htarget, hf⟩
      | true =>
          rw [follow_link htarget, if_pos hf] at h'
          exact ih h h'
  | case8 links here ss es hes n hlen x hx hchild ih =>
      rw [child?_of_directory hes] at hchild
      cases hf : fits (here ++ [n]) with
      | false => exact ⟨here ++ [n], _, hchild, hf⟩
      | true =>
          have hlink : x.isLink = false := by
            cases x with
            | link target => exact absurd rfl (hx target)
            | _ => rfl
          rw [follow_down hchild hlink, if_pos hf] at h'
          exact ih h h'
  | _ => cases h

/-- Names without links among them lead straight down. The places on the way fit
if the last one does. -/
lemma follow_downs (hfits : ∀ l m, fits (l ++ m) = true → fits l = true) (ht : t ≠ [])
    (h : fs.node? (here ++ t) = some x) (hx : x.isLink = false) :
    fs.follow fits links here (t.map .down) =
      if fits (here ++ t) then .ok (here ++ t) else .error .nameTooLong := by
  induction t generalizing here with
  | nil => exact absurd rfl ht
  | cons n t ih =>
      rw [← List.singleton_append, ← List.append_assoc] at h ⊢
      rw [List.singleton_append, List.map_cons]
      by_cases ht : t = []
      · subst ht
        rw [List.append_nil] at h ⊢
        rw [follow_down h hx, List.map_nil, follow_nil]
      · obtain ⟨es, hes⟩ := exists_directory_of_node?_append ht h
        rw [follow_down hes rfl, ih ht h]
        by_cases hf : fits (here ++ [n]) = true
        · rw [if_pos hf]
        · rw [if_neg hf, if_neg fun hft => hf (hfits _ _ hft)]

/-! ### Normal paths -/

/-- A normal path takes its names down from the top. -/
lemma followPath_ofNames (fs : FileSystem) (fits : Location → Bool) (ns : List FileName) :
    fs.followPath fits (Path.ofNames ns) = fs.follow fits maxLinks [] (ns.map .down) := by
  rw [followPath, if_pos (Path.isAbsolute_ofNames ns)]
  cases ns with
  | nil => rw [Path.steps_ofNames_nil, follow_stay fs.node?_nil, follow_stay fs.node?_nil]; rfl
  | cons n ns => rw [Path.steps_ofNames (List.cons_ne_nil n ns), follow_stay fs.node?_nil]

/-- Below a normal path that leads somewhere, names without links among them lead
straight down. -/
lemma followPath_append (hfits : ∀ l m, fits (l ++ m) = true → fits l = true)
    (hp : fs.followPath fits (Path.ofNames ns) = .ok loc) (ht : t ≠ [])
    (h : fs.node? (loc ++ t) = some x) (hx : x.isLink = false) :
    fs.followPath fits (Path.ofNames (ns ++ t)) =
      if fits (loc ++ t) then .ok (loc ++ t) else .error .nameTooLong := by
  rw [followPath_ofNames] at hp ⊢
  obtain ⟨left, -, hleft⟩ := follow_append hp
  rw [List.map_append, hleft, follow_downs hfits ht h hx]

lemma contains_zero_ofNames_append (hp : (Path.ofNames ns).bytes.contains 0 = false)
    (h : fs.node? (loc ++ t) = some x) : (Path.ofNames (ns ++ t)).bytes.contains 0 = false := by
  have hslash : (0 : UInt8) ≠ slash := by decide
  rw [← Bool.not_eq_true, List.contains_iff_mem, Path.mem_bytes_ofNames hslash] at hp ⊢
  rintro ⟨n, hn, hzero⟩
  rcases List.mem_append.mp hn with hn | hn
  · exact hp ⟨n, hn, hzero⟩
  · have hst := isStorable_of_node? h n (List.mem_append_right loc hn)
    simp [FileName.isStorable, hzero] at hst

lemma locate_ofNames (fs : FileSystem) (ns : List FileName) :
    fs.locate (Path.ofNames ns) =
      if (Path.ofNames ns).bytes.contains 0 then .error .nulByte
      else if (Path.ofNames ns).isShort then fs.followPath (fun _ => true) (Path.ofNames ns)
      else .error .nameTooLong := by
  rw [locate, if_neg (Path.ofNames_bytes_ne_nil ns)]

lemma realPlace_ofNames (fs : FileSystem) (ns : List FileName) :
    fs.realPlace (Path.ofNames ns) =
      if (Path.ofNames ns).bytes.contains 0 then .error .nulByte
      else fs.followPath (fun loc => (pathOf loc).isShort) (Path.ofNames ns) := by
  rw [realPlace, if_neg (Path.ofNames_bytes_ne_nil ns)]

lemma followPath_of_locate {p : Path} (h : fs.locate p = .ok loc) :
    fs.followPath (fun _ => true) p = .ok loc := by
  rw [locate] at h
  split_ifs at h
  exact h

lemma followPath_of_realPlace {p : Path} (h : fs.realPlace p = .ok loc) :
    fs.followPath (fun _ => true) p = .ok loc := by
  rw [realPlace] at h
  split_ifs at h
  exact follow_mono (fun _ _ => rfl) h

/-- Finding a location place by place gives no other one. -/
lemma eq_of_realPlace_of_locate {p : Path} {loc' : Location} (h : fs.realPlace p = .ok loc)
    (h' : fs.locate p = .ok loc') : loc = loc' :=
  Except.ok.inj ((followPath_of_realPlace h).symm.trans (followPath_of_locate h'))

/-- A path that leads somewhere is resolved to just that place, unless a place on the way has
too long a path. -/
lemma realPlace_eq_or {p : Path} (h : fs.locate p = .ok loc) :
    fs.realPlace p = .ok loc ∨ fs.realPlace p = .error .nameTooLong := by
  have hfollow := followPath_of_locate h
  rw [locate] at h
  split_ifs at h with hzero hempty
  rw [realPlace, if_neg hzero, if_neg hempty]
  exact follow_eq_or hfollow

/-- What is too far down for a path to be resolved is there. -/
lemma exists_long_place {e : Fault} (h : fs.locate (Path.ofNames ns) = .ok loc)
    (h' : fs.realPlace (Path.ofNames ns) = .error e) :
    ∃ l x, fs.node? l = some x ∧ (pathOf l).isShort = false := by
  have hfollow := followPath_of_locate h
  rw [locate_ofNames] at h
  split_ifs at h with hzero
  rw [realPlace_ofNames, if_neg hzero] at h'
  exact exists_not_fits hfollow h'

/-- Below a normal path that leads somewhere, names without links lead to their
place, unless the path gets too long. -/
lemma locate_append (hp : fs.locate (Path.ofNames ns) = .ok loc) (ht : t ≠ [])
    (h : fs.node? (loc ++ t) = some x) (hx : x.isLink = false) :
    fs.locate (Path.ofNames (ns ++ t)) =
      if (Path.ofNames (ns ++ t)).isShort then .ok (loc ++ t) else .error .nameTooLong := by
  have hzero : (Path.ofNames ns).bytes.contains 0 = false := by
    rw [locate_ofNames] at hp
    split_ifs at hp with hz
    exact Bool.eq_false_iff.mpr hz
  rw [locate_ofNames, contains_zero_ofNames_append hzero h, if_neg Bool.false_ne_true,
    followPath_append (fun _ _ _ => rfl) (followPath_of_locate hp) ht h hx, if_pos rfl]

/-- The same place by place: here the place must not be too far down. -/
lemma realPlace_append (hp : fs.realPlace (Path.ofNames ns) = .ok loc) (ht : t ≠ [])
    (h : fs.node? (loc ++ t) = some x) (hx : x.isLink = false) :
    fs.realPlace (Path.ofNames (ns ++ t)) =
      if (pathOf (loc ++ t)).isShort then .ok (loc ++ t) else .error .nameTooLong := by
  rw [realPlace_ofNames] at hp
  split_ifs at hp with hzero
  rw [realPlace_ofNames, contains_zero_ofNames_append (Bool.eq_false_iff.mpr hzero) h,
    if_neg Bool.false_ne_true, followPath_append (fun _ _ => Path.isShort_of_append) hp ht h hx]

/-! ### Places by their own paths -/

lemma followPath_ofNames_nil (fs : FileSystem) (fits : Location → Bool) :
    fs.followPath fits (Path.ofNames []) = .ok [] := by
  rw [followPath_ofNames, List.map_nil, follow_nil]

lemma locate_ofNames_nil (fs : FileSystem) : fs.locate (Path.ofNames []) = .ok [] := by
  rw [locate_ofNames, if_neg (by decide), if_pos (by decide), followPath_ofNames_nil]

lemma realPlace_ofNames_nil (fs : FileSystem) : fs.realPlace (Path.ofNames []) = .ok [] := by
  rw [realPlace_ofNames, if_neg (by decide), followPath_ofNames_nil]

/-- What is no link is where its own path leads, if that is short. -/
lemma locate_ofNames_of_node? (h : fs.node? loc = some x) (hx : x.isLink = false)
    (hshort : (Path.ofNames loc).isShort = true) :
    fs.locate (Path.ofNames loc) = .ok loc ∧ fs.realPlace (Path.ofNames loc) = .ok loc := by
  by_cases hloc : loc = []
  · subst hloc
    exact ⟨fs.locate_ofNames_nil, fs.realPlace_ofNames_nil⟩
  · rw [← List.nil_append loc] at h
    have hlocate := locate_append fs.locate_ofNames_nil hloc h hx
    have hreal := realPlace_append fs.realPlace_ofNames_nil hloc h hx
    rw [List.nil_append, if_pos hshort] at hlocate
    rw [List.nil_append, pathOf, if_pos hshort] at hreal
    exact ⟨hlocate, hreal⟩

end DocLint.FileSystem
