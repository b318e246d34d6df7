/-
The directories that a walk opens.

* `FileSystem.Opens`: a directory is opened below others; a link that is followed
  must lead to a directory that is not open, and anything else is opened as it
  stands.
* `mem_visitsBelow_iff`: what a walk comes by is what the directories that it
  opens have at their names, `FileSystem.ComesBy`.
* `Opens.followPath_eq`, `Opens.followPath_entry`: the paths of open directories
  and of their entries lead to their places.
* `exists_trail_length_le`: however links lead about, there is a bound on the
  depth of open directories. Between two followed links a walk only goes down in
  the file system, and no two of the followed links lead to the same place.
-/
import Mathlib.Data.List.Perm.Subperm
import DocLint.Proofs.FileSystem.Entries
import DocLint.Proofs.FileSystem.VisitOrder

namespace DocLint.FileSystem

/-- The directories that a walk opens, each with those above it, nearest first. -/
inductive Opens (fs : FileSystem) (rules : WalkRules) (start : Path) (place : Location) :
    OpenDirectory → List OpenDirectory → Prop
  | root : Opens fs rules start place ⟨place, []⟩ []
  | enter {d : OpenDirectory} {ds : List OpenDirectory} {n : FileName} {sub : Location}
      (h : Opens fs rules start place d ds)
      (hread : ∃ loc, fs.locate (start.along d.trail) = .ok loc)
      (hsub : fs.entryPlace rules.followLinks start d n = .ok sub)
      (hdir : ∃ es, fs.node? sub = some (.directory es))
      (hloop : fs.isLinkAt (d.place ++ [n]) = true → ∀ a ∈ d :: ds, a.place ≠ sub)
      (henter : rules.enters (d.trail.length + 1) n = true) :
      Opens fs rules start place ⟨sub, d.trail ++ [n]⟩ (d :: ds)

variable {fs : FileSystem} {rules : WalkRules} {start : Path} {place : Location}
  {d : OpenDirectory} {ds : List OpenDirectory} {n : FileName} {v : Visit}

/-! ### What a walk comes by -/

/-- What a walk comes by below its start, told by the directories it opens. -/
inductive ComesBy (fs : FileSystem) (rules : WalkRules) (start : Path) (place : Location) :
    Visit → Prop
  | unreadable {d : OpenDirectory} {ds : List OpenDirectory} {e : Fault}
      (h : Opens fs rules start place d ds) (hdepth : d.trail.length < rules.maxDepth)
      (hread : fs.locate (start.along d.trail) = .error e) :
      ComesBy fs rules start place (.failure d.trail (.unreachable (start.along d.trail) e))
  | failure {d : OpenDirectory} {ds : List OpenDirectory} {n : FileName} {cause : WalkFault}
      (h : Opens fs rules start place d ds) (hdepth : d.trail.length < rules.maxDepth)
      (hread : ∃ loc, fs.locate (start.along d.trail) = .ok loc) (hn : n ∈ fs.names d.place)
      (hc : fs.classify rules.followLinks start (d.place ++ [n]) (d.trail ++ [n]) (d :: ds)
        = .error cause) :
      ComesBy fs rules start place (.failure (d.trail ++ [n]) cause)
  | entry {d : OpenDirectory} {ds : List OpenDirectory} {n : FileName} {kind : EntryKind}
      (h : Opens fs rules start place d ds) (hdepth : d.trail.length < rules.maxDepth)
      (hread : ∃ loc, fs.locate (start.along d.trail) = .ok loc) (hn : n ∈ fs.names d.place)
      (hc : fs.classify rules.followLinks start (d.place ++ [n]) (d.trail ++ [n]) (d :: ds)
        = .ok kind)
      (henter : ∀ sub, kind = .directory sub → rules.enters (d.trail.length + 1) n = true) :
      ComesBy fs rules start place (.entry (d.trail ++ [n]) kind)

/-- A directory that is entered is opened. -/
lemma Opens.enter_of_classify {sub : Location} (h : Opens fs rules start place d ds)
    (hread : ∃ loc, fs.locate (start.along d.trail) = .ok loc)
    (hc : fs.classify rules.followLinks start (d.place ++ [n]) (d.trail ++ [n]) (d :: ds)
      = .ok (.directory sub))
    (henter : rules.enters (d.trail.length + 1) n = true) :
    Opens fs rules start place ⟨sub, d.trail ++ [n]⟩ (d :: ds) := by
  obtain ⟨hsub, hdir, hloop⟩ := classify_eq_directory_iff.mp hc
  exact .enter h hread hsub hdir hloop henter

lemma comesBy_of_mem (depth : Nat) (h : Opens fs rules start place d ds)
    (hdepth : d.trail.length + depth = rules.maxDepth)
    (hv : v ∈ fs.visitsBelow rules start depth d ds) : ComesBy fs rules start place v := by
  induction depth generalizing d ds with
  | zero => exact absurd hv List.not_mem_nil
  | succ depth ih =>
      have hlt : d.trail.length < rules.maxDepth := by omega
      rcases mem_visitsBelow_succ.mp hv with ⟨cause, hl, rfl⟩ | ⟨names, hl, n, hn, hv⟩
      · obtain ⟨e, he, rfl⟩ := listing_eq_error_iff.mp hl
        exact .unreadable h hlt he
      · obtain ⟨hread, rfl⟩ := listing_eq_ok_iff.mp hl
        rcases mem_visitsAt.mp hv with ⟨cause, hc, rfl⟩ | ⟨kind, hc, henter, rfl⟩ |
          ⟨sub, hc, henter, hv⟩
        · exact .failure h hlt hread hn hc
        · exact .entry h hlt hread hn hc henter
        · refine ih (h.enter_of_classify hread hc henter) ?_ hv
          simp only [List.length_append, List.length_cons, List.length_nil]
          omega

/-- An entered directory is listed where it is entered. -/
lemma mem_names_of_entryPlace {followLinks : Bool} {sub : Location}
    (hsub : fs.entryPlace followLinks start d n = .ok sub)
    (hdir : ∃ es, fs.node? sub = some (.directory es)) : n ∈ fs.names d.place := by
  rw [mem_names]
  by_contra hnone
  have hlink : fs.isLinkAt (d.place ++ [n]) = false := by
    rw [isLinkAt, Option.not_isSome_iff_eq_none.mp hnone, Option.any_none]
  rw [entryPlace, hlink, Bool.and_false, if_neg Bool.false_ne_true] at hsub
  cases hsub
  obtain ⟨es, hes⟩ := hdir
  exact hnone (Option.isSome_of_mem hes)

lemma Opens.mem_of_mem (h : Opens fs rules start place d ds)
    (hdepth : d.trail.length ≤ rules.maxDepth) :
    ∀ v ∈ fs.visitsBelow rules start (rules.maxDepth - d.trail.length) d ds,
      v ∈ fs.visitsBelow rules start rules.maxDepth ⟨place, []⟩ [] := by
  induction h with
  | root => exact fun v hv => hv
  | @enter d ds n sub h hread hsub hdir hloop henter ih =>
      intro v hv
      rw [List.length_append, List.length_singleton] at hdepth hv
      obtain ⟨depth, hd⟩ : ∃ depth, rules.maxDepth - d.trail.length = depth + 1 :=
        ⟨rules.maxDepth - (d.trail.length + 1), by omega⟩
      rw [show rules.maxDepth - (d.trail.length + 1) = depth from by omega] at hv
      refine ih (by omega) v ?_
      rw [hd]
      refine mem_visitsBelow_succ.mpr (Or.inr ⟨_, listing_eq_ok_iff.mpr ⟨hread, rfl⟩, n,
        mem_names_of_entryPlace hsub hdir, ?_⟩)
      exact mem_visitsAt.mpr
        (Or.inr (Or.inr ⟨sub, classify_eq_directory_iff.mpr ⟨hsub, hdir, hloop⟩, henter, hv⟩))

/-- What an open directory has whatever levels are left, a walk comes by. -/
lemma Opens.mem_of_forall (h : Opens fs rules start place d ds)
    (hdepth : d.trail.length < rules.maxDepth)
    (hv : ∀ depth, v ∈ fs.visitsBelow rules start (depth + 1) d ds) :
    v ∈ fs.visitsBelow rules start rules.maxDepth ⟨place, []⟩ [] := by
  obtain ⟨depth, hd⟩ : ∃ depth, rules.maxDepth - d.trail.length = depth + 1 :=
    ⟨rules.maxDepth - d.trail.length - 1, by omega⟩
  refine h.mem_of_mem (Nat.le_of_lt hdepth) v ?_
  rw [hd]
  exact hv depth

/-- **What a walk comes by** is what the directories that it opens have. -/
theorem mem_visitsBelow_iff :
    v ∈ fs.visitsBelow rules start rules.maxDepth ⟨place, []⟩ [] ↔
      ComesBy fs rules start place v := by
  refine ⟨fun h => comesBy_of_mem rules.maxDepth .root (Nat.zero_add _) h, fun h => ?_⟩
  cases h with
  | unreadable h hdepth hread =>
      refine h.mem_of_forall hdepth fun depth => mem_visitsBelow_succ.mpr (Or.inl ?_)
      exact ⟨_, listing_eq_error_iff.mpr ⟨_, hread, rfl⟩, rfl⟩
  | failure h hdepth hread hn hc =>
      refine h.mem_of_forall hdepth fun depth => mem_visitsBelow_succ.mpr (Or.inr ?_)
      refine ⟨_, listing_eq_ok_iff.mpr ⟨hread, rfl⟩, _, hn, ?_⟩
      exact mem_visitsAt.mpr (Or.inl ⟨_, hc, rfl⟩)
  | entry h hdepth hread hn hc henter =>
      refine h.mem_of_forall hdepth fun depth => mem_visitsBelow_succ.mpr (Or.inr ?_)
      refine ⟨_, listing_eq_ok_iff.mpr ⟨hread, rfl⟩, _, hn, ?_⟩
      exact mem_visitsAt.mpr (Or.inr (Or.inl ⟨_, hc, henter, rfl⟩))

/-! ### Where open directories are -/

/-- The path of an open directory leads to its place, however long it is. -/
lemma Opens.followPath_eq {ns : List FileName}
    (hstart : fs.followPath (fun _ => true) (Path.ofNames ns) = .ok place)
    (h : Opens fs rules (Path.ofNames ns) place d ds) :
    fs.followPath (fun _ => true) ((Path.ofNames ns).along d.trail) = .ok d.place := by
  induction h with
  | root => rwa [Path.along_ofNames, List.append_nil]
  | @enter d ds n sub h hread hsub hdir hloop henter ih =>
      obtain ⟨es, hes⟩ := hdir
      rw [entryPlace] at hsub
      split_ifs at hsub with hlink
      · exact followPath_of_locate hsub
      · cases hsub
        rw [Path.along_ofNames] at ih ⊢
        rw [← List.append_assoc, followPath_append (fun _ _ _ => rfl) ih
          (List.cons_ne_nil n []) hes rfl, if_pos rfl]

/-- The path of an entry leads to where the entry leads. -/
lemma Opens.followPath_entry {ns : List FileName} {loc : Location} {x : Node}
    (hstart : fs.followPath (fun _ => true) (Path.ofNames ns) = .ok place)
    (h : Opens fs rules (Path.ofNames ns) place d ds)
    (hloc : fs.entryPlace rules.followLinks (Path.ofNames ns) d n = .ok loc)
    (hx : fs.node? loc = some x) (hlink : x.isLink = false) :
    fs.followPath (fun _ => true) ((Path.ofNames ns).along (d.trail ++ [n])) = .ok loc := by
  rw [entryPlace] at hloc
  split_ifs at hloc with hl
  · exact followPath_of_locate hloc
  · cases hloc
    have hd := h.followPath_eq hstart
    rw [Path.along_ofNames] at hd ⊢
    rw [← List.append_assoc, followPath_append (fun _ _ _ => rfl) hd (List.cons_ne_nil n []) hx
      hlink, if_pos rfl]

/-! ### Walks are finite -/

/-- The measure behind finiteness: `jumps` are the places to which links were
followed, none of them twice, and between two of them a walk only goes down. -/
lemma Opens.exists_jumps {L : List Location} {height : Nat}
    (hL : ∀ loc x, fs.node? loc = some x → loc ∈ L ∧ loc.length ≤ height)
    (h : Opens fs rules start place d ds) :
    ∃ jumps : List Location, jumps.Nodup ∧ jumps ⊆ L ∧
      (∀ loc ∈ jumps, ∃ a ∈ d :: ds, a.place = loc) ∧
      d.trail.length ≤ jumps.length * (height + 1) + d.place.length := by
  induction h with
  | root => exact ⟨[], List.nodup_nil, List.nil_subset L, by simp, by simp⟩
  | @enter d ds n sub h hread hsub hdir hloop henter ih =>
      obtain ⟨jumps, hnodup, hsubset, hopen, hlength⟩ := ih
      have hopen' : ∀ loc ∈ jumps, ∃ a ∈ (⟨sub, d.trail ++ [n]⟩ : OpenDirectory) :: d :: ds,
          a.place = loc := fun loc hloc => by
        obtain ⟨a, ha, hal⟩ := hopen loc hloc
        exact ⟨a, List.mem_cons_of_mem _ ha, hal⟩
      obtain ⟨es, hes⟩ := hdir
      rw [entryPlace] at hsub
      by_cases hlink : fs.isLinkAt (d.place ++ [n]) = true
      · have hnew : sub ∉ jumps := fun hmem => by
          obtain ⟨a, ha, hal⟩ := hopen sub hmem
          exact hloop hlink a ha hal
        obtain ⟨target, ht⟩ := isLinkAt_eq_true_iff.mp hlink
        obtain ⟨es', hes'⟩ := exists_directory_of_node?_concat ht
        have hd := (hL _ _ hes').2
        refine ⟨sub :: jumps, List.nodup_cons.mpr ⟨hnew, hnodup⟩,
          List.cons_subset.mpr ⟨(hL _ _ hes).1, hsubset⟩, fun loc hloc => ?_, ?_⟩
        · rcases List.mem_cons.mp hloc with rfl | hloc
          · exact ⟨_, List.mem_cons_self, rfl⟩
          · exact hopen' loc hloc
        · rw [List.length_append, List.length_singleton, List.length_cons, Nat.add_mul]
          omega
      · rw [Bool.not_eq_true] at hlink
        rw [hlink, Bool.and_false, if_neg Bool.false_ne_true] at hsub
        cases hsub
        refine ⟨jumps, hnodup, hsubset, hopen', ?_⟩
        rw [List.length_append, List.length_append, List.length_singleton]
        omega

/-- **Walks are finite**: there is a bound on the depth of open directories that
no rules, no start and no links exceed. -/
theorem exists_trail_length_le (fs : FileSystem) :
    ∃ bound, ∀ rules start place d ds, Opens fs rules start place d ds →
      d.trail.length ≤ bound := by
  obtain ⟨L, hL⟩ := fs.exists_places
  have hheight : ∀ loc ∈ L, loc.length ≤ L.flatten.length := fun loc hloc =>
    (List.sublist_flatten_of_mem hloc).length_le
  refine ⟨L.length * (L.flatten.length + 1) + L.flatten.length, ?_⟩
  intro rules start place d ds h
  obtain ⟨jumps, hnodup, hsubset, -, hlength⟩ :=
    h.exists_jumps fun loc x hx => ⟨hL loc x hx, hheight loc (hL loc x hx)⟩
  have hjumps : jumps.length ≤ L.length := (List.Nodup.subperm hnodup hsubset).length_le
  cases h with
  | root => exact Nat.zero_le _
  | @enter d ds n sub h hread hsub hdir hloop henter =>
      obtain ⟨es, hes⟩ := hdir
      calc (d.trail ++ [n]).length
          ≤ jumps.length * (L.flatten.length + 1) + sub.length := hlength
        _ ≤ L.length * (L.flatten.length + 1) + L.flatten.length :=
          Nat.add_le_add (Nat.mul_le_mul_right _ hjumps) (hheight _ (hL _ _ hes))

/-- Below a directory, levels that no open directory reaches make no
difference. -/
lemma visitsBelow_eq_of_lt {bound : Nat}
    (hbound : ∀ d ds, Opens fs rules start place d ds → d.trail.length ≤ bound)
    {depth depth' : Nat} (h : Opens fs rules start place d ds)
    (hd : bound < d.trail.length + depth) (hd' : bound < d.trail.length + depth') :
    fs.visitsBelow rules start depth d ds = fs.visitsBelow rules start depth' d ds := by
  induction depth generalizing d ds depth' with
  | zero => exact absurd (hbound d ds h) (by omega)
  | succ depth ih =>
      cases depth' with
      | zero => exact absurd (hbound d ds h) (by omega)
      | succ depth' =>
          rw [visitsBelow, visitsBelow]
          cases hl : fs.listing start d with
          | error cause => rfl
          | ok names =>
              refine congrArg (List.flatMap · names) (funext fun n => ?_)
              rw [visitsAt, visitsAt]
              split
              · rfl
              · next sub hc =>
                split_ifs with henter
                · rw [List.length_append, List.length_singleton] at henter
                  have hopen := h.enter_of_classify (listing_eq_ok_iff.mp hl).1 hc henter
                  refine congrArg _ (ih hopen ?_ ?_) <;>
                    simp only [List.length_append, List.length_singleton] <;> omega
                · rfl
              · rfl

/-- Below a directory, only the levels that are left bound a walk. -/
lemma visitsBelow_maxDepth (fs : FileSystem) (rules : WalkRules) (start : Path) (m depth : Nat) :
    fs.visitsBelow { rules with maxDepth := m } start depth =
      fs.visitsBelow rules start depth := by
  induction depth with
  | zero => rfl
  | succ depth ih =>
      funext d ds
      rw [visitsBelow, visitsBelow, ih]
      rfl

/-- Greatest depths that no open directory reaches make no difference. -/
lemma visits_eq_of_lt {bound m m' : Nat}
    (hbound : ∀ rules start place d ds, Opens fs rules start place d ds → d.trail.length ≤ bound)
    (hm : bound < m) (hm' : bound < m') :
    fs.visits { rules with maxDepth := m } start place =
      fs.visits { rules with maxDepth := m' } start place := by
  have hbelow : fs.visitsBelow { rules with maxDepth := m } start m ⟨place, []⟩ [] =
      fs.visitsBelow { rules with maxDepth := m' } start m' ⟨place, []⟩ [] := by
    rw [fs.visitsBelow_maxDepth rules start m m, fs.visitsBelow_maxDepth rules start m' m']
    refine visitsBelow_eq_of_lt (hbound rules start place) .root ?_ ?_
    · rwa [List.length_nil, Nat.zero_add]
    · rwa [List.length_nil, Nat.zero_add]
  rw [visits, visits, hbelow]

end DocLint.FileSystem
