/-
What a list of violations by file holds.

* `Findings.get?`: the violations under a path; paths with the same components
  are one path.
* `perm_entries_ofList`: of files that are all different, none is lost, and
  nothing is put behind the violations of another file.
* `get?_eq_some_iff`: what is under a path is what the one entry of that path
  holds.
* `ext_of_mem_iff`: two lists of findings with the same entries are equal.
-/
import DocLint.Proofs.FileSystem.Places
import DocLint.Proofs.Path.Components
import DocLint.Report.Findings

namespace DocLint

lemma Path.Before.key_ne {α : Type} {a b : Path × α} (h : Path.Before a b) :
    a.1.key ≠ b.1.key := by
  intro hk
  rw [Path.Before, hk] at h
  exact List.lt_irrefl _ h

namespace Findings

/-- The violations under a path, if it is listed. -/
def get? (f : Findings) (p : Path) : Option (List Violation) :=
  (f.entries.find? fun e => e.1.Same p).map (·.2)

variable {f g : Findings} {es : List (Path × List Violation)} {p : Path} {vs : List Violation}

/-! ### Listing different files -/

lemma perm_insert (h : ∀ e ∈ es, p.key ≠ e.1.key) : (insert p vs es).Perm ((p, vs) :: es) := by
  induction es with
  | nil => exact .refl _
  | cons e es ih =>
      rw [insert, if_neg (h e List.mem_cons_self)]
      split_ifs with hlt
      · exact .refl _
      · have htail := ih fun x hx => h x (List.mem_cons_of_mem _ hx)
        exact (htail.cons e).trans (.swap _ _ _)

/-- Files that are listed already, and others, different from them and from
each other, are listed together. -/
lemma perm_entries_addAll (hes : es.Pairwise fun a b => a.1.key ≠ b.1.key)
    (h : ∀ e ∈ es, ∀ x ∈ f.entries, e.1.key ≠ x.1.key) :
    (f.addAll es).entries.Perm (es ++ f.entries) := by
  induction es generalizing f with
  | nil => exact .refl _
  | cons e es ih =>
      obtain ⟨hhead, htail⟩ := List.pairwise_cons.mp hes
      have hadd : (f.add e.1 e.2).entries.Perm (e :: f.entries) :=
        perm_insert (h e List.mem_cons_self)
      have hfresh : ∀ x ∈ es, ∀ y ∈ (f.add e.1 e.2).entries, x.1.key ≠ y.1.key := by
        intro x hx y hy
        rcases List.mem_cons.mp (hadd.mem_iff.mp hy) with rfl | hy
        · exact (hhead x hx).symm
        · exact h x (List.mem_cons_of_mem _ hx) y hy
      calc (f.addAll (e :: es)).entries
          = ((f.add e.1 e.2).addAll es).entries := rfl
        List.Perm _ (es ++ (f.add e.1 e.2).entries) := ih htail hfresh
        List.Perm _ (es ++ e :: f.entries) := hadd.append_left es
        List.Perm _ (e :: es ++ f.entries) := List.perm_middle

/-- Different files are all listed, each with its own violations. -/
lemma perm_entries_ofList (hes : es.Pairwise fun a b => a.1.key ≠ b.1.key) :
    (ofList es).entries.Perm es := by
  have h := @perm_entries_addAll empty es hes fun _ _ _ hx => (nomatch hx)
  rwa [show empty.entries = [] from rfl, List.append_nil] at h

/-! ### Looking up -/

/-- No two entries are of the same file. -/
lemma eq_of_same {x y : Path × List Violation} (hx : x ∈ f.entries) (hy : y ∈ f.entries)
    (h : x.1.Same y.1) : x = y := by
  have hforth : f.entries.Pairwise fun a b => a.1.key = b.1.key → a = b :=
    f.sorted.imp fun h hk => absurd hk h.key_ne
  have hback : f.entries.Pairwise fun a b => b.1.key = a.1.key → b = a :=
    f.sorted.imp fun h hk => absurd hk.symm h.key_ne
  exact List.Pairwise.forall_of_forall_of_flip (fun _ _ _ => rfl) hforth hback hx hy
    (Path.key_eq_key_iff.mpr h)

lemma get?_eq_some_iff : f.get? p = some vs ↔ ∃ e ∈ f.entries, e.1.Same p ∧ e.2 = vs := by
  rw [get?, Option.map_eq_some_iff]
  constructor
  · rintro ⟨e, he, rfl⟩
    exact ⟨e, List.mem_of_find?_eq_some he, by simpa using List.find?_some he, rfl⟩
  · rintro ⟨e, he, hp, rfl⟩
    cases hfind : f.entries.find? fun e => e.1.Same p with
    | none => exact absurd hp (by simpa using List.find?_eq_none.mp hfind e he)
    | some x =>
        have hx : x.1.Same p := by simpa using List.find?_some hfind
        exact ⟨x, rfl, congrArg _ (eq_of_same (List.mem_of_find?_eq_some hfind) he
          (hx.trans hp.symm))⟩

/-- Findings are their entries, whatever way they were listed in. -/
lemma ext_of_mem_iff (h : ∀ x, x ∈ f.entries ↔ x ∈ g.entries) : f = g := by
  have hle : f.entries = g.entries := eq_of_pairwise_of_mem_iff
    (fun _ hlt => Path.Before.key_ne hlt rfl) (fun _ _ _ => List.lt_trans) f.sorted g.sorted h
  cases f
  cases g
  cases hle
  rfl

end Findings

end DocLint
