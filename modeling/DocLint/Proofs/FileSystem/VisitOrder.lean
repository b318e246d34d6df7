/-
What a walk comes by, and in which order.

* `mem_visitsAt`, `mem_visitsBelow_succ`: the visits at one name and below one
  directory, case by case.
* `prefix_trail_of_mem_visitsBelow`: everything below a directory has the names
  of that directory in front.
* `pairwise_visitsBelow`: leaving out the directories themselves, a walk comes by
  everything in the order of paths. So no two visits have the same names, save
  for a directory and the failure to read it.
-/
import DocLint.Proofs.Path.Components
import DocLint.Proofs.FileSystem.Places

namespace DocLint

/-- The names that lead to a visit. -/
def Visit.trail : Visit → List FileName
  | .entry trail _ => trail
  | .failure trail _ => trail

/-- Whether a visit is a directory that is entered. -/
def Visit.isDirectory : Visit → Bool
  | .entry _ (.directory _) => true
  | _ => false

/-- Whether one visit comes before another in the order of paths. -/
def Visit.Before (v w : Visit) : Prop :=
  (Path.ofRelativeNames v.trail).key < (Path.ofRelativeNames w.trail).key

/-- The first name that differs decides which visit comes first. -/
lemma Visit.before_of_prefix {v w : Visit} {t : List FileName} {n m : FileName}
    (hv : t ++ [n] <+: v.trail) (hw : t ++ [m] <+: w.trail) (h : n < m) : v.Before w := by
  obtain ⟨a, ha⟩ := hv
  obtain ⟨b, hb⟩ := hw
  rw [Visit.Before, ← ha, ← hb, List.append_assoc, List.append_assoc]
  exact Path.key_ofRelativeNames_lt h

namespace FileSystem

variable {fs : FileSystem} {rules : WalkRules} {start : Path} {depth : Nat}
  {below : OpenDirectory → List OpenDirectory → List Visit} {d : OpenDirectory}
  {ds : List OpenDirectory} {n : FileName} {v : Visit}

/-! ### Visits, case by case -/

lemma listing_eq_ok_iff {names : List FileName} :
    fs.listing start d = .ok names ↔
      (∃ loc, fs.locate (start.along d.trail) = .ok loc) ∧ names = fs.names d.place := by
  rw [listing]
  cases fs.locate (start.along d.trail) with
  | error e => simp
  | ok loc => simp [eq_comm]

lemma listing_eq_error_iff {cause : WalkFault} :
    fs.listing start d = .error cause ↔
      ∃ e, fs.locate (start.along d.trail) = .error e ∧
        cause = .unreachable (start.along d.trail) e := by
  rw [listing]
  cases fs.locate (start.along d.trail) with
  | error e => simp [eq_comm]
  | ok loc => simp

/-- What a walk comes by at a name: a failure, an entry, or what is below a
directory that it enters. -/
lemma mem_visitsAt : v ∈ fs.visitsAt rules start below d ds n ↔
    (∃ cause, fs.classify rules.followLinks start (d.place ++ [n]) (d.trail ++ [n]) (d :: ds)
        = .error cause ∧ v = .failure (d.trail ++ [n]) cause) ∨
    (∃ kind, fs.classify rules.followLinks start (d.place ++ [n]) (d.trail ++ [n]) (d :: ds)
        = .ok kind ∧ (∀ sub, kind = .directory sub → rules.enters (d.trail.length + 1) n = true) ∧
        v = .entry (d.trail ++ [n]) kind) ∨
    ∃ sub, fs.classify rules.followLinks start (d.place ++ [n]) (d.trail ++ [n]) (d :: ds)
        = .ok (.directory sub) ∧ rules.enters (d.trail.length + 1) n = true ∧
        v ∈ below ⟨sub, d.trail ++ [n]⟩ (d :: ds) := by
  rw [visitsAt]
  cases fs.classify rules.followLinks start (d.place ++ [n]) (d.trail ++ [n]) (d :: ds) with
  | error cause => simp
  | ok kind =>
      cases kind with
      | directory sub => cases he : rules.enters (d.trail.length + 1) n <;> simp [he]
      | _ => simp

/-- What a walk comes by below a directory with levels left: the failure to read
it, or what is at its names. -/
lemma mem_visitsBelow_succ : v ∈ fs.visitsBelow rules start (depth + 1) d ds ↔
    (∃ cause, fs.listing start d = .error cause ∧ v = .failure d.trail cause) ∨
    ∃ names, fs.listing start d = .ok names ∧
      ∃ n ∈ names, v ∈ fs.visitsAt rules start (fs.visitsBelow rules start depth) d ds n := by
  rw [visitsBelow]
  cases fs.listing start d <;> simp

/-- Everything at a name has that name in front. -/
lemma prefix_trail_of_mem_visitsAt (hbelow : ∀ d ds, ∀ v ∈ below d ds, d.trail <+: v.trail)
    (h : v ∈ fs.visitsAt rules start below d ds n) : d.trail ++ [n] <+: v.trail := by
  rcases mem_visitsAt.mp h with ⟨cause, -, rfl⟩ | ⟨kind, -, -, rfl⟩ | ⟨sub, -, -, hv⟩
  · exact List.prefix_rfl
  · exact List.prefix_rfl
  · exact hbelow _ _ v hv

/-- Everything below a directory has its names in front. -/
lemma prefix_trail_of_mem_visitsBelow :
    ∀ depth d ds, ∀ v ∈ fs.visitsBelow rules start depth d ds, d.trail <+: v.trail
  | 0, _, _, _, h => absurd h List.not_mem_nil
  | depth + 1, d, ds, v, h => by
      rcases mem_visitsBelow_succ.mp h with ⟨cause, -, rfl⟩ | ⟨names, -, n, -, hv⟩
      · exact List.prefix_rfl
      · exact (List.prefix_append _ _).trans
          (prefix_trail_of_mem_visitsAt (prefix_trail_of_mem_visitsBelow depth) hv)

/-! ### The order of visits -/

lemma pairwise_visitsAt
    (hbelow : ∀ d ds, ((below d ds).filter (!·.isDirectory)).Pairwise Visit.Before) :
    ((fs.visitsAt rules start below d ds n).filter (!·.isDirectory)).Pairwise Visit.Before := by
  rw [visitsAt]
  cases fs.classify rules.followLinks start (d.place ++ [n]) (d.trail ++ [n]) (d :: ds) with
  | error cause => simp [Visit.isDirectory]
  | ok kind =>
      cases kind with
      | directory sub =>
          cases rules.enters (d.trail ++ [n]).length n with
          | true => simpa [Visit.isDirectory] using hbelow ⟨sub, d.trail ++ [n]⟩ (d :: ds)
          | false => simp
      | _ => simp [Visit.isDirectory]

/-- Leaving out the directories, a walk goes in the order of paths. -/
lemma pairwise_visitsBelow : ∀ depth d ds,
    ((fs.visitsBelow rules start depth d ds).filter (!·.isDirectory)).Pairwise Visit.Before
  | 0, _, _ => .nil
  | depth + 1, d, ds => by
      rw [visitsBelow]
      cases hl : fs.listing start d with
      | error cause => simp [Visit.isDirectory]
      | ok names =>
          rw [List.filter_flatMap, List.pairwise_flatMap]
          refine ⟨fun n _ => pairwise_visitsAt (pairwise_visitsBelow depth), ?_⟩
          rw [(listing_eq_ok_iff.mp hl).2]
          refine (fs.pairwise_names d.place).imp fun hnm v hv w hw => ?_
          have hprefix := @prefix_trail_of_mem_visitsBelow fs rules start depth
          exact Visit.before_of_prefix
            (prefix_trail_of_mem_visitsAt hprefix (List.mem_of_mem_filter hv))
            (prefix_trail_of_mem_visitsAt hprefix (List.mem_of_mem_filter hw)) hnm

end FileSystem

end DocLint
