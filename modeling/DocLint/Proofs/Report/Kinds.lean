/-
Of which kinds the violations are that come from the stages of a run.

* `Fence.kind_of_mem_scan`, `Link.kind_of_mem_scan`, `Emoji.kind_of_mem_scan`:
  each check of a text has kinds of its own, so `Check.isUnreadable_of_mem_scan`:
  what is found in a text is never that a file could not be looked at.
* `isUnreadable_of_readBounded_eq_error`, `Discovery.isUnreadable_of_mem_errors`:
  all that keeps a file from being looked at says so.
-/
import DocLint.Proofs.Discovery.Found
import DocLint.Run

namespace DocLint

/-- Whether a violation says that a file could not be looked at. -/
def Violation.isUnreadable (v : Violation) : Bool :=
  v.kind == .unreadableFile

/-! ### Kinds of violation -/

/-- Reading a line adds no violation but that of a missing tag. -/
lemma Fence.Tracker.mem_found_feed {t : Tracker} {number : Nat} {line : List Char} {v : Violation}
    (h : v ∈ (t.feed number line).1.found) : v ∈ t.found ∨ v = missingTag number line := by
  rw [feed] at h
  split at h
  · exact Or.inl h
  · split_ifs at h
    · exact Or.inl h
    · exact (List.mem_cons.mp h).symm
  · split_ifs at h <;> exact Or.inl h

lemma Fence.Tracker.mem_found_feedAll {ls : List (Nat × List Char)} {t : Tracker} {v : Violation}
    (h : v ∈ (t.feedAll ls).found) :
    v ∈ t.found ∨ ∃ l ∈ ls, v = missingTag l.1 l.2 := by
  induction ls generalizing t with
  | nil => exact Or.inl h
  | cons l ls ih =>
      rcases ih h with h | ⟨k, hk, rfl⟩
      · rcases mem_found_feed h with h | rfl
        · exact Or.inl h
        · exact Or.inr ⟨l, List.mem_cons_self, rfl⟩
      · exact Or.inr ⟨k, List.mem_cons_of_mem l hk, rfl⟩

/-- What is found in a text is that of its lines one has no tag, or that a block is open at
its end. -/
lemma Fence.eq_of_mem_scan {content : String} {v : Violation} (h : v ∈ scan content) :
    (∃ l ∈ Text.numberedLines content.toList, v = missingTag l.1 l.2) ∨ ∃ n, v = unclosed n := by
  rw [scan, Tracker.finish, List.mem_append, List.mem_reverse] at h
  rcases h with h | h
  · exact Or.inl ((Tracker.mem_found_feedAll h).resolve_left List.not_mem_nil)
  · obtain ⟨b, -, rfl⟩ := Option.map_eq_some_iff.mp (Option.mem_toList.mp h)
    exact Or.inr ⟨b.line, rfl⟩

lemma Fence.kind_of_mem_scan {content : String} {v : Violation} (h : v ∈ scan content) :
    v.kind = .missingFenceTag ∨ v.kind = .unclosedFence := by
  rcases eq_of_mem_scan h with ⟨l, -, rfl⟩ | ⟨n, rfl⟩
  · exact Or.inl rfl
  · exact Or.inr rfl

lemma Link.kind_of_mem_scan {dir project : Path} {probe : Probe} {content : String}
    {v : Violation} (h : v ∈ scan dir project probe content) : v.kind = .brokenLink := by
  obtain ⟨l, -, hl⟩ := List.mem_filterMap.mp h
  rw [violation?] at hl
  split_ifs at hl
  dsimp only at hl
  split_ifs at hl
  cases hl
  rfl

lemma Emoji.kind_of_mem_scan {ranges : Ranges} {content : String} {v : Violation}
    (h : v ∈ scan ranges content) : v.kind = .emoji := by
  obtain ⟨l, -, hl⟩ := List.mem_filterMap.mp h
  dsimp only at hl
  split_ifs at hl
  cases hl
  rfl

/-! ### Files that could not be looked at -/

variable {fs : FileSystem} {root : DocRoot} {config : Config} {v : Violation}

lemma Check.isUnreadable_of_mem_scan {c : Check} {f : SourceFile} {content : String}
    (h : v ∈ c.scan fs root config f content) :
    v.isUnreadable = false := by
  have hkind : v.kind ≠ .unreadableFile := by
    cases c with
    | fences => rcases Fence.kind_of_mem_scan h with h | h <;> rw [h] <;> decide
    | links =>
        rw [Link.kind_of_mem_scan h]
        decide
    | emoji =>
        rw [Emoji.kind_of_mem_scan h]
        decide
    | filenames => cases h
  exact beq_eq_false_iff_ne.mpr hkind

lemma isUnreadable_of_readBounded_eq_error {limit : Nat} {p : Path}
    (h : readBounded fs limit p = .error v) : v.isUnreadable = true := by
  rw [readBounded] at h
  split at h
  · cases h
    rfl
  · rw [boundedText, textWithin] at h
    split_ifs at h
    · cases h
      rfl
    · split at h
      · cases h
      · cases h
        rfl

namespace Discovery

lemma isUnreadable_of_judge_eq_error {selection : Selection} {ps : List (List Glob.Item)}
    {visit : Visit} {p : Path} (h : judge fs root selection ps visit = .error p v) :
    v.isUnreadable = true := by
  cases visit with
  | failure trail cause =>
      cases h
      rfl
  | entry trail kind =>
      cases kind with
      | file =>
          rw [judge] at h
          split at h
          · cases h
          · dsimp only at h
            split_ifs at h
            rw [judgeFile] at h
            split at h
            · cases h
              rfl
            · split_ifs at h
              cases h
              rfl
      | _ => cases h

lemma isUnreadable_of_mem_errors {d : Discovery} {selection : Selection} {skipArchive : Bool}
    (h : find fs root config selection skipArchive = .ok d) {e : Path × Violation}
    (he : e ∈ d.errors) : e.2.isUnreadable = true := by
  obtain ⟨ps, -, rfl⟩ := find_eq_ok_iff.mp h
  obtain ⟨visit, -, hvisit⟩ := List.mem_map.mp (mem_errors_ofVerdicts.mp he)
  exact isUnreadable_of_judge_eq_error hvisit

end Discovery

end DocLint
