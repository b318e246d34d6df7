/-
What is in lower case stays as it is.

* `Shift.avoids`: a shift maps no code point into a run. `avoids_of_mem`: the shifts map nothing
  to what has another lower case, and nothing to a blank.
* `Lowers.isLower`: so a lower case is made of characters that are their own lower case;
  `lowercase_lowercase`: **lower case is kept by lower case**, sigmas included.
* `Lowers.isBlank_eq_false`: what is not blank has no blanks in its lower case;
  `trim_lowercase`: so the lower case of a trimmed text is trimmed.
-/
import Mathlib.Tactic.Common
import DocLint.Proofs.Text.Lowercase
import DocLint.Proofs.Text.Trim

namespace DocLint.Text

variable {c d : Char} {s t front : List Char} {n : ℕ}

/-! ### Shifts and runs -/

/-- Whether a shift maps no code point into a run: its images lie before or behind the run, or fall
into the gaps of a run with every second code point. -/
def Shift.avoids (s : Shift) (r : Run) : Bool :=
  -- `Nat.blt` is quick to evaluate, and the table is gone through pair by pair.
  Nat.blt r.last s.image || Nat.blt (s.image + (s.run.last - s.run.first)) r.first ||
    ((s.run.step == 2 || s.run.first == s.run.last) && r.step == 2 && (s.image + r.first) % 2 == 1)

lemma Shift.has_apply_of_avoids {s : Shift} {r : Run} (h : s.avoids r = true)
    (hn : s.run.has n = true) : r.has (s.apply n) = false := by
  obtain ⟨hfirst, hlast, hstep⟩ := Run.has_iff.mp hn
  simp only [avoids, Bool.or_eq_true, Bool.and_eq_true, Nat.blt_eq, beq_iff_eq] at h
  rw [← Bool.not_eq_true, Run.has_iff, apply]
  rintro ⟨hlow, hhigh, hrun⟩
  rcases h with (h | h) | ⟨⟨hsecond, hr⟩, hparity⟩
  · omega
  · omega
  · have heven : (n - s.run.first) % 2 = 0 := by
      rcases hsecond with hs | hs
      · rwa [hs] at hstep
      · omega
    rw [hr] at hrun
    omega

/-- The blank characters, as runs. -/
def blanks : CodePoints := [
  ⟨0x9, 0xD, 1⟩, ⟨0x20, 0x20, 1⟩, ⟨0x85, 0x85, 1⟩, ⟨0xA0, 0xA0, 1⟩, ⟨0x1680, 0x1680, 1⟩,
  ⟨0x2000, 0x200A, 1⟩, ⟨0x2028, 0x2029, 1⟩, ⟨0x202F, 0x202F, 1⟩, ⟨0x205F, 0x205F, 1⟩,
  ⟨0x3000, 0x3000, 1⟩]

lemma exists_has_of_isBlank (h : isBlank c = true) : ∃ r ∈ blanks, r.has c.toNat = true := by
  simp only [isBlank, Bool.or_eq_true, Bool.and_eq_true, decide_eq_true_eq, beq_iff_eq] at h
  simp only [blanks, List.mem_cons, List.not_mem_nil, or_false, exists_eq_or_imp, exists_eq_left,
    Run.has_iff, Nat.mod_one, and_true]
  omega

/-- **The table**: what it maps to has no other lower case, and is not blank. -/
lemma avoids_of_mem : ∀ s ∈ lowercaseRuns, (∀ t ∈ lowercaseRuns, s.avoids t.run = true) ∧
    s.avoids ⟨0x130, 0x130, 1⟩ = true ∧ ∀ r ∈ blanks, s.avoids r = true := by
  have hall : (lowercaseRuns.all fun s => lowercaseRuns.all (s.avoids ·.run) &&
      (s.avoids ⟨0x130, 0x130, 1⟩ && blanks.all s.avoids)) = true := by decide +kernel
  simpa only [List.all_eq_true, Bool.and_eq_true] using hall

/-! ### One character -/

/-- Whether a character is its own lower case. -/
def IsLower (c : Char) : Prop :=
  lowercaseChar c = [c]

instance (c : Char) : Decidable (IsLower c) :=
  inferInstanceAs (Decidable (_ = _))

lemma IsLower.ne_capitalSigma (h : IsLower c) : c ≠ capitalSigma := by
  rintro rfl
  exact absurd h (by decide +kernel)

/-- What a shift maps to is its own lower case. -/
lemma isLower_apply {s : Shift} (hs : s ∈ lowercaseRuns) (hn : s.run.has n = true) :
    IsLower (Char.ofNat (s.apply n)) := by
  obtain ⟨hruns, hdotted, -⟩ := avoids_of_mem s hs
  have hcode := Shift.toNat_apply hs hn
  refine lowercaseChar_of_find?_eq_none (fun heq => ?_) (List.find?_eq_none.mpr fun t ht => ?_)
  · have hout := Shift.has_apply_of_avoids hdotted hn
    rw [← hcode, heq] at hout
    exact absurd hout (by decide)
  · rw [hcode, Shift.has_apply_of_avoids (hruns t ht) hn]
    exact Bool.false_ne_true

namespace Lowers

/-- A lower case is made of characters that are their own. -/
lemma isLower (h : Lowers c front) : ∀ d ∈ front, IsLower d := by
  cases h with
  | dotted =>
      exact List.forall_mem_cons.mpr
        ⟨by decide +kernel, List.forall_mem_singleton.mpr (by decide +kernel)⟩
  | final => exact List.forall_mem_singleton.mpr (by decide +kernel)
  | self h => exact List.forall_mem_singleton.mpr h
  | shift hs hc => exact List.forall_mem_singleton.mpr (isLower_apply hs hc)

/-- What is not blank has no blanks in its lower case. -/
lemma isBlank_eq_false (h : Lowers c front) (hc : isBlank c = false) :
    ∀ d ∈ front, isBlank d = false := by
  cases h with
  | dotted => exact List.forall_mem_cons.mpr ⟨by decide, List.forall_mem_singleton.mpr (by decide)⟩
  | final => exact List.forall_mem_singleton.mpr (by decide)
  | self h => exact List.forall_mem_singleton.mpr hc
  | @shift _ s hs hhas =>
      refine List.forall_mem_singleton.mpr (Bool.not_eq_true _ ▸ fun hblank => ?_)
      obtain ⟨r, hr, hin⟩ := exists_has_of_isBlank hblank
      rw [Shift.toNat_apply hs hhas,
        Shift.has_apply_of_avoids ((avoids_of_mem s hs).2.2 r hr) hhas] at hin
      exact Bool.false_ne_true hin

end Lowers

/-! ### Texts -/

lemma isLower_of_mem_lowercaseAfter {inWord : Bool} (h : d ∈ lowercaseAfter inWord s) :
    IsLower d := by
  induction s generalizing inWord with
  | nil => cases h
  | cons c s ih =>
      obtain ⟨front, hfront, heq⟩ := exists_lowers inWord c s
      rw [heq] at h
      rcases List.mem_append.mp h with h | h
      · exact hfront.isLower d h
      · exact ih h

lemma lowercaseAfter_of_isLower {inWord : Bool} (h : ∀ c ∈ s, IsLower c) :
    lowercaseAfter inWord s = s := by
  induction s generalizing inWord with
  | nil => rfl
  | cons c s ih =>
      obtain ⟨hc, hs⟩ := List.forall_mem_cons.mp h
      rw [lowercaseAfter, if_neg hc.ne_capitalSigma, hc, ih hs]
      rfl

/-- **Lower case is kept by lower case.** -/
lemma lowercase_lowercase (s : List Char) : lowercase (lowercase s) = lowercase s :=
  lowercaseAfter_of_isLower fun _ => isLower_of_mem_lowercaseAfter

/-- The last character is put in lower case behind all others. -/
lemma exists_lowercase_concat (s : List Char) (c : Char) :
    ∃ front back, Lowers c back ∧ lowercase (s ++ [c]) = front ++ back := by
  obtain ⟨front, hfront⟩ := exists_lowercaseAfter_append false s [c]
  obtain ⟨back, hback, heq⟩ := exists_lowers (wordAfter false s) c []
  rw [lowercaseAfter, List.append_nil] at heq
  exact ⟨front, back, hback, by rw [lowercase, hfront, heq]⟩

/-- **The lower case of a trimmed text** is trimmed. -/
lemma trim_lowercase (h : trim s = s) : trim (lowercase s) = lowercase s := by
  obtain ⟨hhead, hlast⟩ := trim_eq_self_iff.mp h
  refine trim_eq_self_iff.mpr ⟨fun d hd => ?_, fun d hd => ?_⟩
  · cases s with
    | nil => cases hd
    | cons c s =>
        obtain ⟨front, hfront, heq⟩ := exists_lowers false c s
        rw [lowercase, heq, List.head?_append_of_ne_nil _ hfront.ne_nil] at hd
        exact hfront.isBlank_eq_false (hhead c rfl) d (List.mem_of_head? hd)
  · rcases List.eq_nil_or_concat' s with rfl | ⟨s, c, rfl⟩
    · cases hd
    · obtain ⟨front, back, hback, heq⟩ := exists_lowercase_concat s c
      rw [heq, List.getLast?_append_of_ne_nil _ hback.ne_nil] at hd
      exact hback.isBlank_eq_false (hlast c List.getLast?_concat) d (List.mem_of_getLast? hd)

end DocLint.Text
