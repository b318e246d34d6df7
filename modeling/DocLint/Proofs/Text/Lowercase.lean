/-
The lower case of a text.

* `exists_lowercaseAfter_append`: of the text before, the lower case of what follows keeps only
  whether a word has begun there (`wordAfter`).
* `lowercase_append_cons`: a character that case neither ignores nor has cuts a text in two that
  are put in lower case by themselves, sigmas and all.
* `lowercaseChar_of_lt`: an ASCII character has its ASCII lower case.
* `Lowers`: what the lower case of a character can be; `exists_lowers`: the lower case of a text
  is put together from that. `Lowers.eq_toLower`: no other character has a lower case that ends in
  an ASCII character, but for the Kelvin sign, which has the letter `k`.
* `lowercase_eq_iff`, `suffix_lowercase_iff`, `prefix_lowercase_iff`: so a text, or one of its
  ends, has a plain ASCII lower case exactly if it is the same up to the case of ASCII letters. At
  the front the dotted capital I has to be kept out, whose lower case begins with the letter `i`.
-/
import Mathlib.Data.List.Basic
import Mathlib.Tactic.Common
import DocLint.Proofs.Text.Utf8
import DocLint.Text.Lowercase

namespace DocLint.Text

variable {c x : Char} {s w : List Char} {n : ℕ}

/-! ### What counts of the text before -/

/-- Whether the lower case of what follows a text takes it to follow a word; `inWord` tells the
same of the text before. -/
def wordAfter (inWord : Bool) (s : List Char) : Bool :=
  s.foldl (fun b c => if isCaseIgnorable c then b else isCased c) inWord

/-- The end of a text is put into lower case last. -/
lemma exists_lowercaseAfter_append (inWord : Bool) (s t : List Char) :
    ∃ front, lowercaseAfter inWord (s ++ t) = front ++ lowercaseAfter (wordAfter inWord s) t := by
  induction s generalizing inWord with
  | nil => exact ⟨[], rfl⟩
  | cons c s ih =>
      obtain ⟨front, hfront⟩ := ih (if isCaseIgnorable c then inWord else isCased c)
      rw [List.cons_append, lowercaseAfter, hfront, ← List.append_assoc]
      exact ⟨_, rfl⟩

/-! ### Up to a character that has no case -/

lemma wordGoesOn_append_cons (hignorable : isCaseIgnorable c = false) (hcased : isCased c = false)
    (s t : List Char) : wordGoesOn (s ++ c :: t) = wordGoesOn s := by
  have hfind : (c :: t).find? (fun d => !isCaseIgnorable d) = some c :=
    List.find?_cons_of_pos (by rw [hignorable]; rfl)
  rw [wordGoesOn, wordGoesOn, List.find?_append, hfind]
  cases s.find? (fun d => !isCaseIgnorable d) with
  | none => exact hcased
  | some d => rfl

lemma lowercaseAfter_append_cons (hsigma : c ≠ capitalSigma)
    (hignorable : isCaseIgnorable c = false) (hcased : isCased c = false) (inWord : Bool)
    (s t : List Char) :
    lowercaseAfter inWord (s ++ c :: t) =
      lowercaseAfter inWord s ++ (lowercaseChar c ++ lowercaseAfter false t) := by
  induction s generalizing inWord with
  | nil =>
      rw [List.nil_append, lowercaseAfter, lowercaseAfter, if_neg hsigma, hignorable, hcased]
      rfl
  | cons d s ih =>
      rw [List.cons_append, lowercaseAfter, ih, wordGoesOn_append_cons hignorable hcased,
        lowercaseAfter, List.append_assoc]

/-- What stands behind a character that case neither ignores nor has makes no difference to
the lower case of what stands before it. -/
lemma lowercase_append_cons (hsigma : c ≠ capitalSigma) (hignorable : isCaseIgnorable c = false)
    (hcased : isCased c = false) (s t : List Char) :
    lowercase (s ++ c :: t) = lowercase s ++ (lowercaseChar c ++ lowercase t) :=
  lowercaseAfter_append_cons hsigma hignorable hcased false s t

/-! ### One character -/

/-- Whether a shift maps code points beyond ASCII to such code points, and to characters. -/
def Shift.IsBeyond (s : Shift) : Prop :=
  0x80 ≤ s.run.first ∧ 0x80 ≤ s.image ∧
    (s.image + (s.run.last - s.run.first) < 0xD800 ∨
      0xE000 ≤ s.image ∧ s.image + (s.run.last - s.run.first) < 0x110000)

instance (s : Shift) : Decidable s.IsBeyond :=
  inferInstanceAs (Decidable (_ ∧ _ ∧ _))

/-- Only the capital letters and the Kelvin sign are mapped to ASCII characters. -/
lemma shift_cases : ∀ s ∈ lowercaseRuns,
    s = ⟨⟨0x41, 0x5A, 1⟩, 0x61⟩ ∨ s = ⟨⟨0x212A, 0x212A, 1⟩, 0x6B⟩ ∨ s.IsBeyond := by
  decide +kernel

/-- The ASCII characters are those of the first code points. -/
lemma forall_ascii {P : Char → Prop} (hall : ∀ k < 0x80, P (Char.ofNat k)) (h : c.toNat < 0x80) :
    P c := by
  have hc := hall c.toNat h
  rwa [Char.ofNat_toNat] at hc

lemma lowercaseChar_of_lt (h : c.toNat < 0x80) : lowercaseChar c = [c.toLower] :=
  forall_ascii (P := fun c => lowercaseChar c = [c.toLower]) (by decide +kernel) h

/-- Only the capital letters have another ASCII lower case. -/
lemma toLower_of_lt_or_lt (h : c.toNat < 0x41 ∨ 0x5A < c.toNat) : c.toLower = c := by
  refine dif_neg fun hupper => ?_
  have hfirst := UInt32.le_iff_toNat_le.mp hupper.1
  have hlast := UInt32.le_iff_toNat_le.mp hupper.2
  change 0x41 ≤ c.toNat at hfirst
  change c.toNat ≤ 0x5A at hlast
  omega

lemma lt_of_toLower_lt (h : c.toLower.toNat < 0x80) : c.toNat < 0x80 := by
  by_contra hc
  rw [toLower_of_lt_or_lt (Or.inr (by omega))] at h
  exact hc h

lemma eq_dot_of_toLower_eq (h : c.toLower = '.') : c = '.' :=
  forall_ascii (P := fun c => c.toLower = '.' → c = '.') (by decide +kernel)
    (lt_of_toLower_lt (h ▸ by decide)) h

lemma Run.has_iff {r : Run} : r.has n = true ↔
    r.first ≤ n ∧ n ≤ r.last ∧ (n - r.first) % r.step = 0 := by
  rw [Run.has, Bool.and_eq_true, Bool.and_eq_true, decide_eq_true_eq, decide_eq_true_eq, beq_iff_eq,
    and_assoc]

/-- The code points of a table are mapped to characters. -/
lemma Shift.toNat_apply {s : Shift} (hs : s ∈ lowercaseRuns) (hn : s.run.has n = true) :
    (Char.ofNat (s.apply n)).toNat = s.apply n := by
  obtain ⟨-, hlast, -⟩ := Run.has_iff.mp hn
  refine Utf8.toNat_ofNat ?_
  rw [apply]
  rcases shift_cases s hs with rfl | rfl | ⟨-, -, hlow | ⟨hhigh, hend⟩⟩
  · exact Or.inl (by dsimp only at hlast ⊢; omega)
  · exact Or.inl (by dsimp only at hlast ⊢; omega)
  · exact Or.inl (by omega)
  · exact Or.inr ⟨by omega, by omega⟩

/-- What the lower case of a character can be, wherever it stands. -/
inductive Lowers : Char → List Char → Prop
  | dotted : Lowers '\u0130' ['i', '\u0307']
  | final : Lowers capitalSigma [finalSigma]
  | self {c : Char} (h : lowercaseChar c = [c]) : Lowers c [c]
  | shift {c : Char} {s : Shift} (hs : s ∈ lowercaseRuns) (hc : s.run.has c.toNat = true) :
      Lowers c [Char.ofNat (s.apply c.toNat)]

/-- What no run has is its own lower case. -/
lemma lowercaseChar_of_find?_eq_none (hdotted : c ≠ '\u0130')
    (h : lowercaseRuns.find? (·.run.has c.toNat) = none) : lowercaseChar c = [c] := by
  rw [lowercaseChar, if_neg hdotted, lowercaseCode, h]
  exact congrArg (fun d => [d]) (Char.ofNat_toNat c)

lemma lowers_lowercaseChar (c : Char) : Lowers c (lowercaseChar c) := by
  by_cases hdotted : c = '\u0130'
  · rw [hdotted]
    exact .dotted
  cases hfind : lowercaseRuns.find? (·.run.has c.toNat) with
  | none =>
      have hself := lowercaseChar_of_find?_eq_none hdotted hfind
      rw [hself]
      exact .self hself
  | some s =>
      have hhas : s.run.has c.toNat = true := by simpa using List.find?_some hfind
      rw [lowercaseChar, if_neg hdotted, lowercaseCode, hfind]
      exact .shift (List.mem_of_find?_eq_some hfind) hhas

/-- **One character more**: its lower case comes first, and of the character the rest keeps only
whether a word has begun. -/
lemma exists_lowers (inWord : Bool) (c : Char) (s : List Char) :
    ∃ front, Lowers c front ∧ lowercaseAfter inWord (c :: s) =
      front ++ lowercaseAfter (if isCaseIgnorable c then inWord else isCased c) s := by
  rw [lowercaseAfter]
  refine ⟨_, ?_, rfl⟩
  by_cases hsigma : c = capitalSigma
  · have hmedial : lowercaseChar capitalSigma = [medialSigma] := by decide +kernel
    subst hsigma
    rw [if_pos rfl]
    cases inWord && !wordGoesOn s with
    | true => exact .final
    | false => exact hmedial ▸ lowers_lowercaseChar capitalSigma
  · rw [if_neg hsigma]
    exact lowers_lowercaseChar c

namespace Lowers

variable {front u v : List Char}

lemma ne_nil (h : Lowers c front) : front ≠ [] := by
  cases h <;> exact List.cons_ne_nil _ _

lemma exists_getLast? (h : Lowers c front) : ∃ last, front.getLast? = some last := by
  cases h <;> exact ⟨_, rfl⟩

/-- A lower case that ends in an ASCII character is that of one, or of the Kelvin sign. -/
lemma eq_toLower (h : Lowers c front) (hlast : front.getLast? = some x) (hx : x.toNat < 0x80)
    (hk : x ≠ 'k') : front = [c.toLower] := by
  cases h with
  | dotted =>
      cases hlast
      exact absurd hx (by decide)
  | final =>
      cases hlast
      exact absurd hx (by decide)
  | self h =>
      rw [List.getLast?_singleton, Option.some.injEq] at hlast
      rw [← h, lowercaseChar_of_lt (hlast ▸ hx)]
  | @shift _ s hs hc =>
      rw [List.getLast?_singleton, Option.some.injEq] at hlast
      subst hlast
      obtain ⟨hfirst, hend, -⟩ := Run.has_iff.mp hc
      rcases shift_cases s hs with rfl | rfl | hbeyond
      · have hletter := forall_ascii (c := c) (P := fun c => 0x41 ≤ c.toNat → c.toNat ≤ 0x5A →
          [Char.ofNat (0x61 + (c.toNat - 0x41))] = [c.toLower]) (by decide +kernel)
        exact hletter (Nat.lt_of_le_of_lt hend (by decide)) hfirst hend
      · have hkelvin : c.toNat = 0x212A := Nat.le_antisymm hend hfirst
        rw [hkelvin] at hk
        exact absurd rfl hk
      · have himage := hbeyond.2.1
        rw [Shift.toNat_apply hs hc, Shift.apply] at hx
        omega

/-- Only the dotted capital I has a lower case of more than one character. -/
lemma eq_nil_or_eq_of_append (h : Lowers c (u ++ v)) (hu : u ≠ []) : v = [] ∨ u = ['i'] := by
  obtain ⟨front, hfront⟩ : ∃ front, front = u ++ v := ⟨_, rfl⟩
  rw [← hfront] at h
  cases h with
  | dotted =>
      rcases List.append_eq_cons_iff.mp hfront.symm with ⟨rfl, -⟩ | ⟨t, rfl, ht⟩
      · exact absurd rfl hu
      · rcases List.append_eq_singleton_iff.mp ht.symm with ⟨rfl, -⟩ | ⟨-, rfl⟩
        · exact Or.inr rfl
        · exact Or.inl rfl
  | _ =>
      rcases List.append_eq_singleton_iff.mp hfront.symm with ⟨rfl, -⟩ | ⟨-, rfl⟩
      · exact absurd rfl hu
      · exact Or.inl rfl

end Lowers

/-! ### Texts -/

/-- Whether a text is ASCII, without the one letter that has another character above it. -/
def IsPlain (s : List Char) : Prop :=
  ∀ c ∈ s, c.toNat < 0x80 ∧ c ≠ 'k'

instance (s : List Char) : Decidable (IsPlain s) :=
  List.decidableBAll _ s

lemma lowercaseAfter_of_isPlain {inWord : Bool} (h : IsPlain (lowercaseAfter inWord s)) :
    lowercaseAfter inWord s = s.map Char.toLower := by
  induction s generalizing inWord with
  | nil => rfl
  | cons c s ih =>
      obtain ⟨front, hfront, heq⟩ := exists_lowers inWord c s
      obtain ⟨last, hlast⟩ := hfront.exists_getLast?
      rw [heq] at h ⊢
      obtain ⟨hlt, hk⟩ := h last (List.mem_append_left _ (List.mem_of_getLast? hlast))
      rw [hfront.eq_toLower hlast hlt hk, ih fun x hx => h x (List.mem_append_right _ hx)]
      rfl

/-- An end of the lower case that is plain ASCII is that of an end of the text. -/
lemma exists_suffix_of_suffix_lowercaseAfter {inWord : Bool} (hw : IsPlain w)
    (h : w <:+ lowercaseAfter inWord s) : ∃ v, v <:+ s ∧ v.map Char.toLower = w := by
  induction s generalizing inWord with
  | nil => exact ⟨[], List.suffix_rfl, (List.suffix_nil.mp h).symm⟩
  | cons c s ih =>
      have hlater : ∀ {b : Bool}, w <:+ lowercaseAfter b s →
          ∃ v, v <:+ c :: s ∧ v.map Char.toLower = w := fun h => by
        obtain ⟨v, hv, hvw⟩ := ih h
        exact ⟨v, hv.trans (List.suffix_cons c s), hvw⟩
      obtain ⟨front, hfront, heq⟩ := exists_lowers inWord c s
      obtain ⟨last, hlast⟩ := hfront.exists_getLast?
      obtain ⟨t, ht⟩ := h
      rw [heq] at ht
      rcases List.append_eq_append_iff.mp ht with ⟨r, hr, hw'⟩ | ⟨r, -, hr⟩
      · rcases eq_or_ne r [] with rfl | hne
        · exact hlater ⟨[], hw'⟩
        · -- The end begins within what the first character adds, so all behind it is plain.
          have hend : r.getLast? = some last := by
            rw [← hlast, hr, List.getLast?_append_of_ne_nil _ hne]
          have hmem : last ∈ w := hw' ▸ List.mem_append_left _ (List.mem_of_getLast? hend)
          obtain ⟨hlt, hk⟩ := hw last hmem
          have hsingle : t ++ r = [c.toLower] := hr ▸ hfront.eq_toLower hlast hlt hk
          have hrest := lowercaseAfter_of_isPlain fun x hx =>
            hw x (hw' ▸ List.mem_append_right _ hx)
          obtain ⟨rfl, rfl⟩ : t = [] ∧ r = [c.toLower] := by
            rcases List.append_eq_singleton_iff.mp hsingle with ⟨ht, hr⟩ | ⟨-, hr⟩
            · exact ⟨ht, hr⟩
            · exact absurd hr hne
          exact ⟨c :: s, List.suffix_rfl, by rw [hw', hrest]; rfl⟩
      · exact hlater ⟨r, hr.symm⟩

/-- A front that is plain ASCII is the lower case of a front, unless it ends in the letter `i`. -/
lemma exists_prefix_of_prefix_lowercaseAfter {inWord : Bool} (hw : IsPlain w)
    (hi : w.getLast? ≠ some 'i') (h : w <+: lowercaseAfter inWord s) :
    ∃ v, v <+: s ∧ v.map Char.toLower = w := by
  induction s generalizing w inWord with
  | nil => exact ⟨[], List.prefix_rfl, (List.prefix_nil.mp h).symm⟩
  | cons c s ih =>
      rcases eq_or_ne w [] with rfl | hne
      · exact ⟨[], List.nil_prefix, rfl⟩
      obtain ⟨front, hfront, heq⟩ := exists_lowers inWord c s
      rw [heq] at h
      -- What the first character adds is not cut, or else it is the letter of the dotted I.
      obtain ⟨r, rfl, hr⟩ : ∃ r, w = front ++ r ∧
          r <+: lowercaseAfter (if isCaseIgnorable c then inWord else isCased c) s := by
        obtain ⟨t, ht⟩ := h
        rcases List.append_eq_append_iff.mp ht with ⟨r, rfl, hr⟩ | ⟨r, hw', hr⟩
        · rcases hfront.eq_nil_or_eq_of_append hne with rfl | rfl
          · exact ⟨[], by rw [List.append_nil, List.append_nil], List.nil_prefix⟩
          · exact absurd rfl hi
        · exact ⟨r, hw', ⟨t, hr.symm⟩⟩
      obtain ⟨last, hlast⟩ := hfront.exists_getLast?
      obtain ⟨hlt, hk⟩ := hw last (List.mem_append_left _ (List.mem_of_getLast? hlast))
      have hrest : r.getLast? ≠ some 'i' := fun hend => by
        have hne' : r ≠ [] := by
          rintro rfl
          cases hend
        exact hi (by rw [List.getLast?_append_of_ne_nil _ hne', hend])
      obtain ⟨v, hv, rfl⟩ := ih (fun x hx => hw x (List.mem_append_right _ hx)) hrest hr
      refine ⟨c :: v, (List.prefix_cons_inj c).mpr hv, ?_⟩
      rw [hfront.eq_toLower hlast hlt hk]
      rfl

/-- A front of ASCII characters is put in ASCII lower case. -/
lemma lowercaseAfter_append_of_lt {inWord : Bool} (h : ∀ c ∈ s, c.toNat < 0x80) (t : List Char) :
    lowercaseAfter inWord (s ++ t) =
      s.map Char.toLower ++ lowercaseAfter (wordAfter inWord s) t := by
  induction s generalizing inWord with
  | nil => rfl
  | cons c s ih =>
      obtain ⟨hc, hs⟩ := List.forall_mem_cons.mp h
      have hsigma : c ≠ capitalSigma := fun heq => absurd (heq ▸ hc) (by decide)
      rw [List.cons_append, lowercaseAfter, if_neg hsigma, lowercaseChar_of_lt hc, ih hs]
      rfl

lemma lowercaseAfter_of_lt {inWord : Bool} (h : ∀ c ∈ s, c.toNat < 0x80) :
    lowercaseAfter inWord s = s.map Char.toLower := by
  have happend : lowercaseAfter inWord (s ++ []) =
      s.map Char.toLower ++ lowercaseAfter (wordAfter inWord s) [] :=
    lowercaseAfter_append_of_lt h []
  rwa [List.append_nil, lowercaseAfter, List.append_nil] at happend

/-- Where the ASCII lower case is plain ASCII, so is the text. -/
lemma lt_of_map_toLower_eq (hw : IsPlain w) (h : s.map Char.toLower = w) :
    ∀ c ∈ s, c.toNat < 0x80 := fun _ hc =>
  lt_of_toLower_lt (hw _ (h ▸ List.mem_map_of_mem hc)).1

/-- **The end of a text in lower case**: where it is plain ASCII, it is an end of the text, up to
the case of ASCII letters. -/
lemma suffix_lowercase_iff (hw : IsPlain w) :
    w <:+ lowercase s ↔ ∃ v, v <:+ s ∧ v.map Char.toLower = w := by
  refine ⟨exists_suffix_of_suffix_lowercaseAfter hw, ?_⟩
  rintro ⟨v, ⟨u, rfl⟩, hv⟩
  obtain ⟨front, heq⟩ := exists_lowercaseAfter_append false u v
  rw [lowercase, heq, lowercaseAfter_of_lt (lt_of_map_toLower_eq hw hv), hv]
  exact List.suffix_append front w

/-- **The front of a text in lower case**: where it is plain ASCII and does not end in the letter
`i`, it is a front of the text, up to the case of ASCII letters. -/
lemma prefix_lowercase_iff (hw : IsPlain w) (hi : w.getLast? ≠ some 'i') :
    w <+: lowercase s ↔ ∃ v, v <+: s ∧ v.map Char.toLower = w := by
  refine ⟨exists_prefix_of_prefix_lowercaseAfter hw hi, ?_⟩
  rintro ⟨v, ⟨u, rfl⟩, hv⟩
  rw [lowercase, lowercaseAfter_append_of_lt (lt_of_map_toLower_eq hw hv), hv]
  exact List.prefix_append w _

lemma lowercase_eq_iff (hw : IsPlain w) : lowercase s = w ↔ s.map Char.toLower = w := by
  constructor
  · intro h
    rw [← h] at hw ⊢
    exact (lowercaseAfter_of_isPlain hw).symm
  · intro h
    rw [lowercase, lowercaseAfter_of_lt (lt_of_map_toLower_eq hw h), h]

end DocLint.Text
