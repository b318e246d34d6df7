/-
Reading UTF-8 back.

* `Completes`, `Spells`: the bytes that complete a pending character, and those that
  a whole character is read from; `spells_iff`: these are the bytes that it is
  written with.
* `units_encode`: what is written is read back, so `decodeLossy_encode` loses nothing;
  `isWellFormed_iff`: and bytes without ill-formed units are those of a text.
* `infix_of_mem_units`: a character that is read stands among the bytes;
  `eq_encode_of_notMem`: if nothing is ill-formed, the bytes are those of what is
  read.
* `mem_of_mem_encode`: an ASCII byte is written for its own character alone;
  `decodeLossy_append_cons`: and it parts what is read before it from what is read behind it.
-/
import Mathlib.Data.List.Infix
import Mathlib.Tactic.Common
import DocLint.Text.Utf8

namespace DocLint.Text.Utf8

/-- Bytes that complete a pending character, and the code that it has then. -/
inductive Completes : Pending → List UInt8 → Nat → Prop
  | last {p : Pending} {b : UInt8} (hmissing : p.missing ≤ 1) (hrange : p.low ≤ b ∧ b ≤ p.high) :
      Completes p [b] (p.add b)
  | more {p : Pending} {b : UInt8} {bs : List UInt8} {n : Nat} (hmissing : ¬ p.missing ≤ 1)
      (hrange : p.low ≤ b ∧ b ≤ p.high)
      (h : Completes ⟨p.missing - 1, 0x80, 0xBF, p.add b⟩ bs n) : Completes p (b :: bs) n

/-- Bytes from which one character is read. -/
inductive Spells : List UInt8 → Char → Prop
  | char {b : UInt8} {c : Char} (h : Lead.ofByte b = .char c) : Spells [b] c
  | pending {b : UInt8} {p : Pending} {bs : List UInt8} {n : Nat}
      (h : Lead.ofByte b = .pending p) (hrest : Completes p bs n) : Spells (b :: bs) (Char.ofNat n)

/-! ### Reading one character -/

lemma Completes.unitsAfter_append {p : Pending} {bs : List UInt8} {n : Nat}
    (h : Completes p bs n) (rest : List UInt8) :
    unitsAfter (some p) (bs ++ rest) = some (Char.ofNat n) :: unitsAfter none rest := by
  induction h with
  | last hmissing hrange =>
      rw [List.singleton_append, unitsAfter, if_pos hrange, if_pos hmissing]
  | more hmissing hrange h ih =>
      rw [List.cons_append, unitsAfter, if_pos hrange, if_neg hmissing, ih]

lemma Spells.unitsAfter_append {bs : List UInt8} {c : Char} (h : Spells bs c)
    (rest : List UInt8) : unitsAfter none (bs ++ rest) = some c :: unitsAfter none rest := by
  cases h with
  | char h => rw [List.singleton_append, unitsAfter, h]
  | pending h hrest =>
      rw [List.cons_append, unitsAfter, h]
      exact hrest.unitsAfter_append rest

/-- A pending character is completed, or there is an ill-formed unit. -/
lemma exists_completes {p : Pending} {bs : List UInt8} (h : none ∉ unitsAfter (some p) bs) :
    ∃ cs rest n, bs = cs ++ rest ∧ Completes p cs n := by
  induction bs generalizing p with
  | nil => exact absurd (List.mem_singleton.mpr rfl) h
  | cons b bs ih =>
      rw [unitsAfter] at h
      split_ifs at h with hrange hmissing
      · exact ⟨[b], bs, _, rfl, .last hmissing hrange⟩
      · obtain ⟨cs, rest, n, rfl, hcs⟩ := ih h
        exact ⟨b :: cs, rest, n, rfl, .more hmissing hrange hcs⟩
      · exact absurd List.mem_cons_self h

/-- Bytes without ill-formed units start with a character. -/
lemma exists_spells {b : UInt8} {bs : List UInt8} (h : none ∉ unitsAfter none (b :: bs)) :
    ∃ cs rest c, b :: bs = cs ++ rest ∧ Spells cs c := by
  rw [unitsAfter] at h
  cases hlead : Lead.ofByte b with
  | char c => exact ⟨[b], bs, c, rfl, .char hlead⟩
  | pending p =>
      rw [hlead] at h
      obtain ⟨cs, rest, n, rfl, hcs⟩ := exists_completes h
      exact ⟨b :: cs, rest, _, rfl, .pending hlead hcs⟩
  | stray =>
      rw [hlead] at h
      exact absurd List.mem_cons_self h

/-! ### Writing one character -/

lemma toNat_ofNat {n : Nat} (h : n.isValidChar) : (Char.ofNat n).val.toNat = n := by
  rw [Char.ofNat, dif_pos h]
  exact UInt32.toNat_ofNatLT ..

/-- A character of one byte. -/
lemma encodeChar_one {a : Nat} (ha : a < 0x80) :
    String.utf8EncodeChar (Char.ofNat a) = [UInt8.ofNat a] := by
  have hvalid : a.isValidChar := Or.inl (by omega)
  rw [String.utf8EncodeChar, toNat_ofNat hvalid, if_pos (by omega)]

/-- A character of two bytes. -/
lemma encodeChar_two {a b : Nat} (ha : 2 ≤ a ∧ a < 32) (hb : b < 64) :
    String.utf8EncodeChar (Char.ofNat (a * 64 + b)) =
      [UInt8.ofNat (0xC0 + a), UInt8.ofNat (0x80 + b)] := by
  have hvalid : (a * 64 + b).isValidChar := Or.inl (by omega)
  have h1 : (a * 64 + b) / 64 % 32 + 192 = 0xC0 + a := by omega
  have h2 : (a * 64 + b) % 64 + 128 = 0x80 + b := by omega
  rw [String.utf8EncodeChar, toNat_ofNat hvalid, if_neg (by omega), if_pos (by omega), h1, h2]

/-- A character of three bytes. -/
lemma encodeChar_three {a b c n : Nat} (hn : n = (a * 64 + b) * 64 + c) (ha : a < 16)
    (hb : b < 64) (hc : c < 64) (hlow : 0x800 ≤ n) (hvalid : n.isValidChar) :
    String.utf8EncodeChar (Char.ofNat n) =
      [UInt8.ofNat (0xE0 + a), UInt8.ofNat (0x80 + b), UInt8.ofNat (0x80 + c)] := by
  have h1 : n / 4096 % 16 + 224 = 0xE0 + a := by omega
  have h2 : n / 64 % 64 + 128 = 0x80 + b := by omega
  have h3 : n % 64 + 128 = 0x80 + c := by omega
  rw [String.utf8EncodeChar, toNat_ofNat hvalid, if_neg (by omega), if_neg (by omega),
    if_pos (by omega), h1, h2, h3]

/-- A character of four bytes. -/
lemma encodeChar_four {a b c d n : Nat} (hn : n = ((a * 64 + b) * 64 + c) * 64 + d) (ha : a < 8)
    (hb : b < 64) (hc : c < 64) (hd : d < 64) (hlow : 0x10000 ≤ n) (hvalid : n.isValidChar) :
    String.utf8EncodeChar (Char.ofNat n) =
      [UInt8.ofNat (0xF0 + a), UInt8.ofNat (0x80 + b), UInt8.ofNat (0x80 + c),
        UInt8.ofNat (0x80 + d)] := by
  have h1 : n / 262144 % 8 + 240 = 0xF0 + a := by omega
  have h2 : n / 4096 % 64 + 128 = 0x80 + b := by omega
  have h3 : n / 64 % 64 + 128 = 0x80 + c := by omega
  have h4 : n % 64 + 128 = 0x80 + d := by omega
  rw [String.utf8EncodeChar, toNat_ofNat hvalid, if_neg (by omega), if_neg (by omega),
    if_neg (by omega), h1, h2, h3, h4]

/-! ### First bytes and those behind them -/

/-- A byte behind the first one, for six bits of the code. -/
def tail (x : Nat) : UInt8 :=
  UInt8.ofNat (0x80 + x)

lemma toNat_tail {x : Nat} (hx : x < 64) : (tail x).toNat = 0x80 + x :=
  UInt8.toNat_ofNat_of_lt' (show 0x80 + x < 256 by omega)

lemma add_tail (p : Pending) {x : Nat} (hx : x < 64) : p.add (tail x) = p.code * 64 + x := by
  have h := toNat_tail hx
  unfold Pending.add
  omega

lemma exists_eq_tail {b : UInt8} (hlow : 0x80 ≤ b.toNat) (hhigh : b.toNat ≤ 0xBF) :
    ∃ x < 64, b = tail x := by
  refine ⟨b.toNat - 0x80, by omega, ?_⟩
  rw [tail, Nat.add_sub_of_le hlow, UInt8.ofNat_toNat]

/-- The next byte of a pending character gives six bits of the code. -/
lemma completes_iff {p : Pending} {bs : List UInt8} {n : Nat} (hlow : 0x80 ≤ p.low.toNat)
    (hhigh : p.high.toNat ≤ 0xBF) : Completes p bs n ↔
      ∃ x < 64, (p.low.toNat ≤ 0x80 + x ∧ 0x80 + x ≤ p.high.toNat) ∧ ∃ rest, bs = tail x :: rest ∧
        if p.missing ≤ 1 then rest = [] ∧ n = p.code * 64 + x
        else Completes ⟨p.missing - 1, 0x80, 0xBF, p.code * 64 + x⟩ rest n := by
  have hrange : ∀ x < 64, (p.low ≤ tail x ∧ tail x ≤ p.high) ↔
      p.low.toNat ≤ 0x80 + x ∧ 0x80 + x ≤ p.high.toNat := fun x hx => by
    rw [UInt8.le_iff_toNat_le, UInt8.le_iff_toNat_le, toNat_tail hx]
  have htail : ∀ b, p.low ≤ b ∧ b ≤ p.high → ∃ x < 64, b = tail x := fun b hb => by
    rw [UInt8.le_iff_toNat_le, UInt8.le_iff_toNat_le] at hb
    exact exists_eq_tail (by omega) (by omega)
  constructor
  · intro h
    cases h with
    | @last _ b hmissing hb =>
        obtain ⟨x, hx, rfl⟩ := htail b hb
        refine ⟨x, hx, (hrange x hx).mp hb, [], rfl, ?_⟩
        rw [if_pos hmissing]
        exact ⟨rfl, add_tail p hx⟩
    | @more _ b rest _ hmissing hb h =>
        obtain ⟨x, hx, rfl⟩ := htail b hb
        refine ⟨x, hx, (hrange x hx).mp hb, rest, rfl, ?_⟩
        rw [if_neg hmissing, ← add_tail p hx]
        exact h
  · rintro ⟨x, hx, hb, rest, rfl, h⟩
    rw [← hrange x hx] at hb
    rw [← add_tail p hx] at h
    split_ifs at h with hmissing
    · rw [h.1, h.2]
      exact .last hmissing hb
    · exact .more hmissing hb h

lemma lead_two : ∀ a < 32, 2 ≤ a →
    Lead.ofByte (UInt8.ofNat (0xC0 + a)) = .pending ⟨1, 0x80, 0xBF, a⟩ := by
  decide

/-- Behind some first bytes of three the range of the next one is narrower: it must not
be possible to write the character shorter, and it must not be a surrogate. -/
lemma lead_three : ∀ a < 16, Lead.ofByte (UInt8.ofNat (0xE0 + a)) =
    .pending ⟨2, if a = 0 then 0xA0 else 0x80, if a = 13 then 0x9F else 0xBF, a⟩ := by
  decide

/-- Of four bytes, it must not lie above the last code point. -/
lemma lead_four : ∀ a < 5, Lead.ofByte (UInt8.ofNat (0xF0 + a)) =
    .pending ⟨3, if a = 0 then 0x90 else 0x80, if a = 4 then 0x8F else 0xBF, a⟩ := by
  decide

/-- A first byte is a character, or it tells how many bytes follow, or it is none. -/
lemma lead_cases (b : UInt8) :
    (b.toNat < 0x80 ∧ Lead.ofByte b = .char (Char.ofNat b.toNat)) ∨ Lead.ofByte b = .stray ∨
      (∃ a < 32, 2 ≤ a ∧ b = UInt8.ofNat (0xC0 + a)) ∨
      (∃ a < 16, b = UInt8.ofNat (0xE0 + a)) ∨ ∃ a < 5, b = UInt8.ofNat (0xF0 + a) := by
  have hsub : ∀ k ≤ b.toNat, b = UInt8.ofNat (k + (b.toNat - k)) := fun k hk => by
    rw [Nat.add_sub_of_le hk, UInt8.ofNat_toNat]
  rw [Lead.ofByte]
  by_cases h1 : b.toNat < 0x80
  · exact Or.inl ⟨h1, if_pos h1⟩
  by_cases h2 : b.toNat < 0xC2
  · exact Or.inr (Or.inl (by rw [if_neg h1, if_pos h2]))
  by_cases h3 : b.toNat < 0xE0
  · exact Or.inr (Or.inr (Or.inl ⟨b.toNat - 0xC0, by omega, by omega, hsub _ (by omega)⟩))
  by_cases h4 : b.toNat < 0xF0
  · exact Or.inr (Or.inr (Or.inr (Or.inl ⟨b.toNat - 0xE0, by omega, hsub _ (by omega)⟩)))
  by_cases h5 : b.toNat < 0xF5
  · exact Or.inr (Or.inr (Or.inr (Or.inr ⟨b.toNat - 0xF0, by omega, hsub _ (by omega)⟩)))
  · refine Or.inr (Or.inl ?_)
    simp only [h1, h2, h3, if_false]
    rw [if_neg (by omega), if_neg (by omega), if_neg h4, if_neg (by omega), if_neg (by omega),
      if_neg (by omega)]

/-! ### All bytes of a character -/

section Rest

variable {low high : UInt8} {a n : Nat} {bs : List UInt8}

lemma completes_one_iff (hlow : 0x80 ≤ low.toNat) (hhigh : high.toNat ≤ 0xBF) :
    Completes ⟨1, low, high, a⟩ bs n ↔
      ∃ x < 64, (low.toNat ≤ 0x80 + x ∧ 0x80 + x ≤ high.toNat) ∧
        bs = [tail x] ∧ n = a * 64 + x := by
  rw [completes_iff hlow hhigh]
  simp only [Nat.le_refl, if_true]
  grind

lemma completes_two_iff (hlow : 0x80 ≤ low.toNat) (hhigh : high.toNat ≤ 0xBF) :
    Completes ⟨2, low, high, a⟩ bs n ↔
      ∃ x < 64, (low.toNat ≤ 0x80 + x ∧ 0x80 + x ≤ high.toNat) ∧
        ∃ y < 64, bs = [tail x, tail y] ∧ n = (a * 64 + x) * 64 + y := by
  have hone : ∀ x rest, Completes ⟨1, 0x80, 0xBF, a * 64 + x⟩ rest n ↔
      ∃ y < 64, (0x80 ≤ 0x80 + y ∧ 0x80 + y ≤ 0xBF) ∧
        rest = [tail y] ∧ n = (a * 64 + x) * 64 + y :=
    fun _ _ => completes_one_iff (by decide) (by decide)
  rw [completes_iff hlow hhigh]
  simp only [show ¬ 2 ≤ 1 by decide, if_false, show 2 - 1 = 1 from rfl, hone]
  constructor
  · rintro ⟨x, hx, hrange, rest, rfl, y, hy, -, rfl, rfl⟩
    exact ⟨x, hx, hrange, y, hy, rfl, rfl⟩
  · rintro ⟨x, hx, hrange, y, hy, rfl, rfl⟩
    exact ⟨x, hx, hrange, _, rfl, y, hy, ⟨by omega, by omega⟩, rfl, rfl⟩

lemma completes_three_iff (hlow : 0x80 ≤ low.toNat) (hhigh : high.toNat ≤ 0xBF) :
    Completes ⟨3, low, high, a⟩ bs n ↔
      ∃ x < 64, (low.toNat ≤ 0x80 + x ∧ 0x80 + x ≤ high.toNat) ∧
        ∃ y < 64, ∃ z < 64, bs = [tail x, tail y, tail z] ∧
          n = ((a * 64 + x) * 64 + y) * 64 + z := by
  have htwo : ∀ x rest, Completes ⟨2, 0x80, 0xBF, a * 64 + x⟩ rest n ↔
      ∃ y < 64, (0x80 ≤ 0x80 + y ∧ 0x80 + y ≤ 0xBF) ∧
        ∃ z < 64, rest = [tail y, tail z] ∧ n = ((a * 64 + x) * 64 + y) * 64 + z :=
    fun _ _ => completes_two_iff (by decide) (by decide)
  rw [completes_iff hlow hhigh]
  simp only [show ¬ 3 ≤ 1 by decide, if_false, show 3 - 1 = 2 from rfl, htwo]
  constructor
  · rintro ⟨x, hx, hrange, rest, rfl, y, hy, -, z, hz, rfl, rfl⟩
    exact ⟨x, hx, hrange, y, hy, z, hz, rfl, rfl⟩
  · rintro ⟨x, hx, hrange, y, hy, z, hz, rfl, rfl⟩
    exact ⟨x, hx, hrange, _, rfl, y, hy, ⟨by omega, by omega⟩, z, hz, rfl, rfl⟩

end Rest

/-- The range behind the first byte of three keeps to codes that need three bytes and
are no surrogates. -/
lemma range_three : ∀ a < 16, ∀ x < 64,
    (((if a = 0 then 0xA0 else 0x80 : UInt8).toNat ≤ 0x80 + x ∧
      0x80 + x ≤ (if a = 13 then 0x9F else 0xBF : UInt8).toNat) ↔
    0x20 ≤ a * 64 + x ∧ ¬ (0x360 ≤ a * 64 + x ∧ a * 64 + x < 0x380)) := by
  decide +kernel

/-- The range behind the first byte of four keeps to codes that need four bytes and
are not above the last one. -/
lemma range_four : ∀ a < 5, ∀ x < 64,
    (((if a = 0 then 0x90 else 0x80 : UInt8).toNat ≤ 0x80 + x ∧
      0x80 + x ≤ (if a = 4 then 0x8F else 0xBF : UInt8).toNat) ↔
    0x10 ≤ a * 64 + x ∧ a * 64 + x < 0x110) := by
  decide +kernel

lemma bounds_three (a : Nat) : 0x80 ≤ (if a = 0 then 0xA0 else 0x80 : UInt8).toNat ∧
    (if a = 13 then 0x9F else 0xBF : UInt8).toNat ≤ 0xBF := by
  constructor <;> split_ifs <;> decide

lemma bounds_four (a : Nat) : 0x80 ≤ (if a = 0 then 0x90 else 0x80 : UInt8).toNat ∧
    (if a = 4 then 0x8F else 0xBF : UInt8).toNat ≤ 0xBF := by
  constructor <;> split_ifs <;> decide

/-- A character that is read is written with the same bytes. -/
lemma Spells.eq_encodeChar {bs : List UInt8} {c : Char} (h : Spells bs c) :
    bs = String.utf8EncodeChar c := by
  cases h with
  | @char b c h =>
      rcases lead_cases b with ⟨hb, hc⟩ | hc | ⟨a, ha, hlow, rfl⟩ | ⟨a, ha, rfl⟩ | ⟨a, ha, rfl⟩
      · cases h.symm.trans hc
        rw [encodeChar_one hb, UInt8.ofNat_toNat]
      · cases h.symm.trans hc
      · cases h.symm.trans (lead_two a ha hlow)
      · cases h.symm.trans (lead_three a ha)
      · cases h.symm.trans (lead_four a ha)
  | @pending b p bs n h hrest =>
      rcases lead_cases b with ⟨hb, hc⟩ | hc | ⟨a, ha, hlow, rfl⟩ | ⟨a, ha, rfl⟩ | ⟨a, ha, rfl⟩
      · cases h.symm.trans hc
      · cases h.symm.trans hc
      · cases h.symm.trans (lead_two a ha hlow)
        obtain ⟨x, hx, -, rfl, rfl⟩ := (completes_one_iff (by decide) (by decide)).mp hrest
        rw [encodeChar_two ⟨hlow, ha⟩ hx]
        rfl
      · cases h.symm.trans (lead_three a ha)
        obtain ⟨x, hx, hrange, y, hy, rfl, rfl⟩ :=
          (completes_two_iff (bounds_three a).1 (bounds_three a).2).mp hrest
        rw [range_three a ha x hx] at hrange
        have hvalid : ((a * 64 + x) * 64 + y).isValidChar := by
          rw [Nat.isValidChar]
          omega
        rw [encodeChar_three rfl ha hx hy (by omega) hvalid]
        rfl
      · cases h.symm.trans (lead_four a ha)
        obtain ⟨x, hx, hrange, y, hy, z, hz, rfl, rfl⟩ :=
          (completes_three_iff (bounds_four a).1 (bounds_four a).2).mp hrest
        rw [range_four a ha x hx] at hrange
        have hvalid : (((a * 64 + x) * 64 + y) * 64 + z).isValidChar := by
          rw [Nat.isValidChar]
          omega
        rw [encodeChar_four rfl (by omega) hx hy hz (by omega) hvalid]
        rfl

/-- A character that is written is read from these bytes. -/
lemma spells_encodeChar (c : Char) : Spells (String.utf8EncodeChar c) c := by
  obtain ⟨n, hvalid, rfl⟩ : ∃ n : Nat, n.isValidChar ∧ Char.ofNat n = c :=
    ⟨c.toNat, c.valid, Char.ofNat_toNat c⟩
  have hlast : n < 0x110000 := by
    rcases hvalid with h | h <;> omega
  by_cases h1 : n < 0x80
  · have hbyte : (UInt8.ofNat n).toNat = n :=
      UInt8.toNat_ofNat_of_lt' (show n < 256 by omega)
    rw [encodeChar_one h1]
    refine .char ?_
    rw [Lead.ofByte, hbyte]
    exact if_pos h1
  by_cases h2 : n < 0x800
  · obtain ⟨a, x, ha, hx, rfl⟩ : ∃ a x, (2 ≤ a ∧ a < 32) ∧ x < 64 ∧ n = a * 64 + x :=
      ⟨n / 64, n % 64, by omega, by omega, by omega⟩
    rw [encodeChar_two ha hx]
    refine .pending (lead_two a ha.2 ha.1) ?_
    exact (completes_one_iff (by decide) (by decide)).mpr
      ⟨x, hx, ⟨Nat.le_add_right _ _, by change _ ≤ 0xBF; omega⟩, rfl, rfl⟩
  by_cases h3 : n < 0x10000
  · obtain ⟨a, x, y, ha, hx, hy, hn⟩ :
        ∃ a x y, a < 16 ∧ x < 64 ∧ y < 64 ∧ n = (a * 64 + x) * 64 + y :=
      ⟨n / 4096, n / 64 % 64, n % 64, by omega, by omega, by omega, by omega⟩
    rw [encodeChar_three hn ha hx hy (by omega) hvalid]
    refine .pending (lead_three a ha) ?_
    refine (completes_two_iff (bounds_three a).1 (bounds_three a).2).mpr
      ⟨x, hx, (range_three a ha x hx).mpr ?_, y, hy, rfl, hn⟩
    rcases hvalid with h | h <;> omega
  · obtain ⟨a, x, y, z, ha, hx, hy, hz, hn⟩ : ∃ a x y z, a < 5 ∧ x < 64 ∧ y < 64 ∧ z < 64 ∧
        n = ((a * 64 + x) * 64 + y) * 64 + z :=
      ⟨n / 262144, n / 4096 % 64, n / 64 % 64, n % 64, by omega, by omega, by omega, by omega,
        by omega⟩
    rw [encodeChar_four hn (by omega) hx hy hz (by omega) hvalid]
    refine .pending (lead_four a ha) ?_
    refine (completes_three_iff (bounds_four a).1 (bounds_four a).2).mpr
      ⟨x, hx, (range_four a ha x hx).mpr ?_, y, hy, z, hz, rfl, hn⟩
    omega

/-- **One character**: it is read from the bytes that it is written with, and from no
others. -/
lemma spells_iff {bs : List UInt8} {c : Char} : Spells bs c ↔ bs = String.utf8EncodeChar c :=
  ⟨Spells.eq_encodeChar, fun h => h ▸ spells_encodeChar c⟩

/-! ### Texts -/

lemma encode_cons (c : Char) (s : List Char) :
    encode (c :: s) = String.utf8EncodeChar c ++ encode s :=
  List.flatMap_cons

lemma encode_append (s t : List Char) : encode (s ++ t) = encode s ++ encode t :=
  List.flatMap_append

/-- **What is written is read back.** -/
lemma units_encode (s : List Char) : units (encode s) = s.map some := by
  induction s with
  | nil => rfl
  | cons c s ih =>
      rw [encode_cons, units, (spells_encodeChar c).unitsAfter_append]
      exact congrArg _ ih

lemma decodeLossy_encode (s : List Char) : decodeLossy (encode s) = s := by
  rw [decodeLossy, units_encode, List.map_map]
  exact List.map_id s

/-- Bytes without ill-formed units are those of a text. -/
lemma exists_eq_encode {bs : List UInt8} (h : none ∉ units bs) : ∃ s, bs = encode s := by
  induction hlen : bs.length using Nat.strong_induction_on generalizing bs with
  | _ n ih =>
      cases bs with
      | nil => exact ⟨[], rfl⟩
      | cons b bs =>
          obtain ⟨cs, rest, c, hbs, hc⟩ := exists_spells h
          have hcs : 0 < cs.length := by cases hc <;> exact Nat.zero_lt_succ _
          have hrest : none ∉ units rest := by
            rw [hbs, units, hc.unitsAfter_append, List.mem_cons, not_or] at h
            exact h.2
          obtain ⟨s, rfl⟩ := ih rest.length (by rw [← hlen, hbs, List.length_append]; omega) hrest rfl
          exact ⟨c :: s, by rw [hbs, encode_cons, hc.eq_encodeChar]⟩

/-- Whether bytes are those of a text: no unit of them is ill-formed. -/
def IsWellFormed (bs : List UInt8) : Prop :=
  none ∉ units bs

instance (bs : List UInt8) : Decidable (IsWellFormed bs) :=
  inferInstanceAs (Decidable (_ ∉ _))

lemma isWellFormed_encode (s : List Char) : IsWellFormed (encode s) := by
  rw [IsWellFormed, units_encode]
  simp

lemma isWellFormed_iff {bs : List UInt8} : IsWellFormed bs ↔ ∃ s, bs = encode s := by
  refine ⟨exists_eq_encode, ?_⟩
  rintro ⟨s, rfl⟩
  exact isWellFormed_encode s

/-- What is written is read back as a whole. -/
lemma decode?_encode (s : List Char) : decode? (encode s) = some s := by
  rw [decode?, units_encode, List.mapM_map]
  exact List.mapM_pure.trans (congrArg some s.map_id)

/-- Bytes that are read without a replacement character are those of what is read. -/
lemma eq_encode_of_notMem {bs : List UInt8} (h : '\ufffd' ∉ decodeLossy bs) :
    bs = encode (decodeLossy bs) := by
  have hnone : none ∉ units bs := fun hmem => h (List.mem_map.mpr ⟨none, hmem, rfl⟩)
  obtain ⟨s, rfl⟩ := exists_eq_encode hnone
  rw [decodeLossy_encode]

/-! ### Characters among bytes -/

/-- Whether a character stands among bytes that follow a pending one: it may be that one. -/
def IsAmong (o : Option Pending) (bs : List UInt8) (c : Char) : Prop :=
  (∃ p cs n, o = some p ∧ Completes p cs n ∧ c = Char.ofNat n ∧ cs <+: bs) ∨
    ∃ cs, Spells cs c ∧ cs <:+: bs

lemma exists_infix_of_isAmong {bs : List UInt8} {c : Char} (h : IsAmong none bs c) :
    ∃ cs, Spells cs c ∧ cs <:+: bs := by
  rcases h with ⟨p, cs, n, ho, -⟩ | h
  · cases ho
  · exact h

/-- Reading on from the first byte of a character. -/
lemma exists_infix_of_lead {b : UInt8} {bs : List UInt8} {c : Char}
    (ih : ∀ o, some c ∈ unitsAfter o bs → IsAmong o bs c)
    (h : some c ∈ unitsAfter none (b :: bs)) : ∃ cs, Spells cs c ∧ cs <:+: b :: bs := by
  have hlater : some c ∈ unitsAfter none bs → ∃ cs, Spells cs c ∧ cs <:+: b :: bs := fun h => by
    obtain ⟨cs, hcs, hin⟩ := exists_infix_of_isAmong (ih none h)
    exact ⟨cs, hcs, List.infix_cons hin⟩
  rw [unitsAfter] at h
  cases hlead : Lead.ofByte b with
  | char d =>
      rw [hlead] at h
      rcases List.mem_cons.mp h with hd | h
      · cases hd
        exact ⟨[b], .char hlead, (List.prefix_append [b] bs).isInfix⟩
      · exact hlater h
  | pending p =>
      rw [hlead] at h
      rcases ih (some p) h with ⟨q, cs, n, ho, hcs, rfl, hin⟩ | ⟨cs, hcs, hin⟩
      · cases ho
        exact ⟨b :: cs, .pending hlead hcs, (List.prefix_cons_inj b |>.mpr hin).isInfix⟩
      · exact ⟨cs, hcs, List.infix_cons hin⟩
  | stray =>
      rw [hlead] at h
      rcases List.mem_cons.mp h with hd | h
      · cases hd
      · exact hlater h

lemma isAmong_of_mem_unitsAfter {bs : List UInt8} {c : Char} :
    ∀ o, some c ∈ unitsAfter o bs → IsAmong o bs c := by
  induction bs with
  | nil =>
      intro o h
      cases o with
      | none => cases h
      | some p => cases List.mem_singleton.mp h
  | cons b bs ih =>
      intro o h
      cases o with
      | none => exact Or.inr (exists_infix_of_lead ih h)
      | some p =>
          rw [unitsAfter] at h
          split_ifs at h with hrange hmissing
          · rcases List.mem_cons.mp h with hc | h
            · exact Or.inl ⟨p, [b], _, rfl, .last hmissing hrange, Option.some.inj hc,
                List.prefix_append [b] bs⟩
            · obtain ⟨cs, hcs, hin⟩ := exists_infix_of_isAmong (ih none h)
              exact Or.inr ⟨cs, hcs, List.infix_cons hin⟩
          · rcases ih _ h with ⟨q, cs, n, ho, hcs, rfl, hin⟩ | ⟨cs, hcs, hin⟩
            · cases ho
              exact Or.inl ⟨p, b :: cs, n, rfl, .more hmissing hrange hcs, rfl,
                (List.prefix_cons_inj b).mpr hin⟩
            · exact Or.inr ⟨cs, hcs, List.infix_cons hin⟩
          · rcases List.mem_cons.mp h with hc | h
            · cases hc
            · -- The byte that does not fit is read again as a first one.
              exact Or.inr (exists_infix_of_lead ih h)

/-- A character that is read stands among the bytes. -/
lemma infix_of_mem_units {bs : List UInt8} {c : Char} (h : some c ∈ units bs) :
    String.utf8EncodeChar c <:+: bs := by
  obtain ⟨cs, hcs, hin⟩ := exists_infix_of_isAmong (isAmong_of_mem_unitsAfter none h)
  rwa [← hcs.eq_encodeChar]

/-- So does one that is seen, unless it may be a replacement character. -/
lemma infix_of_mem_decodeLossy {bs : List UInt8} {c : Char} (hc : c ≠ '\ufffd')
    (h : c ∈ decodeLossy bs) : String.utf8EncodeChar c <:+: bs := by
  obtain ⟨o, ho, rfl⟩ := List.mem_map.mp h
  cases o with
  | none => exact absurd rfl hc
  | some c => exact infix_of_mem_units ho

/-! ### ASCII characters -/

/-- A first byte that announces more is no ASCII character, nor is any of these. -/
lemma le_of_ofByte_eq_pending {b : UInt8} {p : Pending} (h : Lead.ofByte b = .pending p) :
    0x80 ≤ b.toNat ∧ 0x80 ≤ p.low.toNat := by
  simp only [Lead.ofByte] at h
  split_ifs at h
  all_goals
    cases h
    exact ⟨by omega, Nat.le_of_ble_eq_true rfl⟩

lemma Completes.le_of_mem {p : Pending} {bs : List UInt8} {n : Nat} (h : Completes p bs n)
    (hlow : 0x80 ≤ p.low.toNat) : ∀ b ∈ bs, 0x80 ≤ b.toNat := by
  induction h with
  | last hmissing hrange =>
      refine List.forall_mem_singleton.mpr (hlow.trans ?_)
      exact UInt8.le_iff_toNat_le.mp hrange.1
  | more hmissing hrange h ih =>
      refine List.forall_mem_cons.mpr ⟨hlow.trans ?_, ih (Nat.le_refl _)⟩
      exact UInt8.le_iff_toNat_le.mp hrange.1

/-- An ASCII byte stands for its own character. -/
lemma eq_of_mem_encodeChar {b : UInt8} {c : Char} (h : b ∈ String.utf8EncodeChar c)
    (hb : b.toNat < 0x80) : c = Char.ofNat b.toNat := by
  obtain ⟨bs, hbs⟩ : ∃ bs, bs = String.utf8EncodeChar c := ⟨_, rfl⟩
  rw [← hbs] at h
  cases spells_iff.mpr hbs with
  | char hlead =>
      rw [← List.mem_singleton.mp h, Lead.ofByte, if_pos hb] at hlead
      cases hlead
      rfl
  | pending hlead hrest =>
      obtain ⟨hfirst, hlow⟩ := le_of_ofByte_eq_pending hlead
      rcases List.mem_cons.mp h with rfl | h
      · omega
      · have := hrest.le_of_mem hlow b h
        omega

lemma mem_of_mem_encode {b : UInt8} {s : List Char} (h : b ∈ encode s) (hb : b.toNat < 0x80) :
    Char.ofNat b.toNat ∈ s := by
  obtain ⟨c, hc, hbc⟩ := List.mem_flatMap.mp h
  rwa [← eq_of_mem_encodeChar hbc hb]

/-- A byte that does not continue a pending character is read again as a first one. -/
lemma unitsAfter_some_of_not {p : Pending} {b : UInt8} (h : ¬ (p.low ≤ b ∧ b ≤ p.high))
    (bs : List UInt8) : unitsAfter (some p) (b :: bs) = none :: unitsAfter none (b :: bs) := by
  conv_lhs => rw [unitsAfter, if_neg h]
  rw [unitsAfter]

/-- An ASCII byte is read as its own character, whatever is pending, and nothing is pending
behind it. -/
lemma unitsAfter_append_cons {o : Option Pending} (ho : o.elim True (0x80 ≤ ·.low.toNat))
    (bs : List UInt8) {b : UInt8} (hb : b.toNat < 0x80) (cs : List UInt8) :
    unitsAfter o (bs ++ b :: cs) =
      unitsAfter o bs ++ some (Char.ofNat b.toNat) :: unitsAfter none cs := by
  induction bs generalizing o with
  | nil =>
      have hlead : unitsAfter none (b :: cs) = some (Char.ofNat b.toNat) :: unitsAfter none cs := by
        rw [unitsAfter, Lead.ofByte, if_pos hb]
      cases o with
      | none => exact hlead
      | some p =>
          have hout : ¬ (p.low ≤ b ∧ b ≤ p.high) := fun hin => by
            have hle := UInt8.le_iff_toNat_le.mp hin.1
            change 0x80 ≤ p.low.toNat at ho
            omega
          rw [List.nil_append, unitsAfter_some_of_not hout, hlead]
          rfl
  | cons a bs ih =>
      -- Read as a first byte, the next one leaves nothing pending that an ASCII byte could
      -- continue.
      have hfirst : unitsAfter none (a :: bs ++ b :: cs) =
          unitsAfter none (a :: bs) ++ some (Char.ofNat b.toNat) :: unitsAfter none cs := by
        have hafter := ih (o := none) trivial
        rw [List.cons_append, unitsAfter, unitsAfter]
        cases hlead : Lead.ofByte a with
        | char c => simp only [hafter, List.cons_append]
        | pending p => exact ih (le_of_ofByte_eq_pending hlead).2
        | stray => simp only [hafter, List.cons_append]
      cases o with
      | none => exact hfirst
      | some p =>
          by_cases hrange : p.low ≤ a ∧ a ≤ p.high
          · rw [List.cons_append, unitsAfter, unitsAfter, if_pos hrange, if_pos hrange]
            by_cases hmissing : p.missing ≤ 1
            · rw [if_pos hmissing, if_pos hmissing, ih (o := none) trivial, List.cons_append]
            · rw [if_neg hmissing, if_neg hmissing]
              exact ih (Nat.le_refl _)
          · rw [unitsAfter_some_of_not hrange, List.cons_append, unitsAfter_some_of_not hrange,
              ← List.cons_append, hfirst, List.cons_append]

/-- **An ASCII byte** parts what is before it from what is behind it. -/
lemma decodeLossy_append_cons (bs : List UInt8) {b : UInt8} (hb : b.toNat < 0x80)
    (cs : List UInt8) :
    decodeLossy (bs ++ b :: cs) = decodeLossy bs ++ Char.ofNat b.toNat :: decodeLossy cs := by
  rw [decodeLossy, units, unitsAfter_append_cons (o := none) trivial bs hb cs,
    List.map_append, List.map_cons]
  rfl

lemma decodeLossy_eq_nil_iff {bs : List UInt8} : decodeLossy bs = [] ↔ bs = [] := by
  refine ⟨fun h => ?_, fun h => h ▸ rfl⟩
  have hbytes := eq_encode_of_notMem (h ▸ List.not_mem_nil)
  rwa [h] at hbytes

/-- An ASCII character is read from its byte alone. -/
lemma mem_decodeLossy_iff {bs : List UInt8} {b : UInt8} (hb : b.toNat < 0x80) :
    Char.ofNat b.toNat ∈ decodeLossy bs ↔ b ∈ bs := by
  constructor
  · intro h
    have hne : Char.ofNat b.toNat ≠ '\ufffd' := fun heq => by
      have hvalid : b.toNat.isValidChar := Or.inl (by omega)
      have hcode := toNat_ofNat hvalid
      rw [heq] at hcode
      exact absurd (hcode ▸ hb) (by decide)
    have hin := infix_of_mem_decodeLossy hne h
    rw [encodeChar_one hb, UInt8.ofNat_toNat] at hin
    exact hin.subset List.mem_cons_self
  · intro h
    obtain ⟨front, back, rfl⟩ := List.append_of_mem h
    rw [decodeLossy_append_cons front hb back]
    exact List.mem_append_right _ List.mem_cons_self

end DocLint.Text.Utf8
