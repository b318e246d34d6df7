/-
The extension of a name, in bytes and in characters.

* `extension?_eq_some_iff`: it is what follows the last dot, if something is in front of that dot.
* `text_extension?_eq_some_iff`: reading the name first gives the same extension, well-formed UTF-8
  or not.
-/
import Mathlib.Data.List.TakeWhile
import Mathlib.Tactic.Common
import DocLint.Path.Name
import DocLint.Proofs.Text.Utf8

namespace DocLint.FileName

open Text.Utf8

variable {n : FileName} {stem e : List UInt8}

/-! ### Bytes -/

/-- The last dot parts the bytes. -/
lemma exists_eq_append_dot {bs : List UInt8} (h : dot ∈ bs) :
    ∃ stem e, bs = stem ++ dot :: e ∧ dot ∉ e := by
  obtain ⟨front, back, hback, hfront⟩ := List.eq_append_cons_of_mem (List.mem_reverse.mpr h)
  refine ⟨back.reverse, front.reverse, ?_, List.mem_reverse.not.mpr hfront⟩
  rw [← bs.reverse_reverse, hback, List.reverse_append, List.reverse_cons, List.append_assoc]
  rfl

lemma extension?_of_bytes (h : n.bytes = stem ++ dot :: e) (he : dot ∉ e) :
    n.extension? = if stem = [] then none else some e := by
  have hback : n.bytes.reverse = e.reverse ++ dot :: stem.reverse := by
    rw [h, List.reverse_append, List.reverse_cons, List.append_assoc]
    rfl
  have hother : ∀ b ∈ e.reverse, (b != dot) = true := fun b hb =>
    bne_iff_ne.mpr (ne_of_mem_of_not_mem (List.mem_reverse.mp hb) he)
  rw [extension?, hback, List.dropWhile_append_of_pos hother, List.takeWhile_append_of_pos hother]
  rcases List.eq_nil_or_concat' stem with rfl | ⟨init, last, rfl⟩ <;> simp

lemma extension?_of_notMem (h : dot ∉ n.bytes) : n.extension? = none := by
  have hall : n.bytes.reverse.dropWhile (· != dot) = [] :=
    List.dropWhile_eq_nil_iff.mpr fun b hb =>
      bne_iff_ne.mpr (ne_of_mem_of_not_mem (List.mem_reverse.mp hb) h)
  rw [extension?, hall]

/-- **The extension** is what follows the last dot, unless that dot opens the name. -/
lemma extension?_eq_some_iff :
    n.extension? = some e ↔ ∃ stem, stem ≠ [] ∧ n.bytes = stem ++ dot :: e ∧ dot ∉ e := by
  constructor
  · intro h
    by_cases hdot : dot ∈ n.bytes
    · obtain ⟨stem, e', hbytes, he'⟩ := exists_eq_append_dot hdot
      rw [extension?_of_bytes hbytes he'] at h
      split_ifs at h with hstem
      cases h
      exact ⟨stem, hstem, hbytes, he'⟩
    · rw [extension?_of_notMem hdot] at h
      cases h
  · rintro ⟨stem, hstem, hbytes, he⟩
    rw [extension?_of_bytes hbytes he, if_neg hstem]

/-! ### Characters -/

lemma dot_lt : dot.toNat < 0x80 := by decide

/-- What is behind the last mark of a text, and what is before it, is told by the text. -/
lemma eq_of_append_cons_eq {α : Type} {a : α} {s t u v : List α} (ht : a ∉ t) (hv : a ∉ v)
    (h : s ++ a :: t = u ++ a :: v) : s = u ∧ t = v := by
  have hlater : ∀ {r x y : List α}, a ∉ x → a :: x = r ++ a :: y → r = [] := by
    intro r x y hx hr
    rcases List.cons_eq_append_iff.mp hr with ⟨rfl, -⟩ | ⟨r', -, rfl⟩
    · rfl
    · exact absurd (List.mem_append_right r' List.mem_cons_self) hx
  rcases List.append_eq_append_iff.mp h with ⟨r, rfl, hr⟩ | ⟨r, rfl, hr⟩
  · obtain rfl := hlater ht hr
    exact ⟨(List.append_nil s).symm, (List.cons.inj hr).2⟩
  · obtain rfl := hlater hv hr
    exact ⟨List.append_nil u, (List.cons.inj hr).2.symm⟩

/-- The dots of a name part it as text, too. -/
lemma text_of_bytes (h : n.bytes = stem ++ dot :: e) :
    n.text = decodeLossy stem ++ '.' :: decodeLossy e := by
  rw [text, h, decodeLossy_append_cons stem dot_lt]
  rfl

lemma exists_text_eq (h : n.extension? = some e) :
    ∃ u, u ≠ [] ∧ n.text = u ++ '.' :: decodeLossy e ∧ '.' ∉ decodeLossy e := by
  obtain ⟨stem, hstem, hbytes, hdot⟩ := extension?_eq_some_iff.mp h
  exact ⟨decodeLossy stem, decodeLossy_eq_nil_iff.not.mpr hstem, text_of_bytes hbytes,
    (mem_decodeLossy_iff dot_lt).not.mpr hdot⟩

/-- **The extension as text** is what follows the last dot of the name as text, unless that dot
opens it. -/
lemma text_extension?_eq_some_iff {w : List Char} :
    n.extension?.map decodeLossy = some w ↔ ∃ u, u ≠ [] ∧ n.text = u ++ '.' :: w ∧ '.' ∉ w := by
  constructor
  · intro h
    obtain ⟨e, he, rfl⟩ := Option.map_eq_some_iff.mp h
    exact exists_text_eq he
  · -- The bytes have a last dot as well, and what is read is parted at the same place.
    rintro ⟨u, hu, htext, hw⟩
    have hmem : '.' ∈ decodeLossy n.bytes := by
      rw [← text, htext]
      exact List.mem_append_right _ List.mem_cons_self
    obtain ⟨stem, e, hbytes, he⟩ := exists_eq_append_dot ((mem_decodeLossy_iff dot_lt).mp hmem)
    obtain ⟨rfl, rfl⟩ := eq_of_append_cons_eq ((mem_decodeLossy_iff dot_lt).not.mpr he) hw
      ((text_of_bytes hbytes).symm.trans htext)
    rw [extension?_of_bytes hbytes he, if_neg (decodeLossy_eq_nil_iff.not.mp hu)]
    rfl

end DocLint.FileName
