/-
The verdict on a file of which only the first bytes are taken.

* `fromUTF8?_eq_some_iff`, `isValidUTF8_iff`: bytes are read as the text that they are written
  for, and there is one exactly if no unit of them is ill-formed.
* `textWithin_cases`: the three verdicts on bytes, and what each one says of them.
* `textWithin_extract`: the bytes up to one past the limit get **the verdict of all bytes**. Where
  the cut goes through a character, the bytes are too many already.
* `readBounded_verdicts`: so a file is judged as if it were read to its end.
-/
import Mathlib.Tactic.Common
import DocLint.Proofs.FileSystem.Following
import DocLint.Proofs.Text.Utf8
import DocLint.Run

namespace DocLint

open Text.Utf8 (IsWellFormed)

variable {limit : ℕ} {bytes content : ByteArray} {s : String}

/-! ### Bytes as text -/

lemma fromUTF8?_eq_some_iff : String.fromUTF8? bytes = some s ↔ s.toUTF8 = bytes := by
  rw [String.fromUTF8?, String.toUTF8_eq_toByteArray]
  constructor
  · intro h
    split_ifs at h with hvalid
    cases h
    rfl
  · rintro rfl
    exact dif_pos s.isValidUTF8

lemma toList_data_toUTF8 (s : String) : s.toUTF8.data.toList = Text.Utf8.encode s.toList := by
  have hbytes : s.toUTF8 = s.toList.utf8Encode := by
    rw [String.toUTF8_eq_toByteArray, String.utf8Encode_toList]
  rw [hbytes, List.utf8Encode, List.data_toByteArray, List.toList_toArray, Text.Utf8.encode]

/-- Bytes without ill-formed units are read. -/
lemma exists_toUTF8_eq_iff : (∃ s : String, s.toUTF8 = bytes) ↔ IsWellFormed bytes.data.toList := by
  rw [Text.Utf8.isWellFormed_iff]
  constructor
  · rintro ⟨s, rfl⟩
    exact ⟨s.toList, toList_data_toUTF8 s⟩
  · rintro ⟨t, ht⟩
    refine ⟨String.ofList t, ByteArray.ext (Array.toList_inj.mp ?_)⟩
    rw [toList_data_toUTF8, String.toList_ofList, ht]

/-! ### The three verdicts -/

lemma head?_oversizeMessage (limit : ℕ) : (oversizeMessage limit).toList.head? = some 'f' := by
  have hfirst : "file exceeds maximum size of ".toList.head? = some 'f' := by decide +kernel
  unfold oversizeMessage
  rw [String.append_assoc, String.toList_append, List.head?_append, hfirst, Option.some_or]

/-- The two ways to be left out are told apart by their messages. -/
lemma unreadable_oversize_ne (limit : ℕ) :
    Violation.unreadable (oversizeMessage limit) ≠ .unreadable notTextMessage := by
  intro h
  have hmessage : oversizeMessage limit = notTextMessage := congrArg Violation.message h
  have hfirst := head?_oversizeMessage limit
  rw [hmessage] at hfirst
  exact absurd hfirst (by decide +kernel)

/-- **The verdict on bytes**: they are too many, or they are those of a text, or they are few
enough and no text. -/
lemma textWithin_cases (limit : ℕ) (bytes : ByteArray) :
    (limit < bytes.size ∧
      textWithin limit bytes = .error (.unreadable (oversizeMessage limit))) ∨
    (bytes.size ≤ limit ∧ IsWellFormed bytes.data.toList ∧
      ∃ s : String, s.toUTF8 = bytes ∧ textWithin limit bytes = .ok s) ∨
    (bytes.size ≤ limit ∧ ¬ IsWellFormed bytes.data.toList ∧
      textWithin limit bytes = .error (.unreadable notTextMessage)) := by
  rw [textWithin]
  by_cases hsize : limit < bytes.size
  · exact Or.inl ⟨hsize, if_pos hsize⟩
  rw [if_neg hsize]
  refine Or.inr ?_
  cases htext : String.fromUTF8? bytes with
  | some s =>
      have hs := fromUTF8?_eq_some_iff.mp htext
      exact Or.inl ⟨Nat.le_of_not_lt hsize, exists_toUTF8_eq_iff.mp ⟨s, hs⟩, s, hs, rfl⟩
  | none =>
      refine Or.inr ⟨Nat.le_of_not_lt hsize, fun hwell => ?_, rfl⟩
      obtain ⟨s, hs⟩ := exists_toUTF8_eq_iff.mpr hwell
      cases htext.symm.trans (fromUTF8?_eq_some_iff.mpr hs)

lemma toUTF8_of_textWithin (h : textWithin limit bytes = .ok s) : s.toUTF8 = bytes := by
  rcases textWithin_cases limit bytes with ⟨-, hverdict⟩ | ⟨-, -, t, ht, hverdict⟩ | ⟨-, -, hverdict⟩
  · cases hverdict.symm.trans h
  · cases hverdict.symm.trans h
    exact ht
  · cases hverdict.symm.trans h

/-! ### The first bytes -/

/-- All of a file that fits is taken. -/
lemma extract_takenLength (hlimit : limit < Config.numberBound) (hfits : content.size ≤ limit) :
    content.extract 0 (takenLength limit) = content := by
  have hlength : content.data.size ≤ takenLength limit := by
    rw [ByteArray.size_data, takenLength]
    omega
  rw [ByteArray.ext_iff, ByteArray.data_extract, Array.extract_eq_self_of_le hlength]

/-- Of a file that does not fit, more is taken than fits. -/
lemma lt_size_extract_takenLength (hlimit : limit < Config.numberBound)
    (hsize : limit + 1 = Config.numberBound → content.size < Config.numberBound)
    (hover : limit < content.size) : limit < (content.extract 0 (takenLength limit)).size := by
  rw [ByteArray.size_extract, takenLength]
  omega

/-- **The first bytes get the verdict of all.** -/
lemma textWithin_extract (hlimit : limit < Config.numberBound)
    (hsize : limit + 1 = Config.numberBound → content.size < Config.numberBound) :
    textWithin limit (content.extract 0 (takenLength limit)) = textWithin limit content := by
  by_cases hover : limit < content.size
  · rw [textWithin, textWithin, if_pos hover,
      if_pos (lt_size_extract_takenLength hlimit hsize hover)]
  · rw [extract_takenLength hlimit (Nat.le_of_not_lt hover)]

/-! ### Files -/

lemma FileSystem.read_of_lookup? {fs : FileSystem} {p : Path}
    (h : fs.lookup? p = some (.file content)) : fs.read p = .ok content := by
  rw [FileSystem.lookup?] at h
  rw [FileSystem.read]
  cases hloc : fs.locate p with
  | error e => simp [hloc] at h
  | ok loc =>
      simp only [hloc] at h
      simp only [h]

/-- **A bounded read judges the whole file**: let a path lead to a file, and the limit be a number
of 64 bits, as the size of the file is (which matters at the greatest limit only). The file is
read exactly if it has at most `limit` bytes and they are well-formed, and what is read has just
these bytes; it is reported as too large exactly if it has more, well-formed or not; and as no
text exactly if it fits and is ill-formed. This is the verdict on all its bytes. -/
theorem readBounded_verdicts {fs : FileSystem} {p : Path}
    (hfile : fs.lookup? p = some (.file content)) (hlimit : limit < Config.numberBound)
    (hsize : limit + 1 = Config.numberBound → content.size < Config.numberBound) :
    ((∃ s, readBounded fs limit p = .ok s) ↔
      content.size ≤ limit ∧ IsWellFormed content.data.toList) ∧
    (∀ s, readBounded fs limit p = .ok s → s.toUTF8 = content) ∧
    (readBounded fs limit p = .error (.unreadable (oversizeMessage limit)) ↔
      limit < content.size) ∧
    (readBounded fs limit p = .error (.unreadable notTextMessage) ↔
      content.size ≤ limit ∧ ¬ IsWellFormed content.data.toList) ∧
    readBounded fs limit p = textWithin limit content := by
  have hread : readBounded fs limit p = textWithin limit content := by
    rw [readBounded, FileSystem.read_of_lookup? hfile]
    exact textWithin_extract hlimit hsize
  have hne := unreadable_oversize_ne limit
  rw [hread]
  refine ⟨?_, fun s => toUTF8_of_textWithin, ?_⟩
  all_goals
    rcases textWithin_cases limit content with
      ⟨hover, hverdict⟩ | ⟨hfits, hwell, s, -, hverdict⟩ | ⟨hfits, hill, hverdict⟩
    · simp [hverdict, hover, Nat.not_le_of_lt hover, hne]
    · simp [hverdict, hfits, hwell, Nat.not_lt_of_le hfits]
    · simp [hverdict, hfits, hill, Nat.not_lt_of_le hfits, hne.symm]

section CutCharacter

/-- Two characters, of which the second one has two bytes. -/
def accent : ByteArray := ⟨#[0x61, 0xC3, 0xA9]⟩

/-- The name of the file that holds them. -/
def accentName : FileName := ⟨[0x61], by decide⟩

/-- That file by itself. -/
def accentTree : FileSystem := ⟨[(accentName, .file accent)], []⟩

/-- Where the bytes that are taken end within the second character, the file is too large all the
same; at the greatest limit it is read. -/
theorem readBounded_verdicts_cutCharacter :
    accentTree.lookup? (.ofNames [accentName]) = some (.file accent) ∧
    ¬ IsWellFormed (accent.extract 0 (takenLength 1)).data.toList ∧
    readBounded accentTree 1 (.ofNames [accentName]) =
      .error (.unreadable (oversizeMessage 1)) ∧
    ∃ s, readBounded accentTree (Config.numberBound - 1) (.ofNames [accentName]) = .ok s := by
  have hnode : accentTree.node? [accentName] = some (.file accent) := rfl
  obtain ⟨hlocate, -⟩ := FileSystem.locate_ofNames_of_node? hnode rfl (by decide)
  have hfile : accentTree.lookup? (.ofNames [accentName]) = some (.file accent) := by
    rw [FileSystem.lookup?, hlocate]
    exact hnode
  refine ⟨hfile, by decide, ?_, ?_⟩
  · exact (readBounded_verdicts hfile (by decide) (by decide)).2.2.1.mpr (by decide)
  · exact (readBounded_verdicts hfile (by decide) (by decide)).1.mpr (by decide)

end CutCharacter

end DocLint
