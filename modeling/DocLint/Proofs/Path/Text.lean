/-
Paths as they are shown.

* `Path.IsUtf8`: the paths that are the text of characters.
* `ofString_display`: such a path is read back from what is shown of it, so no two
  of them are shown alike.
* `isUtf8_of_notMem`: a path that is none of these is shown with a replacement
  character.
* `mem_bytes_join`, `mem_bytes_normal`: joining paths and bringing them into normal form
  adds no bytes but slashes and dots; `lineFeed_mem_bytes`: so no line feed that is
  shown was not there.
-/
import DocLint.Proofs.Path.Normal
import DocLint.Proofs.Text.Lines
import DocLint.Proofs.Text.Utf8

namespace DocLint.Path

/-- Whether a path is the text of characters. -/
def IsUtf8 (p : Path) : Prop :=
  ∃ s, p = ofString s

variable {p q : Path}

lemma isUtf8_ofString (s : String) : (ofString s).IsUtf8 := ⟨s, rfl⟩

lemma text_ofString (s : String) : (ofString s).text = s.toList :=
  Text.Utf8.decodeLossy_encode s.toList

lemma display_ofString (s : String) : (ofString s).display = s := by
  rw [display, text_ofString, String.ofList_toList]

/-- A path is read back from what is shown of it. -/
lemma ofString_display (h : p.IsUtf8) : ofString p.display = p := by
  obtain ⟨s, rfl⟩ := h
  rw [display_ofString]

/-- No two are shown alike. -/
lemma eq_of_display_eq (hp : p.IsUtf8) (hq : q.IsUtf8) (h : p.display = q.display) : p = q := by
  rw [← ofString_display hp, h, ofString_display hq]

/-- Only a replacement character hides what a path is. -/
lemma isUtf8_of_notMem (h : '\ufffd' ∉ p.text) : p.IsUtf8 := by
  refine ⟨p.display, ?_⟩
  rw [ofString, display, String.toList_ofList, text, ← Text.Utf8.eq_encode_of_notMem h]

/-! ### Where the bytes of a path come from -/

variable {a : UInt8} {c : Component} {cs : List Component}

lemma mem_bytes_join (h : a ∈ (p.join q).bytes) : a = slash ∨ a ∈ p.bytes ∨ a ∈ q.bytes := by
  rw [join] at h
  split_ifs at h
  · exact Or.inr (Or.inr h)
  · exact Or.inr (List.mem_append.mp h)
  · rcases List.mem_append.mp h with h | h
    · exact Or.inr (Or.inl h)
    · exact (List.mem_cons.mp h).imp_right Or.inr

lemma mem_bytes_ofComponents (h : a ∈ (ofComponents cs).bytes) :
    a = slash ∨ ∃ c ∈ cs, a ∈ c.bytes := by
  have hglue : ∀ ds : List Component, a ∈ Text.glue slash (ds.map Component.bytes) →
      a = slash ∨ ∃ c ∈ ds, a ∈ c.bytes := by
    intro ds hds
    obtain hslash | ⟨bs, hbs, ha⟩ := Text.mem_glue hds
    · exact Or.inl hslash
    · obtain ⟨c, hc, rfl⟩ := List.mem_map.mp hbs
      exact Or.inr ⟨c, hc, ha⟩
  unfold ofComponents at h
  split at h
  · rcases List.mem_cons.mp h with hslash | h
    · exact Or.inl hslash
    · obtain hslash | ⟨c, hc, ha⟩ := hglue _ h
      · exact Or.inl hslash
      · exact Or.inr ⟨c, List.mem_cons_of_mem _ hc, ha⟩
  · exact hglue _ h

lemma mem_of_mem_collapse {d : Component} (h : c ∈ collapse cs d) : c ∈ d :: cs := by
  unfold collapse at h
  split at h
  · exact List.mem_cons_of_mem _ h
  · exact List.mem_cons_of_mem _ (List.mem_cons_of_mem _ h)
  · exact List.mem_cons_of_mem _ h
  · exact h

lemma mem_of_mem_foldl_collapse {ds : List Component} (h : c ∈ ds.foldl collapse cs) :
    c ∈ cs ∨ c ∈ ds := by
  induction ds generalizing cs with
  | nil => exact Or.inl h
  | cons d ds ih =>
      rcases ih h with h | h
      · rcases List.mem_cons.mp (mem_of_mem_collapse h) with rfl | h
        · exact Or.inr List.mem_cons_self
        · exact Or.inl h
      · exact Or.inr (List.mem_cons_of_mem d h)

lemma mem_bytes_of_mem_components (hc : c ∈ p.components) (h : a ∈ c.bytes) :
    a = dot ∨ a ∈ p.bytes := by
  rcases List.mem_append.mp hc with hc | hc
  · rw [front] at hc
    split_ifs at hc
    · rw [List.mem_singleton.mp hc] at h
      cases h
    · rw [List.mem_singleton.mp hc] at h
      exact Or.inl (List.mem_singleton.mp h)
    · cases hc
  · obtain ⟨q, hq, hqc⟩ := List.mem_filterMap.mp hc
    rw [bytes_of_ofPiece? hqc] at h
    exact Or.inr (Text.mem_of_mem_pieces hq h)

/-- **The normal form of a path** holds no bytes of its own but slashes and dots. -/
lemma mem_bytes_normal (h : a ∈ p.normal.bytes) : a = slash ∨ a = dot ∨ a ∈ p.bytes := by
  rw [normal] at h
  split at h
  · exact Or.inr (Or.inl (List.mem_singleton.mp h))
  · obtain hslash | ⟨c, hc, ha⟩ := mem_bytes_ofComponents h
    · exact Or.inl hslash
    · rw [normalComponents, List.mem_reverse] at hc
      have hmem := (mem_of_mem_foldl_collapse hc).resolve_left List.not_mem_nil
      exact Or.inr (mem_bytes_of_mem_components hmem ha)

/-! ### Line feeds -/

/-- The byte of a line feed. -/
def lineFeed : UInt8 := 0x0A

/-- A line feed that is shown is in the path. -/
lemma lineFeed_mem_bytes (h : '\n' ∈ p.text) : lineFeed ∈ p.bytes :=
  (Text.Utf8.infix_of_mem_decodeLossy (by decide) h).subset List.mem_cons_self

lemma newline_mem_of_lineFeed_mem {s : List Char} (h : lineFeed ∈ Text.Utf8.encode s) :
    '\n' ∈ s :=
  Text.Utf8.mem_of_mem_encode h (by decide)

end DocLint.Path
