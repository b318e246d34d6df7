/-!
The form of an inline link.

* `Link.Form` is the shape of a link as written, a text in square brackets and
  directly after it a target in round ones; neither is empty, the text holds no
  closing square bracket and the target no closing round one.
* `Link.form?` reads a form at the front of a text.
* `Link.passOver` says how much of a text without a form at its front can be
  passed over, `form?_append_of_passOver` that no form starts in it.
-/

namespace DocLint.Link

/-- A link as written. -/
structure Form where
  text : List Char
  target : List Char
  deriving DecidableEq, Repr

/-- The characters of a form. -/
def Form.written (f : Form) : List Char :=
  '[' :: (f.text ++ ']' :: '(' :: (f.target ++ [')']))

/-- The target between round brackets behind a closing square one, and what
follows it. -/
def target? : List Char → Option (List Char × List Char)
  | ']' :: '(' :: cs =>
    match cs.dropWhile (· ≠ ')') with
    | ')' :: rest =>
      let target := cs.takeWhile (· ≠ ')')
      if target = [] then none else some (target, rest)
    | _ => none
  | _ => none

/-- The form at the front of a text, and what follows it. -/
def form? : List Char → Option (Form × List Char)
  | '[' :: cs =>
    let text := cs.takeWhile (· ≠ ']')
    if text = [] then none
    else
      match target? (cs.dropWhile (· ≠ ']')) with
      | some (target, rest) => some (⟨text, target⟩, rest)
      | none => none
  | _ => none

/-! ### What is read is written -/

/-- A target that is read is written at the front of the text. -/
theorem eq_append_of_target? {s target rest : List Char} (h : target? s = some (target, rest)) :
    s = ']' :: '(' :: (target ++ ')' :: rest) := by
  unfold target? at h
  split at h
  · next cs =>
    split at h
    · next rest' hrest =>
      simp only [Option.ite_none_left_eq_some, Option.some.injEq, Prod.mk.injEq] at h
      obtain ⟨-, rfl, rfl⟩ := h
      rw [← hrest, List.takeWhile_append_dropWhile]
    · simp at h
  · simp at h

/-- A form that is read is written at the front of the text. -/
theorem eq_written_append_of_form? {s rest : List Char} {f : Form}
    (h : form? s = some (f, rest)) : s = f.written ++ rest := by
  unfold form? at h
  split at h
  · next cs =>
    simp only [Option.ite_none_left_eq_some] at h
    obtain ⟨-, h⟩ := h
    split at h
    · next target rest' ht =>
      simp only [Option.some.injEq, Prod.mk.injEq] at h
      obtain ⟨rfl, rfl⟩ := h
      simp only [Form.written, List.cons_append, List.append_assoc, List.nil_append]
      rw [← eq_append_of_target? ht, List.takeWhile_append_dropWhile]
    · simp at h
  · simp at h

/-- What follows a form is shorter than the text. -/
theorem length_lt_of_form? {s rest : List Char} {f : Form}
    (h : form? s = some (f, rest)) : rest.length < s.length := by
  rw [eq_written_append_of_form? h]
  simp [Form.written]
  omega

/-! ### What can be passed over -/

/-- Cuts a text with no form at its front in two; no form starts in the first
part. Behind an opening bracket that part goes up to the next closing square
bracket, or to the end of the text if a bracket that every form needs is
missing from there on. -/
def passOver : List Char → List Char × List Char
  | '[' :: cs =>
    if cs.head? = some ']' then (['['], cs)
    else
      match cs.dropWhile (· ≠ ']') with
      | [] => ('[' :: cs, [])
      | b :: '(' :: ds =>
        if ds.contains ')' then ('[' :: cs.takeWhile (· ≠ ']'), b :: '(' :: ds)
        else ('[' :: cs, [])
      | b :: ds => ('[' :: cs.takeWhile (· ≠ ']'), b :: ds)
  | c :: cs => ([c], cs)
  | [] => ([], [])

/-- The two parts make up the text. -/
theorem passOver_append (s : List Char) : (passOver s).1 ++ (passOver s).2 = s := by
  unfold passOver
  split
  · next cs =>
    split
    · rfl
    · split
      · simp
      · next ds h =>
        split
        · rw [List.cons_append, ← h, List.takeWhile_append_dropWhile]
        · simp
      · next b ds _ h => rw [List.cons_append, ← h, List.takeWhile_append_dropWhile]
  · rfl
  · rfl

/-- Something is passed over unless there is nothing. -/
theorem length_passOver_lt (c : Char) (cs : List Char) :
    (passOver (c :: cs)).2.length < (c :: cs).length := by
  have h := congrArg List.length (passOver_append (c :: cs))
  have h1 : (passOver (c :: cs)).1 ≠ [] := by
    unfold passOver
    split
    · split
      · simp
      · split
        · simp
        · split <;> simp
        · simp
    · simp
    · contradiction
  have h2 := List.length_pos_iff.2 h1
  rw [List.length_append] at h
  omega

/-- A form needs a closing square bracket with a closing round one behind it. -/
theorem form?_eq_none_of_forall {s : List Char} (h : ∀ a b, s = a ++ ']' :: b → ')' ∉ b) :
    form? s = none := by
  cases hf : form? s with
  | none => rfl
  | some p =>
    obtain ⟨f, rest⟩ := p
    refine absurd ?_ (h ('[' :: f.text) ('(' :: (f.target ++ ')' :: rest)) ?_)
    · simp
    · rw [eq_written_append_of_form? hf]
      simp [Form.written]

/-- No character before the first `c` is a `c`. -/
theorem not_mem_takeWhile_ne (c : Char) (s : List Char) : c ∉ s.takeWhile (· ≠ c) := by
  induction s with
  | nil => simp
  | cons d s ih =>
    by_cases h : d = c
    · simp [h]
    · simpa [List.takeWhile_cons, h, Ne.symm h] using ih

/-- What is dropped up to a character starts with it. -/
theorem eq_of_dropWhile_ne {c b : Char} {s r : List Char}
    (h : s.dropWhile (· ≠ c) = b :: r) : b = c := by
  induction s with
  | nil => simp at h
  | cons d s ih =>
    by_cases hd : d = c
    · subst hd
      simp at h
      exact h.1.symm
    · rw [List.dropWhile_cons_of_pos (by simpa using hd)] at h
      exact ih h

/-- A form ends as the first closing square bracket says. -/
theorem form?_append {w r : List Char} (hw : ']' ∉ w) (hr : target? (']' :: r) = none) :
    form? ('[' :: (w ++ ']' :: r)) = none := by
  have h : (w ++ ']' :: r).dropWhile (· ≠ ']') = ']' :: r := by
    rw [List.dropWhile_append_of_pos fun a ha => by
      simpa using fun h : a = ']' => hw (h ▸ ha)]
    simp
  unfold form?
  simp only [h, hr]
  split <;> rfl

/-- The stretch before the first closing square bracket holds no start of a form
if the one at its front is none. -/
theorem form?_append_of_takeWhile {cs r u v : List Char} (hne : cs.head? ≠ some ']')
    (hr : cs.dropWhile (· ≠ ']') = ']' :: r) (hf : form? ('[' :: cs) = none)
    (huv : '[' :: cs.takeWhile (· ≠ ']') = u ++ v) : form? (v ++ ']' :: r) = none := by
  have htext : cs.takeWhile (· ≠ ']') ≠ [] := by
    cases cs with
    | nil => simp at hr
    | cons d ds =>
      have hd : d ≠ ']' := by simpa using hne
      simp [hd]
  have hnone : target? (']' :: r) = none := by
    unfold form? at hf
    simp only [hr, htext, if_false] at hf
    cases ht : target? (']' :: r) with
    | none => rfl
    | some p => simp [ht] at hf
  have hmem : ']' ∉ v := fun h => by
    have h' : ']' ∈ '[' :: cs.takeWhile (· ≠ ']') := huv ▸ List.mem_append_right u h
    rcases List.mem_cons.1 h' with h' | h'
    · simp at h'
    · exact not_mem_takeWhile_ne ']' cs h'
  match v, hmem with
  | [], _ => rfl
  | d :: w, hmem =>
    by_cases hd : d = '['
    · subst hd
      exact form?_append (fun h => hmem (List.mem_cons_of_mem _ h)) hnone
    · unfold form?
      split
      · next h =>
        simp only [List.cons_append, List.cons.injEq] at h
        exact absurd h.1 hd
      · rfl

/-- No form starts in what is passed over. -/
theorem form?_append_of_passOver {s u v : List Char} (hf : form? s = none)
    (huv : (passOver s).1 = u ++ v) (hv : v ≠ []) : form? (v ++ (passOver s).2) = none := by
  have whole : ∀ {c : Char} {cs : List Char}, form? (c :: cs) = none → [c] = u ++ v →
      form? (v ++ cs) = none := fun {c cs} hf h => by
    rcases List.append_eq_cons_iff.1 h.symm with ⟨-, h⟩ | ⟨w, -, h⟩
    · rw [h]
      exact hf
    · exact absurd (List.append_eq_nil_iff.1 h.symm).2 hv
  unfold passOver at huv ⊢
  split at huv
  · next cs =>
    split at huv
    · next h => simpa [h] using whole hf huv
    · next hne =>
      simp only [hne, if_false]
      split at huv
      · next h =>
        simp only [List.append_nil]
        refine form?_eq_none_of_forall fun a b hab => ?_
        have h1 : '[' :: cs = u ++ v := huv
        have h2 : ']' ∈ '[' :: cs := by
          rw [h1, hab]
          simp
        have h3 := List.takeWhile_append_dropWhile (p := (· ≠ ']')) (l := cs)
        rw [h, List.append_nil] at h3
        have h4 := not_mem_takeWhile_ne ']' cs
        rw [h3] at h4
        exact absurd h2 (by simpa using h4)
      · next b ds h =>
        have hb := eq_of_dropWhile_ne h
        subst hb
        split at huv
        · next hd =>
          simp only [hd, if_true]
          exact form?_append_of_takeWhile hne h hf huv
        · next hd =>
          simp only [hd]
          simp only [Bool.false_eq_true, if_false, List.append_nil]
          refine form?_eq_none_of_forall fun a b hab => ?_
          have h3 := List.takeWhile_append_dropWhile (p := (· ≠ ']')) (l := cs)
          rw [h] at h3
          have h4 : ('[' :: cs.takeWhile (· ≠ ']')) ++ ']' :: '(' :: ds = (u ++ a) ++ ']' :: b := by
            rw [List.append_assoc, ← hab, ← huv, List.cons_append, h3]
          have h5 : ']' ∉ '[' :: cs.takeWhile (· ≠ ']') := by
            simpa using not_mem_takeWhile_ne ']' cs
          have h6 : ')' ∉ '(' :: ds := by simpa using hd
          rcases List.append_eq_append_iff.1 h4 with ⟨w, h7, h8⟩ | ⟨w, h7, h8⟩
          · cases w with
            | nil =>
              simp only [List.nil_append, List.cons.injEq, true_and] at h8
              exact h8 ▸ h6
            | cons d w =>
              simp only [List.cons_append, List.cons.injEq] at h8
              intro hb
              refine h6 ?_
              rw [h8.2]
              simp [hb]
          · cases w with
            | nil =>
              simp only [List.nil_append, List.cons.injEq, true_and] at h8
              exact h8 ▸ h6
            | cons d w =>
              simp only [List.cons_append, List.cons.injEq] at h8
              exact absurd (h7 ▸ by simp [← h8.1]) h5
      · next b ds hno h =>
        have hb := eq_of_dropWhile_ne h
        subst hb
        exact form?_append_of_takeWhile hne h hf huv
  · next c cs _ => exact whole hf huv
  · exact absurd (List.append_eq_nil_iff.1 huv.symm).2 hv

end DocLint.Link
