/-!
Cutting a list at a separator.

* `pieces sep s` are the stretches of `s` between occurrences of `sep`; there
  is always one more of them than there are separators.
* `glue sep ps` puts the separator back between the pieces.
* `glue_pieces`: cutting and gluing gives the list back.
* `pieces_glue`: gluing and cutting gives pieces without the separator back.
-/

namespace DocLint.Text

variable {α : Type}

/-- Puts an element in front of the first piece. -/
def consPiece (a : α) : List (List α) → List (List α)
  | [] => [[a]]
  | p :: ps => (a :: p) :: ps

/-- The stretches of a list between occurrences of a separator. -/
def pieces [DecidableEq α] (sep : α) (s : List α) : List (List α) :=
  s.foldr (fun a ps => if a = sep then [] :: ps else consPiece a ps) [[]]

/-- The pieces with the separator between them. -/
def glue (sep : α) : List (List α) → List α
  | [] => []
  | [p] => p
  | p :: ps => p ++ sep :: glue sep ps

/-! ### Cutting and gluing -/

@[simp] theorem pieces_nil [DecidableEq α] (sep : α) : pieces sep [] = [[]] := rfl

theorem pieces_cons [DecidableEq α] (sep a : α) (s : List α) :
    pieces sep (a :: s) = if a = sep then [] :: pieces sep s else consPiece a (pieces sep s) := rfl

theorem pieces_ne_nil [DecidableEq α] (sep : α) (s : List α) : pieces sep s ≠ [] := by
  cases s with
  | nil => simp
  | cons a s =>
    rw [pieces_cons]
    split
    · simp
    · cases pieces sep s <;> simp [consPiece]

theorem glue_consPiece (sep a : α) {ps : List (List α)} (h : ps ≠ []) :
    glue sep (consPiece a ps) = a :: glue sep ps := by
  match ps, h with
  | [_], _ => rfl
  | _ :: _ :: _, _ => rfl

/-- No character is lost: gluing undoes cutting. -/
theorem glue_pieces [DecidableEq α] (sep : α) (s : List α) : glue sep (pieces sep s) = s := by
  induction s with
  | nil => rfl
  | cons a s ih =>
    rw [pieces_cons]
    split
    · next h =>
      subst h
      match hp : pieces a s, pieces_ne_nil a s with
      | p :: ps, _ => rw [hp] at ih; simp [glue, ih]
    · rw [glue_consPiece _ _ (pieces_ne_nil sep s), ih]

theorem pieces_append_cons [DecidableEq α] {sep : α} {p : List α} (hp : sep ∉ p) (s : List α) :
    pieces sep (p ++ sep :: s) = p :: pieces sep s := by
  induction p with
  | nil => rw [List.nil_append, pieces_cons, if_pos rfl]
  | cons a p ih =>
    rw [List.mem_cons, not_or] at hp
    rw [List.cons_append, pieces_cons, if_neg (Ne.symm hp.1), ih hp.2, consPiece]

theorem pieces_of_notMem [DecidableEq α] {sep : α} {p : List α} (hp : sep ∉ p) :
    pieces sep p = [p] := by
  induction p with
  | nil => rfl
  | cons a p ih =>
    rw [List.mem_cons, not_or] at hp
    rw [pieces_cons, if_neg (Ne.symm hp.1), ih hp.2, consPiece]

/-- Pieces without the separator are found again. -/
theorem pieces_glue [DecidableEq α] {sep : α} {ps : List (List α)} (hne : ps ≠ [])
    (hs : ∀ p ∈ ps, sep ∉ p) : pieces sep (glue sep ps) = ps := by
  induction ps with
  | nil => exact absurd rfl hne
  | cons p ps ih =>
    have hp : sep ∉ p := hs p List.mem_cons_self
    match ps with
    | [] => exact pieces_of_notMem hp
    | q :: qs =>
      rw [glue, pieces_append_cons hp, ih (List.cons_ne_nil q qs)]
      · exact fun r hr => hs r (List.mem_cons_of_mem p hr)
      · exact List.cons_ne_nil q qs

end DocLint.Text
