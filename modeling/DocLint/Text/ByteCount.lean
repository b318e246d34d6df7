/-!
The number of bytes of a text.

* `byteCount` counts the bytes of a text in UTF-8; `byteCount_cons` adds them up
  character by character, `byteCount_append` stretch by stretch.
-/

namespace DocLint.Text

/-- The number of bytes of a text in UTF-8. -/
def byteCount (s : List Char) : Nat :=
  s.foldl (fun n c => n + c.utf8Size) 0

@[simp]
theorem byteCount_nil : byteCount [] = 0 := rfl

/-- Counting may start at any number. -/
theorem foldl_utf8Size (s : List Char) (n : Nat) :
    s.foldl (fun n c => n + c.utf8Size) n = n + byteCount s := by
  induction s generalizing n with
  | nil => rfl
  | cons c s ih =>
    have h : byteCount (c :: s) = 0 + c.utf8Size + byteCount s := ih _
    rw [List.foldl_cons, ih, h]
    omega

@[simp]
theorem byteCount_cons (c : Char) (s : List Char) :
    byteCount (c :: s) = c.utf8Size + byteCount s := by
  rw [byteCount, List.foldl_cons, foldl_utf8Size, Nat.zero_add]

@[simp]
theorem byteCount_append (s t : List Char) :
    byteCount (s ++ t) = byteCount s + byteCount t := by
  rw [byteCount, List.foldl_append, foldl_utf8Size, ← byteCount]

/-- Every character has at least one byte. -/
theorem eq_nil_of_byteCount_eq_zero {s : List Char} (h : byteCount s = 0) : s = [] := by
  cases s with
  | nil => rfl
  | cons c s =>
    have := c.utf8Size_pos
    rw [byteCount_cons] at h
    omega

end DocLint.Text
