/-
The fence defects of a text that follows another one.

* `movedDown`: a fence defect as it reads some lines further down, where the message of an
  unclosed block names another line as well.
* `Tracker.movedDown`: a tracker some lines further down, behind the defects found before.
  `Tracker.feed_movedDown`: it takes the same step with a line there;
  `Tracker.feedAll_movedDown`: so it does with all lines.
* `scan_append`: if the first of two texts is made of whole lines and leaves no block open,
  the defects of both together are those of each.
-/
import Mathlib.Tactic.Common
import DocLint.Fence
import DocLint.Proofs.Text.Lines

namespace DocLint.Fence

variable {earlier : List Violation} {k : ℕ}

/-! ### Further down -/

/-- A fence defect as it reads a number of lines further down. -/
def movedDown (k : ℕ) (v : Violation) : Violation where
  line := v.line + k
  kind := v.kind
  message := if v.kind = .unclosedFence then unclosedMessage (v.line + k) else v.message
  context := v.context

lemma movedDown_missingTag (k number : ℕ) (line : List Char) :
    movedDown k (missingTag number line) = missingTag (number + k) line := rfl

lemma movedDown_unclosed (k number : ℕ) :
    movedDown k (unclosed number) = unclosed (number + k) := rfl

namespace Tracker

/-- A tracker as it is a number of lines further down, behind defects that were found
before. -/
def movedDown (earlier : List Violation) (k : ℕ) (t : Tracker) : Tracker where
  block := t.block.map fun b => ⟨b.mark, b.line + k⟩
  found := t.found.map (Fence.movedDown k) ++ earlier

lemma movedDown_start : start.movedDown earlier k = ⟨none, earlier⟩ := rfl

/-- **One line** does the same further down. -/
lemma feed_movedDown (earlier : List Violation) (k number : ℕ) (line : List Char) (t : Tracker) :
    (t.movedDown earlier k).feed (number + k) line =
      ((t.feed number line).1.movedDown earlier k, (t.feed number line).2) := by
  obtain ⟨block, found⟩ := t
  cases hfence : ofLine? line with
  | none => simp only [feed, hfence]
  | some f =>
      cases block with
      | none =>
          simp only [feed, hfence, movedDown, Option.map_none]
          split_ifs
          · rfl
          · rw [List.map_cons, movedDown_missingTag]
            rfl
      | some b =>
          simp only [feed, hfence, movedDown, Option.map_some]
          split_ifs <;> rfl

lemma feedAll_movedDown (t : Tracker) (ls : List (ℕ × List Char)) :
    (t.movedDown earlier k).feedAll (ls.map fun l => (l.1 + k, l.2)) =
      (t.feedAll ls).movedDown earlier k := by
  induction ls generalizing t with
  | nil => rfl
  | cons l ls ih =>
      have hstep := congrArg Prod.fst (feed_movedDown earlier k l.1 l.2 t)
      rw [List.map_cons, feedAll, List.foldl_cons, hstep, ← feedAll, ih]
      rfl

lemma finish_movedDown (t : Tracker) :
    (t.movedDown earlier k).finish = earlier.reverse ++ t.finish.map (Fence.movedDown k) := by
  obtain ⟨block, found⟩ := t
  cases block <;> simp [finish, movedDown, movedDown_unclosed]

lemma feedAll_append (t : Tracker) (ls ms : List (ℕ × List Char)) :
    t.feedAll (ls ++ ms) = (t.feedAll ls).feedAll ms :=
  List.foldl_append

end Tracker

/-! ### Two texts -/

/-- **Texts are checked one after the other**: if the first one is made of whole lines and
no block is open behind them, the defects of both together are those of the first, and then
those of the second as they read that many lines further down. -/
theorem scan_append (a b : String) (hwhole : Text.IsWhole a.toList)
    (hclosed : (Tracker.start.feedAll (Text.numberedLines a.toList)).inBlock = false) :
    scan (a ++ b) = scan a ++ (scan b).map (movedDown (Text.lines a.toList).length) := by
  obtain ⟨found, hbehind⟩ : ∃ found,
      Tracker.start.feedAll (Text.numberedLines a.toList) = ⟨none, found⟩ := by
    rw [Tracker.inBlock, Option.isSome_eq_false_iff, Option.isNone_iff_eq_none] at hclosed
    exact ⟨_, congrArg (fun block => Tracker.mk block _) hclosed⟩
  have hfirst : scan a = found.reverse := by
    rw [scan, hbehind, Tracker.finish, Option.map_none, Option.toList_none, List.append_nil]
  have hlines : Text.numberedLines (a ++ b).toList = Text.numberedLines a.toList ++
      (Text.numberedLines b.toList).map fun l => (l.1 + (Text.lines a.toList).length, l.2) := by
    rw [String.toList_append, Text.numberedLines_append hwhole]
  calc scan (a ++ b)
      = (Tracker.feedAll ⟨none, found⟩ ((Text.numberedLines b.toList).map fun l =>
          (l.1 + (Text.lines a.toList).length, l.2))).finish := by
        rw [scan, hlines, Tracker.feedAll_append, hbehind]
    _ = found.reverse ++ (scan b).map (movedDown (Text.lines a.toList).length) := by
        rw [← Tracker.movedDown_start (k := (Text.lines a.toList).length),
          Tracker.feedAll_movedDown, Tracker.finish_movedDown, scan]
    _ = scan a ++ (scan b).map (movedDown (Text.lines a.toList).length) := by rw [hfirst]

/-- Behind a closed block without a tag, on lines that end in both ways, an open one is
reported on its own line. -/
theorem scan_append_closedBlock :
    Text.IsWhole "```\r\n~~~\n```\n".toList ∧
      (Tracker.start.feedAll (Text.numberedLines "```\r\n~~~\n```\n".toList)).inBlock = false ∧
      scan ("```\r\n~~~\n```\n" ++ "\n~~~ \nx") =
        [missingTag 1 "```".toList, missingTag 5 "~~~".toList, unclosed 5] := by
  have hwhole : Text.IsWhole "```\r\n~~~\n```\n".toList := by decide
  have hclosed : (Tracker.start.feedAll
      (Text.numberedLines "```\r\n~~~\n```\n".toList)).inBlock = false := by decide
  refine ⟨hwhole, hclosed, ?_⟩
  rw [scan_append _ _ hwhole hclosed]
  decide

end DocLint.Fence
