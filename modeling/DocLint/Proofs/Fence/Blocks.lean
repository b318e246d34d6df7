/-
The blocks that the fence lines of a text make up.

* `Partition`: fence lines cut into blocks. A block is its opening fence, then
  fences of the other character, then the closing fence; only the last block may
  do without one.
* `Partition.add`: one more fence line opens a block, belongs to the one that is
  open, or closes it. `exists_eq_add` says that every partition comes about in
  this way, so `eq_of_lines_eq`: fence lines have only one.
* `feed_behind`: a tracker takes the same step; `feedAll_start`: its state is
  always that behind the partition of the fence lines read so far, so
  `scan_eq_violations`: the defects of a text are those of its partition.
* `exists_unique_partition`: events, states and defects of a tracker are those of
  the one partition of its fence lines.
-/
import Mathlib.Data.List.Basic
import Mathlib.Data.List.Induction
import Mathlib.Tactic.Common
import DocLint.Fence

namespace DocLint.Fence

/-- A line that is a fence: its number, its text, and the fence. -/
structure Line where
  number : Nat
  text : List Char
  fence : Fence

/-- The lines that are fences, in order. -/
def fenceLines (ls : List (Nat × List Char)) : List Line :=
  ls.filterMap fun l => (ofLine? l.2).map fun f => ⟨l.1, l.2, f⟩

lemma fenceLines_append (ls ms : List (Nat × List Char)) :
    fenceLines (ls ++ ms) = fenceLines ls ++ fenceLines ms :=
  List.filterMap_append

lemma fenceLines_cons_of_eq_none {l : Nat × List Char} (h : ofLine? l.2 = none)
    (ls : List (Nat × List Char)) : fenceLines (l :: ls) = fenceLines ls := by
  rw [fenceLines, List.filterMap_cons, h]
  rfl

lemma fenceLines_cons_of_eq_some {l : Nat × List Char} {f : Fence} (h : ofLine? l.2 = some f)
    (ls : List (Nat × List Char)) : fenceLines (l :: ls) = ⟨l.1, l.2, f⟩ :: fenceLines ls := by
  rw [fenceLines, List.filterMap_cons, h]
  rfl

/-! ### Blocks -/

/-- The fence lines of a block up to its closing fence: the one that opens it, and
those of the other character. -/
structure OpenBlock where
  opener : Line
  literals : List Line
  mark_ne : ∀ l ∈ literals, l.fence.mark ≠ opener.fence.mark

/-- The fence lines of a block that is closed. -/
structure ClosedBlock extends OpenBlock where
  closer : Line
  mark_eq : closer.fence.mark = opener.fence.mark

/-- Fence lines cut into blocks, of which only the last one may be open. -/
structure Partition where
  closed : List ClosedBlock
  last : Option OpenBlock

/-- The fence lines of an open block, in order. -/
def OpenBlock.lines (b : OpenBlock) : List Line :=
  b.opener :: b.literals

/-- The fence lines of a closed block, in order. -/
def ClosedBlock.lines (b : ClosedBlock) : List Line :=
  b.toOpenBlock.lines ++ [b.closer]

/-- What a fence does that opens a block. -/
def Line.opening (l : Line) : Event :=
  if l.fence.isTagged then .openTagged else .openUntagged

/-- What the fence lines of an open block do, and whether a block is open behind
them. -/
def OpenBlock.steps (b : OpenBlock) : List (Event × Bool) :=
  (b.opener.opening, true) :: b.literals.map fun _ => (.literal, true)

/-- What the fence lines of a closed block do. -/
def ClosedBlock.steps (b : ClosedBlock) : List (Event × Bool) :=
  b.toOpenBlock.steps ++ [(.close, false)]

namespace Partition

/-- All fence lines, block by block. -/
def lines (p : Partition) : List Line :=
  p.closed.flatMap ClosedBlock.lines ++ (p.last.map OpenBlock.lines).getD []

/-- The fence lines that open a block. -/
def openers (p : Partition) : List Line :=
  p.closed.map (·.opener) ++ (p.last.map (·.opener)).toList

/-- What every fence line does, and whether a block is open behind it. -/
def steps (p : Partition) : List (Event × Bool) :=
  p.closed.flatMap ClosedBlock.steps ++ (p.last.map OpenBlock.steps).getD []

/-- The defects of the opening fences that name nothing. -/
def missingTags (p : Partition) : List Violation :=
  (p.openers.filter fun l => !l.fence.isTagged).map fun l => missingTag l.number l.text

/-- All defects: those of the opening fences, and the block that nothing closes. -/
def violations (p : Partition) : List Violation :=
  p.missingTags ++ (p.last.map fun b => unclosed b.opener.number).toList

lemma openers_sublist_lines (p : Partition) : p.openers.Sublist p.lines := by
  refine List.Sublist.append ?_ ?_
  · induction p.closed with
    | nil => exact List.Sublist.slnil
    | cons b bs ih => exact List.Sublist.append (List.singleton_sublist.mpr List.mem_cons_self) ih
  · cases p.last with
    | none => exact List.Sublist.slnil
    | some b => exact List.singleton_sublist.mpr List.mem_cons_self

/-! ### One more fence line -/

/-- The partition with one more fence line at its end. -/
def add (p : Partition) (l : Line) : Partition :=
  match p.last with
  | none => ⟨p.closed, some ⟨l, [], List.forall_mem_nil _⟩⟩
  | some b =>
    if h : l.fence.mark = b.opener.fence.mark then ⟨p.closed ++ [⟨b, l, h⟩], none⟩
    else
      ⟨p.closed, some ⟨b.opener, b.literals ++ [l], fun m hm => by
        rcases List.mem_append.mp hm with hm | hm
        · exact b.mark_ne m hm
        · rwa [List.mem_singleton.mp hm]⟩⟩

/-- What a fence line does behind a partition. -/
def event (p : Partition) (l : Line) : Event :=
  match p.last with
  | none => l.opening
  | some b => if l.fence.mark = b.opener.fence.mark then .close else .literal

/-- The three ways to add a fence line. -/
lemma add_cases (p : Partition) (l : Line) :
    (p.last = none ∧ p.event l = l.opening ∧
      ∃ h, p.add l = ⟨p.closed, some ⟨l, [], h⟩⟩) ∨
    ∃ b, p.last = some b ∧
      ((l.fence.mark = b.opener.fence.mark ∧ p.event l = .close ∧
        ∃ h, p.add l = ⟨p.closed ++ [⟨b, l, h⟩], none⟩) ∨
      (l.fence.mark ≠ b.opener.fence.mark ∧ p.event l = .literal ∧
        ∃ h, p.add l = ⟨p.closed, some ⟨b.opener, b.literals ++ [l], h⟩⟩)) := by
  rw [add, event]
  cases hb : p.last with
  | none => exact Or.inl ⟨rfl, rfl, List.forall_mem_nil _, rfl⟩
  | some b =>
      refine Or.inr ⟨b, rfl, ?_⟩
      by_cases h : l.fence.mark = b.opener.fence.mark
      · exact Or.inl ⟨h, if_pos h, h, dif_pos h⟩
      · exact Or.inr ⟨h, if_neg h, _, dif_neg h⟩

lemma lines_add (p : Partition) (l : Line) : (p.add l).lines = p.lines ++ [l] := by
  rcases p.add_cases l with ⟨hlast, -, h, hadd⟩ | ⟨b, hlast, ⟨-, -, h, hadd⟩ | ⟨-, -, h, hadd⟩⟩ <;>
    rw [hadd] <;> simp [lines, hlast, OpenBlock.lines, ClosedBlock.lines]

lemma steps_add (p : Partition) (l : Line) :
    (p.add l).steps = p.steps ++ [(p.event l, (p.add l).last.isSome)] := by
  rcases p.add_cases l with
    ⟨hlast, he, h, hadd⟩ | ⟨b, hlast, ⟨-, he, h, hadd⟩ | ⟨-, he, h, hadd⟩⟩ <;>
    rw [hadd, he] <;> simp [steps, hlast, OpenBlock.steps, ClosedBlock.steps]

/-- A partition of any lines at all comes about by adding the last one. -/
lemma exists_eq_add {p : Partition} (h : p.lines ≠ []) : ∃ q l, p = add q l := by
  obtain ⟨closed, last⟩ := p
  cases last with
  | none =>
      -- The last line closes the last block, which was open before.
      rcases List.eq_nil_or_concat' closed with rfl | ⟨init, c, rfl⟩
      · exact absurd rfl h
      · exact ⟨⟨init, some c.toOpenBlock⟩, c.closer, by simp [add, c.mark_eq]⟩
  | some b =>
      obtain ⟨opener, literals, hmark⟩ := b
      rcases List.eq_nil_or_concat' literals with rfl | ⟨init, m, rfl⟩
      · exact ⟨⟨closed, none⟩, opener, rfl⟩
      · have hinit : ∀ l ∈ init, l.fence.mark ≠ opener.fence.mark := fun l hl =>
          hmark l (List.mem_append_left _ hl)
        have hm : m.fence.mark ≠ opener.fence.mark := hmark m (by simp)
        exact ⟨⟨closed, some ⟨opener, init, hinit⟩⟩, m, by simp [add, hm]⟩

lemma eq_empty_of_lines_eq_nil {p : Partition} (h : p.lines = []) : p = ⟨[], none⟩ := by
  obtain ⟨closed, last⟩ := p
  obtain ⟨hclosed, hlast⟩ := List.append_eq_nil_iff.mp h
  cases last with
  | some b => simp [OpenBlock.lines] at hlast
  | none =>
      cases closed with
      | nil => rfl
      | cons c cs => simp [ClosedBlock.lines] at hclosed

/-- Fence lines have one partition. -/
lemma eq_of_lines_eq {p q : Partition} (h : p.lines = q.lines) : p = q := by
  generalize hls : q.lines = ls at h
  induction ls using List.reverseRecOn generalizing p q with
  | nil => rw [eq_empty_of_lines_eq_nil h, eq_empty_of_lines_eq_nil hls]
  | append_singleton ls l ih =>
      have hpne : p.lines ≠ [] := by simp [h]
      have hqne : q.lines ≠ [] := by simp [hls]
      obtain ⟨p', m, rfl⟩ := exists_eq_add hpne
      obtain ⟨q', n, rfl⟩ := exists_eq_add hqne
      rw [lines_add] at h hls
      obtain ⟨hp, hm⟩ := List.append_inj' h rfl
      obtain ⟨hq, hn⟩ := List.append_inj' hls rfl
      rw [ih hp hq, List.singleton_inj.mp hm, List.singleton_inj.mp hn]

/-- The partition of fence lines. -/
def of (ls : List Line) : Partition :=
  ls.foldl add ⟨[], none⟩

lemma of_concat (ls : List Line) (l : Line) : of (ls ++ [l]) = (of ls).add l := by
  rw [of, List.foldl_concat]
  rfl

lemma lines_of (ls : List Line) : (of ls).lines = ls := by
  induction ls using List.reverseRecOn with
  | nil => rfl
  | append_singleton ls l ih => rw [of_concat, lines_add, ih]

/-! ### What fence lines do -/

lemma length_steps_of (ls : List Line) : (of ls).steps.length = ls.length := by
  induction ls using List.reverseRecOn with
  | nil => rfl
  | append_singleton ls l ih =>
      rw [of_concat, steps_add, List.length_append, List.length_append, ih]
      rfl

/-- Fence lines that follow change nothing in what those before them do. -/
lemma prefix_steps_of (ls ms : List Line) : (of ls).steps <+: (of (ls ++ ms)).steps := by
  induction ms using List.reverseRecOn with
  | nil => exact ⟨[], by rw [List.append_nil, List.append_nil]⟩
  | append_singleton ms m ih =>
      rw [← List.append_assoc, of_concat, steps_add]
      exact ih.trans (List.prefix_append _ _)

lemma take_steps_of (ls ms : List Line) :
    (of (ls ++ ms)).steps.take ls.length = (of ls).steps := by
  have h := List.prefix_iff_eq_take.mp (prefix_steps_of ls ms)
  rw [length_steps_of] at h
  exact h.symm

lemma getElem?_steps_of (ls ms : List Line) (l : Line) :
    (of (ls ++ l :: ms)).steps[ls.length]? =
      some ((of ls).event l, ((of ls).add l).last.isSome) := by
  have hsplit : ls ++ l :: ms = (ls ++ [l]) ++ ms := by simp
  obtain ⟨rest, hrest⟩ := prefix_steps_of (ls ++ [l]) ms
  rw [hsplit, ← hrest, of_concat, steps_add, List.append_assoc, ← length_steps_of ls,
    List.getElem?_append_right (Nat.le_refl _), Nat.sub_self]
  rfl

/-- A block is open behind a partition exactly if it is behind the last fence
line. -/
lemma any_getLast?_steps_of (ls : List Line) :
    (of ls).steps.getLast?.any (·.2) = (of ls).last.isSome := by
  rcases List.eq_nil_or_concat' ls with rfl | ⟨ms, m, rfl⟩
  · rfl
  · rw [of_concat, steps_add, List.getLast?_concat, Option.any_some]

end Partition

/-! ### Trackers -/

namespace Tracker

/-- The state of a tracker behind a partition. -/
def behind (p : Partition) : Tracker where
  block := p.last.map fun b => ⟨b.opener.fence.mark, b.opener.number⟩
  found := p.missingTags.reverse

lemma inBlock_behind (p : Partition) : (behind p).inBlock = p.last.isSome := by
  rw [inBlock, behind, Option.isSome_map]

lemma finish_behind (p : Partition) : (behind p).finish = p.violations := by
  rw [finish, behind, List.reverse_reverse, Option.map_map]
  rfl

/-- **One fence line**: a tracker does with it what becomes of it in the
partition. -/
lemma feed_behind (p : Partition) {number : Nat} {text : List Char} {f : Fence}
    (h : ofLine? text = some f) :
    (behind p).feed number text =
      (behind (p.add ⟨number, text, f⟩), some (p.event ⟨number, text, f⟩)) := by
  rcases p.add_cases ⟨number, text, f⟩ with
    ⟨hlast, he, hp, hadd⟩ | ⟨b, hlast, ⟨hmark, he, hp, hadd⟩ | ⟨hmark, he, hp, hadd⟩⟩
  · rw [hadd, he, feed, h]
    by_cases htag : f.isTagged = true <;>
      simp [behind, hlast, htag, Partition.missingTags, Partition.openers, Line.opening]
  · rw [hadd, he, feed, h]
    simp only [behind, hlast, Option.map_some, if_pos hmark]
    simp [Partition.missingTags, Partition.openers, hlast]
  · rw [hadd, he, feed, h]
    simp only [behind, hlast, Option.map_some, if_neg hmark]
    simp [Partition.missingTags, Partition.openers, hlast]

lemma feed_of_eq_none {t : Tracker} {number : Nat} {text : List Char} (h : ofLine? text = none) :
    t.feed number text = (t, none) := by
  rw [feed, h]

/-- The state of a tracker is that behind the partition of what it has read. -/
lemma feedAll_start (ls : List (Nat × List Char)) :
    start.feedAll ls = behind (.of (fenceLines ls)) := by
  induction ls using List.reverseRecOn with
  | nil => rfl
  | append_singleton ls l ih =>
      have hstep : start.feedAll (ls ++ [l]) = ((start.feedAll ls).feed l.1 l.2).1 := by
        rw [feedAll, List.foldl_concat]
        rfl
      rw [hstep, ih, fenceLines_append]
      cases h : ofLine? l.2 with
      | none =>
          rw [feed_of_eq_none h, fenceLines_cons_of_eq_none h]
          simp [fenceLines]
      | some f =>
          rw [feed_behind _ h, fenceLines_cons_of_eq_some h]
          exact congrArg behind (Partition.of_concat _ _).symm

/-- Whether a tracker that reads lines goes by a partition of their fences. -/
structure Follows (ls : List (Nat × List Char)) (p : Partition) : Prop where
  /-- Every fence does what the partition says, and other lines do nothing. -/
  event : ∀ before l after, ls = before ++ l :: after →
    ((start.feedAll before).feed l.1 l.2).2 =
      (ofLine? l.2).bind fun _ => p.steps[(fenceLines before).length]?.map (·.1)
  /-- A block is open as long as the last fence so far leaves one open. -/
  inBlock : ∀ before after, ls = before ++ after →
    (start.feedAll before).inBlock =
      (p.steps.take (fenceLines before).length).getLast?.any (·.2)
  finish : (start.feedAll ls).finish = p.violations

lemma follows_of (ls : List (Nat × List Char)) : Follows ls (.of (fenceLines ls)) where
  event before l after h := by
    rw [feedAll_start, h, fenceLines_append]
    cases hl : ofLine? l.2 with
    | none =>
        rw [feed_of_eq_none hl]
        rfl
    | some f =>
        rw [feed_behind _ hl, fenceLines_cons_of_eq_some hl, Option.bind_some,
          Partition.getElem?_steps_of, Option.map_some]
  inBlock before after h := by
    rw [feedAll_start, inBlock_behind, h, fenceLines_append, Partition.take_steps_of,
      Partition.any_getLast?_steps_of]
  finish := by rw [feedAll_start, finish_behind]

end Tracker

/-- The defects of a text are those of the partition of its fence lines. -/
lemma scan_eq_violations (content : String) :
    scan content =
      (Partition.of (fenceLines (Text.numberedLines content.toList))).violations :=
  (Tracker.follows_of _).finish

/-- **Fences make up blocks**: the fence lines among any lines have exactly one
partition, and a tracker that reads the lines goes by it, in what it says of each
line, in whether it is in a block, and in the defects at the end. The defects of a
text are those of its numbered lines. -/
theorem exists_unique_partition (ls : List (Nat × List Char)) :
    ∃ p : Partition, p.lines = fenceLines ls ∧
      (∀ q : Partition, q.lines = fenceLines ls → q = p) ∧ Tracker.Follows ls p ∧
      ∀ content : String, Text.numberedLines content.toList = ls →
        scan content = p.violations := by
  have hlines := Partition.lines_of (fenceLines ls)
  have hfollows := Tracker.follows_of ls
  refine ⟨.of (fenceLines ls), hlines, ?_, hfollows, ?_⟩
  · intro q hq
    exact Partition.eq_of_lines_eq (hq.trans hlines.symm)
  · intro content hcontent
    rw [scan, hcontent]
    exact hfollows.finish

end DocLint.Fence
