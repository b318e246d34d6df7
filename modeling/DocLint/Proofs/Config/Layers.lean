/-
Layers of options, field by field.

* `Field` names the options; `get` is what a configuration has for one, and `Layer.set?` what a
  layer sets it to, extensions in the form in which they are kept. `eq_of_get`: there are no other
  options.
* `get_applyTo`: one layer replaces what it sets. `get_layered`: of several layers, one over the
  other, the last one that sets an option gives it its value.
* `Layer.merge`: two layers as one, where the second one counts more; `applyTo_merge`: it is laid
  over a configuration like the two of them in turn.
* `foldl_lay`: among texts the ones that cannot be read change nothing.
-/
import Mathlib.Data.List.Basic
import Mathlib.Tactic.Common
import DocLint.Config.Reading

namespace DocLint.Config

/-! ### Fields -/

/-- The options by name. -/
inductive Field where
  | root
  | extensions
  | exclude
  | archiveDir
  | includeArchive
  | emojiRanges
  | maxFileSize
  | followLinks
  | maxDepth
  deriving DecidableEq

/-- The values that an option may have. -/
def Field.Value : Field → Type
  | root => Path
  | extensions | exclude => List String
  | archiveDir => String
  | includeArchive | followLinks => Bool
  | emojiRanges => Emoji.Ranges
  | maxFileSize | maxDepth => Nat

/-- The value of an option. -/
def get (c : Config) : (f : Field) → f.Value
  | .root => c.root
  | .extensions => c.extensions
  | .exclude => c.exclude
  | .archiveDir => c.archiveDir
  | .includeArchive => c.includeArchive
  | .emojiRanges => c.emojiRanges
  | .maxFileSize => c.maxFileSize
  | .followLinks => c.followLinks
  | .maxDepth => c.maxDepth

/-- The value that a layer sets an option to, as a configuration keeps it. -/
def Layer.set? (l : Layer) : (f : Field) → Option f.Value
  | .root => l.root
  | .extensions => l.extensions.map fun raw => (({} : Config).withExtensions raw).extensions
  | .exclude => l.exclude
  | .archiveDir => l.archiveDir
  | .includeArchive => l.includeArchive
  | .emojiRanges => l.emojiRanges
  | .maxFileSize => l.maxFileSize
  | .followLinks => l.followLinks
  | .maxDepth => l.maxDepth

/-- The value that the last layer to set an option gives it. -/
def lastSet? (ls : List Layer) (f : Field) : Option f.Value :=
  (ls.filterMap (·.set? f)).getLast?

variable {c d : Config} {l m : Layer} {ls : List Layer} {f : Field}

/-- Configurations that agree on every option are equal. -/
lemma eq_of_get (h : ∀ f, c.get f = d.get f) : c = d := by
  cases c
  cases d
  congr
  · exact h .root
  · exact h .extensions
  · exact h .exclude
  · exact h .archiveDir
  · exact h .includeArchive
  · exact h .emojiRanges
  · exact h .maxFileSize
  · exact h .followLinks
  · exact h .maxDepth

/-! ### Layers in turn -/

/-- A layer replaces what it sets, and leaves the rest. -/
lemma get_applyTo (l : Layer) (c : Config) (f : Field) :
    (l.applyTo c).get f = (l.set? f).getD (c.get f) := by
  cases f <;> rfl

/-- Lays layers over a configuration, one over the other. -/
def layered (c : Config) (ls : List Layer) : Config :=
  ls.foldl (fun c l => l.applyTo c) c

lemma lastSet?_cons (l : Layer) (ls : List Layer) (f : Field) :
    lastSet? (l :: ls) f = (lastSet? ls f).or (l.set? f) := by
  rw [lastSet?, lastSet?, List.filterMap_cons]
  cases l.set? f with
  | none => exact Option.or_none.symm
  | some x =>
      dsimp only
      rw [List.getLast?_cons]
      cases (ls.filterMap (·.set? f)).getLast? <;> rfl

/-- **The last layer that sets an option** gives it its value. -/
lemma get_layered (c : Config) (ls : List Layer) (f : Field) :
    (c.layered ls).get f = (lastSet? ls f).getD (c.get f) := by
  induction ls generalizing c with
  | nil => rfl
  | cons l ls ih =>
      rw [layered, List.foldl_cons, ← layered, ih, get_applyTo, lastSet?_cons]
      cases lastSet? ls f <;> rfl

/-! ### Two layers as one -/

/-- Two layers as one; what the second one sets counts. -/
def Layer.merge (l m : Layer) : Layer where
  root := m.root.or l.root
  extensions := m.extensions.or l.extensions
  exclude := m.exclude.or l.exclude
  archiveDir := m.archiveDir.or l.archiveDir
  includeArchive := m.includeArchive.or l.includeArchive
  emojiRanges := m.emojiRanges.or l.emojiRanges
  maxFileSize := m.maxFileSize.or l.maxFileSize
  followLinks := m.followLinks.or l.followLinks
  maxDepth := m.maxDepth.or l.maxDepth

lemma set?_merge (l m : Layer) (f : Field) : (l.merge m).set? f = (m.set? f).or (l.set? f) := by
  cases f with
  | extensions => exact Option.map_or
  | _ => rfl

lemma applyTo_merge (l m : Layer) (c : Config) :
    (l.merge m).applyTo c = m.applyTo (l.applyTo c) := by
  refine eq_of_get fun f => ?_
  rw [get_applyTo, get_applyTo, get_applyTo, set?_merge]
  cases m.set? f <;> rfl

lemma merge_self (l : Layer) : l.merge l = l := by
  simp only [Layer.merge, Option.or_self]

/-- A layer over itself changes nothing. -/
lemma applyTo_applyTo (l : Layer) (c : Config) : l.applyTo (l.applyTo c) = l.applyTo c := by
  rw [← applyTo_merge, merge_self]

/-! ### Texts -/

/-- Lays what a text sets over a configuration, if it can be read. -/
def lay (c : Config) (text : String) : Config :=
  match Layer.parse text with
  | .ok l => l.applyTo c
  | .error _ => c

/-- The layers among texts, in order. -/
def readable (texts : List String) : List Layer :=
  texts.filterMap fun s => (Layer.parse s).toOption

lemma foldl_lay (c : Config) (texts : List String) :
    texts.foldl lay c = c.layered (readable texts) := by
  induction texts generalizing c with
  | nil => rfl
  | cons s texts ih =>
      rw [List.foldl_cons, ih, lay, readable, readable]
      cases hs : Layer.parse s with
      | error e => rw [List.filterMap_cons_none (by rw [hs]; rfl)]
      | ok l => rw [List.filterMap_cons_some (by rw [hs]; rfl)]; rfl

lemma lay_lay (c : Config) (s : String) : (c.lay s).lay s = c.lay s := by
  rw [lay, lay]
  cases Layer.parse s with
  | error e => rfl
  | ok l => exact applyTo_applyTo l c

end DocLint.Config
