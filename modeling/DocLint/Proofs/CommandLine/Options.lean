/-
The options that a command line runs with.

* `ScanOptions.layer`: what a command line says about options, as a layer over those of its
  configuration file; a switch that is not given leaves its option open.
* `ScanOptions.IsBuiltOver`: each option is that of the last of the defaults, the file and the
  command line to set it, and patterns of files to leave out are added up.
* `config?_eq_ok_iff`: these are the options of an invocation.
* `last_layer_counts`: **the law of layers**, for any texts and for command lines.
-/
import DocLint.CommandLine.Outcome
import DocLint.Proofs.Config.Layers

namespace DocLint

open Config (Layer lastSet?)

/-- What a command line says about options, but for the patterns that it adds. A switch can only
be turned on. -/
def ScanOptions.layer (o : ScanOptions) : Layer where
  root := o.root
  extensions := o.extensions
  includeArchive := if o.includeArchive then some true else none
  emojiRanges := if o.strict then some .strict else none
  followLinks := if o.followLinks then some true else none
  maxDepth := o.maxDepth

/-- Whether a configuration is that of a command line over the layer of its file. -/
structure ScanOptions.IsBuiltOver (o : ScanOptions) (l : Layer) (c : Config) : Prop where
  get_eq : ∀ f, f ≠ .exclude → c.get f = (lastSet? [l, o.layer] f).getD (({} : Config).get f)
  /-- The patterns of the command line come behind those of the file. -/
  exclude_eq : c.exclude = l.exclude.getD [] ++ o.exclude
  followLinks_iff : c.followLinks = true ↔ l.followLinks = some true ∨ o.followLinks = true
  includeArchive_iff :
    c.includeArchive = true ↔ l.includeArchive = some true ∨ o.includeArchive = true
  strict_iff : c.emojiRanges = .strict ↔ l.emojiRanges = some .strict ∨ o.strict = true

/-- Whether a layer is that of the configuration file of an invocation: what the text of the file
says. Without a file it sets nothing. -/
def Invocation.IsFileLayer (fs : FileSystem) (i : Invocation) (l : Layer) : Prop :=
  match i.config with
  | none => l = {}
  | some p => ∃ s, fs.readText p = .ok s ∧ Layer.parse s = .ok l

variable {fs : FileSystem} {i : Invocation} {o : ScanOptions} {l : Layer} {c : Config}

namespace ScanOptions

/-- The options of a command line are a layer, but for the patterns. -/
lemma applyTo_eq (o : ScanOptions) (c : Config) :
    o.applyTo c = { o.layer.applyTo c with exclude := c.exclude ++ o.exclude } := by
  obtain ⟨root, extensions, exclude, maxDepth, followLinks, includeArchive, strict⟩ := o
  cases followLinks <;> cases includeArchive <;> cases strict <;>
    simp [applyTo, layer, Layer.applyTo]

lemma isBuiltOver_applyTo (o : ScanOptions) (l : Layer) :
    o.IsBuiltOver l (o.applyTo (l.applyTo {})) where
  get_eq f hf := by
    have hlayered := Config.get_layered {} [l, o.layer] f
    rw [← hlayered, applyTo_eq]
    cases f with
    | exclude => exact absurd rfl hf
    | _ => rfl
  exclude_eq := rfl
  followLinks_iff := by
    rw [applyTo, Bool.or_eq_true]
    cases h : l.followLinks <;> simp [Layer.applyTo, h]
  includeArchive_iff := by
    rw [applyTo, Bool.or_eq_true]
    cases h : l.includeArchive <;> simp [Layer.applyTo, h]
  strict_iff := by
    rw [applyTo]
    cases h : l.emojiRanges <;> cases o.strict <;> simp [Layer.applyTo, h]

/-- There is only one such configuration. -/
lemma IsBuiltOver.eq (h : o.IsBuiltOver l c) : c = o.applyTo (l.applyTo {}) := by
  have hbuilt := isBuiltOver_applyTo o l
  refine Config.eq_of_get fun f => ?_
  by_cases hf : f = .exclude
  · subst hf
    exact h.exclude_eq.trans hbuilt.exclude_eq.symm
  · rw [h.get_eq f hf, hbuilt.get_eq f hf]

end ScanOptions

/-- A file sets options if it is there, is a text and can be read. -/
lemma loadLayer_eq_ok_iff {p : Path} :
    loadLayer fs p = .ok l ↔ ∃ s, fs.readText p = .ok s ∧ Layer.parse s = .ok l := by
  rw [loadLayer]
  cases fs.readText p with
  | error e => simp
  | ok s => cases hs : Layer.parse s <;> simp [hs]

/-- **The options of an invocation**, if its configuration file can be used. -/
lemma Invocation.config?_eq_ok_iff :
    i.config? fs = .ok c ↔ ∃ l, i.IsFileLayer fs l ∧ i.options.IsBuiltOver l c := by
  have hiff : ∀ l, i.options.applyTo (l.applyTo {}) = c ↔ i.options.IsBuiltOver l c := by
    intro l
    constructor
    · rintro rfl
      exact ScanOptions.isBuiltOver_applyTo _ l
    · intro h
      exact h.eq.symm
  simp only [config?, IsFileLayer, ← hiff]
  cases i.config with
  | none => simp; rfl
  | some p =>
      simp only [← loadLayer_eq_ok_iff]
      cases loadLayer fs p <;> simp

/-- **The law of layers**: among texts laid over a configuration in turn, the last one that can be
read and sets an option gives it its value; an option that none of them sets keeps its own, and a
text that cannot be read changes nothing. So two layers in turn are one layer, in which the second
one counts, and a layer laid over itself changes nothing. An invocation has its options by the same
law, from the defaults, its configuration file and its command line; only patterns of files to leave
out are added up, and a switch turns its option on but never off. -/
theorem Config.last_layer_counts (base : Config) (texts : List String) (l m : Layer) (s : String)
    (fs : FileSystem) (i : Invocation) (c : Config) :
    (∀ f, (texts.foldl Config.lay base).get f =
      (lastSet? (Config.readable texts) f).getD (base.get f)) ∧
    (m.applyTo (l.applyTo base) = (l.merge m).applyTo base ∧
      (∀ f, (l.merge m).set? f = (m.set? f).or (l.set? f)) ∧
      l.applyTo (l.applyTo base) = l.applyTo base ∧
      (base.lay s).lay s = base.lay s) ∧
    (i.config? fs = .ok c ↔ ∃ l, i.IsFileLayer fs l ∧ i.options.IsBuiltOver l c) := by
  refine ⟨fun f => ?_, ⟨?_, ?_, ?_, ?_⟩, Invocation.config?_eq_ok_iff⟩
  · rw [Config.foldl_lay, Config.get_layered]
  · exact (Config.applyTo_merge l m base).symm
  · exact Config.set?_merge l m
  · exact Config.applyTo_applyTo l base
  · exact Config.lay_lay base s

example :
    (["max_depth: 3", "max_depth: [", "exclude: [a]"].foldl Config.lay {}).maxDepth = 3 := by
  decide +kernel

end DocLint
