import DocLint.Config.Basic

/-!
Options that are laid over others.

* `Config.Layer` sets some options and leaves the rest open, as a configuration
  file does.
* `Config.Layer.applyTo` lays it over a configuration: what is set replaces what
  was there.
-/

namespace DocLint.Config

/-- Some of the options. -/
structure Layer where
  root : Option Path := none
  extensions : Option (List String) := none
  exclude : Option (List String) := none
  archiveDir : Option String := none
  includeArchive : Option Bool := none
  emojiRanges : Option Emoji.Ranges := none
  maxFileSize : Option Nat := none
  followLinks : Option Bool := none
  maxDepth : Option Nat := none
  deriving DecidableEq

/-- Lays the options that are set over a configuration. Extensions are brought
into the form in which they are kept. -/
def Layer.applyTo (l : Layer) (c : Config) : Config where
  root := l.root.getD c.root
  extensions := (l.extensions.map (·.filterMap extension?)).getD c.extensions
  exclude := l.exclude.getD c.exclude
  archiveDir := l.archiveDir.getD c.archiveDir
  includeArchive := l.includeArchive.getD c.includeArchive
  emojiRanges := l.emojiRanges.getD c.emojiRanges
  maxFileSize := l.maxFileSize.getD c.maxFileSize
  followLinks := l.followLinks.getD c.followLinks
  maxDepth := l.maxDepth.getD c.maxDepth

end DocLint.Config
