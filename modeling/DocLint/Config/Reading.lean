import DocLint.Config.Layer
import DocLint.Text.Base64
import DocLint.Yaml.Node

/-!
Configuration files.

* `fieldsOf` are the fields of a mapping. A field is set at most once, and
  merged mappings fill in the keys that are not there otherwise.
* `Layer.ofNode` reads a YAML node: the fields of a mapping, each of its type;
  an empty field is not set.
* `Layer.parse` reads a text.
-/

namespace DocLint.Config

open Yaml (Style)

/-- What can be wrong with a configuration file. -/
inductive ReadFault where
  | yaml (f : Yaml.Fault)
  | notAMapping
  | unknownField (name : String)
  | repeatedField (name : String)
  | illTypedField (name : String)
  deriving DecidableEq

/-- A fault in words. -/
def ReadFault.message : ReadFault → String
  | yaml f => f.message
  | notAMapping => "the file is not a mapping"
  | unknownField name => "unknown field " ++ name
  | repeatedField name => "field " ++ name ++ " is set twice"
  | illTypedField name => "field " ++ name ++ " has a value of another type"

/-! ### Values -/

/-- Whether a text means that there is nothing. -/
def isNullText (text : List Char) : Bool :=
  text.isEmpty || text == ['~'] || text.map Char.toLower == "null".toList

/-- Whether a scalar says that there is nothing, whatever its tag. -/
def isNullScalar (style : Style) (text : List Char) : Bool :=
  style == .plain && isNullText text

/-- Whether a node leaves an option open. -/
def isUnset : Yaml.Node → Bool
  | .scalar style tag text =>
    tag == some .null || isNullScalar style text || (text.isEmpty && !style.isQuoted)
  | _ => false

/-- The text of a scalar. A tag may say that it is written in Base64 or that it
is no text. -/
def text? : Yaml.Node → Option (List Char)
  | .scalar _ tag text =>
    match tag with
    | none | some .text | some .unknown | some .unspecific => some text
    | some .binary => (Text.Base64.decodeSpaced? text).bind Text.Utf8.decode?
    | some .null | some (.typed _) => none
  | _ => none

/-- The text of an entry, which has to be there. -/
def entry? : Yaml.Node → Option String
  | .scalar style tag text =>
    if isNullScalar style text && tag != some .text then none
    else (text? (.scalar style tag text)).map String.ofList
  | _ => none

/-- The texts of a sequence. A text in Base64 is a sequence of bytes, which are no
texts, so it has to be empty. -/
def entries? : Yaml.Node → Option (List String)
  | .sequence items => items.mapM entry?
  | .scalar _ (some .binary) text =>
    if Text.Base64.decodeSpaced? text = some [] then some [] else none
  | _ => none

/-- The written form of a scalar, whatever its tag. -/
def written? : Yaml.Node → Option (List Char)
  | .scalar _ _ text => some text
  | _ => none

/-- The words for yes and no. -/
def truthWords : List (String × Bool) :=
  [("true", true), ("yes", true), ("y", true), ("on", true),
    ("false", false), ("no", false), ("n", false), ("off", false)]

/-- The truth value of a scalar. -/
def truth? (n : Yaml.Node) : Option Bool :=
  (written? n).bind fun t =>
    let t := (Text.trim t).map Char.toLower
    (truthWords.find? fun w => w.1.toList == t).map (·.2)

/-- The value of a digit, letters included. -/
def digitValue (c : Char) : Nat :=
  if c.isDigit then c.toNat - 0x30
  else if c.isLower then c.toNat - 0x61 + 10
  else if c.isUpper then c.toNat - 0x41 + 10
  else 36

/-- The number with the given digits in a base; underscores among them are
skipped, and at least one digit has to be there. -/
def digits? (base : Nat) (cs : List Char) : Option Nat :=
  match cs.filter (· ≠ '_') with
  | [] => none
  | ds =>
    if ds.all fun c => decide (digitValue c < base) then
      some (ds.foldl (fun n c => base * n + digitValue c) 0)
    else none

/-- The number that a text without sign writes: in base 16, 8 or 2 after a zero
and a letter, else in base ten. -/
def unsigned? : List Char → Option Nat
  | '0' :: 'x' :: cs | '0' :: 'X' :: cs => digits? 16 cs
  | '0' :: 'o' :: cs | '0' :: 'O' :: cs => digits? 8 cs
  | '0' :: 'b' :: cs | '0' :: 'B' :: cs => digits? 2 cs
  | cs => digits? 10 cs

/-- The number of a scalar. -/
def number? (n : Yaml.Node) : Option Nat :=
  (written? n).bind fun t =>
    let t := Text.trim t
    (unsigned? (if t.head? = some '+' then t.tail else t)).filter fun n =>
      decide (n < numberBound)

/-- The emoji ranges of a scalar, or of a mapping that has their name for its
only key and nothing for its value. -/
def ranges? : Yaml.Node → Option Emoji.Ranges
  | .scalar _ _ text => Emoji.Ranges.ofName? (String.ofList text)
  | .mapping [(k, .scalar style _ text)] =>
    if isNullScalar style text then
      (written? k).bind fun t => Emoji.Ranges.ofName? (String.ofList t)
    else none
  | _ => none

/-! ### Merged mappings -/

/-- The keys and values of a mapping, in order. -/
abbrev Pairs := List (Yaml.Node × Yaml.Node)

/-- The pairs of a mapping that merge nothing. -/
def ownPairs (ps : Pairs) : Pairs :=
  ps.filter fun p => !p.1.isMergeKey

mutual

/-- The pairs that the value of a merge key brings in: those of a mapping and
behind them what it merges itself, those of the entries of a sequence, or none
if there is nothing. -/
def mergedPairs : Yaml.Node → Option Pairs
  | .mapping ps => do return ownPairs ps ++ (← mergedByKeys [] ps)
  | .sequence items => mergedByItems [] items
  | .scalar style _ text => if isNullScalar style text then some [] else none

/-- The pairs that the entries of a sequence bring in before the given ones, the
last entry first. -/
def mergedByItems (later : Pairs) : List Yaml.Node → Option Pairs
  | [] => some later
  | n :: ns => do mergedByItems ((← mergedPairs n) ++ later) ns

/-- The pairs that the merge keys of a mapping bring in before the given ones,
the last key first. -/
def mergedByKeys (later : Pairs) : Pairs → Option Pairs
  | [] => some later
  | (k, v) :: ps => do
    if k.isMergeKey then mergedByKeys ((← mergedPairs v) ++ later) ps
    else mergedByKeys later ps

end

/-! ### Fields -/

/-- What tells a key from others: its text as it is written, and what its tag
says. -/
abbrev Key := List Char × Option Yaml.Tag.Kind

/-- What tells a key from others. -/
def key? : Yaml.Node → Option Key
  | .scalar _ tag text => some (text, tag)
  | _ => none

/-- A field as it is written. -/
structure RawField where
  key : Key
  name : String
  value : Yaml.Node

/-- The names of the fields. -/
def fieldNames : List String :=
  ["root", "extensions", "exclude", "archive_dir", "include_archive", "emoji_ranges",
    "max_file_size", "follow_links", "max_depth"]

/-- Adds a field to those that are set, unless it is merged and its key is there.
A name that is there under another key cannot be set again. -/
def addField (isMerged : Bool) (set : List RawField) (p : Yaml.Node × Yaml.Node) :
    Except ReadFault (List RawField) :=
  match key? p.1, text? p.1 with
  | some key, some text =>
    let name := String.ofList text
    if isMerged && set.any (·.key == key) then .ok set
    else if !fieldNames.contains name then .error (.unknownField name)
    else if set.any (·.name == name) then .error (.repeatedField name)
    else .ok (⟨key, name, p.2⟩ :: set)
  | _, _ => .error (.unknownField "")

/-- The fields of a mapping, the last one first. Merged ones come behind its
own. -/
def fieldsOf (ps : Pairs) : Except ReadFault (List RawField) := do
  let own ← (ownPairs ps).foldlM (addField false) []
  match mergedByKeys [] ps with
  | some merged => merged.foldlM (addField true) own
  | none => throw (.illTypedField "<<")

/-! ### Layers -/

/-- The value of a field: none if it is empty, and a fault if it is not of the
type. -/
def optional (name : String) (read : Yaml.Node → Option α) (v : Yaml.Node) :
    Except ReadFault (Option α) :=
  if isUnset v then .ok none
  else
    match read v with
    | some x => .ok (some x)
    | none => .error (.illTypedField name)

/-- Sets one option. -/
def setField (l : Layer) (f : RawField) : Except ReadFault Layer :=
  let v := f.value
  match f.name with
  | "root" => (optional "root" text? v).map fun x =>
      { l with root := x.map fun t => ⟨Text.Utf8.encode t⟩ }
  | "extensions" => (optional "extensions" entries? v).map fun x => { l with extensions := x }
  | "exclude" => (optional "exclude" entries? v).map fun x => { l with exclude := x }
  | "archive_dir" => (optional "archive_dir" text? v).map fun x =>
      { l with archiveDir := x.map String.ofList }
  | "include_archive" => (optional "include_archive" truth? v).map fun x =>
      { l with includeArchive := x }
  | "emoji_ranges" => (optional "emoji_ranges" ranges? v).map fun x => { l with emojiRanges := x }
  | "max_file_size" => (optional "max_file_size" number? v).map fun x => { l with maxFileSize := x }
  | "follow_links" => (optional "follow_links" truth? v).map fun x => { l with followLinks := x }
  | "max_depth" => (optional "max_depth" number? v).map fun x => { l with maxDepth := x }
  | name => .error (.unknownField name)

/-- The options that a node sets. A node that says nothing sets none. -/
def Layer.ofNode : Yaml.Node → Except ReadFault Layer
  | .mapping ps => do (← fieldsOf ps).foldlM setField {}
  | .scalar style tag text =>
    if tag == some .null || isNullScalar style text then .ok {} else .error .notAMapping
  | .sequence _ => .error .notAMapping

/-- The text without the mark at its front that tells the byte order. -/
def dropByteOrderMark : List Char → List Char
  | '\ufeff' :: cs => cs
  | cs => cs

/-- The options that a text sets. A blank text sets none. -/
def Layer.parse (s : String) : Except ReadFault Layer :=
  if Text.isAllBlank s.toList then .ok {}
  else
    match Yaml.Node.ofText (dropByteOrderMark s.toList) with
    | .error f => .error (.yaml f)
    | .ok none => .ok {}
    | .ok (some n) => Layer.ofNode n

end DocLint.Config
