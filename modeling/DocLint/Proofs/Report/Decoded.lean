/-
Reports read back from their text.

* `Violation.ofJson?`, `Report.ofJson?`: what an object says, if it is one of these.
* `Report.ofJson_toJson`: an object that was written says what it was written for,
  if the paths are the text of characters.
* `text_determines_reports`: so does the text of several reports. It is the text of one
  JSON value with a line end behind it, and of no other value; reading it gives the
  reports back, and no others have the same text.
-/
import DocLint.Proofs.Json.Reader
import DocLint.Proofs.Path.Text
import DocLint.Report.Machine

namespace DocLint

namespace Json

/-! ### Parts of a value -/

/-- The value of a field. -/
def get? (x : Json) (name : String) : Option Json :=
  match x with
  | object fs => fs.lookup name
  | _ => none

/-- A truth value. -/
def bool? : Json → Option Bool
  | bool b => some b
  | _ => none

/-- A number. -/
def number? : Json → Option Nat
  | number n => some n
  | _ => none

/-- A string. -/
def string? : Json → Option String
  | string v => some v
  | _ => none

variable {α : Type}

/-- An array, each of its items read. -/
def items? (item : Json → Option α) : Json → Option (List α)
  | array xs => xs.mapM item
  | _ => none

/-- An object, each of its fields read. -/
def fields? (field : String × Json → Option α) : Json → Option (List α)
  | object fs => fs.mapM field
  | _ => none

/-- A list is read back if each of its members is. -/
lemma mapM_map {β : Type} {write : α → β} {read : β → Option α} {xs : List α}
    (h : ∀ x ∈ xs, read (write x) = some x) : (xs.map write).mapM read = some xs := by
  induction xs with
  | nil => rfl
  | cons x xs ih =>
      rw [List.map_cons, List.mapM_cons, h x List.mem_cons_self,
        ih fun y hy => h y (List.mem_cons_of_mem x hy)]
      rfl

end Json

/-! ### Violations -/

/-- The check of a name is found. -/
lemma Check.ofName_name (c : Check) : ofName? c.name = some c := by
  cases c <;> decide

namespace Violation

/-- The kind of a name. -/
def Kind.ofName? (s : String) : Option Kind :=
  all.find? (·.name == s)

lemma Kind.ofName_name (k : Kind) : ofName? k.name = some k := by
  cases k <;> decide

/-- The violation that an object describes. -/
def ofJson? (x : Json) : Option Violation := do
  let line ← (← x.get? "line").number?
  let kind ← Kind.ofName? (← (← x.get? "kind").string?)
  let message ← (← x.get? "message").string?
  let context ← (← x.get? "context").string?
  return ⟨line, kind, message, context⟩

lemma ofJson_toJson (v : Violation) : ofJson? v.toJson = some v := by
  obtain ⟨line, kind, message, context⟩ := v
  cases kind <;> rfl

end Violation

/-! ### Reports -/

/-- The findings with the given entries, if these are in the order of paths. -/
def Findings.ofEntries? (es : List (Path × List Violation)) : Option Findings :=
  if h : es.Pairwise fun a b => a.1.key < b.1.key then some ⟨es, h⟩ else none

lemma Findings.ofEntries_entries (f : Findings) : ofEntries? f.entries = some f :=
  dif_pos f.sorted

namespace Report

/-- Whether all files of a report have paths that are the text of characters. -/
def HasTextPaths (r : Report) : Prop :=
  ∀ e ∈ r.findings.entries, e.1.IsUtf8

/-- The file that a field is about, and its violations. -/
def entryOfJson? (f : String × Json) : Option (Path × List Violation) :=
  (f.2.items? Violation.ofJson?).map (Path.ofString f.1, ·)

/-- The report that an object describes. It says of itself whether it is in order. -/
def ofJson? (x : Json) : Option Report := do
  let check ← Check.ofName? (← (← x.get? "check").string?)
  let scanned ← (← x.get? "scanned_files").number?
  let failed ← (← x.get? "failed_files").number?
  let ok ← (← x.get? "ok").bool?
  let findings ← Findings.ofEntries? (← (← x.get? "violations").fields? entryOfJson?)
  let r : Report := ⟨check, scanned, failed, findings⟩
  if r.ok = ok then some r else none

/-- The reports that a text describes. -/
def readList? (text : String) : Option (List Report) := do
  (← Json.read? text.toList).items? ofJson?

lemma entryOfJson_entryToJson {e : Path × List Violation} (h : e.1.IsUtf8) :
    entryOfJson? (entryToJson e) = some e := by
  have hitems : (entryToJson e).2.items? Violation.ofJson? = some e.2 :=
    Json.mapM_map fun v _ => v.ofJson_toJson
  rw [entryOfJson?, hitems, Option.map_some]
  exact congrArg some (Prod.ext (Path.ofString_display h) rfl)

/-- **An object that was written** says what it was written for. -/
lemma ofJson_toJson {r : Report} (h : r.HasTextPaths) : ofJson? r.toJson = some r := by
  have hcheck : r.toJson.get? "check" = some (.string r.check.name) := rfl
  have hscanned : r.toJson.get? "scanned_files" = some (.number r.scanned) := rfl
  have hfailed : r.toJson.get? "failed_files" = some (.number r.failed) := rfl
  have hok : r.toJson.get? "ok" = some (.bool r.ok) := rfl
  have hviolations : r.toJson.get? "violations" =
      some (.object (r.findings.entries.map entryToJson)) := rfl
  have hentries : (Json.object (r.findings.entries.map entryToJson)).fields? entryOfJson? =
      some r.findings.entries :=
    Json.mapM_map fun e he => entryOfJson_entryToJson (h e he)
  simp only [ofJson?, hcheck, hscanned, hfailed, hok, hviolations, hentries, Json.string?,
    Json.number?, Json.bool?, Check.ofName_name, Findings.ofEntries_entries, Option.bind_eq_bind,
    Option.bind_some]
  exact if_pos trivial

lemma readList_jsonList {rs : List Report} (h : ∀ r ∈ rs, r.HasTextPaths) :
    readList? (jsonList rs) = some rs := by
  rw [readList?, jsonList, Json.read_of_isText (Json.isText_document _)]
  exact Json.mapM_map fun r hr => ofJson_toJson (h r hr)

/-- **The text of reports** is that of one JSON value with a line end behind it, and of no
other value. If the paths are the text of characters, the reports are read back from it, and
no others have the same text. -/
theorem text_determines_reports {rs : List Report} (h : ∀ r ∈ rs, r.HasTextPaths) :
    (∃ t, Json.Spells (.array (rs.map toJson)) t ∧ (jsonList rs).toList = t ++ ['\n']) ∧
    (∀ x, Json.IsText x (jsonList rs).toList → x = .array (rs.map toJson)) ∧
    readList? (jsonList rs) = some rs ∧
    ∀ rs' : List Report, (∀ r ∈ rs', r.HasTextPaths) → jsonList rs' = jsonList rs → rs' = rs := by
  refine ⟨⟨_, Json.spells_write 0 _, ?_⟩, fun x hx => hx.unique (Json.isText_document _),
    readList_jsonList h, fun rs' h' heq => ?_⟩
  · rw [jsonList, Json.document, String.toList_ofList]
  · exact Option.some.inj ((readList_jsonList h').symm.trans (heq ▸ readList_jsonList h))

/-- Files with texts that cannot stand within quotes as they are, and one without
violations. -/
def awkwardEntries : List (Path × List Violation) := [
  (Path.ofString "b\x22.md", []),
  (Path.ofString "é/a.md", [
    .atLine 10 .missingFenceTag "a \x22quoted\x22 \\ part" "tab\tline\nbell\x07",
    .unreadable "𝄞\x7f\u0085"])]

/-- The report on these files, and one without files. -/
def awkwardReports : List Report :=
  [⟨.fences, 3, 1, .ofList awkwardEntries⟩, ⟨.emoji, 0, 0, .empty⟩]

lemma hasTextPaths_awkwardReports : ∀ r ∈ awkwardReports, r.HasTextPaths := by
  intro r hr e he
  rcases List.mem_pair.mp hr with rfl | rfl
  · have hentries : (Findings.ofList awkwardEntries).entries = awkwardEntries := by
      decide +kernel
    rw [hentries] at he
    rcases List.mem_pair.mp he with rfl | rfl <;> exact Path.isUtf8_ofString _
  · cases he

theorem text_determines_awkwardReports :
    (∀ r ∈ awkwardReports, r.HasTextPaths) ∧
    (∃ t, Json.Spells (.array (awkwardReports.map toJson)) t ∧
      (jsonList awkwardReports).toList = t ++ ['\n']) ∧
    readList? (jsonList awkwardReports) = some awkwardReports :=
  have h := text_determines_reports hasTextPaths_awkwardReports
  ⟨hasTextPaths_awkwardReports, h.1, h.2.2.1⟩

end Report

end DocLint
