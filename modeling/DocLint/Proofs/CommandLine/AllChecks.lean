/-
All checks together against the single ones.

* `exists_reports`: all checks together have the reports of the single ones, for no
  check but the one for emoji looks at the options about emoji.
* `Outcome.Combines`: the output of all checks is made of the single outputs, and
  the exit code is the greatest of theirs.
* `combines_of_all`: so it is for every command line that asks for all checks, with any that ask
  for the single ones under the same options; `combines_only`: and there are such ones.
-/
import DocLint.Proofs.CommandLine.Fatal
import DocLint.Proofs.CommandLine.SharedOptions
import DocLint.Proofs.Report.Frame
import DocLint.Proofs.Report.Indent

namespace DocLint

/-- The line that sums up the exit codes of the single checks. -/
def summary (codes : List Nat) : String :=
  if ∀ k ∈ codes, k = 0 then "All checks passed."
  else toString (codes.count 1) ++ " of 4 check(s) failed."

/-- Whether an outcome is made of the outcomes of the single checks. -/
structure Outcome.Combines (format : ReportFormat) (whole : Outcome) (single : Check → Outcome) :
    Prop where
  trouble : ∀ c, (single c).trouble = none
  /-- One more line end between the outputs and behind the last one, then the
  summary. -/
  human : format = .human → whole.output =
    String.intercalate "\n" (Check.all.map fun c => (single c).output) ++ "\n" ++
      summary (Check.all.map fun c => (single c).exitCode) ++ "\n"
  json : format = .json →
    whole.output = Json.arrayDocument (Check.all.map fun c => (single c).output)
  value : format = .json → ∃ value : Check → Json,
    (∀ c, (single c).output = (value c).document) ∧
      whole.output = (Json.array (Check.all.map value)).document
  exitCode : whole.exitCode = (Check.all.map fun c => (single c).exitCode).foldr max 0

variable {fs : FileSystem} {i : Invocation} {config : Config} {c : Check} {args : List String}

/-! ### The reports of all checks -/

/-- The options about emoji are for no other check. -/
lemma Check.run_congr_of_ne (h : c ≠ .emoji) (includeArchive : Bool) (ranges : Emoji.Ranges) :
    c.run fs { config with includeArchive := includeArchive, emojiRanges := ranges } =
      c.run fs config := by
  cases c with
  | emoji => exact absurd rfl h
  | _ => rfl

lemma Check.runEach_eq_ok {f : Check → Report} {cs : List Check}
    (h : ∀ c ∈ cs, c.run fs config = .ok (f c)) : runEach fs config cs = .ok (cs.map f) := by
  induction cs with
  | nil => rfl
  | cons c cs ih =>
      rw [runEach, h c List.mem_cons_self, ih fun k hk => h k (List.mem_cons_of_mem _ hk)]
      rfl

namespace Invocation

lemma config?_only_of_ne (hc : c ≠ .emoji) (h : i.config? fs = .ok config) :
    ∃ includeArchive ranges, (i.only c).config? fs =
      .ok { config with includeArchive := includeArchive, emojiRanges := ranges } := by
  rw [config?] at h
  rw [only, if_neg hc, config?]
  dsimp only
  split at h
  · cases h
    exact ⟨_, _, rfl⟩
  · split at h
    · cases h
    · cases h
      exact ⟨_, _, rfl⟩

/-- One check runs with the options of all of them. -/
lemma reports_only (c : Check) (h : i.config? fs = .ok config) :
    (i.only c).reports fs = (c.run fs config).map ([·]) := by
  by_cases hc : c = .emoji
  · subst hc
    rw [reports, show (i.only .emoji).config? fs = i.config? fs from rfl, h]
    rfl
  · obtain ⟨includeArchive, ranges, honly⟩ := config?_only_of_ne hc h
    rw [reports, honly, ← Check.run_congr_of_ne hc includeArchive ranges]
    rfl

/-- **All checks together** have the reports of the single ones. -/
lemma exists_reports (hcommand : i.command = .all) (h : ∀ e, ¬ i.Refused fs e) :
    ∃ f : Check → Report, i.reports fs = .ok (Check.all.map f) ∧
      ∀ c, (i.only c).reports fs = .ok [f c] := by
  cases hconfig : i.config? fs with
  | error e =>
      obtain ⟨p, hp, hload⟩ := config?_eq_error_iff.mp hconfig
      exact absurd (.file hp hload) (h e)
  | ok config =>
      have hrun : ∀ c : Check, ∃ r, c.run fs config = .ok r := by
        intro c
        cases hr : c.run fs config with
        | error e => exact absurd (.run hconfig (Check.run_eq_error_iff.mp hr)) (h e)
        | ok r => exact ⟨r, rfl⟩
      choose f hf using hrun
      refine ⟨f, ?_, fun c => ?_⟩
      · rw [reports, hconfig, hcommand]
        exact Check.runEach_eq_ok fun c _ => hf c
      · rw [reports_only c hconfig, hf]
        rfl

end Invocation

/-! ### Exit codes and outputs -/

/-- The exit code of a single report. -/
def Report.code (r : Report) : Nat :=
  if r.ok then 0 else 1

lemma exitCode_eq_foldr (rs : List Report) :
    (if rs.all Report.ok then 0 else 1) = (rs.map Report.code).foldr max 0 := by
  induction rs with
  | nil => rfl
  | cons r rs ih =>
      rw [List.map_cons, List.foldr_cons, ← ih, List.all_cons, Report.code]
      cases r.ok <;> cases rs.all Report.ok <;> rfl

lemma failedCount_eq_count (rs : List Report) :
    failedCount rs = (rs.map Report.code).count 1 := by
  rw [failedCount, ← List.countP_eq_length_filter, List.count, List.countP_map]
  refine List.countP_congr fun r _ => ?_
  rw [Function.comp, Report.code]
  cases r.ok <;> simp

lemma failedCount_eq_zero_iff (rs : List Report) :
    failedCount rs = 0 ↔ ∀ k ∈ rs.map Report.code, k = 0 := by
  rw [failedCount, List.length_eq_zero_iff, List.filter_eq_nil_iff, List.forall_mem_map]
  refine forall₂_congr fun r _ => ?_
  rw [Report.code]
  cases r.ok <;> simp

/-- Four reports are summed up by their exit codes. -/
lemma verdictLine_eq_summary {rs : List Report} (h : rs.length = 4) :
    verdictLine false rs = summary (rs.map Report.code) := by
  have hfour : " of " ++ toString 4 ++ " check(s) failed." = " of 4 check(s) failed." := by decide
  rw [verdictLine, summary]
  by_cases hzero : failedCount rs = 0
  · rw [if_pos hzero, if_pos ((failedCount_eq_zero_iff rs).mp hzero)]
    rfl
  · rw [if_neg hzero, if_neg (mt (failedCount_eq_zero_iff rs).mpr hzero), h, ← hfour,
      String.append_assoc, String.append_assoc, failedCount_eq_count, String.append_assoc]
    rfl

namespace Outcome

lemma ofInvocation_of_reports {rs : List Report} (color : Bool) (h : i.reports fs = .ok rs) :
    ofInvocation color fs i =
      ⟨(rs.map Report.code).foldr max 0, render color i rs, none⟩ := by
  rw [ofInvocation, h]
  dsimp only
  rw [exitCode_eq_foldr]

section Render

variable (hhuman : i.format = .human) (hjson : i.format = .json) (hcommand : i.command = .all)

include hhuman in
lemma render_only_human (c : Check) (r : Report) :
    render false (i.only c) [r] = r.human i.verbose := by
  unfold render
  rw [show (i.only c).format = .human from hhuman, show (i.only c).command = .check c from rfl]
  exact String.intercalate_singleton

include hjson in
lemma render_only_json (c : Check) (r : Report) : render false (i.only c) [r] = r.json := by
  unfold render
  rw [show (i.only c).format = .json from hjson, show (i.only c).command = .check c from rfl]

include hhuman hcommand in
lemma render_all_human (rs : List Report) : render false i rs =
    humanReports i.verbose rs ++ "\n" ++ verdictLine false rs ++ "\n" := by
  unfold render
  rw [hhuman, hcommand]

include hjson hcommand in
lemma render_all_json (rs : List Report) : render false i rs = Report.jsonList rs := by
  unfold render
  rw [hjson, hcommand]

end Render

/-- Outcomes whose reports are those of the single checks are combined. -/
lemma combines_of_reports {f : Check → Report} (hcommand : i.command = .all)
    (hall : i.reports fs = .ok (Check.all.map f))
    (honly : ∀ c, (i.only c).reports fs = .ok [f c]) :
    Combines i.format (ofInvocation false fs i) fun c => ofInvocation false fs (i.only c) := by
  have hwhole := ofInvocation_of_reports false hall
  have hsingle : ∀ c, ofInvocation false fs (i.only c) =
      ⟨(f c).code, render false (i.only c) [f c], none⟩ := by
    intro c
    rw [ofInvocation_of_reports false (honly c), List.map_singleton, List.foldr_cons,
      List.foldr_nil, Nat.max_zero]
  have hcodes : (Check.all.map fun c => (ofInvocation false fs (i.only c)).exitCode) =
      (Check.all.map f).map Report.code := by
    rw [List.map_map]
    exact List.map_congr_left fun c _ => congrArg Outcome.exitCode (hsingle c)
  have houtputs : ∀ g : Report → String, (∀ c, render false (i.only c) [f c] = g (f c)) →
      (Check.all.map fun c => (ofInvocation false fs (i.only c)).output) =
        (Check.all.map f).map g := by
    intro g hg
    rw [List.map_map]
    exact List.map_congr_left fun c _ => (congrArg Outcome.output (hsingle c)).trans (hg c)
  refine ⟨fun c => by rw [hsingle], fun hhuman => ?_, fun hjson => ?_, fun hjson => ?_, ?_⟩
  · rw [hcodes, houtputs _ fun c => render_only_human hhuman c (f c), hwhole,
      ← verdictLine_eq_summary rfl]
    exact render_all_human hhuman hcommand _
  · rw [houtputs _ fun c => render_only_json hjson c (f c), hwhole]
    have hdocs : (Check.all.map f).map Report.json =
        ((Check.all.map f).map Report.toJson).map Json.document := by
      rw [List.map_map]
      rfl
    have hne : (Check.all.map f).map Report.toJson ≠ [] := List.cons_ne_nil _ _
    rw [hdocs, ← Json.document_array hne]
    exact render_all_json hjson hcommand _
  · refine ⟨fun c => (f c).toJson, fun c => ?_, ?_⟩
    · rw [hsingle]
      exact render_only_json hjson c (f c)
    · rw [hwhole]
      exact render_all_json hjson hcommand _
  · rw [hcodes, hwhole]

/-- So the outcomes are combined where there is one. -/
lemma combines_ofInvocation (hcommand : i.command = .all)
    (hok : (ofInvocation false fs i).trouble = none) :
    Combines i.format (ofInvocation false fs i) fun c => ofInvocation false fs (i.only c) := by
  have hnot : ∀ e, ¬ i.Refused fs e := by
    intro e he
    rw [ofInvocation_of_refused false he] at hok
    cases hok
  obtain ⟨f, hall, honly⟩ := Invocation.exists_reports hcommand hnot
  exact combines_of_reports hcommand hall honly

/-- **All checks are the single checks together**: if a command line asks for all
checks and single ones ask for each of them under the same options, the ones about
emoji for that check only, then without trouble the output and the exit code of the
first are made of those of the others. -/
theorem combines_of_all {single : Check → List String} (hcommand : i.command = .all)
    (hargs : Arguments.parse args = .ok (.run i))
    (hsingle : ∀ c, Arguments.parse (single c) = .ok (.run (i.only c)))
    (hok : (of false fs args).trouble = none) :
    Combines i.format (of false fs args) fun c => of false fs (single c) := by
  have hfun : (fun c => of false fs (single c)) = fun c => ofInvocation false fs (i.only c) :=
    funext fun c => of_eq_ofInvocation (hsingle c) false
  rw [of_eq_ofInvocation hargs] at hok ⊢
  rw [hfun]
  exact combines_ofInvocation hcommand hok

/-- So it is for the command lines that have the command for one check in place of the one for
all of them, and no options about emoji but for that check. -/
theorem combines_only (hcommand : i.command = .all)
    (hargs : Arguments.parse args = .ok (.run i)) (hok : (of false fs args).trouble = none) :
    Combines i.format (of false fs args) fun c => of false fs (Arguments.only c args) := by
  have hfun : (fun c => of false fs (Arguments.only c args)) =
      fun c => ofInvocation false fs (i.only c) :=
    funext fun c => of_eq_ofInvocation (Arguments.parse_only hcommand hargs c) false
  rw [of_eq_ofInvocation hargs] at hok ⊢
  rw [hfun]
  exact combines_ofInvocation hcommand hok

end Outcome

section Book

open Discovery

/-- A command line for all checks. -/
def allArguments : List String := ["all", "--root", "/p", "--strict"]

/-- What it asks for. -/
def allInvocation : Invocation :=
  ⟨.all, false, none, .human, { root := some (Path.ofString "/p"), strict := true }⟩

lemma not_refused_allInvocation (e : Failure) :
    ¬ allInvocation.Refused (bookTree fenceLine) e := by
  rintro (⟨hp, -⟩ | ⟨hconfig, h⟩)
  · cases hp
  · cases hconfig
    rcases h with h | ⟨-, hsplit, -⟩
    · have hroot := resolve_bookTree fenceLine
      rw [← ofString_root] at hroot
      cases hroot.symm.trans h.resolve_eq
    · exact absurd hsplit.symm (List.append_ne_nil_of_right_ne_nil _ (List.cons_ne_nil _ _))

/-- The check of code blocks alone. -/
lemma exitCode_only_fences :
    (Outcome.ofInvocation false (bookTree fenceLine) (allInvocation.only .fences)).exitCode =
      1 := by
  obtain ⟨r, hrun⟩ := exists_run_bookTree fenceLine
  have hreports : (allInvocation.only .fences).reports (bookTree fenceLine) = .ok [r] := by
    have hconfig : (allInvocation.only .fences).config? (bookTree fenceLine) = .ok bookConfig := by
      rw [bookConfig, ← ofString_root]
      rfl
    rw [Invocation.reports, hconfig]
    exact congrArg (Except.map ([·])) hrun
  have hok : r.ok = false := by
    have hget : r.findings.get? (.ofRelativeNames [outerName]) = some (Fence.scan "```") :=
      get?_bookTree hrun (.inr rfl) rfl rfl (by decide)
    obtain ⟨root, d, -, hfind, rfl⟩ := Check.run_eq_ok_iff.mp hrun
    refine eq_false_of_ne_true fun hok => ?_
    rw [Findings.get?, (Report.isPointwise_reportOn hfind).ok_iff.mp hok] at hget
    cases hget
  rw [Outcome.ofInvocation_of_reports false hreports, List.map_singleton, Report.code, hok]
  rfl

/-- Two code blocks are not closed, whether the pages are checked for everything or for one thing
after another. -/
theorem Outcome.combines_of_all_bookTree :
    Combines .human (of false (bookTree fenceLine) allArguments)
      (fun c => of false (bookTree fenceLine) (Arguments.only c allArguments)) ∧
    (of false (bookTree fenceLine) (Arguments.only .fences allArguments)).exitCode = 1 ∧
    (of false (bookTree fenceLine) allArguments).exitCode = 1 := by
  have hargs : Arguments.parse allArguments = .ok (.run allInvocation) := by decide +kernel
  have hsingle := Arguments.parse_only rfl hargs
  obtain ⟨htrouble, hcode⟩ := ofInvocation_of_not_refused false not_refused_allInvocation
  rw [← of_eq_ofInvocation hargs] at htrouble hcode
  have hcombines := combines_of_all rfl hargs hsingle htrouble
  have hfences : (of false (bookTree fenceLine) (Arguments.only .fences allArguments)).exitCode =
      1 := by
    rw [of_eq_ofInvocation (hsingle .fences)]
    exact exitCode_only_fences
  refine ⟨hcombines, hfences, hcode.resolve_left fun hzero => ?_⟩
  have hle : (of false (bookTree fenceLine) (Arguments.only .fences allArguments)).exitCode ≤
      (of false (bookTree fenceLine) allArguments).exitCode := by
    rw [hcombines.exitCode]
    exact Nat.le_max_left _ _
  rw [hfences, hzero] at hle
  cases hle

end Book

end DocLint
