/-
When a command line ends without a report.

* `Invocation.Refused`: its configuration file cannot be used, or else the run with
  the options that it comes to is refused.
* `of_eq_ofInvocation`, `reports_eq_error_iff`: an invocation has no reports just if
  it is refused.
* `ofInvocation_of_not_refused`: any other one has reports, and an exit code of 0
  or 1.
* `Outcome.refusals`: the failures of runs and of command lines are the refusals.
-/
import DocLint.CommandLine.Outcome
import DocLint.Proofs.Discovery.Refused
import DocLint.Proofs.Discovery.Unfollowed

namespace DocLint

/-- The reasons for an invocation to have no report: the configuration file, or
else a run with the options that it comes to. -/
inductive Invocation.Refused (fs : FileSystem) (i : Invocation) : Failure → Prop
  | file {p : Path} {e : Failure} (hp : i.config = some p) (h : loadLayer fs p = .error e) :
      Refused fs i e
  | run {config : Config} {e : Failure} (hconfig : i.config? fs = .ok config)
      (h : config.Refused fs e) : Refused fs i e

variable {fs : FileSystem} {i : Invocation} {e : Failure} {config : Config} {args : List String}

namespace Invocation

/-- There are options to run with unless the file cannot be used. -/
lemma config?_eq_error_iff :
    i.config? fs = .error e ↔ ∃ p, i.config = some p ∧ loadLayer fs p = .error e := by
  rw [config?]
  cases i.config with
  | none => simp
  | some p =>
      dsimp only
      cases hload : loadLayer fs p with
      | error e' => simp [hload]
      | ok l => simp [hload]

/-- A command fails just if the run is refused. -/
lemma reports_eq_error_iff_of_config (hconfig : i.config? fs = .ok config) :
    i.reports fs = .error e ↔ config.Refused fs e := by
  rw [reports, hconfig]
  dsimp only
  cases i.command with
  | all => exact Check.runAll_eq_error_iff
  | check c =>
      rw [← @Check.run_eq_error_iff fs config e c]
      cases hrun : c.run fs config <;> simp [Except.map, hrun]

/-- **There are no reports** just if the invocation is refused. -/
lemma reports_eq_error_iff : i.reports fs = .error e ↔ i.Refused fs e := by
  cases hconfig : i.config? fs with
  | error e' =>
      have hreports : i.reports fs = .error e' := by rw [reports, hconfig]
      obtain ⟨p, hp, hload⟩ := config?_eq_error_iff.mp hconfig
      rw [hreports, Except.error.injEq]
      constructor
      · rintro rfl
        exact .file hp hload
      · rintro (⟨hq, hload'⟩ | ⟨hconfig', -⟩)
        · cases hp.symm.trans hq
          exact Except.error.inj (hload.symm.trans hload')
        · cases hconfig.symm.trans hconfig'
  | ok config =>
      rw [reports_eq_error_iff_of_config hconfig]
      constructor
      · exact .run hconfig
      · rintro (⟨hp, hload⟩ | ⟨hconfig', h⟩)
        · cases hconfig.symm.trans (config?_eq_error_iff.mpr ⟨_, hp, hload⟩)
        · cases hconfig.symm.trans hconfig'
          exact h

end Invocation

namespace Outcome

lemma of_eq_ofInvocation (h : Arguments.parse args = .ok (.run i)) (color : Bool) :
    of color fs args = ofInvocation color fs i := by
  rw [of, h]

lemma ofInvocation_of_refused (color : Bool) (h : i.Refused fs e) :
    ofInvocation color fs i = ⟨2, "", some (.fatal e)⟩ := by
  rw [ofInvocation, Invocation.reports_eq_error_iff.mpr h]
  rfl

/-- Whatever is not refused has reports. -/
lemma ofInvocation_of_not_refused (color : Bool) (h : ∀ e, ¬ i.Refused fs e) :
    (ofInvocation color fs i).trouble = none ∧
      ((ofInvocation color fs i).exitCode = 0 ∨ (ofInvocation color fs i).exitCode = 1) := by
  rw [ofInvocation]
  cases hreports : i.reports fs with
  | error e => exact absurd (Invocation.reports_eq_error_iff.mp hreports) (h e)
  | ok rs =>
      refine ⟨rfl, ?_⟩
      dsimp only
      split_ifs
      · exact Or.inl rfl
      · exact Or.inr rfl

/-- A refusal is told, and nothing else is. -/
lemma ofInvocation_eq_iff (color : Bool) :
    ofInvocation color fs i = ⟨2, "", some (.fatal e)⟩ ↔ i.Refused fs e := by
  refine ⟨fun h => ?_, ofInvocation_of_refused color⟩
  by_contra hnot
  by_cases hany : ∃ e', i.Refused fs e'
  · obtain ⟨e', he'⟩ := hany
    rw [ofInvocation_of_refused color he'] at h
    cases h
    exact hnot he'
  · have hnone := (ofInvocation_of_not_refused color (not_exists.mp hany)).1
    rw [h] at hnone
    cases hnone

lemma exitCode_ofInvocation_eq_two_iff (color : Bool) :
    (ofInvocation color fs i).exitCode = 2 ↔ ∃ e, i.Refused fs e := by
  constructor
  · intro h
    by_contra hnone
    rcases (ofInvocation_of_not_refused color (not_exists.mp hnone)).2 with h' | h' <;>
      cases h.symm.trans h'
  · rintro ⟨e, he⟩
    rw [ofInvocation_of_refused color he]

/-- **Refusals**: the one way for a check, and for all of them together, to fail is
that there is no root or else that a pattern is ill-formed, and a root that is there
is refused only where some place has too long a path. A command line that asks for
checks ends in exit code 2, with that failure and without output, just if its
configuration file cannot be used or its run is refused; all others end in exit code
0 or 1. -/
theorem refusals (fs : FileSystem) :
    (∀ (c : Check) (config : Config) (e : Failure),
      c.run fs config = .error e ↔ config.Refused fs e) ∧
    (∀ (config : Config) (e : Failure),
      Check.runAll fs config = .error e ↔ config.Refused fs e) ∧
    (∀ (config : Config) (p : Path), config.Refused fs (.rootUnresolvable p .nameTooLong) →
      ∃ l x, fs.node? l = some x ∧ (FileSystem.pathOf l).isShort = false) ∧
    ∀ (color : Bool) (args : List String) (i : Invocation),
      Arguments.parse args = .ok (.run i) →
      (∀ e, of color fs args = ⟨2, "", some (.fatal e)⟩ ↔ i.Refused fs e) ∧
      ((of color fs args).exitCode = 2 ↔ ∃ e, i.Refused fs e) ∧
      ((∀ e, ¬ i.Refused fs e) → (of color fs args).trouble = none ∧
        ((of color fs args).exitCode = 0 ∨ (of color fs args).exitCode = 1)) := by
  refine ⟨fun c config e => Check.run_eq_error_iff, fun config e => Check.runAll_eq_error_iff,
    fun config p h => ?_, fun color args i hparse => ?_⟩
  · cases h with
    | root h => exact DocRoot.exists_long_place_of_refused h
  · rw [of_eq_ofInvocation hparse]
    exact ⟨fun e => ofInvocation_eq_iff color, exitCode_ofInvocation_eq_two_iff color,
      ofInvocation_of_not_refused color⟩

end Outcome

section Page

open Discovery

/-- A command line with an ill-formed pattern. -/
def starsArguments : List String := ["fences", "--root", "/p", "--exclude", "***"]

/-- What it asks for. -/
def starsInvocation : Invocation :=
  ⟨.check .fences, false, none, .human, { root := some (Path.ofString "/p"), exclude := ["***"] }⟩

lemma parse_starsArguments : Arguments.parse starsArguments = .ok (.run starsInvocation) := by
  decide +kernel

/-- The root, as it is given on a command line. -/
lemma ofString_root : Path.ofString "/p" = .ofNames [.letters 0] := by decide +kernel

lemma resolve_page : DocRoot.resolve pageTree (Path.ofString "/p") = .ok pageRoot := by
  rw [ofString_root, resolve_pageTree]

lemma refused_starsInvocation :
    starsInvocation.Refused pageTree (.invalidExclude "***" ⟨2, .wildcards⟩) := by
  have hparse : Glob.parse "***" = .error ⟨2, .wildcards⟩ := by simp [Glob.parse, Glob.parseFrom]
  refine .run rfl (.pattern (fun e he => ?_) (List.nil_append _).symm
    (fun _ h => absurd h List.not_mem_nil) hparse)
  cases resolve_page.symm.trans he.resolve_eq

/-- The root of the page is there, so it is the pattern that is told. -/
theorem Outcome.refusals_pageTree :
    of false pageTree starsArguments =
      ⟨2, "", some (.fatal (.invalidExclude "***" ⟨2, .wildcards⟩))⟩ ∧
    ∃ l x, FileSystem.shortcutTower.node? l = some x ∧
      (FileSystem.pathOf l).isShort = false := by
  have hcommand := (refusals pageTree).2.2.2 false starsArguments starsInvocation
    parse_starsArguments
  have hlong := (refusals FileSystem.shortcutTower).2.2.1
    { root := FileSystem.shortcut 1, exclude := [] } (FileSystem.shortcut 1)
  exact ⟨(hcommand.1 _).mpr refused_starsInvocation, hlong refused_shortcut⟩

end Page

end DocLint
