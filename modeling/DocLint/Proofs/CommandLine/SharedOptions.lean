/-
Command lines for one check that go with one for all checks.

* `Invocation.only`: one check in place of all of them, under the same options.
* `Key.concerns`: the options about emoji are for one check only; `shared` leaves them out of the
  arguments behind a command, for any other check.
* `step_shared`, `step_of_isLeftOut`: an argument that is not left out is read the same for one
  check, and one that is left out tells it nothing. `readLevel_shared`: so are all arguments behind
  the command.
* `only`: the command line for one check that goes with one for all of them, with the command for
  that check in place. `parse_only`: **it asks for that check under the same options**.
-/
import Mathlib.Data.List.Basic
import Mathlib.Tactic.Common
import DocLint.CommandLine.Arguments

namespace DocLint

/-- One check in place of the command; the options about emoji are for the check
that looks for them. -/
def Invocation.only (i : Invocation) (c : Check) : Invocation :=
  { i with
    command := .check c
    options := if c = .emoji then i.options
      else { i.options with includeArchive := false, strict := false } }

namespace Arguments

variable {c : Check} {k : Key} {r r' : Reading} {s : Step} {a : String} {args : List String}
  {i : Invocation}

/-! ### Options and checks -/

/-- Whether an option is about emoji. -/
def Key.isAboutEmoji (k : Key) : Bool :=
  emojiKeys.any (·.2 == k)

/-- Whether an option is for a check. -/
def Key.concerns (c : Check) (k : Key) : Bool :=
  c == .emoji || !k.isAboutEmoji

lemma Key.concerns_of_ne (hc : c ≠ .emoji) (k : Key) : k.concerns c = !k.isAboutEmoji := by
  rw [concerns, beq_false_of_ne hc, Bool.false_or]

lemma Key.concerns_of_hasValue (h : k.hasValue = true) : k.concerns c = true := by
  cases k with
  | includeArchive => cases h
  | strict => cases h
  | _ => exact Bool.or_true _

lemma Key.concerns_of_shortKey? {level : Level} {d : Char} (h : shortKey? level d = some k) :
    k.concerns c = true := by
  rw [shortKey?.eq_def] at h
  split at h
  · cases h
    exact Bool.or_true _
  · cases h
    exact Bool.or_true _
  · split_ifs at h
    cases h
    exact Bool.or_true _
  · cases h

/-- A table in which every name stands once is looked up by its rows. -/
lemma find?_name_eq_some_iff {keys : List (String × Key)} {name : String}
    (h : keys.Pairwise fun g g' => g.1 ≠ g'.1) :
    (keys.find? (·.1 == name)).map (·.2) = some k ↔ (name, k) ∈ keys := by
  induction keys with
  | nil => exact iff_of_false nofun List.not_mem_nil
  | cons g keys ih =>
      obtain ⟨hg, hkeys⟩ := List.pairwise_cons.mp h
      rw [List.mem_cons]
      by_cases hname : g.1 = name
      · have hnot : (name, k) ∉ keys := fun hmem => hg _ hmem hname
        rw [List.find?_cons_of_pos (by simp [hname])]
        simp [hname, hnot, Prod.ext_iff, eq_comm]
      · rw [List.find?_cons_of_neg (by simp [hname]), ih hkeys]
        simp [Prod.ext_iff, Ne.symm hname]

lemma longKey?_eq_some_iff {level : Level} {name : String} :
    longKey? level name = some k ↔ (name, k) ∈ keysAt level := by
  refine find?_name_eq_some_iff ?_
  rcases level with _ | (c | _)
  · decide
  · cases c <;> decide
  · decide

/-- Behind the command for one check the options are those for it. -/
lemma longKey?_check (name : String) :
    longKey? (some (.check c)) name = (longKey? (some .all) name).filter (·.concerns c) := by
  have hkeys : keysAt (some (.check c)) = (keysAt (some .all)).filter (·.2.concerns c) := by
    cases c <;> decide
  refine Option.ext fun k => ?_
  rw [Option.filter_eq_some_iff, longKey?_eq_some_iff, longKey?_eq_some_iff, hkeys,
    List.mem_filter]

/-- The others are options about emoji. -/
lemma mem_emojiKeys_of_concerns {name : String} (h : longKey? (some .all) name = some k)
    (hk : k.concerns c = false) : c ≠ .emoji ∧ (name, k) ∈ emojiKeys := by
  have hkeys : ∀ g ∈ keysAt (some .all), g.2.isAboutEmoji = true → g ∈ emojiKeys := by decide
  obtain ⟨hc, hany⟩ := Bool.or_eq_false_iff.mp hk
  exact ⟨beq_eq_false_iff_ne.mp hc, hkeys _ (longKey?_eq_some_iff.mp h)
    ((Bool.not_eq_false' _).mp hany)⟩

lemma concerns_and_beq (c : Check) (k : Key) (g : Given) :
    (g.1.concerns c && g.1 == k) = (k.concerns c && g.1 == k) := by
  by_cases hg : g.1 = k
  · rw [hg]
  · rw [beq_false_of_ne hg, Bool.and_false, Bool.and_false]

lemma isGiven_filter (k : Key) (gs : List Given) :
    isGiven (gs.filter (·.1.concerns c)) k = (k.concerns c && isGiven gs k) := by
  rw [isGiven, List.any_filter, isGiven]
  simp only [concerns_and_beq]
  cases k.concerns c <;> simp

lemma valuesOf_filter (hk : k.concerns c = true) (gs : List Given) :
    valuesOf (gs.filter (·.1.concerns c)) k = valuesOf gs k := by
  rw [valuesOf, List.filter_filter, valuesOf]
  refine congrArg _ (List.filter_congr fun g _ => ?_)
  rw [Bool.and_comm, concerns_and_beq, hk, Bool.true_and]

/-! ### What one check sees of a reading -/

/-- A reading without the options that are not for a check. -/
def Reading.shared (c : Check) (r : Reading) : Reading :=
  { r with given := r.given.filter (·.1.concerns c) }

/-- The same of what an argument comes to. -/
def Step.shared (c : Check) : Step → Step
  | next r => next (r.shared c)
  | s => s

namespace Reading

lemma give_shared (hk : k.concerns c = true) (r : Reading) (value : String) :
    (r.shared c).give k value = (r.give k value).map (·.shared c) := by
  have hgiven : (r.given.filter (·.1.concerns c)).any (·.1 == k) = r.given.any (·.1 == k) :=
    (isGiven_filter k r.given).trans (by rw [hk, Bool.true_and, isGiven])
  rw [give, give, shared, hgiven]
  split_ifs
  · rfl
  · rfl
  · rw [Except.map, shared, List.filter_cons_of_pos (by exact hk)]

lemma map_give_shared (hk : k.concerns c = true) (r : Reading) (value : String) :
    ((r.shared c).give k value).map Step.next =
      ((r.give k value).map Step.next).map (Step.shared c) := by
  rw [give_shared hk]
  cases r.give k value <;> rfl

lemma switch_shared (hk : k.concerns c = true) (r : Reading) :
    (r.shared c).switch k = (r.switch k).map (Step.shared c) := by
  rw [switch, switch]
  cases k.notice? with
  | some n => rfl
  | none => exact map_give_shared hk r ""

lemma place_shared (r : Reading) (a : String) :
    (r.shared c).place (some (.check c)) a = (r.place (some .all) a).map (·.shared c) :=
  give_shared (Key.concerns_of_hasValue rfl) r a

lemma letters_shared (r : Reading) (cs : List Char) :
    (r.shared c).letters (some (.check c)) cs =
      (r.letters (some .all) cs).map (Step.shared c) := by
  induction cs generalizing r with
  | nil => rfl
  | cons d cs ih =>
      have hkey : shortKey? (some (.check c)) d = shortKey? (some .all) d := rfl
      rw [letters, letters, hkey]
      cases hd : shortKey? (some .all) d with
      | none => rfl
      | some k =>
          dsimp only
          rw [switch_shared (Key.concerns_of_shortKey? hd)]
          rcases r.switch k with e | (r' | _ | _ | _ | _)
          · rfl
          · exact ih r'
          all_goals rfl

end Reading

/-! ### One argument -/

/-- The options about emoji, as arguments. -/
def emojiOptions : List String :=
  emojiKeys.map ("--" ++ ·.1)

/-- Whether an argument is an option that is not for a check. -/
def IsLeftOut (c : Check) (a : String) : Prop :=
  c ≠ .emoji ∧ a ∈ emojiOptions

instance (c : Check) (a : String) : Decidable (IsLeftOut c a) :=
  inferInstanceAs (Decidable (_ ∧ _))

/-- The arguments behind a command without the options that are not for a check. Behind two
hyphens nothing is an option. -/
def shared (c : Check) : List String → List String
  | [] => []
  | a :: rest =>
    if a = "--" then a :: rest
    else if IsLeftOut c a then shared c rest
    else a :: shared c rest

lemma ne_of_isLeftOut (h : IsLeftOut c a) : a ≠ "--" := by
  have hnot : "--" ∉ emojiOptions := by decide
  exact fun ha => hnot (ha ▸ h.2)

lemma shared_of_isLeftOut (h : IsLeftOut c a) (args : List String) :
    shared c (a :: args) = shared c args := by
  rw [shared, if_neg (ne_of_isLeftOut h), if_pos h]

lemma shared_of_not_isLeftOut (h : ¬ IsLeftOut c a) (args : List String) :
    shared c (a :: args) = a :: if a = "--" then args else shared c args := by
  rw [shared, if_neg h]
  split_ifs <;> rfl

namespace Reading

/-- Two hyphens and a name are an argument that is left out, if the option of that name is one. -/
lemma isLeftOut_of_dropWhile {cs : List Char} (ha : a.toList = '-' :: '-' :: cs)
    (hcs : cs.dropWhile (· ≠ '=') = [])
    (h : longKey? (some .all) (String.ofList (cs.takeWhile (· ≠ '='))) = some k)
    (hk : k.concerns c = false) : IsLeftOut c a := by
  obtain ⟨hc, hmem⟩ := mem_emojiKeys_of_concerns h hk
  have hname : cs.takeWhile (· ≠ '=') = cs := by
    have happend := List.takeWhile_append_dropWhile (p := (· ≠ '=')) (l := cs)
    rwa [hcs, List.append_nil] at happend
  rw [hname] at hmem
  refine ⟨hc, List.mem_map.mpr ⟨_, hmem, String.toList_injective ?_⟩⟩
  rw [String.toList_append, ha]
  exact congrArg ('-' :: '-' :: ·) String.toList_ofList

lemma long_shared (hleft : ¬ IsLeftOut c a) (r : Reading) {cs : List Char}
    (ha : a.toList = '-' :: '-' :: cs) :
    (r.shared c).long (some (.check c)) a cs =
      (r.long (some .all) a cs).map (Step.shared c) := by
  rw [long, long, longKey?_check]
  cases hall : longKey? (some .all) (String.ofList (cs.takeWhile (· ≠ '='))) with
  | none => rfl
  | some k =>
      cases hk : k.concerns c with
      | true =>
          rw [Option.filter_some_pos hk]
          dsimp only
          split
          · split_ifs
            · rfl
            · exact switch_shared hk r
          · split_ifs
            · exact map_give_shared hk r _
            · rfl
      | false =>
          have hvalue : ¬ k.hasValue = true := fun h =>
            ne_true_of_eq_false hk (Key.concerns_of_hasValue h)
          rw [Option.filter_some_neg hk]
          dsimp only
          split
          · next hcs => exact absurd (isLeftOut_of_dropWhile ha hcs hall hk) hleft
          · rw [if_neg hvalue]
            rfl

/-- An argument that is not left out is read the same for one check. -/
lemma step_shared (hleft : ¬ IsLeftOut c a) (r : Reading) :
    (r.shared c).step (some (.check c)) a = (r.step (some .all) a).map (Step.shared c) := by
  have hpending : (r.shared c).pending = r.pending := rfl
  rw [step, step, hpending]
  split
  · rfl
  · next k _ _ => exact map_give_shared (Key.concerns_of_hasValue k.property) r a
  · rfl
  · next ha => exact long_shared hleft r ha
  · exact letters_shared r _
  · rw [word, word, place_shared]
    cases r.place (some .all) a <;> rfl

lemma shared_eq_of_give {value : String} (hk : k.concerns c = false) (hr : r.pending = none)
    (h : r.give k value = .ok r') : r'.shared c = r.shared c := by
  rw [give] at h
  split_ifs at h
  cases h
  rw [shared, shared, hr, List.filter_cons_of_neg (by exact ne_true_of_eq_false hk)]

/-- An option about emoji is switched on. -/
lemma step_emojiOption {name : String} (h : (name, k) ∈ emojiKeys) (hr : r.pending = none) :
    r.step (some .all) ("--" ++ name) = (r.give k "").map .next := by
  have hlong : r.long (some .all) ("--" ++ name) name.toList = (r.give k "").map .next := by
    have hrow : ∀ g ∈ emojiKeys,
        longKey? (some .all) (String.ofList (g.1.toList.takeWhile (· ≠ '='))) = some g.2 ∧
          g.1.toList.dropWhile (· ≠ '=') = [] ∧ g.2.hasValue = false ∧ g.2.notice? = none := by
      decide
    obtain ⟨hkey, hdrop, hvalue, hnotice⟩ := hrow _ h
    rw [long, hkey]
    dsimp only
    rw [hdrop]
    dsimp only
    rw [dif_neg (ne_true_of_eq_false hvalue), switch, hnotice]
  have hne : ∀ g ∈ emojiKeys, g.1.toList ≠ [] := by decide
  rw [step, hr, String.toList_append, ← hlong]
  -- Two hyphens without a name would end the options.
  cases hname : name.toList with
  | nil => exact absurd hname (hne _ h)
  | cons d cs => rfl

/-- Where a value is to come there is no option. -/
lemma pending_eq_none_of_step {level : Level} {d : Char} {cs : List Char}
    (ha : a.toList = '-' :: d :: cs) (h : r.step level a = .ok s) : r.pending = none := by
  rw [step, ha] at h
  cases hr : r.pending with
  | none => rfl
  | some k =>
      rw [hr] at h
      cases h

/-- An argument that is left out tells one check nothing. -/
lemma step_of_isLeftOut (h : IsLeftOut c a) (hs : r.step (some .all) a = .ok s) :
    ∃ r', s = .next r' ∧ r'.shared c = r.shared c := by
  obtain ⟨hc, hmem⟩ := h
  obtain ⟨⟨name, k⟩, hg, rfl⟩ := List.mem_map.mp hmem
  have hr : r.pending = none := pending_eq_none_of_step String.toList_append hs
  have hk : k.concerns c = false := by
    rw [Key.concerns_of_ne hc, Bool.not_eq_false', Key.isAboutEmoji, List.any_eq_true]
    exact ⟨_, hg, beq_self_eq_true k⟩
  rw [step_emojiOption hg hr] at hs
  cases hgive : r.give k "" with
  | error e =>
      rw [hgive] at hs
      cases hs
  | ok r' =>
      rw [hgive] at hs
      cases hs
      exact ⟨r', rfl, shared_eq_of_give hk hr hgive⟩

end Reading

/-! ### Arguments behind a command -/

/-- Whether an argument ends no level and leaves what follows it to be read the same way. -/
inductive Step.IsPlain : Step → Prop
  | next (r : Reading) : IsPlain (.next r)
  | stop (n : Notice) : IsPlain (.stop n)

namespace Reading

lemma isPlain_of_map_next {x : Except Fault Reading} (h : x.map Step.next = .ok s) :
    s.IsPlain := by
  cases x with
  | error e => cases h
  | ok r =>
      cases h
      exact .next r

lemma isPlain_of_switch (h : r.switch k = .ok s) : s.IsPlain := by
  rw [switch] at h
  split at h
  · cases h
    exact .stop _
  · exact isPlain_of_map_next h

lemma isPlain_of_letters {level : Level} {cs : List Char} (h : r.letters level cs = .ok s) :
    s.IsPlain := by
  induction cs generalizing r with
  | nil =>
      cases h
      exact .next r
  | cons d cs ih =>
      rw [letters] at h
      split at h
      · cases h
      · split at h
        · exact ih h
        · exact isPlain_of_switch h

lemma isPlain_of_long {level : Level} {cs : List Char} (h : r.long level a cs = .ok s) :
    s.IsPlain := by
  rw [long] at h
  split at h
  · cases h
  · split at h <;> split_ifs at h
    · cases h
      exact .next _
    · exact isPlain_of_switch h
    · exact isPlain_of_map_next h

/-- Behind a command an argument is plain, unless it is two hyphens. -/
lemma isPlain_of_step {d : Command} (ha : a ≠ "--") (h : r.step (some d) a = .ok s) :
    s.IsPlain := by
  rw [step] at h
  split at h
  · cases h
  · exact isPlain_of_map_next h
  · next htoList => exact absurd (String.toList_injective htoList) ha
  · exact isPlain_of_long h
  · exact isPlain_of_letters h
  · exact isPlain_of_map_next h

lemma step_hyphens {level : Level} (h : r.step level "--" = .ok s) : s = .literal := by
  have htoList : "--".toList = ['-', '-'] := by decide
  have hr := pending_eq_none_of_step htoList h
  rw [step, hr, htoList] at h
  cases h
  rfl

end Reading

/-- What a level comes to without the options that are not for a check. -/
def LevelResult.shared (c : Check) : LevelResult → LevelResult
  | done given next => done (given.filter (·.1.concerns c)) next
  | l => l

lemma LevelResult.shared_done (r : Reading) (next : Option (Command × List String)) :
    (done r.given.reverse next).shared c = done (r.shared c).given.reverse next := by
  rw [shared, Reading.shared, List.filter_reverse]

lemma readPlaces_shared (r : Reading) (args : List String) :
    readPlaces (some (.check c)) (r.shared c) args =
      (readPlaces (some .all) r args).map (·.shared c) := by
  induction args generalizing r with
  | nil => exact congrArg Except.ok (LevelResult.shared_done r none).symm
  | cons a args ih =>
      rw [readPlaces, readPlaces, Reading.place_shared]
      cases r.place (some .all) a with
      | error e => rfl
      | ok r' => exact ih r'

/-- **What stands behind the command** is read for one check as for all of them, but for the
options that are left out. -/
lemma readLevel_shared {l : LevelResult} (h : readLevel (some .all) r args = .ok l) :
    readLevel (some (.check c)) (r.shared c) (shared c args) = .ok (l.shared c) := by
  induction args generalizing r with
  | nil =>
      rw [readLevel] at h
      rw [shared, readLevel, show (r.shared c).pending = r.pending from rfl]
      cases hr : r.pending with
      | some k =>
          rw [hr] at h
          cases h
      | none =>
          rw [hr] at h
          cases h
          rw [LevelResult.shared_done]
  | cons a args ih =>
      rw [readLevel] at h
      cases hs : r.step (some .all) a with
      | error e =>
          rw [hs] at h
          cases h
      | ok s =>
          rw [hs] at h
          -- What is left out is passed over by the one check; anything else both read alike.
          by_cases hleft : IsLeftOut c a
          · obtain ⟨r', rfl, hr'⟩ := Reading.step_of_isLeftOut hleft hs
            rw [shared_of_isLeftOut hleft, ← hr']
            exact ih h
          · rw [shared_of_not_isLeftOut hleft, readLevel, Reading.step_shared hleft, hs]
            by_cases ha : a = "--"
            · subst ha
              cases Reading.step_hyphens hs
              exact (readPlaces_shared r args).trans (congrArg _ h)
            · rw [if_neg ha]
              rcases Reading.isPlain_of_step ha hs with r' | n
              · exact ih h
              · cases h
                rfl

/-! ### Up to the command -/

/-- From arguments read so far, the command line for one check that goes with one for all. -/
def onlyFrom (c : Check) (r : Reading) : List String → List String
  | [] => []
  | a :: rest =>
    match r.step none a with
    | .ok (.next r) => a :: onlyFrom c r rest
    | _ => c.name :: shared c rest

/-- The command line for one check that goes with one for all of them. -/
def only (c : Check) (args : List String) : List String :=
  onlyFrom c {} args

namespace Reading

/-- Where no value is to come, a command is read. -/
lemma step_name (hr : r.pending = none) (c : Check) :
    r.step none c.name = .ok (.command (.check c)) := by
  rw [step, hr]
  cases c <;> rfl

lemma pending_eq_none_of_command {d : Command} (h : r.step none a = .ok (.command d)) :
    r.pending = none := by
  rw [step] at h
  split at h
  · cases h
  · cases isPlain_of_map_next h
  · assumption
  · assumption
  · assumption
  · assumption

end Reading

lemma readPlaces_none_ne_done {gs : List Given} {next : Command × List String} :
    readPlaces none r args ≠ .ok (.done gs (some next)) := by
  cases args <;> nofun

lemma readHelp_ne_done {gs : List Given} {next : Option (Command × List String)} :
    readHelp args ≠ .ok (.done gs next) := by
  rw [readHelp.eq_def]
  split
  · nofun
  · split_ifs <;> nofun

/-- **One check in place of all of them**, with what is left of the arguments behind. -/
lemma readLevel_onlyFrom {gs : List Given} {rest : List String}
    (h : readLevel none r args = .ok (.done gs (some (.all, rest)))) :
    readLevel none r (onlyFrom c r args) = .ok (.done gs (some (.check c, shared c rest))) := by
  induction args generalizing r with
  | nil =>
      rw [readLevel] at h
      split at h <;> cases h
  | cons a args ih =>
      rw [readLevel] at h
      rw [onlyFrom]
      -- Up to the command both lines have the same arguments, so only the command needs a look.
      split at h
      · cases h
      · next r' hs =>
          rw [hs]
          dsimp only
          rw [readLevel, hs]
          exact ih h
      · cases h
      · exact absurd h readPlaces_none_ne_done
      · next d hs =>
          rw [hs]
          dsimp only
          rw [readLevel, Reading.step_name (Reading.pending_eq_none_of_command hs)]
          cases h
          rfl
      · exact absurd h readHelp_ne_done

/-! ### The whole command line -/

/-- The check for emoji is asked for with all options. -/
lemma filter_concerns_emoji (gs : List Given) : gs.filter (·.1.concerns .emoji) = gs :=
  List.filter_eq_self.mpr fun _ _ => rfl

lemma scanOptions_filter (hc : c ≠ .emoji) (gs : List Given) :
    scanOptions (gs.filter (·.1.concerns c)) =
      { scanOptions gs with includeArchive := false, strict := false } := by
  have hshared : ∀ k : Key, k.isAboutEmoji = false → k.concerns c = true := fun k hk => by
    rw [Key.concerns_of_ne hc, hk, Bool.not_false]
  have hemoji : ∀ k : Key, k.isAboutEmoji = true → k.concerns c = false := fun k hk => by
    rw [Key.concerns_of_ne hc, hk, Bool.not_true]
  simp only [scanOptions, isGiven_filter, valuesOf_filter (hshared .root rfl),
    valuesOf_filter (hshared .place rfl), valuesOf_filter (hshared .extensions rfl),
    valuesOf_filter (hshared .exclude rfl), valuesOf_filter (hshared .maxDepth rfl),
    hshared .extensions rfl, hshared .followLinks rfl, hemoji .includeArchive rfl,
    hemoji .strict rfl, Bool.true_and, Bool.false_and]

/-- Without the options that are not for it, a check is asked for as all of them are. -/
lemma invocation_filter (before gs : List Given) :
    invocation before (.check c) (gs.filter (·.1.concerns c)) =
      (invocation before .all gs).only c := by
  by_cases hc : c = .emoji
  · subst hc
    rw [filter_concerns_emoji]
    rfl
  · have hverbose : Key.verbose.concerns c = true := Bool.or_true _
    rw [invocation, isGiven_filter, hverbose, Bool.true_and,
      valuesOf_filter (Key.concerns_of_hasValue (k := .config) rfl),
      valuesOf_filter (Key.concerns_of_hasValue (k := .format) rfl), scanOptions_filter hc,
      Invocation.only, if_neg hc]
    rfl

/-- A command line that asks for checks is read level by level. -/
lemma parse_eq_run_iff :
    parse args = .ok (.run i) ↔ ∃ before d rest behind next,
      readLevel none {} args = .ok (.done before (some (d, rest))) ∧
      readLevel (some d) {} rest = .ok (.done behind next) ∧
      (isGiven behind .root && isGiven behind .place) = false ∧
      i = invocation before d behind := by
  constructor
  · intro h
    rw [parse] at h
    split at h
    · cases h
    · cases h
    · cases h
    · next before d rest hbefore =>
        split at h
        · cases h
        · cases h
        · next behind next hbehind =>
            split_ifs at h with hplace
            cases h
            exact ⟨before, d, rest, behind, next, hbefore, hbehind,
              eq_false_of_ne_true hplace, rfl⟩
  · rintro ⟨before, d, rest, behind, next, hbefore, hbehind, hplace, rfl⟩
    rw [parse, hbefore]
    dsimp only
    rw [hbehind]
    dsimp only
    rw [if_neg (ne_true_of_eq_false hplace)]

/-- **A command line for one check**: if all of them are asked for, the command for one of them in
its place, with what is left of the arguments behind it, asks for that one under the same
options. -/
theorem parse_only (hcommand : i.command = .all) (h : parse args = .ok (.run i)) (c : Check) :
    parse (only c args) = .ok (.run (i.only c)) := by
  obtain ⟨before, d, rest, behind, next, hbefore, hbehind, hplace, rfl⟩ := parse_eq_run_iff.mp h
  cases hcommand
  refine parse_eq_run_iff.mpr ⟨before, .check c, shared c rest, behind.filter (·.1.concerns c),
    next, readLevel_onlyFrom hbefore, readLevel_shared hbehind, ?_, (invocation_filter _ _).symm⟩
  rw [isGiven_filter, isGiven_filter, Key.concerns_of_hasValue (k := .root) rfl,
    Key.concerns_of_hasValue (k := .place) rfl, Bool.true_and, Bool.true_and]
  exact hplace

example : only .links ["-v", "all", "--strict", "--root", "/p", "--include-archive"] =
    ["-v", "links", "--root", "/p"] := by
  decide +kernel

end Arguments

end DocLint
