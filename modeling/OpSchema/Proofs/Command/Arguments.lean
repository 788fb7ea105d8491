import OpSchema.Command

/-!
# The arguments of the report command

The arguments are read two at a time, a flag and its value, and a value may look like a
flag.  So what the command accepts are the spellings of lists of settings
(`Command.exists_plan_iff`).  Reading is a fold over the settings, in which a
setting overwrites the earlier ones of its flag: only the last value of each flag is left
(`Command.Options.foldl_set`), which is what the plan has (`Command.eq_of_plan_spell`), and
the order of settings with different flags does not matter.
-/

namespace OpSchema.Command

/-- The flags of the command. -/
inductive Flag where
  | mode
  | output
  | fixtures
  deriving DecidableEq, Repr

/-- How a flag is written. -/
def Flag.text : Flag → String
  | mode => "--mode"
  | output => "--output"
  | fixtures => "--fixtures"

/-- A flag with its value. -/
abbrev Setting : Type := Flag × String

/-- The arguments that give settings. -/
def spell (settings : List Setting) : List String :=
  settings.flatMap fun setting => [setting.1.text, setting.2]

/-- The last value of a flag. -/
def lastValue (flag : Flag) (settings : List Setting) : Option String :=
  (settings.filter (·.1 == flag)).getLast?.map Prod.snd

/-! ## Last values -/

theorem lastValue_append (flag : Flag) (first second : List Setting) :
    lastValue flag (first ++ second) = (lastValue flag second).or (lastValue flag first) := by
  unfold lastValue
  rw [List.filter_append, List.getLast?_append]
  cases (second.filter (·.1 == flag)).getLast? <;> rfl

theorem lastValue_cons (flag : Flag) (setting : Setting) (settings : List Setting) :
    lastValue flag (setting :: settings) =
      (lastValue flag settings).or (if setting.1 = flag then some setting.2 else none) := by
  have hsingle : lastValue flag [setting] = if setting.1 = flag then some setting.2 else none := by
    by_cases hflag : setting.1 = flag <;> simp [lastValue, hflag]
  rw [← List.singleton_append, lastValue_append, hsingle]

theorem lastValue_eq_none_iff {flag : Flag} {settings : List Setting} :
    lastValue flag settings = none ↔ ∀ setting ∈ settings, setting.1 ≠ flag := by
  simp [lastValue]

/-- Settings before the others do not count if their flags are set again. -/
theorem lastValue_prepend {extra settings : List Setting}
    (hagain : ∀ setting ∈ extra, ∃ later ∈ settings, later.1 = setting.1) (flag : Flag) :
    lastValue flag (extra ++ settings) = lastValue flag settings := by
  rw [lastValue_append]
  cases hlast : lastValue flag settings with
  | some value => rfl
  | none =>
      rw [Option.none_or, lastValue_eq_none_iff]
      intro setting hsetting hflag
      obtain ⟨later, hlater, hsame⟩ := hagain setting hsetting
      exact lastValue_eq_none_iff.1 hlast later hlater (hsame.trans hflag)

/-! ## Reading -/

namespace Options

/-- The options with one more setting. -/
def set (options : Options) : Setting → Options
  | (.mode, value) => { options with mode := value }
  | (.output, value) => { options with output := some value }
  | (.fixtures, value) => { options with fixtures := some value }

theorem read_flag (options : Options) (flag : Flag) (value : String) (rest : List String) :
    options.read (flag.text :: value :: rest) = (options.set (flag, value)).read rest := by
  cases flag with
  | mode => rfl
  | output => rfl
  | fixtures => rfl

theorem read_spell (options : Options) (settings : List Setting) :
    options.read (spell settings) = .ok (settings.foldl set options) := by
  induction settings generalizing options with
  | nil => rfl
  | cons setting settings ih =>
      exact (options.read_flag setting.1 setting.2 (spell settings)).trans (ih _)

/-- Whatever is read spells settings. -/
theorem exists_spell_of_read {options result : Options} {args : List String}
    (hread : options.read args = .ok result) : ∃ settings, args = spell settings := by
  fun_induction Options.read options args with
  | case1 options => exact ⟨[], rfl⟩
  -- An argument without a value is an error, whether it is a flag or not.
  | case2 | case3 | case4 | case5 => exact absurd hread nofun
  | case6 options value rest ih =>
      obtain ⟨settings, rfl⟩ := ih hread
      exact ⟨(.mode, value) :: settings, rfl⟩
  | case7 options value rest _ ih =>
      obtain ⟨settings, rfl⟩ := ih hread
      exact ⟨(.output, value) :: settings, rfl⟩
  | case8 options value rest _ _ ih =>
      obtain ⟨settings, rfl⟩ := ih hread
      exact ⟨(.fixtures, value) :: settings, rfl⟩
  | case9 => exact absurd hread nofun

/-- **The last value of each flag is what is left.** -/
theorem foldl_set (options : Options) (settings : List Setting) :
    settings.foldl set options =
      ⟨(lastValue .mode settings).getD options.mode,
        (lastValue .output settings).or options.output,
        (lastValue .fixtures settings).or options.fixtures⟩ := by
  induction settings generalizing options with
  | nil => rfl
  | cons setting settings ih =>
      obtain ⟨flag, value⟩ := setting
      rw [List.foldl_cons, ih]
      cases flag with
      | mode => simp [set, lastValue_cons]
      | output => simp [set, lastValue_cons]
      | fixtures => simp [set, lastValue_cons]

end Options

/-! ## Plans -/

theorem exists_modesOf_iff {choice : String} :
    (∃ modes, modesOf choice = .ok modes) ↔ choice ∈ ["strict", "hardened", "both"] := by
  unfold modesOf
  by_cases hstrict : choice = "strict"
  · simp [hstrict]
  · by_cases hhardened : choice = "hardened"
    · simp [hhardened]
    · by_cases hboth : choice = "both"
      · simp [hboth]
      · simp [hstrict, hhardened, hboth]

/-- Only the last value of each flag matters. -/
theorem plan_congr {first second : List Setting}
    (hsame : ∀ flag, lastValue flag first = lastValue flag second) :
    plan (spell first) = plan (spell second) := by
  rw [plan, plan, Options.read_spell, Options.read_spell, Options.foldl_set, Options.foldl_set,
    hsame, hsame, hsame]

/-- The modes of a choice that there is. -/
theorem eq_of_modesOf {choice : String} {modes : List Mode} (hmodes : modesOf choice = .ok modes) :
    modes =
      if choice = "strict" then [.strict]
      else if choice = "hardened" then [.hardened]
      else [.strict, .hardened] := by
  unfold modesOf at hmodes
  by_cases hstrict : choice = "strict"
  · simpa [hstrict, eq_comm] using hmodes
  · by_cases hhardened : choice = "hardened"
    · simpa [hhardened, eq_comm] using hmodes
    · by_cases hboth : choice = "both"
      · simpa [hboth, eq_comm] using hmodes
      · simp [hstrict, hhardened, hboth] at hmodes

/-- **A plan has the last value of each flag**, and the standard one where a flag is not set. -/
theorem eq_of_plan_spell {settings : List Setting} {p : Plan}
    (hplan : plan (spell settings) = .ok p) :
    p.modes =
        (if lastValue .mode settings = some "strict" then [.strict]
          else if lastValue .mode settings = some "hardened" then [.hardened]
          else [.strict, .hardened]) ∧
      p.config = { fixtureRoot := (lastValue .fixtures settings).getD "fixtures" } ∧
      p.output =
        (lastValue .output settings).getD "../../artifacts/schema_info/forensics.jsonl" := by
  rw [plan, Options.read_spell, Options.foldl_set] at hplan
  dsimp only at hplan
  cases hmodes : modesOf ((lastValue .mode settings).getD "both") with
  | error e =>
      rw [hmodes] at hplan
      exact absurd hplan nofun
  | ok modes =>
      rw [hmodes, Option.or_none, Option.or_none] at hplan
      cases hplan
      refine ⟨?_, rfl, rfl⟩
      have hchoice : ∀ choice, choice ≠ "both" →
          ((lastValue .mode settings).getD "both" = choice ↔
            lastValue .mode settings = some choice) := by
        intro choice hother
        cases lastValue .mode settings with
        | none => simp [hother.symm]
        | some value => simp
      rw [eq_of_modesOf hmodes]
      simp only [hchoice "strict" (by decide), hchoice "hardened" (by decide)]

theorem exists_plan_spell_iff {settings : List Setting} :
    (∃ p, plan (spell settings) = .ok p) ↔
      ∀ value, lastValue .mode settings = some value → value ∈ ["strict", "hardened", "both"] := by
  have hchoice : (∃ p, plan (spell settings) = .ok p) ↔
      ∃ modes, modesOf ((lastValue .mode settings).getD "both") = .ok modes := by
    rw [plan, Options.read_spell, Options.foldl_set]
    dsimp only
    cases modesOf ((lastValue .mode settings).getD "both") with
    | error e => exact ⟨fun ⟨_, hplan⟩ => (nomatch hplan), fun ⟨_, hmodes⟩ => (nomatch hmodes)⟩
    | ok modes => exact ⟨fun _ => ⟨modes, rfl⟩, fun _ => ⟨_, rfl⟩⟩
  rw [hchoice, exists_modesOf_iff]
  cases lastValue .mode settings with
  | none => simp
  | some value => simp

/-- **The arguments that make a plan**: pairs of a flag and a value, the last mode being one
that there is. -/
theorem exists_plan_iff {args : List String} :
    (∃ p, plan args = .ok p) ↔
      ∃ settings, args = spell settings ∧ ∀ value,
        lastValue .mode settings = some value → value ∈ ["strict", "hardened", "both"] := by
  constructor
  · rintro ⟨p, hplan⟩
    have hread : ∃ options, Options.read {} args = .ok options := by
      unfold plan at hplan
      split at hplan
      · exact absurd hplan nofun
      · next options hread => exact ⟨options, hread⟩
    obtain ⟨options, hread⟩ := hread
    obtain ⟨settings, rfl⟩ := Options.exists_spell_of_read hread
    exact ⟨settings, rfl, exists_plan_spell_iff.1 ⟨p, hplan⟩⟩
  · rintro ⟨settings, rfl, hmode⟩
    exact exists_plan_spell_iff.2 hmode

/-- The limit on the fixture is the standard one, whatever the arguments are. -/
theorem limits_of_plan {args : List String} {p : Plan} (hplan : plan args = .ok p) :
    p.config.maxFixtureBytes = 1048576 ∧ p.modes.length ≤ 2 := by
  obtain ⟨settings, rfl, -⟩ := exists_plan_iff.1 ⟨p, hplan⟩
  obtain ⟨hmodes, hconfig, -⟩ := eq_of_plan_spell hplan
  refine ⟨congrArg SuiteConfig.maxFixtureBytes hconfig, ?_⟩
  rw [hmodes]
  split
  · decide
  · split <;> decide

end OpSchema.Command
