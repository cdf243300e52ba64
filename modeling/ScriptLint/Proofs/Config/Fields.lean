import ScriptLint.Config.Config

/-!
# Fields of a configuration

A configuration is what its document says under each key: a field is read from the one entry with
its key, or has its default if there is no such entry. Stated for the records one by one, this says
when a document is read and as what. A document that is read has no known key twice, in none of the
records that it is made of.
-/

namespace ScriptLint

namespace Document

/-- What a record with these entries says under a key: the default if no entry has the key, or else
what the only entry with the key is read as. -/
inductive UnderKey {α : Type} (entries : List (String × Document)) (key : String)
    (read : Document → α → Prop) (default : α) : α → Prop where
  | absent (missing : key ∉ entries.map (·.1)) : UnderKey entries key read default default
  | present {before after : List (String × Document)} {document : Document} {value : α}
      (here : entries = before ++ (key, document) :: after)
      (once : key ∉ (before ++ after).map (·.1)) (isRead : read document value) :
      UnderKey entries key read default value

variable {α : Type} {entries : List (String × Document)} {key : String}
  {read : Document → Option α} {reads : Document → α → Prop} {default value : α}

theorem filter_key_eq_nil_iff : entries.filter (·.1 = key) = [] ↔ key ∉ entries.map (·.1) := by
  simp only [List.filter_eq_nil_iff, decide_eq_true_eq, List.mem_map, not_exists, not_and]

theorem readKey_of_missing (missing : key ∉ entries.map (·.1)) :
    readKey entries key read default = some default := by
  rw [readKey, filter_key_eq_nil_iff.mpr missing]

theorem readKey_of_once {before after : List (String × Document)} {document : Document}
    (once : key ∉ (before ++ after).map (·.1)) :
    readKey (before ++ (key, document) :: after) key read default = read document := by
  rw [List.map_append, List.mem_append, not_or] at once
  have found : (before ++ (key, document) :: after).filter (·.1 = key) = [(key, document)] := by
    rw [List.filter_append, List.filter_cons_of_pos (by simp), filter_key_eq_nil_iff.mpr once.1,
      filter_key_eq_nil_iff.mpr once.2, List.nil_append]
  rw [readKey, found]

theorem readKey_eq_some_iff
    (same : ∀ document value, read document = some value ↔ reads document value) :
    readKey entries key read default = some value ↔ UnderKey entries key reads default value := by
  constructor
  · intro isRead
    unfold readKey at isRead
    split at isRead
    · next missing =>
      rw [← Option.some.inj isRead]
      exact .absent (filter_key_eq_nil_iff.mp missing)
    · next entry found =>
      obtain ⟨before, after, here, ahead, isKey, behind⟩ := List.filter_eq_cons_iff.mp found
      obtain rfl : entry.1 = key := of_decide_eq_true isKey
      have aheadMissing := filter_key_eq_nil_iff.mp (List.filter_eq_nil_iff.mpr ahead)
      refine .present here ?_ ((same _ _).mp isRead)
      rw [List.map_append, List.mem_append, not_or]
      exact ⟨aheadMissing, filter_key_eq_nil_iff.mp behind⟩
    · cases isRead
  · rintro (missing | ⟨rfl, once, isRead⟩)
    · exact readKey_of_missing missing
    · rw [readKey_of_once once, same]
      exact isRead

/-- The key of a field stands at most once, and what stands there is read. -/
theorem UnderKey.once {accepts : Document → Prop}
    (field : UnderKey entries key reads default value)
    (accepted : ∀ document value, reads document value → accepts document) :
    (entries.map (·.1)).count key ≤ 1 ∧
      ∀ document, (key, document) ∈ entries → accepts document := by
  cases field with
  | absent missing =>
    refine ⟨by simp [List.count_eq_zero.mpr missing], ?_⟩
    intro document member
    exact absurd (List.mem_map_of_mem member) missing
  | present here once isRead =>
    subst here
    simp only [List.map_append, List.mem_append, not_or] at once
    refine ⟨by simp [List.count_eq_zero.mpr once.1, List.count_eq_zero.mpr once.2], ?_⟩
    intro document member
    simp only [List.mem_append, List.mem_cons, Prod.mk.injEq, true_and] at member
    obtain ahead | rfl | behind := member
    · exact absurd (List.mem_map_of_mem ahead) once.1
    · exact accepted _ _ isRead
    · exact absurd (List.mem_map_of_mem behind) once.2

end Document

open Document (UnderKey)

/-! ## Records -/

/-- The document says this of a rule. -/
def RuleSetting.SaidBy (document : Document) (setting : RuleSetting) : Prop :=
  ∃ entries, document.record? = some entries ∧
    UnderKey entries "enabled" (fun value enabled => value.bool? = some enabled) true
      setting.enabled ∧
    UnderKey entries "max"
      (fun value max => value.optionalNatural? Document.maxLimit = some max) none
      setting.max

/-- The document says this of the rules. A rule that is not mentioned is on, unless it is the loop
rule. -/
def RuleSettings.SaidBy (document : Document) (settings : RuleSettings) : Prop :=
  ∃ entries, document.record? = some entries ∧
    UnderKey entries "too_many_returns" RuleSetting.SaidBy { enabled := true, max := none }
      settings.tooManyReturns ∧
    UnderKey entries "too_many_params" RuleSetting.SaidBy { enabled := true, max := none }
      settings.tooManyParams ∧
    UnderKey entries "nested_conditional" RuleSetting.SaidBy { enabled := true, max := none }
      settings.nestedConditional ∧
    UnderKey entries "imperative_loop" RuleSetting.SaidBy { enabled := false, max := none }
      settings.imperativeLoop

/-- The document says this of the report. -/
def ReportSettings.SaidBy (document : Document) (settings : ReportSettings) : Prop :=
  ∃ entries, document.record? = some entries ∧
    UnderKey entries "format" (fun value format => value.reportFormat? = some format) .log
      settings.format ∧
    UnderKey entries "verbosity"
      (fun value verbosity => value.natural? Document.maxWrittenVerbosity = some verbosity) 1
      settings.verbosity ∧
    UnderKey entries "destination" (fun value path => value.text?.map Path.mk = some path) ⟨"."⟩
      settings.destination

/-- The document says this. -/
def Config.SaidBy (document : Document) (config : Config) : Prop :=
  ∃ entries, document.record? = some entries ∧
    UnderKey entries "version" (fun value version => value.text? = some version) "1"
      config.version ∧
    UnderKey entries "rules" RuleSettings.SaidBy {} config.rules ∧
    UnderKey entries "report" ReportSettings.SaidBy {} config.report

namespace Document

variable {document : Document}

theorem ruleSetting?_eq_some_iff {setting : RuleSetting} :
    document.ruleSetting? = some setting ↔ setting.SaidBy document := by
  obtain ⟨enabled, max⟩ := setting
  simp only [ruleSetting?, RuleSetting.SaidBy, Option.bind_eq_bind, Option.bind_eq_some_iff,
    Option.pure_def, Option.some.injEq, RuleSetting.mk.injEq,
    ← readKey_eq_some_iff fun _ _ => Iff.rfl]
  refine exists_congr fun entries => and_congr_right fun _ => ?_
  constructor
  · rintro ⟨_, isEnabled, _, isMax, rfl, rfl⟩
    exact ⟨isEnabled, isMax⟩
  · rintro ⟨isEnabled, isMax⟩
    exact ⟨enabled, isEnabled, max, isMax, rfl, rfl⟩

theorem ruleSettings?_eq_some_iff {settings : RuleSettings} :
    document.ruleSettings? = some settings ↔ settings.SaidBy document := by
  obtain ⟨returns, params, nested, loops⟩ := settings
  simp only [ruleSettings?, RuleSettings.SaidBy, Option.bind_eq_bind, Option.bind_eq_some_iff,
    Option.pure_def, Option.some.injEq, RuleSettings.mk.injEq,
    ← readKey_eq_some_iff fun _ _ => ruleSetting?_eq_some_iff]
  refine exists_congr fun entries => and_congr_right fun _ => ?_
  constructor
  · rintro ⟨_, isReturns, _, isParams, _, isNested, _, isLoops, rfl, rfl, rfl, rfl⟩
    exact ⟨isReturns, isParams, isNested, isLoops⟩
  · rintro ⟨isReturns, isParams, isNested, isLoops⟩
    exact ⟨returns, isReturns, params, isParams, nested, isNested, loops, isLoops, rfl, rfl, rfl,
      rfl⟩

theorem reportSettings?_eq_some_iff {settings : ReportSettings} :
    document.reportSettings? = some settings ↔ settings.SaidBy document := by
  obtain ⟨format, verbosity, destination⟩ := settings
  simp only [reportSettings?, ReportSettings.SaidBy, Option.bind_eq_bind, Option.bind_eq_some_iff,
    Option.pure_def, Option.some.injEq, ReportSettings.mk.injEq,
    ← readKey_eq_some_iff fun _ _ => Iff.rfl]
  refine exists_congr fun entries => and_congr_right fun _ => ?_
  constructor
  · rintro ⟨_, isFormat, _, isVerbosity, _, isDestination, rfl, rfl, rfl⟩
    exact ⟨isFormat, isVerbosity, isDestination⟩
  · rintro ⟨isFormat, isVerbosity, isDestination⟩
    exact ⟨format, isFormat, verbosity, isVerbosity, destination, isDestination, rfl, rfl, rfl⟩

theorem config?_eq_some_iff {config : Config} :
    document.config? = some config ↔ config.SaidBy document := by
  obtain ⟨version, rules, report⟩ := config
  simp only [config?, Config.SaidBy, Option.bind_eq_bind, Option.bind_eq_some_iff,
    Option.pure_def, Option.some.injEq, Config.mk.injEq,
    ← readKey_eq_some_iff fun _ _ => Iff.rfl,
    ← readKey_eq_some_iff fun _ _ => ruleSettings?_eq_some_iff,
    ← readKey_eq_some_iff fun _ _ => reportSettings?_eq_some_iff]
  refine exists_congr fun entries => and_congr_right fun _ => ?_
  constructor
  · rintro ⟨_, isVersion, _, isRules, _, isReport, rfl, rfl, rfl⟩
    exact ⟨isVersion, isRules, isReport⟩
  · rintro ⟨isVersion, isRules, isReport⟩
    exact ⟨version, isVersion, rules, isRules, report, isReport, rfl, rfl, rfl⟩

end Document

end ScriptLint
