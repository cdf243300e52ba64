import Mathlib.Logic.Relation
import ScriptLint.Proofs.Config.Fields

/-!
# Configurations are read by key

What a document is read as hangs on what stands under the keys that its records know. Where in its
mapping an entry stands makes no difference, nor do entries under other keys, whatever their values
are. This holds at every depth at once: a change anywhere in a document is one to the value of a key
that is known, which is read as before, or to something that is not looked at, or to a mapping or
list where only a scalar is read.
-/

namespace ScriptLint.Document

/-! ## Records in documents -/

/-- What a part of a document is read as: one of the four records, or anything else. -/
inductive Role where
  | config
  | rules
  | rule
  | report
  | other
  deriving DecidableEq, Repr

namespace Role

/-- The keys that a record knows, and what their values are read as. -/
def fields : Role → List (String × Role)
  | .config => [("version", .other), ("rules", .rules), ("report", .report)]
  | .rules =>
    [("too_many_returns", .rule), ("too_many_params", .rule), ("nested_conditional", .rule),
     ("imperative_loop", .rule)]
  | .rule => [("enabled", .other), ("max", .other)]
  | .report => [("format", .other), ("verbosity", .other), ("destination", .other)]
  | .other => []

/-- The keys that a record knows. -/
def keys (role : Role) : List String :=
  role.fields.map (·.1)

/-- What the value of a key is read as. -/
def below (role : Role) (key : String) : Role :=
  (role.fields.lookup key).getD .other

end Role

/-- A part of a document and the record that it is read as, found under known keys only. -/
inductive Within : Role → Document → Role → Document → Prop where
  | whole {role : Role} {document : Document} : Within role document role document
  | under {role inner : Role} {entries : List (Document × Document)} {key value part : Document}
      {name : String} (here : (key, value) ∈ entries) (isKey : key.text? = some name)
      (known : name ∈ role.keys) (inside : Within (role.below name) value inner part) :
      Within role (.mapping entries) inner part

/-- One change to a document that leaves alone what stands under known keys: the entries of a
mapping change places, or an entry comes in under a key that the record there does not know. The
mapping may stand anywhere in the document. -/
inductive Change : Role → Document → Document → Prop where
  | reorder {role : Role} {entries others : List (Document × Document)}
      (moved : entries.Perm others) : Change role (.mapping entries) (.mapping others)
  | insert {role : Role} {before after : List (Document × Document)} {key : Document}
      {name : String} (isKey : key.text? = some name) (unknown : name ∉ role.keys)
      (value : Document) :
      Change role (.mapping (before ++ after)) (.mapping (before ++ (key, value) :: after))
  | inValue {role : Role} {before after : List (Document × Document)}
      {key value changed : Document} {name : String} (isKey : key.text? = some name)
      (inside : Change (role.below name) value changed) :
      Change role (.mapping (before ++ (key, value) :: after))
        (.mapping (before ++ (key, changed) :: after))
  | inItem {role : Role} {before after : List Document} {item changed : Document}
      (inside : Change .other item changed) :
      Change role (.list (before ++ item :: after)) (.list (before ++ changed :: after))

variable {α : Type} {role : Role} {document changed : Document}
  {entries others : List (Document × Document)} {name : String}

/-! ## Entries of a mapping -/

/-- An entry by the text of its key. -/
def keyed (entry : Document × Document) : Option (String × Document) :=
  entry.1.text?.map (·, entry.2)

/-- All keys of a mapping are scalars. -/
def ScalarKeys (entries : List (Document × Document)) : Prop :=
  ∀ entry ∈ entries, ∃ name, entry.1.text? = some name

theorem keyed_of_text? {key : Document} (isKey : key.text? = some name) (value : Document) :
    keyed (key, value) = some (name, value) := by
  simp [keyed, isKey]

theorem record?_of_scalarKeys (scalar : ScalarKeys entries) :
    (mapping entries).record? = some (entries.filterMap keyed) := by
  change entries.mapM keyed = _
  induction entries with
  | nil => rfl
  | cons entry entries ih =>
    obtain ⟨⟨name, isKey⟩, later⟩ := List.forall_mem_cons.mp scalar
    have first := keyed_of_text? isKey entry.2
    rw [List.mapM_cons, first, ih later, List.filterMap_cons_some first]
    rfl

theorem record?_of_not_scalarKeys (nonScalar : ¬ ScalarKeys entries) :
    (mapping entries).record? = none := by
  change entries.mapM keyed = _
  induction entries with
  | nil => exact absurd (List.forall_mem_nil _) nonScalar
  | cons entry entries ih =>
    rw [List.mapM_cons]
    cases isKey : entry.1.text? with
    | none => simp [keyed, isKey]
    | some name =>
      have later : ¬ ScalarKeys entries := fun scalar =>
        nonScalar (List.forall_mem_cons.mpr ⟨⟨name, isKey⟩, scalar⟩)
      rw [ih later]
      simp

theorem scalarKeys_middle (before after : List (Document × Document)) {key : Document}
    (isKey : key.text? = some name) (value : Document) :
    ScalarKeys (before ++ (key, value) :: after) ↔ ScalarKeys (before ++ after) := by
  simp [ScalarKeys, isKey, or_imp, forall_and]

theorem count_filterMap_keyed (entries : List (Document × Document)) (name : String) :
    ((entries.filterMap keyed).map (·.1)).count name =
      entries.countP (·.1.text? = some name) := by
  rw [List.map_filterMap, List.count, List.countP_filterMap]
  refine List.countP_congr fun entry _ => ?_
  cases isKey : entry.1.text? <;> simp [keyed, isKey]

/-! ## Looking up a key -/

section

variable {known knownOthers before after : List (String × Document)} {key : String}
  {read : Document → Option α} {default : α}

theorem readKey_perm (moved : known.Perm knownOthers) :
    readKey knownOthers key read default = readKey known key read default := by
  have found := moved.filter (·.1 = key)
  unfold readKey
  generalize known.filter (·.1 = key) = here at found
  generalize knownOthers.filter (·.1 = key) = there at found
  match here, there with
  | [], there => rw [← found.nil_eq]
  | [entry], there => rw [List.perm_singleton.mp found.symm]
  | _ :: _ :: _, [] => cases found.length_eq
  | _ :: _ :: _, [_] => cases found.length_eq
  | _ :: _ :: _, _ :: _ :: _ => rfl

theorem readKey_insert (ne : name ≠ key) (value : Document) :
    readKey (before ++ (name, value) :: after) key read default =
      readKey (before ++ after) key read default := by
  rw [readKey, readKey, List.filter_append, List.filter_append,
    List.filter_cons_of_neg (by simpa using ne)]

theorem readKey_inValue {value changed : Document}
    (kept : name = key → read changed = read value) :
    readKey (before ++ (name, changed) :: after) key read default =
      readKey (before ++ (name, value) :: after) key read default := by
  by_cases same : name = key
  · rw [readKey, readKey, List.filter_append, List.filter_append,
      List.filter_cons_of_pos (by simpa using same), List.filter_cons_of_pos (by simpa using same)]
    generalize before.filter (·.1 = key) = ahead
    generalize after.filter (·.1 = key) = behind
    obtain _ | ⟨_, _ | _⟩ := ahead
    · cases behind with
      | nil => exact kept same
      | cons => rfl
    · rfl
    · rfl
  · rw [readKey_insert same, readKey_insert same]

end

/-! ## Changes -/

/-- Two records give the same answer under every key that is known, if what is read there is read
as before after each change. -/
def Alike (role : Role) (known knownOthers : List (String × Document)) : Prop :=
  ∀ {α : Type} (key : String) (read : Document → Option α) (default : α), key ∈ role.keys →
    (∀ value changed, Change (role.below key) value changed → read changed = read value) →
    readKey knownOthers key read default = readKey known key read default

theorem rel_record? (sameScalar : ScalarKeys others ↔ ScalarKeys entries)
    (alike : Alike role (entries.filterMap keyed) (others.filterMap keyed)) :
    Option.Rel (Alike role) (mapping entries).record? (mapping others).record? := by
  by_cases scalar : ScalarKeys entries
  · rw [record?_of_scalarKeys scalar, record?_of_scalarKeys (sameScalar.mpr scalar)]
    exact .some alike
  · rw [record?_of_not_scalarKeys scalar, record?_of_not_scalarKeys (mt sameScalar.mp scalar)]
    exact .none

/-- A change keeps a record a record, and what it says under known keys. -/
theorem Change.record? (change : Change role document changed) :
    Option.Rel (Alike role) document.record? changed.record? := by
  cases change with
  | reorder moved =>
    refine rel_record? ?_ fun _ _ _ _ _ => readKey_perm (moved.filterMap keyed)
    exact forall_congr' fun entry => imp_congr_left moved.mem_iff.symm
  | insert isKey unknown value =>
    refine rel_record? (scalarKeys_middle _ _ isKey value) fun key _ _ known _ => ?_
    rw [List.filterMap_append, List.filterMap_append,
      List.filterMap_cons_some (keyed_of_text? isKey value)]
    refine readKey_insert ?_ value
    rintro rfl
    exact unknown known
  | @inValue _ before after key value changed name isKey inside =>
    have middle := scalarKeys_middle before after isKey
    refine rel_record? ((middle changed).trans (middle value).symm) fun key _ _ _ kept => ?_
    rw [List.filterMap_append, List.filterMap_append,
      List.filterMap_cons_some (keyed_of_text? isKey value),
      List.filterMap_cons_some (keyed_of_text? isKey changed)]
    refine readKey_inValue ?_
    rintro rfl
    exact kept value changed inside
  | inItem inside => exact .none

/-- What is made of a record only by way of its known keys is the same after a change. -/
theorem Change.bind_record? (change : Change role document changed)
    {next : List (String × Document) → Option α}
    (kept : ∀ known knownOthers, Alike role known knownOthers → next knownOthers = next known) :
    changed.record?.bind next = document.record?.bind next := by
  have records := change.record?
  generalize document.record? = record at records
  generalize changed.record? = changedRecord at records
  cases records with
  | none => rfl
  | some alike => exact kept _ _ alike

/-- Nothing but scalars is read. -/
structure ReadsScalars (read : Document → Option α) : Prop where
  list : ∀ items, read (.list items) = none
  mapping : ∀ entries, read (.mapping entries) = none

/-- Only mappings and lists change, and they stay what they are. -/
theorem ReadsScalars.eq_of_change {read : Document → Option α} (scalars : ReadsScalars read)
    (change : Change role document changed) : read changed = read document := by
  cases change <;> simp only [scalars.list, scalars.mapping]

theorem readsScalars_text? : ReadsScalars text? :=
  ⟨fun _ => rfl, fun _ => rfl⟩

theorem readsScalars_bool? : ReadsScalars bool? :=
  ⟨fun _ => rfl, fun _ => rfl⟩

theorem readsScalars_natural? (limit : Nat) : ReadsScalars (natural? limit) :=
  ⟨fun _ => rfl, fun _ => rfl⟩

theorem readsScalars_optionalNatural? (limit : Nat) : ReadsScalars (optionalNatural? limit) :=
  ⟨fun _ => rfl, fun _ => rfl⟩

theorem readsScalars_reportFormat? : ReadsScalars reportFormat? :=
  ⟨fun _ => rfl, fun _ => rfl⟩

theorem readsScalars_path : ReadsScalars (·.text?.map Path.mk) :=
  ⟨fun _ => rfl, fun _ => rfl⟩

/-! ## Records after a change -/

theorem ruleSetting?_of_change (change : Change .rule document changed) :
    changed.ruleSetting? = document.ruleSetting? := by
  refine change.bind_record? fun known knownOthers alike => ?_
  have enabled := alike "enabled" bool? true (by decide)
    fun _ _ => readsScalars_bool?.eq_of_change
  have max := alike "max" (optionalNatural? maxLimit) none (by decide)
    fun _ _ => (readsScalars_optionalNatural? maxLimit).eq_of_change
  simp only [enabled, max]

theorem ruleSettings?_of_change (change : Change .rules document changed) :
    changed.ruleSettings? = document.ruleSettings? := by
  refine change.bind_record? fun known knownOthers alike => ?_
  have rule (key : String) (absent : RuleSetting) (isKnown : key ∈ Role.rules.keys)
      (isRule : Role.rules.below key = .rule) :=
    alike key ruleSetting? absent isKnown fun _ _ inside => ruleSetting?_of_change (isRule ▸ inside)
  simp only [rule "too_many_returns" _ (by decide) rfl,
    rule "too_many_params" _ (by decide) rfl, rule "nested_conditional" _ (by decide) rfl,
    rule "imperative_loop" _ (by decide) rfl]

theorem reportSettings?_of_change (change : Change .report document changed) :
    changed.reportSettings? = document.reportSettings? := by
  refine change.bind_record? fun known knownOthers alike => ?_
  have format := alike "format" reportFormat? .log (by decide)
    fun _ _ => readsScalars_reportFormat?.eq_of_change
  have verbosity := alike "verbosity" (natural? maxWrittenVerbosity) 1 (by decide)
    fun _ _ => (readsScalars_natural? maxWrittenVerbosity).eq_of_change
  have destination := alike "destination" (·.text?.map Path.mk) ⟨"."⟩ (by decide)
    fun _ _ => readsScalars_path.eq_of_change
  simp only [format, verbosity, destination]

theorem config?_of_change (change : Change .config document changed) :
    changed.config? = document.config? := by
  refine change.bind_record? fun known knownOthers alike => ?_
  have version := alike "version" text? "1" (by decide)
    fun _ _ => readsScalars_text?.eq_of_change
  have rules := alike "rules" ruleSettings? {} (by decide) fun _ _ => ruleSettings?_of_change
  have report := alike "report" reportSettings? {} (by decide) fun _ _ => reportSettings?_of_change
  simp only [version, rules, report]

/-- Any number of changes. -/
theorem config?_of_changes (changes : Relation.ReflTransGen (Change .config) document changed) :
    changed.config? = document.config? := by
  induction changes with
  | refl => rfl
  | tail _ change ih => rw [config?_of_change change, ih]

/-! ## Repeated keys -/

/-- The part is read as this record. What is no record may be anything. -/
def Role.Accepts : Role → Document → Prop
  | .config, document => ∃ config, Config.SaidBy document config
  | .rules, document => ∃ settings, RuleSettings.SaidBy document settings
  | .rule, document => ∃ setting, RuleSetting.SaidBy document setting
  | .report, document => ∃ settings, ReportSettings.SaidBy document settings
  | .other, _ => True

/-- In a record that is read every known key stands at most once, and its value is read. -/
theorem Role.Accepts.fields (accepts : role.Accepts document) (isRecord : role ≠ .other) :
    ∃ known, document.record? = some known ∧ ∀ name ∈ role.keys,
      (known.map (·.1)).count name ≤ 1 ∧
        ∀ value, (name, value) ∈ known → (role.below name).Accepts value := by
  cases role with
  | config =>
    obtain ⟨config, known, record, version, rules, report⟩ := accepts
    refine ⟨known, record, ?_⟩
    simp only [keys, Role.fields, List.map_cons, List.map_nil, List.forall_mem_cons]
    exact ⟨version.once fun _ _ _ => trivial, rules.once fun _ _ said => ⟨_, said⟩,
      report.once fun _ _ said => ⟨_, said⟩, List.forall_mem_nil _⟩
  | rules =>
    obtain ⟨settings, known, record, returns, params, nested, loops⟩ := accepts
    refine ⟨known, record, ?_⟩
    simp only [keys, Role.fields, List.map_cons, List.map_nil, List.forall_mem_cons]
    exact ⟨returns.once fun _ _ said => ⟨_, said⟩, params.once fun _ _ said => ⟨_, said⟩,
      nested.once fun _ _ said => ⟨_, said⟩, loops.once fun _ _ said => ⟨_, said⟩,
      List.forall_mem_nil _⟩
  | rule =>
    obtain ⟨setting, known, record, enabled, max⟩ := accepts
    refine ⟨known, record, ?_⟩
    simp only [keys, Role.fields, List.map_cons, List.map_nil, List.forall_mem_cons]
    exact ⟨enabled.once fun _ _ _ => trivial, max.once fun _ _ _ => trivial,
      List.forall_mem_nil _⟩
  | report =>
    obtain ⟨settings, known, record, format, verbosity, destination⟩ := accepts
    refine ⟨known, record, ?_⟩
    simp only [keys, Role.fields, List.map_cons, List.map_nil, List.forall_mem_cons]
    exact ⟨format.once fun _ _ _ => trivial, verbosity.once fun _ _ _ => trivial,
      destination.once fun _ _ _ => trivial, List.forall_mem_nil _⟩
  | other => exact absurd rfl isRecord

theorem Role.ne_other_of_mem_keys (known : name ∈ role.keys) : role ≠ .other := by
  rintro rfl
  cases known

/-- The same for a mapping with its keys as they are written. -/
theorem Role.Accepts.ofMapping (accepts : role.Accepts (.mapping entries))
    (known : name ∈ role.keys) :
    entries.countP (·.1.text? = some name) ≤ 1 ∧
      ∀ key value, (key, value) ∈ entries → key.text? = some name →
        (role.below name).Accepts value := by
  obtain ⟨fields, record, kept⟩ := accepts.fields (ne_other_of_mem_keys known)
  by_cases scalar : ScalarKeys entries
  · rw [record?_of_scalarKeys scalar, Option.some.injEq] at record
    subst record
    obtain ⟨once, accepted⟩ := kept name known
    constructor
    · rw [← count_filterMap_keyed]
      exact once
    · intro key value member isKey
      exact accepted value (List.mem_filterMap.mpr ⟨_, member, keyed_of_text? isKey value⟩)
  · rw [record?_of_not_scalarKeys scalar] at record
    cases record

theorem Within.accepts {inner : Role} {part : Document} (within : Within role document inner part)
    (accepts : role.Accepts document) : inner.Accepts part := by
  induction within with
  | whole => exact accepts
  | under here isKey known _ ih =>
    exact ih ((Role.Accepts.ofMapping accepts known).2 _ _ here isKey)

/-- A record with a known key twice is not read, and nothing around it is. -/
theorem config?_of_repeated {inner : Role}
    (within : Within .config document inner (.mapping entries)) (known : name ∈ inner.keys)
    (twice : 2 ≤ entries.countP (·.1.text? = some name)) : document.config? = none := by
  cases isRead : document.config? with
  | none => rfl
  | some config =>
    have accepts : Role.config.Accepts document := ⟨config, config?_eq_some_iff.mp isRead⟩
    have once := (Role.Accepts.ofMapping (within.accepts accepts) known).1
    omega

/-- Documents are read by key. Neither the order of entries nor entries under unknown keys change
what is read, whether something is, what is wrong with it, and which rules run; a configuration is
what its document says, field by field; and a document with a known key twice in one of its records
is not read. -/
theorem config?_by_key (document : Document) :
    (∀ changed, Relation.ReflTransGen (Change .config) document changed →
      changed.config? = document.config? ∧
      changed.config?.map Config.check = document.config?.map Config.check ∧
      changed.config?.map (·.rules.rules) = document.config?.map (·.rules.rules)) ∧
    (∀ config, document.config? = some config ↔ Config.SaidBy document config) ∧
    ∀ inner entries name, Within .config document inner (.mapping entries) → name ∈ inner.keys →
      2 ≤ entries.countP (·.1.text? = some name) → document.config? = none := by
  refine ⟨fun changed changes => ?_, fun config => config?_eq_some_iff, ?_⟩
  · have same := config?_of_changes changes
    exact ⟨same, by rw [same], by rw [same]⟩
  · intro inner entries name within known twice
    exact config?_of_repeated within known twice

/-- The entry that says this about the loop rule, and that says something of a rule in turn. -/
def loopEntry (rule : List (Document × Document)) : Document × Document :=
  (.plain "rules", .mapping [(.quoted "imperative_loop", .mapping rule)])

/-- An entry comes in under an unknown key two records down, and the outer entries change places.
With the limit given twice down there, nothing is read. -/
theorem config?_by_key_loopEntry :
    (mapping [loopEntry [(.plain "note", .list []), (.plain "max", .plain "7")],
        (.plain "version", .plain "2")]).config? =
      some { version := "2", rules := { imperativeLoop := { enabled := true, max := some 7 } } } ∧
    (mapping [loopEntry [(.plain "max", .plain "7"), (.quoted "max", .plain "8")]]).config? =
      none := by
  constructor
  · have noted : Change .config
        (.mapping [(.plain "version", .plain "2"), loopEntry [(.plain "max", .plain "7")]])
        (.mapping [(.plain "version", .plain "2"),
          loopEntry [(.plain "note", .list []), (.plain "max", .plain "7")]]) :=
      @Change.inValue .config [(.plain "version", .plain "2")] [] _ _ _ "rules" rfl
        (@Change.inValue .rules [] [] _ _ _ "imperative_loop" rfl
          (@Change.insert .rule [] _ _ "note" rfl (by decide) (.list [])))
    have turned := List.Perm.swap
      (loopEntry [(.plain "note", .list []), (.plain "max", .plain "7")])
      (.plain "version", .plain "2") []
    rw [((config?_by_key _).1 _ (.tail (.single noted) (.reorder turned))).1]
    decide
  · have inRules : (loopEntry [(.plain "max", .plain "7"), (.quoted "max", .plain "8")]) ∈
        [loopEntry [(.plain "max", .plain "7"), (.quoted "max", .plain "8")]] :=
      List.mem_singleton_self _
    exact (config?_by_key _).2.2 .rule _ "max"
      (.under inRules rfl (by decide) (.under (List.mem_singleton_self _) rfl (by decide) .whole))
      (by decide) (by decide)

end ScriptLint.Document
