import ScriptLint.Proofs.Json.Scalars
import ScriptLint.Report.Json

/-!
# Reading lists and records back

The pretty form of a list is read back if every item is, and that of a record if its fields fill
a draft one after the other. Line breaks and indentation are blank space to the readers, and what
follows an item or a field is a comma or a line break, which ends a number.
-/

namespace ScriptLint.Json

theorem isSpace_of_mem_lineStart {level : Nat} : ∀ c ∈ lineStart level, isSpace c := by
  simp [lineStart, isSpace, List.mem_replicate]

theorem skipSpace_lineStart (level : Nat) {c : Char} (solid : isSpace c = false)
    (rest : List Char) : skipSpace (lineStart level ++ c :: rest) = c :: rest := by
  rw [skipSpace_append isSpace_of_mem_lineStart, skipSpace_cons solid]

theorem ends_lineStart (level : Nat) (rest : List Char) : Ends (lineStart level ++ rest) := by
  simp [Ends, lineStart, isDigit]

theorem ends_comma (rest : List Char) : Ends (',' :: rest) := by
  simp [Ends, isDigit]

/-- A written value starts with a character that no list ends with. -/
theorem exists_pretty_eq_cons (level : Nat) (value : Value) :
    ∃ c text, value.pretty level = c :: text ∧ isSpace c = false ∧ c ≠ ']' := by
  cases value with
  | text content => exact ⟨'\x22', _, rfl, by decide, by decide⟩
  | number value =>
    obtain ⟨c, digits, written⟩ := List.exists_cons_of_ne_nil (@Nat.toDigits_ne_nil value 10)
    have digit : isDigit c := @isDigit_of_mem_toDigits value c (by simp [written])
    refine ⟨c, digits, by simp [Value.pretty, written], isSpace_of_isDigit digit, ?_⟩
    rintro rfl
    simp [isDigit] at digit
  | list items => cases items <;> exact ⟨'[', _, rfl, by decide, by decide⟩
  | record fields => cases fields <;> exact ⟨'\x7b', _, rfl, by decide, by decide⟩

/-! ## Lists -/

theorem nextItem_first {space : List Char} (blank : ∀ c ∈ space, isSpace c) (level : Nat)
    (value : Value) (rest : List Char) :
    nextItem true (space ++ (value.pretty level ++ rest)) =
      .ok (true, value.pretty level ++ rest) := by
  obtain ⟨c, text, written, solid, inside⟩ := exists_pretty_eq_cons level value
  rw [nextItem, skipSpace_append blank, written, List.cons_append, skipSpace_cons solid]
  simp [inside]

theorem nextItem_further {space : List Char} (blank : ∀ c ∈ space, isSpace c) (level : Nat)
    (value : Value) (rest : List Char) :
    nextItem false (',' :: (space ++ (value.pretty level ++ rest))) =
      .ok (true, value.pretty level ++ rest) := by
  obtain ⟨c, text, written, solid, inside⟩ := exists_pretty_eq_cons level value
  rw [nextItem, skipSpace_cons (by decide), written, List.cons_append]
  simp [skipSpace_append blank, skipSpace_cons solid, inside]

section Lists

variable {α : Type} {read : List Char → Except Fault (Parsed α)} {encode : α → Value}

theorem length_le_prettyItems (level : Nat) (items : List Value) :
    items.length ≤ (Value.prettyItems level items).length := by
  induction items with
  | nil => simp
  | cons item items ih =>
    simp only [Value.prettyItems, List.length_append, List.length_cons]
    omega

theorem ends_prettyItems (level outer : Nat) (items : List Value) (rest : List Char) :
    Ends (Value.prettyItems level items ++ (lineStart outer ++ rest)) := by
  cases items with
  | nil => exact ends_lineStart outer rest
  | cons item items => exact ends_comma _

/-- One more item, and then the others. -/
theorem readItems_succ {first : Bool} {fuel : Nat} {text written more : List Char} {value : α}
    (next : nextItem first text = .ok (true, written ++ more)) (item : Reads read written value)
    (ends : Ends more) :
    readItems read first (fuel + 1) text = (do
      let (values, text) ← readItems read false fuel more
      .ok (value :: values, text)) := by
  have found := item [] more (by simp) ends
  rw [List.nil_append] at found
  rw [readItems, next, ok_bind]
  simp only [if_true, found, ok_bind]

theorem readItems_further {level : Nat} {values : List α}
    (each : ∀ value ∈ values, Reads read ((encode value).pretty level) value) {fuel : Nat}
    (enough : values.length < fuel) (outer : Nat) (rest : List Char) :
    readItems read false fuel
        (Value.prettyItems level (values.map encode) ++ (lineStart outer ++ ']' :: rest)) =
      .ok (values, ']' :: rest) := by
  induction values generalizing fuel with
  | nil =>
    obtain ⟨fuel, rfl⟩ := Nat.exists_eq_add_of_lt enough
    simp [readItems, Value.prettyItems, nextItem, skipSpace_lineStart, isSpace, ok_bind]
  | cons value values ih =>
    obtain ⟨fuel, rfl⟩ := Nat.exists_eq_add_of_lt enough
    have next := nextItem_further (@isSpace_of_mem_lineStart level) level (encode value)
      (Value.prettyItems level (values.map encode) ++ (lineStart outer ++ ']' :: rest))
    have later := ih (fun other member => each other (List.mem_cons_of_mem _ member))
      (show values.length < values.length + 1 + fuel by omega)
    simp only [List.map_cons, Value.prettyItems, List.cons_append, List.append_assoc]
    rw [readItems_succ next (each value List.mem_cons_self) (ends_prettyItems _ _ _ _),
      List.length_cons, later, ok_bind]

/-- A list is read back if each of its items is. -/
theorem reads_list {level : Nat} {values : List α}
    (each : ∀ value ∈ values, Reads read ((encode value).pretty (level + 1)) value) :
    Reads (readList read) ((Value.list (values.map encode)).pretty level) values := by
  intro space rest blank _
  cases values with
  | nil =>
    simp only [List.map_nil, Value.pretty, List.cons_append, List.nil_append]
    rw [readList, skipSpace_append blank, skipSpace_cons (by decide)]
    simp [readItems, nextItem, skipSpace_cons, isSpace, ok_bind, endList]
  | cons value values =>
    have next := nextItem_first (@isSpace_of_mem_lineStart (level + 1)) (level + 1) (encode value)
      (Value.prettyItems (level + 1) (values.map encode) ++ (lineStart level ++ ']' :: rest))
    have short := length_le_prettyItems (level + 1) (values.map encode)
    simp only [List.map_cons, Value.pretty, List.cons_append, List.append_assoc, List.nil_append]
    rw [readList, skipSpace_append blank, skipSpace_cons (by decide)]
    simp only [Nat.succ_eq_add_one]
    rw [readItems_succ next (each value List.mem_cons_self) (ends_prettyItems _ _ _ _),
      readItems_further (fun other member => each other (List.mem_cons_of_mem _ member)) ?_]
    · simp [ok_bind, endList, skipSpace_cons, isSpace]
    · simp only [List.length_append, List.length_cons, List.length_map] at short ⊢
      omega

end Lists

/-! ## Records -/

theorem nextKey_first {space : List Char} (blank : ∀ c ∈ space, isSpace c) (name : String)
    (rest : List Char) :
    nextKey true (space ++ (string name ++ rest)) = .ok (some name, rest) := by
  rw [nextKey, skipSpace_append blank, string_append, skipSpace_cons (by decide)]
  simp [stringBody_string, ok_bind]

theorem nextKey_further {space : List Char} (blank : ∀ c ∈ space, isSpace c) (name : String)
    (rest : List Char) :
    nextKey false (',' :: (space ++ (string name ++ rest))) = .ok (some name, rest) := by
  rw [nextKey, skipSpace_cons (by decide), string_append]
  simp [skipSpace_append blank, skipSpace_cons, isSpace, stringBody_string, ok_bind]

section Records

variable {δ : Type} {field : δ → String → Option (List Char → Except Fault (Parsed δ))}

/-- Fields that are read one after the other, each into the draft that the ones before it left. -/
inductive Fills (field : δ → String → Option (List Char → Except Fault (Parsed δ)))
    (level : Nat) : δ → List (String × Value) → δ → Prop where
  | nil (draft : δ) : Fills field level draft [] draft
  | cons {draft next last : δ} {name : String} {value : Value} {fields : List (String × Value)}
      {read : List Char → Except Fault (Parsed δ)}
      (known : field draft name = some read)
      (taken : ∀ rest, Ends rest →
        read (':' :: ' ' :: (value.pretty level ++ rest)) = .ok (next, rest))
      (more : Fills field level next fields last) :
      Fills field level draft ((name, value) :: fields) last

theorem Fills.append {level : Nat} {draft next last : δ} {fields others : List (String × Value)}
    (first : Fills field level draft fields next) (second : Fills field level next others last) :
    Fills field level draft (fields ++ others) last := by
  induction first with
  | nil _ => exact second
  | cons known taken _ ih => exact .cons known taken (ih second)

/-- A field that was not read before is read back if its value is. -/
theorem Fills.once {α : Type} {level : Nat} {draft next last : δ} {name : String} {value : Value}
    {fields : List (String × Value)} {read : List Char → Except Fault (Parsed α)}
    {store : α → δ} {content : α} (known : field draft name = some (readOnce none read store))
    (reads : Reads read (value.pretty level) content) (stored : store content = next)
    (more : Fills field level next fields last) :
    Fills field level draft ((name, value) :: fields) last := by
  subst stored
  refine .cons known (fun rest ends => ?_) more
  have found := reads [' '] rest (by simp [isSpace]) ends
  simp only [List.cons_append, List.nil_append] at found
  simp [readOnce, colon, skipSpace_cons, isSpace, found, ok_bind]

theorem length_le_prettyFields (level : Nat) (fields : List (String × Value)) :
    fields.length ≤ (Value.prettyFields level fields).length := by
  induction fields with
  | nil => simp
  | cons field fields ih =>
    simp only [Value.prettyFields, List.length_append, List.length_cons]
    omega

theorem ends_prettyFields (level outer : Nat) (fields : List (String × Value))
    (rest : List Char) : Ends (Value.prettyFields level fields ++ (lineStart outer ++ rest)) := by
  cases fields with
  | nil => exact ends_lineStart outer rest
  | cons field fields => exact ends_comma _

/-- One more field, and then the others. -/
theorem readFields_succ {first : Bool} {fuel : Nat} {draft next : δ} {name : String}
    {text valueText more : List Char} {read : List Char → Except Fault (Parsed δ)}
    (key : nextKey first text = .ok (some name, valueText)) (known : field draft name = some read)
    (taken : read valueText = .ok (next, more)) :
    readFields field first (fuel + 1) draft text = readFields field false fuel next more := by
  rw [readFields, key, ok_bind]
  simp only [known, taken, ok_bind]

theorem readFields_further {level : Nat} {draft last : δ} {fields : List (String × Value)}
    (fills : Fills field level draft fields last) {fuel : Nat} (enough : fields.length < fuel)
    (outer : Nat) (rest : List Char) :
    readFields field false fuel draft
        (Value.prettyFields level fields ++ (lineStart outer ++ '\x7d' :: rest)) =
      .ok (last, '\x7d' :: rest) := by
  induction fills generalizing fuel with
  | nil _ =>
    obtain ⟨fuel, rfl⟩ := Nat.exists_eq_add_of_lt enough
    simp [readFields, Value.prettyFields, nextKey, skipSpace_lineStart, isSpace, ok_bind]
  | @cons draft next last name value fields read known taken _ ih =>
    obtain ⟨fuel, rfl⟩ := Nat.exists_eq_add_of_lt enough
    have key := nextKey_further (@isSpace_of_mem_lineStart level) name (':' :: ' ' ::
      (value.pretty level ++
        (Value.prettyFields level fields ++ (lineStart outer ++ '\x7d' :: rest))))
    simp only [Value.prettyFields, Value.prettyField, List.cons_append, List.append_assoc,
      List.nil_append]
    rw [readFields_succ key known (taken _ (ends_prettyFields _ _ _ _)), List.length_cons,
      ih (by omega)]

/-- All fields of a record are read into the draft that they fill. -/
theorem readFields_pretty {level : Nat} {draft last : δ} {entry : String × Value}
    {fields : List (String × Value)} (fills : Fills field level draft (entry :: fields) last)
    {fuel : Nat} (enough : fields.length + 1 < fuel) (outer : Nat) (rest : List Char) :
    readFields field true fuel draft (Value.prettyField level entry ++
        (Value.prettyFields level fields ++ (lineStart outer ++ '\x7d' :: rest))) =
      .ok (last, '\x7d' :: rest) := by
  obtain ⟨fuel, rfl⟩ := Nat.exists_eq_add_of_lt enough
  cases fills with
  | @cons _ next _ name value _ read known taken more =>
    have key := nextKey_first (@isSpace_of_mem_lineStart level) name (':' :: ' ' ::
      (value.pretty level ++
        (Value.prettyFields level fields ++ (lineStart outer ++ '\x7d' :: rest))))
    simp only [Value.prettyField, List.cons_append, List.append_assoc, List.nil_append]
    rw [readFields_succ key known (taken _ (ends_prettyFields _ _ _ _)),
      readFields_further more (by omega)]

/-- A record is read back by key if its fields fill a draft of the value. -/
theorem reads_record {α : Type} {level : Nat} {draft last : δ} {entry : String × Value}
    {fields : List (String × Value)} {byKey asList : List Char → Except Fault (Parsed α)}
    {finish : δ → Except Fault α} {value : α}
    (keyed : ∀ text, byKey text = (do
      let (draft, text) ← readFields field true text.length.succ draft text
      .ok (← finish draft, text)))
    (fills : Fills field (level + 1) draft (entry :: fields) last)
    (finished : finish last = .ok value) :
    Reads (readRecord byKey asList) ((Value.record (entry :: fields)).pretty level) value := by
  intro space rest blank _
  have short := length_le_prettyFields (level + 1) fields
  simp only [Value.pretty, List.cons_append, List.append_assoc, List.nil_append]
  rw [readRecord, skipSpace_append blank, skipSpace_cons (by decide)]
  simp only [keyed]
  rw [readFields_pretty fills ?_]
  · simp [ok_bind, finished, endRecord, skipSpace_cons, isSpace]
  · obtain ⟨name, content⟩ := entry
    simp only [Value.prettyField, lineStart, List.cons_append, List.length_append,
      List.length_cons] at short ⊢
    omega

end Records

end ScriptLint.Json
