import Mathlib.Data.List.Induction
import Mathlib.Data.List.ReduceOption
import Mathlib.Data.String.Basic
import ScriptLint.Grammar.Language

/-!
# Registration over whole runs

Every call to an extension table puts the built-in languages in before it does anything else, and
that changes nothing from the second time on. So what a process is told depends only on its earlier
registrations: the last one of an extension wins, a built-in language stands behind it, and
installing once more is never noticed.
-/

namespace ScriptLint

/-- The language that an extension has without any registration. -/
def Language.ofExtension? : String → Option Language
  | ".js" | ".jsx" | ".mjs" | ".cjs" => some .javascript
  | ".ts" => some .typescript
  | ".tsx" => some .tsx
  | _ => none

namespace TableCall

variable {α : Type}

/-- What the call registers for an extension. -/
def registered? (extension : String) : TableCall α → Option α
  | .register other entry => if other = extension then some entry else none
  | _ => none

def isInstall : TableCall α → Bool
  | .install => true
  | _ => false

/-- The last registration of an extension among some calls. -/
def lastRegistered? (extension : String) (calls : List (TableCall α)) : Option α :=
  calls.reverse.findSome? (registered? extension)

theorem lastRegistered?_append_singleton (extension : String) (calls : List (TableCall α))
    (call : TableCall α) :
    lastRegistered? extension (calls ++ [call]) =
      (call.registered? extension).or (lastRegistered? extension calls) := by
  rw [lastRegistered?, List.reverse_append, List.reverse_singleton, List.singleton_append,
    List.findSome?_cons]
  cases call.registered? extension <;> rfl

theorem isSome_lastRegistered? {extension : String} {calls : List (TableCall α)} :
    (lastRegistered? extension calls).isSome = true ↔
      ∃ entry, .register extension entry ∈ calls := by
  rw [lastRegistered?, List.findSome?_isSome_iff]
  constructor
  · rintro ⟨call, member, found⟩
    cases call with
    | register other entry =>
      obtain rfl : other = extension := by
        by_contra different
        simp [registered?, different] at found
      exact ⟨entry, List.mem_reverse.mp member⟩
    | install => simp [registered?] at found
    | lookup => simp [registered?] at found
    | list => simp [registered?] at found
  · rintro ⟨entry, member⟩
    exact ⟨_, List.mem_reverse.mpr member, by simp [registered?]⟩

end TableCall

namespace ExtensionTable

open TableCall

variable {α : Type} {offer : Language → α} {table : ExtensionTable α}

theorem find?_insert (table : ExtensionTable α) (extension key : String) (entry : α) :
    (table.insert extension entry).find? key =
      if extension = key then some entry else table.find? key := by
  by_cases same : extension = key
  · simp [insert, find?, same]
  · have kept : (fun other : String × α => decide (other.1 != extension ∧ other.1 == key)) =
        fun other => other.1 == key := by
      funext other
      by_cases found : other.1 = key <;> simp [found, Ne.symm same]
    rw [insert, find?, List.find?_cons_of_neg (by simpa using same), List.find?_filter, if_neg same,
      find?, kept]

theorem isSome_find? {key : String} :
    (table.find? key).isSome = true ↔ key ∈ table.entries.map Prod.fst := by
  simp [find?]

/-- The extensions of a table differ from each other. -/
def Distinct (table : ExtensionTable α) : Prop :=
  (table.entries.map Prod.fst).Nodup

theorem Distinct.insert (distinct : table.Distinct) (extension : String) (entry : α) :
    (table.insert extension entry).Distinct := by
  refine List.nodup_cons.mpr ⟨?_, distinct.sublist (List.filter_sublist.map Prod.fst)⟩
  simp [List.mem_filter]

theorem install_of_installed (done : table.installed = true) : table.install offer = table := by
  simp [install, done]

theorem installed_install (offer : Language → α) (table : ExtensionTable α) :
    (table.install offer).installed = true := by
  unfold install
  split
  · assumption
  · rfl

/-- What a fresh process holds once the built-in languages are put in. -/
theorem entries_install_empty (offer : Language → α) :
    (({} : ExtensionTable α).install offer).entries =
      Language.builtin.reverse.map fun entry => (entry.1, offer entry.2) := by
  simp [install, Language.builtin, insert]

theorem find?_install_empty (offer : Language → α) (key : String) :
    (({} : ExtensionTable α).install offer).find? key = (Language.ofExtension? key).map offer := by
  rw [find?, entries_install_empty]
  unfold Language.ofExtension?
  split
  case h_7 =>
    have unknown : (Language.builtin.reverse.map fun entry => (entry.1, offer entry.2)).find?
        (·.1 == key) = none := by
      simp only [List.find?_eq_none, List.forall_mem_map, List.mem_reverse, beq_iff_eq]
      grind [Language.builtin]
    rw [unknown]
    rfl
  all_goals simp [Language.builtin]

theorem distinct_install_empty (offer : Language → α) :
    (({} : ExtensionTable α).install offer).Distinct := by
  rw [Distinct, entries_install_empty, List.map_map]
  change (Language.builtin.reverse.map Prod.fst).Nodup
  decide

/-- One call: with the built-in languages in, only a registration changes the table. -/
theorem install_perform (offer : Language → α) (table : ExtensionTable α) (call : TableCall α) :
    (table.perform offer call).2.install offer =
      match call with
      | .register extension entry => (table.install offer).insert extension entry
      | _ => table.install offer := by
  have done := installed_install offer table
  cases call with
  | register extension entry => exact install_of_installed done
  | install => exact install_of_installed done
  | lookup extension => exact install_of_installed done
  | list => exact install_of_installed done

section Runs

variable (offer : Language → α)

/-- A table after some calls. -/
def after (table : ExtensionTable α) (calls : List (TableCall α)) : ExtensionTable α :=
  calls.foldl (fun table call => (table.perform offer call).2) table

/-- What each call of a run tells its caller. -/
def answers (table : ExtensionTable α) : List (TableCall α) → List (Option (TableAnswer α))
  | [] => []
  | call :: rest =>
    let (answer, table) := table.perform offer call
    answer :: table.answers rest

theorem length_answers (table : ExtensionTable α) (calls : List (TableCall α)) :
    (table.answers offer calls).length = calls.length := by
  induction calls generalizing table with
  | nil => rfl
  | cons call rest ih => simp [answers, ih]

theorem answers_append (table : ExtensionTable α) (earlier later : List (TableCall α)) :
    table.answers offer (earlier ++ later) =
      table.answers offer earlier ++ (table.after offer earlier).answers offer later := by
  induction earlier generalizing table with
  | nil => rfl
  | cons call rest ih => simp [answers, after, ih]

/-- The answer to a call is what the table before it gives. -/
theorem answer_at (table : ExtensionTable α) (earlier later : List (TableCall α))
    (call : TableCall α) :
    (table.answers offer (earlier ++ call :: later))[earlier.length]? =
      some ((table.after offer earlier).perform offer call).1 := by
  rw [answers_append, List.getElem?_append_right (by simp [length_answers])]
  simp [length_answers, answers]

/-- Whatever has happened before, the last registration counts, and then the built-in language. -/
theorem find?_after (calls : List (TableCall α)) (key : String) :
    ((({} : ExtensionTable α).after offer calls).install offer).find? key =
      (lastRegistered? key calls).or ((Language.ofExtension? key).map offer) := by
  induction calls using List.reverseRecOn with
  | nil => exact find?_install_empty offer key
  | append_singleton calls call ih =>
    rw [after, List.foldl_append, List.foldl_cons, List.foldl_nil, ← after, install_perform,
      lastRegistered?_append_singleton]
    cases call with
    | register extension entry =>
      rw [find?_insert, ih, registered?]
      split <;> rfl
    | install => exact ih
    | lookup extension => exact ih
    | list => exact ih

theorem distinct_after (calls : List (TableCall α)) :
    ((({} : ExtensionTable α).after offer calls).install offer).Distinct := by
  induction calls using List.reverseRecOn with
  | nil => exact distinct_install_empty offer
  | append_singleton calls call ih =>
    rw [after, List.foldl_append, List.foldl_cons, List.foldl_nil, ← after, install_perform]
    cases call with
    | register extension entry => exact ih.insert extension entry
    | install => exact ih
    | lookup extension => exact ih
    | list => exact ih

theorem mem_extensions {table : ExtensionTable α} {key : String} :
    key ∈ table.extensions offer ↔ ((table.install offer).find? key).isSome = true := by
  rw [extensions, List.mem_mergeSort, isSome_find?]

/-- The extensions of a table are sorted, and none comes twice if the entries differ. -/
theorem sorted_extensions {table : ExtensionTable α} (distinct : (table.install offer).Distinct) :
    (table.extensions offer).Pairwise (· < ·) := by
  have sorted : (table.extensions offer).Pairwise (· ≤ ·) := by
    have ordered : (table.extensions offer).Pairwise fun first second =>
        decide (first ≤ second) = true :=
      List.pairwise_mergeSort (by simpa using fun _ _ _ => le_trans) (by simpa using le_total) _
    simpa using ordered
  have different : (table.extensions offer).Pairwise (· ≠ ·) :=
    (List.mergeSort_perm ..).nodup_iff.mpr distinct
  exact (sorted.and different).imp fun both => lt_of_le_of_ne both.1 both.2

/-- Tables that are the same once the built-in languages are in are never told apart. -/
theorem answers_congr {table other : ExtensionTable α}
    (same : table.install offer = other.install offer) (calls : List (TableCall α)) :
    table.answers offer calls = other.answers offer calls := by
  induction calls generalizing table other with
  | nil => rfl
  | cons call rest ih =>
    have told : (table.perform offer call).1 = (other.perform offer call).1 := by
      cases call <;> simp [perform, lookup?, extensions, same]
    have kept : (table.perform offer call).2.install offer =
        (other.perform offer call).2.install offer := by
      rw [install_perform, install_perform, same]
    simp only [answers, told, ih kept]

/-- Installing tells nothing and changes no later answer. -/
theorem answers_without_install (table : ExtensionTable α) (calls : List (TableCall α)) :
    (table.answers offer (calls.filter (!·.isInstall))).reduceOption =
      (table.answers offer calls).reduceOption := by
  induction calls generalizing table with
  | nil => rfl
  | cons call rest ih =>
    cases skipped : call.isInstall with
    | true =>
      obtain rfl : call = .install := by
        cases call <;> simp [isInstall] at skipped ⊢
      have same : (table.install offer).install offer = table.install offer :=
        install_of_installed (installed_install offer table)
      rw [List.filter_cons_of_neg (by simp [skipped]), ih, answers_congr offer same.symm]
      rfl
    | false =>
      rw [List.filter_cons_of_pos (by simp [skipped])]
      simp only [answers]
      cases (table.perform offer call).1 <;> simp [ih]

end Runs

/-- Over every run of a process, an extension is answered with its last registration or else with
its built-in language, the list of extensions is the sorted union of both, and runs that differ
only in installing get the same answers. -/
theorem answers_by_registration (offer : Language → α) (calls : List (TableCall α)) :
    (∀ extension later, (answers offer {} (calls ++ .lookup extension :: later))[calls.length]? =
      some (some (.found ((lastRegistered? extension calls).or
        ((Language.ofExtension? extension).map offer))))) ∧
    (∀ later, ∃ names, (answers offer {} (calls ++ .list :: later))[calls.length]? =
        some (some (.extensions names)) ∧
      names.Pairwise (· < ·) ∧
      ∀ name, name ∈ names ↔
        (Language.ofExtension? name).isSome = true ∨ ∃ entry, .register name entry ∈ calls) ∧
    ∀ more : List (TableCall α), more.filter (!·.isInstall) = calls.filter (!·.isInstall) →
      (answers offer {} more).reduceOption = (answers offer {} calls).reduceOption := by
  refine ⟨?_, ?_, ?_⟩
  · intro extension later
    rw [answer_at, perform, lookup?, find?_after]
  · intro later
    refine ⟨_, answer_at .., sorted_extensions offer (distinct_after offer calls), fun name => ?_⟩
    rw [mem_extensions, find?_after, Option.isSome_or, Bool.or_eq_true, Option.isSome_map,
      isSome_lastRegistered?, or_comm]
  · intro more same
    rw [← answers_without_install, same, answers_without_install]

/-- An extension of a built-in language is overridden between two installations. -/
theorem answers_by_registration_overridden :
    let calls : List (TableCall String) := [.lookup ".js", .register ".js" "own", .lookup ".js"]
    let more : List (TableCall String) :=
      [.lookup ".js", .install, .register ".js" "own", .install, .lookup ".js"]
    more.filter (!·.isInstall) = calls.filter (!·.isInstall) ∧
      (answers Language.name {} more).reduceOption = (answers Language.name {} calls).reduceOption ∧
      (answers Language.name {} calls).reduceOption =
        [.found (some "javascript"), .found (some "own")] := by
  intro calls more
  have same : more.filter (!·.isInstall) = calls.filter (!·.isInstall) := by decide
  exact ⟨same, (answers_by_registration Language.name calls).2.2 more same, by decide⟩

end ExtensionTable

end ScriptLint
