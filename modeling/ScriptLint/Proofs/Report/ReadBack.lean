import Mathlib.Data.List.Forall2
import ScriptLint.Proofs.Json.Containers
import ScriptLint.Proofs.Json.Yields

/-!
# JSON reports read back

A report is read back from its written form exactly as it was, absent fields included, as long as
its numbers have 64 bits. Those of a report that was read always have, so a report that is read and
written again stays as it is from then on, and the report that a run writes can be read for what was
found.
-/

namespace ScriptLint

open Json

namespace ReportedFinding

/-- The numbers of the finding have 64 bits. -/
structure Fits (finding : ReportedFinding) : Prop where
  startLine : finding.startLine ≤ maxInteger
  endLine : finding.endLine ≤ maxInteger
  startCol : finding.startCol ≤ maxInteger
  endCol : finding.endCol ≤ maxInteger

/-- The draft that has all of the finding in it, and nothing in place of what it leaves out. -/
def draft (finding : ReportedFinding) : Draft where
  tag := some finding.tag
  kind := some finding.kind
  description := finding.description.map some
  startLine := some finding.startLine
  endLine := some finding.endLine
  startCol := some finding.startCol
  endCol := some finding.endCol
  source := finding.source.map some

theorem finish_draft (finding : ReportedFinding) : finding.draft.finish = .ok finding := by
  obtain ⟨tag, kind, description, startLine, endLine, startCol, endCol, source⟩ := finding
  cases description <;> cases source <;> rfl

/-- The written fields fill the draft in their order, the optional ones where they are given. -/
theorem fills_draft {finding : ReportedFinding} (fits : finding.Fits) (level : Nat) :
    ∃ entry fields, finding.value = .record (entry :: fields) ∧
      Fills Draft.field level {} (entry :: fields) finding.draft := by
  obtain ⟨tag, kind, description, startLine, endLine, startCol, endCol, source⟩ := finding
  have named : Fills Draft.field level {} [("tag", .text tag), ("kind", .text kind)]
      { tag := some tag, kind := some kind } := by
    refine .once rfl (reads_text tag) rfl ?_
    exact .once rfl (reads_text kind) rfl (.nil _)
  have described : Fills Draft.field level { tag := some tag, kind := some kind }
      (optionalField "description" description)
      { tag := some tag, kind := some kind, description := description.map some } := by
    cases description with
    | none => exact .nil _
    | some text => exact .once rfl (reads_optionalText text) rfl (.nil _)
  have placed : Fills Draft.field level
      { tag := some tag, kind := some kind, description := description.map some }
      [("start_line", .number startLine), ("end_line", .number endLine),
       ("start_col", .number startCol), ("end_col", .number endCol)]
      { tag := some tag, kind := some kind, description := description.map some,
        startLine := some startLine, endLine := some endLine, startCol := some startCol,
        endCol := some endCol } := by
    refine .once rfl (reads_number fits.startLine) rfl ?_
    refine .once rfl (reads_number fits.endLine) rfl ?_
    refine .once rfl (reads_number fits.startCol) rfl ?_
    exact .once rfl (reads_number fits.endCol) rfl (.nil _)
  have sourced : Fills Draft.field level
      { tag := some tag, kind := some kind, description := description.map some,
        startLine := some startLine, endLine := some endLine, startCol := some startCol,
        endCol := some endCol }
      (optionalField "source" source)
      (draft ⟨tag, kind, description, startLine, endLine, startCol, endCol, source⟩) := by
    cases source with
    | none => exact .nil _
    | some text => exact .once rfl (reads_optionalText text) rfl (.nil _)
  exact ⟨_, _, rfl, ((named.append described).append placed).append sourced⟩

theorem reads_value {finding : ReportedFinding} (fits : finding.Fits) (level : Nat) :
    Reads read (finding.value.pretty level) finding := by
  obtain ⟨entry, fields, written, fills⟩ := fills_draft fits (level + 1)
  rw [written]
  exact reads_record (fun _ => rfl) fills finding.finish_draft

/-- The numbers that the draft has so far have 64 bits. -/
structure Draft.Fits (draft : Draft) : Prop where
  startLine : ∀ line ∈ draft.startLine, line ≤ maxInteger
  endLine : ∀ line ∈ draft.endLine, line ≤ maxInteger
  startCol : ∀ column ∈ draft.startCol, column ≤ maxInteger
  endCol : ∀ column ∈ draft.endCol, column ≤ maxInteger

theorem Draft.yields_field {draft : Draft} {key : String}
    {read : List Char → Except Fault (Parsed Draft)} (fits : draft.Fits)
    (known : draft.field key = some read) : Yields read Draft.Fits := by
  unfold Draft.field at known
  split at known <;> simp only [Option.some.injEq, reduceCtorEq] at known <;> subst known
  · exact yields_readOnce (yields_any _) fun _ _ => { fits with }
  · exact yields_readOnce (yields_any _) fun _ _ => { fits with }
  · exact yields_readOnce (yields_any _) fun _ _ => { fits with }
  · exact yields_readOnce yields_natural fun _ small => { fits with startLine := by simpa }
  · exact yields_readOnce yields_natural fun _ small => { fits with endLine := by simpa }
  · exact yields_readOnce yields_natural fun _ small => { fits with startCol := by simpa }
  · exact yields_readOnce yields_natural fun _ small => { fits with endCol := by simpa }
  · exact yields_readOnce (yields_any _) fun _ _ => { fits with }

theorem Draft.fits_of_finish {draft : Draft} {finding : ReportedFinding} (fits : draft.Fits)
    (done : draft.finish = .ok finding) : finding.Fits := by
  unfold Draft.finish at done
  simp only [bind_eq_ok_iff, required_eq_ok_iff, pure_eq_ok_iff] at done
  obtain ⟨_, -, _, -, _, startLine, _, endLine, _, startCol, _, endCol, rfl⟩ := done
  exact ⟨fits.startLine _ startLine, fits.endLine _ endLine, fits.startCol _ startCol,
    fits.endCol _ endCol⟩

theorem yields_readByKey : Yields readByKey Fits := by
  have empty : Draft.Fits {} := by constructor <;> simp
  exact yields_keyed (fun _ => rfl) (fun _ _ _ => Draft.yields_field) empty Draft.fits_of_finish

theorem yields_readAsList : Yields readAsList Fits := by
  intro text finding rest done
  have number {text value rest} (done : readItem false readNatural text = .ok (value, rest)) :
      value ≤ maxInteger :=
    yields_readItem false yields_natural done
  obtain ⟨tag, -, done⟩ := bind_eq_ok_iff.mp done
  obtain ⟨kind, -, done⟩ := bind_eq_ok_iff.mp done
  obtain ⟨description, -, done⟩ := bind_eq_ok_iff.mp done
  obtain ⟨⟨startLine, _⟩, startLineRead, done⟩ := bind_eq_ok_iff.mp done
  obtain ⟨⟨endLine, _⟩, endLineRead, done⟩ := bind_eq_ok_iff.mp done
  obtain ⟨⟨startCol, _⟩, startColRead, done⟩ := bind_eq_ok_iff.mp done
  obtain ⟨⟨endCol, _⟩, endColRead, done⟩ := bind_eq_ok_iff.mp done
  obtain ⟨source, -, done⟩ := bind_eq_ok_iff.mp done
  obtain ⟨rfl, -⟩ := Prod.mk.inj (Except.ok.inj done)
  exact ⟨number startLineRead, number endLineRead, number startColRead, number endColRead⟩

theorem yields_read : Yields read Fits :=
  yields_record yields_readByKey yields_readAsList

end ReportedFinding

namespace JsonReport

/-- The numbers of the report have 64 bits. -/
structure Fits (report : JsonReport) : Prop where
  count : report.count ≤ maxInteger
  findings : ∀ finding ∈ report.findings, finding.Fits

theorem reads_value {report : JsonReport} (fits : report.Fits) (level : Nat) :
    Reads (readRecord readByKey readAsList) (report.value.pretty level) report := by
  have listed : Reads (readList ReportedFinding.read)
      ((Value.list (report.findings.map (·.value))).pretty (level + 1)) report.findings :=
    reads_list fun finding member =>
      ReportedFinding.reads_value (fits.findings finding member) (level + 2)
  have fills : Fills Draft.field (level + 1) {}
      [("version", .text report.version), ("file", .text report.file),
       ("count", .number report.count), ("findings", .list (report.findings.map (·.value)))]
      ⟨some report.version, some report.file, some report.count, some report.findings⟩ := by
    refine .once rfl (reads_text report.version) rfl ?_
    refine .once rfl (reads_text report.file) rfl ?_
    refine .once rfl (reads_number fits.count) rfl ?_
    exact .once rfl listed rfl (.nil _)
  exact reads_record (fun _ => rfl) fills rfl

theorem parse_pretty_of_fits {report : JsonReport} (fits : report.Fits) :
    parse report.pretty = .ok report := by
  have read := reads_value fits 0 [] [] (by simp) (by simp [Ends])
  rw [List.nil_append, List.append_nil] at read
  unfold parse readWhole pretty
  rw [String.toList_ofList, read, ok_bind]
  rfl

/-- The numbers that the draft has so far have 64 bits. -/
structure Draft.Fits (draft : Draft) : Prop where
  count : ∀ count ∈ draft.count, count ≤ maxInteger
  findings : ∀ findings ∈ draft.findings, ∀ finding ∈ findings, finding.Fits

theorem Draft.yields_field {draft : Draft} {key : String}
    {read : List Char → Except Fault (Parsed Draft)} (fits : draft.Fits)
    (known : draft.field key = some read) : Yields read Draft.Fits := by
  unfold Draft.field at known
  split at known <;> simp only [Option.some.injEq, reduceCtorEq] at known <;> subst known
  · exact yields_readOnce (yields_any _) fun _ _ => { fits with }
  · exact yields_readOnce (yields_any _) fun _ _ => { fits with }
  · exact yields_readOnce yields_natural fun _ small => { fits with count := by simpa }
  · exact yields_readOnce (yields_list ReportedFinding.yields_read) fun _ each =>
      { fits with findings := by simpa }

theorem Draft.fits_of_finish {draft : Draft} {report : JsonReport} (fits : draft.Fits)
    (done : draft.finish = .ok report) : report.Fits := by
  unfold Draft.finish at done
  simp only [bind_eq_ok_iff, required_eq_ok_iff, pure_eq_ok_iff] at done
  obtain ⟨_, -, _, -, _, count, _, findings, rfl⟩ := done
  exact ⟨fits.count _ count, fits.findings _ findings⟩

theorem yields_readByKey : Yields readByKey Fits := by
  have empty : Draft.Fits {} := by constructor <;> simp
  exact yields_keyed (fun _ => rfl) (fun _ _ _ => Draft.yields_field) empty Draft.fits_of_finish

theorem yields_readAsList : Yields readAsList Fits := by
  intro text report rest done
  obtain ⟨version, -, done⟩ := bind_eq_ok_iff.mp done
  obtain ⟨file, -, done⟩ := bind_eq_ok_iff.mp done
  obtain ⟨⟨count, _⟩, countRead, done⟩ := bind_eq_ok_iff.mp done
  obtain ⟨⟨findings, _⟩, findingsRead, done⟩ := bind_eq_ok_iff.mp done
  obtain ⟨rfl, -⟩ := Prod.mk.inj (Except.ok.inj done)
  exact ⟨yields_readItem false yields_natural countRead,
    yields_readItem false (yields_list ReportedFinding.yields_read) findingsRead⟩

theorem fits_of_parse {text : String} {report : JsonReport} (done : parse text = .ok report) :
    report.Fits := by
  obtain ⟨⟨whole, rest⟩, read, done⟩ := bind_eq_ok_iff.mp done
  obtain ⟨-, same⟩ | ⟨-, impossible⟩ := ite_eq_iff.mp done
  · rw [← Except.ok.inj same]
    exact yields_record yields_readByKey yields_readAsList read
  · simp at impossible

end JsonReport

/-! ## What a written report tells -/

/-- The lines and columns of the span have 64 bits. -/
structure Span.Fits (span : Span) : Prop where
  startLine : span.startLine ≤ maxInteger
  endLine : span.endLine ≤ maxInteger
  startCol : span.startCol ≤ maxInteger
  endCol : span.endCol ≤ maxInteger

/-- The report has the finding as it is, with its code if the verbosity asks for it. -/
structure Finding.ToldBy (verbosity : Nat) (finding : Finding) (told : ReportedFinding) :
    Prop where
  tag : told.tag = finding.tag
  kind : told.kind = finding.node.kindName
  description : told.description = finding.description
  startLine : told.startLine = finding.node.span.startLine
  endLine : told.endLine = finding.node.span.endLine
  startCol : told.startCol = finding.node.span.startCol
  endCol : told.endCol = finding.node.span.endCol
  source_isSome : told.source.isSome ↔ 2 ≤ verbosity
  source_eq : ∀ code ∈ told.source, code = finding.node.text

theorem Finding.toldBy_ofFinding (finding : Finding) (verbosity : Nat) :
    finding.ToldBy verbosity (.ofFinding finding (verbosity ≥ 2)) := by
  constructor <;> simp [ReportedFinding.ofFinding, Finding.span]

namespace JsonReport

/-- The text with its report written anew. -/
def rewritten (text : String) : Except Fault String :=
  pretty <$> parse text

theorem fits_ofFindings {findings : List Finding} (options : ReportOptions)
    (few : findings.length ≤ maxInteger) (fits : ∀ finding ∈ findings, finding.node.span.Fits) :
    (ofFindings findings options).Fits where
  count := few
  findings := by
    intro told member
    obtain ⟨finding, found, rfl⟩ := List.mem_map.mp member
    obtain ⟨startLine, endLine, startCol, endCol⟩ := fits finding found
    exact ⟨startLine, endLine, startCol, endCol⟩

/-- Reports are read back as they were written, writing what was read changes nothing the second
time, and what is read from the report of a run are its findings in their order. -/
theorem reads_back :
    (∀ report : JsonReport, report.Fits → parse report.pretty = .ok report) ∧
    (∀ text written, rewritten text = .ok written → rewritten written = .ok written) ∧
    ∀ (findings : List Finding) (options : ReportOptions) (files : FileSystem),
      findings.length ≤ maxInteger → (∀ finding ∈ findings, finding.node.span.Fits) →
      ∃ text report, Report.json.print findings options files = .ok (text, files) ∧
        parse text = .ok report ∧ report.count = findings.length ∧
        List.Forall₂ (Finding.ToldBy options.verbosity) findings report.findings := by
  refine ⟨fun report => parse_pretty_of_fits, ?_, ?_⟩
  · intro text written done
    obtain ⟨report, read, rfl⟩ := map_eq_ok_iff.mp done
    rw [rewritten, parse_pretty_of_fits (fits_of_parse read)]
    rfl
  · intro findings options files few fits
    refine ⟨_, ofFindings findings options, rfl, ?_, rfl, ?_⟩
    · exact parse_pretty_of_fits (fits_ofFindings options few fits)
    · simp only [ofFindings, List.forall₂_map_right_iff, List.forall₂_same]
      intro finding _
      exact finding.toldBy_ofFinding options.verbosity

/-- Quotes, backslashes, control characters and the largest numbers come back, and a finding with
its code is counted. -/
theorem reads_back_escaped :
    (∃ report : JsonReport, report.file = "a\"\\\n\x01é.js" ∧ report.count = maxInteger ∧
      report.findings.map (·.description) = [none, some "\t"] ∧
      parse report.pretty = .ok report) ∧
    ∃ text report,
      Report.json.print [{ node := ⟨{}, .literal "'\\n'" .string⟩, tag := "x\"" }]
        { verbosity := 2 } {} = .ok (text, {}) ∧
      parse text = .ok report ∧ report.count = 1 := by
  constructor
  · refine ⟨{ version := "1", file := "a\"\\\n\x01é.js", count := maxInteger, findings :=
      [⟨"t", "k", none, 0, 1, 2, maxInteger, some "\x1f"⟩, ⟨"", "", some "\t", 0, 0, 0, 0, none⟩] },
      rfl, rfl, rfl, reads_back.1 _ ⟨Nat.le_refl _, ?_⟩⟩
    simp only [List.mem_cons, List.not_mem_nil, or_false]
    rintro finding (rfl | rfl) <;> constructor <;> decide
  · obtain ⟨text, report, printed, read, counted, -⟩ :=
      reads_back.2.2 [{ node := ⟨{}, .literal "'\\n'" .string⟩, tag := "x\"" }]
        { verbosity := 2 } {} (by decide)
        (by simpa using ⟨by decide, by decide, by decide, by decide⟩)
    exact ⟨text, report, printed, read, counted⟩

end JsonReport

end ScriptLint
