import Mathlib.Data.List.Basic
import Mathlib.Data.String.Basic
import ScriptLint.Report.Html

/-!
# Markup of HTML reports

A document is read as a row of tags, each with the text that stands between it and the next one. A
report is such a row: the tags are fixed but for the number of findings and which of them are
described, and every text is escaped. Escaped text has no angle bracket, so it neither opens nor
closes a tag, and replacing the entities gives back what was escaped. Reading a report therefore
gives the tags of the row and, behind them, the texts that were put in.
-/

namespace ScriptLint.Report

/-! ## Entities -/

/-- Replaces the five entities by the characters they stand for, once, from left to right. -/
def unescapeChars : List Char → List Char
  | '&' :: 'a' :: 'm' :: 'p' :: ';' :: rest => '&' :: unescapeChars rest
  | '&' :: 'l' :: 't' :: ';' :: rest => '<' :: unescapeChars rest
  | '&' :: 'g' :: 't' :: ';' :: rest => '>' :: unescapeChars rest
  | '&' :: 'q' :: 'u' :: 'o' :: 't' :: ';' :: rest => '\x22' :: unescapeChars rest
  | '&' :: '#' :: '3' :: '9' :: ';' :: rest => '\x27' :: unescapeChars rest
  | c :: rest => c :: unescapeChars rest
  | [] => []

/-- Text with its entities replaced. -/
def htmlUnescape (text : String) : String :=
  String.ofList (unescapeChars text.toList)

/-- The characters that are written as entities. -/
def htmlSpecial : List Char := ['&', '<', '>', '\x22', '\x27']

theorem htmlChar_of_notMem {c : Char} (plain : c ∉ htmlSpecial) : htmlChar c = [c] := by
  simp only [htmlSpecial, List.mem_cons, List.not_mem_nil, or_false, not_or] at plain
  simp [htmlChar, plain]

theorem unescapeChars_htmlChar (c : Char) (rest : List Char) :
    unescapeChars (htmlChar c ++ rest) = c :: unescapeChars rest := by
  by_cases special : c ∈ htmlSpecial
  · simp only [htmlSpecial, List.mem_cons, List.not_mem_nil, or_false] at special
    rcases special with rfl | rfl | rfl | rfl | rfl <;> rfl
  · have notAmpersand : c ≠ '&' := by
      rintro rfl
      exact special (by decide)
    rw [htmlChar_of_notMem special, List.singleton_append, unescapeChars]
    all_goals
      intros
      contradiction

theorem toList_htmlEscape (text : String) :
    (htmlEscape text).toList = text.toList.flatMap htmlChar := by
  simp [htmlEscape]

theorem unescapeChars_flatMap (text : List Char) :
    unescapeChars (text.flatMap htmlChar) = text := by
  induction text with
  | nil => rfl
  | cons c rest ih => rw [List.flatMap_cons, unescapeChars_htmlChar, ih]

theorem htmlUnescape_htmlEscape (text : String) : htmlUnescape (htmlEscape text) = text := by
  rw [htmlUnescape, toList_htmlEscape, unescapeChars_flatMap, String.ofList_toList]

theorem notMem_of_mem_htmlChar {c written : Char} (member : written ∈ htmlChar c) :
    written ∉ ['<', '>', '\x22', '\x27'] := by
  by_cases special : c ∈ htmlSpecial
  · have checked : (htmlChar c).all (· ∉ ['<', '>', '\x22', '\x27']) = true := by
      simp only [htmlSpecial, List.mem_cons, List.not_mem_nil, or_false] at special
      rcases special with rfl | rfl | rfl | rfl | rfl <;> decide
    exact of_decide_eq_true (List.all_eq_true.mp checked written member)
  · rw [htmlChar_of_notMem special, List.mem_singleton] at member
    subst member
    exact fun bracket => special (List.mem_cons_of_mem _ bracket)

theorem notMem_of_mem_htmlEscape {text : String} {c : Char}
    (member : c ∈ (htmlEscape text).toList) :
    c ∉ ['<', '>', '\x22', '\x27'] := by
  rw [toList_htmlEscape] at member
  obtain ⟨original, -, written⟩ := List.mem_flatMap.mp member
  exact notMem_of_mem_htmlChar written

theorem htmlEscape_append (first second : String) :
    htmlEscape (first ++ second) = htmlEscape first ++ htmlEscape second := by
  simp [htmlEscape, String.ofList_append]

/-- Text without special characters is written as it stands. The text is given by its characters,
which is how a text that is written out here is matched without being decoded. -/
theorem htmlEscape_ofList {text : List Char} (plain : text.all (· ∉ htmlSpecial) = true) :
    htmlEscape (String.ofList text) = String.ofList text := by
  have copied : text.flatMap htmlChar = text := by
    rw [List.flatMap_congr fun c member =>
      htmlChar_of_notMem (of_decide_eq_true (List.all_eq_true.mp plain c member))]
    exact List.flatMap_singleton' _
  rw [htmlEscape, String.toList_ofList, copied]

theorem htmlEscape_join {texts : List String} (kept : ∀ text ∈ texts, htmlEscape text = text) :
    htmlEscape (String.join texts) = String.join texts := by
  induction texts with
  | nil => rfl
  | cons text rest ih =>
    rw [List.forall_mem_cons] at kept
    rw [String.join_cons, htmlEscape_append, kept.1, ih kept.2]

theorem htmlEscape_toString (number : Nat) : htmlEscape (toString number) = toString number := by
  rw [← String.ofList_toList (s := toString number)]
  apply htmlEscape_ofList
  rw [List.all_eq_true]
  intro c member
  refine decide_eq_true fun special => ?_
  rw [Nat.toString_eq_repr, Nat.toList_repr] at member
  have digit := Nat.isDigit_of_mem_toDigits (by decide) (by decide) member
  simp only [htmlSpecial, List.mem_cons, List.not_mem_nil, or_false] at special
  rcases special with rfl | rfl | rfl | rfl | rfl <;> revert digit <;> decide

/-! ## Tags -/

/-- A tag with its angle brackets, and the text between it and the next tag. -/
structure Tagged where
  tag : String
  text : String
  deriving DecidableEq, Repr

/-- The tag in front of its text, escaped. -/
def Tagged.written (element : Tagged) : String :=
  element.tag ++ htmlEscape element.text

def Tagged.unescaped (element : Tagged) : Tagged :=
  { element with text := htmlUnescape element.text }

/-- Cuts a text at its tags, from each `<` to the next `>`, into the text up to the first tag and
the tags. `inside` holds what has been read of a tag, newest character first; a tag that is not
closed is text. -/
def cutAtTags : Option (List Char) → List Char → List Char × List Tagged
  | none, [] => ([], [])
  | some inside, [] => (inside.reverse, [])
  | none, c :: rest =>
    if c = '<' then cutAtTags (some ['<']) rest
    else (c :: (cutAtTags none rest).1, (cutAtTags none rest).2)
  | some inside, c :: rest =>
    if c = '>' then
      ([], ⟨String.ofList (c :: inside).reverse, String.ofList (cutAtTags none rest).1⟩ ::
        (cutAtTags none rest).2)
    else cutAtTags (some (c :: inside)) rest

/-- The text of a document before its first tag. -/
def leadingText (document : String) : String :=
  String.ofList (cutAtTags none document.toList).1

/-- The tags of a document, each with the text behind it. -/
def taggedTexts (document : String) : List Tagged :=
  (cutAtTags none document.toList).2

/-- An opening bracket, and a closing one only at the end. -/
def isTag (tag : String) : Bool :=
  tag.toList.head? = some '<' && tag.toList.getLast? = some '>' &&
    !tag.toList.dropLast.contains '>'

theorem cutAtTags_text {text : List Char} (plain : ∀ c ∈ text, c ≠ '<') (rest : List Char) :
    cutAtTags none (text ++ rest) = (text ++ (cutAtTags none rest).1, (cutAtTags none rest).2) := by
  induction text with
  | nil => rfl
  | cons c text ih =>
    rw [List.forall_mem_cons] at plain
    simp [cutAtTags, plain.1, ih plain.2]

theorem cutAtTags_inside {inner : List Char} (unclosed : ∀ c ∈ inner, c ≠ '>')
    (inside rest : List Char) :
    cutAtTags (some inside) (inner ++ '>' :: rest) =
      ([], ⟨String.ofList (inside.reverse ++ inner ++ ['>']),
        String.ofList (cutAtTags none rest).1⟩ :: (cutAtTags none rest).2) := by
  induction inner generalizing inside with
  | nil => simp [cutAtTags]
  | cons c inner ih =>
    rw [List.forall_mem_cons] at unclosed
    simp [cutAtTags, unclosed.1, ih unclosed.2]

theorem exists_of_isTag {tag : String} (isTag : isTag tag = true) :
    ∃ inner, tag.toList = '<' :: (inner ++ ['>']) ∧ ∀ c ∈ inner, c ≠ '>' := by
  simp only [Report.isTag, Bool.and_eq_true, decide_eq_true_eq, Bool.not_eq_true',
    List.contains_eq_mem, decide_eq_false_iff_not] at isTag
  obtain ⟨⟨starts, ends⟩, once⟩ := isTag
  obtain ⟨body, split⟩ := List.getLast?_eq_some_iff.mp ends
  rw [split, List.dropLast_concat] at once
  cases body with
  | nil => simp [split] at starts
  | cons c inner =>
    rw [split, List.cons_append, List.head?_cons, Option.some.injEq] at starts
    subst starts
    refine ⟨inner, split, ?_⟩
    rintro _ member rfl
    exact once (List.mem_cons_of_mem _ member)

/-- Tags with escaped texts are read as they were written. -/
theorem cutAtTags_written {elements : List Tagged}
    (tags : ∀ element ∈ elements, isTag element.tag = true) :
    cutAtTags none (elements.flatMap fun element => element.written.toList) =
      ([], elements.map fun element => ⟨element.tag, htmlEscape element.text⟩) := by
  induction elements with
  | nil => rfl
  | cons element rest ih =>
    rw [List.forall_mem_cons] at tags
    obtain ⟨inner, isTag, once⟩ := exists_of_isTag tags.1
    have plain : ∀ c ∈ (htmlEscape element.text).toList, c ≠ '<' := by
      rintro _ member rfl
      exact notMem_of_mem_htmlEscape member (by decide)
    have opened : element.written.toList =
        '<' :: (inner ++ '>' :: (htmlEscape element.text).toList) := by
      simp [Tagged.written, isTag]
    have sameTag : String.ofList (['<'].reverse ++ inner ++ ['>']) = element.tag := by
      rw [← String.ofList_toList (s := element.tag), isTag]
      rfl
    rw [List.flatMap_cons, opened, List.cons_append, cutAtTags, if_pos rfl, List.append_assoc,
      List.cons_append, cutAtTags_inside once, cutAtTags_text plain, ih tags.2, sameTag]
    simp

/-! ## Reports -/

/-- The tags for a finding. -/
def rowTags (described : Bool) : List String :=
  ["<p class=\"lines\">", "<span>", "</span>", "</p>"] ++
    (if described then ["<p class=\"lines\">", "<span>", "</span>", "</p>"] else []) ++
    ["<div class=\"code\">", "<pre>", "</pre>", "</div>"]

/-- The tags of a report, given for each finding whether it is described. -/
def reportTags (described : List Bool) : List String :=
  ["<!DOCTYPE html>", "<html>", "<head>", "<meta charset=\"utf-8\">", "<title>", "</title>",
    "<style>", "</style>", "</head>", "<body>", "<h3>", "</h3>"] ++
    described.flatMap rowTags ++ ["</body>", "</html>"]

/-- What a report shows of a finding. -/
def rowTexts (finding : Finding) : List Tagged :=
  [⟨"<p class=\"lines\">", "Type "⟩, ⟨"<span>", finding.tag⟩,
    ⟨"</span>", ", Lines " ++ toString finding.node.span.startLine ++ " - " ++
      toString finding.node.span.endLine⟩, ⟨"</p>", "\n"⟩] ++
    (match finding.description with
    | some description =>
      [⟨"<p class=\"lines\">", ""⟩, ⟨"<span>", description⟩, ⟨"</span>", ""⟩, ⟨"</p>", "\n"⟩]
    | none => []) ++
    [⟨"<div class=\"code\">", ""⟩, ⟨"<pre>", Code.beautify finding.node.text⟩, ⟨"</pre>", ""⟩,
      ⟨"</div>", "\n"⟩]

/-- What a report shows. -/
def reportTexts (findings : List Finding) (filename : String) : List Tagged :=
  [⟨"<!DOCTYPE html>", "\n"⟩, ⟨"<html>", "\n"⟩, ⟨"<head>", "\n"⟩,
    ⟨"<meta charset=\"utf-8\">", "\n"⟩, ⟨"<title>", filename⟩, ⟨"</title>", "\n"⟩,
    ⟨"<style>", htmlStyle⟩, ⟨"</style>", "\n"⟩, ⟨"</head>", "\n"⟩, ⟨"<body>", "\n"⟩,
    ⟨"<h3>", "Functional pattern analysis of file " ++ filename⟩, ⟨"</h3>", "\n"⟩] ++
    findings.flatMap rowTexts ++ [⟨"</body>", "\n"⟩, ⟨"</html>", "\n"⟩]

theorem tag_rowTexts (finding : Finding) :
    (rowTexts finding).map Tagged.tag = rowTags finding.description.isSome := by
  unfold rowTexts rowTags
  cases finding.description <;> rfl

theorem tag_reportTexts (findings : List Finding) (filename : String) :
    (reportTexts findings filename).map Tagged.tag =
      reportTags (findings.map (·.description.isSome)) := by
  have rows : (findings.flatMap rowTexts).map Tagged.tag =
      (findings.map (·.description.isSome)).flatMap rowTags := by
    rw [List.map_flatMap, List.flatMap_map]
    exact List.flatMap_congr fun finding _ => tag_rowTexts finding
  simp [reportTexts, reportTags, rows]

theorem isTag_of_mem_reportTags (described : List Bool) {tag : String}
    (member : tag ∈ reportTags described) : isTag tag = true := by
  have rows : ∀ flag, ∀ tag ∈ rowTags flag, isTag tag = true := by decide
  simp only [reportTags, List.mem_append, List.mem_flatMap] at member
  rcases member with (outer | ⟨flag, -, inRow⟩) | outer
  · revert tag
    decide
  · exact rows flag tag inRow
  · revert tag
    decide

theorem htmlEscape_htmlStyle : htmlEscape htmlStyle = htmlStyle := by
  apply htmlEscape_join
  simp only [List.forall_mem_cons]
  refine ⟨?_, ?_, ?_, ?_, ?_, ?_, ?_, ?_, List.forall_mem_nil _⟩
  all_goals
    apply htmlEscape_ofList
    decide +kernel

theorem htmlEscape_lineBreak : htmlEscape "\n" = "\n" :=
  htmlEscape_ofList (by decide)

theorem htmlRow_eq (finding : Finding) :
    htmlRow finding = String.join ((rowTexts finding).map Tagged.written) := by
  have empty : htmlEscape "" = "" := htmlEscape_ofList (by decide)
  have kind : htmlEscape "Type " = "Type " := htmlEscape_ofList (by decide)
  have lines : htmlEscape ", Lines " = ", Lines " := htmlEscape_ofList (by decide)
  have dash : htmlEscape " - " = " - " := htmlEscape_ofList (by decide)
  have opening : "<p class=\"lines\">Type <span>" = "<p class=\"lines\">" ++ "Type " ++ "<span>" :=
    rfl
  have place : "</span>, Lines " = "</span>" ++ ", Lines " := rfl
  have closing : "</p>\n" = "</p>" ++ "\n" := rfl
  have described : "<p class=\"lines\"><span>" = "<p class=\"lines\">" ++ "<span>" := rfl
  have description : "</span></p>\n" = "</span>" ++ "</p>" ++ "\n" := rfl
  have code : "<div class=\"code\"><pre>" = "<div class=\"code\">" ++ "<pre>" := rfl
  have last : "</pre></div>\n" = "</pre>" ++ "</div>" ++ "\n" := rfl
  unfold htmlRow rowTexts
  cases finding.description <;>
    simp only [Finding.span, opening, place, closing, described, description, code, last,
      List.map_cons, List.map_nil, List.cons_append, List.nil_append, Tagged.written,
      htmlEscape_append, htmlEscape_toString, htmlEscape_lineBreak, empty, kind, lines, dash,
      String.join_cons, String.join_nil, String.append_assoc, String.append_empty]

theorem renderHtml_eq (findings : List Finding) (filename : String) :
    renderHtml findings filename =
      String.join ((reportTexts findings filename).map Tagged.written) := by
  have heading : htmlEscape "Functional pattern analysis of file " =
      "Functional pattern analysis of file " := htmlEscape_ofList (by decide +kernel)
  have start : "<!DOCTYPE html>\n<html>\n<head>\n<meta charset=\"utf-8\">\n<title>" =
      "<!DOCTYPE html>" ++ "\n" ++ "<html>" ++ "\n" ++ "<head>" ++ "\n" ++
        "<meta charset=\"utf-8\">" ++ "\n" ++ "<title>" := rfl
  have style : "</title>\n<style>" = "</title>" ++ "\n" ++ "<style>" := rfl
  have body : "</style>\n</head>\n<body>\n<h3>Functional pattern analysis of file " =
      "</style>" ++ "\n" ++ "</head>" ++ "\n" ++ "<body>" ++ "\n" ++ "<h3>" ++
        "Functional pattern analysis of file " := rfl
  have headed : "</h3>\n" = "</h3>" ++ "\n" := rfl
  have last : "</body>\n</html>\n" = "</body>" ++ "\n" ++ "</html>" ++ "\n" := rfl
  have rows : String.join (findings.map htmlRow) =
      String.join ((findings.flatMap rowTexts).map Tagged.written) := by
    induction findings with
    | nil => rfl
    | cons finding rest ih =>
      simp only [List.map_cons, String.join_cons, List.flatMap_cons, List.map_append,
        String.join_append, ih, htmlRow_eq]
  unfold renderHtml reportTexts
  simp only [start, style, body, headed, last, rows, List.map_cons, List.map_append, List.map_nil,
    List.cons_append, List.nil_append, Tagged.written, htmlEscape_append, htmlEscape_htmlStyle,
    htmlEscape_lineBreak, heading, String.join_cons, String.join_append, String.join_nil,
    String.append_assoc, String.append_empty]

/-- Reading a report at its tags gives the row it was written from, with the texts escaped. -/
theorem cutAtTags_renderHtml (findings : List Finding) (filename : String) :
    cutAtTags none (renderHtml findings filename).toList =
      ([], (reportTexts findings filename).map fun element =>
        ⟨element.tag, htmlEscape element.text⟩) := by
  have tags : ∀ element ∈ reportTexts findings filename, isTag element.tag = true := by
    intro element member
    apply isTag_of_mem_reportTags (findings.map (·.description.isSome))
    rw [← tag_reportTexts findings filename]
    exact List.mem_map_of_mem member
  rw [renderHtml_eq, ← cutAtTags_written tags, String.toList_join, List.flatMap_map]

/-- The tags of a report depend on how many findings there are and on which of them are described,
and on nothing else. The texts between them are, with their entities replaced, the tag, the
description and the code of each finding and the name of the file, as they were. -/
theorem renderHtml_reads_back (findings : List Finding) (filename : String) :
    leadingText (renderHtml findings filename) = "" ∧
    (taggedTexts (renderHtml findings filename)).map Tagged.tag =
      reportTags (findings.map (·.description.isSome)) ∧
    (taggedTexts (renderHtml findings filename)).map Tagged.unescaped =
      reportTexts findings filename ∧
    (∀ text, htmlUnescape (htmlEscape text) = text) ∧
    (∀ text, ∀ c ∈ (htmlEscape text).toList, c ∉ ['<', '>', '\x22', '\x27']) := by
  have read := cutAtTags_renderHtml findings filename
  have unescaped :
      (Tagged.unescaped ∘ fun element => ⟨element.tag, htmlEscape element.text⟩) = id := by
    funext element
    simp [Tagged.unescaped, htmlUnescape_htmlEscape]
  refine ⟨?_, ?_, ?_, htmlUnescape_htmlEscape, fun _ _ => notMem_of_mem_htmlEscape⟩
  · rw [leadingText, read]
  · rw [taggedTexts, read, List.map_map, ← tag_reportTexts findings filename]
    rfl
  · rw [taggedTexts, read, List.map_map, unescaped, List.map_id]

/-- A finding whose tag, description and code look like markup. -/
def lookalike : Finding where
  node := ⟨default, .identifier "a</pre><b>"⟩
  tag := "</span>"
  description := some "&lt;p&gt;"

theorem renderHtml_reads_back_lookalike :
    (taggedTexts (renderHtml [lookalike] "<h3>")).map Tagged.tag = reportTags [true] ∧
      ⟨"<span>", "&lt;p&gt;"⟩ ∈
        (taggedTexts (renderHtml [lookalike] "<h3>")).map Tagged.unescaped ∧
      '&' ∈ (htmlEscape "<").toList ∧ '&' ∉ ['<', '>', '\x22', '\x27'] := by
  obtain ⟨-, tags, texts, -, clean⟩ := renderHtml_reads_back [lookalike] "<h3>"
  have member : '&' ∈ (htmlEscape "<").toList := by decide
  refine ⟨tags, ?_, member, clean "<" '&' member⟩
  rw [texts]
  simp [reportTexts, rowTexts, lookalike]

end ScriptLint.Report
