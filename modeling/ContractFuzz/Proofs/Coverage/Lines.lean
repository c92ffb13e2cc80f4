import ContractFuzz.LineCoverage
import Mathlib.Data.List.Nodup

namespace ContractFuzz

namespace SourceSpan

variable {span : SourceSpan} {name : String} {number : Nat}

def covers (span : SourceSpan) (name : String) (number : Nat) : Bool :=
  span.filename == name && (span.startLine ≤ number && number ≤ span.endLine)

theorem covers_iff : span.covers name number = true ↔
    span.filename = name ∧ span.startLine ≤ number ∧ number ≤ span.endLine := by
  simp [covers]

theorem covers_of_ne (h : span.filename ≠ name) : span.covers name number = false := by
  simp [covers, h]

end SourceSpan

namespace SourceFile

variable {spans : List SourceSpan} {span : SourceSpan} {text : String} {file : SourceFile}

theorem ite_starLine (executed : Bool) (line : String) :
    (if executed then starLine line else line) =
      if executed && !Text.startsWith line "*" then "*" ++ line else line := by
  rw [starLine]
  cases executed with
  | false => rfl
  | true => cases Text.startsWith line "*" <;> rfl

theorem starLine_starLine (line : String) : starLine (starLine line) = starLine line := by
  have hstarred : Text.startsWith (starLine line) "*" = true := by
    rw [starLine]
    split
    · assumption
    · exact Text.startsWith_iff.mpr ⟨line, rfl⟩
  exact if_pos hstarred

theorem getElem?_starRange (start stop : Nat) (lines : List String) (index : Nat) :
    (starRange start stop lines)[index]? = lines[index]?.map fun line =>
      if start ≤ index ∧ index < stop then starLine line else line := by
  induction lines generalizing start stop index with
  | nil => simp [starRange]
  | cons line rest ih =>
      -- A range that ends before it starts has no lines.
      cases stop with
      | zero => simp [starRange]
      | succ stop =>
          cases start with
          | zero =>
              cases index with
              | zero => simp [starRange]
              | succ index => simpa [starRange] using ih 0 stop index
          | succ start =>
              cases index with
              | zero => simp [starRange]
              | succ index => simpa [starRange] using ih start stop index

/-- A file has the lines of a text, with a star in front of those that some spans cover. -/
def Marks (file : SourceFile) (text : String) (spans : List SourceSpan) : Prop :=
  ∀ index : Nat, file.lines[index]? = (linesFrom [] text.toList)[index]?.map fun line =>
    if spans.any (·.covers file.name (index + 1)) then starLine line else line

theorem marks_ofText {name : String} (h : ∀ span ∈ spans, span.filename ≠ name) :
    (ofText name text).Marks text spans := by
  intro index
  have hnone : spans.any (·.covers name (index + 1)) = false := by
    rw [List.any_eq_false]
    intro span hspan
    rw [SourceSpan.covers_of_ne (h span hspan)]
    exact Bool.false_ne_true
  simp only [ofText, hnone]
  exact Option.map_id'.symm

theorem Marks.mark (h : file.Marks text spans) (hname : file.name = span.filename) :
    (file.mark span).Marks text (spans ++ [span]) := by
  intro index
  have hbefore := h index
  simp only [SourceFile.mark, getElem?_starRange]
  rw [hbefore]
  cases hline : (linesFrom [] text.toList)[index]? with
  | none => rfl
  | some line =>
      rw [hline] at hbefore
      obtain ⟨hlength, -⟩ := List.getElem?_eq_some_iff.mp hbefore
      have hrange : (span.startLine - 1 ≤ index ∧ index < min span.endLine file.lines.length) ↔
          span.covers file.name (index + 1) = true := by
        rw [SourceSpan.covers_iff, hname, eq_self_iff_true, true_and, Nat.lt_min]
        omega
      simp only [Option.map_some, hrange, List.any_append, List.any_cons, List.any_nil,
        Bool.or_false, Bool.or_eq_true]
      -- The line has been starred for an earlier span, or is starred for this one, or for both.
      by_cases hearlier : spans.any (·.covers file.name (index + 1)) = true
      · simp only [hearlier, if_true, true_or, starLine_starLine, ite_self]
      · simp only [hearlier, if_false, Bool.false_eq_true, false_or]

theorem Marks.skip (h : file.Marks text spans) (hname : file.name ≠ span.filename) :
    file.Marks text (spans ++ [span]) := by
  intro index
  simp [h index, SourceSpan.covers_of_ne (Ne.symm hname)]

end SourceFile

namespace LineCoverage

/-- A source file that can be read and was not made by the compiler. -/
def IsShown (sources : String → Option String) (name : String) : Prop :=
  Text.startsWith name "autogen/" = false ∧ ∃ text, sources name = some text

def names (report : LineCoverage) : List String := report.files.map SourceFile.name

/-- A report of some spans has their files, as far as these are shown, and marks the lines in them
that the spans cover. -/
structure Shows (sources : String → Option String) (spans : List SourceSpan)
    (report : LineCoverage) : Prop where
  nodup : report.names.Nodup
  names : ∀ name, name ∈ report.names ↔
    (∃ span ∈ spans, span.filename = name) ∧ IsShown sources name
  unreadable : ∀ name ∈ report.unreadable, sources name = none
  marks : ∀ file ∈ report.files, ∃ text, sources file.name = some text ∧ file.Marks text spans

variable {sources : String → Option String} {earlier spans : List SourceSpan} {span : SourceSpan}
  {report : LineCoverage} {text : String}

theorem shows_empty : Shows sources [] empty where
  nodup := List.nodup_nil
  names := by simp [empty, LineCoverage.names]
  unreadable := by simp [empty]
  marks := by simp [empty]

theorem contains_iff {name : String} : report.contains name = true ↔ name ∈ report.names := by
  simp [contains, LineCoverage.names]

theorem names_mark : (report.mark span).names = report.names := by
  simp only [LineCoverage.names, mark, List.map_map]
  apply List.map_congr_left
  intro file _
  rw [Function.comp_apply]
  split <;> rfl

theorem exists_span_concat {name : String} :
    (∃ other ∈ spans ++ [span], other.filename = name) ↔
      (∃ other ∈ spans, other.filename = name) ∨ span.filename = name := by
  simp [or_and_right, exists_or]

theorem Shows.skip (h : Shows sources spans report) (hspan : ¬IsShown sources span.filename) :
    Shows sources (spans ++ [span]) report where
  nodup := h.nodup
  names name := by
    rw [h.names, exists_span_concat]
    constructor
    · rintro ⟨hname, hshown⟩
      exact ⟨.inl hname, hshown⟩
    · rintro ⟨hname | rfl, hshown⟩
      · exact ⟨hname, hshown⟩
      · exact absurd hshown hspan
  unreadable := h.unreadable
  marks file hfile := by
    obtain ⟨text, hread, hmarks⟩ := h.marks file hfile
    refine ⟨text, hread, hmarks.skip ?_⟩
    intro hname
    have hshown := ((h.names file.name).mp (List.mem_map_of_mem hfile)).2
    rw [hname] at hshown
    exact hspan hshown

theorem Shows.mark (h : Shows sources spans report) (hspan : span.filename ∈ report.names) :
    Shows sources (spans ++ [span]) (report.mark span) where
  nodup := by
    rw [names_mark]
    exact h.nodup
  names name := by
    rw [names_mark, h.names, exists_span_concat]
    constructor
    · rintro ⟨hname, hshown⟩
      exact ⟨.inl hname, hshown⟩
    · rintro ⟨hname | rfl, hshown⟩
      · exact ⟨hname, hshown⟩
      · exact (h.names _).mp hspan
  unreadable := h.unreadable
  marks file hfile := by
    obtain ⟨before, hbefore, rfl⟩ := List.mem_map.mp hfile
    obtain ⟨text, hread, hmarks⟩ := h.marks before hbefore
    split
    · rename_i hname
      exact ⟨text, hread, hmarks.mark (beq_iff_eq.mp hname)⟩
    · rename_i hname
      exact ⟨text, hread, hmarks.skip fun heq => hname (beq_iff_eq.mpr heq)⟩

theorem names_add {file : SourceFile} :
    names { report with files := report.files ++ [file] } = report.names ++ [file.name] :=
  List.map_append

theorem Shows.add (h : Shows sources spans report) (hspan : span.filename ∉ report.names)
    (hplain : Text.startsWith span.filename "autogen/" = false)
    (hread : sources span.filename = some text) :
    Shows sources (spans ++ [span]) { report with
      files := report.files ++ [(SourceFile.ofText span.filename text).mark span] } where
  nodup := by
    rw [names_add, ← List.concat_eq_append]
    exact List.Nodup.concat hspan h.nodup
  names name := by
    rw [names_add, List.mem_append, h.names, exists_span_concat, List.mem_singleton]
    constructor
    · rintro (⟨hname, hshown⟩ | rfl)
      · exact ⟨.inl hname, hshown⟩
      · exact ⟨.inr rfl, hplain, text, hread⟩
    · rintro ⟨hname | rfl, hshown⟩
      · exact .inl ⟨hname, hshown⟩
      · exact .inr rfl
  unreadable := h.unreadable
  marks file hfile := by
    have hnew : ∀ other ∈ spans, other.filename ≠ span.filename := by
      intro other hother hname
      exact hspan ((h.names _).mpr ⟨⟨other, hother, hname⟩, hplain, text, hread⟩)
    rcases List.mem_append.mp hfile with hfile | hfile
    · obtain ⟨text, hread, hmarks⟩ := h.marks file hfile
      refine ⟨text, hread, hmarks.skip ?_⟩
      intro hname
      exact hspan (List.mem_map.mpr ⟨file, hfile, hname⟩)
    · rw [List.mem_singleton.mp hfile]
      exact ⟨text, hread, (SourceFile.marks_ofText hnew).mark rfl⟩

theorem shows_visitSpan {state : LineCoverage × Log} (h : Shows sources spans state.1)
    (span : SourceSpan) : Shows sources (spans ++ [span]) (visitSpan sources state span).1 := by
  rw [visitSpan]
  split
  · rename_i hskip
    apply h.skip
    rintro ⟨hplain, text, hread⟩
    rw [SourceSpan.isGenerated, hplain, Bool.false_or, List.contains_iff_mem] at hskip
    rw [h.unreadable _ hskip] at hread
    cases hread
  rename_i hread
  rw [Bool.or_eq_true, not_or] at hread
  obtain ⟨hplain, -⟩ := hread
  split
  · rename_i hcontains
    exact h.mark (contains_iff.mp hcontains)
  rename_i hcontains
  split
  · rename_i text hread
    refine h.add ?_ (Bool.eq_false_iff.mpr hplain) hread
    intro hname
    exact hcontains (contains_iff.mpr hname)
  · rename_i hread
    -- The file is noted as unreadable, and none that can be read ever is: it is skipped for good.
    have hskip : Shows sources (spans ++ [span]) state.1 := by
      apply h.skip
      rintro ⟨-, text, hsome⟩
      rw [hread] at hsome
      cases hsome
    refine ⟨hskip.nodup, hskip.names, ?_, hskip.marks⟩
    intro name hname
    rcases List.mem_append.mp hname with hname | hname
    · exact h.unreadable name hname
    · rw [List.mem_singleton.mp hname, hread]

theorem shows_foldl {state : LineCoverage × Log} (h : Shows sources earlier state.1)
    (spans : List SourceSpan) :
    Shows sources (earlier ++ spans) (spans.foldl (visitSpan sources) state).1 := by
  induction spans generalizing earlier state with
  | nil =>
      rw [List.append_nil]
      exact h
  | cons span rest ih =>
      rw [List.append_cons]
      exact ih (shows_visitSpan h span)

/-- The spans that all executed addresses come from, as far as the contracts are known. -/
def executedSpans (coverage : Coverage) (classes : ClassTable) : List SourceSpan :=
  coverage.addresses.entries.flatMap fun entry => (spans? coverage classes entry).getD []

variable {coverage : Coverage} {classes : ClassTable}

theorem shows_visitInstance {state : LineCoverage × Log} (h : Shows sources earlier state.1)
    (entry : InstanceId × SortedSet Nat) :
    Shows sources (earlier ++ (spans? coverage classes entry).getD [])
      (visitInstance sources coverage classes state entry).1 := by
  rw [visitInstance]
  split
  · rename_i spans hspans
    rw [hspans]
    exact shows_foldl h spans
  · rename_i hspans
    rw [hspans, Option.getD_none, List.append_nil]
    exact h

theorem shows_visitInstances {state : LineCoverage × Log} (h : Shows sources earlier state.1)
    (entries : List (InstanceId × SortedSet Nat)) :
    Shows sources
      (earlier ++ entries.flatMap fun entry => (spans? coverage classes entry).getD [])
      (entries.foldl (visitInstance sources coverage classes) state).1 := by
  induction entries generalizing earlier state with
  | nil =>
      rw [List.flatMap_nil, List.append_nil]
      exact h
  | cons entry rest ih =>
      rw [List.flatMap_cons, ← List.append_assoc]
      exact ih (shows_visitInstance h entry)

theorem shows_build (sources : String → Option String) (coverage : Coverage)
    (classes : ClassTable) :
    Shows sources (executedSpans coverage classes) (build sources coverage classes).1 := by
  have hstart : Shows sources [] ((empty, []) : LineCoverage × Log).1 := shows_empty
  exact shows_visitInstances hstart coverage.addresses.entries

/-- An instance with a known contract has executed an address that comes from a span. -/
def Executed (coverage : Coverage) (classes : ClassTable) (span : SourceSpan) : Prop :=
  ∃ holder classHash artifact address, coverage.classOf? holder = some classHash ∧
    classes.get? classHash = some artifact ∧ address ∈ coverage.covered holder ∧
    span ∈ artifact.sourceSpans address

theorem mem_covered_iff {holder : InstanceId} {address : Nat} :
    address ∈ coverage.covered holder ↔
      ∃ addresses, (holder, addresses) ∈ coverage.addresses.entries ∧ address ∈ addresses := by
  simp only [← SortedMap.get?_eq_some_iff, Coverage.covered]
  cases coverage.addresses.get? holder with
  | none =>
      simp only [Option.getD_none]
      constructor
      · intro h
        cases h
      · rintro ⟨addresses, h, -⟩
        cases h
  | some addresses => simp

theorem mem_spans?_iff {holder : InstanceId} {addresses : SortedSet Nat} :
    span ∈ (spans? coverage classes (holder, addresses)).getD [] ↔
      ∃ classHash artifact, coverage.classOf? holder = some classHash ∧
        classes.get? classHash = some artifact ∧
        ∃ address ∈ addresses, span ∈ artifact.sourceSpans address := by
  rw [spans?]
  cases coverage.classOf? holder with
  | none => simp
  | some classHash =>
      cases hartifact : classes.get? classHash with
      | none => simp [hartifact]
      | some artifact => simp [hartifact, SortedSet.mem_toList]

theorem mem_executedSpans :
    span ∈ executedSpans coverage classes ↔ Executed coverage classes span := by
  simp only [executedSpans, List.mem_flatMap, Prod.exists, mem_spans?_iff, Executed,
    mem_covered_iff]
  constructor
  · rintro ⟨holder, addresses, hentry, classHash, artifact, hclass, hartifact, address, haddress,
      hspan⟩
    exact ⟨holder, classHash, artifact, address, hclass, hartifact, ⟨addresses, hentry, haddress⟩,
      hspan⟩
  · rintro ⟨holder, classHash, artifact, address, hclass, hartifact, ⟨addresses, hentry, haddress⟩,
      hspan⟩
    exact ⟨holder, addresses, hentry, classHash, artifact, hclass, hartifact, address, haddress,
      hspan⟩

/-- Some executed address comes from a line of a file. -/
def ExecutesLine (coverage : Coverage) (classes : ClassTable) (name : String) (number : Nat) :
    Prop :=
  ∃ span, Executed coverage classes span ∧ span.filename = name ∧
    span.startLine ≤ number ∧ number ≤ span.endLine

theorem any_covers_iff {name : String} {number : Nat} :
    (executedSpans coverage classes).any (·.covers name number) = true ↔
      ExecutesLine coverage classes name number := by
  simp only [List.any_eq_true, mem_executedSpans, SourceSpan.covers_iff, ExecutesLine]

/-- A report has each file that executed addresses lead to, if it is shown, once. In it the lines
that were executed have a star in front, except for those that begin with one already; all others
are as in the source. -/
theorem build_stars (sources : String → Option String) (coverage : Coverage) (classes : ClassTable) :
    (build sources coverage classes).1.names.Nodup ∧
    (∀ name, name ∈ (build sources coverage classes).1.names ↔
      (∃ span, Executed coverage classes span ∧ span.filename = name) ∧ IsShown sources name) ∧
    ∀ file ∈ (build sources coverage classes).1.files, ∃ text, sources file.name = some text ∧
      ∀ index : Nat, ∃ executed : Bool,
        (executed = true ↔ ExecutesLine coverage classes file.name (index + 1)) ∧
        file.lines[index]? =
          (SourceFile.linesFrom [] text.toList)[index]?.map fun line =>
            if executed && !Text.startsWith line "*" then "*" ++ line else line := by
  have hshows := shows_build sources coverage classes
  refine ⟨hshows.nodup, ?_, ?_⟩
  · intro name
    simp only [hshows.names, mem_executedSpans]
  · intro file hfile
    obtain ⟨text, hread, hmarks⟩ := hshows.marks file hfile
    refine ⟨text, hread, ?_⟩
    intro index
    refine ⟨_, any_covers_iff, ?_⟩
    rw [hmarks index]
    simp only [SourceFile.ite_starLine]

/-- A product broken over two lines, the second of which begins with the operator. -/
def areaLines : List String := ["let area = (width\n", "* height);\n", "return (area);\n"]

def areaSources (name : String) : Option String :=
  if name = "area.cairo" then some (String.join areaLines) else none

def areaArtifact : Artifact where
  abi := []
  debugInfo := some ⟨.ofList [(0, ⟨some "area.cairo", 1, 2, none⟩)]⟩
  diagnostics := []
  raw := .null

def areaClasses : ClassTable := .ofList [(7, areaArtifact)]

def areaCoverage : Coverage := ((Coverage.empty.link 1 7).update 1 [0]).2

def areaFile : SourceFile where
  name := "area.cairo"
  lines := ["*let area = (width\n", "* height);\n", "return (area);\n"]

theorem files_area : (build areaSources areaCoverage areaClasses).1.files = [areaFile] := by
  decide +kernel

theorem build_stars_area :
    ExecutesLine areaCoverage areaClasses "area.cairo" 1 ∧
    ¬ExecutesLine areaCoverage areaClasses "area.cairo" 3 := by
  obtain ⟨-, -, hstars⟩ := build_stars areaSources areaCoverage areaClasses
  have hmem : areaFile ∈ (build areaSources areaCoverage areaClasses).1.files := by
    rw [files_area]
    exact List.mem_singleton_self areaFile
  obtain ⟨text, hread, hlines⟩ := hstars areaFile hmem
  obtain rfl : String.join areaLines = text := Option.some.inj hread
  constructor
  · obtain ⟨executed, hexecuted, hline⟩ := hlines 0
    apply hexecuted.mp
    cases executed with
    | true => rfl
    | false => exact absurd hline (by decide +kernel)
  · obtain ⟨executed, hexecuted, hline⟩ := hlines 2
    intro h
    cases hexecuted.mpr h
    exact absurd hline (by decide +kernel)

/-- The second line of the product was executed, and has no star but its own. -/
theorem area_unstarred :
    ExecutesLine areaCoverage areaClasses "area.cairo" 2 ∧
    areaFile ∈ (build areaSources areaCoverage areaClasses).1.files ∧
    areaSources areaFile.name = some (String.join areaLines) ∧
    (SourceFile.linesFrom [] (String.join areaLines).toList)[1]? = some "* height);\n" ∧
    areaFile.lines[1]? = some "* height);\n" ∧
    areaFile.lines[1]? ≠ some ("*" ++ "* height);\n") := by
  refine ⟨?_, ?_, rfl, by decide +kernel, by decide +kernel, by decide +kernel⟩
  · refine ⟨⟨"area.cairo", 1, 2⟩, ?_, rfl, by decide, by decide⟩
    refine ⟨1, 7, areaArtifact, 0, rfl, rfl, ?_, ?_⟩
    · rw [← SortedSet.mem_toList]
      decide +kernel
    · decide
  · rw [files_area]
    exact List.mem_singleton_self areaFile

end LineCoverage

end ContractFuzz
