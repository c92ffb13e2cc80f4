import ContractFuzz.Artifact.ClassTable
import ContractFuzz.Coverage
import ContractFuzz.Log
import ContractFuzz.Text.Front

namespace ContractFuzz

structure SourceFile where
  name : String
  /-- With their line breaks, which the last line of a file may not have. -/
  lines : List String
  deriving DecidableEq, Repr, Inhabited

namespace SourceFile

/-- The lines of a text, of which `front`, the last character first, has been read. -/
def linesFrom (front : List Char) : List Char → List String
  | [] => if front.isEmpty then [] else [String.ofList front.reverse]
  | '\n' :: rest => String.ofList ('\n' :: front).reverse :: linesFrom [] rest
  | c :: rest => linesFrom (c :: front) rest

/-- A file of which nothing has been executed. -/
def ofText (name text : String) : SourceFile := ⟨name, linesFrom [] text.toList⟩

/-- Put a star in front of a line, unless it begins with one. -/
def starLine (line : String) : String := if Text.startsWith line "*" then line else "*" ++ line

/-- Star the lines before `stop`, except for those before `start`. -/
def starRange (start stop : Nat) (lines : List String) : List String :=
  (lines.take stop).take start ++ ((lines.take stop).drop start).map starLine ++ lines.drop stop

/-- Star the lines of a span, as far as the file has them. Spans count lines from one. -/
def mark (span : SourceSpan) (file : SourceFile) : SourceFile :=
  let start := span.startLine - 1
  let stop := min span.endLine file.lines.length
  { file with lines := starRange start stop file.lines }

def render (file : SourceFile) : String := "\n" ++ file.name ++ "\n" ++ String.join file.lines

end SourceFile

/-- Whether a file is generated by the compiler, so that its lines mean nothing to a reader. -/
def SourceSpan.isGenerated (span : SourceSpan) : Bool := Text.startsWith span.filename "autogen/"

structure LineCoverage where
  /-- In the order in which the addresses lead to them. -/
  files : List SourceFile
  /-- Files that the addresses lead to but that cannot be read. -/
  unreadable : List String
  deriving Inhabited

namespace LineCoverage

def empty : LineCoverage := ⟨[], []⟩

def isEmpty (report : LineCoverage) : Bool := report.files.isEmpty

def contains (report : LineCoverage) (name : String) : Bool :=
  report.files.any fun file => file.name == name

/-- Mark the lines of a span in its file. -/
def mark (span : SourceSpan) (report : LineCoverage) : LineCoverage :=
  { report with
    files := report.files.map fun file =>
      if file.name == span.filename then file.mark span else file }

/-- Take in a span of executed lines. A file that is not there yet is read, once. -/
def visitSpan (sources : String → Option String) (state : LineCoverage × Log)
    (span : SourceSpan) : LineCoverage × Log :=
  let (report, log) := state
  if span.isGenerated || report.unreadable.contains span.filename then (report, log)
  else if report.contains span.filename then (report.mark span, log)
  else
    match sources span.filename with
    | some text =>
        ({ report with
            files := report.files ++ [(SourceFile.ofText span.filename text).mark span] }, log)
    | none =>
        ({ report with unreadable := report.unreadable ++ [span.filename] },
          log ++ [Log.warn "cannot read source file"])

/-- The spans that the executed addresses of an instance come from, if its contract is known. -/
def spans? (coverage : Coverage) (classes : ClassTable) (entry : InstanceId × SortedSet Nat) :
    Option (List SourceSpan) := do
  let classHash ← coverage.classOf? entry.1
  let artifact ← classes.get? classHash
  return entry.2.toList.flatMap artifact.sourceSpans

/-- Take in what an instance has executed. -/
def visitInstance (sources : String → Option String) (coverage : Coverage) (classes : ClassTable)
    (state : LineCoverage × Log) (entry : InstanceId × SortedSet Nat) : LineCoverage × Log :=
  match spans? coverage classes entry with
  | some spans => spans.foldl (visitSpan sources) state
  | none => (state.1, state.2 ++ [Log.warn "no program known for covered instance"])

/-- The report of a coverage, from instances to addresses in ascending order. -/
def build (sources : String → Option String) (coverage : Coverage) (classes : ClassTable) :
    LineCoverage × Log :=
  coverage.addresses.entries.foldl (visitInstance sources coverage classes) (empty, [])

/-- The names of the files that a report needs to read. -/
def fileNames (coverage : Coverage) (classes : ClassTable) : List String :=
  (build (fun _ => none) coverage classes).1.unreadable

def render (report : LineCoverage) : String := String.join (report.files.map SourceFile.render)

/-- The name of the file a report is written to, by the time in seconds. -/
def fileName (seconds : Nat) : String := s!"covered.{seconds}.txt"

end LineCoverage

end ContractFuzz
