import ScriptTree.Document.Parse
import ScriptTree.Evaluation.Evaluate
import ScriptTree.Evaluation.Report

/-!
# Running a document

`Runner.run` is the whole program as a function: from what is found in the place of the input document to the text on the
two output streams and the exit code. What the script wrote before it failed is part of the output.
-/

namespace ScriptTree.Runner

/-- What is found where the input document should be. -/
inductive Input where
  | missing
  | bytes (content : ByteArray)

/-- What a run shows. -/
structure Outcome where
  exitCode : UInt32
  output : String
  errors : String

/-- The outcome of a run that ends with a message. -/
def failed (output message : String) : Outcome := ⟨1, output, message ++ "\n"⟩

/-- The console's lines as text. -/
def lineText (lines : Array String) : String := String.join (lines.toList.map (· ++ "\n"))

/-- Runs a document's text. -/
def runText (source : String) : Outcome :=
  match Document.parse Document.defaultName source with
  | .error error => failed "" error.message
  | .ok program =>
    match program.evaluate ⟨defaultMaxDepth, Host.silent⟩ .initial with
    | .ok _ s => ⟨0, lineText s.lines, ""⟩
    | .error error s => failed (lineText s.lines) error.report

/-- Runs what is found in the place of the input document. -/
def run : Input → Outcome
  | .missing => failed "" ("failed to read " ++ Document.defaultName ++ ": No such file or directory (os error 2)")
  | .bytes content =>
    match String.fromUTF8? content with
    | some source => runText source
    | none => failed "" ("failed to read " ++ Document.defaultName ++ ": stream did not contain valid UTF-8")

end ScriptTree.Runner
