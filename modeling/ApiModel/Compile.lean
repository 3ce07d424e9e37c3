import ApiModel.Analysis
import ApiModel.FileStore
import ApiModel.Schema.Generate

/-!
# Compilation

From declarations to a schema, in memory or between files.
-/

namespace ApiModel

open Schema (Config SchemaError Generated)

/-- Why a schema isn't written to a file. -/
inductive OutputError where
  | schema (error : SchemaError)
  | file (path : Path) (fault : FileFault)
deriving DecidableEq, Repr

def OutputError.message : OutputError → String
  | schema error => error.message
  | file path fault => s!"can't access '{path.toString}': {fault.message}"

inductive CompileError where
  | analysis (error : AnalysisError)
  | output (error : OutputError)
deriving DecidableEq, Repr

def CompileError.message : CompileError → String
  | analysis error => s!"analysis failed: {error.message}"
  | output error => s!"schema generation failed: {error.message}"

structure Compilation where
  model : Model
  schema : String
  diagnostics : List Diagnostic

/-- Analyzes `decls` and generates their schema in the document `base`. -/
def compile (decls : List Declaration) (base : String) : Except CompileError Compilation := do
  let analysis ← (analyze decls).mapError .analysis
  let generated ← (Schema.generate {} analysis.model base).mapError fun e => .output (.schema e)
  return {
    model := analysis.model
    schema := generated.xml
    diagnostics := analysis.diagnostics ++ generated.diagnostics }

/-! ## Files -/

/-- Works on a `FileStore` and may fail; a failure keeps the files as they are at that point. -/
abbrev Output (ε : Type) := ExceptT ε (StateM FileStore)

namespace Output

/-- Names the `path` that an action failed for. -/
def onPath (path : Path) (action : FileStore.Action Unit) : Output OutputError Unit :=
  action.adapt (OutputError.file path)

/-- The text of a file; bytes that aren't UTF-8 are no text. -/
def readText (fs : FileStore) (path : Path) : Except OutputError String :=
  match fs.read path with
  | .error fault => .error (.file path fault)
  | .ok content =>
    match String.fromUTF8? content with
    | some text => .ok text
    | none => .error (.file path .notText)

end Output

/-- Generates the schema of `m` in the document at `basePath` and writes it to `outPath`, making the
folders it lies in. -/
def generateToFile (cfg : Config) (m : Model) (basePath outPath : Path) :
    Output OutputError (List Diagnostic) := do
  let base ← (Output.readText (← get) basePath : Except OutputError String)
  let generated ← ((Schema.generate cfg m base).mapError .schema : Except OutputError Generated)
  match outPath.parent? with
  | none => pure ()
  | some parent => Output.onPath parent (FileStore.makeFolders parent)
  Output.onPath outPath (FileStore.write outPath generated.xml.toUTF8)
  return generated.diagnostics

/-- Compiles `decls` with the document at `basePath` and writes the schema to `outPath`. -/
def compileToFile (decls : List Declaration) (basePath outPath : Path) :
    Output CompileError (List Diagnostic) := do
  let analysis ← ((analyze decls).mapError .analysis : Except CompileError Analysis)
  let diagnostics ← (generateToFile {} analysis.model basePath outPath).adapt .output
  return analysis.diagnostics ++ diagnostics

end ApiModel
