/-
# The result protocol

Results are written line by line: the assignment of each solution, closed by a separator,
and then a line that says how the search ended. Lines that start with `%%` inform about the
model and the search.
-/

import StagedSearch.Model.Names
import StagedSearch.Output.Sink
import StagedSearch.Search.Listener

namespace StagedSearch

namespace Protocol

/-- Closes the assignment of a solution. -/
def separator : String := "----------"

/-- A value, or the domain of a variable that is not decided. -/
def renderVariable (s : Store) (var : VarId) : String :=
  match s.value? var, s.declaration? var, s.domains.get? var with
  | some value, _, _ => value.render
  | none, some ⟨_, .bool⟩, _ => "false..true"
  | none, _, some domain => domain.render
  | none, _, none => "?"

def nameOf (s : Store) (var : VarId) : String :=
  match s.declaration? var with
  | some v => v.name
  | none => "?"

/-- The line of a single output variable; arrays come later. -/
def singleLine (s : Store) : OutputItem → String
  | .single var => nameOf s var ++ " = " ++ renderVariable s var ++ ";\n"
  | .array _ _ => ""

/-- The line of an output array; single variables came before. -/
def arrayLine (s : Store) : OutputItem → String
  | .single _ => ""
  | .array name vars =>
    name ++ s!" = array1d(1..{vars.length}, [" ++
      ", ".intercalate (vars.map (renderVariable s)) ++ "]);\n"

/-- The assignment that the store holds: single variables, arrays, and the separator. -/
def assignment (names : Names) (s : Store) : String :=
  String.join (names.outputs.map (singleLine s)) ++
    String.join (names.outputs.map (arrayLine s)) ++ separator ++ "\n"

def header (s : Store) (goal : String) : String :=
  let booleans := s.declarations.toList.countP (·.kind == .bool)
  "%% Model constraints defined.\n" ++
    s!"%% Variables = {s.size}, Bool variables = {booleans}, " ++
    s!"Constraints = {s.constraints.length}\n" ++ "%% " ++ goal ++ "\n"

/-- The line about the variables of one kind that no hint claims. -/
def completionLine (s : Store) (sets : List (VarKind × List VarId)) (kind : VarKind)
    (label : String) : String :=
  let vars := (sets.filter (·.1 = kind)).flatMap Prod.snd
  "%% default " ++ label ++ " search variables = [" ++
    ", ".intercalate (vars.map fun var => nameOf s var ++ " = " ++ renderVariable s var) ++ "]\n"

/-- The variables that no hint claims, a line per kind. -/
def completion (s : Store) (sets : List (VarKind × List VarId)) : String :=
  completionLine s sets .int "int" ++ completionLine s sets .bool "boolean" ++
    completionLine s sets .set "set"

def goalLine (spec : SearchSpec) (s : Store) : String :=
  let cost :=
    match spec.cost with
    | some var => nameOf s var
    | none => "?"
  match spec.goal with
  | .satisfy => "satisfy"
  | .minimize => s!"minimize({cost}) "
  | .maximize => s!"maximize({cost}) "

/-- The lines that tell how a search ended. A solution that was reported speaks for itself. -/
def statusLines (status : SearchStatus) (found : Bool) : List String :=
  match status with
  | .exhausted => ["=========="]
  | .unsatisfiable => ["=====UNSATISFIABLE====="]
  | .unknown => ["=====UNKNOWN====="]
  | .timedOut => (if found then [] else ["=====UNKNOWN====="]) ++ ["%% =====TIME-OUT====="]
  | .trivial => []
  | .satisfied => []
  | .limitReached => []
  | .incomplete => []

def writeLine (text : String) : Writing Unit := Sink.write (text ++ "\n")

def writeLines : List String → Writing Unit
  | [] => pure ()
  | text :: rest => do
    writeLine text
    writeLines rest

def writeSolution (names : Names) (s : Store) : Writing Unit := do
  Sink.write (assignment names s)
  Sink.flush

end Protocol

structure ProtocolReporter where
  names : Names
  sink : Sink
deriving Inhabited

instance : Reporter ProtocolReporter where
  report reporter s _ :=
    match Protocol.writeSolution reporter.names s reporter.sink with
    | .ok _ sink => (none, { reporter with sink })
    | .error fault sink => (some fault, { reporter with sink })

end StagedSearch
