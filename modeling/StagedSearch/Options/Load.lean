/-
# Loading options

Options are read from a TOML or a YAML text. An option that the text does not name keeps its
default, and other keys are passed over. A value of another type, or out of range, makes the
whole text unreadable.
-/

import StagedSearch.Options.Basic
import StagedSearch.Options.Toml.Document
import StagedSearch.Options.Yaml.Document

namespace StagedSearch

namespace Toml

/-- What stands under a key of a table, read by `read`, or else the default. -/
def field {α : Type} (read : Entry → Option α) (default : α) (key : String) (t : Table) :
    Option α :=
  match t.lookup key with
  | none => some default
  | some entry => read entry

def boolean? : Entry → Option Bool
  | .value (.boolean b) => some b
  | _ => none

def integer? : Entry → Option Int
  | .value (.integer n) => some n
  | _ => none

/-- A number that is not negative. -/
def seed? : Entry → Option (Option Nat)
  | .value (.integer n) => if 0 ≤ n then some (some n.toNat) else none
  | _ => none

end Toml

namespace Yaml

/-- The text of a scalar that may stand for a value other than a text: a plain one, or a
literal block whose tag says so. -/
def Scalar.valueText? (type : String) (s : Scalar) : Option String :=
  match s.style with
  | .plain => some s.text
  | .literal => if s.tag = some ("tag:yaml.org,2002:" ++ type) then some s.text else none
  | _ => none

def boolean? (s : Scalar) : Option Bool :=
  match s.valueText? "bool" with
  | some "true" => some true
  | some "True" => some true
  | some "TRUE" => some true
  | some "false" => some false
  | some "False" => some false
  | some "FALSE" => some false
  | _ => none

/-- A number without a sign, with a mark of its base or in base ten. In base ten no number
of several digits begins with a zero. -/
def natural? : List Char → Option Nat
  | [] => none
  | ['0', 'x'] => none
  | ['0', 'o'] => none
  | ['0', 'b'] => none
  | '0' :: 'x' :: digits => Text.digits? 16 digits
  | '0' :: 'o' :: digits => Text.digits? 8 digits
  | '0' :: 'b' :: digits => Text.digits? 2 digits
  | '0' :: _ :: _ => none
  | digits => Text.digits? 10 digits

/-- A whole number with a sign or without one. -/
def wholeNumber? (text : String) : Option Int :=
  match text.toList with
  | '-' :: digits => (natural? digits).map fun n => -(n : Int)
  | '+' :: digits => (natural? digits).map Int.ofNat
  | digits => (natural? digits).map Int.ofNat

def integer? (s : Scalar) : Option Int := do
  Signed64.checked (← wholeNumber? (← s.valueText? "int"))

/-- Words for nothing. -/
def isNull (text : String) : Bool :=
  text = "~" || text = "null" || text = "Null" || text = "NULL"

/-- Whether a scalar stands for nothing at all. One with the tag for nothing has to. -/
def absent? (s : Scalar) : Option Bool :=
  if s.style ≠ .plain then some false
  else
    match s.tag with
    | none => some (s.text = "" || isNull s.text)
    | some "tag:yaml.org,2002:null" => if isNull s.text then some true else none
    | some _ => some false

/-- A number in the unsigned range, which has no minus sign. -/
def natural64? (s : Scalar) : Option Nat := do
  let text ← s.valueText? "int"
  if text.startsWith "-" then none
  let n ← wholeNumber? text
  if n ≤ Unsigned64.greatest then some n.toNat else none

def seed? (s : Scalar) : Option (Option Nat) := do
  if ← absent? s then return none else return some (← natural64? s)

def setOnce {α : Type} (slot : Option α) (value : Option α) : Option (Option α) :=
  match slot, value with
  | none, some a => some (some a)
  | _, _ => none

/-- The options that a text has named so far. -/
structure Draft where
  allSolutions : Option Bool
  statistics : Option Bool
  solutionLimit : Option Int
  timeoutMs : Option Int
  verbose : Option Bool
  randomSeed : Option (Option Nat)
deriving DecidableEq, Inhabited

/-- Sets the option of a key from the scalar that its value is; other keys set nothing. -/
def Draft.set (d : Draft) (key : String) (value : Option Scalar) : Option Draft :=
  match key with
  | "all_solutions" =>
    (setOnce d.allSolutions (value.bind boolean?)).map fun allSolutions =>
      { d with allSolutions }
  | "statistics" =>
    (setOnce d.statistics (value.bind boolean?)).map fun statistics => { d with statistics }
  | "solution_limit" =>
    (setOnce d.solutionLimit (value.bind integer?)).map fun solutionLimit =>
      { d with solutionLimit }
  | "timeout_ms" =>
    (setOnce d.timeoutMs (value.bind integer?)).map fun timeoutMs => { d with timeoutMs }
  | "verbose" => (setOnce d.verbose (value.bind boolean?)).map fun verbose => { d with verbose }
  | "random_seed" =>
    (setOnce d.randomSeed (value.bind seed?)).map fun randomSeed => { d with randomSeed }
  | _ => some d

/-- Sets the option of a pair, whose key has to be a scalar. -/
def Draft.setPair (anchors : Anchors) (d : Draft) (pair : Node × Node) : Option Draft := do
  d.set (← anchors.scalar? pair.1).text (anchors.scalar? pair.2)

/-- The keys and values of a document. A document with nothing in it has none. -/
def Document.pairs? (d : Document) : Option (List (Node × Node)) :=
  match d.root with
  | none => some []
  | some (.mapping pairs) => some pairs
  | some (.scalar s) => if s.style = .plain ∧ s.text = "" then some [] else none
  | some _ => none

end Yaml

namespace SolveOptions

def ofToml? (text : String) : Option SolveOptions := do
  let t ← Toml.document? text
  return {
    allSolutions := ← Toml.field Toml.boolean? false "all_solutions" t
    statistics := ← Toml.field Toml.boolean? false "statistics" t
    solutionLimit := ← Toml.field Toml.integer? 0 "solution_limit" t
    timeoutMs := ← Toml.field Toml.integer? 0 "timeout_ms" t
    verbose := ← Toml.field Toml.boolean? false "verbose" t
    randomSeed := ← Toml.field Toml.seed? none "random_seed" t }

def ofYaml? (text : String) : Option SolveOptions := do
  let document ← Yaml.document? text
  let d ← (← document.pairs?).foldlM (Yaml.Draft.setPair document.anchors)
    ⟨none, none, none, none, none, none⟩
  return {
    allSolutions := d.allSolutions.getD false
    statistics := d.statistics.getD false
    solutionLimit := d.solutionLimit.getD 0
    timeoutMs := d.timeoutMs.getD 0
    verbose := d.verbose.getD false
    randomSeed := d.randomSeed.getD none }

/-- The options of a file, given its text if it can be read. Without a readable TOML text
nothing is asked for. -/
def load (text : Option String) : SolveOptions := (text.bind ofToml?).getD default

end SolveOptions

end StagedSearch
