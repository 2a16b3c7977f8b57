/-
# Resolving hints and goals

The hints and the goal of a solve item are resolved against the names of the model: hints
become a directive, the cost expression becomes a variable. Hints are resolved first, from
left to right, and the first fault is the result.
-/

import StagedSearch.Directive.Error
import StagedSearch.Directive.Hint
import StagedSearch.Model.Names

namespace StagedSearch

namespace SearchDirective

/-- The variables of an array in a hint. Numbers in it have nothing to decide. -/
def resolveItems (names : Names) : List HintTerm → Except SolveError (List VarId)
  | [] => .ok []
  | .ident text :: rest =>
    match names.scalar? text with
    | none => .error (.unknownName text)
    | some var => (resolveItems names rest).map (var :: ·)
  | .int _ :: rest => resolveItems names rest
  | other :: _ => .error (.malformedHint other.render .notAVariable)

def resolveVariables (names : Names) : HintTerm → Except SolveError (List VarId)
  | .ident text =>
    match names.resolve? text with
    | none => .error (.unknownName text)
    | some vars => .ok vars
  | .array items => resolveItems names items
  | other => .error (.malformedHint other.render .notAVariableList)

/-- The number that stands first among arguments, if it is not negative. -/
def firstNat? : List HintTerm → Option Nat
  | .int value :: _ => if 0 ≤ value then some value.toNat else none
  | _ => none

/-- The limit that stands first among arguments. Limits are numbers of 32 bits. -/
def firstLimit? (args : List HintTerm) : Option Nat :=
  (firstNat? args).filter (· < Unsigned32.modulus)

/-- The depth limit that stands second among the arguments of a credit search. -/
def creditDepth? : List HintTerm → Option Nat
  | _ :: .call "bbs" args :: _ => firstLimit? args
  | _ => none

def exploration? : HintTerm → Option Exploration
  | .ident "complete" => some .complete
  | .call "complete" [] => some .complete
  | .call "lds" args => (firstLimit? args).map .lds
  | .call "credit" args => do
    let credit ← firstNat? args
    let depth ← creditDepth? args
    return .credit credit depth
  | _ => none

/-- The exploration that a leaf's fourth argument names; without one it is complete. -/
def resolveExploration : List HintTerm → Except SolveError Exploration
  | [] => .ok .complete
  | term :: _ =>
    match exploration? term with
    | some exploration => .ok exploration
    | none => .error (.unsupportedExploration term.render)

def resolveVariableOrder (term : HintTerm) : Except SolveError VariableOrder :=
  match term.asName?.bind VariableOrder.ofName? with
  | some order => .ok order
  | none => .error (.unsupportedHeuristic .variableSelection term.render)

/-- The preference that a term names. Elements of sets are preferred by size only. -/
def resolvePreference (kind : VarKind) (term : HintTerm) : Except SolveError ValuePreference :=
  match term.asName?.bind ValuePreference.ofName? with
  | some preference =>
    if kind = .set ∧ preference ≠ .min ∧ preference ≠ .max then
      .error (.unsupportedHeuristic .valueSelection term.render)
    else .ok preference
  | none => .error (.unsupportedHeuristic .valueSelection term.render)

/-- A leaf from the arguments of its hint; `shown` is the text of the hint. -/
def resolveLeaf (names : Names) (kind : VarKind) (shown : String) :
    List HintTerm → Except SolveError VarSearch
  | vars :: order :: preference :: rest => do
    let vars ← resolveVariables names vars
    let variableOrder ← resolveVariableOrder order
    let preference ← resolvePreference kind preference
    let exploration ← resolveExploration rest
    return ⟨vars, some variableOrder, some preference, exploration⟩
  | _ => .error (.malformedHint shown .tooFewArguments)

mutual

def ofTerm (names : Names) : HintTerm → Except SolveError SearchDirective
  | .call name args =>
    match DirectiveKind.ofName? name, args with
    | none, _ => .error (.unsupportedSearchType name)
    | some .seq, .array items :: _ => (ofTerms names items).map seq
    | some .seq, _ => .error (.malformedHint (HintTerm.call name args).render .noArray)
    | some (.leaf kind), _ =>
      (resolveLeaf names kind (HintTerm.call name args).render args).map (leaf kind)
  | other => .error (.malformedHint other.render .notASearch)

def ofTerms (names : Names) : List HintTerm → Except SolveError (List SearchDirective)
  | [] => .ok []
  | term :: terms => do
    let child ← ofTerm names term
    let children ← ofTerms names terms
    return child :: children

end

def ofHint (names : Names) (hint : Hint) : Except SolveError SearchDirective :=
  ofTerm names hint.term

/-- The directive of the hints of a solve item. Several hints form a sequence. -/
def ofHints (names : Names) : List Hint → Except SolveError (Option SearchDirective)
  | [] => .ok none
  | [hint] => (ofHint names hint).map some
  | hints => (ofTerms names (hints.map Hint.term)).map fun children => some (seq children)

end SearchDirective

/-- The cost of a goal as it is written. Elements of an array count from 1. -/
inductive CostExpression where
  | scalar (name : String)
  | element (name : String) (index : Int)
deriving DecidableEq, Inhabited

namespace CostExpression

def render : CostExpression → String
  | scalar name => name
  | element name index => s!"{name}[{index}]"

/-- The variable that the expression stands for, if there is one. Of an array that there is, the
place of an element is computed in the signed range before it is compared with the length. -/
def lookup (names : Names) : CostExpression → Except CostFault (Option VarId)
  | scalar name => .ok (names.scalar? name)
  | element name index =>
    match names.array? name with
    | none => .ok none
    | some vars =>
      match Signed64.checked (index - 1) with
      | none => .error .overflow
      | some place => .ok (if 0 ≤ place then vars[place.toNat]? else none)

/-- The integer or boolean variable that the expression stands for. -/
def resolve (names : Names) (s : Store) (e : CostExpression) : Except SolveError VarId :=
  match e.lookup names with
  | .error fault => .error (.malformedCost fault)
  | .ok none => .error (.malformedCost (.unresolved e.render))
  | .ok (some var) =>
    match s.declaration var with
    | .error e => .error (.store e)
    | .ok ⟨_, .set⟩ => .error (.malformedCost (.setVariable e.render))
    | .ok _ => .ok var

end CostExpression

inductive SolveGoal where
  | satisfy
  | minimize (cost : CostExpression)
  | maximize (cost : CostExpression)
deriving DecidableEq, Inhabited

namespace SolveGoal

/-- The goal of a keyword; an optimization needs a cost. -/
def ofKeyword (keyword : String) (cost : Option CostExpression) : Except SolveError SolveGoal :=
  match keyword, cost with
  | "satisfy", _ => .ok satisfy
  | "minimize", some cost => .ok (minimize cost)
  | "maximize", some cost => .ok (maximize cost)
  | "minimize", none => .error (.malformedCost (.missing keyword))
  | "maximize", none => .error (.malformedCost (.missing keyword))
  | _, _ => .error (.unsupportedSolveKind keyword)

def cost? : SolveGoal → Option CostExpression
  | satisfy => none
  | minimize cost => some cost
  | maximize cost => some cost

def render : SolveGoal → String
  | satisfy => "satisfy"
  | minimize cost => s!"minimize({cost.render})"
  | maximize cost => s!"maximize({cost.render})"

end SolveGoal

structure SolveItem where
  goal : SolveGoal
  hints : List Hint
deriving Inhabited

/-- Resolves a solve item: its hints first, and then its cost. -/
def SearchSpec.ofItem (item : SolveItem) (names : Names) (s : Store) :
    Except SolveError SearchSpec := do
  let directive ← SearchDirective.ofHints names item.hints
  match item.goal with
  | .satisfy => return ⟨.satisfy, none, directive⟩
  | .minimize cost => return ⟨.minimize, some (← cost.resolve names s), directive⟩
  | .maximize cost => return ⟨.maximize, some (← cost.resolve names s), directive⟩

end StagedSearch
