/-
# Search hints

A search hint is a call-shaped term such as
`int_search(x, first_fail, indomain_min, complete)`, as the reader of a model hands it
over. Its arguments are names, numbers, arrays and calls in any nesting.
-/

namespace StagedSearch

inductive HintTerm where
  | ident (text : String)
  | int (value : Int)
  | array (items : List HintTerm)
  | call (name : String) (args : List HintTerm)
deriving Inhabited

/-- A call-shaped term. -/
structure Hint where
  name : String
  args : List HintTerm
deriving Inhabited

namespace HintTerm

/-- What a term names: a plain name, or a call without arguments. -/
def asName? : HintTerm → Option String
  | ident text => some text
  | call name [] => some name
  | _ => none

mutual

/-- A term as it is written; a call without arguments has no brackets. -/
def render : HintTerm → String
  | ident text => text
  | int value => toString value
  | array items => "[" ++ ", ".intercalate (renderAll items) ++ "]"
  | call name [] => name
  | call name (arg :: args) =>
    name ++ "(" ++ ", ".intercalate (renderAll (arg :: args)) ++ ")"

def renderAll : List HintTerm → List String
  | [] => []
  | term :: terms => term.render :: renderAll terms

end

end HintTerm

namespace Hint

def term (hint : Hint) : HintTerm := .call hint.name hint.args

end Hint

end StagedSearch
