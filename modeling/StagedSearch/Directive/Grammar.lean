/-
# The grammar of hints

Which terms describe a search, and which one, as a relation. It says what a term has to look
like and not how it is read, so it has no word on faults and on the order in which they
would be found. Arguments beyond those that a call needs are allowed everywhere.
-/

import StagedSearch.Directive.Resolve

namespace StagedSearch

/-- The names of a preference. Two of them have a second one. -/
def ValuePreference.names : ValuePreference → List String
  | min => ["indomain_min", "indomain"]
  | max => ["indomain_max"]
  | middle => ["indomain_middle", "indomain_median"]
  | random => ["indomain_random"]

namespace HintTerm

/-- A term names something by its text, or as a call without arguments. -/
inductive IsName : HintTerm → String → Prop
  | ident (name : String) : IsName (.ident name) name
  | call (name : String) : IsName (.call name []) name

mutual

/-- The calls of a term that are not sequences, from left to right. A sequence stands for the
terms of its array. -/
def leafTerms : HintTerm → List HintTerm
  | .call name args =>
    if name = DirectiveKind.seq.name then
      match args with
      | .array items :: _ => leafTermsOfAll items
      | _ => []
    else [.call name args]
  | _ => []

/-- The calls of several terms that are not sequences, one term after another. -/
def leafTermsOfAll : List HintTerm → List HintTerm
  | [] => []
  | term :: terms => term.leafTerms ++ leafTermsOfAll terms

end

end HintTerm

namespace SearchDirective

/-- Items of an array list variables by their names. Numbers may stand between them. -/
inductive ListsItems (names : Names) : List HintTerm → List VarId → Prop
  | nil : ListsItems names [] []
  | number {value : Int} {items : List HintTerm} {vars : List VarId}
      (later : ListsItems names items vars) : ListsItems names (.int value :: items) vars
  | scalar {name : String} {var : VarId} {items : List HintTerm} {vars : List VarId}
      (known : names.scalar? name = some var) (later : ListsItems names items vars) :
      ListsItems names (.ident name :: items) (var :: vars)

/-- The first argument of a leaf lists its variables: by the name of an array, by the name of
a variable where no array has that name, or one by one. -/
inductive ListsVariables (names : Names) : HintTerm → List VarId → Prop
  | array {name : String} {vars : List VarId} (known : names.array? name = some vars) :
      ListsVariables names (.ident name) vars
  | scalar {name : String} {var : VarId} (noArray : names.array? name = none)
      (known : names.scalar? name = some var) : ListsVariables names (.ident name) [var]
  | items {items : List HintTerm} {vars : List VarId} (listed : ListsItems names items vars) :
      ListsVariables names (.array items) vars

/-- A term names a preference that variables of a kind can have. -/
def NamesPreference (kind : VarKind) (term : HintTerm) (preference : ValuePreference) : Prop :=
  (∃ name ∈ preference.names, term.IsName name) ∧
    (kind = .set → preference = .min ∨ preference = .max)

inductive NamesExploration : HintTerm → Exploration → Prop
  | complete {term : HintTerm} (named : term.IsName "complete") :
      NamesExploration term .complete
  | lds {limit : Nat} (small : limit < Unsigned32.modulus) (extra : List HintTerm) :
      NamesExploration (.call "lds" (.int limit :: extra)) (.lds limit)
  | credit {units depth : Nat} (small : depth < Unsigned32.modulus) (extra extra' : List HintTerm) :
      NamesExploration (.call "credit" (.int units :: .call "bbs" (.int depth :: extra) :: extra'))
        (.credit units depth)

/-- What follows the third argument of a leaf settles the exploration. -/
inductive SettlesExploration : List HintTerm → Exploration → Prop
  | absent : SettlesExploration [] .complete
  | named {term : HintTerm} {exploration : Exploration}
      (known : NamesExploration term exploration) (extra : List HintTerm) :
      SettlesExploration (term :: extra) exploration

mutual

inductive Describes (names : Names) : HintTerm → SearchDirective → Prop
  | leaf {kind : VarKind} {list order preference : HintTerm} {rest : List HintTerm}
      {vars : List VarId} {variableOrder : VariableOrder}
      {valuePreference : ValuePreference} {exploration : Exploration}
      (lists : ListsVariables names list vars) (orders : order.IsName variableOrder.name)
      (prefers : NamesPreference kind preference valuePreference)
      (explores : SettlesExploration rest exploration) :
      Describes names
        (.call (DirectiveKind.leaf kind).name (list :: order :: preference :: rest))
        (leaf kind ⟨vars, some variableOrder, some valuePreference, exploration⟩)
  | seq {items : List HintTerm} {children : List SearchDirective}
      (parts : DescribesAll names items children) (extra : List HintTerm) :
      Describes names (.call DirectiveKind.seq.name (.array items :: extra)) (seq children)

inductive DescribesAll (names : Names) : List HintTerm → List SearchDirective → Prop
  | nil : DescribesAll names [] []
  | cons {term : HintTerm} {terms : List HintTerm} {child : SearchDirective}
      {children : List SearchDirective} (first : Describes names term child)
      (later : DescribesAll names terms children) :
      DescribesAll names (term :: terms) (child :: children)

end

end SearchDirective

end StagedSearch
