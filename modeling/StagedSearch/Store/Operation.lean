/-
# Operations and reachable stores

A store is only ever changed by its operations. An operation is a value here, so that one
can speak of all sequences of them: of the stores that some sequence reaches from the empty
store (`Store.Reachable`), and of the sequences that close each level that they open
(`StoreOperation.Balanced`). An operation that fails counts with whatever it leaves behind.

Numbers that are handed to a store lie in the signed range (`StoreOperation.InRange`). The
store does not check this, because its callers cannot say anything else.
-/

import StagedSearch.Store.Basic

namespace StagedSearch

/-- A request to a store that may change it. -/
inductive StoreOperation where
  | declareInt (name : String) (min max : Int)
  | declareValues (name : String) (values : List Int)
  | declareBool (name : String)
  | declareSet (name : String) (glb lub : List Int)
  | impose (constraint : Constraint)
  | assign (var : VarId) (value : Int)
  | removeValue (var : VarId) (value : Int)
  | restrictMax (var : VarId) (max : Int)
  | includeElement (var : VarId) (element : Int)
  | excludeElement (var : VarId) (element : Int)
  | consistency
  | pushLevel
  | popLevel
deriving DecidableEq, Inhabited

namespace StoreOperation

def InRange : StoreOperation → Prop
  | declareInt _ min max => Signed64.InRange min ∧ Signed64.InRange max
  | declareValues _ values => ∀ value ∈ values, Signed64.InRange value
  | declareSet _ glb lub =>
    (∀ element ∈ glb, Signed64.InRange element) ∧ ∀ element ∈ lub, Signed64.InRange element
  | assign _ value => Signed64.InRange value
  | removeValue _ value => Signed64.InRange value
  | restrictMax _ max => Signed64.InRange max
  | includeElement _ element => Signed64.InRange element
  | excludeElement _ element => Signed64.InRange element
  | declareBool _ => True
  | impose _ => True
  | consistency => True
  | pushLevel => True
  | popLevel => True

instance : DecidablePred InRange := fun operation =>
  match operation with
  | declareInt _ min max =>
    inferInstanceAs (Decidable (Signed64.InRange min ∧ Signed64.InRange max))
  | declareValues _ values =>
    inferInstanceAs (Decidable (∀ value ∈ values, Signed64.InRange value))
  | declareSet _ glb lub =>
    inferInstanceAs (Decidable ((∀ element ∈ glb, Signed64.InRange element) ∧
      ∀ element ∈ lub, Signed64.InRange element))
  | assign _ value | removeValue _ value => inferInstanceAs (Decidable (Signed64.InRange value))
  | restrictMax _ max => inferInstanceAs (Decidable (Signed64.InRange max))
  | includeElement _ element | excludeElement _ element =>
    inferInstanceAs (Decidable (Signed64.InRange element))
  | declareBool _ | impose _ | consistency | pushLevel | popLevel =>
    inferInstanceAs (Decidable True)

def movesLevel : StoreOperation → Bool
  | pushLevel => true
  | popLevel => true
  | _ => false

/-- The store after a declaration; one that is refused leaves it as it was. -/
def declared (s : Store) : Except StoreError (VarId × Store) → Store
  | .ok (_, s) => s
  | .error _ => s

/-- The store after the request, whether it succeeds or fails. -/
def apply (s : Store) : StoreOperation → Store
  | declareInt name min max => declared s (s.declareInt name min max)
  | declareValues name values => declared s (s.declareValues name values)
  | declareBool name => (s.declareBool name).2
  | declareSet name glb lub => declared s (s.declareSet name glb lub)
  | impose constraint =>
    match s.impose constraint with
    | .ok s => s
    | .error _ => s
  | assign var value => (s.assign var value).2
  | removeValue var value => (s.removeValue var value).2
  | restrictMax var max => (s.restrictMax var max).2
  | includeElement var element => (s.includeElement var element).2
  | excludeElement var element => (s.excludeElement var element).2
  | consistency => s.consistency.2
  | pushLevel => s.pushLevel
  | popLevel => s.popLevel

def applyAll (s : Store) (operations : List StoreOperation) : Store := operations.foldl apply s

@[simp]
theorem applyAll_nil (s : Store) : applyAll s [] = s := rfl

@[simp]
theorem applyAll_cons (s : Store) (operation : StoreOperation) (rest : List StoreOperation) :
    applyAll s (operation :: rest) = applyAll (apply s operation) rest := rfl

theorem applyAll_append (s : Store) (first later : List StoreOperation) :
    applyAll s (first ++ later) = applyAll (applyAll s first) later :=
  List.foldl_append

/-- Sequences that close exactly the levels that they open. -/
inductive Balanced : List StoreOperation → Prop
  | nil : Balanced []
  | single {operation : StoreOperation} {rest : List StoreOperation}
      (stays : operation.movesLevel = false) (balanced : Balanced rest) :
      Balanced (operation :: rest)
  | nested {inner rest : List StoreOperation} (within : Balanced inner)
      (balanced : Balanced rest) : Balanced (pushLevel :: inner ++ popLevel :: rest)

end StoreOperation

namespace Store

inductive Reachable : Store → Prop
  | empty : Reachable empty
  | step {s : Store} {operation : StoreOperation} (reached : Reachable s)
      (inRange : operation.InRange) : Reachable (operation.apply s)

/-- What operations reach from a reachable store is reachable. -/
theorem Reachable.applyAll {s : Store} {operations : List StoreOperation}
    (reached : s.Reachable) (inRange : ∀ operation ∈ operations, operation.InRange) :
    (StoreOperation.applyAll s operations).Reachable := by
  induction operations generalizing s with
  | nil => exact reached
  | cons operation rest ih =>
    exact ih (reached.step (inRange operation (by simp)))
      (fun later member => inRange later (by simp [member]))

end Store

end StagedSearch
