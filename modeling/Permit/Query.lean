/-
Module: Permit.Query
Layer: Data
Purpose: Boolean queries over objects of one type, with conditions and a store's own predicates at
  the leaves. Three constructors simplify as they build: constants never stand below the root, and a
  negation of a negation is dropped.
Main exports: Fragment, Fragment.display, Scope, Scope.display, Query, Query.conjoin, Query.disjoin,
  Query.negate, Query.ofConditions, Query.hashLeaves, Query.joins, Query.same, Query.display
-/
import Permit.Joins

namespace Permit

/-!
### Predicates in a store's own language

The engine never looks inside them: it combines fragments with other conditions, and it leaves
scopes alone.
-/

/-- A predicate text in the store's language, with the values of its placeholders. -/
structure Fragment where
  text : String
  parameters : List Value
deriving DecidableEq, Repr

/-- How a fragment reads: the text in parentheses, then the parameters if there are any. -/
def Fragment.display (fragment : Fragment) : String :=
  "(" ++ fragment.text ++ ")" ++
    if fragment.parameters.isEmpty then "" else " " ++ Value.displayList fragment.parameters

/-- A complete query that the store knows by name. It is never combined with anything else. -/
structure Scope where
  name : String
deriving DecidableEq, Repr

/-- How a scope reads. -/
def Scope.display (scope : Scope) : String := "scope(" ++ scope.name ++ ")"

/-!
### Queries
-/

/-- A boolean expression over conditions, fragments and scopes. -/
inductive Query where
  /-- Selects every object. -/
  | always
  /-- Selects no object. -/
  | never
  | not (query : Query)
  | and (left right : Query)
  | or (left right : Query)
  | hash (conditions : Conditions)
  | fragment (predicate : Fragment)
  | scope (named : Scope)
deriving Repr, Inhabited

namespace Query

/-- The query is the constant that selects every object. -/
def isAlways : Query → Bool
  | .always => true
  | _ => false

/-- The query is the constant that selects no object. -/
def isNever : Query → Bool
  | .never => true
  | _ => false

/-!
### Simplifying constructors
-/

/-- What both queries select. `never` on either side absorbs, `always` drops out. -/
def conjoin : Query → Query → Query
  | .never, _ => .never
  | _, .never => .never
  | .always, query => query
  | query, .always => query
  | left, right => .and left right

/-- What either query selects. `always` on either side absorbs, `never` drops out. -/
def disjoin : Query → Query → Query
  | .always, _ => .always
  | _, .always => .always
  | .never, query => query
  | query, .never => query
  | left, right => .or left right

/-- What the query does not select. -/
def negate : Query → Query
  | .always => .never
  | .never => .always
  | .not query => query
  | query => .not query

/-- The query for conditions; without any condition it selects every object. -/
def ofConditions (conditions : Conditions) : Query :=
  if conditions.isEmpty then .always else .hash conditions

/-!
### Leaves and joins
-/

/-- The conditions in a query, from left to right. -/
def hashLeaves : Query → List Conditions
  | .always => []
  | .never => []
  | .not query => query.hashLeaves
  | .and left right => left.hashLeaves ++ right.hashLeaves
  | .or left right => left.hashLeaves ++ right.hashLeaves
  | .hash conditions => [conditions]
  | .fragment _ => []
  | .scope _ => []

/-- The joins that the conditions in a query need, each association once. -/
def joins (query : Query) : Joins :=
  query.hashLeaves.foldl (fun joins leaf => joins.merge (Joins.ofConditions leaf)) Joins.empty

/-!
### Equality and text
-/

/-- The same query up to the order of names inside conditions. -/
def same : Query → Query → Bool
  | .always, .always => true
  | .never, .never => true
  | .not query, .not other => query.same other
  | .and left right, .and left' right' => left.same left' && right.same right'
  | .or left right, .or left' right' => left.same left' && right.same right'
  | .hash conditions, .hash others => conditions.same others
  | .fragment predicate, .fragment other => predicate == other
  | .scope named, .scope other => named == other
  | _, _ => false

/-- How a query reads. -/
def display : Query → String
  | .always => "TRUE"
  | .never => "FALSE"
  | .not query => "NOT " ++ query.display
  | .and left right => "(" ++ left.display ++ " AND " ++ right.display ++ ")"
  | .or left right => "(" ++ left.display ++ " OR " ++ right.display ++ ")"
  | .hash conditions => conditions.display
  | .fragment predicate => predicate.display
  | .scope named => named.display

end Query

end Permit
