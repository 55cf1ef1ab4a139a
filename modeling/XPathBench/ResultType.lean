/-!
Types of query results.

* `ResultType`: what a compiled query announces before it runs
* `RuntimeType`: what an evaluation returned
-/

namespace XPathBench

/-- The type that a query announces. -/
inductive ResultType where
  | string
  | boolean
  | number
  | nodeSet
  /-- Nothing can be said before the query runs. -/
  | any
deriving DecidableEq, Repr

/-- The name of an announced type. -/
def ResultType.name : ResultType → String
  | .string => "String"
  | .boolean => "Boolean"
  | .number => "Number"
  | .nodeSet => "NodeSet"
  | .any => "Any"

/-- The type of a value that an evaluation returned. -/
inductive RuntimeType where
  | string
  | boolean
  | number
  | nodeSet
  /-- The engine returned a value of no known shape. -/
  | unknown
deriving DecidableEq, Repr

/-- The name of a returned type. -/
def RuntimeType.name : RuntimeType → String
  | .string => "String"
  | .boolean => "Boolean"
  | .number => "Number"
  | .nodeSet => "NodeSet"
  | .unknown => "Unknown"

end XPathBench
