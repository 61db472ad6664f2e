import StepWeave.Interceptor
import StepWeave.Keyed

/-!
# Catalogs

The steps and interceptors that definitions can refer to by id.  Of two with one
id the one added later counts.
-/

namespace StepWeave

variable [Types]

structure Catalog (R : Type) where
  steps : Keyed (Step R) := .empty
  interceptors : Keyed (Interceptor R) := .empty

namespace Catalog

variable {R : Type}

def empty : Catalog R := {}

def addStep (c : Catalog R) (step : Step R) : Catalog R :=
  { c with steps := c.steps.insert step.id step }

def addInterceptor (c : Catalog R) (interceptor : Interceptor R) : Catalog R :=
  { c with interceptors := c.interceptors.insert interceptor.id interceptor }

def ofLists (steps : List (Step R)) (interceptors : List (Interceptor R)) : Catalog R :=
  interceptors.foldl addInterceptor (steps.foldl addStep empty)

def step? (c : Catalog R) (id : String) : Option (Step R) := c.steps.find? id

def interceptor? (c : Catalog R) (id : String) : Option (Interceptor R) := c.interceptors.find? id

end Catalog

end StepWeave
