import PathQuery.Text.Quoted
/-!
# Results with warnings

Compiling a query may meet fragments that it does not understand. It then leaves them as they are and
warns. A `Report` is the outcome of a computation together with the warnings it gave on the way, which
are kept when the computation fails later.
-/

namespace PathQuery

/-- Why a fragment cannot be renamed. -/
inductive Reason
  | notAColumn
  | notOneField
  deriving DecidableEq, Repr

def Reason.text : Reason → String
  | .notAColumn => "not a column expression"
  | .notOneField => "expected exactly one table and one field"

structure Warning where
  fragment : String
  reason : Reason
  deriving DecidableEq, Repr

def Warning.message (w : Warning) : String :=
  "Can not recompile unexpected fragment " ++ Text.quoted w.fragment ++ ": " ++ w.reason.text

structure Report (ε α : Type) where
  warnings : List Warning
  result : Except ε α

namespace Report

variable {ε ε' α β : Type}

def ofExcept (result : Except ε α) : Report ε α :=
  ⟨[], result⟩

def fail (e : ε) : Report ε α :=
  ⟨[], .error e⟩

/-- Goes on with the value of a successful report; the warnings add up. -/
def bind (r : Report ε α) (f : α → Report ε β) : Report ε β :=
  match r.result with
  | .error e => ⟨r.warnings, .error e⟩
  | .ok a => ⟨r.warnings ++ (f a).warnings, (f a).result⟩

instance : Monad (Report ε) where
  pure a := ⟨[], .ok a⟩
  bind := bind

def mapError (f : ε → ε') (r : Report ε α) : Report ε' α :=
  ⟨r.warnings, r.result.mapError f⟩

end Report

end PathQuery
