import LumidPlatform.Text

/-!
# Callers

The gate in front of every data route establishes who calls, or rejects the request.
-/

namespace LumidPlatform

/-- The caller, as the gate established it. The email plays no part in what is modelled. -/
structure Identity where
  sub : Str
  role : Str
  scopes : List Str := []
  deriving DecidableEq

end LumidPlatform
