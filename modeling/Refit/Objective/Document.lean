/-
Objective files in YAML.
-/
import Refit.Data.Yaml
import Refit.Objective.Store

namespace Refit
namespace Objective

open Data (Value)

/-- The content of a file: a value already, or the text of one. -/
inductive Document where
  | value (v : Value)
  | yaml (text : Text)

def yamlReader : Reader Text := fun path text =>
  match Data.Yaml.parse (Text.unifyBreaks text) with
  | .ok v => .ok v
  | .error (.fault cause) => .error (.fault cause)
  | .error failure => .error (.refused (failure.text path.text))

def Document.read : Reader Document
  | _, .value v => .ok v
  | path, .yaml text => yamlReader path text

end Objective
end Refit
