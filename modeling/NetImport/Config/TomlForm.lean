import NetImport.Config.Basic
import NetImport.Text.Utf8
import NetImport.Toml.Parser
import NetImport.Toml.Printer

/-!
# Configurations as TOML documents

The members of a configuration are the keys of its document, and each input is a
table of its own.  Other keys are passed over.  An input may also be an array
of its fields in their order.
-/

namespace NetImport
namespace ConfigToml

def text? : Toml → Option String
  | .text value => some value
  | _ => none

def flag? : Toml → Option Bool
  | .flag value => some value
  | _ => none

/-- A whole number that counts something. -/
def count? : Toml → Option Nat
  | .integer value => if 0 ≤ value then some value.toNat else none
  | _ => none

/-- A number, whole or not. -/
def real? : Toml → Option Float
  | .integer value => some (Binary.doubleOfInt value)
  | .real value => some value
  | _ => none

def list? (read : Toml → Option α) : Toml → Option (List α)
  | .array items => items.mapM read
  | _ => none

def dtype? : Toml → Option DType
  | .text label => DType.ofLabel? label
  | .table [(label, .table [])] => DType.ofLabel? label
  | .table [(label, .array [])] => DType.ofLabel? label
  | _ => none

/-- The value of a field that may be left out. -/
def orElse (absent : α) (read : Toml → Option α) : Option Toml → Option α
  | none => some absent
  | some value => read value

def inputFields : List String := ["name", "dims", "dtype", "fill", "values"]

/-- The fields of an input, in the order of their names. -/
def fields? : Toml → Option (List (Option Toml))
  | .table members => some (inputFields.map (Toml.member? members))
  | .array items =>
      some ((items.take inputFields.length).map some ++
        List.replicate (inputFields.length - items.length) none)
  | _ => none

def input? (value : Toml) : Option InputSpec := do
  match ← fields? value with
  | [some name, some dims, dtype, fill, values] =>
      return {
        name := ← text? name
        dims := ← list? count? dims
        dtype := ← orElse .f32 dtype? dtype
        fill? := ← orElse none (fun value => (real? value).map some) fill
        values? := ← orElse none (fun value => (list? real? value).map some) values }
  | _ => none

def config? (members : List (String × Toml)) : Option RunConfig := do
  let member := Toml.member? members
  return {
    predictNet := ← text? (← member "predict_net")
    initNet := ← text? (← member "init_net")
    inputs := ← orElse [] (list? input?) (member "inputs")
    profiling := ← orElse true flag? (member "enable_profiling") }

def ofInput (spec : InputSpec) : Toml :=
  .table (
    [("name", .text spec.name),
      ("dims", .array (spec.dims.map fun (extent : Nat) => .integer extent)),
      ("dtype", .text spec.dtype.label)] ++
    (spec.fill?.toList.map fun value => ("fill", .real value)) ++
    (spec.values?.toList.map fun values => ("values", .array (values.map .real))))

def ofConfig (config : RunConfig) : List (String × Toml) :=
  [("predict_net", .text config.predictNet), ("init_net", .text config.initNet),
    ("inputs", .array (config.inputs.map ofInput)),
    ("enable_profiling", .flag config.profiling)]

end ConfigToml

namespace RunConfig

def ofToml (text : String) : Except ConfigError RunConfig :=
  (Toml.parse? text).bind ConfigToml.config? |>.elim (.error .malformed) .ok

def toToml (config : RunConfig) : String := Toml.document (ConfigToml.ofConfig config)

def within (directory : String) (config : RunConfig) : RunConfig :=
  { config with
    predictNet := Path.join directory config.predictNet
    initNet := Path.join directory config.initNet }

/-- Reads a configuration file.  The paths in it start from its directory. -/
def ofFile (read : FileReader) (path : String) : Except ConfigError RunConfig :=
  match read path with
  | .error cause => .error (.unreadable path cause)
  | .ok bytes =>
      match Utf8.decode? bytes with
      | none => .error (.encoding path)
      | some text =>
          (ofToml text).map fun config =>
            match Path.parent? path with
            | some directory => config.within directory
            | none => config

end RunConfig
end NetImport
