import NetImport.Files.Path
import NetImport.Net.JsonForm
import NetImport.TextForm.Codec
import NetImport.Wire.Codec

/-!
# Notations of net files

A net file is a JSON document, a text or a wire message.  The extension of its
name tells which.
-/

namespace NetImport

inductive NetFormat where
  | json
  | text
  | wire
deriving DecidableEq, Repr

/-- Why bytes are no net. -/
inductive NotationError where
  | json
  | text
  | wire
  /-- A text that is not valid UTF-8. -/
  | encoding
deriving DecidableEq, Repr

namespace NotationError

def message : NotationError → String
  | .json => "failed to parse JSON net"
  | .text => "failed to parse text-format net"
  | .wire => "failed to decode protobuf net"
  | .encoding => "text-format net is not UTF-8"

end NotationError

namespace NetFormat

def ofPath (path : String) : NetFormat :=
  match (Path.extension? path).map String.toLower with
  | some "json" => .json
  | some "pbtxt" => .text
  | some "prototxt" => .text
  | _ => .wire

end NetFormat

namespace NetDefinition

def ofBytes (format : NetFormat) (bytes : List UInt8) : Except NotationError NetDefinition :=
  match format with
  | .json => (ofJson? bytes).elim (.error .json) .ok
  | .text =>
      match Utf8.decode? bytes with
      | none => .error .encoding
      | some text => (ofText? text).elim (.error .text) .ok
  | .wire => (ofWire? bytes).elim (.error .wire) .ok

end NetDefinition
end NetImport
