import NetImport.Model.Load

/-!
# Models in files

The predict net is read first, then the init net, each in the notation that the
extension of its file asks for.
-/

namespace NetImport

def NetDefinition.ofFile (read : FileReader) (path : String) :
    Except LoadError NetDefinition :=
  match read path with
  | .error cause => .error (.unreadableFile path cause)
  | .ok bytes =>
      match ofBytes (NetFormat.ofPath path) bytes with
      | .ok net => .ok net
      | .error cause => .error (.invalidNet cause)

namespace LoadedModel

/-- The name of the graph of a model: that of its predict net file without the
extension. -/
def graphName (predictPath : String) : String := (Path.stem? predictPath).getD "caffe2"

def ofFiles (read : FileReader) (predictPath initPath : String) (names : List String)
    (types : List TensorType) (graph : Graph) : Except LoadError LoadedModel × Graph :=
  match NetDefinition.ofFile read predictPath with
  | .error error => (.error error, graph)
  | .ok predict =>
      match NetDefinition.ofFile read initPath with
      | .error error => (.error error, graph)
      | .ok init => load predict init names types graph

end LoadedModel
end NetImport
