import DocStore.Record
import DocStore.Text
/-!
# Dotted paths

A path such as `address.city` names a field of a record or of the objects inside it. Every point
separates two names, so a field whose own name holds a point is not reached by a path.
-/

namespace DocStore

namespace Path

/-- The names along a path. -/
def names (path : String) : List String := Text.split '.' path

/-- Follows names into nested objects. -/
def follow (value : Json) : List String → Option Json
  | [] => some value
  | name :: rest =>
    match value with
    | .object members => (Fields.get? members name).bind fun v => follow v rest
    | _ => none

end Path

/-- The value at a dotted path. -/
def Record.lookup (r : Record) (path : String) : Option Json :=
  Path.follow (.object r) (Path.names path)

end DocStore
