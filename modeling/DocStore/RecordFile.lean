import DocStore.Json.Printer
import DocStore.Json.Reader
import DocStore.Record
/-!
# The text of a collection file

A collection file is a JSON array of objects, written indented and with a line feed at its end.
-/

namespace DocStore

namespace RecordFile

/-- The records a value holds, if it is an array of objects. -/
def recordsOf? (v : Json) : Option (List Record) := do
  let items ← v.asArray?
  items.mapM Json.asObject?

/-- The records a text holds, if it is that of a collection file. -/
def read? (text : String) : Option (List Record) := (Json.read? text).bind recordsOf?

/-- The value a collection file holds. -/
def value (records : List Record) : Json := .array (records.map .object)

/-- The text of the file that holds these records. -/
def text (records : List Record) : String := (value records).indented ++ "\n"

end RecordFile

end DocStore
