/-
Descriptions of storages, handlers, registries and dispatchers for the eyes of a developer.

Every description is a record `Name { field: value, ... }` or an enumeration case `Name(value)`;
texts inside it are quoted, and floating-point numbers are marked as fractions.
-/
import InlineCache.World

namespace InlineCache

namespace Inspect

/-- A record with named fields. -/
def record (name : String) (fields : List (String × String)) : String :=
  let written := fields.map fun field => field.1 ++ ": " ++ field.2
  name ++ " \x7b " ++ ", ".intercalate written ++ " \x7d"

/-- A case with one argument. -/
def case (name argument : String) : String := name ++ "(" ++ argument ++ ")"

/-- The capitalised name of an element type. -/
def elementType : ElementType → String
  | .byte => "Byte"
  | .short => "Short"
  | .int => "Int"
  | .long => "Long"
  | .float => "Float"
  | .double => "Double"

/-- The elements of a storage, under the name of their type. -/
def storage (s : Storage) : String :=
  case (elementType s.type) (bracketed (s.slots.toList.map (Element.text .inspected)))

/-- What an array holds at present. -/
def array (h : Heap) (a : ArrayHandle) : String := case "ArrayRef" (storage (h.storage a))

/-- What the built-in assignment knows about its element type. -/
def descriptor (t : ElementType) : String :=
  record "ElementDescriptor"
    [("element_type", elementType t), ("size", toString t.byteSize), ("boxed", quoted t.boxedName)]

/-- A built-in handler by its element type, an override by its name. -/
def handler : Handler → String
  | .builtin t => record "ArrayPutAt" [("desc", descriptor t)]
  | .override name _ => record "MethodOverride" [("name", quoted name)]

/-- A handler in force and its version. -/
def resolution (r : Resolution) : String :=
  record "MetaClass"
    [("put_at", record "RwLock" [("data", handler r.handler)]), ("version", toString r.version)]

/-- The table of resolutions. -/
def registry (r : Registry) : String :=
  record "MetaClassRegistry" [("classes", bracketed (r.table.toList.map resolution))]

/-- The capitalised name of a policy. -/
def policy : NarrowingPolicy → String
  | .truncate => "Truncate"
  | .checked => "Checked"

/-- The settings of a dispatcher. -/
def settings (c : DispatchSettings) : String :=
  record "DispatchConfig"
    [("specialize", toString c.specialize), ("narrowing", policy c.narrowing)]

example : settings ⟨true, .truncate⟩ =
    "DispatchConfig \x7b specialize: true, narrowing: Truncate \x7d" := by decide +kernel

/-- A dispatcher with the registry it uses and the sites it owns. -/
def dispatcher (d : Dispatcher) (r : Registry) (sites : SiteTable) : String :=
  record "Dispatcher"
    [("registry", registry r), ("coercion", quoted "TypeCoercion"), ("config", settings d.settings),
      ("sites", toString sites.size)]

end Inspect

end InlineCache
