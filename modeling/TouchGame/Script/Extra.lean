import TouchGame.Script.Decoded

/-!
# Extra fields

Conditions and actions of unknown types keep all their fields. Paths reach them by name, unless the
name is one that every record has for itself. A field whose name starts with an underscore is private:
a number that a repair puts there is found again but not written. What else a reserved name leads to is
not described, here as elsewhere.

* `Extra` : a field with what is written for it and what paths find.
* `Extra.part` : the places below it.
* `Extra.decode`, `Extra.held?` : the extra fields of an object, and one of them by name.
-/

namespace TouchGame

/-- A field that the kind of its record does not know. -/
structure Extra where
  name : String
  /-- What a document shows. -/
  written : Json
  /-- What paths find. -/
  held : Json

namespace Extra

/-- The names that every record has for itself, the reserved ones last. -/
def ownNames : List String := [
  "construct", "copy", "dict", "from_orm", "json", "model_computed_fields", "model_config",
  "model_construct", "model_copy", "model_dump", "model_dump_json", "model_extra", "model_fields",
  "model_fields_set", "model_json_schema", "model_parametrized_name", "model_post_init",
  "model_rebuild", "model_validate", "model_validate_json", "model_validate_strings", "parse_file",
  "parse_obj", "parse_raw", "schema", "schema_json", "update_forward_refs", "validate",
  "_abc_impl", "_calculate_keys", "_copy_and_set_values", "_get_value", "_iter",
  "_setattr_handler",
  "__abstractmethods__", "__annotations__", "__class__", "__class_getitem__", "__class_vars__",
  "__copy__", "__deepcopy__", "__delattr__", "__dict__", "__dir__", "__doc__", "__eq__",
  "__fields_set__", "__format__", "__ge__", "__get_pydantic_core_schema__",
  "__get_pydantic_json_schema__", "__getattr__", "__getattribute__", "__getstate__", "__gt__",
  "__hash__", "__init__", "__init_subclass__", "__iter__", "__le__", "__lt__", "__module__",
  "__ne__", "__new__", "__pretty__", "__private_attributes__", "__pydantic_complete__",
  "__pydantic_computed_fields__", "__pydantic_core_schema__", "__pydantic_custom_init__",
  "__pydantic_decorators__", "__pydantic_extra__", "__pydantic_fields__",
  "__pydantic_fields_set__", "__pydantic_generic_metadata__", "__pydantic_init_subclass__",
  "__pydantic_on_complete__", "__pydantic_parent_namespace__", "__pydantic_post_init__",
  "__pydantic_private__", "__pydantic_root_model__", "__pydantic_serializer__",
  "__pydantic_setattr_handlers__", "__pydantic_validator__", "__reduce__", "__reduce_ex__",
  "__replace__", "__repr__", "__repr_args__", "__repr_name__", "__repr_recursion__",
  "__repr_str__", "__rich_repr__", "__setattr__", "__setstate__", "__sizeof__", "__slots__",
  "__str__", "__subclasshook__", "__weakref__"]

def isPrivate (e : Extra) : Bool :=
  e.name.startsWith "_"

def withValue (e : Extra) (value : Json) : Extra :=
  { e with written := value, held := value }

/-- What a path finds from a field on: a private field itself can only be changed for paths. -/
def place? (e : Extra) (path : Path) : Option (Place Extra) :=
  if ownNames.contains e.name then none
  else if e.isPrivate && path.isEmpty then e.held.place? (fun value => { e with held := value }) path
  else e.held.place? e.withValue path

/-- A field as it is written, and the places below it. -/
def part (e : Extra) : Part Extra where
  tree := .free e.written
  place? := e.place?

/-- The extra fields of an object, which are all but its type; their names have to consist of
characters. -/
def decode (fields : Json.Fields) : Decoded (List Extra) :=
  if fields.all fun (name, _) => Text.isWellFormed name then
    .ok <| (fields.filter (·.1 != Field.type.wire)).map fun (name, value) => ⟨name, value, value⟩
  else .fail .brokenText

def held? (extras : List Extra) (name : String) : Option Json :=
  (extras.find? (·.name == name)).map (·.held)

/-- The values that are written for extra fields behind a type, the empty ones left out. -/
def writtenValues (type : Json) (extras : List Extra) : List Json :=
  (type :: extras.map (·.written)).filter (!·.isNull)

end Extra

namespace Part

/-- A record of an unknown type: its type, then its extra fields. -/
def ofExtras (type : Json) (extras : List Extra) (put : Json → List Extra → ρ) : Part ρ :=
  .fields ((Field.type, .free type (put · extras)) ::
    extras.mapIdx fun i e =>
      (Key.word e.name, e.part.map fun changed => put type (extras.set i changed)))

end Part

end TouchGame
