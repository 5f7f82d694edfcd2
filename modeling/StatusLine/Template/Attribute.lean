import StatusLine.Configuration.Record
import StatusLine.Fragment
import StatusLine.Settings
import StatusLine.Style

/-!
What a name behind a dot means on a value: one of its parts, an operation that it has, or the kind
that it is of. `Datum.attribute?` is the whole rule, in which mappings come last: an entry of a
mapping is reached only under a name that means nothing else.
-/

namespace StatusLine

namespace Datum

/-- How an operation is attached to a value that has it. -/
inductive Attachment
  | builtIn
  /-- Built in, and reached through a sign or a function that all kinds share. -/
  | wrapped
  /-- Defined for the kind of values that the owner names. -/
  | bound (owner : String)
  /-- Defined likewise, and attached to the kind itself. -/
  | boundToKind (owner : String)
  deriving Repr, DecidableEq

structure Operations where
  attachment : Attachment
  names : List String
  deriving Repr

def words (rows : List String) : List String :=
  rows.flatMap fun row => (Text.splitOn [' '] row.toList).map String.ofList

def reserved (rows : List String) : List String :=
  (words rows).map fun word => "__" ++ word ++ "__"

def builtIn (names reservedNames : List String) : Operations :=
  ⟨.builtIn, words names ++ reserved reservedNames⟩

def wrapped (names : List String) : Operations :=
  ⟨.wrapped, reserved names⟩

def sharedOperations : List Operations :=
  [wrapped ["delattr eq ge getattribute gt hash init le lt ne repr setattr str"],
    builtIn [] ["dir format getstate init_subclass new reduce reduce_ex sizeof subclasshook"]]

def textOperations : List Operations :=
  [builtIn [
    "capitalize casefold center count encode endswith expandtabs find format format_map",
    "index isalnum isalpha isascii isdecimal isdigit isidentifier islower isnumeric",
    "isprintable isspace istitle isupper join ljust lower lstrip maketrans partition",
    "removeprefix removesuffix replace rfind rindex rjust rpartition rsplit rstrip split",
    "splitlines startswith strip swapcase title translate upper zfill"] ["getnewargs"],
    wrapped ["add contains getitem iter len mod mul rmod rmul"]]

def bytesOperations : List Operations :=
  [builtIn [
    "capitalize center count decode endswith expandtabs find fromhex hex index isalnum",
    "isalpha isascii isdigit islower isspace istitle isupper join ljust lower lstrip",
    "maketrans partition removeprefix removesuffix replace rfind rindex rjust rpartition",
    "rsplit rstrip split splitlines startswith strip swapcase title translate upper zfill"]
    ["bytes getnewargs"],
    wrapped ["add contains getitem iter len mod mul rmod rmul"]]

def numberOperations : List Operations :=
  [builtIn ["as_integer_ratio conjugate"] ["ceil floor getnewargs round trunc"],
    wrapped ["abs add bool divmod float floordiv int mod mul neg pos pow radd rdivmod rfloordiv",
      "rmod rmul rpow rsub rtruediv sub truediv"]]

def intOperations : List Operations :=
  builtIn ["bit_count bit_length from_bytes to_bytes"] [] ::
    wrapped ["and index invert lshift or rand rlshift ror rrshift rshift rxor xor"] ::
    numberOperations

def floatOperations : List Operations :=
  builtIn ["fromhex hex is_integer"] ["getformat"] :: numberOperations

def listOperations : List Operations :=
  [builtIn ["append clear copy count extend index insert pop remove reverse sort"]
    ["class_getitem getitem reversed"],
    wrapped ["add contains delitem iadd imul iter len mul rmul setitem"]]

def tupleOperations : List Operations :=
  [builtIn ["count index"] ["class_getitem getnewargs"],
    wrapped ["add contains getitem iter len mul rmul"]]

def mappingOperations : List Operations :=
  [builtIn ["clear copy fromkeys get items keys pop popitem setdefault update values"]
    ["class_getitem contains getitem reversed"],
    wrapped ["delitem ior iter len or ror setitem"]]

def frozenSetOperations : List Operations :=
  [builtIn ["copy difference intersection isdisjoint issubset issuperset symmetric_difference",
    "union"] ["class_getitem contains"],
    wrapped ["and iter len or rand ror rsub rxor sub xor"]]

def setOperations : List Operations :=
  builtIn ["add clear difference_update discard intersection_update pop remove",
    "symmetric_difference_update update"] [] ::
    wrapped ["iand ior isub ixor"] :: frozenSetOperations

def pathOperations : List Operations :=
  [⟨.bound "Path", words
    ["absolute chmod exists expanduser glob group hardlink_to is_block_device is_char_device",
      "is_dir is_fifo is_file is_mount is_socket is_symlink iterdir lchmod link_to lstat mkdir",
      "open owner read_bytes read_text readlink rename replace resolve rglob rmdir samefile",
      "stat symlink_to touch unlink write_bytes write_text"] ++ reserved ["enter exit"]⟩,
    ⟨.bound "PurePath", words
      ["as_posix as_uri is_absolute is_relative_to is_reserved joinpath match relative_to",
        "with_name with_stem with_suffix"] ++
      reserved ["bytes eq fspath ge gt hash le lt reduce repr rtruediv str truediv"]⟩,
    ⟨.boundToKind "Path", words ["cwd home"]⟩]

def checkedOperations : List Operations :=
  [⟨.bound "BaseModel", words ["copy dict json model_copy model_dump model_dump_json",
    "model_post_init"] ++
    reserved ["copy deepcopy delattr eq getattr getstate init iter replace repr repr_args",
      "repr_name repr_str rich_repr setattr setstate str pretty"]⟩,
    ⟨.boundToKind "BaseModel", words ["construct from_orm model_construct model_json_schema",
      "model_parametrized_name model_rebuild model_validate model_validate_json",
      "model_validate_strings parse_file parse_obj parse_raw schema schema_json",
      "update_forward_refs validate"]⟩]

def recordOperations (made : RecordKind) : List Operations :=
  if made == Configuration.recordKind then
    ⟨.boundToKind made.name, ["load"]⟩ :: checkedOperations
  else if made.isChecked then checkedOperations
  else if made == Style.signature.made then
    [⟨.bound made.name, "label" :: reserved ["delattr eq hash init repr setattr"]⟩,
      ⟨.boundToKind made.name, ["from_config"]⟩]
  else if made == InputField.signature.made then
    [⟨.bound made.name, reserved ["delattr eq hash init repr setattr"]⟩]
  else []

def kindOperations (value : ValueKind) : List Operations :=
  (if value == Style.signature.made.toValueKind then [⟨.bound value.name, ["from_config"]⟩]
    else []) ++
    [builtIn ["mro"] ["instancecheck prepare subclasscheck subclasses"], wrapped ["call or ror"]]

/-- Operations that a value has of its own. -/
def ownOperations : Datum → List Operations
  | null => [wrapped ["bool"]]
  | text _ => textOperations
  | bytes _ => bytesOperations
  | int _ | bool _ => intOperations
  | float _ => floatOperations
  | list _ => listOperations
  | tuple _ => tupleOperations
  | set _ => setOperations
  | frozenSet _ => frozenSetOperations
  | mapping _ => mappingOperations
  | path _ => pathOperations
  | record made _ => recordOperations made
  | member _ => [⟨.bound "Enum", reserved ["dir format hash init reduce_ex repr str"]⟩]
  | kind value => kindOperations value
  | _ => []

def kindOf : Datum → Datum
  | member _ => thing ⟨"enum", "EnumType"⟩ ("<enum '" ++ memberKind.name ++ "'>") []
  | value => kind value.valueKind

def operation (value : Datum) (name : String) : Attachment → Datum
  | .builtIn => thing (.plain "builtin_function_or_method") ("<built-in method " ++ name ++ ">") []
  | .wrapped => thing (.plain "method-wrapper") ("<method-wrapper " ++ listed name ++ ">") []
  | .bound owner => attached owner value
  | .boundToKind owner => attached owner value.kindOf
where
  attached (owner : String) (subject : Datum) : Datum :=
    thing (.plain "method")
      ("<bound method " ++ owner ++ "." ++ name ++ " of " ++ String.ofList subject.listing ++ ">") []

def operation? (value : Datum) (name : String) : Option Datum :=
  ((value.ownOperations ++ sharedOperations).find? fun group => group.names.contains name).map
    fun group => value.operation name group.attachment

def chars (text : List Char) : Datum :=
  .text (String.ofList text)

def pathParts (value : PathName) : List (String × Datum) :=
  let anchor := value.root.text
  let lead := if anchor.isEmpty then [] else [chars anchor]
  [("name", chars value.baseName), ("parent", path value.parent), ("root", chars anchor),
    ("anchor", chars anchor), ("drive", text ""), ("stem", chars value.stem),
    ("suffix", chars value.ending), ("suffixes", list (value.endings.map chars)),
    ("parts", tuple (lead ++ value.parts.map chars))]

def recordParts (made : RecordKind) (fields : List (String × Datum)) : List (String × Datum) :=
  let isPlain := made == Style.signature.made || made == InputField.signature.made
  ("__module__", text made.home) ::
    (if made.isChecked then
      [("__dict__", object fields), ("model_extra", null),
        ("model_config", object [("frozen", bool true), ("extra", text "forbid")])]
    else if isPlain then
      [("__dict__", object fields), ("__match_args__", tuple (fields.map fun field => text field.1))]
    else [("__struct_fields__", tuple (fields.map fun field => text field.1))])

def wholeParts (n : Int) : List (String × Datum) :=
  [("real", int n), ("imag", int 0), ("numerator", int n), ("denominator", int 1)]

def kindDefaults (value : ValueKind) : List (String × Datum) :=
  if value == Style.signature.made.toValueKind then
    ("label", thing (.plain "function") ("<function " ++ value.name ++ ".label>") []) ::
      Style.signature.fields.filterMap fun (name, fallback) =>
        fallback.map fun found => (name, found)
  else []

def monitoringOf (fields : List (String × Datum)) : Datum :=
  match (fields.find? fun field => field.1 == "system_monitoring").map Prod.snd with
  | some (record made inner) => record made inner
  | _ => Monitoring.standard.datum

/-- The named parts of a value. -/
def parts : Datum → List (String × Datum)
  | int n => wholeParts n
  | bool value => wholeParts (if value then 1 else 0)
  | float x => [("real", float x), ("imag", float 0.0)]
  | path value => ("__module__", text "pathlib") :: pathParts value
  | member value =>
      [("name", text "X"), ("value", value), ("X", member value),
        ("__module__", text memberKind.home)]
  | record made fields =>
      fields ++ recordParts made fields ++
        (if made == Configuration.recordKind then [("monitoring", monitoringOf fields)] else [])
  | list _ | set _ | mapping _ => [("__hash__", null)]
  | kind value =>
      [("__name__", text value.name), ("__qualname__", text value.name),
        ("__module__", text (if value.home == "" then "builtins" else value.home))] ++
        kindDefaults value
  | thing _ _ parts => parts
  | _ => []

def openKinds : List ValueKind :=
  ["dict", "list", "tuple", "set", "frozenset", "type"].map ValueKind.plain

def entry? (value key : Datum) : Option Datum :=
  match value, key with
  | mapping entries, key => lookup key entries
  | kind named, key =>
      if openKinds.contains named then
        some (thing ⟨"types", "GenericAlias"⟩ (named.name ++ "[" ++ String.ofList key.listing ++ "]")
          [])
      else none
  | set _, _ | frozenSet _, _ | record _ _, _ => none
  | value, int n => if 0 ≤ n then (value.items)[n.toNat]? else none
  | _, _ => none

def attribute? (name : String) (value : Datum) : Option Datum :=
  if name == "__class__" then some value.kindOf
  else
    match value.parts.find? fun part => part.1 == name with
    | some (_, part) => some part
    | none => (value.operation? name).orElse fun _ => value.entry? (text name)

end Datum

end StatusLine
