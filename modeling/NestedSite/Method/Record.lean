import NestedSite.Method.Arguments

/-!
# Methods of legends, metadata, days and moments

A legend's declared fields stand before its methods, and these before its other fields (`Legend.field?`). Copies of
what legends hold (`Run.dumped`) are refused where a list or mapping lies inside itself.
-/

namespace NestedSite

/-- The methods that legends and metadata share. -/
def recordMethods : List String :=
  ["construct", "copy", "dict", "from_orm", "json", "model_construct", "model_copy", "model_dump", "model_dump_json",
    "model_json_schema", "model_parametrized_name", "model_post_init", "model_rebuild", "model_validate",
    "model_validate_json", "model_validate_strings", "parse_file", "parse_obj", "parse_raw", "schema", "schema_json",
    "update_forward_refs", "validate"]

/-- Those of them whose receiver is the type. -/
def recordClassMethods : List String :=
  ["construct", "from_orm", "model_construct", "model_json_schema", "model_parametrized_name", "model_rebuild",
    "model_validate", "model_validate_json", "model_validate_strings", "parse_file", "parse_obj", "parse_raw",
    "schema", "schema_json", "update_forward_refs", "validate"]

def legendMethods : List String := "fields" :: recordMethods

def metadataMethods : List String := "group" :: "legend_for" :: recordMethods

def dateMethods : List String :=
  ["ctime", "isocalendar", "isoformat", "isoweekday", "replace", "strftime", "timetuple", "toordinal", "weekday"]

def momentMethods : List String :=
  dateMethods ++ ["astimezone", "date", "dst", "time", "timestamp", "timetz", "tzname", "utcoffset", "utctimetuple"]

/-- The given fields of a legend. -/
def Legend.givenFields (l : Legend) : List (String × Value) :=
  ("name", .text l.name) :: (if l.echoGiven then [("echo", (l.echo.map Value.text).getD .none)] else []) ++ l.extras

namespace Run

/-- A mapping with texts as keys. -/
def newRecord (fields : List (String × Value)) : Run Value :=
  newDict (Entries.merge [] (fields.map fun (k, v) => (.text k, v)))

/-- A copy of a value and of what it holds, to the depth `n`; `inside` holds what is being copied. -/
def dumpedTo : Nat → List Value → Value → Run Value
  | 0, _, _ => throw .badValue
  | n + 1, inside, v => do
    if inside.any v.identical then throw .badValue
    let deeper := dumpedTo n (v :: inside)
    match v with
    | .list p => newList (← (← list p).mapM deeper)
    | .tuple vs => return .tuple (← vs.mapM (dumpedTo n inside))
    | .set p => newSet (← set p)
    | .dict p => newDict (← (← dict p).mapM fun (k, v) => return (k, ← deeper v))
    | .legend p => newRecord (← ((← store).legend p).fields.mapM fun (k, v) => return (k, ← deeper v))
    | .metadata p => newRecord (← ((← store).metadataAt p).fields.mapM fun (k, v) => return (k, ← deeper v))
    | v => return v

def dumped (v : Value) : Run Value := dumpedTo depthLimit [] v

/-- The given fields of a legend as a new mapping. The fields are shared with the legend, but none may lie inside
itself. -/
def legendFields (l : Legend) : Run Value := do
  for (_, v) in l.extras do discard <| dumped v
  newRecord l.givenFields

/-- What a group of a directory's metadata is bound to. -/
def metadataGroup (m : Metadata) (name : Value) : Run Value := do
  match ← name.key with
  | .text "ignore" => return (m.ignore.map Value.text).getD .none
  | .text "files" => return .list m.files
  | .text name => return ((m.extras.find? fun (k, _) => k == name).map Prod.snd).getD .none
  | _ => return .none

/-- The first legend of a directory's metadata that has a name. -/
def legendNamed (m : Metadata) (name : Value) : Run Value := do
  go (← list m.files)
where
  go : List Value → Run Value
    | [] => return .none
    | .legend p :: rest => do
      if ← read fun s => s.equal (.text (s.legend p).name) name then return .legend p else go rest
    | _ :: _ => throw .missingAttribute

def callLegend (place : Nat) (name : String) (args : Arguments) : Run Value := do
  let l := (← store).legend place
  match name with
  | "fields" => discard <| args.exactly 0; legendFields l
  | "model_dump" | "dict" => dumped (.legend place)
  | "copy" | "model_copy" => newLegend l
  | _ => wrongType

def callMetadata (place : Nat) (name : String) (args : Arguments) : Run Value := do
  let m := (← store).metadataAt place
  match name with
  | "group" =>
    match ← args.assign (.free ["name"] []) with
    | [some name] => metadataGroup m name
    | _ => wrongType
  | "legend_for" =>
    match ← args.assign (.free ["name"] []) with
    | [some name] => legendNamed m name
    | _ => wrongType
  | "model_dump" | "dict" => dumped (.metadata place)
  | "copy" | "model_copy" => newMetadata m
  | _ => wrongType

/-! ## Days and moments -/

def dateField? (d : Date) : String → Option Value
  | "year" => some (.int d.year)
  | "month" => some (.int d.month)
  | "day" => some (.int d.day)
  | _ => none

def momentField? (m : Moment) : String → Option Value
  | "hour" => some (.int m.hour)
  | "minute" => some (.int m.minute)
  | "second" => some (.int m.second)
  | "microsecond" => some (.int m.microsecond)
  | "fold" => some (.int 0)
  | name => dateField? m.date name

/-- The parts of a day or a moment with some of them replaced. -/
def replaced (args : Arguments) (names : List String) (values : List Nat) : Run (List Nat) := do
  let given ← args.assign (.free [] names)
  (given.zip values).mapM fun (v, old) => do
    match v with
    | none => return old
    | some v =>
      let n ← expectInt v
      if n < 0 then throw .badValue else return n.toNat

def callMoment (m : Moment) (whole : Bool) (name : String) (args : Arguments) : Run Value := do
  let d := m.date
  match name with
  | "strftime" =>
    match ← args.assign (.free ["format"] []) with
    | [some pattern] => return .text (.ofList (m.formatted (← expectText pattern).toList))
    | _ => wrongType
  | "replace" =>
    if whole then
      match ← replaced args ["year", "month", "day"] [d.year, d.month, d.day] with
      | [y, mo, da] =>
        let d : Date := ⟨y, mo, da⟩
        if d.isValid then return .date d else throw .badValue
      | _ => wrongType
    else
      match ← replaced args ["year", "month", "day", "hour", "minute", "second", "microsecond"]
          [d.year, d.month, d.day, m.hour, m.minute, m.second, m.microsecond] with
      | [y, mo, da, h, mi, s, us] =>
        let m : Moment := ⟨⟨y, mo, da⟩, h, mi, s, us, m.offset⟩
        if m.isValid then return .moment m else throw .badValue
      | _ => wrongType
  | "isoformat" =>
    if whole then discard <| args.exactly 0; return .text d.iso
    match ← args.assign (.free [] ["sep", "timespec"]) with
    | [sep, none] =>
      let sep ← match sep with
        | none => pure "T"
        | some v => expectText v
      if sep.length == 1 then return .text (m.textWith sep) else wrongType
    | _ => wrongType
  | name =>
    discard <| args.exactly 0
    match name with
    | "weekday" => return .int d.weekday
    | "isoweekday" => return .int (d.weekday + 1)
    | "toordinal" => return .int d.ordinal
    | "ctime" => return .text (m.directive 'c')
    | "date" => return .date d
    | "timestamp" =>
      match m.offset with
      | some _ => return .float (Number.quotient (m.instant - 62135596800000000 - 86400000000) 1000000)
      | none => wrongType
    | "tzname" => return if m.offset.isSome then .text (m.directive 'Z') else .none
    | _ => wrongType

end Run

end NestedSite
