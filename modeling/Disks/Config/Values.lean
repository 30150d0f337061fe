import Disks.Config.LibConfig

/-!
# The cache of configuration values (`libconfig.py`)

`updateCacheFromContractor` brings the table `value_cache` in line with the values of the
contractor; `setOverlayValues` sets values on top of them, which are not stored. `Value` is what the
contractor's JSON holds, `Code` the text that `pickle` and `base64` make of it.
-/

namespace LibConfig

namespace Values

/-- A `dict` of values. -/
structure Dict (Value : Type) where
  items : List (Str × Value)
  nodup : (items.map (·.1)).Nodup

def Dict.keys {Value : Type} (d : Dict Value) : List Str := d.items.map (·.1)

def Dict.get {Value : Type} (d : Dict Value) (name : Str) : Option Value := d.items.lookup name

/-- A row of the table `value_cache`. -/
structure Row (Code : Type) where
  name : Str
  value : Code

/-- A `Config` with its database. -/
structure State (Value Code Time : Type) where
  value_cache : List (Row Code)
  valuesLastModified : Stored Time
  extra_values : Str → Option Value
  config_uuid : Option Value

/-- What the code relies on: `b64encode( dumps( .. ) )`, `loads( b64decode( .. ) )`, what counts as
true, and `datetimeparser.parse`. -/
structure Env (Value Code Time : Type) where
  encode : Value → Code
  decode : Code → Value
  truthy : Value → Bool
  parse : Value → Option (DateTime Time)

/-- An entry of the result of `getValues`; a time that is read back has no offset. -/
inductive Entry (Value Time : Type)
  | value (v : Value)
  | uuid (config_uuid : Option Value)
  | timestamp (now : Time)
  | lastModified (last_modified : Option Time)

inductive Error
  | emptyConfig
  | notValid
  | uuidMismatch
  | keyError
  | valueError
  | parserError
  | requestFailed
deriving DecidableEq, Repr

def structureConfigUuid : Str := "_structure_config_uuid".toList

def lastModified : Str := "__last_modified".toList

/-- The keys that `getValues` adds itself. -/
def uuidKey : Str := "__uuid__".toList

def timestampKey : Str := "__timestamp__".toList

def lastModifiedKey : Str := "__last_modified__".toList

section config

variable {Value Code Time : Type} [DecidableEq Value] (env : Env Value Code Time)

/-- The rows of a name; of several, the last one counts. -/
def cached (s : State Value Code Time) (name : Str) : Option Value :=
  (s.value_cache.filter (·.name = name)).getLast?.map fun row => env.decode row.value

/-- `getValues`, at the time `now`. -/
def getValues (no_extra : Bool) (now : Time) (s : State Value Code Time) :
    Except Error (Str → Option (Entry Value Time)) :=
  match s.valuesLastModified.fetch with
  | none => .error .valueError
  | some last_modified => .ok fun name =>
    if name = lastModifiedKey then some (.lastModified last_modified)
    else if name = timestampKey then some (.timestamp now)
    else if name = uuidKey then some (.uuid s.config_uuid)
    else if no_extra then (cached env s name).map .value
    else ((s.extra_values name).or (cached env s name)).map .value

/-- `_getContractorValues`, where the contractor answers with `reply`, or the request fails. -/
def getContractorValues (reply : Option (Dict Value)) (s : State Value Code Time) :
    Except (Error × State Value Code Time) (Dict Value × DateTime Time × State Value Code Time) :=
  match reply with
  | none => .error (.requestFailed, s)
  | some values =>
    if values.items = [] then .error (.emptyConfig, s)
    else
      match values.get structureConfigUuid with
      | none => .error (.keyError, s)
      | some config_uuid =>
        if ¬ env.truthy config_uuid then .error (.notValid, s)
        else if s.config_uuid ≠ none ∧ s.config_uuid ≠ some config_uuid then
          .error (.uuidMismatch, s)
        else
          let s := { s with config_uuid := some config_uuid }
          match values.get lastModified with
          | none => .error (.keyError, s)
          | some last_modified =>
            match env.parse last_modified with
            | none => .error (.parserError, s)
            | some last_modified => .ok (values, last_modified, s)

/-- `values[ name ] != value`: no value of JSON is a byte string, so they differ. -/
def differs (_ : Entry Value Time) (_ : Code) : Bool := true

/-- One turn of the loop over the new values. -/
def cacheValue (values : Str → Option (Entry Value Time)) (rows : List (Row Code))
    (item : Str × Value) : List (Row Code) :=
  match values item.1 with
  | some old =>
    if differs old (env.encode item.2) then
      rows.map fun row => if row.name = item.1 then { row with value := env.encode item.2 } else row
    else rows
  | none => rows ++ [⟨item.1, env.encode item.2⟩]

/-- `DELETE FROM "value_cache" WHERE "name" = ?`. -/
def deleteValue (rows : List (Row Code)) (name : Str) : List (Row Code) :=
  rows.filter (·.name ≠ name)

/-- `updateCacheFromContractor`. -/
def updateCacheFromContractor (reply : Option (Dict Value)) (now : Time)
    (s : State Value Code Time) : Except (Error × State Value Code Time) (State Value Code Time) :=
  match getContractorValues env reply s with
  | .error e => .error e
  | .ok (new_values, last_modified, s) =>
    match getValues env true now s with
    | .error e => .error (e, s)
    | .ok values =>
      let rows := new_values.items.foldl (cacheValue env values) s.value_cache
      let unknown := (rows.map (·.name)).filter (! new_values.keys.contains ·)
      let rows := unknown.dedup.foldl deleteValue rows
      .ok { s with value_cache := rows, valuesLastModified := last_modified.store }

/-- `setOverlayValues`. -/
def setOverlayValues (values : Dict Value) (s : State Value Code Time) : State Value Code Time :=
  { s with extra_values := fun name => (values.get name).or (s.extra_values name) }

end config

end Values

end LibConfig
