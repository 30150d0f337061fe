import Disks.Lib.Path
import Mathlib.Data.Char
import Mathlib.Data.List.Dedup
import Mathlib.Data.List.Lex
import Mathlib.Order.Lattice

/-!
# Packages of configuration templates (`libconfig.py`)

`configPackage` builds the target files of a package's templates and keeps a database of what it
built; `getTargetStatus` reports on them. A `Template` is a template of the package with what it
renders to under the values of the call. The tables are lists of rows; file names are those of
`Disks.Lib.Path`, and a saved file's name (a target's with the time behind it) is no target's.

The queries put the names of the package and the template between double quotes, where SQLite reads
the name of a column as the column (`equals`). A name that holds a quotation mark itself makes
another statement of it (`Env.templatesWhere`, `Env.targetsWhere`).
-/

namespace LibConfig

open Path

abbrev Str := List Char

instance : LawfulBEq Str := inferInstance

inductive Error
  | typeError
  | fileNotFound
  | valueError
  | operationalError
deriving DecidableEq, Repr

/-! ## Stored times -/

/-- A time as a `datetime`; the offset is that of its time zone, in seconds. -/
structure DateTime (Time : Type) where
  naive : Time
  microsecond : Nat
  offset : Option Int

/-- A time in the database. -/
inductive Stored (Time : Type)
  | null
  | time (t : Time)
  -- the converter of `sqlite3` raises
  | unreadable

/-- What `isoformat( ' ' )` writes, as `convert_timestamp` reads it: an offset behind whole seconds
is no number of seconds; behind a fraction it is cut off with what follows six digits. -/
def DateTime.store {Time : Type} (t : DateTime Time) : Stored Time :=
  if t.offset.isSome ∧ t.microsecond = 0 then .unreadable else .time t.naive

/-- The time that is read back; `none` for `ValueError`. -/
def Stored.fetch {Time : Type} : Stored Time → Option (Option Time)
  | .null => some none
  | .time t => some (some t)
  | .unreadable => none

/-! ## The database and the files -/

/-- A row of the table `templates`. -/
structure TemplateRow (Hash Time : Type) where
  rowid : Nat
  package : Str
  template : Str
  templateHash : Option Hash
  lastChecked : Option Time
  lastBuilt : Option Time
  created : Option Time
  modified : Option Time

/-- A row of the table `targets`. -/
structure TargetRow (Hash Time : Type) where
  rowid : Nat
  package : Str
  template : Str
  target : Str
  targetHash : Option Hash
  lastChecked : Option Time
  lastBuilt : Option Time
  created : Option Time
  modified : Option Time

/-- What is done to a file; a saved one has the suffix behind its name. -/
inductive FileOp
  | rename (f : File) (suffix : Str)
  | write (f : File) (content : Str)

/-- The target files and the saved ones, the database, how often the clock was read, and what was
done to the files. -/
structure System (Hash Time : Type) where
  fs : File → Option Str
  saved : File → Str → Option Str
  templates : List (TemplateRow Hash Time)
  targets : List (TargetRow Hash Time)
  valuesLastModified : Stored Time
  ticks : Nat
  ops : List FileOp

/-- The surroundings of a `Config`: its root directory, `sha1`, the clock and `strftime`; and of
SQLite how it compares hashes and times with a text, a text with a number, and what it selects
where a name holds a quotation mark. -/
structure Env (Hash Time : Type) where
  root_dir : Str
  sha1 : Str → Hash
  clock : Nat → Time
  strftime : Time → Str
  hashText : Hash → Str
  timeText : Time → Str
  number : Str → Option Nat
  templatesWhere : Str → List (TemplateRow Hash Time) → Except Error (List (TemplateRow Hash Time))
  targetsWhere : Str → Str → List (TargetRow Hash Time) →
    Except Error (List (TargetRow Hash Time))

structure Template where
  name : Str
  source : Str
  targets : List (Str × Str)

def Template.target_list (t : Template) : List Str := t.targets.map (·.1)

/-- The templates of a package, as the directory lists them. -/
structure Package where
  name : Str
  templates : List Template
  nodup : (templates.map (·.name)).Nodup

/-- The arguments of `configPackage`. -/
structure Options where
  master_template_list : List Str
  force : Bool
  dry_run : Bool
  no_backups : Bool
  re_generate : Bool
  dest_rootdir : Str := []

/-- Why a target is not simply overwritten. -/
inductive Message
  | localChanges
  | allreadyExists
deriving DecidableEq, Repr

/-- What `_getTargets` returns for a target. -/
structure TargetInfo (Hash Time : Type) where
  hash : Option Hash
  last_built : Option Time

section config

variable {Hash Time : Type} [DecidableEq Hash] [LinearOrder Time] (env : Env Hash Time)

/-! ## The queries -/

def quotationMark : Char := Char.ofNat 34

/-- What stands on the other side of a comparison with a text. -/
inductive Operand
  | null
  | text (t : Str)
  | number (n : Nat)

def Operand.hash : Option Hash → Operand
  | none => .null
  | some hash => .text (env.hashText hash)

def Operand.time : Option Time → Operand
  | none => .null
  | some time => .text (env.timeText time)

/-- The columns of a row, under their names in lower case and those of its number. -/
def TemplateRow.columns (r : TemplateRow Hash Time) : List (Str × Operand) :=
  [("package".toList, .text r.package),
    ("template".toList, .text r.template),
    ("templatehash".toList, .hash env r.templateHash),
    ("lastchecked".toList, .time env r.lastChecked),
    ("lastbuilt".toList, .time env r.lastBuilt),
    ("created".toList, .time env r.created),
    ("modified".toList, .time env r.modified),
    ("rowid".toList, .number r.rowid),
    ("oid".toList, .number r.rowid),
    ("_rowid_".toList, .number r.rowid)]

def TargetRow.columns (r : TargetRow Hash Time) : List (Str × Operand) :=
  [("package".toList, .text r.package),
    ("template".toList, .text r.template),
    ("target".toList, .text r.target),
    ("targethash".toList, .hash env r.targetHash),
    ("lastchecked".toList, .time env r.lastChecked),
    ("lastbuilt".toList, .time env r.lastBuilt),
    ("created".toList, .time env r.created),
    ("modified".toList, .time env r.modified),
    ("rowid".toList, .number r.rowid),
    ("oid".toList, .number r.rowid),
    ("_rowid_".toList, .number r.rowid)]

/-- `.. = "name"`: the column of this name, in upper or lower case, or else the name itself. -/
def equals (columns : List (Str × Operand)) (value name : Str) : Bool :=
  match (columns.lookup (name.map Char.toLower)).getD (.text name) with
  | .null => false
  | .text t => value = t
  | .number n => env.number value = some n

/-- `WHERE package = "{0}"`. -/
def selectTemplates (package : Str) (s : System Hash Time) :
    Except Error (List (TemplateRow Hash Time)) :=
  if quotationMark ∈ package then env.templatesWhere package s.templates
  else .ok (s.templates.filter fun r => equals env (r.columns env) r.package package)

/-- `WHERE package = "{0}" AND template = "{1}"`. -/
def selectTargets (package template : Str) (s : System Hash Time) :
    Except Error (List (TargetRow Hash Time)) :=
  if quotationMark ∈ package ++ template then env.targetsWhere package template s.targets
  else .ok (s.targets.filter fun r =>
    equals env (r.columns env) r.package package && equals env (r.columns env) r.template template)

/-- `_getTemplates`: of several rows, the last one counts. -/
def getTemplates (package : Str) (s : System Hash Time) :
    Except Error (Str → Option (Option Hash)) :=
  (selectTemplates env package s).map fun rows template =>
    (rows.filter (·.template = template)).getLast?.map (·.templateHash)

/-- `_getTargets`. -/
def getTargets (package template : Str) (s : System Hash Time) :
    Except Error (Str → Option (TargetInfo Hash Time)) :=
  (selectTargets env package template s).map fun rows target =>
    (rows.filter (·.target = target)).getLast?.map fun r => ⟨r.targetHash, r.lastBuilt⟩

/-- `getLastModified`. -/
def getLastModified (s : System Hash Time) : Except Error (Option Time) :=
  match s.valuesLastModified.fetch with
  | some last_modified => .ok last_modified
  | none => .error .valueError

/-! ## The tables -/

/-- `CURRENT_TIMESTAMP`. -/
def now (s : System Hash Time) : Time := env.clock s.ticks

/-- The number of a new row. -/
def nextRowid (rowids : List Nat) : Nat := rowids.foldl max 0 + 1

def insertTemplate (package template : Str) (hash : Option Hash) (built : Bool)
    (s : System Hash Time) : System Hash Time :=
  { s with
    templates := s.templates ++
      [{ rowid := nextRowid (s.templates.map (·.rowid))
         package := package
         template := template
         templateHash := hash
         lastChecked := some (now env s)
         lastBuilt := if built then some (now env s) else none
         created := some (now env s)
         modified := some (now env s) }]
    ticks := s.ticks + 1 }

/-- `UPDATE "templates" .. WHERE "package" = ? AND "template" = ?`, of a template that was checked
or built. -/
def updateTemplate (package template : Str) (built : Option Hash) (s : System Hash Time) :
    System Hash Time :=
  { s with
    templates := s.templates.map fun r =>
      if r.package = package ∧ r.template = template then
        match built with
        | none => { r with lastChecked := some (now env s), modified := some (now env s) }
        | some hash => { r with
            templateHash := some hash, lastChecked := some (now env s),
            lastBuilt := some (now env s), modified := some (now env s) }
      else r
    ticks := s.ticks + 1 }

def insertTarget (package template target : Str) (built : Option Hash) (s : System Hash Time) :
    System Hash Time :=
  { s with
    targets := s.targets ++
      [{ rowid := nextRowid (s.targets.map (·.rowid))
         package := package
         template := template
         target := target
         targetHash := built
         lastChecked := some (now env s)
         lastBuilt := built.map fun _ => now env s
         created := some (now env s)
         modified := some (now env s) }]
    ticks := s.ticks + 1 }

/-- `UPDATE "targets" .. WHERE "package" = ? AND "template" = ? AND "target" = ?`. -/
def updateTarget (package template target : Str) (built : Option Hash) (s : System Hash Time) :
    System Hash Time :=
  { s with
    targets := s.targets.map fun r =>
      if r.package = package ∧ r.template = template ∧ r.target = target then
        match built with
        | none => { r with lastChecked := some (now env s), modified := some (now env s) }
        | some hash => { r with
            targetHash := some hash, lastChecked := some (now env s),
            lastBuilt := some (now env s), modified := some (now env s) }
      else r
    ticks := s.ticks + 1 }

/-! ## The files -/

/-- `os.rename( target_file, '{0}.{1}' )`, of a file that exists: one saved under this name before
is replaced. -/
def rename (f : File) (s : System Hash Time) : System Hash Time :=
  let suffix := env.strftime (now env s)
  { s with
    fs := fun g => if g = f then none else s.fs g
    saved := fun g time => if g = f ∧ time = suffix then s.fs f else s.saved g time
    ops := s.ops ++ [.rename f suffix]
    ticks := s.ticks + 1 }

def write (s : System Hash Time) (f : File) (content : Str) : System Hash Time :=
  { s with
    fs := fun g => if g = f then some content else s.fs g
    ops := s.ops ++ [.write f content] }

/-- The file `configPackage` looks at. -/
def targetFile (opts : Options) (target : Str) : File :=
  if opts.dest_rootdir ≠ [] then
    file (join env.root_dir (split opts.dest_rootdir ++ split target))
  else file (join env.root_dir (split target))

/-- The file that rendering a template with `_root_dir` writes. -/
def writtenFile (opts : Options) (target : Str) : File :=
  file (join (joinOne env.root_dir opts.dest_rootdir) (split target))

/-- `_renderTemplate`. -/
def renderTemplate (opts : Options) (t : Template) (s : System Hash Time) : System Hash Time :=
  t.targets.foldl (fun s p => write s (writtenFile env opts p.1) p.2) s

/-! ## `configPackage` -/

/-- `last_modified > last_built`, which raises where one of them is `None`. -/
def later : Option Time → Option Time → Option Bool
  | some last_modified, some last_built => some (decide (last_built < last_modified))
  | _, _ => none

/-- The reasons to build a target and what stands in the way: `need_build` and `msg`. -/
def examine (last_modified : Option Time) (row : Option (TargetInfo Hash Time))
    (target_hash : Option Hash) (need_build : Bool) : Option (Bool × Option Message) :=
  let need_build := need_build || target_hash.isNone
  match row with
  | some row =>
    match later last_modified row.last_built with
    | none => none
    | some old =>
      let need_build := need_build || old
      match target_hash with
      | none => some (true, none)
      | some hash =>
        if some hash ≠ row.hash then some (true, some .localChanges) else some (need_build, none)
  | none => some (need_build, target_hash.map fun _ => .allreadyExists)

/-- Where the loop over the targets is. -/
structure Check (Hash Time : Type) where
  need_build : Bool
  no_build : Bool
  s : System Hash Time

/-- One turn of the loop over the targets. -/
def checkTarget (opts : Options) (last_modified : Option Time)
    (target_db_list : Str → Option (TargetInfo Hash Time)) (c : Check Hash Time) (target : Str) :
    Except (Error × System Hash Time) (Check Hash Time) :=
  let target_file := targetFile env opts target
  let target_hash := (c.s.fs target_file).map env.sha1
  match examine last_modified (target_db_list target) target_hash c.need_build with
  | none => .error (.typeError, c.s)
  | some (need_build, msg) =>
    if need_build ∧ msg.isSome then
      if ¬ opts.force then .ok ⟨need_build, true, c.s⟩
      else if opts.no_backups ∨ opts.dry_run then .ok ⟨need_build, c.no_build, c.s⟩
      else .ok ⟨need_build, c.no_build, rename env target_file c.s⟩
    else .ok ⟨need_build, c.no_build, c.s⟩

/-- The rows of a template that needs no build. -/
def markChecked (package : Str) (t : Template) (template_hash : Option (Option Hash))
    (target_db_list : Str → Option (TargetInfo Hash Time)) (s : System Hash Time) :
    System Hash Time :=
  match template_hash with
  | none =>
    t.target_list.foldl (fun s target => insertTarget env package t.name target none s)
      (insertTemplate env package t.name none false s)
  | some _ =>
    t.target_list.foldl (fun s target =>
        match target_db_list target with
        | none => insertTarget env package t.name target none s
        | some _ => updateTarget env package t.name target none s)
      (updateTemplate env package t.name none s)

/-- The row of a target that was built. -/
def recordTarget (package : Str) (t : Template) (known : Bool) (s : System Hash Time)
    (target : Str) : Except (Error × System Hash Time) (System Hash Time) :=
  match s.fs (file (join env.root_dir (split target))) with
  | none => .error (.fileNotFound, s)
  | some content =>
    if known then .ok (updateTarget env package t.name target (some (env.sha1 content)) s)
    else .ok (insertTarget env package t.name target (some (env.sha1 content)) s)

/-- The rows of a template that was built. -/
def record (package : Str) (t : Template) (known : Bool) (s : System Hash Time) :
    Except (Error × System Hash Time) (System Hash Time) :=
  t.target_list.foldlM (recordTarget env package t known)
    (if known then updateTemplate env package t.name (some (env.sha1 t.source)) s
      else insertTemplate env package t.name (some (env.sha1 t.source)) true s)

/-- The reasons to build a template besides its targets: it is new or modified, or everything is to
be generated again. -/
def templateDue (opts : Options) (t : Template) (template_hash : Option (Option Hash)) : Bool :=
  opts.re_generate || decide (template_hash ≠ some (some (env.sha1 t.source)))

/-- One turn of the loop over the templates. -/
def configTemplate (package : Str) (opts : Options) (last_modified : Option Time)
    (template_db_list : Str → Option (Option Hash)) (s : System Hash Time) (t : Template) :
    Except (Error × System Hash Time) (System Hash Time) :=
  if t.name ∉ opts.master_template_list then .ok s
  else
    match getTargets env package t.name s with
    | .error e => .error (e, s)
    | .ok target_db_list =>
      match t.target_list.foldlM (checkTarget env opts last_modified target_db_list)
        ⟨false, false, s⟩ with
      | .error e => .error e
      | .ok c =>
        if c.no_build then .ok c.s
        else
          let need_build := c.need_build || templateDue env opts t (template_db_list t.name)
          if opts.dry_run then .ok c.s
          else if ¬ need_build ∧ opts.dest_rootdir = [] then
            .ok (markChecked env package t (template_db_list t.name) target_db_list c.s)
          else
            let s := renderTemplate env opts t c.s
            if opts.dest_rootdir ≠ [] then .ok s
            else record env package t (template_db_list t.name).isSome s

/-- `configPackage`. -/
def configPackage (package : Package) (opts : Options) (s : System Hash Time) :
    Except (Error × System Hash Time) (System Hash Time) :=
  match getLastModified s, getTemplates env package.name s with
  | .error e, _ => .error (e, s)
  | .ok _, .error e => .error (e, s)
  | .ok last_modified, .ok template_db_list =>
    package.templates.foldlM
      (configTemplate env package.name opts last_modified template_db_list) s

/-! ## `getTargetStatus` -/

inductive NeedUpdate
  | unknown
  | yes
  | no
deriving DecidableEq, Repr

inductive Localmod
  | unknown
  | yes
  | no
  | missing
deriving DecidableEq, Repr

/-- An entry of the report; `last_built` is `none` for `'Unknown'`. -/
structure Status (Time : Type) where
  template : Str
  target : Str
  need_update : NeedUpdate
  last_built : Option (Option Time)
  refrenced : Bool
  localmod : Localmod

/-- The file `getTargetStatus` looks at. -/
def statusFile (target : Str) : File := file (joinOne env.root_dir target)

/-- The entry of a target that a template of the package has. -/
def targetStatus (last_modified : Option Time) (template_hash : Option (Option Hash))
    (target_db_list : Str → Option (TargetInfo Hash Time)) (t : Template) (s : System Hash Time)
    (target : Str) : Except Error (Status Time) :=
  match template_hash, target_db_list target with
  | some template_hash, some row =>
    let localmod := match s.fs (statusFile env target) with
      | some content => if row.hash ≠ some (env.sha1 content) then .yes else .no
      | none => .missing
    match last_modified, row.last_built with
    | none, _ => .ok ⟨t.name, target, .unknown, some row.last_built, true, localmod⟩
    | some _, none => .error .typeError
    | some last_modified, some last_built =>
      let need_update :=
        if last_built < last_modified ∨ some (env.sha1 t.source) ≠ template_hash then .yes else .no
      .ok ⟨t.name, target, need_update, some row.last_built, true, localmod⟩
  | _, _ => .ok ⟨t.name, target, .yes, none, true, .unknown⟩

/-- The entries of the targets that a template of the package has. -/
def templateStatus (package : Str) (last_modified : Option Time)
    (template_db_list : Str → Option (Option Hash)) (s : System Hash Time) (t : Template) :
    Except Error (List (Status Time)) :=
  match getTargets env package t.name s with
  | .error e => .error e
  | .ok target_db_list =>
    t.target_list.mapM
      (targetStatus env last_modified (template_db_list t.name) target_db_list t s)

/-- The names in a column, in the order of `ORDER BY`. -/
def sorted (names : List Str) : List Str := (names.mergeSort (· ≤ ·)).dedup

/-- The entries of the rows whose template no longer has the target. -/
def staleStatus (package : Package) (s : System Hash Time) (template : Str) :
    Except Error (List (Status Time)) :=
  match selectTargets env package.name template s with
  | .error e => .error e
  | .ok rows =>
    let target_list :=
      (package.templates.filter (·.name = template)).flatMap (·.target_list)
    .ok (((sorted (rows.map (·.target))).filter (· ∉ target_list)).map fun target =>
      ⟨template, target, .unknown, (rows.filter (·.target = target)).getLast?.map (·.lastBuilt),
        false, .unknown⟩)

/-- `getTargetStatus`. -/
def getTargetStatus (package : Package) (s : System Hash Time) :
    Except Error (List (Status Time)) := do
  let last_modified ← getLastModified s
  let template_db_list ← getTemplates env package.name s
  let rows ← selectTemplates env package.name s
  let results ← package.templates.mapM
    (templateStatus env package.name last_modified template_db_list s)
  let stale ← (sorted (rows.map (·.template))).mapM (staleStatus env package s)
  pure (results.flatten ++ stale.flatten)

end config

end LibConfig
