import Disks.Config.LibConfig

/-!
# What the queries see

What the tables have of a template and its targets (`recordedTemplate`, `recorded`), and what the
queries of `_getTemplates` and `_getTargets` make of it, which put the names between double quotes.
A `PlainPackage` and a `PlainTemplate` have names that SQLite takes for themselves.

* `equals_of_notMem`: a name that is no column's is compared as it is.
* `getTemplates_plain`, `getTargets_plain`: **the queries for plain names give what the tables
  have.**
-/

namespace LibConfig

section tables

variable {Hash Time : Type}

/-! ## The tables -/

/-- What the rows of a template say: of several, the last one counts. -/
def recordedTemplate (package : Str) (s : System Hash Time) (template : Str) :
    Option (Option Hash) :=
  (s.templates.filter fun r => r.package = package ∧ r.template = template).getLast?.map
    (·.templateHash)

/-- What the rows of a target say. -/
def entries (s : System Hash Time) (package template target : Str) :
    List (TargetInfo Hash Time) :=
  (s.targets.filter fun r =>
    r.package = package ∧ r.template = template ∧ r.target = target).map
      fun r => ⟨r.targetHash, r.lastBuilt⟩

def recorded (package template : Str) (s : System Hash Time) (target : Str) :
    Option (TargetInfo Hash Time) :=
  (entries s package template target).getLast?

/-! ## Plain names -/

def templateColumns : List Str :=
  ["package".toList, "template".toList, "templatehash".toList, "lastchecked".toList,
    "lastbuilt".toList, "created".toList, "modified".toList, "rowid".toList, "oid".toList,
    "_rowid_".toList]

def targetColumns : List Str :=
  ["package".toList, "template".toList, "target".toList, "targethash".toList,
    "lastchecked".toList, "lastbuilt".toList, "created".toList, "modified".toList,
    "rowid".toList, "oid".toList, "_rowid_".toList]

/-- The name holds no quotation mark and is no column's of the tables it is asked of. -/
def PlainPackage (package : Str) : Prop :=
  quotationMark ∉ package ∧ package.map Char.toLower ∉ templateColumns ++ targetColumns

def PlainTemplate (template : Str) : Prop :=
  quotationMark ∉ template ∧ template.map Char.toLower ∉ targetColumns

variable (env : Env Hash Time)

theorem templateRow_columns (r : TemplateRow Hash Time) :
    (r.columns env).map (·.1) = templateColumns := rfl

theorem targetRow_columns (r : TargetRow Hash Time) :
    (r.columns env).map (·.1) = targetColumns := rfl

/-! ## What the queries give -/

/-- A name that is no column's is compared as it is. -/
theorem equals_of_notMem {columns : List (Str × Operand)} {value name : Str}
    (h : name.map Char.toLower ∉ columns.map (·.1)) :
    equals env columns value name = decide (value = name) := by
  have hnone : columns.lookup (name.map Char.toLower) = none := by
    rw [List.lookup_eq_none_iff]
    intro p hp
    have hne : name.map Char.toLower ≠ p.1 := fun heq => h (heq ▸ List.mem_map_of_mem hp)
    simpa using hne
  rw [equals, hnone, Option.getD_none]

variable {env} {package template : Str}

/-- The query for the templates of a plain package gives what the table has. -/
theorem getTemplates_plain (h : PlainPackage package) (s : System Hash Time) :
    getTemplates env package s = .ok (recordedTemplate package s) := by
  have hequals (r : TemplateRow Hash Time) :
      equals env (r.columns env) r.package package = decide (r.package = package) := by
    refine equals_of_notMem env fun hmem => h.2 (List.mem_append_left _ ?_)
    rwa [templateRow_columns] at hmem
  unfold getTemplates selectTemplates
  rw [if_neg h.1]
  refine congrArg Except.ok (funext fun template => ?_)
  simp only [recordedTemplate, List.filter_filter]
  congr 2
  refine List.filter_congr fun r _ => ?_
  rw [hequals]
  by_cases hp : r.package = package <;> simp [hp]

/-- The query for the targets of a plain template gives what the table has. -/
theorem getTargets_plain (h : PlainPackage package) (ht : PlainTemplate template)
    (s : System Hash Time) :
    getTargets env package template s = .ok (recorded package template s) := by
  have hpackage (r : TargetRow Hash Time) :
      equals env (r.columns env) r.package package = decide (r.package = package) := by
    refine equals_of_notMem env fun hmem => h.2 (List.mem_append_right _ ?_)
    rwa [targetRow_columns] at hmem
  have htemplate (r : TargetRow Hash Time) :
      equals env (r.columns env) r.template template = decide (r.template = template) := by
    refine equals_of_notMem env fun hmem => ht.2 ?_
    rwa [targetRow_columns] at hmem
  unfold getTargets selectTargets
  rw [if_neg fun hmem => (List.mem_append.1 hmem).elim h.1 ht.1]
  refine congrArg Except.ok (funext fun target => ?_)
  simp only [recorded, entries, List.getLast?_map, List.filter_filter]
  congr 2
  refine List.filter_congr fun r _ => ?_
  rw [hpackage, htemplate]
  by_cases hp : r.package = package <;> by_cases hr : r.template = template <;> simp [hp, hr]

end tables

end LibConfig
