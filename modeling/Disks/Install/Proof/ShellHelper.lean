import Disks.Lib.Shell
import Disks.Install.ShellHelper

/-!
# The shell reads the values as they are (`linux-installer/root/installer/config.py`)

* `foldl_writeShellHelper`: each value is a line with one word, an assignment.
* `source_writeShellHelper`: sourcing the file assigns the values, in their order.
* `sourced_values`: **each variable is the text of its value; nothing is executed, and nothing else
  is assigned.**
-/

namespace Installer

open Shell

variable {V : Type} (str : V → List Char) {values : Assoc.Dict (List Char) V}

/-- The line of one value. -/
theorem foldl_configLine {name : List Char} (hname : isName name) (text : List Char)
    (lines : List (List Token)) :
    (configLine name text).foldl Lexer.step ⟨.plain, none, [], lines⟩ =
      ⟨.plain, none, [], lines ++ [[.word (assignmentWord name text)]]⟩ :=
  foldl_assignment hname text lines

/-- The lines of the file: between two values the shell is back where it began. -/
theorem foldl_writeShellHelper (hnames : ∀ p ∈ values, isName p.1) (lines : List (List Token)) :
    (writeShellHelper str values).foldl Lexer.step ⟨.plain, none, [], lines⟩ =
      ⟨.plain, none, [], lines ++ values.map fun p => [.word (assignmentWord p.1 (str p.2))]⟩ := by
  induction values generalizing lines with
  | nil => simp [writeShellHelper]
  | cons p values ih =>
    rw [List.forall_mem_cons] at hnames
    have hrest := ih hnames.2 (lines ++ [[.word (assignmentWord p.1 (str p.2))]])
    rw [writeShellHelper] at hrest ⊢
    rw [List.flatMap_cons, List.foldl_append, foldl_configLine hnames.1, hrest]
    simp

theorem nul_notMem_name {name : List Char} (hname : isName name) : '\x00' ∉ name := by
  intro hmem
  have hall := List.all_eq_true.mp (Bool.and_eq_true_iff.mp hname).1
  have hnul : isNameChar '\x00' = false := by decide
  rw [hall _ hmem] at hnul
  cases hnul

theorem nul_notMem_writeShellHelper (hnames : ∀ p ∈ values, isName p.1)
    (hnul : ∀ p ∈ values, '\x00' ∉ str p.2) : '\x00' ∉ writeShellHelper str values := by
  intro hmem
  obtain ⟨p, hp, hline⟩ := List.mem_flatMap.mp hmem
  simp only [configLine, replace, List.mem_append, List.mem_flatMap] at hline
  rcases hline with ((hname | hopen) | ⟨c, hc, hcode⟩) | hclose
  · exact nul_notMem_name (hnames p hp) hname
  · simp at hopen
  · by_cases hquote : c = '\''
    · rw [if_pos hquote] at hcode
      simp at hcode
    · rw [if_neg hquote, List.mem_singleton] at hcode
      exact hnul p hp (hcode ▸ hc)
  · simp at hclose

/-- What the file does. -/
theorem source_writeShellHelper (hnames : ∀ p ∈ values, isName p.1)
    (hnul : ∀ p ∈ values, '\x00' ∉ str p.2) :
    source (writeShellHelper str values) =
      some (values.map fun p => .assign p.1 (str p.2)) := by
  have hread := foldl_writeShellHelper str hnames []
  have hcontains : (writeShellHelper str values).contains '\x00' = false := by
    simpa using nul_notMem_writeShellHelper str hnames hnul
  have hline (p : List Char × V) (hp : p ∈ values) :
      command [.word (assignmentWord p.1 (str p.2))] = [.assign p.1 (str p.2)] :=
    command_assignment (hnames p hp) _
  -- the line after the last one is empty
  have hlast : command [] = [] := rfl
  have hlines : (values.map fun p => [Token.word (assignmentWord p.1 (str p.2))]).flatMap command =
      values.map fun p => .assign p.1 (str p.2) := by
    rw [List.flatMap_map, List.flatMap_congr hline, List.map_eq_flatMap]
  unfold source Lexer.start
  rw [hread, hcontains]
  simp [Lexer.endLine, Lexer.endWord, hlast, hlines]

/-- **Sourcing the file gives each variable the text of its value, and does nothing else.** -/
theorem sourced_values (hnames : ∀ p ∈ values, isName p.1) (hkeys : (Assoc.keys values).Nodup)
    (hnul : ∀ p ∈ values, '\x00' ∉ str p.2) :
    ∃ events, source (writeShellHelper str values) = some events ∧ .exec ∉ events ∧
      ∀ env, (∀ p ∈ values, after env events p.1 = some (str p.2)) ∧
        ∀ name, name ∉ Assoc.keys values → after env events name = env name := by
  refine ⟨_, source_writeShellHelper str hnames hnul, by simp, fun env => ⟨?_, ?_⟩⟩
  · intro p hp
    have hfst : ((values.map fun q => (q.1, str q.2)).map (·.1)).Nodup := by
      rw [List.map_map]
      exact hkeys
    have hmem : (p.1, str p.2) ∈ values.map fun q => (q.1, str q.2) :=
      List.mem_map_of_mem (f := fun q : List Char × V => (q.1, str q.2)) hp
    have hvalue := after_of_mem hfst hmem env
    rw [List.map_map] at hvalue
    exact hvalue
  · intro name hname
    refine after_of_notMem (fun value hvalue => hname ?_) env
    obtain ⟨p, hp, heq⟩ := List.mem_map.mp hvalue
    have hfst : p.1 = name := (Event.assign.inj heq).1
    exact hfst ▸ List.mem_map_of_mem hp

/-- A value with quotes, a command substitution and a line of its own, beside a plain one. -/
def trickyValues : Assoc.Dict (List Char) (List Char) :=
  [("hostname".toList, "web1".toList), ("motd".toList, "it's $(reboot)\n\"now\" \\`date`".toList)]

theorem tricky_sourced :
    ∃ events, source (writeShellHelper id trickyValues) = some events ∧ .exec ∉ events ∧
      ∀ env, (∀ p ∈ trickyValues, after env events p.1 = some (id p.2)) ∧
        ∀ name, name ∉ Assoc.keys trickyValues → after env events name = env name :=
  sourced_values id (by simp [trickyValues]; decide) (by decide)
    (by simp [trickyValues])

end Installer
