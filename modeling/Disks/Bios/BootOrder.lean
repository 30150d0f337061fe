import Mathlib.Data.List.Basic

/-!
# The boot order check (`bios-cfg/root/bioscfg`)

The boot order of a machine is a list of entries with a device class and a name; an item of the
configuration may name the class alone. Before the lists are compared, the entries of a class that
is configured alone are collapsed into one, while the list is iterated over.
-/

namespace BiosCfg

/-- An entry of the boot order: `[ class, name ]`, or `[ class ]` once it is collapsed. -/
structure Entry where
  device_class : String
  name : Option String
deriving DecidableEq, Repr

/-- The entry as the list that it is compared as. -/
def Entry.asList (entry : Entry) : List String := entry.device_class :: entry.name.toList

/-- `getBoot`: every entry has a class and a name. -/
def getBoot (entries : List (String × String)) : List Entry :=
  entries.map fun entry => ⟨entry.1, some entry.2⟩

/-- `for item2 in boot`, from position `i` on; an entry is found again by its value. -/
def collapseFrom (device_class : String) : Nat → Nat → Bool → List Entry → List Entry
  | 0, _, _, boot => boot
  | turns + 1, i, found, boot =>
    match boot[i]? with
    | none => boot
    | some item2 =>
      if item2.device_class = device_class then
        let index := boot.idxOf item2
        if found then
          collapseFrom device_class turns (i + 1) found (boot.eraseIdx index)
        else
          collapseFrom device_class turns (i + 1) true
            (boot.set index ⟨item2.device_class, none⟩)
      else
        collapseFrom device_class turns (i + 1) found boot

/-- What an item of the configuration does to the boot order. -/
def collapse (boot : List Entry) (item : List String) : List Entry :=
  match item with
  | [device_class] => collapseFrom device_class boot.length 0 false boot
  | _ => boot

/-- The list that is compared with the configuration. -/
def collapseAll (config : List (List String)) (boot : List Entry) : List Entry :=
  config.foldl collapse boot

/-- `boot != config['boot']`: the boot order is set, and the machine rebooted. -/
def reprogrammed (config : List (List String)) (entries : List (String × String)) : Bool :=
  config ≠ [] ∧ (collapseAll config (getBoot entries)).map Entry.asList ≠ config

end BiosCfg
