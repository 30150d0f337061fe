import Disks.Lib.Assoc

/-!
# The values for shell scripts (`writeShellHelper` of `linux-installer/root/installer/config.py`)

`str()` of a value is a parameter.
-/

namespace Installer

/-- `s.replace( old, new )`, for one character. -/
def replace (s : List Char) (old : Char) (new : List Char) : List Char :=
  s.flatMap fun c => if c = old then new else [c]

/-- `'{0}=\'{1}\'\n'.format( value, .. )` -/
def configLine (value str : List Char) : List Char :=
  value ++ "='".toList ++ replace str '\'' "'\"'\"'".toList ++ "'\n".toList

/-- What `writeShellHelper` writes to `/target/config_data`. -/
def writeShellHelper {V : Type} (str : V → List Char) (values : Assoc.Dict (List Char) V) :
    List Char :=
  values.flatMap fun p => configLine p.1 (str p.2)

end Installer
