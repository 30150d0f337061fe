import Mathlib.Data.List.DropRight

/-!
# POSIX path names

Path names as lists of characters, joined as `posixpath.join` does it, and the file a name stands
for: whether it starts at the root, and the names on the way, without the empty ones (`//`) but
with an empty last one (a name that ends in `/` can only be a directory). Links are not resolved,
the names `.` and `..` only by `resolve`.

* `file_joinOne`: the file of a name joined to a path.
* `file_join_split`: the same for a name joined piece by piece, which never leaves the path.
-/

namespace Path

/-- One step of `posixpath.join`: an absolute name replaces the path. -/
def joinOne (path name : List Char) : List Char :=
  if name.head? = some '/' then name
  else if path = [] ∨ path.getLast? = some '/' then path ++ name
  else path ++ '/' :: name

/-- `posixpath.join( path, *names )`. -/
def join (path : List Char) (names : List (List Char)) : List Char :=
  names.foldl joinOne path

/-- `path.split( '/' )`. -/
def split (path : List Char) : List (List Char) := path.splitOn '/'

structure File where
  absolute : Bool
  names : List (List Char)
deriving DecidableEq, Repr

def isAbsolute (path : List Char) : Bool := path.head? = some '/'

/-- The directories on the way to what is joined to a path. -/
def dirs (path : List Char) : List (List Char) := (split path).filter (· ≠ [])

/-- The directories with `.` and `..` taken as they are meant. -/
def resolve (names : List (List Char)) : List (List Char) :=
  names.foldl (fun path name =>
    if name = ['.'] then path else if name = ['.', '.'] then path.dropLast else path ++ [name]) []

/-- The names on the way to the last one, which may be empty. -/
def clean (names : List (List Char)) : List (List Char) :=
  names.dropLast.filter (· ≠ []) ++ [names.getLastD []]

def file (path : List Char) : File := ⟨isAbsolute path, clean (split path)⟩

/-! ## The pieces of a joined path -/

theorem split_append (path name : List Char) :
    split (path ++ '/' :: name) = split path ++ split name :=
  List.splitOn_append_cons_self path name

theorem split_ne_nil (path : List Char) : split path ≠ [] := List.splitOn_ne_nil '/' path

theorem clean_append {names : List (List Char)} (h : names ≠ []) (first : List (List Char)) :
    clean (first ++ names) = first.filter (· ≠ []) ++ clean names := by
  simp [clean, List.dropLast_append_of_ne_nil h, List.getLastD_eq_getLast?,
    List.getLast?_append_of_ne_nil _ h]

theorem notMem_of_mem_split {path name : List Char} (h : name ∈ split path) : '/' ∉ name := by
  induction path generalizing name with
  | nil =>
    obtain rfl : name = [] := by simpa [split] using h
    simp
  | cons c path ih =>
    unfold split at h
    rw [List.splitOn_cons_eq_if_modifyHead] at h
    split at h
    · rcases List.mem_cons.1 h with rfl | h
      · simp
      · exact ih h
    · rename_i hc
      cases hsplit : path.splitOn '/' with
      | nil => exact absurd hsplit (List.splitOn_ne_nil '/' path)
      | cons first rest =>
        rw [hsplit, List.modifyHead_cons] at h
        rcases List.mem_cons.1 h with rfl | h
        · have : '/' ∉ first := ih (by simp [split, hsplit])
          simp only [beq_iff_eq] at hc
          simp [this, Ne.symm hc]
        · exact ih (by simp [split, hsplit, h])

theorem isAbsolute_append {path : List Char} (h : path ≠ []) (name : List Char) :
    isAbsolute (path ++ name) = isAbsolute path := by
  cases path with
  | nil => exact absurd rfl h
  | cons c path => rfl

/-- The pieces of a path with a relative name joined to it, but for empty ones before the name. -/
theorem split_joinOne (path : List Char) {name : List Char} (h : isAbsolute name = false) :
    isAbsolute (joinOne path name) = isAbsolute path ∧
      ∃ first, split (joinOne path name) = first ++ split name ∧
        first.filter (· ≠ []) = dirs path := by
  have hrel : name.head? ≠ some '/' := by simpa [isAbsolute] using h
  unfold joinOne
  rw [if_neg hrel]
  split
  · rename_i hend
    rcases hend with rfl | hlast
    · exact ⟨h, [], rfl, by simp [dirs, split]⟩
    · obtain ⟨front, last, rfl⟩ := (List.eq_nil_or_concat path).resolve_left fun hnil => by
        simp [hnil] at hlast
      obtain rfl : last = '/' := by simpa using hlast
      refine ⟨isAbsolute_append (by simp) name, split front, ?_, ?_⟩
      · rw [List.concat_eq_append, List.append_assoc]
        exact split_append front name
      · rw [dirs, List.concat_eq_append, split_append]
        simp [split]
  · rename_i hend
    exact ⟨isAbsolute_append (fun hnil => hend (.inl hnil)) _, split path,
      split_append path name, rfl⟩

/-- **The file of a relative name joined to a path.** -/
theorem file_joinOne (path : List Char) {name : List Char} (h : isAbsolute name = false) :
    file (joinOne path name) = ⟨isAbsolute path, dirs path ++ clean (split name)⟩ := by
  obtain ⟨habs, first, hsplit, hfirst⟩ := split_joinOne path h
  rw [file, habs, hsplit, clean_append (split_ne_nil name), hfirst]

theorem isAbsolute_of_notMem {name : List Char} (h : '/' ∉ name) : isAbsolute name = false := by
  cases name with
  | nil => rfl
  | cons c name =>
    simp only [List.mem_cons, not_or] at h
    simp [isAbsolute, Ne.symm h.1]

theorem split_of_notMem {name : List Char} (h : '/' ∉ name) : split name = [name] :=
  List.splitOn_eq_singleton h

/-- The directories of a path joined piece by piece. -/
theorem dirs_join {names : List (List Char)} (h : ∀ name ∈ names, '/' ∉ name) (path : List Char) :
    isAbsolute (join path names) = isAbsolute path ∧
      dirs (join path names) = dirs path ++ names.filter (· ≠ []) := by
  induction names generalizing path with
  | nil => simp [join]
  | cons name names ih =>
    have hname := h name (List.mem_cons_self ..)
    obtain ⟨habs, first, hsplit, hfirst⟩ := split_joinOne path (isAbsolute_of_notMem hname)
    obtain ⟨habs', hdirs⟩ := ih (fun n hn => h n (List.mem_cons_of_mem _ hn)) (joinOne path name)
    refine ⟨habs'.trans habs, hdirs.trans ?_⟩
    rw [dirs, hsplit, split_of_notMem hname, List.filter_append, hfirst, List.append_assoc,
      ← List.filter_append, List.singleton_append]

/-- **The file of a name joined piece by piece**: an absolute name stays under the path. -/
theorem file_join_split (path name : List Char) :
    file (join path (split name)) = ⟨isAbsolute path, dirs path ++ clean (split name)⟩ := by
  have hpieces (n : List Char) (hn : n ∈ split name) : '/' ∉ n := notMem_of_mem_split hn
  obtain ⟨front, last, hconcat⟩ :=
    (List.eq_nil_or_concat (split name)).resolve_left (split_ne_nil name)
  rw [List.concat_eq_append] at hconcat
  rw [hconcat] at hpieces ⊢
  have hlast := hpieces last (by simp)
  obtain ⟨habs, hdirs⟩ := dirs_join (fun n hn => hpieces n (List.mem_append_left _ hn)) path
  rw [join, List.foldl_append, List.foldl_cons, List.foldl_nil,
    show front.foldl joinOne path = join path front from rfl,
    file_joinOne _ (isAbsolute_of_notMem hlast), habs, hdirs, split_of_notMem hlast,
    clean_append (by simp), List.append_assoc]

/-- Joining an empty name first changes nothing. -/
theorem file_join_empty (path name : List Char) :
    file (join (joinOne path []) (split name)) = file (join path (split name)) := by
  obtain ⟨habs, first, hsplit, hfirst⟩ := split_joinOne path (show isAbsolute [] = false from rfl)
  rw [file_join_split, file_join_split, habs, dirs, hsplit, List.filter_append, hfirst]
  simp [split]

/-- **Where the two ways of joining agree**: the name is relative, or the path is the root. -/
theorem file_joinOne_eq_iff (path name : List Char) :
    file (joinOne path name) = file (join path (split name)) ↔
      isAbsolute name = false ∨ isAbsolute path = true ∧ dirs path = [] := by
  cases habs : isAbsolute name with
  | false => simp [file_joinOne path habs, file_join_split]
  | true =>
    have hjoin : joinOne path name = name := by
      rw [joinOne, if_pos (by simpa [isAbsolute] using habs)]
    rw [hjoin, file_join_split, file, habs]
    simp only [File.mk.injEq, Bool.true_eq_false, false_or]
    rw [eq_comm, and_congr_right_iff]
    intro _
    rw [eq_comm, List.append_left_eq_self]

/-- The directories of a name behind a path. -/
theorem dirs_append (path name : List Char) :
    dirs (path ++ '/' :: name) = dirs path ++ dirs ('/' :: name) := by
  have hslash : split ('/' :: name) = split [] ++ split name := split_append [] name
  rw [dirs, dirs, dirs, split_append, hslash]
  simp [split]

/-! ## `.` and `..` -/

/-- A name that is not one of the two. -/
def Plain (name : List Char) : Prop := name ≠ ['.'] ∧ name ≠ ['.', '.']

theorem resolve_append {more : List (List Char)} (h : ∀ name ∈ more, Plain name)
    (names : List (List Char)) : resolve (names ++ more) = resolve names ++ more := by
  unfold resolve
  rw [List.foldl_append]
  generalize names.foldl _ [] = path
  induction more generalizing path with
  | nil => exact (List.append_nil path).symm
  | cons name more ih =>
    obtain ⟨hname, h⟩ := List.forall_mem_cons.mp h
    rw [List.foldl_cons, if_neg hname.1, if_neg hname.2, ih h, List.append_assoc,
      List.singleton_append]

/-- Slashes at the end add no directory. -/
theorem dirs_rdropWhile (path : List Char) :
    dirs (path.rdropWhile fun c => c = '/') = dirs path := by
  induction path using List.reverseRecOn with
  | nil => rfl
  | append_singleton path c ih =>
    by_cases hc : c = '/'
    · subst hc
      rw [List.rdropWhile_concat_pos _ _ _ (by simp), ih, dirs, dirs, split_append]
      simp [split]
    · rw [List.rdropWhile_concat_neg _ _ _ (by simp [hc])]

end Path
