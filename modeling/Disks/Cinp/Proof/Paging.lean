import Disks.Cinp.Proof.GetMulti

/-!
# Paging through a list

`getFilteredURIs` goes on until it has reached the total that the server reports;
`getFilteredObjects` returns from its first turn what the objects of the first chunk are.

* `listIds_eq`: a turn. `getFilteredURIs_all`: **all ids, each once, in order.**
* `getFilteredObjects_first`: the objects of the first chunk.
* `paging_iff`: **both yield all exactly when the first chunk is the whole list.**
* `second_chunk_lost`: two objects and chunks of one.
-/

namespace Cinp

variable {φ ω : Type}

/-! ## A server with a fixed result -/

/-- The ids of the URIs of a list. -/
def idsOf (xs : List Components) : List Text := xs.flatMap fun x => x.id_list.getD []

theorem idsOf_take_drop (n : Nat) (xs : List Components) :
    idsOf xs = idsOf (xs.take n) ++ idsOf (xs.drop n) := by
  rw [idsOf, idsOf, idsOf, ← List.flatMap_append, List.take_append_drop]

/-- The server answers `LIST` with a slice of a result, and `GET` of some of its ids with the
objects. -/
structure Serves (c : CInP φ ω) (uri : Text) (filter_name : Option String) (filter_value_map : φ)
    (namespaces : List Text) (model : Text) (xs : List Components) (object : Text → ω) : Prop where
  list : ∀ position count : Nat,
    c.server {
        verb := .LIST, uri := uri, position := some position, count := some count
        filter := filter_name, data := some filter_value_map } =
      .ok {
        http_code := 200, data := .ids (((xs.drop position).take count).map c.uri.of)
        position := .number position, count := .number ((xs.drop position).take count).length
        total := .number xs.length }
  get : AnswersMulti c namespaces model (idsOf xs) (List.map fun i => (i, object i))

/-- A URI of a model, without action and ids. -/
structure Listable (u : URI) (uri : Text) (p : Parts) (model : Text) : Prop where
  split : u.split uri false = .ok p
  model : p.model = some model
  action : p.action = none
  id_list : p.id_list = none

section server

variable {c : CInP φ ω} {uri : Text} {filter_name : Option String} {filter_value_map : φ}
  {xs : List Components} {object : Text → ω} {p : Parts} {model : Text}
  (hxs : ∀ x ∈ xs, x.Proper ∧ x.id_list.isSome) (huri : Listable c.uri uri p model)
  (hserves : Serves c uri filter_name filter_value_map p.namespace_list model xs object)
include hxs huri hserves

/-! ## The chunks of a list -/

omit hxs hserves in
theorem checkRequest_list (data : Option φ) : c.checkRequest .LIST uri data = .ok () := by
  simp [CInP.checkRequest, huri.split, huri.action, huri.id_list, huri.model]

/-- A turn: the ids of the next chunk. -/
theorem listIds_eq (pos list_chunk_size : Nat) :
    c.listIds uri filter_name filter_value_map pos list_chunk_size =
      .ok (idsOf ((xs.drop pos).take list_chunk_size),
        pos + (((xs.drop pos).take list_chunk_size).length : Nat), xs.length) := by
  have hpos : ¬ ((pos : Int) < 0 ∨ (list_chunk_size : Int) < 0) := by omega
  have hextract : c.uri.extractIds (((xs.drop pos).take list_chunk_size).map c.uri.of) =
      .ok (idsOf ((xs.drop pos).take list_chunk_size)) := by
    refine extractIds_of c.uri fun x hx => hxs x ?_
    exact List.mem_of_mem_drop (List.mem_of_mem_take hx)
  generalize hchunk : (xs.drop pos).take list_chunk_size = chunk at hextract
  have hlist : c.list uri filter_name filter_value_map pos list_chunk_size =
      .ok (chunk.map c.uri.of, (pos : Int), (chunk.length : Int), (xs.length : Int)) := by
    simp only [CInP.list, hpos, if_false, CInP.request, checkRequest_list huri, hserves.list,
      hchunk]
    rfl
  simp only [CInP.listIds, hlist, bind, Except.bind, hextract]
  rfl

/-- **All ids, each once, in order**, and an end. -/
theorem getFilteredURIsFrom_all {list_chunk_size : Nat} (hsize : 0 < list_chunk_size)
    (fuel : Nat) {pos : Nat} (hpos : pos ≤ xs.length) (hfuel : xs.length < pos + fuel) :
    c.getFilteredURIsFrom uri filter_name filter_value_map list_chunk_size fuel pos xs.length =
      some (idsOf (xs.drop pos), none) := by
  induction fuel generalizing pos with
  | zero => omega
  | succ fuel ih =>
    rw [CInP.getFilteredURIsFrom]
    by_cases hlt : pos < xs.length
    · have hlength : ((xs.drop pos).take list_chunk_size).length =
          min list_chunk_size (xs.length - pos) := by
        rw [List.length_take, List.length_drop]
      have hrest : (xs.drop pos).drop list_chunk_size =
          xs.drop (pos + ((xs.drop pos).take list_chunk_size).length) := by
        rw [List.drop_drop, hlength]
        obtain hle | hle := Nat.le_total list_chunk_size (xs.length - pos)
        · rw [Nat.min_eq_left hle]
        · rw [Nat.min_eq_right hle, List.drop_eq_nil_of_le (by omega),
            List.drop_eq_nil_of_le (by omega)]
      rw [if_pos (by exact_mod_cast hlt), listIds_eq hxs huri hserves]
      simp only
      rw [← Int.natCast_add, ih (by omega) (by omega), ← hrest]
      simp only [Option.map_some, idsOf]
      rw [← List.flatMap_append, List.take_append_drop]
    · have heq : pos = xs.length := by omega
      rw [if_neg (by exact_mod_cast hlt), heq, List.drop_length]
      rfl

theorem getFilteredURIs_all {list_chunk_size : Nat} (hsize : 0 < list_chunk_size) {fuel : Nat}
    (hfuel : xs.length + 1 < fuel) :
    c.getFilteredURIs uri filter_name filter_value_map list_chunk_size fuel =
      some (idsOf xs, none) := by
  obtain ⟨fuel, rfl⟩ : ∃ n, fuel = n + 1 := ⟨fuel - 1, by omega⟩
  have hturn := listIds_eq hxs huri hserves 0 list_chunk_size
  rw [List.drop_zero, Int.natCast_zero, Int.zero_add] at hturn
  -- the first turn is made in any case; after it the total is known
  have hfirst := getFilteredURIsFrom_all hxs huri hserves hsize fuel
    (List.length_take_le' list_chunk_size xs) (by omega)
  have hrest : xs.drop (xs.take list_chunk_size).length = xs.drop list_chunk_size := by
    rw [List.length_take]
    obtain hle | hle := Nat.le_total list_chunk_size xs.length
    · rw [Nat.min_eq_left hle]
    · rw [Nat.min_eq_right hle, List.drop_length, List.drop_eq_nil_of_le hle]
  rw [CInP.getFilteredURIs, CInP.getFilteredURIsFrom, if_pos Int.one_pos, hturn]
  simp only [hfirst, hrest, Option.map_some, idsOf]
  rw [← List.flatMap_append, List.take_append_drop]

/-! ## The objects of the first chunk -/

omit huri hserves in
theorem mem_ids {ys : List Components} (hys : ∀ x ∈ ys, x ∈ xs) :
    ∀ i ∈ idsOf ys, i ∈ idsOf xs ∧ i ≠ [] ∧ Segment i := by
  intro i hi
  obtain ⟨x, hx, hi⟩ := List.mem_flatMap.mp hi
  obtain ⟨hproper, hsome⟩ := hxs x (hys x hx)
  obtain ⟨ids, hid_list⟩ := Option.isSome_iff_exists.mp hsome
  refine ⟨List.mem_flatMap.mpr ⟨x, hys x hx, hi⟩, ?_⟩
  rw [hid_list] at hi
  exact (hproper.id_list ids hid_list).2 i hi

variable (hdistinct : (idsOf xs).Nodup)
include hdistinct

/-- The objects of the first chunk, and an end. -/
theorem getFilteredObjects_first (list_chunk_size : Nat) {get_chunk_size : Nat}
    (hsize : 0 < get_chunk_size) {fuel : Nat} (hfuel : (idsOf xs).length < fuel) :
    c.getFilteredObjects uri filter_name filter_value_map list_chunk_size get_chunk_size fuel =
      some ((idsOf (xs.take list_chunk_size)).map (fun i => (i, object i)), none) := by
  have hturn := listIds_eq hxs huri hserves 0 list_chunk_size
  rw [List.drop_zero, Int.natCast_zero] at hturn
  have hsub : (idsOf (xs.take list_chunk_size)).Sublist (idsOf xs) := by
    rw [idsOf_take_drop list_chunk_size xs]
    exact List.sublist_append_left _ _
  have htokens : ∀ i ∈ idsOf (xs.take list_chunk_size), i ≠ [] ∧ Segment i :=
    fun i hi => (mem_ids hxs (fun x hx => List.mem_of_mem_take hx) i hi).2
  obtain ⟨f, hf, rfl⟩ := split_sound huri.split
  obtain ⟨chunks, hflatten, -, hloop⟩ := getMultiFrom_all hf.names (hf.model model huri.model)
    (hserves.get.sublist hsub) (hdistinct.sublist hsub) htokens hsize _ 0 (Nat.le_add_left ..)
  rw [List.drop_zero] at hflatten
  have hobjects : chunks.flatMap (List.map fun i => (i, object i)) =
      (idsOf (xs.take list_chunk_size)).map fun i => (i, object i) := by
    rw [← hflatten, List.map_flatten]
    rfl
  have hall := hloop fuel (Nat.lt_of_le_of_lt hsub.length_le hfuel)
  rw [hobjects] at hall
  rw [CInP.getFilteredObjects, hturn]
  simp only [CInP.getMulti, CInP.multiIds, huri.split, huri.model, Option.some_or]
  exact congrArg (Option.map Trace.yields) hall

/-! ## When both yield all -/

/-- **All ids and all objects come, each once and in order, and the generators end, exactly when the
first chunk is the whole list.** -/
theorem paging_iff {list_chunk_size get_chunk_size : Nat} (hlist : 0 < list_chunk_size)
    (hget : 0 < get_chunk_size) :
    ((∃ n, ∀ fuel ≥ n, c.getFilteredURIs uri filter_name filter_value_map list_chunk_size fuel =
        some (idsOf xs, none)) ∧
      ∃ n, ∀ fuel ≥ n, c.getFilteredObjects uri filter_name filter_value_map list_chunk_size
        get_chunk_size fuel = some ((idsOf xs).map (fun i => (i, object i)), none)) ↔
      xs.length ≤ list_chunk_size := by
  have huris : ∃ n, ∀ fuel ≥ n, c.getFilteredURIs uri filter_name filter_value_map
      list_chunk_size fuel = some (idsOf xs, none) :=
    ⟨xs.length + 2, fun fuel hfuel => getFilteredURIs_all hxs huri hserves hlist (by omega)⟩
  have hobjects (fuel : Nat) (hfuel : (idsOf xs).length < fuel) :=
    getFilteredObjects_first hxs huri hserves hdistinct list_chunk_size hget hfuel
  constructor
  · intro h
    obtain ⟨-, n, hn⟩ := h
    by_contra hlt
    have hsame := (hobjects (n + (idsOf xs).length + 1) (by omega)).symm.trans (hn _ (by omega))
    simp only [Option.some.injEq, Prod.mk.injEq, and_true] at hsame
    have hlength := congrArg List.length hsame
    -- what is behind the first chunk has ids
    rw [idsOf_take_drop list_chunk_size xs] at hlength
    simp only [List.length_map, List.length_append, Nat.left_eq_add, List.length_eq_zero_iff]
      at hlength
    obtain ⟨x, rest, hrest⟩ := List.exists_cons_of_ne_nil
      (List.ne_nil_of_length_pos (l := xs.drop list_chunk_size) (by simp; omega))
    have hx : x ∈ xs := by
      refine List.mem_of_mem_drop (i := list_chunk_size) ?_
      rw [hrest]
      exact List.mem_cons_self ..
    obtain ⟨hproper, hsome⟩ := hxs x hx
    obtain ⟨ids, hid_list⟩ := Option.isSome_iff_exists.mp hsome
    rw [hrest, idsOf, List.flatMap_cons, hid_list, List.append_eq_nil_iff] at hlength
    exact (hproper.id_list ids hid_list).1 hlength.1
  · intro hle
    refine ⟨huris, (idsOf xs).length + 1, fun fuel hfuel => ?_⟩
    rw [hobjects fuel (by omega), List.take_of_length_le hle]

end server

/-! ## Two objects -/

/-- `/api/v1/J` -/
def jobUri : Text := apiRoot.root_path ++ ['J']

theorem jobs_proper : ∀ x ∈ jobs, x.Proper ∧ x.id_list.isSome := by
  have hproper (i : Char) (hi : isId i) :
      (⟨[], ['J'], none, some [[i]]⟩ : Components).Proper :=
    ⟨by simp, ⟨List.cons_ne_nil _ _, List.forall_mem_singleton.mpr rfl⟩, by simp, fun ids hids => by
      cases hids
      exact ⟨List.cons_ne_nil _ _, List.forall_mem_singleton.mpr
        ⟨List.cons_ne_nil _ _, by simpa [Segment] using hi⟩⟩⟩
  exact List.forall_mem_cons.mpr ⟨⟨hproper '4' rfl, rfl⟩,
    List.forall_mem_singleton.mpr ⟨hproper '7' rfl, rfl⟩⟩

theorem jobs_listable : Listable apiRoot jobUri ⟨[], some ['J'], none, none, false⟩ ['J'] :=
  ⟨by decide +kernel, rfl, rfl, rfl⟩

theorem jobServer_serves : Serves jobClient jobUri none ()
    (Parts.namespace_list ⟨[], ['J'], none, none, false⟩) ['J'] jobs id where
  list _ _ := rfl
  get := jobServer_answers

/-- Both come in one chunk. -/
theorem jobs_in_one_chunk :
    (∃ n, ∀ fuel ≥ n, jobClient.getFilteredURIs jobUri none () 2 fuel =
        some ([['4'], ['7']], none)) ∧
      ∃ n, ∀ fuel ≥ n, jobClient.getFilteredObjects jobUri none () 2 1 fuel =
        some ([(['4'], ['4']), (['7'], ['7'])], none) :=
  (paging_iff jobs_proper jobs_listable jobServer_serves (by decide) Nat.two_pos
    Nat.one_pos).mpr (by decide)

/-- With chunks of one the second object is lost. -/
theorem second_chunk_lost :
    (∀ fuel > 3, jobClient.getFilteredURIs jobUri none () 1 fuel =
        some ([['4'], ['7']], none)) ∧
      ∀ fuel > 3, jobClient.getFilteredObjects jobUri none () 1 1 fuel =
        some ([(['4'], ['4'])], none) := by
  constructor
  · intro fuel hfuel
    exact getFilteredURIs_all jobs_proper jobs_listable jobServer_serves Nat.one_pos hfuel
  · intro fuel hfuel
    exact getFilteredObjects_first jobs_proper jobs_listable jobServer_serves (by decide) 1
      Nat.one_pos (Nat.lt_of_le_of_lt (by decide) hfuel)

end Cinp
