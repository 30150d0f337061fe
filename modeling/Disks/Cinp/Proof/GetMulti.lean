import Disks.Cinp.Client
import Disks.Cinp.Proof.Uri
import Disks.Lib.Fold

/-!
# The requests of `getMulti`

Each slice of the ids becomes a URI, from which the server takes the ids again.

* `split_slice`: the ids of a slice are those of its URI.
* `getMultiFrom_all`: the requests and what is yielded, from any position on.
* `getMulti_requests`: **every object is asked for once and in order, and all records are yielded**.
* `two_jobs_asked`: two jobs. `objects_lost`: an id without characters at the end of a slice, and
  URIs of two models.
-/

namespace Cinp

variable {φ ω : Type}

/-- The URI of a slice. -/
def sliceUri (u : URI) (namespaces : List Text) (model : Text) (ids : List Text) : Text :=
  u.build (some namespaces) (some model) none (some ids) true

/-- The parts of the URI of a slice. -/
def sliceParts (namespaces : List Text) (model : Text) (ids : List Text) : Parts :=
  ⟨namespaces, some model, none, some ids, 1 < ids.length⟩

/-- A server answers the `GET` of some of the objects of a model, each asked for once, with a
dictionary that has one record for each. -/
structure AnswersMulti (c : CInP φ ω) (namespaces : List Text) (model : Text) (ids : List Text)
    (records : List Text → List (Text × ω)) : Prop where
  get : ∀ chunk, chunk ≠ [] → chunk.Nodup → (∀ i ∈ chunk, i ∈ ids) →
    c.server {
        verb := .GET, uri := sliceUri c.uri namespaces model chunk, multi_object := true
        data := none } =
      .ok { http_code := 200, data := .values (records chunk) }
  keys : ∀ chunk, chunk ≠ [] → chunk.Nodup → (∀ i ∈ chunk, i ∈ ids) →
    ((records chunk).map (·.1)).Nodup ∧ (records chunk).length = chunk.length

theorem AnswersMulti.sublist {c : CInP φ ω} {namespaces : List Text} {model : Text}
    {ids ids' : List Text} {records : List Text → List (Text × ω)}
    (h : AnswersMulti c namespaces model ids records) (hsub : ids'.Sublist ids) :
    AnswersMulti c namespaces model ids' records where
  get chunk hne hnodup hchunk := h.get chunk hne hnodup fun i hi => hsub.subset (hchunk i hi)
  keys chunk hne hnodup hchunk := h.keys chunk hne hnodup fun i hi => hsub.subset (hchunk i hi)

section

variable {c : CInP φ ω} {namespaces : List Text} {model : Text} {ids : List Text}
  {records : List Text → List (Text × ω)} (hnames : ∀ t ∈ namespaces, Token t)
  (hmodel : Token model)
include hnames hmodel

/-- **The ids of a slice are those of its URI.** -/
theorem split_slice {chunk : List Text} (hne : chunk ≠ [])
    (htokens : ∀ i ∈ chunk, i ≠ [] ∧ Segment i) :
    c.uri.split (sliceUri c.uri namespaces model chunk) false =
      .ok (sliceParts namespaces model chunk) := by
  have hproper : (⟨namespaces, model, none, some chunk⟩ : Components).Proper :=
    ⟨hnames, hmodel, by simp, fun chunk' h => by
      cases h
      exact ⟨hne, htokens⟩⟩
  exact split_build c.uri hproper.valid hproper.ids false

variable (hserver : AnswersMulti c namespaces model ids records) (hdistinct : ids.Nodup)
  (htokens : ∀ i ∈ ids, i ≠ [] ∧ Segment i)
include hserver htokens

theorem get_slice {chunk : List Text} (hne : chunk ≠ []) (hnodup : chunk.Nodup)
    (hchunk : ∀ i ∈ chunk, i ∈ ids) :
    c.get (sliceUri c.uri namespaces model chunk) true = .ok (records chunk) := by
  have hsplit := split_slice (c := c) hnames hmodel hne fun i hi => htokens i (hchunk i hi)
  have hcheck : c.checkRequest .GET (sliceUri c.uri namespaces model chunk) none = .ok () := by
    unfold CInP.checkRequest
    rw [hsplit]
    simp [sliceParts, hne]
  simp only [CInP.get, CInP.request, hcheck, hserver.get chunk hne hnodup hchunk]
  rfl

include hdistinct

/-- **The requests from a position on, and what is yielded.** -/
theorem getMultiFrom_all {chunk_size : Nat} (hsize : 0 < chunk_size) (turns pos : Nat)
    (hturns : ids.length ≤ pos + turns) :
    ∃ chunks : List (List Text), chunks.flatten = ids.drop pos ∧
      (∀ chunk ∈ chunks, chunk ≠ [] ∧ chunk.length ≤ chunk_size) ∧
      ∀ fuel > turns, c.getMultiFrom namespaces (some model) ids chunk_size fuel pos =
        some ⟨chunks.map (sliceUri c.uri namespaces model), chunks.flatMap records, none⟩ := by
  induction turns generalizing pos with
  | zero =>
    refine ⟨[], (List.drop_eq_nil_of_le hturns).symm, List.forall_mem_nil _, fun fuel hfuel => ?_⟩
    obtain ⟨fuel, rfl⟩ := Nat.exists_eq_succ_of_ne_zero (Nat.ne_of_gt hfuel)
    rw [CInP.getMultiFrom, if_neg (by omega)]
    rfl
  | succ turns ih =>
    by_cases hlt : pos < ids.length
    · obtain ⟨chunks, hflatten, hchunks, hloop⟩ := ih (pos + chunk_size) (by omega)
      have hne : (ids.drop pos).take chunk_size ≠ [] := by
        rw [← List.length_pos_iff, List.length_take, List.length_drop]
        omega
      have hslice : ((ids.drop pos).take chunk_size).Sublist ids :=
        (List.take_sublist _ _).trans (List.drop_sublist _ _)
      refine ⟨(ids.drop pos).take chunk_size :: chunks, ?_, ?_, fun fuel hfuel => ?_⟩
      · rw [List.flatten_cons, hflatten, ← List.drop_drop, List.take_append_drop]
      · exact List.forall_mem_cons.mpr ⟨⟨hne, List.length_take_le _ _⟩, hchunks⟩
      · obtain ⟨fuel, rfl⟩ := Nat.exists_eq_succ_of_ne_zero (Nat.ne_of_gt (Nat.zero_lt_of_lt hfuel))
        have hget := get_slice hnames hmodel hserver htokens hne (hdistinct.sublist hslice)
          fun i hi => hslice.subset hi
        rw [CInP.getMultiFrom, if_pos hlt]
        simp only [sliceUri] at hget
        simp only [hget, hloop fuel (by omega), Option.map_some, List.map_cons, List.flatMap_cons]
        rfl
    · refine ⟨[], (List.drop_eq_nil_of_le (by omega)).symm, List.forall_mem_nil _,
        fun fuel hfuel => ?_⟩
      obtain ⟨fuel, rfl⟩ := Nat.exists_eq_succ_of_ne_zero (Nat.ne_of_gt (Nat.zero_lt_of_lt hfuel))
      rw [CInP.getMultiFrom, if_neg hlt]
      rfl

end

/-! ## A call -/

/-- An object: its namespace, its model, and its id. -/
abbrev Object := List Text × Option Text × Text

/-- The objects of a URI. -/
def CInP.objects (c : CInP φ ω) (uri : Text) : List Object :=
  match c.uri.split uri false with
  | .ok p => (p.id_list.getD []).map fun i => (p.namespace_list, p.model, i)
  | .error _ => []

/-- The objects that a call of `getMulti` is about. -/
def CInP.given (c : CInP φ ω) (uri : Target) (id_list : Option (List Text)) : List Object :=
  match uri, id_list with
  | .list uri, _ => uri.flatMap c.objects
  | .uri uri, none => c.objects uri
  | .uri uri, some id_list =>
    match c.uri.split uri false with
    | .ok p => id_list.map fun i => (p.namespace_list, p.model, i)
    | .error _ => []

theorem idsOfAll_given {c : CInP φ ω} {uri : List Text} {ids : List Text}
    (h : c.idsOfAll uri = .ok ids) : (uri.flatMap c.objects).map (·.2.2) = ids := by
  induction uri generalizing ids with
  | nil =>
    cases h
    rfl
  | cons item uri ih =>
    unfold CInP.idsOfAll at h
    cases hsplit : c.uri.split item false with
    | error e => simp [hsplit] at h
    | ok p =>
      cases hids : p.id_list with
      | none => simp [hsplit, hids] at h
      | some tmp_id_list =>
        simp only [hsplit, hids] at h
        cases hrest : c.idsOfAll uri with
        | error e => simp [hrest, Except.map] at h
        | ok rest =>
          rw [hrest] at h
          cases h
          rw [List.flatMap_cons, List.map_append, ih hrest, CInP.objects]
          simp [hsplit, hids, Function.comp_def]

/-- What a call asks for has the ids that are given, under the first model. -/
theorem multiIds_sound {c : CInP φ ω} {uri : Target} {id_list : Option (List Text)}
    {ids namespaces : List Text} {model : Option Text}
    (h : c.multiIds uri id_list = .ok (namespaces, model, some ids)) :
    (∃ uri p, c.uri.split uri false = .ok p ∧ p.namespace_list = namespaces ∧ p.model = model) ∧
      (c.given uri id_list).map (·.2.2) = ids := by
  unfold CInP.multiIds at h
  cases uri with
  | uri uri =>
    cases hsplit : c.uri.split uri false with
    | error e => simp [hsplit] at h
    | ok p =>
      simp only [hsplit, Except.ok.injEq, Prod.mk.injEq] at h
      refine ⟨⟨uri, p, hsplit, h.1, h.2.1⟩, ?_⟩
      cases id_list with
      | none =>
        rw [Option.none_or] at h
        simp [CInP.given, CInP.objects, hsplit, h.2.2, Function.comp_def]
      | some id_list =>
        obtain rfl := Option.some.inj h.2.2
        simp [CInP.given, hsplit, Function.comp_def]
  | list uris =>
    obtain ⟨all, hall, h⟩ := Fold.bind_ok.mp h
    cases uris with
    | nil => cases h
    | cons first rest =>
      cases hsplit : c.uri.split first false with
      | error e => simp [hsplit] at h
      | ok p =>
        simp only [hsplit, Except.ok.injEq, Prod.mk.injEq] at h
        obtain rfl := Option.some.inj h.2.2
        exact ⟨⟨first, p, hsplit, h.1, h.2.1⟩, idsOfAll_given hall⟩

/-- **Every object is asked for once and in order**, in requests of at most `chunk_size` ids, every
record that the server returns is yielded once, and the generator ends. -/
theorem getMulti_requests {c : CInP φ ω} {records : List Text → List (Text × ω)} {uri : Target}
    {id_list : Option (List Text)} {chunk_size : Nat} (hsize : 0 < chunk_size)
    {namespaces : List Text} {model : Text} {ids : List Text}
    (hserver : AnswersMulti c namespaces model ids records)
    (hask : c.multiIds uri id_list = .ok (namespaces, some model, some ids))
    (hone : ∀ o ∈ c.given uri id_list, o.1 = namespaces ∧ o.2.1 = some model)
    (hdistinct : ids.Nodup) (htokens : ∀ i ∈ ids, i ≠ [] ∧ Segment i) :
    ∃ chunks : List (List Text),
      (∀ chunk ∈ chunks, chunk ≠ [] ∧ chunk.length ≤ chunk_size) ∧
      (chunks.map (sliceUri c.uri namespaces model)).flatMap c.objects = c.given uri id_list ∧
      (chunks.flatMap records).length = (c.given uri id_list).length ∧
      ∃ n, ∀ fuel ≥ n, c.getMulti uri id_list chunk_size fuel =
        some ⟨chunks.map (sliceUri c.uri namespaces model), chunks.flatMap records, none⟩ := by
  obtain ⟨⟨first, p, hsplit, hnames, hmodel⟩, hids⟩ := multiIds_sound hask
  obtain ⟨f, hf, rfl⟩ := split_sound hsplit
  have hspaces : ∀ t ∈ namespaces, Token t := hnames ▸ hf.names
  obtain ⟨chunks, hflatten, hchunks, hloop⟩ := getMultiFrom_all hspaces (hf.model model hmodel)
    hserver hdistinct htokens hsize ids.length 0 (by omega)
  rw [List.drop_zero] at hflatten
  have hgiven : c.given uri id_list = ids.map fun i => (namespaces, some model, i) := by
    rw [← hids, List.map_map]
    refine (List.map_id _).symm.trans (List.map_congr_left fun o ho => ?_)
    rw [Function.comp_apply, ← (hone o ho).1, ← (hone o ho).2]
    rfl
  have hmem (chunk : List Text) (hchunk : chunk ∈ chunks) : ∀ i ∈ chunk, i ∈ ids := fun i hi =>
    hflatten ▸ List.mem_flatten_of_mem hchunk hi
  refine ⟨chunks, hchunks, ?_, ?_, ids.length + 1, fun fuel hfuel => ?_⟩
  · have hslice (chunk : List Text) (hchunk : chunk ∈ chunks) :
        c.objects (sliceUri c.uri namespaces model chunk) =
          chunk.map fun i => (namespaces, some model, i) := by
      rw [CInP.objects, split_slice hspaces (hf.model model hmodel) (hchunks chunk hchunk).1
        fun i hi => htokens i (hmem chunk hchunk i hi)]
      rfl
    rw [List.flatMap_map, List.flatMap_congr hslice, ← List.map_flatMap, hgiven, ← hflatten,
      List.flatMap_id']
  · rw [List.length_flatMap, hgiven, List.length_map, ← hflatten, List.length_flatten]
    congr 1
    refine List.map_congr_left fun chunk hchunk => ?_
    refine (hserver.keys chunk (hchunks chunk hchunk).1 ?_ (hmem chunk hchunk)).2
    exact hdistinct.sublist (hflatten ▸ List.sublist_flatten_of_mem hchunk)
  · rw [CInP.getMulti, hask]
    exact hloop fuel (by omega)

/-! ## The server of jobs -/

/-- Two jobs, and a server that has them. -/
def jobs : List Components :=
  [⟨[], ['J'], none, some [['4']]⟩, ⟨[], ['J'], none, some [['7']]⟩]

def jobServer (r : Request Unit) : Except ClientError (Response Text) :=
  match r.verb, r.position, r.count with
  | .LIST, some position, some count =>
    let chunk := (jobs.drop position.toNat).take count.toNat
    .ok {
      http_code := 200, data := .ids (chunk.map apiRoot.of), position := .number position
      count := .number chunk.length, total := .number jobs.length }
  | _, _, _ =>
    match apiRoot.split r.uri false with
    | .ok p => .ok {
        http_code := 200, data := .values ((p.id_list.getD []).map fun i => (i, i)) }
    | .error e => .error (.valueError e)

def jobClient : CInP Unit Text := ⟨apiRoot, jobServer⟩

theorem job_token : Token ['J'] :=
  ⟨List.cons_ne_nil _ _, List.forall_mem_singleton.mpr rfl⟩

theorem job_ids : ∀ i ∈ [['4'], ['7']], i ≠ [] ∧ Segment i := by
  intro i hi
  rcases List.mem_cons.mp hi with rfl | hi
  · exact ⟨by decide, by simp [Segment, isId, isToken]⟩
  · rw [List.mem_singleton.mp hi]
    exact ⟨by decide, by simp [Segment, isId, isToken]⟩

/-- The record of a job is its id. -/
theorem jobServer_answers :
    AnswersMulti jobClient [] ['J'] [['4'], ['7']] (List.map fun i => (i, i)) where
  get chunk hne _ hchunk := by
    have hsplit := split_slice (c := jobClient) (List.forall_mem_nil _) job_token hne
      fun i hi => job_ids i (hchunk i hi)
    simp only [jobClient] at hsplit
    simp only [jobClient, jobServer, hsplit]
    rfl
  keys chunk _ hnodup _ := by simpa [Function.comp_def] using hnodup

/-- Two jobs, given by a list of URIs. -/
theorem two_jobs_asked :
    ∃ chunks : List (List Text),
      (∀ chunk ∈ chunks, chunk ≠ [] ∧ chunk.length ≤ 1) ∧
      (chunks.map (sliceUri apiRoot [] ['J'])).flatMap jobClient.objects =
        [([], some ['J'], ['4']), ([], some ['J'], ['7'])] ∧
      (chunks.flatMap (List.map fun i => (i, i))).length = 2 ∧
      ∃ n, ∀ fuel ≥ n, jobClient.getMulti
          (.list ["/api/v1/J:4:".toList, "/api/v1/J:7:".toList]) none 1 fuel =
        some ⟨chunks.map (sliceUri apiRoot [] ['J']), chunks.flatMap (List.map fun i => (i, i)),
          none⟩ := by
  have hgiven : jobClient.given (.list ["/api/v1/J:4:".toList, "/api/v1/J:7:".toList]) none =
      [([], some ['J'], ['4']), ([], some ['J'], ['7'])] := by
    decide +kernel
  have hask : jobClient.multiIds (.list ["/api/v1/J:4:".toList, "/api/v1/J:7:".toList]) none =
      .ok ([], some ['J'], some [['4'], ['7']]) := by
    decide +kernel
  have hone : ∀ o ∈ jobClient.given (.list ["/api/v1/J:4:".toList, "/api/v1/J:7:".toList]) none,
      o.1 = [] ∧ o.2.1 = some ['J'] := by
    rw [hgiven]
    decide
  have h := getMulti_requests Nat.one_pos jobServer_answers hask hone (by decide) job_ids
  rw [hgiven] at h
  exact h

/-- What is not asked for: of three ids, one without characters that ends a slice; of two objects of
two models, the one that is not of the first one's model. -/
theorem objects_lost :
    (jobClient.given (.uri "/api/v1/J:a::b:".toList) none =
        [([], some ['J'], ['a']), ([], some ['J'], []), ([], some ['J'], ['b'])] ∧
      (jobClient.getMulti (.uri "/api/v1/J:a::b:".toList) none 2 3).map (·.requests) =
        some ["/api/v1/J:a::".toList, "/api/v1/J:b:".toList] ∧
      ["/api/v1/J:a::".toList, "/api/v1/J:b:".toList].flatMap jobClient.objects =
        [([], some ['J'], ['a']), ([], some ['J'], ['b'])]) ∧
    jobClient.given (.list ["/api/v1/J:4:".toList, "/api/v1/K:7:".toList]) none =
        [([], some ['J'], ['4']), ([], some ['K'], ['7'])] ∧
      (jobClient.getMulti (.list ["/api/v1/J:4:".toList, "/api/v1/K:7:".toList]) none 1 3).map
          (·.requests) =
        some ["/api/v1/J:4:".toList, "/api/v1/J:7:".toList] ∧
      ["/api/v1/J:4:".toList, "/api/v1/J:7:".toList].flatMap jobClient.objects =
        [([], some ['J'], ['4']), ([], some ['J'], ['7'])] := by
  refine ⟨⟨?_, ?_, ?_⟩, ?_, ?_, ?_⟩ <;> decide +kernel

end Cinp
