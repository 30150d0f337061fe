import Disks.Config.Values
import Disks.Lib.Fold
import Disks.Lib.Table

/-!
# The cache follows the contractor

A `Run` of calls keeps, next to the state, the values of the latest update that came back, the
overlay set since the `Config` was opened and the values' time. A table `Holds` values if it has one
row for each. A time is `Readable` if it comes back from the database.

* `Holds.cacheValues`, `Holds.deleteValues`: the loops of `updateCacheFromContractor`.
* `updateCacheFromContractor_holds`: an update that comes back leaves the rows of its values.
* `Run.holds`: so does every run.
* `cache_synchronised_iff`: **after every run the table has the latest values, `getValues` shows
  them under the overlay, and an update that fails leaves the table, exactly when the values' time
  is readable.** `updateCacheFromContractor_unreadable`: where it is not, no update comes back.
-/

namespace LibConfig

namespace Values

open Fold Table

variable {Value Code Time : Type} (env : Env Value Code Time)

/-! ## The rows of a set of values -/

/-- The table has one row for each of the values, and no others. -/
def Holds (rows : List (Row Code)) (values : Str → Option Value) : Prop :=
  ∀ name, rows.filter (·.name = name) = ((values name).map fun v => ⟨name, env.encode v⟩).toList

/-- No key that `getValues` adds itself. -/
def Plain (name : Str) : Prop := name ≠ uuidKey ∧ name ≠ timestampKey ∧ name ≠ lastModifiedKey

variable {env}

theorem Holds.cached_eq (hdecode : ∀ v, env.decode (env.encode v) = v)
    {s : State Value Code Time} {values : Str → Option Value} (h : Holds env s.value_cache values)
    (name : Str) : cached env s name = values name := by
  unfold cached
  rw [h name]
  cases values name with
  | none => rfl
  | some v => simp [hdecode]

theorem Dict.get_isSome_iff (d : Dict Value) (name : Str) :
    (d.get name).isSome = true ↔ name ∈ d.keys := by
  simp [Dict.get, Dict.keys]

/-! ## The loop over the new values -/

/-- Some values on top of others. -/
def overlaid (items : List (Str × Value)) (values : Str → Option Value) (name : Str) :
    Option Value :=
  (items.lookup name).or (values name)

theorem lookup_eq_none_of_notMem {items : List (Str × Value)} {name : Str}
    (h : name ∉ items.map (·.1)) : items.lookup name = none := by
  rw [← Option.not_isSome_iff_eq_none, List.lookup_isSome_iff]
  simpa using h

theorem over_snoc_self {items : List (Str × Value)} {name : Str}
    (hnew : name ∉ items.map (·.1)) (v : Value) (values : Str → Option Value) :
    overlaid (items ++ [(name, v)]) values name = some v := by
  rw [overlaid, List.lookup_append, lookup_eq_none_of_notMem hnew, List.lookup_cons_self]
  rfl

theorem over_snoc_of_ne (items : List (Str × Value)) {name name' : Str} (hne : name' ≠ name)
    (v : Value) (values : Str → Option Value) :
    overlaid (items ++ [(name, v)]) values name' = overlaid items values name' := by
  have hnone : [(name, v)].lookup name' = none := lookup_eq_none_of_notMem (by simpa using hne)
  rw [overlaid, List.lookup_append, hnone, Option.or_none, overlaid]

/-- One new value. -/
theorem Holds.cacheValue {rows : List (Row Code)} {items : List (Str × Value)}
    {values : Str → Option Value} {shown : Str → Option (Entry Value Time)} {name : Str} {v : Value}
    (h : Holds env rows (overlaid items values)) (hnew : name ∉ items.map (·.1))
    (hshown : (shown name).isSome = (values name).isSome) :
    Holds env (cacheValue env shown rows (name, v)) (overlaid (items ++ [(name, v)]) values) := by
  intro name'
  have hsame : overlaid items values name = values name := by
    rw [overlaid, lookup_eq_none_of_notMem hnew, Option.none_or]
  unfold Values.cacheValue
  cases hold : shown name with
  | some old =>
    simp only [differs, if_true]
    by_cases hname : name' = name
    · subst hname
      obtain ⟨w, hw⟩ := Option.isSome_iff_exists.1 (hshown.symm.trans (by rw [hold]; rfl))
      have hkey (r : Row Code) (hr : r.name = name') :
          ({ r with value := env.encode v } : Row Code).name = name' := hr
      rw [filter_update_self hkey, h, over_snoc_self hnew, hsame, hw]
      rfl
    · rw [filter_update_of_disjoint fun r hr => ?_, h, over_snoc_of_ne items hname]
      have hne : r.name ≠ name' := fun heq => hname (heq.symm.trans hr)
      exact ⟨hne, hne⟩
  | none =>
    have hnone : values name = none := by
      rw [← Option.not_isSome_iff_eq_none, ← hshown, hold]
      simp
    simp only [List.filter_append]
    rw [h]
    by_cases hname : name' = name
    · subst hname
      rw [over_snoc_self hnew, hsame, hnone]
      simp
    · rw [over_snoc_of_ne items hname]
      simp [Ne.symm hname]

/-- **The loop over the new values.** -/
theorem Holds.cacheValues {rows : List (Row Code)} {items : List (Str × Value)}
    {values : Str → Option Value} {shown : Str → Option (Entry Value Time)}
    (h : Holds env rows values) (hnodup : (items.map (·.1)).Nodup)
    (hshown : ∀ name ∈ items.map (·.1), (shown name).isSome = (values name).isSome) :
    Holds env (items.foldl (Values.cacheValue env shown) rows) (overlaid items values) := by
  refine foldl_prefix (I := fun front rows => Holds env rows (overlaid front values))
    (fun front item rest hsplit rows h => h.cacheValue ?_ (hshown _ ?_)) h
  · intro hmem
    rw [hsplit, List.map_append, List.nodup_append] at hnodup
    exact hnodup.2.2 item.1 hmem item.1 (by simp) rfl
  · simp [hsplit]

/-! ## The loop over the names that are gone -/

theorem filter_deleteValues (names : List Str) (rows : List (Row Code)) (name : Str) :
    (names.foldl deleteValue rows).filter (·.name = name) =
      if name ∈ names then [] else rows.filter (·.name = name) := by
  induction names generalizing rows with
  | nil => simp
  | cons n names ih =>
    rw [List.foldl_cons, ih]
    by_cases hmem : name ∈ names
    · simp [hmem]
    · by_cases hname : name = n
      · subst hname
        simp [hmem, deleteValue, List.filter_filter]
      · rw [if_neg hmem, if_neg (by simp [hname, hmem]), deleteValue, List.filter_filter]
        refine List.filter_congr fun r _ => ?_
        by_cases hr : r.name = name <;> simp [hr, hname]

/-- **The loop over the names that are gone.** -/
theorem Holds.deleteValues {rows : List (Row Code)} {d : Dict Value} {values : Str → Option Value}
    (h : Holds env rows (overlaid d.items values)) :
    Holds env (((rows.map (·.name)).filter (! d.keys.contains ·)).dedup.foldl deleteValue rows)
      d.get := by
  intro name
  rw [filter_deleteValues]
  by_cases hname : name ∈ d.keys
  · obtain ⟨v, hv⟩ := Option.isSome_iff_exists.1 ((d.get_isSome_iff name).2 hname)
    rw [if_neg (by simp [hname]), h, hv, overlaid, show d.items.lookup name = some v from hv]
    rfl
  · have hnone : d.get name = none := by
      rw [← Option.not_isSome_iff_eq_none, d.get_isSome_iff]
      exact hname
    rw [hnone]
    by_cases hrow : name ∈ rows.map (·.name)
    · rw [if_pos (List.mem_dedup.2 (List.mem_filter.2 ⟨hrow, by simpa using hname⟩))]
      rfl
    · rw [if_neg fun hmem => hrow (List.mem_filter.1 (List.mem_dedup.1 hmem)).1]
      refine List.filter_eq_nil_iff.2 fun r hr => ?_
      simp only [decide_eq_true_eq]
      exact fun heq => hrow (heq ▸ List.mem_map_of_mem hr)

variable [DecidableEq Value]

/-! ## An update -/

/-- A failed update leaves all but the uuid. -/
theorem getContractorValues_error {reply : Option (Dict Value)} {s s' : State Value Code Time}
    {e : Error} (h : getContractorValues env reply s = .error (e, s')) :
    s'.value_cache = s.value_cache ∧ s'.valuesLastModified = s.valuesLastModified ∧
      s'.extra_values = s.extra_values := by
  unfold getContractorValues at h
  repeat' split at h
  all_goals cases h
  all_goals exact ⟨rfl, rfl, rfl⟩

theorem getContractorValues_ok {reply : Option (Dict Value)} {s s' : State Value Code Time}
    {d : Dict Value} {m : DateTime Time}
    (h : getContractorValues env reply s = .ok (d, m, s')) :
    reply = some d ∧ (d.get lastModified).bind env.parse = some m ∧
      s'.value_cache = s.value_cache ∧ s'.valuesLastModified = s.valuesLastModified ∧
        s'.extra_values = s.extra_values := by
  unfold getContractorValues at h
  cases reply with
  | none => cases h
  | some values =>
    cases hmodified : values.get lastModified with
    | none =>
      simp only [hmodified] at h
      repeat' split at h
      all_goals cases h
    | some text =>
      cases hparse : env.parse text with
      | none =>
        simp only [hmodified, hparse] at h
        repeat' split at h
        all_goals cases h
      | some time =>
        simp only [hmodified, hparse] at h
        repeat' split at h
        all_goals cases h
        exact ⟨rfl, by rw [hmodified]; exact hparse, rfl, rfl, rfl⟩

theorem updateCacheFromContractor_error {reply : Option (Dict Value)} {now : Time}
    {s s' : State Value Code Time} {e : Error}
    (h : updateCacheFromContractor env reply now s = .error (e, s')) :
    s'.value_cache = s.value_cache ∧ s'.valuesLastModified = s.valuesLastModified ∧
      s'.extra_values = s.extra_values := by
  unfold updateCacheFromContractor at h
  cases hvalues : getContractorValues env reply s with
  | error error =>
    simp only [hvalues] at h
    cases h
    exact getContractorValues_error hvalues
  | ok result =>
    obtain ⟨d, m, s₁⟩ := result
    obtain ⟨-, -, hkept⟩ := getContractorValues_ok hvalues
    simp only [hvalues] at h
    split at h
    · cases h
      exact hkept
    · cases h

/-- **An update that comes back leaves the rows of its values and their time**, and the overlay. -/
theorem updateCacheFromContractor_holds (hdecode : ∀ v, env.decode (env.encode v) = v)
    {d : Dict Value} {now : Time} {s s' : State Value Code Time} {values : Str → Option Value}
    (hplain : ∀ name ∈ d.keys, Plain name) (h : Holds env s.value_cache values)
    (hok : updateCacheFromContractor env (some d) now s = .ok s') :
    Holds env s'.value_cache d.get ∧ s'.extra_values = s.extra_values ∧
      ∃ m, (d.get lastModified).bind env.parse = some m ∧ s'.valuesLastModified = m.store := by
  unfold updateCacheFromContractor at hok
  cases hvalues : getContractorValues env (some d) s with
  | error error => simp [hvalues] at hok
  | ok result =>
    obtain ⟨d', m, s₁⟩ := result
    obtain ⟨hd, hm, hcache, -, hextra⟩ := getContractorValues_ok hvalues
    obtain rfl : d = d' := Option.some.inj hd
    simp only [hvalues] at hok
    rw [← hcache] at h
    unfold getValues at hok
    split at hok
    · cases hok
    rename_i shown hshown
    split at hshown
    · cases hshown
    cases hshown
    cases hok
    refine ⟨Holds.deleteValues (h.cacheValues d.nodup fun name hname => ?_), hextra, m, hm, rfl⟩
    obtain ⟨huuid, htimestamp, hmodified⟩ := hplain name hname
    simp [huuid, htimestamp, hmodified, h.cached_eq hdecode]

/-- Where the values' time cannot be read, no update comes back. -/
theorem updateCacheFromContractor_unreadable {reply : Option (Dict Value)} {now : Time}
    {s : State Value Code Time} (h : s.valuesLastModified = .unreadable) :
    ∃ e s', updateCacheFromContractor env reply now s = .error (e, s') := by
  unfold updateCacheFromContractor
  cases hvalues : getContractorValues env reply s with
  | error error => exact ⟨_, _, rfl⟩
  | ok result =>
    obtain ⟨d, m, s₁⟩ := result
    obtain ⟨-, -, -, hmodified, -⟩ := getContractorValues_ok hvalues
    refine ⟨.valueError, s₁, ?_⟩
    simp only [getValues, hmodified, h, Stored.fetch]

/-! ## Every run of calls -/

/-- The time comes back from the database. -/
def Readable (m : DateTime Time) : Prop := m.offset = none ∨ m.microsecond ≠ 0

theorem store_fetch_iff {m : DateTime Time} {last_modified : Option Time} :
    m.store.fetch = some last_modified ↔ Readable m ∧ last_modified = some m.naive := by
  unfold DateTime.store Readable
  cases m.offset with
  | none => simp [Stored.fetch, eq_comm]
  | some offset => by_cases hwhole : m.microsecond = 0 <;> simp [hwhole, Stored.fetch, eq_comm]

/-- The runs of calls, with the values of the latest update that came back, the overlay, and the
time of those values. -/
inductive Run (env : Env Value Code Time) : State Value Code Time → (Str → Option Value) →
    (Str → Option Value) → DateTime Time → Prop
  -- a new database has the time at which it was made
  | start {s : State Value Code Time} (created : Time) (hcache : s.value_cache = [])
      (hextra : s.extra_values = fun _ => none) (hmodified : s.valuesLastModified = .time created) :
      Run env s (fun _ => none) (fun _ => none) ⟨created, 0, none⟩
  | update {s s' : State Value Code Time} {latest overlay : Str → Option Value}
      {m m' : DateTime Time} (d : Dict Value) (now : Time) (h : Run env s latest overlay m)
      (hplain : ∀ name ∈ d.keys, Plain name)
      (hmodified : (d.get lastModified).bind env.parse = some m')
      (hok : updateCacheFromContractor env (some d) now s = .ok s') : Run env s' d.get overlay m'
  | fail {s s' : State Value Code Time} {latest overlay : Str → Option Value} {m : DateTime Time}
      (reply : Option (Dict Value)) (now : Time) (e : Error) (h : Run env s latest overlay m)
      (herror : updateCacheFromContractor env reply now s = .error (e, s')) :
      Run env s' latest overlay m
  | overlay {s : State Value Code Time} {latest overlay : Str → Option Value} {m : DateTime Time}
      (d : Dict Value) (h : Run env s latest overlay m) :
      Run env (setOverlayValues d s) latest (fun name => (d.get name).or (overlay name)) m
  -- a new `Config` on the same database
  | reopen {s : State Value Code Time} {latest overlay : Str → Option Value} {m : DateTime Time}
      (config_uuid : Option Value) (h : Run env s latest overlay m) :
      Run env { s with extra_values := fun _ => none, config_uuid := config_uuid } latest
        (fun _ => none) m

variable {s : State Value Code Time} {latest overlay : Str → Option Value} {m : DateTime Time}

/-- **What every run keeps.** -/
theorem Run.holds (hdecode : ∀ v, env.decode (env.encode v) = v)
    (h : Run env s latest overlay m) :
    Holds env s.value_cache latest ∧ s.extra_values = overlay ∧
      s.valuesLastModified = m.store := by
  induction h with
  | start created hcache hextra hmodified =>
    refine ⟨fun name => ?_, hextra, hmodified⟩
    rw [hcache]
    rfl
  | update d now _ hplain hmodified hok ih =>
    obtain ⟨hholds, hextra, m, hm, hstored⟩ :=
      updateCacheFromContractor_holds hdecode hplain ih.1 hok
    obtain rfl := Option.some.inj (hm.symm.trans hmodified)
    exact ⟨hholds, hextra.trans ih.2.1, hstored⟩
  | fail reply now e _ herror ih =>
    obtain ⟨hcache, hmodified, hextra⟩ := updateCacheFromContractor_error herror
    exact ⟨hcache ▸ ih.1, hextra.trans ih.2.1, hmodified.trans ih.2.2⟩
  | overlay d _ ih =>
    refine ⟨ih.1, ?_, ih.2.2⟩
    rw [setOverlayValues, ih.2.1]
  | reopen config_uuid _ ih => exact ⟨ih.1, rfl, ih.2.2⟩

/-- What the cache is to be: the table has one row for each of the latest values and no others;
`getValues` shows them under the overlay, and the three keys; an update that fails leaves it. -/
structure Synchronised (env : Env Value Code Time) (s : State Value Code Time)
    (latest overlay : Str → Option Value) (m : DateTime Time) : Prop where
  rows : ∀ name, (s.value_cache.filter (·.name = name)).map (fun row => env.decode row.value) =
    (latest name).toList
  values : ∀ now, ∃ values, getValues env false now s = .ok values ∧ ∀ name, values name =
    if name = lastModifiedKey then some (.lastModified (some m.naive))
    else if name = timestampKey then some (.timestamp now)
    else if name = uuidKey then some (.uuid s.config_uuid)
    else ((overlay name).or (latest name)).map .value
  failed : ∀ reply now e s', updateCacheFromContractor env reply now s = .error (e, s') →
    s'.value_cache = s.value_cache ∧ s'.valuesLastModified = s.valuesLastModified ∧
      s'.extra_values = s.extra_values

/-- **The cache after every run** is synchronised exactly when the time of its values is
readable. -/
theorem cache_synchronised_iff (hdecode : ∀ v, env.decode (env.encode v) = v)
    (h : Run env s latest overlay m) : Synchronised env s latest overlay m ↔ Readable m := by
  obtain ⟨hholds, hextra, hstored⟩ := h.holds hdecode
  constructor
  · intro h
    obtain ⟨values, hvalues, -⟩ := h.values m.naive
    unfold getValues at hvalues
    rw [hstored] at hvalues
    split at hvalues
    · cases hvalues
    · rename_i hfetch
      exact (store_fetch_iff.1 hfetch).1
  · intro hreadable
    refine ⟨fun name => ?_, fun now => ?_, fun _ _ _ _ => updateCacheFromContractor_error⟩
    · rw [hholds name]
      cases latest name with
      | none => rfl
      | some v => simp [hdecode]
    · have hfetch := store_fetch_iff.2 ⟨hreadable, rfl⟩
      refine ⟨_, by rw [getValues, hstored, hfetch], fun name => ?_⟩
      simp only [hextra, hholds.cached_eq hdecode]
      rfl

/-! ## Times with an offset -/

def sampleDict : Dict Str :=
  ⟨[(structureConfigUuid, ['u']), (lastModified, ['l'])], by decide⟩

def sampleStart : State Str Str Nat := ⟨[], .time 0, fun _ => none, none⟩

/-- The contractor says when the values changed. -/
def sampleEnv (modified : DateTime Nat) : Env Str Str Nat :=
  ⟨id, id, fun v => v ≠ [], fun _ => some modified⟩

def sampleState (modified : DateTime Nat) : State Str Str Nat :=
  after (updateCacheFromContractor (sampleEnv modified) (some sampleDict) 0 sampleStart)

theorem sample_run (modified : DateTime Nat) : Run (sampleEnv modified) (sampleState modified)
    sampleDict.get (fun _ => none) modified :=
  .update (s := sampleStart) sampleDict 0 (.start 0 rfl rfl rfl) (by unfold Plain; decide) rfl rfl

theorem cache_synchronised_sample : Synchronised (sampleEnv ⟨5, 0, none⟩)
    (sampleState ⟨5, 0, none⟩) sampleDict.get (fun _ => none) ⟨5, 0, none⟩ :=
  (cache_synchronised_iff (fun _ => rfl) (sample_run ⟨5, 0, none⟩)).2 (.inl rfl)

/-- A time of whole seconds with an offset is not read back. -/
theorem offset_unreadable : ¬ ∀ (s : State Str Str Nat) (latest overlay : Str → Option Str)
    (m : DateTime Nat), Run (sampleEnv ⟨5, 0, some 0⟩) s latest overlay m →
      Synchronised (sampleEnv ⟨5, 0, some 0⟩) s latest overlay m := by
  intro h
  obtain ⟨values, hvalues, -⟩ := (h _ _ _ _ (sample_run ⟨5, 0, some 0⟩)).values 0
  cases hvalues

end Values

end LibConfig
