import Disks.Firmware.Proof.Update
import Mathlib.Data.List.Count

/-!
# The firmware updates over the reboots of a machine

`Devices` says what the handlers are relied on for: a target tells its version until it is updated,
and an update changes the version of its target only.

* `checkTargets_versions`, `checkHandlers_versions`: the versions that a boot leaves.
* `boot_progress`: **a boot that ends with 20 has one handler less behind.**
* `updates_converge`: **with files that do what their entries say, the machine reboots once for each
  handler that is behind, and then all versions are the wanted ones**, or a boot fails.
* `reboots_forever`: where an update that succeeds leaves the version as it is, the machine reboots
  without end.
-/

namespace FirmwareUpdate

open Planner Effect

variable {σ τ : Type} {job : Job σ τ} {reboot : σ → σ}

/-- A file that the network has given under a name. -/
def Job.Downloaded (job : Job σ τ) (filename : String) (file : List UInt8) : Prop :=
  ∃ world world', job.open_url (job.resource_location ++ filename) world = .ok file world'

/-- What the handlers of a job are relied on for. -/
structure Devices (job : Job σ τ) (reboot : σ → σ) where
  /-- The targets of a handler, with their models. -/
  targets : String → List (τ × String)
  /-- The version of a target. -/
  version : σ → String → τ → String
  /-- Nothing was updated since the machine was booted. -/
  booted : σ → Prop
  /-- The version of a target after an update of the version that it has. -/
  took : String → τ → String → List UInt8 → String
  handlers_nodup : (job.handler_list.map (·.1)).Nodup
  targets_nodup : ∀ name, ((targets name).map (·.1)).Nodup
  reboot_booted : ∀ world, booted (reboot world)
  reboot_version : ∀ world, version (reboot world) = version world
  setup : ∀ handler ∈ job.handler_list, ∀ world a world',
    handler.2.setup world = .ok a world' →
    version world' = version world ∧ (booted world → booted world')
  getTargets : ∀ handler ∈ job.handler_list, ∀ world rows world', booted world →
    handler.2.getTargets world = .ok rows world' →
    rows = (targets handler.1).map (fun t => ⟨t.1, t.2, version world handler.1 t.1⟩) ∧
      version world' = version world ∧ booted world'
  beforeUpdates : ∀ handler ∈ job.handler_list, ∀ world a world',
    handler.2.beforeUpdates world = .ok a world' → version world' = version world
  updateTarget : ∀ handler ∈ job.handler_list, ∀ target file world world',
    handler.2.updateTarget target file world = .ok true world' →
    version world' handler.1 target = took handler.1 target (version world handler.1 target) file ∧
      ∀ name t, name ≠ handler.1 ∨ t ≠ target → version world' name t = version world name t
  afterUpdates : ∀ handler ∈ job.handler_list, ∀ world a world',
    handler.2.afterUpdates world = .ok a world' → version world' = version world
  open_url : ∀ url world file world',
    job.open_url url world = .ok file world' → version world' = version world
  postMessage : ∀ msg world a world', job.postMessage msg world = .ok a world' →
    version world' = version world ∧ (booted world → booted world')

namespace Devices

variable (D : Devices job reboot)

/-- What `getTargets` gives right after a boot. -/
def rows (world : σ) (name : String) : List (Row τ) :=
  (D.targets name).map fun t => ⟨t.1, t.2, D.version world name t.1⟩

/-- A handler has a target that is to be updated. -/
def isBehind (world : σ) (name : String) : Bool := (D.rows world name).any (job.stale name)

/-- How many handlers are behind. -/
def behind (world : σ) : Nat :=
  job.handler_list.countP fun handler => D.isBehind world handler.1

/-- The files have the versions of their entries. -/
def Faithful : Prop :=
  ∀ name firmware_map model model_map filename vermap,
    job.firmware.lookup name = some firmware_map →
    firmware_map.lookup model = some model_map → (filename, vermap) ∈ model_map.items →
    ∀ file, job.Downloaded filename file → ∀ target old,
      D.took name target old file = vermap.to_version

/-- Nothing outside raises, and no update fails. -/
structure Works (job : Job σ τ) : Prop where
  setup : ∀ handler ∈ job.handler_list, ∀ world, ∃ a world', handler.2.setup world = .ok a world'
  getTargets : ∀ handler ∈ job.handler_list, ∀ world, ∃ a world',
    handler.2.getTargets world = .ok a world'
  beforeUpdates : ∀ handler ∈ job.handler_list, ∀ world, ∃ a world',
    handler.2.beforeUpdates world = .ok a world'
  updateTarget : ∀ handler ∈ job.handler_list, ∀ target file world, ∃ world',
    handler.2.updateTarget target file world = .ok true world'
  afterUpdates : ∀ handler ∈ job.handler_list, ∀ world, ∃ a world',
    handler.2.afterUpdates world = .ok a world'
  open_url : ∀ url world, ∃ a world', job.open_url url world = .ok a world'
  postMessage : ∀ msg world, ∃ a world', job.postMessage msg world = .ok a world'

/-- The firmware maps have all that is asked of them. -/
structure Available (world : σ) : Prop where
  firmware : ∀ name, (job.firmware_targets.lookup name).isSome → (job.firmware.lookup name).isSome
  planned : ∀ name, ∀ row ∈ D.rows world name,
    job.stale name row = true → (job.planned name row).isSome

end Devices

/-! ## What comes back from outside -/

theorem call_eq_ok {α : Type} {m : EStateM Unit σ α} {s s' : State σ τ} {a : α}
    (h : (call m : Boot σ τ α) s = .ok a s') :
    m s.world = .ok a s'.world ∧ s'.filename_cache = s.filename_cache ∧ s'.dirty = s.dirty := by
  obtain ⟨world, hm, rfl⟩ := within_eq_ok h
  exact ⟨hm, rfl, rfl⟩

theorem call_returns {α : Type} {m : EStateM Unit σ α} {s : State σ τ}
    (h : ∃ a world', m s.world = .ok a world') : ∃ a s', (call m : Boot σ τ α) s = .ok a s' :=
  within_returns h

theorem note_eq (event : Event τ) (s : State σ τ) :
    note event s = .ok ⟨⟩ { s with trace := s.trace ++ [event] } :=
  rfl

theorem note_eq_ok {event : Event τ} {s s' : State σ τ} {a : Unit}
    (h : (note event : Boot σ τ Unit) s = .ok a s') :
    s'.world = s.world ∧ s'.filename_cache = s.filename_cache ∧ s'.dirty = s.dirty := by
  cases h
  exact ⟨rfl, rfl, rfl⟩

theorem get_eq (s : State σ τ) : (get : Boot σ τ (State σ τ)) s = .ok s s := rfl

/-- What is cached was downloaded. -/
def Genuine (job : Job σ τ) (s : State σ τ) : Prop :=
  ∀ filename file, s.filename_cache.lookup filename = some file → job.Downloaded filename file

namespace Devices

variable (D : Devices job reboot) {name : String} {handler : Handler σ τ}

theorem message_ok {msg : String} {s s' : State σ τ} {a : Unit}
    (h : (call (job.postMessage msg) : Boot σ τ Unit) s = .ok a s') :
    D.version s'.world = D.version s.world ∧ (D.booted s.world → D.booted s'.world) ∧
      s'.filename_cache = s.filename_cache ∧ s'.dirty = s.dirty := by
  obtain ⟨hmessage, hcache, hdirty⟩ := call_eq_ok h
  obtain ⟨hversion, hbooted⟩ := D.postMessage _ _ _ _ hmessage
  exact ⟨hversion, hbooted, hcache, hdirty⟩

theorem prepare_ok (hhandler : (name, handler) ∈ job.handler_list) {s s' : State σ τ} {a : Unit}
    (h : Job.prepare name handler s = .ok a s') :
    D.version s'.world = D.version s.world ∧ s'.filename_cache = s.filename_cache := by
  unfold Job.prepare at h
  rw [bind_ok (get_eq s)] at h
  split at h
  · cases h
    exact ⟨rfl, rfl⟩
  · rw [bind_ok (note_eq _ s)] at h
    obtain ⟨hcall, hcache, -⟩ := call_eq_ok h
    exact ⟨D.beforeUpdates _ hhandler _ _ _ hcall, hcache⟩

theorem localFile_ok {filename : String} {s s' : State σ τ} {file : List UInt8}
    (hgenuine : Genuine job s) (h : job.localFile filename s = .ok file s') :
    D.version s'.world = D.version s.world ∧ Genuine job s' ∧ job.Downloaded filename file := by
  unfold Job.localFile at h
  rw [bind_ok (get_eq s)] at h
  cases hlookup : s.filename_cache.lookup filename with
  | some cached =>
    rw [hlookup] at h
    cases h
    exact ⟨rfl, hgenuine, hgenuine _ _ hlookup⟩
  | none =>
    rw [hlookup] at h
    obtain ⟨file', t, hcall, hrest⟩ := bind_eq_ok.mp h
    obtain ⟨hopen, hcache, -⟩ := call_eq_ok hcall
    obtain ⟨rfl, hs'⟩ : file' = file ∧ s' = { t with
        filename_cache := Assoc.set t.filename_cache filename file'
        trace := t.trace ++ [.downloaded filename file'] } := by
      cases hrest
      exact ⟨rfl, rfl⟩
    have hdownloaded : job.Downloaded filename file' := ⟨_, _, hopen⟩
    refine ⟨by rw [hs', D.open_url _ _ _ _ hopen], ?_, hdownloaded⟩
    intro filename' file'' hlookup
    rw [hs', Assoc.lookup_set, hcache] at hlookup
    split at hlookup
    · rename_i hname
      cases hlookup
      rw [hname]
      exact hdownloaded
    · exact hgenuine _ _ hlookup

theorem updateTarget_ok (hhandler : (name, handler) ∈ job.handler_list) {target : τ}
    {filename : String} {file : List UInt8} {s s' : State σ τ} {a : Unit}
    (h : job.updateTarget name handler target filename file s = .ok a s') :
    D.version s'.world name target = D.took name target (D.version s.world name target) file ∧
      (∀ n t, n ≠ name ∨ t ≠ target → D.version s'.world n t = D.version s.world n t) ∧
      s'.filename_cache = s.filename_cache := by
  unfold Job.updateTarget at h
  obtain ⟨_, s₁, hmessage, h⟩ := bind_eq_ok.mp h
  obtain ⟨hversion₁, -, hcache₁, -⟩ := D.message_ok hmessage
  rw [bind_ok (note_eq _ s₁)] at h
  obtain ⟨success, t, hcall, hrest⟩ := bind_eq_ok.mp h
  obtain ⟨hupdate, hcache, -⟩ := call_eq_ok hcall
  cases success with
  | false => cases hrest
  | true =>
    cases hrest
    obtain ⟨htook, hothers⟩ := D.updateTarget _ hhandler _ _ _ _ hupdate
    dsimp only at htook hothers
    rw [hversion₁] at htook hothers
    exact ⟨htook, hothers, hcache.trans hcache₁⟩

/-! ## The versions that the targets of a handler are left with -/

/-- A target after it was checked. -/
def Checked (name : String) (version : String → τ → String) (row : Row τ) : Prop :=
  (job.stale name row = false → version name row.target = row.version) ∧
    (job.stale name row = true → ∃ filename file,
      job.planned name row = some (.update name row.target filename) ∧
      job.Downloaded filename file ∧
      version name row.target = D.took name row.target row.version file)

variable {version_map : Assoc.Dict String String}
  {firmware_map : Assoc.Dict String FirmwareMap}

/-- A target that comes back from its check. -/
theorem checkTarget_version (hhandler : (name, handler) ∈ job.handler_list)
    (hversions : job.firmware_targets.lookup name = some version_map)
    (hfirmware : job.firmware.lookup name = some firmware_map) {row : Row τ} {s s' : State σ τ}
    {a : Unit} (hgenuine : Genuine job s)
    (hrow : D.version s.world name row.target = row.version)
    (h : job.checkTarget name handler version_map firmware_map row s = .ok a s') :
    Genuine job s' ∧ D.Checked name (D.version s'.world) row ∧
      ∀ n t, n ≠ name ∨ t ≠ row.target → D.version s'.world n t = D.version s.world n t := by
  by_cases hs : job.stale name row = true
  · cases hplanned : job.planned name row with
    | none =>
      rw [Job.checkTarget_unplanned handler hversions hfirmware hs hplanned] at h
      obtain ⟨_, s₁, -, hthrow⟩ := bind_eq_ok.mp h
      cases hthrow
    | some step =>
      obtain ⟨filename, rfl, heq⟩ :=
        Job.checkTarget_planned handler hversions hfirmware hplanned
      rw [heq] at h
      obtain ⟨_, s₁, hprepare, h⟩ := bind_eq_ok.mp h
      obtain ⟨file, s₂, hlocal, hupdate⟩ := bind_eq_ok.mp h
      obtain ⟨hversion₁, hcache₁⟩ := D.prepare_ok hhandler hprepare
      have hgenuine₁ : Genuine job s₁ := by
        unfold Genuine
        rw [hcache₁]
        exact hgenuine
      obtain ⟨hversion₂, hgenuine₂, hdownloaded⟩ := D.localFile_ok hgenuine₁ hlocal
      obtain ⟨htook, hothers, hcache₃⟩ := D.updateTarget_ok hhandler hupdate
      rw [hversion₂, hversion₁] at htook hothers
      rw [hrow] at htook
      refine ⟨?_, ⟨by simp [hs], fun _ => ⟨filename, file, hplanned, hdownloaded, htook⟩⟩, hothers⟩
      unfold Genuine
      rw [hcache₃]
      exact hgenuine₂
  · have hcurrent : job.stale name row = false := by simpa using hs
    rw [Job.checkTarget_current handler hversions hcurrent] at h
    cases h
    exact ⟨hgenuine, ⟨fun _ => hrow, by simp [hcurrent]⟩, fun _ _ _ => rfl⟩

/-- **The targets of a handler, after they were checked.** -/
theorem checkTargets_versions (hhandler : (name, handler) ∈ job.handler_list)
    (hversions : job.firmware_targets.lookup name = some version_map)
    (hfirmware : job.firmware.lookup name = some firmware_map) {world : σ} {s s' : State σ τ}
    {a : PUnit} (hgenuine : Genuine job s) (hworld : D.version s.world = D.version world)
    (h : (D.rows world name).forM (job.checkTarget name handler version_map firmware_map) s =
      .ok a s') :
    Genuine job s' ∧ (∀ row ∈ D.rows world name, D.Checked name (D.version s'.world) row) ∧
      ∀ n, n ≠ name → D.version s'.world n = D.version world n := by
  have hnodup : ((D.rows world name).map Row.target).Nodup := by
    simpa [rows, Function.comp_def] using D.targets_nodup name
  let inv (front : List (Row τ)) (s : State σ τ) : Prop := Genuine job s ∧
    (∀ row ∈ front, D.Checked name (D.version s.world) row) ∧
    (∀ n, n ≠ name → D.version s.world n = D.version world n) ∧
    ∀ t, t ∉ front.map Row.target → D.version s.world name t = D.version world name t
  have hturn : ∀ front row rest, D.rows world name = front ++ row :: rest → ∀ s a s',
      inv front s → job.checkTarget name handler version_map firmware_map row s = .ok a s' →
      inv (front ++ [row]) s' := by
    intro front row rest hrows s _ t hinv hturn
    obtain ⟨hgenuine, hchecked, hothers, hleft⟩ := hinv
    rw [hrows, List.map_append, List.map_cons] at hnodup
    have hfresh : row.target ∉ front.map Row.target := fun hmem =>
      (List.nodup_append.mp hnodup).2.2 _ hmem _ (List.mem_cons_self ..) rfl
    have hrow : D.version s.world name row.target = row.version := by
      have hmem : row ∈ D.rows world name := by simp [hrows]
      rw [hleft _ hfresh]
      obtain ⟨x, -, rfl⟩ := List.mem_map.mp hmem
      rfl
    obtain ⟨hgenuine', hchecked', hframe⟩ :=
      D.checkTarget_version hhandler hversions hfirmware hgenuine hrow hturn
    refine ⟨hgenuine', ?_, ?_, ?_⟩
    · intro x hx
      rcases List.mem_append.mp hx with hx | hx
      · have hne : x.target ≠ row.target := fun he => hfresh (he ▸ List.mem_map_of_mem hx)
        have hsame := hframe name x.target (.inr hne)
        refine ⟨fun hc => hsame.trans ((hchecked x hx).1 hc), fun hs => ?_⟩
        obtain ⟨filename, file, hplanned, hdownloaded, htook⟩ := (hchecked x hx).2 hs
        exact ⟨filename, file, hplanned, hdownloaded, hsame.trans htook⟩
      · rw [List.mem_singleton.mp hx]
        exact hchecked'
    · intro n hn
      rw [← hothers n hn]
      exact funext fun t => hframe n t (.inl hn)
    · intro t ht
      rw [List.map_append, List.mem_append, not_or] at ht
      rw [← hleft t ht.1]
      exact hframe name t (.inr (by simpa using ht.2))
  have hstart : inv [] s := ⟨hgenuine, fun _ h => absurd h List.not_mem_nil,
    fun _ _ => by rw [hworld], fun _ _ => by rw [hworld]⟩
  obtain ⟨hgenuine', hchecked, hothers, -⟩ := forM_ok hturn hstart h
  exact ⟨hgenuine', hchecked, hothers⟩

/-- Targets that are as they are to be. -/
theorem checkTargets_current (handler : Handler σ τ)
    (firmware_map : Assoc.Dict String FirmwareMap)
    (hversions : job.firmware_targets.lookup name = some version_map)
    {target_list : List (Row τ)} (h : target_list.any (job.stale name) = false) (s : State σ τ) :
    target_list.forM (job.checkTarget name handler version_map firmware_map) s = .ok ⟨⟩ s := by
  induction target_list with
  | nil => rfl
  | cons row rest ih =>
    rw [List.any_cons, Bool.or_eq_false_iff] at h
    have hrow : job.checkTarget name handler version_map firmware_map row s = .ok ⟨⟩ s := by
      rw [Job.checkTarget_current handler hversions h.1]
      rfl
    exact (bind_ok hrow).trans (ih h.2)

/-- Whether a handler has made the state dirty. -/
theorem checkTargets_dirty (hversions : job.firmware_targets.lookup name = some version_map)
    (hfirmware : job.firmware.lookup name = some firmware_map) {target_list : List (Row τ)}
    {s s' : State σ τ} {a : PUnit} (hclean : s.dirty = false)
    (h : target_list.forM (job.checkTarget name handler version_map firmware_map) s = .ok a s') :
    s'.dirty = target_list.any (job.stale name) := by
  obtain ⟨new, -, -, hpost⟩ :=
    Job.checkTargets_writes handler hversions hfirmware target_list hclean
  rw [h] at hpost
  exact hpost.1

/-! ## The versions that a boot leaves -/

/-- The versions are as before but for those of one handler, whose targets were checked. -/
def Progress (world world' : σ) (name : String) : Prop :=
  D.isBehind world name = true ∧
    (∀ row ∈ D.rows world name, D.Checked name (D.version world') row) ∧
    ∀ n, n ≠ name → D.version world' n = D.version world n

theorem rows_congr {world world' : σ} (h : D.version world' name = D.version world name) :
    D.rows world' name = D.rows world name := by
  rw [rows, rows, h]

theorem isBehind_congr {world world' : σ} (h : D.version world' name = D.version world name) :
    D.isBehind world' name = D.isBehind world name := by
  rw [isBehind, isBehind, D.rows_congr h]

/-- A handler without a version map is not behind. -/
theorem isBehind_none (h : job.firmware_targets.lookup name = none) (world : σ) :
    D.isBehind world name = false := by
  simp [isBehind, Job.stale, Job.wanted, h]

/-- **The versions after the loop over the handlers.** -/
theorem checkHandlers_versions {handlers : List (String × Handler σ τ)}
    (hsub : ∀ handler ∈ handlers, handler ∈ job.handler_list) {s s' : State σ τ} {a : Unit}
    (hgenuine : Genuine job s) (hbooted : D.booted s.world) (hclean : s.dirty = false)
    (h : job.checkHandlers handlers s = .ok a s') :
    s'.dirty = false ∧ D.version s'.world = D.version s.world ∧
        (∀ handler ∈ handlers, D.isBehind s.world handler.1 = false) ∨
      s'.dirty = true ∧ ∃ handler ∈ handlers, D.Progress s.world s'.world handler.1 := by
  induction handlers generalizing s with
  | nil =>
    cases h
    exact .inl ⟨hclean, rfl, fun _ h => absurd h List.not_mem_nil⟩
  | cons handler rest ih =>
    obtain ⟨name, handler⟩ := handler
    rw [List.forall_mem_cons] at hsub
    obtain ⟨hhandler, hsub⟩ := hsub
    rw [Job.checkHandlers] at h
    cases hversions : job.firmware_targets.lookup name with
    | none =>
      rw [hversions] at h
      refine (ih hsub hgenuine hbooted hclean h).imp (fun hsame => ?_) fun hprogress => ?_
      · exact ⟨hsame.1, hsame.2.1, List.forall_mem_cons.mpr
          ⟨D.isBehind_none hversions _, hsame.2.2⟩⟩
      · obtain ⟨hdirty, x, hx, hprogress⟩ := hprogress
        exact ⟨hdirty, x, List.mem_cons_of_mem _ hx, hprogress⟩
    | some version_map =>
      rw [hversions] at h
      cases hfirmware : job.firmware.lookup name with
      | none =>
        rw [hfirmware] at h
        cases h
      | some firmware_map =>
        rw [hfirmware] at h
        obtain ⟨target_list, s₁, hcall, h⟩ := bind_eq_ok.mp h
        obtain ⟨hget, hcache₁, hdirty₁⟩ := call_eq_ok hcall
        obtain ⟨rfl, hversion₁, hbooted₁⟩ := D.getTargets _ hhandler _ _ _ hbooted hget
        obtain ⟨_, s₂, hnote, h⟩ := bind_eq_ok.mp h
        obtain ⟨hworld₂, hcache₂, hdirty₂⟩ := note_eq_ok hnote
        rw [← hworld₂] at hversion₁ hbooted₁
        have hgenuine₂ : Genuine job s₂ := by
          unfold Genuine
          rw [hcache₂, hcache₁]
          exact hgenuine
        have hclean₂ : s₂.dirty = false := hdirty₂.trans (hdirty₁.trans hclean)
        obtain ⟨_, s₃, hloop, h⟩ := bind_eq_ok.mp h
        have hdirty₃ := checkTargets_dirty hversions hfirmware hclean₂ hloop
        obtain ⟨-, hchecked, hothers⟩ :=
          D.checkTargets_versions hhandler hversions hfirmware hgenuine₂ hversion₁ hloop
        rw [bind_ok (get_eq s₃)] at h
        by_cases hany : D.isBehind s.world name = true
        · rw [if_pos (hdirty₃.trans hany), bind_ok (note_eq _ s₃)] at h
          obtain ⟨hafter, -, hdirty⟩ := call_eq_ok h
          have hversion := D.afterUpdates _ hhandler _ _ _ hafter
          refine .inr ⟨hdirty.trans (hdirty₃.trans hany), _, List.mem_cons_self .., hany, ?_, ?_⟩
          · rw [hversion]
            exact hchecked
          · rw [hversion]
            exact hothers
        · have hnone : D.isBehind s.world name = false := by simpa using hany
          have hsame := checkTargets_current handler firmware_map hversions hnone s₂
          obtain rfl : s₂ = s₃ := by
            have heq := hsame.symm.trans hloop
            cases heq
            rfl
          rw [if_neg (by simp [hclean₂])] at h
          have hbehind (n : String) : D.isBehind s₂.world n = D.isBehind s.world n :=
            D.isBehind_congr (congrFun hversion₁ n)
          refine (ih hsub hgenuine₂ hbooted₁ hclean₂ h).imp (fun hsame => ?_) fun hprogress => ?_
          · obtain ⟨hdirty', hversion, hrest⟩ := hsame
            refine ⟨hdirty', hversion.trans hversion₁, List.forall_mem_cons.mpr ⟨hnone, ?_⟩⟩
            intro x hx
            rw [← hbehind]
            exact hrest x hx
          · obtain ⟨hdirty', x, hx, hb, hchecked', hothers'⟩ := hprogress
            refine ⟨hdirty', x, List.mem_cons_of_mem _ hx, (hbehind x.1).symm.trans hb, ?_, ?_⟩
            · rw [← D.rows_congr (congrFun hversion₁ x.1)]
              exact hchecked'
            · intro n hn
              exact (hothers' n hn).trans (congrFun hversion₁ n)

theorem setup_versions {handlers : List (String × Handler σ τ)}
    (hsub : ∀ handler ∈ handlers, handler ∈ job.handler_list) {s s' : State σ τ} {a : PUnit}
    (hbooted : D.booted s.world)
    (h : handlers.forM (fun handler => (call handler.2.setup : Boot σ τ Unit)) s = .ok a s') :
    D.version s'.world = D.version s.world ∧ D.booted s'.world ∧
      s'.filename_cache = s.filename_cache ∧ s'.dirty = s.dirty := by
  refine forM_ok (I := fun _ t => D.version t.world = D.version s.world ∧ D.booted t.world ∧
    t.filename_cache = s.filename_cache ∧ t.dirty = s.dirty) ?_ ⟨rfl, hbooted, rfl, rfl⟩ h
  intro front handler rest hhandlers t _ t' hinv hturn
  obtain ⟨hversion, hbooted, hcache, hdirty⟩ := hinv
  obtain ⟨hsetup, hcache', hdirty'⟩ := call_eq_ok hturn
  have hmem : handler ∈ job.handler_list := hsub _ (by simp [hhandlers])
  obtain ⟨hversion', hbooted'⟩ := D.setup _ hmem _ _ _ hsetup
  exact ⟨hversion'.trans hversion, hbooted' hbooted, hcache'.trans hcache, hdirty'.trans hdirty⟩

/-- What a boot does in front of the check of its handlers. -/
theorem start_versions {world : σ} (hbooted : D.booted world) {s' : State σ τ} {a : Int}
    (h : job.main { world } = .ok a s') :
    ∃ s, D.version s.world = D.version world ∧ D.booted s.world ∧ Genuine job s ∧
      s.dirty = false ∧ ∃ u t, job.checkHandlers job.handler_list s = .ok u t ∧
        (t.dirty = true ∧ a = 20 ∧ D.version s'.world = D.version t.world ∨
          t.dirty = false ∧ a = 0 ∧ s' = t) := by
  unfold Job.main at h
  obtain ⟨_, s₀, hmessage, h⟩ := bind_eq_ok.mp h
  obtain ⟨_, s₁, hsetup, h⟩ := bind_eq_ok.mp h
  obtain ⟨_, s₂, hmessage', h⟩ := bind_eq_ok.mp h
  obtain ⟨u, t, hcheck, h⟩ := bind_eq_ok.mp h
  obtain ⟨hversion₀, hbooted₀, hcache₀, hdirty₀⟩ := D.message_ok hmessage
  obtain ⟨hversion₁, hbooted₁, hcache₁, hdirty₁⟩ :=
    D.setup_versions (fun _ h => h) (hbooted₀ hbooted) hsetup
  obtain ⟨hversion₂, hbooted₂, hcache₂, hdirty₂⟩ := D.message_ok hmessage'
  refine ⟨s₂, hversion₂.trans (hversion₁.trans hversion₀), hbooted₂ hbooted₁, ?_,
    hdirty₂.trans (hdirty₁.trans hdirty₀), u, t, hcheck, ?_⟩
  · intro filename file hlookup
    rw [hcache₂, hcache₁, hcache₀] at hlookup
    cases hlookup
  · rw [bind_ok (get_eq t)] at h
    by_cases hdirty : t.dirty = true
    · rw [if_pos hdirty] at h
      obtain ⟨_, t', hreboot, h⟩ := bind_eq_ok.mp h
      cases h
      exact .inl ⟨hdirty, rfl, (D.message_ok hreboot).1⟩
    · rw [if_neg hdirty] at h
      cases h
      exact .inr ⟨by simpa using hdirty, rfl, rfl⟩

/-- **The versions after a boot.** -/
theorem boot_versions {world : σ} (hbooted : D.booted world) :
    (job.boot world).1 = 0 ∧ D.version (job.boot world).2.world = D.version world ∧
        (∀ handler ∈ job.handler_list, D.isBehind world handler.1 = false) ∨
      (job.boot world).1 = 20 ∧ (∃ handler ∈ job.handler_list,
        D.Progress world (job.boot world).2.world handler.1) ∨
      (job.boot world).1 = 1 := by
  have hmain := job.main_writes (s := { world }) rfl
  obtain ⟨new, -, hpost⟩ := hmain
  unfold Job.boot
  cases hres : job.main { world } with
  | error code s =>
    rw [hres] at hpost
    exact .inr (.inr hpost.1)
  | ok code s =>
    clear hpost
    obtain ⟨s₁, hversion₁, hbooted₁, hgenuine₁, hclean₁, _, t, hcheck, hend⟩ :=
      D.start_versions hbooted hres
    have hbehind (n : String) : D.isBehind s₁.world n = D.isBehind world n :=
      D.isBehind_congr (congrFun hversion₁ n)
    rcases D.checkHandlers_versions (fun _ h => h) hgenuine₁ hbooted₁ hclean₁ hcheck with
      ⟨hdirty, hversion, hrest⟩ | ⟨hdirty, handler, hhandler, hb, hchecked, hothers⟩
    · obtain ⟨hdirty', -⟩ | ⟨-, rfl, rfl⟩ := hend
      · rw [hdirty] at hdirty'
        cases hdirty'
      · refine .inl ⟨rfl, hversion.trans hversion₁, fun handler hhandler => ?_⟩
        rw [← hbehind]
        exact hrest handler hhandler
    · obtain ⟨-, rfl, hlast⟩ | ⟨hdirty', -⟩ := hend
      · refine .inr (.inl ⟨rfl, handler, hhandler, (hbehind _).symm.trans hb, ?_, ?_⟩)
        · rw [← D.rows_congr (congrFun hversion₁ handler.1), hlast]
          exact hchecked
        · intro n hn
          rw [hlast]
          exact (hothers n hn).trans (congrFun hversion₁ n)
      · rw [hdirty] at hdirty'
        cases hdirty'

/-! ## One handler less behind -/

/-- With files that do what their entries say, a target that was checked has its version. -/
theorem Checked.current (hfaithful : D.Faithful) {world' : σ} {row : Row τ}
    (h : D.Checked name (D.version world') row) :
    job.stale name ⟨row.target, row.model, D.version world' name row.target⟩ = false := by
  by_cases hs : job.stale name row = true
  · obtain ⟨found, file, hplanned, hdownloaded, htook⟩ := h.2 hs
    obtain ⟨target_version, firmware_map, model_map, filename, hwanted, -, hfirmware, hmodel,
      hfound, heq⟩ := Job.planned_cases hplanned
    obtain ⟨vermap, hvermap, hto, -⟩ := findStep_leads hfound
    obtain rfl : found = filename := by simpa using heq
    have hversion : D.version world' name row.target = target_version := by
      rw [htook, ← hto]
      exact hfaithful _ _ _ _ _ _ hfirmware hmodel hvermap _ hdownloaded _ _
    simp [Job.stale, hwanted, hversion]
  · have hcurrent : job.stale name row = false := by simpa using hs
    rw [h.1 hcurrent]
    exact hcurrent

/-- The handler that was worked on is not behind any more. -/
theorem Progress.done (hfaithful : D.Faithful) {world world' : σ}
    (h : D.Progress world world' name) : D.isBehind world' name = false := by
  obtain ⟨-, hchecked, -⟩ := h
  rw [isBehind, List.any_eq_false]
  intro row hrow
  obtain ⟨t, ht, rfl⟩ := List.mem_map.mp hrow
  have hmem : (⟨t.1, t.2, D.version world name t.1⟩ : Row τ) ∈ D.rows world name :=
    List.mem_map_of_mem ht
  simpa using Checked.current D hfaithful (hchecked _ hmem)

/-- A count of a list where one element is counted no more. -/
theorem countP_less {α : Type} {p q : α → Bool} {l : List α} {x : α} (hnodup : l.Nodup)
    (hx : x ∈ l) (hpx : p x = false) (hqx : q x = true) (hsame : ∀ y ∈ l, y ≠ x → p y = q y) :
    l.countP p + 1 = l.countP q := by
  obtain ⟨front, back, rfl⟩ := List.append_of_mem hx
  rw [List.nodup_append, List.nodup_cons] at hnodup
  obtain ⟨-, ⟨hback, -⟩, hfront⟩ := hnodup
  have hf : front.countP p = front.countP q := List.countP_congr fun y hy => by
    rw [hsame y (by simp [hy]) (hfront y hy x (List.mem_cons_self ..))]
  have hb : back.countP p = back.countP q := List.countP_congr fun y hy => by
    rw [hsame y (by simp [hy]) fun he => hback (he ▸ hy)]
  simp [List.countP_append, hpx, hqx, hf, hb]
  omega

/-- **A boot that ends with 20 has one handler less behind.** -/
theorem boot_progress (hfaithful : D.Faithful) {world : σ} (hbooted : D.booted world)
    (hcode : (job.boot world).1 = 20) :
    D.behind (reboot (job.boot world).2.world) + 1 = D.behind world := by
  rcases D.boot_versions hbooted with ⟨h, -⟩ | ⟨-, handler, hhandler, hprogress⟩ | h
  · rw [hcode] at h
    cases h
  · refine countP_less (D.handlers_nodup.of_map _) hhandler ?_ hprogress.1 ?_
    · rw [D.isBehind_congr (congrFun (D.reboot_version _) _)]
      exact hprogress.done D hfaithful
    · intro other hother hne
      have hname : other.1 ≠ handler.1 := fun he =>
        hne (List.inj_on_of_nodup_map D.handlers_nodup hother hhandler he)
      rw [D.isBehind_congr (congrFun (D.reboot_version _) _)]
      exact D.isBehind_congr (hprogress.2.2 _ hname)
  · rw [hcode] at h
    cases h

/-! ## Nothing fails -/

section works

variable {D} (hworks : Works job)

include hworks

theorem prepare_returns (hhandler : (name, handler) ∈ job.handler_list) (s : State σ τ) :
    ∃ a s', Job.prepare name handler s = .ok a s' := by
  unfold Job.prepare
  rw [bind_ok (get_eq s)]
  split
  · exact ⟨_, _, rfl⟩
  · rw [bind_ok (note_eq _ s)]
    exact call_returns (hworks.beforeUpdates _ hhandler _)

theorem localFile_returns (filename : String) (s : State σ τ) :
    ∃ a s', job.localFile filename s = .ok a s' := by
  unfold Job.localFile
  rw [bind_ok (get_eq s)]
  cases s.filename_cache.lookup filename with
  | some file => exact ⟨_, _, rfl⟩
  | none =>
    obtain ⟨file, t, hcall⟩ := call_returns (s := s) (hworks.open_url
      (job.resource_location ++ filename) s.world)
    exact ⟨_, _, bind_ok hcall⟩

theorem updateTarget_returns (hhandler : (name, handler) ∈ job.handler_list) (target : τ)
    (filename : String) (file : List UInt8) (s : State σ τ) :
    ∃ a s', job.updateTarget name handler target filename file s = .ok a s' := by
  unfold Job.updateTarget
  obtain ⟨_, s₁, hmessage⟩ := call_returns (s := s) (hworks.postMessage
    ("Updating \"" ++ job.format target ++ "\" with \"" ++ filename ++ "\"") s.world)
  obtain ⟨world', hupdate⟩ := hworks.updateTarget _ hhandler target file s₁.world
  have hcall : (call (handler.updateTarget target file) : Boot σ τ Bool)
      { s₁ with trace := s₁.trace ++ [.update name target filename file] } = .ok true
        { s₁ with world := world', trace := s₁.trace ++ [.update name target filename file] } :=
    within_of_ok hupdate
  rw [bind_ok hmessage, bind_ok (note_eq _ s₁)]
  exact ⟨_, _, bind_ok hcall⟩

theorem checkTarget_returns (hhandler : (name, handler) ∈ job.handler_list)
    (hversions : job.firmware_targets.lookup name = some version_map)
    (hfirmware : job.firmware.lookup name = some firmware_map) {row : Row τ}
    (hplanned : job.stale name row = true → (job.planned name row).isSome) (s : State σ τ) :
    ∃ a s', job.checkTarget name handler version_map firmware_map row s = .ok a s' := by
  by_cases hs : job.stale name row = true
  · obtain ⟨step, hstep⟩ := Option.isSome_iff_exists.mp (hplanned hs)
    obtain ⟨filename, -, heq⟩ :=
      Job.checkTarget_planned handler hversions hfirmware hstep
    obtain ⟨_, s₁, hprepare⟩ := prepare_returns hworks hhandler s
    obtain ⟨file, s₂, hlocal⟩ := localFile_returns hworks filename s₁
    rw [heq, bind_ok hprepare, bind_ok hlocal]
    exact updateTarget_returns hworks hhandler _ _ _ _
  · rw [Job.checkTarget_current handler hversions (by simpa using hs)]
    exact ⟨_, _, rfl⟩

theorem checkHandlers_returns {handlers : List (String × Handler σ τ)}
    (hsub : ∀ handler ∈ handlers, handler ∈ job.handler_list) {world : σ}
    (havailable : D.Available world) {s : State σ τ} (hbooted : D.booted s.world)
    (hworld : D.version s.world = D.version world) (hclean : s.dirty = false) :
    ∃ a s', job.checkHandlers handlers s = .ok a s' := by
  induction handlers generalizing s with
  | nil => exact ⟨_, _, rfl⟩
  | cons handler rest ih =>
    obtain ⟨name, handler⟩ := handler
    rw [List.forall_mem_cons] at hsub
    obtain ⟨hhandler, hsub⟩ := hsub
    rw [Job.checkHandlers]
    cases hversions : job.firmware_targets.lookup name with
    | none => exact ih hsub hbooted hworld hclean
    | some version_map =>
      obtain ⟨firmware_map, hfirmware⟩ :=
        Option.isSome_iff_exists.mp (havailable.firmware name (by simp [hversions]))
      obtain ⟨target_list, s₁, hcall⟩ :=
        call_returns (s := s) (hworks.getTargets _ hhandler s.world)
      obtain ⟨hget, -, hdirty₁⟩ := call_eq_ok hcall
      obtain ⟨htargets, hversion₁, hbooted₁⟩ := D.getTargets _ hhandler _ _ _ hbooted hget
      have hrows : target_list = D.rows world name := by
        rw [htargets, rows, hworld]
      have hclean₁ : s₁.dirty = false := hdirty₁.trans hclean
      simp only [hfirmware]
      rw [bind_ok hcall, bind_ok (note_eq _ s₁)]
      obtain ⟨_, s₃, hloop, -⟩ := forM_returns (I := fun _ _ => True) (l := target_list)
        (f := job.checkTarget name handler version_map firmware_map)
        (s := { s₁ with trace := s₁.trace ++ [.listed name target_list] })
        (fun front row rest hcut t _ => by
          obtain ⟨a, t', hok⟩ := checkTarget_returns hworks hhandler hversions hfirmware
            (havailable.planned name row (by simp [← hrows, hcut])) t
          exact ⟨a, t', hok, trivial⟩) trivial
      rw [bind_ok hloop, bind_ok (get_eq s₃)]
      have hdirty₃ := checkTargets_dirty hversions hfirmware
        (s := { s₁ with trace := s₁.trace ++ [.listed name target_list] }) hclean₁ hloop
      by_cases hany : target_list.any (job.stale name) = true
      · rw [if_pos (hdirty₃.trans hany), bind_ok (note_eq _ s₃)]
        exact call_returns (hworks.afterUpdates _ hhandler _)
      · have hnone : target_list.any (job.stale name) = false := by simpa using hany
        have hsame := checkTargets_current handler firmware_map hversions hnone
          { s₁ with trace := s₁.trace ++ [.listed name target_list] }
        have hs₃ : s₃ = { s₁ with trace := s₁.trace ++ [.listed name target_list] } := by
          have heq := hsame.symm.trans hloop
          cases heq
          rfl
        rw [if_neg (by simp [hdirty₃, hnone]), hs₃]
        exact ih hsub hbooted₁ (hversion₁.trans hworld) hclean₁

/-- **A boot does not fail.** -/
theorem boot_returns {world : σ} (havailable : D.Available world) (hbooted : D.booted world) :
    (job.boot world).1 ≠ 1 := by
  obtain ⟨_, s₀, hmessage⟩ := call_returns (s := ({ world } : State σ τ))
    (hworks.postMessage "Setting up handlers..." world)
  obtain ⟨_, s₁, hsetup, -⟩ := forM_returns (I := fun _ _ => True) (l := job.handler_list)
    (f := fun handler => (call handler.2.setup : Boot σ τ Unit)) (s := s₀)
    (fun front handler rest hcut t _ => by
      obtain ⟨a, t', hok⟩ := call_returns (s := t)
        (hworks.setup handler (by simp [hcut]) t.world)
      exact ⟨a, t', hok, trivial⟩) trivial
  obtain ⟨_, s₂, hmessage'⟩ := call_returns (s := s₁)
    (hworks.postMessage "Checking for Updates...." s₁.world)
  obtain ⟨hversion₀, hbooted₀, -, hdirty₀⟩ := D.message_ok hmessage
  obtain ⟨hversion₁, hbooted₁, -, hdirty₁⟩ :=
    D.setup_versions (fun _ h => h) (hbooted₀ hbooted) hsetup
  obtain ⟨hversion₂, hbooted₂, -, hdirty₂⟩ := D.message_ok hmessage'
  obtain ⟨_, t, hcheck⟩ := checkHandlers_returns hworks (fun _ h => h) havailable
    (hbooted₂ hbooted₁) (hversion₂.trans (hversion₁.trans hversion₀))
    (hdirty₂.trans (hdirty₁.trans hdirty₀))
  unfold Job.boot Job.main
  rw [bind_ok hmessage, bind_ok hsetup, bind_ok hmessage', bind_ok hcheck, bind_ok (get_eq t)]
  by_cases hdirty : t.dirty = true
  · obtain ⟨_, t', hreboot⟩ := call_returns (s := t)
      (hworks.postMessage "Firmware Changed, rebooting." t.world)
    rw [if_pos hdirty, bind_ok hreboot]
    exact show (20 : Int) ≠ 1 by decide
  · rw [if_neg hdirty]
    exact show (0 : Int) ≠ 1 by decide

end works

/-! ## One boot after the other -/

variable {D}

theorem behind_eq_zero_iff {world : σ} :
    D.behind world = 0 ↔ ∀ handler ∈ job.handler_list, D.isBehind world handler.1 = false := by
  simp [behind]

/-- What is available is so after a boot. -/
theorem Available.next (hfaithful : D.Faithful) {world world' : σ} (h : D.Available world)
    (hprogress : D.Progress world world' name) : D.Available world' where
  firmware := h.firmware
  planned := by
    intro n row hrow hs
    by_cases hn : n = name
    · rw [hn] at hrow hs
      have hdone := hprogress.done D hfaithful
      rw [isBehind, List.any_eq_false] at hdone
      exact absurd hs (hdone row hrow)
    · rw [D.rows_congr (hprogress.2.2 n hn)] at hrow
      exact h.planned n row hrow hs

theorem Available.rebooted {world : σ} (h : D.Available world) : D.Available (reboot world) where
  firmware := h.firmware
  planned := by
    intro n row hrow
    rw [D.rows_congr (congrFun (D.reboot_version world) n)] at hrow
    exact h.planned n row hrow

end Devices

/-- **The machine reboots once for each handler that is behind**, and is then powered off with all
versions as they are wanted, or it is left with an error before; which does not happen where
nothing outside fails and the firmware maps have what is asked of them. -/
theorem updates_converge (D : Devices job reboot) (hfaithful : D.Faithful) {world : σ}
    (hbooted : D.booted world) :
    ∃ boots last ending s, Loop.Steps (job.turn reboot) boots world last ∧
      job.turn reboot last = some (.stop (ending, s)) ∧ boots ≤ D.behind world ∧
      (ending = .poweroff ∧ boots = D.behind world ∧
          (∀ handler ∈ job.handler_list, D.isBehind s.world handler.1 = false) ∨
        ending = .error) ∧
      (Devices.Works job → D.Available world → ending = .poweroff) := by
  induction hcount : D.behind world generalizing world with
  | zero =>
    refine ⟨0, world, ?_⟩
    rcases D.boot_versions hbooted with
      ⟨hcode, hversion, hnone⟩ | ⟨-, handler, hhandler, hp⟩ | hcode
    · refine ⟨.poweroff, _, .refl _, DoTask.turn_poweroff hcode, Nat.zero_le _, ?_,
        fun _ _ => rfl⟩
      refine .inl ⟨rfl, rfl, fun handler hhandler => ?_⟩
      rw [D.isBehind_congr (congrFun hversion handler.1)]
      exact hnone handler hhandler
    · have hnone := Devices.behind_eq_zero_iff.mp hcount handler hhandler
      rw [hp.1] at hnone
      cases hnone
    · refine ⟨.error, _, .refl _, DoTask.turn_error hcode, Nat.zero_le _, .inr rfl,
        fun hworks havailable => ?_⟩
      exact absurd hcode (Devices.boot_returns hworks havailable hbooted)
  | succ count ih =>
    rcases D.boot_versions hbooted with ⟨hcode, -, hnone⟩ | ⟨hcode, handler, -, hp⟩ | hcode
    · rw [Devices.behind_eq_zero_iff.mpr hnone] at hcount
      cases hcount
    · -- one boot, and then those that are left
      have hless := D.boot_progress hfaithful hbooted hcode
      obtain ⟨boots, last, ending, s, hsteps, hstop, hle, hends, hworks⟩ :=
        ih (D.reboot_booted (job.boot world).2.world) (by omega)
      refine ⟨boots + 1, last, ending, s, .head (DoTask.turn_reboot hcode) hsteps, hstop,
        by omega, hends.imp_left fun h => ⟨h.1, by rw [h.2.1], h.2.2⟩, fun hw havailable => ?_⟩
      exact hworks hw (havailable.next hfaithful hp).rebooted
    · refine ⟨0, world, .error, _, .refl _, DoTask.turn_error hcode, Nat.zero_le _,
        .inr rfl, fun hworks havailable => ?_⟩
      exact absurd hcode (Devices.boot_returns hworks havailable hbooted)

/-- **An update that succeeds and leaves the version as it is**: the next boot makes it again, and
the machine reboots without end. -/
theorem reboots_forever (D : Devices job reboot)
    (hstays : ∀ name target old file, D.took name target old file = old)
    (hworks : Devices.Works job) {world : σ} (havailable : D.Available world)
    (hbooted : D.booted world) (hbehind : 0 < D.behind world) (boots : Nat) :
    Loop.run (job.turn reboot) boots world = none := by
  refine Loop.run_spins
    (I := fun w => D.booted w ∧ ∀ name, D.rows w name = D.rows world name) ?_
    ⟨hbooted, fun _ => rfl⟩ boots
  intro w hw
  obtain ⟨hbooted, hrows⟩ := hw
  have hcount : D.behind w = D.behind world := by
    simp only [Devices.behind, Devices.isBehind, hrows]
  have havailable' : D.Available w := by
    refine ⟨havailable.firmware, fun name row hrow => ?_⟩
    rw [hrows] at hrow
    exact havailable.planned name row hrow
  rcases D.boot_versions hbooted with
    ⟨-, -, hnone⟩ | ⟨hcode, handler, -, hb, hchecked, hothers⟩ | hcode
  · have hzero := Devices.behind_eq_zero_iff.mpr hnone
    omega
  · refine ⟨_, DoTask.turn_reboot hcode, D.reboot_booted _, fun name => ?_⟩
    rw [D.rows_congr (congrFun (D.reboot_version _) name)]
    by_cases hn : name = handler.1
    · rw [hn, ← hrows, Devices.rows, Devices.rows]
      refine List.map_congr_left fun t ht => ?_
      have hrow := hchecked _ (List.mem_map_of_mem ht)
      -- checked or not, the target has the version that it had
      have hsame : D.version (job.boot w).2.world handler.1 t.1 = D.version w handler.1 t.1 := by
        by_cases hs : job.stale handler.1 ⟨t.1, t.2, D.version w handler.1 t.1⟩ = true
        · obtain ⟨-, file, -, -, htook⟩ := hrow.2 hs
          exact htook.trans (hstays _ _ _ _)
        · exact hrow.1 (by simpa using hs)
      rw [hsame]
    · rw [D.rows_congr (hothers name hn)]
      exact hrows name
  · exact absurd hcode (Devices.boot_returns hworks havailable' hbooted)

/-! ## A machine with one target -/

/-- A file that leads from version 1 to version 2. -/
def adapterMap : FirmwareMap := ⟨[("two.bin", ⟨"1", "2"⟩)], by decide⟩

/-- An adapter with version 1 of its firmware, a file for version 2, and what an update makes of
the version. -/
def adapterJob (updated : String → String) : Job String Unit where
  rematch i target := i = target
  open_url _ world := .ok [2] world
  postMessage _ world := .ok ⟨⟩ world
  format _ := "()"
  handler_list := [("hba",
    { setup := fun world => .ok ⟨⟩ world
      getTargets := fun world => .ok [⟨(), "9300", world⟩] world
      beforeUpdates := fun world => .ok ⟨⟩ world
      updateTarget := fun _ _ world => .ok true (updated world)
      afterUpdates := fun world => .ok ⟨⟩ world })]
  resource_location := "http://firmware/"
  firmware := [("hba", [("9300", adapterMap)])]
  firmware_targets := [("hba", [("9300", "2")])]

def adapter (updated : String → String) : Devices (adapterJob updated) id where
  targets name := if name = "hba" then [((), "9300")] else []
  version world name _ := if name = "hba" then world else ""
  booted _ := True
  took _ _ old _ := updated old
  handlers_nodup := by simp [adapterJob]
  targets_nodup name := by split <;> simp
  reboot_booted _ := trivial
  reboot_version _ := rfl
  setup handler hhandler world a world' h := by
    obtain rfl := List.mem_singleton.mp hhandler
    cases h
    exact ⟨rfl, id⟩
  getTargets handler hhandler world rows world' _ h := by
    obtain rfl := List.mem_singleton.mp hhandler
    cases h
    exact ⟨rfl, rfl, trivial⟩
  beforeUpdates handler hhandler world a world' h := by
    obtain rfl := List.mem_singleton.mp hhandler
    cases h
    rfl
  updateTarget handler hhandler target file world world' h := by
    obtain rfl := List.mem_singleton.mp hhandler
    cases h
    refine ⟨rfl, fun name t hne => ?_⟩
    have hname : name ≠ "hba" := hne.resolve_right (fun ht => ht rfl)
    simp [hname]
  afterUpdates handler hhandler world a world' h := by
    obtain rfl := List.mem_singleton.mp hhandler
    cases h
    rfl
  open_url url world file world' h := by
    cases h
    rfl
  postMessage msg world a world' h := by
    cases h
    exact ⟨rfl, id⟩

theorem adapter_faithful : (adapter fun _ => "2").Faithful := by
  intro name firmware_map model model_map filename vermap hfirmware hmodel hentry file _ target old
  have hmaps := Assoc.mem_of_lookup hfirmware
  simp only [adapterJob, List.mem_singleton, Prod.mk.injEq] at hmaps
  obtain ⟨-, rfl⟩ := hmaps
  have hmap := Assoc.mem_of_lookup hmodel
  simp only [List.mem_singleton, Prod.mk.injEq] at hmap
  obtain ⟨-, rfl⟩ := hmap
  simp only [adapterMap, List.mem_singleton, Prod.mk.injEq] at hentry
  obtain ⟨-, rfl⟩ := hentry
  rfl

theorem adapter_works (updated : String → String) : Devices.Works (adapterJob updated) where
  setup handler hhandler world := by
    obtain rfl := List.mem_singleton.mp hhandler
    exact ⟨_, _, rfl⟩
  getTargets handler hhandler world := by
    obtain rfl := List.mem_singleton.mp hhandler
    exact ⟨_, _, rfl⟩
  beforeUpdates handler hhandler world := by
    obtain rfl := List.mem_singleton.mp hhandler
    exact ⟨_, _, rfl⟩
  updateTarget handler hhandler target file world := by
    obtain rfl := List.mem_singleton.mp hhandler
    exact ⟨_, rfl⟩
  afterUpdates handler hhandler world := by
    obtain rfl := List.mem_singleton.mp hhandler
    exact ⟨_, _, rfl⟩
  open_url _ _ := ⟨_, _, rfl⟩
  postMessage _ _ := ⟨_, _, rfl⟩

theorem adapter_available (updated : String → String) : (adapter updated).Available "1" where
  firmware name h := by
    obtain ⟨version_map, hversions⟩ := Option.isSome_iff_exists.mp h
    have hname := Assoc.mem_of_lookup hversions
    simp only [adapterJob, List.mem_singleton, Prod.mk.injEq] at hname
    rw [hname.1]
    rfl
  planned name row hrow _ := by
    by_cases hn : name = "hba"
    · rw [hn] at hrow ⊢
      obtain rfl := List.mem_singleton.mp hrow
      have hfound : findStep (fun i target => i = target) "1" "2" adapterMap = some "two.bin" :=
        findStep_eq_some_iff.mpr ⟨"1", by decide, by decide, fun other hother hne =>
          absurd (List.mem_singleton.mp (candidate_mem hother)) hne⟩
      simp [Job.planned, Job.stale, Job.wanted, Job.nextFile, adapterJob, adapter, hfound]
    · simp [Devices.rows, adapter, hn] at hrow

/-- The adapter is updated, and the machine powered off after a reboot. -/
theorem adapter_updated :
    ∃ boots last ending s,
      Loop.Steps ((adapterJob fun _ => "2").turn id) boots "1" last ∧
      (adapterJob fun _ => "2").turn id last = some (.stop (ending, s)) ∧
      boots ≤ (adapter fun _ => "2").behind "1" ∧
      (ending = .poweroff ∧ boots = (adapter fun _ => "2").behind "1" ∧
          (∀ handler ∈ (adapterJob fun _ => "2").handler_list,
            (adapter fun _ => "2").isBehind s.world handler.1 = false) ∨
        ending = .error) ∧
      (Devices.Works (adapterJob fun _ => "2") → (adapter fun _ => "2").Available "1" →
        ending = .poweroff) :=
  updates_converge (adapter fun _ => "2") adapter_faithful trivial

/-- The adapter that is not updated is rebooted without end. -/
theorem adapter_reboots :
    (∀ (name : String) (target : Unit) old file, (adapter id).took name target old file = old) ∧
      0 < (adapter id).behind "1" ∧
      ∀ boots, Loop.run ((adapterJob id).turn id) boots "1" = none :=
  ⟨fun _ _ _ _ => rfl, by decide,
    reboots_forever (adapter id) (fun _ _ _ _ => rfl) (adapter_works id) (adapter_available id)
      trivial (by decide)⟩

end FirmwareUpdate
