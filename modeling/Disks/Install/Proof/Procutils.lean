import Disks.Install.Procutils

/-!
# The environments of the commands (`linux-installer/root/installer/procutils.py`)

* `Kept`, `install_keeps`: an invariant of the environments is kept by every step.
* `env_of_started`: every process is started with the live environment; the environment for the
  `chroot` is given to none.
* `chrootEnv_hygienic`: **that environment is right once `preBaseSetup` has come back.**
* `commands_hygienic_iff`: **the commands in the `chroot` see the right values if and only if the
  live environment has them already.** `proxy_in_chroot`: a proxy that is seen there.
-/

namespace Installer

open Effect

/-- The settings of a profile. -/
def settings (profile : Packaging) : List (Text × Text) :=
  profile.filterMap fun item =>
    if "install_env_var_".toList.isPrefixOf item.1 then nameValue item.2 else none

/-- What is configured for the `chroot`: the last setting of a name. -/
def configured (profile : Packaging) : Env := Assoc.ofPairs (settings profile)

/-- No proxy that is not configured, and every value that is. -/
def Hygienic (configured env : Env) : Prop :=
  (∀ name ∈ proxies, configured.lookup name = none → env.lookup name = none) ∧
    ∀ name value, configured.lookup name = some value → env.lookup name = some value

/-- What a process is started with has no proxy that is not configured, and every value that is
configured already. -/
structure Already (environ configured : Env) : Prop where
  no_proxy : ∀ name ∈ proxies, configured.lookup name = none → environ.lookup name = none
  priority : ∀ value, configured.lookup DEBIAN_PRIORITY = some value → value = "critical".toList
  frontend : ∀ value, configured.lookup DEBIAN_FRONTEND = some value →
    value = "noninteractive".toList
  value : ∀ name value, name ≠ DEBIAN_PRIORITY → name ≠ DEBIAN_FRONTEND →
    configured.lookup name = some value → environ.lookup name = some value

/-! ## Invariants -/

/-- An invariant that says what the live environment is, and is kept by what a step does. -/
structure Kept (live : Env) (profile : Packaging) (I : Procutils → Prop) : Prop where
  global_env : ∀ s, I s → s.global_env = live
  started : ∀ s p, I s → p.env = live → I { s with started := s.started ++ [p] }
  path : ∀ s path, I s → I { s with chroot_path := path }
  setting : ∀ s, I s → ∀ q ∈ settings profile,
    I { s with chroot_env := Assoc.set s.chroot_env q.1 q.2 }

section kept

variable {live : Env} {profile : Packaging} {I : Procutils → Prop} (world : World)

theorem popen_keeps (h : Kept live profile I) {p : Process} (hp : p.env = live) :
    Keeps I (popen world p) fun _ => True :=
  fun s hs => ⟨h.started s p hs hp, fun _ _ _ => trivial⟩

theorem tries_keeps (h : Kept live profile I) {p : Process} (hp : p.env = live)
    (retry_rc_list : Option (List Int)) (retry : Nat) :
    Keeps I (tries world p retry_rc_list retry) fun _ => True := by
  induction retry with
  | zero => exact Keeps.throw
  | succ retry ih =>
    refine (popen_keeps world h hp).bind fun outcome _ => ?_
    cases outcome with
    | none => exact Keeps.throw
    | some result =>
      refine Keeps.ite (fun _ => Keeps.pure trivial) fun _ => ?_
      cases retry_rc_list with
      | none => exact Keeps.throw
      | some rcs => exact Keeps.ite (fun _ => ih) fun _ => Keeps.throw

theorem get_keeps (h : Kept live profile I) :
    Keeps I (get : Exec Procutils) fun s => s.global_env = live := Keeps.get h.global_env

theorem execute_keeps (h : Kept live profile I) (cmd stdin : Text) (rcs : Option (List Int)) :
    Keeps I (execute world cmd stdin rcs) fun _ => True :=
  (get_keeps h).bind fun _ hs => (tries_keeps world h hs rcs _).bind fun _ _ => Keeps.pure trivial

theorem executeLines_keeps (h : Kept live profile I) (cmd stdin : Text)
    (rcs : Option (List Int)) : Keeps I (executeLines world cmd stdin rcs) fun _ => True :=
  (get_keeps h).bind fun _ hs => (tries_keeps world h hs rcs _).bind fun _ _ => Keeps.pure trivial

theorem chrootExecute_keeps (h : Kept live profile I) (cmd stdin : Text)
    (rcs : Option (List Int)) : Keeps I (chrootExecute world cmd stdin rcs) fun _ => True :=
  (get_keeps h).bind fun _ hs => (tries_keeps world h hs rcs _).bind fun _ _ => Keeps.pure trivial

theorem chrootExecuteLines_keeps (h : Kept live profile I) (cmd stdin : Text)
    (rcs : Option (List Int)) :
    Keeps I (chrootExecuteLines world cmd stdin rcs) fun _ => True :=
  (get_keeps h).bind fun _ hs => (tries_keeps world h hs rcs _).bind fun _ _ => Keeps.pure trivial

theorem installEnvVar_keeps (h : Kept live profile I) {item : Text × Text}
    (hitem : item ∈ profile) : Keeps I (installEnvVar item) fun _ => True := by
  refine Keeps.ite (fun hprefix => ?_) fun _ => Keeps.pure trivial
  cases hsetting : nameValue item.2 with
  | none => exact Keeps.throw
  | some q =>
    refine Keeps.modify fun s hs => h.setting s hs q (List.mem_filterMap.mpr ⟨item, hitem, ?_⟩)
    rw [if_pos hprefix, hsetting]

/-- The commands of `preBaseSetup`. -/
theorem prebaseCommands_keep (h : Kept live profile I) (items : Packaging) (manager_type : Text)
    (selection_list : Option (List Text)) :
    Keeps I (do
      selections world items manager_type selection_list
      items.forM (prebaseCmd world)) fun _ => True := by
  have hselections : Keeps I (selections world items manager_type selection_list)
      fun _ => True := by
    refine Keeps.ite (fun _ => ?_) fun _ => Keeps.pure trivial
    refine (Keeps.forM fun item _ => ?_).bind fun _ _ => Keeps.forM fun selection _ => ?_
    · exact Keeps.ite (fun _ => chrootExecute_keeps world h _ _ _) fun _ => Keeps.pure trivial
    · exact chrootExecute_keeps world h _ _ _
  refine hselections.bind fun _ _ => Keeps.forM fun item _ => ?_
  exact Keeps.ite (fun _ => chrootExecute_keeps world h _ _ _) fun _ => Keeps.pure trivial

theorem prebaseTemplates_keeps (rendered : Bool) :
    Keeps I (prebaseTemplates profile rendered) fun _ => True :=
  Keeps.ite (fun _ => Keeps.throw) fun _ =>
    Keeps.ite (fun _ => Keeps.pure trivial) fun _ => Keeps.throw

theorem preBaseSetup_keeps (h : Kept live profile I) (manager_type : Text) (rendered : Bool)
    (selection_list : Option (List Text)) :
    Keeps I (preBaseSetup world profile manager_type rendered selection_list) fun _ => True :=
  (prebaseTemplates_keeps rendered).bind fun _ _ =>
    (Keeps.forM fun _ hitem => installEnvVar_keeps h hitem).bind fun _ _ =>
      prebaseCommands_keep world h profile manager_type selection_list

theorem step_keeps (h : Kept live profile I) (step : Step) :
    Keeps I (step.exec world profile) fun _ => True := by
  cases step with
  | setChroot path => exact Keeps.modify fun s hs => h.path s path hs
  | preBaseSetup manager_type rendered selection_list =>
    exact preBaseSetup_keeps world h manager_type rendered selection_list
  | call via cmd stdin rcs =>
    cases via with
    | execute => exact execute_keeps world h cmd stdin rcs
    | chrootExecute => exact chrootExecute_keeps world h cmd stdin rcs
    | executeLines =>
      exact (executeLines_keeps world h cmd stdin rcs).bind fun _ _ => Keeps.pure trivial
    | chrootExecuteLines =>
      exact (chrootExecuteLines_keeps world h cmd stdin rcs).bind fun _ _ => Keeps.pure trivial

/-- Every run keeps the invariant, also where it ends with an exception. -/
theorem install_keeps (h : Kept live profile I) (steps : List Step) :
    Keeps I (install world profile steps) fun _ => True :=
  Keeps.forM fun step _ => step_keeps world h step

end kept

/-! ## The live environment -/

theorem liveKept (live : Env) (profile : Packaging) :
    Kept live profile fun s => s.global_env = live ∧ ∀ p ∈ s.started, p.env = live where
  global_env _ hs := hs.1
  started s p hs hp := by
    refine ⟨hs.1, fun q hq => ?_⟩
    rcases List.mem_append.mp hq with hq | hq
    · exact hs.2 q hq
    · rw [List.mem_singleton.mp hq, hp]
  path _ _ hs := hs
  setting _ hs _ _ := hs

variable (world : World) (environ : Env) (profile : Packaging)

/-- **The live environment stays as it is, and every process is started with it.** -/
theorem env_of_started (steps : List Step) :
    (final (install world profile steps (load environ))).global_env = globalEnv environ ∧
      ∀ p ∈ (final (install world profile steps (load environ))).started,
        p.env = globalEnv environ :=
  (install_keeps world (liveKept _ profile) steps (load environ)
    ⟨rfl, fun _ hp => absurd hp List.not_mem_nil⟩).1

theorem env_of_startedAfter (before : List Step) (step : Step) (after : List Step) {p : Process}
    (hp : p ∈ startedAfter world environ profile before step after) :
    p.env = globalEnv environ := by
  unfold startedAfter at hp
  have hbefore := env_of_started world environ profile (before ++ [step])
  cases hrun : install world profile (before ++ [step]) (load environ) with
  | error e s =>
    rw [hrun] at hp
    exact absurd hp List.not_mem_nil
  | ok u s =>
    rw [hrun] at hp hbefore
    have hafter := (install_keeps world (liveKept _ profile) after s hbefore).1
    exact hafter.2 p (List.mem_of_mem_drop hp)

theorem lookup_globalEnv (name : Text) :
    (globalEnv environ).lookup name =
      if name = DEBIAN_FRONTEND then some "noninteractive".toList
      else if name = DEBIAN_PRIORITY then some "critical".toList else environ.lookup name := by
  rw [globalEnv, Assoc.lookup_set, Assoc.lookup_set]

theorem hygienic_globalEnv_iff (configured : Env) :
    Hygienic configured (globalEnv environ) ↔ Already environ configured := by
  have hne : DEBIAN_PRIORITY ≠ DEBIAN_FRONTEND := by decide
  have hproxy (name : Text) (h : name ∈ proxies) :
      name ≠ DEBIAN_FRONTEND ∧ name ≠ DEBIAN_PRIORITY := by
    rcases List.mem_cons.mp h with rfl | h
    · decide
    · rw [List.mem_singleton.mp h]
      decide
  have hlookup (name : Text) (hf : name ≠ DEBIAN_FRONTEND) (hp : name ≠ DEBIAN_PRIORITY) :
      (globalEnv environ).lookup name = environ.lookup name := by
    rw [lookup_globalEnv, if_neg hf, if_neg hp]
  have hfrontend : (globalEnv environ).lookup DEBIAN_FRONTEND = some "noninteractive".toList := by
    rw [lookup_globalEnv, if_pos rfl]
  have hpriority : (globalEnv environ).lookup DEBIAN_PRIORITY = some "critical".toList := by
    rw [lookup_globalEnv, if_neg hne, if_pos rfl]
  constructor
  · intro h
    refine ⟨fun name hname hnone => ?_, fun value hvalue => ?_, fun value hvalue => ?_,
      fun name value hp hf hvalue => ?_⟩
    · rw [← hlookup name (hproxy name hname).1 (hproxy name hname).2]
      exact h.1 name hname hnone
    · exact Option.some.inj ((h.2 _ value hvalue).symm.trans hpriority)
    · exact Option.some.inj ((h.2 _ value hvalue).symm.trans hfrontend)
    · rw [← hlookup name hf hp]
      exact h.2 name value hvalue
  · intro h
    refine ⟨fun name hname hnone => ?_, fun name value hvalue => ?_⟩
    · rw [hlookup name (hproxy name hname).1 (hproxy name hname).2]
      exact h.no_proxy name hname hnone
    · by_cases hf : name = DEBIAN_FRONTEND
      · rw [hf] at hvalue ⊢
        rw [h.frontend value hvalue, hfrontend]
      · by_cases hp : name = DEBIAN_PRIORITY
        · rw [hp] at hvalue ⊢
          rw [h.priority value hvalue, hpriority]
        · rw [hlookup name hf hp]
          exact h.value name value hp hf hvalue

/-- **The commands outside of the `chroot` see the live environment. One in the `chroot`, after
`preBaseSetup`, sees the right values if and only if the live environment has them already.** -/
theorem commands_hygienic_iff (before after : List Step) (manager_type : Text) (rendered : Bool)
    (selection_list : Option (List Text)) :
    let setup : Step := .preBaseSetup manager_type rendered selection_list
    let s := final (install world profile (before ++ setup :: after) (load environ))
    (s.global_env = globalEnv environ ∧
        ∀ p ∈ s.started, p.via.chroot = false → p.env = globalEnv environ) ∧
      ∀ p ∈ startedAfter world environ profile before setup after, p.via.chroot = true →
        (Hygienic (configured profile) p.env ↔ Already environ (configured profile)) := by
  intro setup s
  obtain ⟨hglobal, hstarted⟩ := env_of_started world environ profile (before ++ setup :: after)
  refine ⟨⟨hglobal, fun p hp _ => hstarted p hp⟩, fun p hp _ => ?_⟩
  rw [env_of_startedAfter world environ profile before setup after hp]
  exact hygienic_globalEnv_iff environ _

/-- A proxy of the live system, and a profile that configures nothing. -/
theorem proxy_in_chroot :
    ¬ ∀ (world : World) (environ : Env) (profile : Packaging) (before after : List Step)
        (manager_type : Text) (rendered : Bool) (selection_list : Option (List Text)),
      ∀ p ∈ startedAfter world environ profile before
          (.preBaseSetup manager_type rendered selection_list) after,
        p.via.chroot = true → Hygienic (configured profile) p.env := by
  intro h
  have hproxy := (h (fun _ _ => some (0, [])) [("http_proxy".toList, "http://proxy:3128/".toList)]
    [("prebase_templates".toList, [])] [.setChroot "/target".toList]
    [.call .chrootExecute "/usr/bin/apt-get update".toList [] none] "apt".toList true none
    _ (List.mem_cons_self ..) rfl).1 "http_proxy".toList (List.mem_cons_self ..) rfl
  exact absurd hproxy (by decide)

/-! ## The environment for the `chroot` -/

/-- The environment is set by the settings only. -/
theorem chrootKept (live env : Env) :
    Kept live [] fun s => s.global_env = live ∧ s.chroot_env = env where
  global_env _ hs := hs.1
  started _ _ hs _ := hs
  path _ _ hs := hs
  setting _ _ _ hq := absurd hq List.not_mem_nil

/-- A proxy of the live system is in it only if it is configured. -/
theorem proxyKept (live : Env) :
    Kept live profile fun s => s.global_env = live ∧ ∀ name ∈ proxies,
      (configured profile).lookup name = none → s.chroot_env.lookup name = none where
  global_env _ hs := hs.1
  started _ _ hs _ := hs
  path _ _ hs := hs
  setting s hs q hq := by
    refine ⟨hs.1, fun name hname hnone => ?_⟩
    have hne : name ≠ q.1 := by
      rintro rfl
      have hmem : q.1 ∈ Assoc.keys (configured profile) :=
        Assoc.mem_keys_ofPairs.mpr (List.mem_map_of_mem hq)
      rw [← Assoc.lookup_isSome_iff, hnone] at hmem
      cases hmem
    rw [Assoc.lookup_set, if_neg hne]
    exact hs.2 name hname hnone

theorem load_no_proxy {name : Text} (hname : name ∈ proxies) :
    (load environ).chroot_env.lookup name = none := by
  rw [List.lookup_eq_none_iff]
  intro item hitem
  have hkept := (List.mem_filter.mp hitem).2
  rw [bne_iff_ne]
  rintro rfl
  simp [hname] at hkept

/-- The loop over the settings. -/
theorem installEnvVars_ok {items : Packaging} {s s' : Procutils} {u : Unit}
    (h : items.forM installEnvVar s = .ok u s') :
    s'.global_env = s.global_env ∧ s'.chroot_env =
      (settings items).foldl (fun d q => Assoc.set d q.1 q.2) s.chroot_env := by
  induction items generalizing s with
  | nil =>
    cases h
    exact ⟨rfl, rfl⟩
  | cons item items ih =>
    obtain ⟨_, t, hitem, hrest⟩ := bind_eq_ok.mp h
    obtain ⟨hglobal, hchroot⟩ := ih hrest
    rw [settings, List.filterMap_cons]
    unfold installEnvVar at hitem
    by_cases hprefix : "install_env_var_".toList.isPrefixOf item.1
    · rw [if_pos hprefix] at hitem ⊢
      cases hsetting : nameValue item.2 with
      | none =>
        rw [hsetting] at hitem
        cases hitem
      | some q =>
        rw [hsetting] at hitem
        cases hitem
        exact ⟨hglobal, hchroot⟩
    · rw [if_neg hprefix] at hitem ⊢
      cases hitem
      exact ⟨hglobal, hchroot⟩

/-- What `preBaseSetup` makes of it. -/
theorem preBaseSetup_chrootEnv {manager_type : Text} {rendered : Bool}
    {selection_list : Option (List Text)} {s s' : Procutils} {u : Unit}
    (h : preBaseSetup world profile manager_type rendered selection_list s = .ok u s') :
    s'.chroot_env =
      (settings profile).foldl (fun d q => Assoc.set d q.1 q.2) s.chroot_env := by
  obtain ⟨_, t, htemplates, hrest⟩ := bind_eq_ok.mp h
  obtain ⟨_, t', hvars, hcommands⟩ := bind_eq_ok.mp hrest
  have htemplates_keep : Keeps (fun r => r = s) (prebaseTemplates profile rendered) fun _ => True :=
    prebaseTemplates_keeps rendered
  have ht : final (prebaseTemplates profile rendered s) = s := (htemplates_keep s rfl).1
  have hkeep := (prebaseCommands_keep world (chrootKept t'.global_env t'.chroot_env) profile
    manager_type selection_list t' ⟨rfl, rfl⟩).1
  rw [htemplates] at ht
  rw [hcommands] at hkeep
  have hs' : s'.chroot_env = t'.chroot_env := hkeep.2
  have hst : t = s := ht
  rw [hs', (installEnvVars_ok hvars).2, hst]

/-- **Once `preBaseSetup` has come back, the environment for the `chroot` has the right values.** -/
theorem chrootEnv_hygienic {before : List Step} {manager_type : Text} {rendered : Bool}
    {selection_list : Option (List Text)} {s : Procutils} {u : Unit}
    (h : install world profile (before ++ [.preBaseSetup manager_type rendered selection_list])
      (load environ) = .ok u s) : Hygienic (configured profile) s.chroot_env := by
  rw [install, List.forM_eq_forM, List.forM_append] at h
  obtain ⟨_, t, hbefore, hlast⟩ := bind_eq_ok.mp h
  obtain ⟨_, t', hsetup, hend⟩ := bind_eq_ok.mp hlast
  cases hend
  have ht := (install_keeps world (proxyKept profile (globalEnv environ)) before (load environ)
    ⟨rfl, fun name hname _ => load_no_proxy environ hname⟩).1
  rw [install, List.forM_eq_forM, hbefore] at ht
  have hlookup (name : Text) : s.chroot_env.lookup name =
      ((configured profile).lookup name).or (t.chroot_env.lookup name) := by
    rw [preBaseSetup_chrootEnv world profile hsetup, Assoc.lookup_foldl_set]
    rfl
  refine ⟨fun name hname hnone => ?_, fun name value hvalue => ?_⟩
  · rw [hlookup, hnone, Option.none_or]
    exact ht.2 name hname hnone
  · rw [hlookup, hvalue, Option.some_or]

end Installer
