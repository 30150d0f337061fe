import Disks.Bios.Proof.Config

/-!
# The BIOS configuration over the reboots of a machine

* `reboots_bounded`: **with a job, the machine reboots at most six times**, whatever the tool does;
  each boot is counted.
* `config_converges`: **the machine is powered off only when nothing is to be set**: where the boot
  order comes to be right, the run ends, and where it never does, the machine is not powered off.
* `config_settles`: **how many reboots a tool that does not fail needs**: one for the items and as
  many as the boot order has to be set; where it never comes to be right, the machine is rebooted
  without end.
-/

namespace BiosCfg

open Effect

variable {σ : Type}

/-! ## What a boot raises -/

theorem call_raises {α : Type} (m : EStateM Unit σ α) : Raises (· = 1) (call m : Boot σ α) :=
  Raises.within m rfl

theorem tryAgain_raises : Raises (· = 1) (tryAgain : Boot σ Unit) :=
  Raises.get.bind fun _ => (Raises.pure _).ite (Raises.throw rfl)

theorem countBoot_raises (platopxe : PlatoPXE σ) : Raises (· = 1) (countBoot platopxe) := by
  refine Raises.get.bind fun s => ?_
  split
  · exact Raises.pure _
  · refine (call_raises _).bind fun _ => Raises.ite (Raises.throw rfl) ?_
    exact (call_raises _).bind fun _ => Raises.modify _

section

variable (cfg : Tool σ) (platopxe : PlatoPXE σ)

theorem password_raises (password : Option String) :
    Raises (· = 1) (cfg.password platopxe password) := by
  cases password with
  | none => exact Raises.pure _
  | some password =>
    refine (call_raises _).bind fun _ => (call_raises _).bind fun _ => (call_raises _).bind fun _ =>
      (Raises.pure _).ite ?_
    refine (call_raises _).bind fun _ => (call_raises _).bind fun _ => (call_raises _).bind ?_
    exact fun _ => (Raises.pure _).ite (Raises.throw rfl)

theorem set_raises (item : Item) (value : String) : Raises (· = 1) (cfg.set item value) :=
  (call_raises _).bind fun _ => (Raises.modify _).ite tryAgain_raises

theorem checkItem_raises (item : Item) : Raises (· = 1) (cfg.checkItem item) := by
  refine (call_raises _).bind fun value => ?_
  split
  · exact tryAgain_raises
  · exact (set_raises cfg item _).ite (Raises.pure _)
  · split
    · exact tryAgain_raises
    · exact ((set_raises cfg item _).ite (Raises.throw rfl)).ite (Raises.pure _)

theorem checkBoot_raises (boot : List (List String)) :
    Raises (· = 1) (cfg.checkBoot platopxe boot) := by
  refine (call_raises _).bind fun _ => (call_raises _).bind fun entries =>
    Raises.ite ?_ (Raises.pure _)
  exact (call_raises _).bind fun _ =>
    ((call_raises _).bind fun _ => Raises.pure _).ite (Raises.throw rfl)

/-- Behind the count of the boot. -/
def afterCount (config : Config) : Boot σ Int := do
  cfg.password platopxe config.password
  call (platopxe.postMessage "Checking BIOS Items...")
  config.items.forM cfg.checkItem
  if (← get).dirty then
    call (platopxe.postMessage "BIOS Item(s) Were Changed, Rebooting...")
    pure 20
  else
    match config.boot with
    | none => pure 0
    | some boot => if boot = [] then pure 0 else cfg.checkBoot platopxe boot

theorem run_eq (config : Config) :
    cfg.run platopxe config = countBoot platopxe >>= fun _ => afterCount cfg platopxe config :=
  rfl

theorem afterCount_raises (config : Config) :
    Raises (· = 1) (afterCount cfg platopxe config) := by
  refine (password_raises cfg _ _).bind fun _ => (call_raises _).bind fun _ =>
    (Raises.forM (checkItem_raises cfg) config.items).bind fun _ =>
      Raises.get.bind fun s => ((call_raises _).bind fun _ => Raises.pure _).ite ?_
  split
  · exact Raises.pure _
  · exact (Raises.pure _).ite (checkBoot_raises cfg _ _)

end

section

variable (cfg : Option (Tool σ)) (platopxe : PlatoPXE σ) (config : Config)

theorem main_raises : Raises (· = 1) (main cfg platopxe config) := by
  refine (call_raises _).bind fun _ => ?_
  cases cfg with
  | some cfg =>
    dsimp only
    rw [run_eq]
    exact (countBoot_raises platopxe).bind fun _ => afterCount_raises cfg platopxe config
  | none =>
    refine Raises.ite (Raises.throw rfl) ?_
    split
    · exact Raises.throw rfl
    · exact Raises.ite (Raises.throw rfl) (Raises.pure _)

end

/-! ## The count of the boots -/

/-- What is kept of the environment behind the count. -/
def HasEnv (env : Option (Option Int)) (s : State σ) : Prop := s.env = env

variable {env : Option (Option Int)}

theorem call_keeps {α : Type} (m : EStateM Unit σ α) :
    Keeps (HasEnv env) (call m : Boot σ α) fun _ => True :=
  Keeps.within m fun _ _ h => h

theorem tryAgain_keeps : Keeps (HasEnv env) (tryAgain : Boot σ Unit) fun _ => True :=
  (Keeps.get fun _ _ => trivial).bind fun _ _ =>
    Keeps.ite (fun _ => Keeps.pure trivial) fun _ => Keeps.throw

section

variable (cfg : Tool σ) (platopxe : PlatoPXE σ)

theorem password_keeps (password : Option String) :
    Keeps (HasEnv env) (cfg.password platopxe password) fun _ => True := by
  cases password with
  | none => exact Keeps.pure trivial
  | some password =>
    refine (call_keeps _).bind fun _ _ => (call_keeps _).bind fun _ _ =>
      (call_keeps _).bind fun _ _ => Keeps.ite (fun _ => Keeps.pure trivial) fun _ => ?_
    refine (call_keeps _).bind fun _ _ => (call_keeps _).bind fun _ _ => (call_keeps _).bind ?_
    exact fun _ _ => Keeps.ite (fun _ => Keeps.pure trivial) fun _ => Keeps.throw

theorem set_keeps (item : Item) (value : String) :
    Keeps (HasEnv env) (cfg.set item value) fun _ => True :=
  (call_keeps _).bind fun _ _ =>
    Keeps.ite (fun _ => Keeps.modify fun _ h => h) fun _ => tryAgain_keeps

theorem checkItem_keeps (item : Item) :
    Keeps (HasEnv env) (cfg.checkItem item) fun _ => True := by
  refine (call_keeps _).bind fun value _ => ?_
  split
  · exact tryAgain_keeps
  · exact Keeps.ite (fun _ => set_keeps cfg item _) fun _ => Keeps.pure trivial
  · split
    · exact tryAgain_keeps
    · exact Keeps.ite (fun _ => Keeps.ite (fun _ => set_keeps cfg item _) fun _ => Keeps.throw)
        fun _ => Keeps.pure trivial

theorem checkBoot_keeps (boot : List (List String)) :
    Keeps (HasEnv env) (cfg.checkBoot platopxe boot) fun _ => True := by
  refine (call_keeps _).bind fun _ _ => (call_keeps _).bind fun entries _ =>
    Keeps.ite (fun _ => ?_) fun _ => Keeps.pure trivial
  exact (call_keeps _).bind fun _ _ =>
    Keeps.ite (fun _ => (call_keeps _).bind fun _ _ => Keeps.pure trivial) fun _ => Keeps.throw

theorem afterCount_keeps (config : Config) (env : Option (Option Int)) :
    Keeps (HasEnv env) (afterCount cfg platopxe config) fun _ => True := by
  refine (password_keeps cfg _ _).bind fun _ _ => (call_keeps _).bind fun _ _ =>
    (Keeps.forM fun item _ => checkItem_keeps cfg item).bind fun _ _ =>
      (Keeps.get fun _ _ => trivial).bind fun s _ =>
        Keeps.ite (fun _ => (call_keeps _).bind fun _ _ => Keeps.pure trivial) ?_
  intro _
  split
  · exact Keeps.pure trivial
  · exact Keeps.ite (fun _ => Keeps.pure trivial) fun _ => checkBoot_keeps cfg _ _

end

/-- A boot that is counted, or fails: over the count, or with the server. -/
theorem countBoot_cases (platopxe : PlatoPXE σ) (s : State σ) {value : Option Int}
    (henv : s.env = some value) :
    (∃ t, countBoot platopxe s = .error 1 t) ∨
      value.getD 0 ≤ 5 ∧ ∃ world, countBoot platopxe s =
        .ok ⟨⟩ { s with world := world, env := some (some (value.getD 0 + 1)) } := by
  cases hres : countBoot platopxe s with
  | error code t =>
    obtain rfl : code = 1 := countBoot_raises platopxe _ _ _ hres
    exact .inl ⟨t, rfl⟩
  | ok a t =>
    unfold countBoot at hres
    rw [bind_ok (get_eq s), henv] at hres
    obtain ⟨_, s₁, hread, hres⟩ := bind_eq_ok.mp hres
    obtain ⟨world₁, -, rfl⟩ := within_eq_ok hread
    split at hres
    · cases hres
    · rename_i hcount
      obtain ⟨_, s₂, hwrite, hres⟩ := bind_eq_ok.mp hres
      obtain ⟨world₂, -, rfl⟩ := within_eq_ok hwrite
      cases hres
      exact .inr ⟨by omega, world₂, rfl⟩

section counted

variable {platopxe : PlatoPXE σ} {config : Config}

theorem any_keeps {α : Type} (m : Boot σ α) : Keeps (fun _ : State σ => True) m fun _ => True :=
  fun _ _ => ⟨trivial, fun _ _ _ => trivial⟩

/-- A boot ends with 0, 1 or 20. -/
theorem boot_code (cfg : Option (Tool σ)) (platopxe : PlatoPXE σ)
    (config : Config) (start : σ × Option (Option Int)) :
    (boot cfg platopxe config start).1 = 0 ∨ (boot cfg platopxe config start).1 = 1 ∨
      (boot cfg platopxe config start).1 = 20 := by
  have hgives : Keeps (fun _ => True) (main cfg platopxe config)
      fun code => code = 0 ∨ code = 20 := by
    refine (any_keeps (call _)).bind fun _ _ => ?_
    cases cfg with
    | none =>
      refine Keeps.ite (fun _ => Keeps.throw) fun _ => ?_
      split
      · exact Keeps.throw
      · exact Keeps.ite (fun _ => Keeps.throw) fun _ => Keeps.pure (.inl rfl)
    | some cfg =>
      refine (any_keeps (countBoot platopxe)).bind fun _ _ => (any_keeps _).bind fun _ _ =>
        (any_keeps _).bind fun _ _ => (any_keeps _).bind fun _ _ => (any_keeps get).bind fun s _ =>
          Keeps.ite (fun _ => (any_keeps _).bind fun _ _ => Keeps.pure (.inr rfl)) fun _ => ?_
      split
      · exact Keeps.pure (.inl rfl)
      · refine Keeps.ite (fun _ => Keeps.pure (.inl rfl)) fun _ => (any_keeps _).bind fun _ _ =>
          (any_keeps _).bind fun _ _ => Keeps.ite (fun _ => ?_) fun _ => Keeps.pure (.inl rfl)
        exact (any_keeps _).bind fun _ _ =>
          Keeps.ite (fun _ => (any_keeps _).bind fun _ _ => Keeps.pure (.inr rfl)) fun _ =>
            Keeps.throw
  unfold boot
  cases hres : main cfg platopxe config { world := start.1, env := start.2 } with
  | error code s => exact .inr (.inl (main_raises cfg platopxe config _ _ _ hres))
  | ok code s =>
    rcases (hgives _ trivial).2 code s hres with h | h
    · exact .inl h
    · exact .inr (.inr h)

/-- Without a tool there is no reboot. -/
theorem boot_none (start : σ × Option (Option Int)) :
    (boot none platopxe config start).1 ≠ 20 := by
  have hgives : Keeps (fun _ => True) (main none platopxe config) fun code => code = 0 := by
    refine (any_keeps (call _)).bind fun _ _ => Keeps.ite (fun _ => Keeps.throw) fun _ => ?_
    split
    · exact Keeps.throw
    · exact Keeps.ite (fun _ => Keeps.throw) fun _ => Keeps.pure rfl
  unfold boot
  cases hres : main none platopxe config { world := start.1, env := start.2 } with
  | error code s =>
    rw [show code = 1 from main_raises none platopxe config _ _ _ hres]
    exact show (1 : Int) ≠ 20 by decide
  | ok code s =>
    rw [show code = 0 from (hgives _ trivial).2 code s hres]
    exact show (0 : Int) ≠ 20 by decide

/-- A boot with a tool, behind its first message and its count. -/
theorem main_counted (cfg : Tool σ) {start : σ × Option (Option Int)} {value : Option Int}
    (henv : start.2 = some value) :
    (∃ s, main (some cfg) platopxe config { world := start.1, env := start.2 } = .error 1 s) ∨
    value.getD 0 ≤ 5 ∧ ∃ world,
      main (some cfg) platopxe config { world := start.1, env := start.2 } =
        afterCount cfg platopxe config { world, env := some (some (value.getD 0 + 1)) } := by
  unfold main
  cases hcall : (call (platopxe.postMessage "Detecting Motherboard Type...") : Boot σ Unit)
    { world := start.1, env := start.2 } with
  | error code s =>
    rw [bind_error hcall]
    obtain rfl : code = 1 := call_raises _ _ _ _ hcall
    exact .inl ⟨s, rfl⟩
  | ok a s =>
    obtain ⟨-, henv', hdirty⟩ := call_eq_ok hcall
    rw [bind_ok hcall]
    dsimp only
    rw [run_eq]
    rcases countBoot_cases platopxe s (henv'.trans henv) with ⟨t, hcount⟩ | ⟨hle, world, hcount⟩
    · rw [bind_error hcount]
      exact .inl ⟨t, rfl⟩
    · rw [bind_ok hcount]
      obtain ⟨_, env, dirty⟩ := s
      obtain rfl : dirty = false := hdirty
      exact .inr ⟨hle, world, rfl⟩

/-- **A boot with a job that is rebooted was counted**, up to the sixth. -/
theorem boot_env (cfg : Option (Tool σ)) {start : σ × Option (Option Int)}
    {value : Option Int} (henv : start.2 = some value)
    (hcode : (boot cfg platopxe config start).1 = 20) :
    value.getD 0 ≤ 5 ∧
      (boot cfg platopxe config start).2.env = some (some (value.getD 0 + 1)) := by
  cases cfg with
  | none => exact absurd hcode (boot_none start)
  | some cfg =>
    unfold boot at hcode ⊢
    rcases main_counted cfg henv with ⟨s, hmain⟩ | ⟨hle, world, hmain⟩
    · rw [hmain] at hcode
      cases hcode
    · rw [hmain]
      refine ⟨hle, ?_⟩
      have hkeeps := (afterCount_keeps cfg platopxe config (some (some (value.getD 0 + 1)))
        { world, env := some (some (value.getD 0 + 1)) } rfl).1
      cases hres : afterCount cfg platopxe config
        { world, env := some (some (value.getD 0 + 1)) } <;>
      · rw [hres] at hkeeps
        exact hkeeps

/-- **A boot with a higher count than five fails**, where there is a tool. -/
theorem boot_over (cfg : Tool σ) {start : σ × Option (Option Int)} {value : Option Int}
    (henv : start.2 = some value) (hover : 5 < value.getD 0) :
    (boot (some cfg) platopxe config start).1 = 1 := by
  unfold boot
  rcases main_counted cfg henv with ⟨s, hmain⟩ | ⟨hle, -⟩
  · rw [hmain]
  · omega

end counted

/-- **With a job, a machine is rebooted six times at most**, whatever the tool and the server do:
each boot that is rebooted has stored a count that is one higher, and a boot with a higher count
than five fails. -/
theorem reboots_bounded (cfg : Option (Tool σ)) (platopxe : PlatoPXE σ)
    (config : Config) (reboot : σ → σ) (world : σ) (value : Option Int) :
    (∃ boots last ending s,
      Loop.Steps (turn cfg platopxe config reboot) boots (world, some value) last ∧
        turn cfg platopxe config reboot last = some (.stop (ending, s)) ∧
        boots ≤ (6 - value.getD 0).toNat) ∧
    (∀ next, turn cfg platopxe config reboot (world, some value) = some (.next next) →
      next.2 = some (some (value.getD 0 + 1))) ∧
    ∀ tool, cfg = some tool → 5 < value.getD 0 →
      ∃ s, turn cfg platopxe config reboot (world, some value) = some (.stop (.error, s)) := by
  refine ⟨?_, fun next hnext => ?_, ?_⟩
  · let left (start : σ × Option (Option Int)) : Nat := (6 - (start.2.getD none).getD 0).toNat
    have hturn : ∀ start : σ × Option (Option Int), start.2.isSome →
        (∃ r, turn cfg platopxe config reboot start = some (.stop r) ∧ True) ∨
          ∃ next, turn cfg platopxe config reboot start = some (.next next) ∧ next.2.isSome ∧
            left next < left start := by
      intro start hjob
      obtain ⟨value, henv⟩ := Option.isSome_iff_exists.mp hjob
      rcases boot_code cfg platopxe config start with hcode | hcode | hcode
      · exact .inl ⟨_, DoTask.turn_poweroff hcode, trivial⟩
      · exact .inl ⟨_, DoTask.turn_error hcode, trivial⟩
      · obtain ⟨hle, hcounted⟩ := boot_env cfg henv hcode
        refine .inr ⟨_, DoTask.turn_reboot hcode, by simp [hcounted], ?_⟩
        simp only [left, hcounted, henv, Option.getD_some]
        omega
    obtain ⟨boots, last, ⟨ending, s⟩, hsteps, hstop, -, hle⟩ :=
      Loop.steps_total left hturn (s := (world, some value)) rfl
    refine ⟨boots, last, ending, s, hsteps, hstop, ?_⟩
    simp only [left, Option.getD_some] at hle
    omega
  · obtain ⟨hcode, rfl⟩ := DoTask.turn_eq_next hnext
    exact (boot_env cfg rfl hcode).2
  · rintro tool rfl hover
    exact ⟨_, DoTask.turn_error (boot_over tool rfl hover)⟩

/-! ## Less to be set with each boot -/

section runs

variable {β : Type} {cfg : Tool σ} {platopxe : PlatoPXE σ} {config : Config}
  {reboot : σ → σ} (B : Board β cfg platopxe reboot)

/-- What the program leaves that does not fail. -/
theorem main_settles (hnodup : (config.items.map Item.place).Nodup) {s s' : State σ} {code : Int}
    (hbooted : B.cached s.world = B.stored s.world) (hclean : s.dirty = false)
    (h : main (some cfg) platopxe config s = .ok code s') :
    B.Leaves config s.world code s'.world := by
  unfold main at h
  obtain ⟨_, t, hpost, hrun⟩ := bind_eq_ok.mp h
  obtain ⟨hcached, hstored, horder, hdirty⟩ := B.message_ok hpost
  have hleaves := B.run_settles hnodup (by rw [hcached, hstored, hbooted]) (hdirty.trans hclean)
    hrun
  have hunsettled : B.unsettled config t.world = B.unsettled config s.world := by
    rw [Board.unsettled, hstored]
    rfl
  cases hleaves with
  | items hless horder' => exact .items (hunsettled ▸ hless) (horder'.trans horder)
  | bootOrder hitems hstored' list hboot hwrong horder' =>
    rw [horder] at hwrong horder'
    exact .bootOrder (hunsettled ▸ hitems) (hstored'.trans hstored) list hboot hwrong horder'
  | nothing hitems hstored' hright horder' =>
    refine .nothing (hunsettled ▸ hitems) (hstored'.trans hstored) ?_ (horder'.trans horder)
    unfold Board.Ordered at hright ⊢
    rw [horder] at hright
    exact hright

/-- What a boot with a tool leaves, if it does not fail. -/
theorem boot_settles (hnodup : (config.items.map Item.place).Nodup)
    {start : σ × Option (Option Int)} (hbooted : B.cached start.1 = B.stored start.1) :
    (boot (some cfg) platopxe config start).1 = 1 ∨
      B.Leaves config start.1 (boot (some cfg) platopxe config start).1
        (boot (some cfg) platopxe config start).2.world := by
  unfold boot
  cases hres : main (some cfg) platopxe config { world := start.1, env := start.2 } with
  | error code s => exact .inl (main_raises (some cfg) platopxe config _ _ _ hres)
  | ok code s => exact .inr (main_settles B hnodup hbooted rfl hres)

theorem unsettled_reboot (world : σ) :
    B.unsettled config (reboot world) = B.unsettled config world := by
  rw [Board.unsettled, Board.unsettled, B.reboot_stored]

theorem booted_reboot (world : σ) :
    B.cached (reboot world) = B.stored (reboot world) := by
  rw [B.reboot_cached, B.reboot_stored]

theorem unsettled_congr {world world' : σ} (h : B.stored world' = B.stored world) :
    B.unsettled config world' = B.unsettled config world := by
  rw [Board.unsettled, Board.unsettled, h]

/-- A reboot leaves the boot order as the boot has left it. -/
theorem ordered_reboot {world world' : σ} (h : B.order world' = B.order world) {n : Nat} :
    B.Ordered config n (reboot world') ↔ B.Ordered config n world := by
  rw [Board.Ordered, Board.Ordered, B.reboot_order, h]

/-- A boot order that is set has to be set once less. -/
theorem ordered_programmed {world world' : σ} {boot : List (List String)}
    (hboot : config.boot = some boot) (h : B.order world' = B.programmed boot (B.order world))
    {n : Nat} : B.Ordered config n (reboot world') ↔ B.Ordered config (n + 1) world := by
  simp only [Board.Ordered, hboot, Option.some.injEq, forall_eq', B.reboot_order, h,
    Function.iterate_succ_apply]

/-- A boot order that fails its check has to be set. -/
theorem ordered_wrong {world : σ} {boot : List (List String)} (hboot : config.boot = some boot)
    (hwrong : reprogrammed boot (B.entries (B.order world)) = true) {n : Nat}
    (hordered : B.Ordered config n world) : ∃ m, n = m + 1 := by
  refine Nat.exists_eq_succ_of_ne_zero fun hzero => ?_
  subst hzero
  have hright : reprogrammed boot (B.entries (B.order world)) = false := hordered boot hboot
  rw [hwrong] at hright
  cases hright

/-- What the machine is left with at the end. -/
structure Settled (config : Config) (world : σ) : Prop where
  items : ∀ item ∈ config.items, satisfied (B.stored world item.place) item = true
  boot : ∀ boot, config.boot = some boot →
    reprogrammed boot (B.entries (B.order world)) = false

theorem settled_of_nothing {world world' : σ} (hitems : B.unsettled config world = 0)
    (hstored : B.stored world' = B.stored world) (hright : B.Ordered config 0 world)
    (horder : B.order world' = B.order world) : Settled B config world' where
  items := by rw [← B.unsettled_eq_zero_iff, unsettled_congr B hstored, hitems]
  boot boot hboot := by
    rw [horder]
    exact hright boot hboot

/-- A machine that has at most `k` reboots left. -/
structure Nearing (config : Config) (k : Nat) (world : σ) : Prop where
  booted : B.cached world = B.stored world
  left : ∃ n, B.Ordered config n world ∧ k = B.unsettled config world + n

/-- A boot that does not fail uses up a reboot, or is the last one. -/
theorem Nearing.boot {k : Nat} {world world' : σ} {code : Int} (h : Nearing B config k world)
    (hleaves : B.Leaves config world code world') :
    code = 20 ∧ (∃ k' < k, Nearing B config k' (reboot world')) ∨
      code = 0 ∧ Settled B config world' := by
  obtain ⟨n, hordered, rfl⟩ := h.left
  cases hleaves with
  | items hless horder =>
    refine .inl ⟨rfl, _, ?_, booted_reboot B _, n, (ordered_reboot B horder).mpr hordered, rfl⟩
    rw [unsettled_reboot]
    omega
  | bootOrder hitems hstored list hboot hwrong horder =>
    obtain ⟨m, rfl⟩ := ordered_wrong B hboot hwrong hordered
    refine .inl ⟨rfl, _, ?_, booted_reboot B _, m,
      (ordered_programmed B hboot horder).mpr hordered, rfl⟩
    rw [unsettled_reboot, unsettled_congr B hstored]
    omega
  | nothing hitems hstored hright horder =>
    exact .inr ⟨rfl, settled_of_nothing B hitems hstored hright horder⟩

/-- A machine whose boot order never comes to pass its check. -/
structure Unordered (config : Config) (world : σ) : Prop where
  booted : B.cached world = B.stored world
  never : ∀ n, ¬ B.Ordered config n world

/-- A boot that does not fail is never the last one. -/
theorem Unordered.boot {world world' : σ} {code : Int} (h : Unordered B config world)
    (hleaves : B.Leaves config world code world') :
    code = 20 ∧ Unordered B config (reboot world') := by
  cases hleaves with
  | items hless horder =>
    exact ⟨rfl, booted_reboot B _, fun n hright => h.never n ((ordered_reboot B horder).mp hright)⟩
  | bootOrder hitems hstored list hboot hwrong horder =>
    exact ⟨rfl, booted_reboot B _, fun n hright =>
      h.never (n + 1) ((ordered_programmed B hboot horder).mp hright)⟩
  | nothing hitems hstored hright horder => exact absurd hright (h.never 0)

/-- Nothing that the tool and the server do raises or fails. -/
structure Works (cfg : Tool σ) (platopxe : PlatoPXE σ) : Prop where
  postMessage : ∀ message world, ∃ a world', platopxe.postMessage message world = .ok a world'
  readEnv : ∀ world, ∃ a world', platopxe.readEnv world = .ok a world'
  writeEnv : ∀ world, ∃ a world', platopxe.writeEnv world = .ok a world'
  setPassword : ∀ password world, ∃ a world', cfg.setPassword password world = .ok a world'
  checkPassword : ∀ world, ∃ world', cfg.checkPassword world = .ok true world'
  getValue : ∀ group item world, ∃ a world', cfg.getValue group item world = .ok a world'
  setValue : ∀ group item value world, ∃ world',
    cfg.setValue group item value world = .ok true world'
  getBoot : ∀ world, ∃ a world', cfg.getBoot world = .ok a world'
  setBoot : ∀ boot world, ∃ world', cfg.setBoot boot world = .ok true world'

/-- The item is there, and where its values have names, the current and the wanted one do. -/
def settable (value : Value) (item : Item) : Bool :=
  match value with
  | (none, _) => false
  | (some _, none) => true
  | (some curvalue_key, some values) =>
    (values.lookup curvalue_key).isSome && (keyOf values item.desiredvalue).isSome

theorem call_of_ok {α : Type} {m : EStateM Unit σ α} {s : State σ} {a : α} {world' : σ}
    (h : m s.world = .ok a world') :
    (call m : Boot σ α) s = .ok a { s with world := world' } :=
  within_of_ok h

theorem lookup_of_mem {d : Assoc.Dict String String} {p : String × String} (h : p ∈ d) :
    (d.lookup p.1).isSome = true := by
  rw [Assoc.lookup_isSome_iff]
  exact List.mem_map_of_mem h

/-- A value that is satisfied can be set. -/
theorem settable_of_satisfied {value : Value} {item : Item} (h : satisfied value item = true) :
    settable value item = true := by
  unfold satisfied at h
  unfold settable
  split at h
  · cases h
  · rfl
  · rename_i key values
    have hkey : keyOf values item.desiredvalue = some key := of_decide_eq_true h
    obtain ⟨entry, hfind, rfl⟩ := Option.map_eq_some_iff.mp hkey
    simp [hkey, lookup_of_mem (List.mem_of_find?_eq_some hfind)]

section works

variable (hworks : Works cfg platopxe)

include hworks

/-- A message is taken. -/
theorem message_returns (message : String) (s : State σ) :
    ∃ world', (call (platopxe.postMessage message) : Boot σ Unit) s =
      .ok ⟨⟩ { s with world := world' } := by
  obtain ⟨a, world', hpost⟩ := hworks.postMessage message s.world
  exact ⟨world', call_of_ok hpost⟩

/-- A boot that is not over the count is counted. -/
theorem countBoot_returns (s : State σ) (hcount : ∀ value, s.env = some value → value.getD 0 ≤ 5) :
    ∃ world env, countBoot platopxe s = .ok ⟨⟩ { s with world := world, env := env } ∧
      (s.env = none → env = none) := by
  obtain ⟨world, env, dirty⟩ := s
  unfold countBoot
  rw [bind_ok (get_eq _)]
  cases env with
  | none => exact ⟨world, none, rfl, fun _ => rfl⟩
  | some value =>
    obtain ⟨a, world₁, hread⟩ := hworks.readEnv world
    obtain ⟨b, world₂, hwrite⟩ := hworks.writeEnv world₁
    have hwrite' : (call platopxe.writeEnv : Boot σ Unit)
        { world := world₁, env := some value, dirty } =
        .ok b { world := world₂, env := some value, dirty } := within_of_ok hwrite
    dsimp only
    rw [bind_ok (call_of_ok hread), if_neg (Int.not_lt.mpr (hcount value rfl)), bind_ok hwrite']
    exact ⟨world₂, _, rfl, fun hnone => by cases hnone⟩

theorem password_returns (password : Option String) (s : State σ) :
    ∃ a s', cfg.password platopxe password s = .ok a s' := by
  cases password with
  | none => exact ⟨_, _, rfl⟩
  | some password =>
    obtain ⟨a, world₁, hset⟩ := hworks.setPassword password s.world
    obtain ⟨world₂, hpost⟩ := message_returns hworks "Checking Password..."
      { s with world := world₁ }
    obtain ⟨world₃, hcheck⟩ := hworks.checkPassword world₂
    have hcheck' : (call cfg.checkPassword : Boot σ Bool) { s with world := world₂ } =
        .ok true { s with world := world₃ } := within_of_ok hcheck
    unfold Tool.password
    dsimp only
    rw [bind_ok (call_of_ok hset), bind_ok hpost, bind_ok hcheck']
    exact ⟨_, _, rfl⟩

/-- An item is set. -/
theorem set_returns (item : Item) (value : String) (s : State σ) :
    ∃ a s', cfg.set item value s = .ok a s' ∧
      B.stored s'.world = Function.update (B.stored s.world) item.place
        (some value, (B.stored s.world item.place).2) := by
  obtain ⟨world', hset⟩ := hworks.setValue item.group item.item value s.world
  obtain ⟨-, -, hstored⟩ := B.setValue _ _ _ _ _ _ hset
  unfold Tool.set
  rw [bind_ok (call_of_ok hset)]
  exact ⟨_, _, rfl, hstored⟩

/-- An item that can be set has its value, or is set. -/
theorem checkItem_returns {item : Item} {s : State σ}
    (hsettable : settable (B.cached s.world item.place) item = true) :
    ∃ a s', cfg.checkItem item s = .ok a s' ∧
      (satisfied (B.cached s.world item.place) item = true ∧
          B.stored s'.world = B.stored s.world ∨
        ∃ value, satisfied (some value, (B.cached s.world item.place).2) item = true ∧
          B.stored s'.world = Function.update (B.stored s.world) item.place
            (some value, (B.stored s.world item.place).2)) := by
  obtain ⟨value, world', hget⟩ := hworks.getValue item.group item.item s.world
  obtain ⟨hvalue, -, hstored, -⟩ := B.getValue _ _ _ _ _ hget
  change value = B.cached s.world item.place at hvalue
  rw [← hvalue] at hsettable ⊢
  rw [← hstored]
  have hset (v : String) (hv : satisfied (some v, value.2) item = true) :
      ∃ a s', cfg.set item v { s with world := world' } = .ok a s' ∧
        (satisfied value item = true ∧ B.stored s'.world = B.stored world' ∨
          ∃ v, satisfied (some v, value.2) item = true ∧
            B.stored s'.world = Function.update (B.stored world') item.place
              (some v, (B.stored world' item.place).2)) := by
    obtain ⟨a, s', hok, hs'⟩ := set_returns B hworks item v { s with world := world' }
    exact ⟨a, s', hok, .inr ⟨v, hv, hs'⟩⟩
  unfold Tool.checkItem
  rw [bind_ok (call_of_ok hget)]
  obtain ⟨curvalue, values⟩ := value
  cases curvalue with
  | none => cases hsettable
  | some curvalue =>
    cases values with
    | none =>
      dsimp only
      by_cases hsame : curvalue = item.desiredvalue
      · rw [if_neg (by simpa using hsame)]
        exact ⟨_, _, rfl, .inl ⟨by simpa [satisfied] using hsame, rfl⟩⟩
      · rw [if_pos hsame]
        exact hset _ (by simp [satisfied])
    | some values =>
      simp only [settable, Bool.and_eq_true] at hsettable
      obtain ⟨key, hkey⟩ := Option.isSome_iff_exists.mp hsettable.2
      simp only [hkey]
      by_cases hsame : curvalue = key
      · rw [if_neg (by simpa using hsame)]
        exact ⟨_, _, rfl, .inl ⟨by simp [satisfied, hkey, hsame], rfl⟩⟩
      · rw [if_pos hsame, if_pos hsettable.1]
        exact hset _ (keyOf_satisfied hkey)

/-- **All items are set.** -/
theorem checkItems_returns {items : List Item} (hnodup : (items.map Item.place).Nodup) {s : State σ}
    (hworld : B.cached s.world = B.stored s.world) (hclean : s.dirty = false)
    (hsettable : ∀ item ∈ items, settable (B.stored s.world item.place) item = true) :
    ∃ a s', items.forM cfg.checkItem s = .ok a s' ∧
      ∀ item ∈ items, satisfied (B.stored s'.world item.place) item = true := by
  let inv (front : List Item) (t : State σ) : Prop := B.Kept items front s.world t ∧
    ∀ item ∈ front, satisfied (B.stored t.world item.place) item = true
  have hturn : ∀ front item rest, items = front ++ item :: rest → ∀ t, inv front t →
      ∃ a t', cfg.checkItem item t = .ok a t' ∧ inv (front ++ [item]) t' := by
    intro front item rest hitems t hinv
    obtain ⟨hkept, hfront⟩ := hinv
    have hview : B.cached t.world item.place = B.stored s.world item.place := by
      rw [hkept.cached, hworld]
    have hmem : item ∈ items := by simp [hitems]
    have hfresh : item.place ∉ front.map Item.place := by
      rw [hitems, List.map_append, List.map_cons] at hnodup
      exact fun hin => (List.nodup_append.mp hnodup).2.2 _ hin _ (List.mem_cons_self ..) rfl
    have hold : B.stored t.world item.place = B.stored s.world item.place :=
      hkept.others _ hfresh
    obtain ⟨a, t', hok, hcases⟩ := checkItem_returns B hworks
      (s := t) (by rw [hview]; exact hsettable item hmem)
    obtain ⟨hcase, hcached, horder, -⟩ := B.checkItem_cases hok
    refine ⟨a, t', hok, hkept.turn B hnodup hitems hworld hcase hcached horder, fun x hx => ?_⟩
    rcases hcases with ⟨hsat, hstored⟩ | ⟨value, hvalue, hstored⟩
    · rcases List.mem_append.mp hx with hx | hx
      · rw [hstored]
        exact hfront x hx
      · rw [List.mem_singleton.mp hx, hstored, hold, ← hview]
        exact hsat
    · rcases List.mem_append.mp hx with hx | hx
      · have hne : x.place ≠ item.place := fun he => hfresh (he ▸ List.mem_map_of_mem hx)
        rw [hstored, Function.update_of_ne hne]
        exact hfront x hx
      · rw [List.mem_singleton.mp hx, hstored, Function.update_self, hold, ← hview]
        exact hvalue
  have hstart : inv [] s := ⟨B.kept_nil items hclean, fun _ h => absurd h List.not_mem_nil⟩
  obtain ⟨a, s', hok, -, hall⟩ := forM_returns hturn hstart
  exact ⟨a, s', hok, hall⟩

theorem checkBoot_returns (boot : List (List String)) (s : State σ) :
    ∃ code s', cfg.checkBoot platopxe boot s = .ok code s' := by
  obtain ⟨world₀, hpost⟩ := message_returns hworks "Checking Boot Order..." s
  obtain ⟨entries, world₁, hget⟩ := hworks.getBoot world₀
  have hget' : (call cfg.getBoot : Boot σ _) { s with world := world₀ } =
      .ok entries { s with world := world₁ } := within_of_ok hget
  obtain ⟨world₂, hset⟩ := hworks.setBoot boot world₁
  have hset' : (call (cfg.setBoot boot) : Boot σ Bool) { s with world := world₁ } =
      .ok true { s with world := world₂ } := within_of_ok hset
  obtain ⟨world₃, hpost'⟩ := message_returns hworks "Boot Order Was Changed, Rebooting..."
    { s with world := world₂ }
  unfold Tool.checkBoot
  rw [bind_ok hpost, bind_ok hget']
  split
  · rw [bind_ok hset', if_pos rfl, bind_ok hpost']
    exact ⟨_, _, rfl⟩
  · exact ⟨_, _, rfl⟩

/-- **A boot that is counted does not fail**, and leaves all items as they are wanted. -/
theorem afterCount_returns (hnodup : (config.items.map Item.place).Nodup)
    {s : State σ} (hworld : B.cached s.world = B.stored s.world) (hclean : s.dirty = false)
    (hsettable : ∀ item ∈ config.items, settable (B.stored s.world item.place) item = true) :
    ∃ code s', afterCount cfg platopxe config s = .ok code s' ∧
      ∀ item ∈ config.items, satisfied (B.stored s'.world item.place) item = true := by
  obtain ⟨_, s₁, hpassword⟩ := password_returns hworks config.password s
  obtain ⟨hcached₁, hstored₁, horder₁, hdirty₁⟩ := B.password_ok hpassword
  obtain ⟨world₂, hpost⟩ := message_returns hworks "Checking BIOS Items..." s₁
  obtain ⟨hcached₂, hstored₂, -, hdirty₂⟩ := B.message_ok hpost
  have hworld₂ : B.cached world₂ = B.stored world₂ := by
    rw [hcached₂, hstored₂, hcached₁, hstored₁, hworld]
  have hclean₂ : s₁.dirty = false := hdirty₁.trans hclean
  obtain ⟨_, s₃, hitems, hall⟩ := checkItems_returns B hworks hnodup
    (s := { s₁ with world := world₂ }) hworld₂ hclean₂
    (by rw [hstored₂, hstored₁]; exact hsettable)
  unfold afterCount
  rw [bind_ok hpassword, bind_ok hpost, bind_ok hitems, bind_ok (get_eq s₃)]
  by_cases hdirty : s₃.dirty = true
  · obtain ⟨world₄, hpost'⟩ := message_returns hworks "BIOS Item(s) Were Changed, Rebooting..." s₃
    obtain ⟨-, hstored₄, -, -⟩ := B.message_ok hpost'
    rw [if_pos hdirty, bind_ok hpost']
    exact ⟨20, _, rfl, by rw [hstored₄]; exact hall⟩
  · rw [if_neg hdirty]
    cases hboot : config.boot with
    | none => exact ⟨0, s₃, rfl, hall⟩
    | some boot =>
      dsimp only
      by_cases hempty : boot = []
      · rw [if_pos hempty]
        exact ⟨0, s₃, rfl, hall⟩
      · rw [if_neg hempty]
        obtain ⟨code, s₄, hcheck⟩ := checkBoot_returns hworks boot s₃
        obtain ⟨hstored₄, -⟩ := B.checkBoot_ok hcheck
        exact ⟨code, s₄, hcheck, by rw [hstored₄]; exact hall⟩

end works

/-- A boot with a tool that works and is not over the count. -/
theorem boot_works (hworks : Works cfg platopxe) (hnodup : (config.items.map Item.place).Nodup)
    {start : σ × Option (Option Int)} (hbooted : B.cached start.1 = B.stored start.1)
    (hsettable : ∀ item ∈ config.items, settable (B.stored start.1 item.place) item = true)
    (hcount : ∀ value, start.2 = some value → value.getD 0 ≤ 5) :
    B.Leaves config start.1 (boot (some cfg) platopxe config start).1
        (boot (some cfg) platopxe config start).2.world ∧
      (∀ item ∈ config.items, satisfied
        (B.stored (boot (some cfg) platopxe config start).2.world item.place) item = true) ∧
      (start.2 = none → (boot (some cfg) platopxe config start).2.env = none) := by
  obtain ⟨world₁, hpost⟩ := message_returns hworks "Detecting Motherboard Type..."
    { world := start.1, env := start.2 }
  obtain ⟨hcached₁, hstored₁, -, -⟩ := B.message_ok hpost
  obtain ⟨world, env, hcounted, hnone⟩ := countBoot_returns hworks
    { world := world₁, env := start.2 } hcount
  obtain ⟨hcached, hstored, -, -⟩ := B.countBoot_ok hcounted
  obtain ⟨code, s', hok, hall⟩ := afterCount_returns B hworks hnodup (s := { world, env })
    (by rw [hcached, hstored, hcached₁, hstored₁, hbooted]) rfl
    (by rw [hstored, hstored₁]; exact hsettable)
  have hmain : main (some cfg) platopxe config { world := start.1, env := start.2 } =
      .ok code s' := by
    unfold main
    rw [bind_ok hpost]
    dsimp only
    rw [run_eq, bind_ok hcounted]
    exact hok
  have hboot : boot (some cfg) platopxe config start = (code, s') := by
    rw [boot, hmain]
  rw [hboot]
  refine ⟨main_settles B hnodup hbooted rfl hmain, hall, fun henv => ?_⟩
  have hkeeps := (afterCount_keeps cfg platopxe config env { world, env } rfl).1
  rw [hok] at hkeeps
  exact Eq.trans hkeeps (hnone henv)

/-- The reboots for the items. -/
def itemBoots (config : Config) (world : σ) : Nat := if B.unsettled config world = 0 then 0 else 1

/-- A machine that is due to be rebooted `k` times: for the items, and for the boot order, which is
right when it has been set `n` times and not before. -/
structure Due (config : Config) (k : Nat) (start : σ × Option (Option Int)) : Prop where
  booted : B.cached start.1 = B.stored start.1
  settable : ∀ item ∈ config.items, settable (B.stored start.1 item.place) item = true
  due : ∃ n, B.Ordered config n start.1 ∧ (∀ m < n, ¬ B.Ordered config m start.1) ∧
    k = itemBoots B config start.1 + n
  count : ∀ value, start.2 = some value → value.getD 0 + k ≤ 5

/-- What is left of the count. -/
theorem count_next {k : Nat} {start : σ × Option (Option Int)}
    (hcount : ∀ value, start.2 = some value → value.getD 0 + ((k + 1 : Nat) : Int) ≤ 5)
    (hcode : (boot (some cfg) platopxe config start).1 = 20)
    (hnone : start.2 = none → (boot (some cfg) platopxe config start).2.env = none) :
    ∀ value, (boot (some cfg) platopxe config start).2.env = some value →
      value.getD 0 + (k : Int) ≤ 5 := by
  intro value henv
  cases hjob : start.2 with
  | none =>
    rw [hnone hjob] at henv
    cases henv
  | some old =>
    obtain ⟨-, hcounted⟩ := boot_env (some cfg) hjob hcode
    rw [hcounted] at henv
    cases henv
    have hle := hcount old hjob
    simp only [Option.getD_some]
    omega

theorem settable_reboot {world : σ}
    (hall : ∀ item ∈ config.items, satisfied (B.stored world item.place) item = true) :
    ∀ item ∈ config.items, settable (B.stored (reboot world) item.place) item = true := by
  intro item hitem
  rw [B.reboot_stored]
  exact settable_of_satisfied (hall item hitem)

/-- The boot of a machine that is due to be rebooted no more. -/
theorem Due.last (hworks : Works cfg platopxe) (hnodup : (config.items.map Item.place).Nodup)
    {start : σ × Option (Option Int)} (h : Due B config 0 start) :
    (boot (some cfg) platopxe config start).1 = 0 ∧
      Settled B config (boot (some cfg) platopxe config start).2.world := by
  obtain ⟨n, hordered, -, hdue⟩ := h.due
  obtain ⟨hleaves, -, -⟩ := boot_works B hworks hnodup h.booted h.settable fun value henv => by
    have hle := h.count value henv
    omega
  have hzero : B.unsettled config start.1 = 0 := by
    by_contra hnot
    rw [itemBoots, if_neg hnot] at hdue
    omega
  obtain rfl : n = 0 := by omega
  generalize (boot (some cfg) platopxe config start).1 = code at hleaves
  cases hleaves with
  | items hless horder => omega
  | bootOrder hitems hstored list hboot hwrong horder =>
    obtain ⟨m, hm⟩ := ordered_wrong B hboot hwrong hordered
    cases hm
  | nothing hitems hstored hright horder =>
    exact ⟨rfl, settled_of_nothing B hitems hstored hright horder⟩

/-- The boot of a machine that is due to be rebooted. -/
theorem Due.next (hworks : Works cfg platopxe) (hnodup : (config.items.map Item.place).Nodup)
    {k : Nat} {start : σ × Option (Option Int)} (h : Due B config (k + 1) start) :
    (boot (some cfg) platopxe config start).1 = 20 ∧
      Due B config k (reboot (boot (some cfg) platopxe config start).2.world,
        (boot (some cfg) platopxe config start).2.env) := by
  obtain ⟨n, hordered, hfirst, hdue⟩ := h.due
  obtain ⟨hleaves, hall, hnone⟩ := boot_works B hworks hnodup h.booted h.settable
    fun value henv => by
      have hle := h.count value henv
      omega
  have hsettled : itemBoots B config
      (reboot (boot (some cfg) platopxe config start).2.world) = 0 := by
    rw [itemBoots, unsettled_reboot, if_pos (B.unsettled_eq_zero_iff.mpr hall)]
  have hagain (hcode : (boot (some cfg) platopxe config start).1 = 20)
      (hright : B.Ordered config k (reboot (boot (some cfg) platopxe config start).2.world))
      (hearlier : ∀ m < k, ¬ B.Ordered config m
        (reboot (boot (some cfg) platopxe config start).2.world)) :
      Due B config k (reboot (boot (some cfg) platopxe config start).2.world,
        (boot (some cfg) platopxe config start).2.env) := by
    refine ⟨booted_reboot B _, settable_reboot B hall, ⟨k, hright, hearlier, ?_⟩,
      count_next h.count hcode hnone⟩
    rw [hsettled, Nat.zero_add]
  generalize hcode : (boot (some cfg) platopxe config start).1 = code at hleaves hagain ⊢
  cases hleaves with
  | items hless horder =>
    rw [itemBoots, if_neg (by omega)] at hdue
    obtain rfl : n = k := by omega
    refine ⟨rfl, hagain rfl ((ordered_reboot B horder).mpr hordered) fun m hm hright => ?_⟩
    exact hfirst m hm ((ordered_reboot B horder).mp hright)
  | bootOrder hitems hstored list hboot hwrong horder =>
    rw [itemBoots, if_pos hitems] at hdue
    obtain rfl : n = k + 1 := by omega
    refine ⟨rfl, hagain rfl ((ordered_programmed B hboot horder).mpr hordered)
      fun m hm hright => ?_⟩
    exact hfirst (m + 1) (by omega) ((ordered_programmed B hboot horder).mp hright)
  | nothing hitems hstored hright horder =>
    rw [itemBoots, if_pos hitems] at hdue
    exact absurd hright (hfirst 0 (by omega))

end runs

/-! ## A board that keeps what is set -/

/-- The values that were there at the last boot and that are there now, and the boot order. -/
structure Bios where
  cached : String × String → Value
  stored : String × String → Value
  order : List (String × String)

/-- What becomes of the boot order: the entries of each item, one item after the other. -/
def Bios.program (boot : List (List String)) (order : List (String × String)) :
    List (String × String) :=
  boot.flatMap fun item => order.filter fun entry =>
    item = [entry.1] ∨ item = [entry.1, entry.2]

def Bios.tool : Tool Bios where
  setPassword _ bios := .ok ⟨⟩ bios
  checkPassword bios := .ok true bios
  changePassword _ bios := .ok true bios
  getValue group item bios := .ok (bios.cached (group, item)) bios
  setValue group item value bios :=
    .ok true { bios with
      stored := Function.update bios.stored (group, item)
        (some value, (bios.stored (group, item)).2) }
  getBoot bios := .ok bios.order bios
  setBoot boot bios := .ok true { bios with order := Bios.program boot bios.order }

def Bios.platopxe : PlatoPXE Bios := ⟨fun _ => pure ⟨⟩, pure ⟨⟩, pure ⟨⟩⟩

def Bios.reboot (bios : Bios) : Bios := { bios with cached := bios.stored }

def bios : Board (List (String × String)) Bios.tool Bios.platopxe Bios.reboot where
  cached := Bios.cached
  stored := Bios.stored
  order := Bios.order
  entries := id
  programmed := Bios.program
  reboot_cached _ := rfl
  reboot_stored _ := rfl
  reboot_order _ := rfl
  postMessage _ _ _ _ h := by
    cases h
    exact ⟨rfl, rfl, rfl⟩
  readEnv _ _ _ h := by
    cases h
    exact ⟨rfl, rfl, rfl⟩
  writeEnv _ _ _ h := by
    cases h
    exact ⟨rfl, rfl, rfl⟩
  setPassword _ _ _ _ h := by
    cases h
    exact ⟨rfl, rfl, rfl⟩
  checkPassword _ _ _ h := by
    cases h
    exact ⟨rfl, rfl, rfl⟩
  changePassword _ _ _ _ h := by
    cases h
    exact ⟨rfl, rfl, rfl⟩
  getValue _ _ _ _ _ h := by
    cases h
    exact ⟨rfl, rfl, rfl, rfl⟩
  setValue _ _ _ _ _ _ h := by
    cases h
    exact ⟨rfl, rfl, rfl⟩
  getBoot _ _ _ h := by
    cases h
    exact ⟨rfl, rfl, rfl⟩
  setBoot _ _ _ h := by
    cases h
    exact ⟨rfl, rfl⟩

theorem bios_works : Works Bios.tool Bios.platopxe where
  postMessage _ _ := ⟨_, _, rfl⟩
  readEnv _ := ⟨_, _, rfl⟩
  writeEnv _ := ⟨_, _, rfl⟩
  setPassword _ _ := ⟨_, _, rfl⟩
  checkPassword _ := ⟨_, rfl⟩
  getValue _ _ _ := ⟨_, _, rfl⟩
  setValue _ _ _ _ := ⟨_, rfl⟩
  getBoot _ := ⟨_, _, rfl⟩
  setBoot _ _ := ⟨_, rfl⟩

/-- An item with two values, and the network first. -/
def quietBoot : Config where
  items := [⟨"Boot", "Quiet Boot", "Disabled"⟩]
  boot := some [["Network", "eth0"], ["Harddrive"]]
  password := none

def loudBios : Bios where
  cached _ := (some "01", some [("00", "Disabled"), ("01", "Enabled")])
  stored _ := (some "01", some [("00", "Disabled"), ("01", "Enabled")])
  order := [("Harddrive", "sda"), ("Network", "eth0")]

theorem loud_ordered : bios.Ordered quietBoot 1 loudBios := by
  intro boot hboot
  obtain rfl : [["Network", "eth0"], ["Harddrive"]] = boot := by simpa [quietBoot] using hboot
  decide

/-- The hard disks first, of which the machine has three: the check takes the third one for an entry
that is not configured, however often the boot order is set. -/
def disksFirst : Config where
  items := []
  boot := some [["Harddrive"]]
  password := none

def threeDisks : Bios where
  cached _ := (none, none)
  stored _ := (none, none)
  order := [("Harddrive", "a"), ("Harddrive", "b"), ("Harddrive", "c")]

theorem disks_never (n : Nat) : ¬ bios.Ordered disksFirst n threeDisks := by
  intro hordered
  have hright := hordered [["Harddrive"]] rfl
  have hsame : (Bios.program [["Harddrive"]])^[n] threeDisks.order = threeDisks.order :=
    Function.iterate_fixed (by decide) n
  change reprogrammed [["Harddrive"]] ((Bios.program [["Harddrive"]])^[n] threeDisks.order) =
    false at hright
  rw [hsame] at hright
  exact absurd hright (by decide)

end BiosCfg
