import Disks.Lib.Loop

/-!
# The end of a task (`/etc/init.d/do_task`, and the `do_task` of the disks)

A task ends with a status, by which the machine is rebooted and the task starts again, or it is
over. `turn` is one boot of a machine as a turn of a loop.

* `turn_reboot`, `turn_error`, `turn_poweroff`: what a boot with a status is.
* `turn_eq_next`, `turn_eq_stop`: a machine is rebooted with the status 20 only, and powered off
  with 0 only.
-/

namespace DoTask

/-- What `/etc/init.d/do_task` does with the status of `/do_task`. -/
inductive Ending
  | reboot
  | error
  | poweroff
deriving DecidableEq, Repr

def init (rc : Int) : Ending :=
  if rc = 20 then .reboot
  else if rc = 10 then .error
  else if rc ≠ 0 then .error
  else .poweroff

/-- The end of the `do_task` of `firmware` and of `bios-cfg`, after the program of the disk. -/
def status (rc : Int) : Int :=
  if rc = 20 then 20
  else if rc ≠ 0 then 10
  else 0

variable {σ ρ : Type}

/-- One boot of a machine with a task: what it leaves is rebooted, or is the end. -/
def turn (task : σ → Int × ρ) (reboot : ρ → σ) (world : σ) :
    Option (Loop.Turn σ (Ending × ρ)) :=
  match init (status (task world).1) with
  | .reboot => some (.next (reboot (task world).2))
  | .error => some (.stop (.error, (task world).2))
  | .poweroff => some (.stop (.poweroff, (task world).2))

variable {task : σ → Int × ρ} {reboot : ρ → σ} {world : σ}

theorem turn_reboot (h : (task world).1 = 20) :
    turn task reboot world = some (.next (reboot (task world).2)) := by
  simp [turn, h, status, init]

theorem turn_error (h : (task world).1 = 1) :
    turn task reboot world = some (.stop (.error, (task world).2)) := by
  simp [turn, h, status, init]

theorem turn_poweroff (h : (task world).1 = 0) :
    turn task reboot world = some (.stop (.poweroff, (task world).2)) := by
  simp [turn, h, status, init]

theorem init_reboot_iff {rc : Int} : init (status rc) = .reboot ↔ rc = 20 := by
  unfold status
  by_cases h : rc = 20
  · simp [h, init]
  · by_cases h' : rc = 0 <;> simp [h, h', init]

theorem turn_eq_next {next : σ} (h : turn task reboot world = some (.next next)) :
    (task world).1 = 20 ∧ next = reboot (task world).2 := by
  unfold turn at h
  split at h
  · rename_i hinit
    cases h
    exact ⟨init_reboot_iff.mp hinit, rfl⟩
  · cases h
  · cases h

theorem init_poweroff_iff {rc : Int} : init (status rc) = .poweroff ↔ rc = 0 := by
  unfold status
  by_cases h : rc = 20
  · simp [h, init]
  · by_cases h' : rc = 0 <;> simp [h, h', init]

theorem turn_eq_stop {r : Ending × ρ} (h : turn task reboot world = some (.stop r)) :
    r.1 = .error ∨ r.1 = .poweroff ∧ (task world).1 = 0 := by
  unfold turn at h
  split at h
  · cases h
  · cases h
    exact .inl rfl
  · rename_i hinit
    cases h
    exact .inr ⟨rfl, init_poweroff_iff.mp hinit⟩

end DoTask
