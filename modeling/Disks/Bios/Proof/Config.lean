import Disks.Bios.Config
import Mathlib.Data.List.Count
import Mathlib.Logic.Function.Basic

/-!
# What one boot of the BIOS configuration does

`Board` says what the tool is relied on for: the values that it tells are those of the last boot,
and an item that is set has its value from the next boot on. What a boot order that is set comes to
is left open.

* `checkItem_cases`: what an item comes to. `checkItems_kept`: what holds behind the items.
* `run_settles`: **what a boot leaves**: nothing is to be set after 0, and less, or another boot
  order, after 20.
-/

namespace BiosCfg

open Effect

variable {σ : Type}

/-- Where an item is. -/
def Item.place (item : Item) : String × String := (item.group, item.item)

/-- The value is the one that is wanted. -/
def satisfied (value : Value) (item : Item) : Bool :=
  match value with
  | (none, _) => false
  | (some curvalue, none) => curvalue = item.desiredvalue
  | (some curvalue_key, some values) => keyOf values item.desiredvalue = some curvalue_key

/-- What a tool, and the server, are relied on for. Of the boot order the board has a state of its
own, and a boot order that is set changes it in some way. -/
structure Board (β : Type) (cfg : Tool σ) (platopxe : PlatoPXE σ) (reboot : σ → σ) where
  /-- The values that the tool tells, and those of the board. -/
  cached : σ → String × String → Value
  stored : σ → String × String → Value
  /-- The state of the boot order, the entries that the tool tells of it, and what becomes of it
  when a boot order is set. -/
  order : σ → β
  entries : β → List (String × String)
  programmed : List (List String) → β → β
  reboot_cached : ∀ world, cached (reboot world) = stored world
  reboot_stored : ∀ world, stored (reboot world) = stored world
  reboot_order : ∀ world, order (reboot world) = order world
  postMessage : ∀ message world a world', platopxe.postMessage message world = .ok a world' →
    cached world' = cached world ∧ stored world' = stored world ∧ order world' = order world
  readEnv : ∀ world a world', platopxe.readEnv world = .ok a world' →
    cached world' = cached world ∧ stored world' = stored world ∧ order world' = order world
  writeEnv : ∀ world a world', platopxe.writeEnv world = .ok a world' →
    cached world' = cached world ∧ stored world' = stored world ∧ order world' = order world
  setPassword : ∀ password world a world', cfg.setPassword password world = .ok a world' →
    cached world' = cached world ∧ stored world' = stored world ∧ order world' = order world
  checkPassword : ∀ world a world', cfg.checkPassword world = .ok a world' →
    cached world' = cached world ∧ stored world' = stored world ∧ order world' = order world
  changePassword : ∀ password world a world', cfg.changePassword password world = .ok a world' →
    cached world' = cached world ∧ stored world' = stored world ∧ order world' = order world
  getValue : ∀ group item world value world', cfg.getValue group item world = .ok value world' →
    value = cached world (group, item) ∧
      cached world' = cached world ∧ stored world' = stored world ∧ order world' = order world
  setValue : ∀ group item value world success world',
    cfg.setValue group item value world = .ok success world' →
    cached world' = cached world ∧ order world' = order world ∧
      stored world' = if success then
        Function.update (stored world) (group, item) (some value, (stored world (group, item)).2)
        else stored world
  getBoot : ∀ world told world', cfg.getBoot world = .ok told world' →
    told = entries (order world) ∧ stored world' = stored world ∧ order world' = order world
  setBoot : ∀ boot world world', cfg.setBoot boot world = .ok true world' →
    stored world' = stored world ∧ order world' = programmed boot (order world)

/-! ## What comes back from outside -/

theorem call_eq_ok {α : Type} {m : EStateM Unit σ α} {s s' : State σ} {a : α}
    (h : (call m : Boot σ α) s = .ok a s') :
    m s.world = .ok a s'.world ∧ s'.env = s.env ∧ s'.dirty = s.dirty := by
  obtain ⟨world, hm, rfl⟩ := within_eq_ok h
  exact ⟨hm, rfl, rfl⟩

theorem get_eq (s : State σ) : (get : Boot σ (State σ)) s = .ok s s := rfl

theorem tryAgain_eq_ok {s s' : State σ} {a : Unit} (h : (tryAgain : Boot σ Unit) s = .ok a s') :
    s.dirty = true ∧ s' = s := by
  unfold tryAgain at h
  rw [bind_ok (get_eq s)] at h
  by_cases hdirty : s.dirty = true
  · rw [if_pos hdirty] at h
    cases h
    exact ⟨hdirty, rfl⟩
  · rw [if_neg hdirty] at h
    cases h

theorem keyOf_satisfied {values : Assoc.Dict String String} {item : Item} {key : String}
    (h : keyOf values item.desiredvalue = some key) :
    satisfied (some key, some values) item = true := by
  simp [satisfied, h]

namespace Board

variable {β : Type} {cfg : Tool σ} {platopxe : PlatoPXE σ} {reboot : σ → σ}
  (B : Board β cfg platopxe reboot)

/-! ## An item -/

/-- What an item comes to: it has its value already, it is left for the next boot, or it is set. -/
inductive Turn (item : Item) (s s' : State σ) : Prop
  | kept (h : satisfied (B.cached s.world item.place) item = true) (hdirty : s'.dirty = s.dirty)
    (hstored : B.stored s'.world = B.stored s.world)
  | left (h : satisfied (B.cached s.world item.place) item = false) (hdirty : s.dirty = true)
    (hdirty' : s'.dirty = true) (hstored : B.stored s'.world = B.stored s.world)
  | set (h : satisfied (B.cached s.world item.place) item = false) (hdirty : s'.dirty = true)
    (value : String)
    (hvalue : satisfied (some value, (B.cached s.world item.place).2) item = true)
    (hstored : B.stored s'.world = Function.update (B.stored s.world) item.place
      (some value, (B.stored s.world item.place).2))

/-- An item that is set, or left for the next boot. -/
theorem set_cases {item : Item} {value : String} {s s' : State σ} {a : Unit}
    (h : satisfied (B.cached s.world item.place) item = false)
    (hvalue : satisfied (some value, (B.cached s.world item.place).2) item = true)
    (hset : cfg.set item value s = .ok a s') :
    B.Turn item s s' ∧ B.cached s'.world = B.cached s.world ∧
      B.order s'.world = B.order s.world ∧ s'.env = s.env := by
  unfold Tool.set at hset
  obtain ⟨success, t, hcall, hrest⟩ := bind_eq_ok.mp hset
  obtain ⟨hsv, henv, hdirty⟩ := call_eq_ok hcall
  obtain ⟨hcached, horder, hstored⟩ := B.setValue _ _ _ _ _ _ hsv
  cases success with
  | true =>
    cases hrest
    exact ⟨.set h rfl value hvalue hstored, hcached, horder, henv⟩
  | false =>
    obtain ⟨hagain, rfl⟩ := tryAgain_eq_ok hrest
    exact ⟨.left h (hdirty.symm.trans hagain) hagain hstored, hcached, horder, henv⟩

/-- **What an item comes to.** -/
theorem checkItem_cases {item : Item} {s s' : State σ} {a : Unit}
    (h : cfg.checkItem item s = .ok a s') :
    B.Turn item s s' ∧ B.cached s'.world = B.cached s.world ∧
      B.order s'.world = B.order s.world ∧ s'.env = s.env := by
  unfold Tool.checkItem at h
  obtain ⟨value, t, hcall, h⟩ := bind_eq_ok.mp h
  obtain ⟨hget, henv, hdirty⟩ := call_eq_ok hcall
  obtain ⟨hvalue, hcached, hstored, horder⟩ := B.getValue _ _ _ _ _ hget
  have hview : B.cached t.world item.place = value := by
    rw [hcached, hvalue]
    rfl
  -- what is said from the state behind `getValue` on
  suffices hrest : B.Turn item t s' ∧ B.cached s'.world = B.cached t.world ∧
      B.order s'.world = B.order t.world ∧ s'.env = t.env by
    obtain ⟨hturn, hcached', horder', henv'⟩ := hrest
    refine ⟨?_, hcached'.trans hcached, horder'.trans horder, henv'.trans henv⟩
    cases hturn with
    | kept hs hd hst => exact .kept (hcached ▸ hs) (hd.trans hdirty) (hst.trans hstored)
    | left hs hd hd' hst =>
      exact .left (hcached ▸ hs) (hdirty ▸ hd) hd' (hst.trans hstored)
    | set hs hd v hv hst => exact .set (hcached ▸ hs) hd v (hcached ▸ hv) (hstored ▸ hst)
  have hleft (hagain : (tryAgain : Boot σ Unit) t = .ok a s')
      (hs : satisfied (B.cached t.world item.place) item = false) :
      B.Turn item t s' ∧ B.cached s'.world = B.cached t.world ∧
        B.order s'.world = B.order t.world ∧ s'.env = t.env := by
    obtain ⟨hd, rfl⟩ := tryAgain_eq_ok hagain
    exact ⟨.left hs hd hd rfl, rfl, rfl, rfl⟩
  obtain ⟨curvalue, values⟩ := value
  cases curvalue with
  | none => exact hleft h (by rw [hview]; rfl)
  | some curvalue =>
    cases values with
    | none =>
      dsimp only at h
      by_cases hsame : curvalue = item.desiredvalue
      · rw [if_neg (by simpa using hsame)] at h
        cases h
        exact ⟨.kept (by rw [hview]; simpa [satisfied] using hsame) rfl rfl, rfl, rfl, rfl⟩
      · rw [if_pos hsame] at h
        refine B.set_cases ?_ ?_ h
        · rw [hview]
          simpa [satisfied] using hsame
        · rw [hview]
          simp [satisfied]
    | some values =>
      dsimp only at h
      cases hkey : keyOf values item.desiredvalue with
      | none =>
        rw [hkey] at h
        exact hleft h (by rw [hview]; simp [satisfied, hkey])
      | some key =>
        rw [hkey] at h
        dsimp only at h
        by_cases hsame : curvalue = key
        · rw [if_neg (by simpa using hsame)] at h
          cases h
          exact ⟨.kept (by rw [hview]; simp [satisfied, hkey, hsame]) rfl rfl, rfl, rfl, rfl⟩
        · rw [if_pos hsame] at h
          split at h
          · refine B.set_cases ?_ ?_ h
            · rw [hview]
              simpa [satisfied, hkey] using Ne.symm hsame
            · rw [hview]
              exact keyOf_satisfied hkey
          · cases h

/-! ## All items -/

/-- What holds behind some of the items of a boot. -/
structure Kept (items front : List Item) (world : σ) (s : State σ) : Prop where
  cached : B.cached s.world = B.cached world
  order : B.order s.world = B.order world
  others : ∀ place, place ∉ front.map Item.place → B.stored s.world place = B.stored world place
  monotone : ∀ item ∈ items, satisfied (B.stored world item.place) item = true →
    satisfied (B.stored s.world item.place) item = true
  clean : s.dirty = false → B.stored s.world = B.stored world ∧
    ∀ item ∈ front, satisfied (B.stored world item.place) item = true
  dirty : s.dirty = true → ∃ item ∈ items, satisfied (B.stored world item.place) item = false ∧
    satisfied (B.stored s.world item.place) item = true

/-- An item that is worked on, behind others. -/
theorem Kept.turn {items front rest : List Item} {item : Item} {world : σ} {s s' : State σ}
    (hnodup : (items.map Item.place).Nodup) (hitems : items = front ++ item :: rest)
    (hworld : B.cached world = B.stored world) (h : B.Kept items front world s)
    (hturn : B.Turn item s s') (hcached : B.cached s'.world = B.cached s.world)
    (horder : B.order s'.world = B.order s.world) :
    B.Kept items (front ++ [item]) world s' := by
  have hview : B.cached s.world item.place = B.stored world item.place := by
    rw [h.cached, hworld]
  have hmem : item ∈ items := by simp [hitems]
  have hfresh : item.place ∉ front.map Item.place := by
    rw [hitems, List.map_append, List.map_cons] at hnodup
    exact fun hin => (List.nodup_append.mp hnodup).2.2 _ hin _ (List.mem_cons_self ..) rfl
  have hothers {place : String × String} (hplace : place ∉ (front ++ [item]).map Item.place) :
      place ∉ front.map Item.place ∧ place ≠ item.place := by
    simpa using hplace
  cases hturn with
  | kept hs hd hst =>
    rw [hview] at hs
    refine ⟨hcached.trans h.cached, horder.trans h.order, fun place hplace => ?_, ?_, ?_, ?_⟩
    · rw [hst]
      exact h.others place (hothers hplace).1
    · rw [hst]
      exact h.monotone
    · rw [hd, hst]
      intro hclean
      refine ⟨(h.clean hclean).1, fun x hx => ?_⟩
      rcases List.mem_append.mp hx with hx | hx
      · exact (h.clean hclean).2 x hx
      · rw [List.mem_singleton.mp hx]
        exact hs
    · rw [hd, hst]
      exact h.dirty
  | left hs hd hd' hst =>
    refine ⟨hcached.trans h.cached, horder.trans h.order, fun place hplace => ?_, ?_, ?_, ?_⟩
    · rw [hst]
      exact h.others place (hothers hplace).1
    · rw [hst]
      exact h.monotone
    · rw [hd']
      intro hclean
      cases hclean
    · rw [hst]
      exact fun _ => h.dirty hd
  | set hs hd value hvalue hst =>
    rw [hview] at hs hvalue
    have hnew : satisfied (B.stored s'.world item.place) item = true := by
      rw [hst, Function.update_self, h.others _ hfresh]
      exact hvalue
    refine ⟨hcached.trans h.cached, horder.trans h.order, fun place hplace => ?_, ?_, ?_, ?_⟩
    · rw [hst, Function.update_of_ne (hothers hplace).2]
      exact h.others place (hothers hplace).1
    · intro x hx hsx
      by_cases hplace : x.place = item.place
      · rw [List.inj_on_of_nodup_map hnodup hx hmem hplace]
        exact hnew
      · rw [hst, Function.update_of_ne hplace]
        exact h.monotone x hx hsx
    · rw [hd]
      intro hclean
      cases hclean
    · exact fun _ => ⟨item, hmem, hs, hnew⟩

theorem kept_nil (items : List Item) {s : State σ} (hclean : s.dirty = false) :
    B.Kept items [] s.world s where
  cached := rfl
  order := rfl
  others _ _ := rfl
  monotone _ _ h := h
  clean _ := ⟨rfl, fun _ h => absurd h List.not_mem_nil⟩
  dirty h := by
    rw [hclean] at h
    cases h

/-- **What holds behind the items.** -/
theorem checkItems_kept {items : List Item} (hnodup : (items.map Item.place).Nodup)
    {s s' : State σ} {a : PUnit} (hworld : B.cached s.world = B.stored s.world)
    (hclean : s.dirty = false) (h : items.forM cfg.checkItem s = .ok a s') :
    B.Kept items items s.world s' := by
  refine forM_ok (I := fun front t => B.Kept items front s.world t) ?_ (B.kept_nil items hclean) h
  intro front item rest hitems t _ t' hkept hturn
  obtain ⟨hcases, hcached, horder, -⟩ := B.checkItem_cases hturn
  exact hkept.turn B hnodup hitems hworld hcases hcached horder

/-! ## A boot -/

section boot

variable (config : Config)

/-- How many items have another value. -/
def unsettled (world : σ) : Nat :=
  config.items.countP fun item => !satisfied (B.stored world item.place) item

/-- The boot order is as the configuration has it once it has been set `n` times. -/
def Ordered (n : Nat) (world : σ) : Prop :=
  ∀ boot, config.boot = some boot →
    reprogrammed boot (B.entries ((B.programmed boot)^[n] (B.order world))) = false

variable {config}

/-- A count of a list where something is counted no more, and nothing anew. -/
theorem countP_lt {α : Type} {p q : α → Bool} {l : List α} (himp : ∀ x ∈ l, p x = true → q x = true)
    (hless : ∃ x ∈ l, q x = true ∧ p x = false) : l.countP p < l.countP q := by
  induction l with
  | nil =>
    obtain ⟨x, hx, -⟩ := hless
    cases hx
  | cons y l ih =>
    rw [List.forall_mem_cons] at himp
    have hmono : l.countP p ≤ l.countP q := List.countP_mono_left himp.2
    rw [List.countP_cons, List.countP_cons]
    obtain ⟨x, hx, hqx, hpx⟩ := hless
    rcases List.mem_cons.mp hx with rfl | hx
    · simp [hpx, hqx]
      omega
    · have hlt := ih himp.2 ⟨x, hx, hqx, hpx⟩
      by_cases hp : p y = true
      · simpa [hp, himp.1 hp] using hlt
      · simp [hp]
        omega

theorem unsettled_eq_zero_iff {world : σ} :
    B.unsettled config world = 0 ↔
      ∀ item ∈ config.items, satisfied (B.stored world item.place) item = true := by
  simp [unsettled]

/-- Behind the items, something is settled or all is. -/
theorem Kept.unsettled {world : σ} {s : State σ}
    (h : B.Kept config.items config.items world s) :
    s.dirty = true ∧ B.unsettled config s.world < B.unsettled config world ∨
      s.dirty = false ∧ B.stored s.world = B.stored world ∧ B.unsettled config world = 0 := by
  by_cases hdirty : s.dirty = true
  · refine .inl ⟨hdirty, countP_lt (fun item hitem hnot => ?_) ?_⟩
    · by_contra hs
      have hsat : satisfied (B.stored world item.place) item = true := by simpa using hs
      rw [h.monotone item hitem hsat] at hnot
      cases hnot
    · obtain ⟨item, hitem, hold, hnew⟩ := h.dirty hdirty
      exact ⟨item, hitem, by simp [hold], by simp [hnew]⟩
  · have hclean : s.dirty = false := by simpa using hdirty
    exact .inr ⟨hclean, (h.clean hclean).1, B.unsettled_eq_zero_iff.mpr (h.clean hclean).2⟩

theorem countBoot_ok {s s' : State σ} {a : Unit} (h : countBoot platopxe s = .ok a s') :
    B.cached s'.world = B.cached s.world ∧ B.stored s'.world = B.stored s.world ∧
      B.order s'.world = B.order s.world ∧ s'.dirty = s.dirty := by
  unfold countBoot at h
  rw [bind_ok (get_eq s)] at h
  cases henv : s.env with
  | none =>
    rw [henv] at h
    cases h
    exact ⟨rfl, rfl, rfl, rfl⟩
  | some value =>
    rw [henv] at h
    obtain ⟨_, s₁, hread, h⟩ := bind_eq_ok.mp h
    obtain ⟨hread, -, hdirty₁⟩ := call_eq_ok hread
    obtain ⟨hcached₁, hstored₁, horder₁⟩ := B.readEnv _ _ _ hread
    split at h
    · cases h
    · obtain ⟨_, s₂, hwrite, h⟩ := bind_eq_ok.mp h
      obtain ⟨hwrite, -, hdirty₂⟩ := call_eq_ok hwrite
      obtain ⟨hcached₂, hstored₂, horder₂⟩ := B.writeEnv _ _ _ hwrite
      cases h
      exact ⟨hcached₂.trans hcached₁, hstored₂.trans hstored₁, horder₂.trans horder₁,
        hdirty₂.trans hdirty₁⟩

/-- A message that is taken. -/
theorem message_ok {message : String} {s s' : State σ} {a : Unit}
    (h : (call (platopxe.postMessage message) : Boot σ Unit) s = .ok a s') :
    B.cached s'.world = B.cached s.world ∧ B.stored s'.world = B.stored s.world ∧
      B.order s'.world = B.order s.world ∧ s'.dirty = s.dirty := by
  obtain ⟨hpost, -, hdirty⟩ := call_eq_ok h
  obtain ⟨hcached, hstored, horder⟩ := B.postMessage _ _ _ _ hpost
  exact ⟨hcached, hstored, horder, hdirty⟩

theorem password_ok {password : Option String} {s s' : State σ} {a : Unit}
    (h : cfg.password platopxe password s = .ok a s') :
    B.cached s'.world = B.cached s.world ∧ B.stored s'.world = B.stored s.world ∧
      B.order s'.world = B.order s.world ∧ s'.dirty = s.dirty := by
  cases password with
  | none =>
    cases h
    exact ⟨rfl, rfl, rfl, rfl⟩
  | some password =>
    unfold Tool.password at h
    obtain ⟨_, s₁, hset, h⟩ := bind_eq_ok.mp h
    obtain ⟨hset, -, hdirty₁⟩ := call_eq_ok hset
    obtain ⟨hcached₁, hstored₁, horder₁⟩ := B.setPassword _ _ _ _ hset
    obtain ⟨_, s₀, hpost, h⟩ := bind_eq_ok.mp h
    obtain ⟨hcached₀, hstored₀, horder₀, hdirty₀⟩ := B.message_ok hpost
    obtain ⟨success, s₂, hcheck, h⟩ := bind_eq_ok.mp h
    obtain ⟨hcheck, -, hdirty₂⟩ := call_eq_ok hcheck
    obtain ⟨hcached₂, hstored₂, horder₂⟩ := B.checkPassword _ _ _ hcheck
    rw [hcached₀] at hcached₂
    rw [hstored₀] at hstored₂
    rw [horder₀] at horder₂
    rw [hdirty₀] at hdirty₂
    cases success with
    | true =>
      cases h
      exact ⟨hcached₂.trans hcached₁, hstored₂.trans hstored₁, horder₂.trans horder₁,
        hdirty₂.trans hdirty₁⟩
    | false =>
      obtain ⟨_, s₃, hset', h⟩ := bind_eq_ok.mp h
      obtain ⟨hset', -, hdirty₃⟩ := call_eq_ok hset'
      obtain ⟨hcached₃, hstored₃, horder₃⟩ := B.setPassword _ _ _ _ hset'
      obtain ⟨_, s₄, hchange, h⟩ := bind_eq_ok.mp h
      obtain ⟨hchange, -, hdirty₄⟩ := call_eq_ok hchange
      obtain ⟨hcached₄, hstored₄, horder₄⟩ := B.changePassword _ _ _ _ hchange
      obtain ⟨success, s₅, hcheck', h⟩ := bind_eq_ok.mp h
      obtain ⟨hcheck', -, hdirty₅⟩ := call_eq_ok hcheck'
      obtain ⟨hcached₅, hstored₅, horder₅⟩ := B.checkPassword _ _ _ hcheck'
      cases success with
      | false => cases h
      | true =>
        cases h
        exact ⟨hcached₅.trans (hcached₄.trans (hcached₃.trans (hcached₂.trans hcached₁))),
          hstored₅.trans (hstored₄.trans (hstored₃.trans (hstored₂.trans hstored₁))),
          horder₅.trans (horder₄.trans (horder₃.trans (horder₂.trans horder₁))),
          hdirty₅.trans (hdirty₄.trans (hdirty₃.trans (hdirty₂.trans hdirty₁)))⟩

/-- The boot order, where no item was set. -/
theorem checkBoot_ok {boot : List (List String)} {s s' : State σ} {code : Int}
    (h : cfg.checkBoot platopxe boot s = .ok code s') :
    B.stored s'.world = B.stored s.world ∧
      (code = 20 ∧ reprogrammed boot (B.entries (B.order s.world)) = true ∧
          B.order s'.world = B.programmed boot (B.order s.world) ∨
        code = 0 ∧ reprogrammed boot (B.entries (B.order s.world)) = false ∧
          B.order s'.world = B.order s.world) := by
  unfold Tool.checkBoot at h
  obtain ⟨_, s₀, hpost, h⟩ := bind_eq_ok.mp h
  obtain ⟨-, hstored₀, horder₀, -⟩ := B.message_ok hpost
  obtain ⟨told, s₁, hget, h⟩ := bind_eq_ok.mp h
  obtain ⟨hget, -, -⟩ := call_eq_ok hget
  obtain ⟨rfl, hstored₁, horder₁⟩ := B.getBoot _ _ _ hget
  rw [horder₀] at h horder₁
  rw [hstored₀] at hstored₁
  by_cases hwrong : reprogrammed boot (B.entries (B.order s.world)) = true
  · rw [if_pos hwrong] at h
    obtain ⟨success, s₂, hset, h⟩ := bind_eq_ok.mp h
    obtain ⟨hset, -, -⟩ := call_eq_ok hset
    cases success with
    | false => cases h
    | true =>
      obtain ⟨hstored₂, horder₂⟩ := B.setBoot _ _ _ hset
      obtain ⟨_, s₃, hpost', h⟩ := bind_eq_ok.mp h
      obtain ⟨-, hstored₃, horder₃, -⟩ := B.message_ok hpost'
      cases h
      exact ⟨hstored₃.trans (hstored₂.trans hstored₁),
        .inl ⟨rfl, hwrong, horder₃.trans (horder₂.trans (by rw [horder₁]))⟩⟩
  · have hright : reprogrammed boot (B.entries (B.order s.world)) = false := by simpa using hwrong
    rw [if_neg hwrong] at h
    cases h
    exact ⟨hstored₁, .inr ⟨rfl, hright, horder₁⟩⟩

/-- What a boot has done with its status: items were set, or the boot order, or nothing. -/
inductive Leaves (config : Config) (world : σ) : Int → σ → Prop
  | items {world' : σ} (hless : B.unsettled config world' < B.unsettled config world)
    (horder : B.order world' = B.order world) : Leaves config world 20 world'
  | bootOrder {world' : σ} (hitems : B.unsettled config world = 0)
    (hstored : B.stored world' = B.stored world) (boot : List (List String))
    (hboot : config.boot = some boot)
    (hwrong : reprogrammed boot (B.entries (B.order world)) = true)
    (horder : B.order world' = B.programmed boot (B.order world)) : Leaves config world 20 world'
  | nothing {world' : σ} (hitems : B.unsettled config world = 0)
    (hstored : B.stored world' = B.stored world) (hright : B.Ordered config 0 world)
    (horder : B.order world' = B.order world) : Leaves config world 0 world'

/-- **What a boot leaves**: nothing is to be set after 0, and less, or another boot order, after
20. -/
theorem run_settles (hnodup : (config.items.map Item.place).Nodup) {s s' : State σ}
    {code : Int} (hworld : B.cached s.world = B.stored s.world) (hclean : s.dirty = false)
    (h : cfg.run platopxe config s = .ok code s') : B.Leaves config s.world code s'.world := by
  unfold Tool.run at h
  obtain ⟨_, s₁, hcount, h⟩ := bind_eq_ok.mp h
  obtain ⟨hcached₁, hstored₁, horder₁, hdirty₁⟩ := B.countBoot_ok hcount
  obtain ⟨_, s₂, hpassword, h⟩ := bind_eq_ok.mp h
  obtain ⟨hcached₂, hstored₂, horder₂, hdirty₂⟩ := B.password_ok hpassword
  obtain ⟨_, s₃, hpost, h⟩ := bind_eq_ok.mp h
  obtain ⟨hcached₃, hstored₃, horder₃, hdirty₃⟩ := B.message_ok hpost
  rw [hcached₂, hcached₁] at hcached₃
  rw [hstored₂, hstored₁] at hstored₃
  rw [horder₂, horder₁] at horder₃
  obtain ⟨_, s₄, hitems, h⟩ := bind_eq_ok.mp h
  have hkept := B.checkItems_kept hnodup (by rw [hcached₃, hstored₃, hworld])
    (hdirty₃.trans (hdirty₂.trans (hdirty₁.trans hclean))) hitems
  have hitems₃ : B.unsettled config s₃.world = B.unsettled config s.world := by
    rw [unsettled, unsettled, hstored₃]
  have horder₄ : B.order s₄.world = B.order s.world := hkept.order.trans horder₃
  rw [bind_ok (get_eq s₄)] at h
  rcases hkept.unsettled B with ⟨hdirty, hless⟩ | ⟨hdirty, hstored, hnone⟩
  · rw [if_pos hdirty] at h
    obtain ⟨_, s₅, hpost', h⟩ := bind_eq_ok.mp h
    obtain ⟨-, hstored₅, horder₅, -⟩ := B.message_ok hpost'
    cases h
    refine .items ?_ (horder₅.trans horder₄)
    rw [← hitems₃, unsettled, hstored₅]
    exact hless
  · rw [if_neg (by simp [hdirty])] at h
    rw [hitems₃] at hnone
    have hstored₄ : B.stored s₄.world = B.stored s.world := hstored.trans hstored₃
    have hdone (hright : B.Ordered config 0 s.world) :
        B.Leaves config s.world 0 s₄.world := .nothing hnone hstored₄ hright horder₄
    cases hboot : config.boot with
    | none =>
      rw [hboot] at h
      cases h
      refine hdone fun boot hsome => ?_
      rw [hboot] at hsome
      cases hsome
    | some boot =>
      rw [hboot] at h
      dsimp only at h
      by_cases hempty : boot = []
      · rw [if_pos hempty] at h
        cases h
        refine hdone fun boot' hsome => ?_
        rw [hboot, hempty] at hsome
        cases hsome
        rfl
      · rw [if_neg hempty] at h
        obtain ⟨hstored₅, hcode⟩ := B.checkBoot_ok h
        rw [horder₄] at hcode
        rcases hcode with ⟨rfl, hwrong, horder₅⟩ | ⟨rfl, hright, horder₅⟩
        · exact .bootOrder hnone (hstored₅.trans hstored₄) boot hboot hwrong horder₅
        · refine .nothing hnone (hstored₅.trans hstored₄) (fun boot' hsome => ?_) horder₅
          rw [hboot] at hsome
          cases hsome
          exact hright

end boot

end Board

end BiosCfg
