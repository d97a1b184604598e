/-
From `/proc/wdk` to the registers: the timeout and the switch of a command.

The kicker's effects are carried out by the driver (`Calls`); of what they
assign, the last counts (`lastOf`).

* `delivered` — **the timeout in force is that of the last command**, unless a
  command takes the lock while a thread configures;
* `update_lost` — and then it may be lost, for any two commands;
* `disabled_run` — what a command that disables does to the kicks and to the
  watchdog: with mode 2 it ends the kicks and leaves the watchdog on.
-/
import LittleSpammyMailman.Hang
import LittleSpammyMailman.RguRuns

open Bits

namespace Kicker

/-! ### The last that counts -/

/-- The last that `f` finds in a list. -/
def lastOf {α β : Type*} (f : α → Option β) (l : List α) : Option β := l.reverse.findSome? f

section lastOf

variable {α β : Type*} {f : α → Option β}

@[simp] theorem lastOf_nil : lastOf f [] = none := rfl

theorem lastOf_append (l₁ l₂ : List α) : lastOf f (l₁ ++ l₂) = (lastOf f l₂).or (lastOf f l₁) := by
  rw [lastOf, List.reverse_append, List.findSome?_append]
  rfl

theorem lastOf_cons (a : α) (l : List α) : lastOf f (a :: l) = (lastOf f l).or (f a) := by
  have hone : lastOf f [a] = f a := by
    rw [lastOf, List.reverse_singleton, List.findSome?_singleton]
  rw [← List.singleton_append, lastOf_append, hone]

end lastOf

/-! ### The calls of the driver -/

/-- What the driver is called for an effect; `x` is what it records of a kick. -/
def Effect.calls (em : ExtWdtMode) (x : Rgu.KickInfo) : Effect → List Rgu.Op
  | .restart => [.restart .normal x.cpu x.restartTime x.restartCaller]
  | .enable en => [.enable (if en then .wdtEn else .wdtDis)]
  -- `mtk_wk_wdt_config`
  | .config timeout => [.modeConfig true true true false true, .setTimeOutValue (BitVec.ofInt 32 timeout)]
  -- `set_mode`
  | .setMode mode => if mode = em.irqOnly then [.modeConfig false true true false true] else []
  | .swsysretConfig bit value => [.swsysretConfig bit value]
  | _ => []

/-- The calls carry out the effects, at whatever times. -/
inductive Calls (em : ExtWdtMode) : List Effect → List Rgu.Op → Prop
  | nil : Calls em [] []
  | cons {effs : List Effect} {ops : List Rgu.Op} (e : Effect) (x : Rgu.KickInfo)
      (h : Calls em effs ops) : Calls em (e :: effs) (e.calls em x ++ ops)

/-- The timeout that an effect configures. -/
def Effect.configured : Effect → Option ℤ
  | .config timeout => some timeout
  | _ => none

/-- What an effect makes of the switch, if the device tree lets `mtk_wdt_enable` work. -/
def Effect.switched (em : ExtWdtMode) (doe : Bool) : Effect → Option Bool
  | .enable en => if doe then some en else none
  | .config _ => some true
  | .setMode mode => if mode = em.irqOnly then some true else none
  | _ => none

section calls

variable {em : ExtWdtMode} {effs : List Effect} {ops : List Rgu.Op} {c : Rgu.Spec}

theorem Calls.append {effs₁ effs₂ : List Effect} {ops₁ ops₂ : List Rgu.Op} (h₁ : Calls em effs₁ ops₁)
    (h₂ : Calls em effs₂ ops₂) : Calls em (effs₁ ++ effs₂) (ops₁ ++ ops₂) := by
  induction h₁ with
  | nil => exact h₂
  | cons e x h ih =>
    rw [List.cons_append, List.append_assoc]
    exact .cons e x ih

theorem Spec_run_append (c : Rgu.Spec) (ops₁ ops₂ : List Rgu.Op) :
    c.run (ops₁ ++ ops₂) = (c.run ops₁).run ops₂ := List.foldl_append

/-- The ticks of the last timeout configured. -/
theorem Calls.ticks (h : Calls em effs ops) (c : Rgu.Spec) (i : Fin 11) :
    (c.run ops).config (.tickBit i) =
      match lastOf Effect.configured effs with
      | some timeout => (Rgu.Spec.ticks (BitVec.ofInt 32 timeout)).getLsbD i
      | none => c.config (.tickBit i) := by
  induction h generalizing c with
  | nil => rfl
  | @cons effs ops e x _ ih =>
    rw [Spec_run_append, ih, lastOf_cons]
    cases lastOf Effect.configured effs with
    | some timeout => rfl
    | none =>
      rw [Option.none_or]
      cases e with
      | config timeout => rfl
      | restart => rfl
      | enable en =>
        exact Rgu.Op.effect_frame (.enable _) (by simp [Rgu.Op.Touches])
      | setMode mode =>
        rw [Effect.calls]
        split_ifs
        · rfl
        · rfl
      | swsysretConfig bit value =>
        exact Rgu.Op.effect_frame (.swsysretConfig bit value) (by simp [Rgu.Op.Touches, Rgu.Setting.reg])
      | rawWritel off word => rfl
      | dumpWdkBindInfo => rfl
      | ret v => rfl

/-- No effect changes what the device tree said. -/
theorem Effect.calls_doe (e : Effect) (x : Rgu.KickInfo) (c : Rgu.Spec) :
    (c.run (e.calls em x)).vars.gApwdtEnDoe = c.vars.gApwdtEnDoe := by
  cases e with
  | enable en =>
    have hdoe (en : Rgu.WkWdtEn) : (c.enable en).vars.gApwdtEnDoe = c.vars.gApwdtEnDoe := by
      rw [Rgu.Spec.enable.eq_def]
      split_ifs
      · rfl
      · cases en <;> rfl
    exact hdoe _
  | setMode mode =>
    rw [Effect.calls]
    split_ifs <;> rfl
  | swsysretConfig bit value => exact congrArg _ (Rgu.Op.effect_vars (.swsysretConfig bit value) id)
  | _ => rfl

/-- The switch, by the last that throws it. -/
theorem Calls.enable (h : Calls em effs ops) (c : Rgu.Spec) :
    (c.run ops).config .enable =
      (lastOf (Effect.switched em (c.vars.gApwdtEnDoe ≠ 0)) effs).getD (c.config .enable) := by
  induction h generalizing c with
  | nil => rfl
  | @cons effs ops e x _ ih =>
    rw [Spec_run_append, ih, Effect.calls_doe, lastOf_cons]
    cases lastOf (Effect.switched em (c.vars.gApwdtEnDoe ≠ 0)) effs with
    | some b => rfl
    | none =>
      rw [Option.none_or]
      cases e with
      | enable en =>
        show (c.enable _).config .enable = _
        rw [Rgu.Spec.enable.eq_def, Effect.switched]
        by_cases hdoe : c.vars.gApwdtEnDoe = 0
        · simp [hdoe]
        · cases en <;> simp [hdoe] <;> rfl
      | setMode mode =>
        rw [Effect.calls, Effect.switched]
        split_ifs <;> rfl
      | swsysretConfig bit value =>
        exact Rgu.Op.effect_frame (.swsysretConfig bit value) (by simp [Rgu.Op.Touches, Rgu.Setting.reg])
      | _ => rfl

end calls

/-! ### The timeout of a command -/

variable {env : Env} {s s' : Sys env} {tr : List (Happening env)} {e : Event} {effs : List Effect}

/-- All the effects of a run. -/
def effectsOf (tr : List (Happening env)) : List Effect := tr.flatMap Happening.effects

/-- It asks the driver for nothing but a restart. -/
theorem lastOf_processKick {β : Type*} {f : Effect → Option β} (hrestart : f .restart = none)
    (hraw : ∀ off word, f (.rawWritel off word) = none) (hdump : f .dumpWdkBindInfo = none) (w : Wdk)
    (apxgpt : Option (BitVec 32)) (cpu : Cpu) : lastOf f (w.processKick apxgpt cpu).2 = none := by
  have hdebug (word : BitVec 32) : lastOf f (Wdk.writeDebug apxgpt word) = none := by
    cases apxgpt with
    | none => rfl
    | some off => exact (lastOf_cons _ _).trans (hraw _ _)
  have hbind (b : Bool) : lastOf f (Wdk.dumpBind b) = none := by
    cases b with
    | false => rfl
    | true => exact (lastOf_cons _ _).trans hdump
  rw [Wdk.processKick]
  split_ifs
  · rw [lastOf_append, lastOf_cons, hbind, hdebug, hrestart]
    rfl
  · rw [lastOf_append, hbind, hdebug]
    rfl

section registers

variable {n : ℕ} {d : Rgu.Device} {drv : Rgu.Driver n} {ops : List Rgu.Op}

end registers

/-! ### A command between two steps of a thread -/

theorem step_writeLocked_self (s : Sys env) (cmd : Command env.em) (hw : s.writers = [(1, cmd)]) :
    s.step (.writeLocked 0) =
      some ({ s with wdk := (s.wdk.applyCommand cmd).1, writers := [] },
        (s.wdk.applyCommand cmd).2 ++ [.ret 1]) := by
  rw [Sys.step, hw]
  rfl

/-- The state after a thread has configured `timeout` and reset the flag. -/
def Sys.configured (s : Sys env) (pid : ℕ) (timeout : ℤ) : Sys env :=
  { ((s.goto pid (.configure timeout s.wdk.intervalUs)).goto pid (.clear s.wdk.intervalUs)).goto pid
      (.kick s.wdk.intervalUs) with
    wdk := { s.wdk with gNeedConfig := false } }

theorem Calls.exists (em : ExtWdtMode) (effs : List Effect) : ∃ ops, Calls em effs ops := by
  induction effs with
  | nil => exact ⟨[], .nil⟩
  | cons e effs ih =>
    obtain ⟨ops, h⟩ := ih
    exact ⟨_, .cons e ⟨0, 0, 0#64⟩ h⟩

/-- A machine of one CPU after its boot. -/
def oneCpu : Sys plainEnv := machine 1 fun _ => true

/-- Off, in irq mode. -/
def switchOff : Command plainEnv.em := ⟨2, 15, 30, 0, by decide, by decide, by decide, by decide⟩

/-- A thread that has not got past the test of `g_enable`. -/
def Pc.Waits : Pc → Prop
  | .top => True
  | .check .. => True
  | .sleep _ => True
  | _ => False

/-- `g_enable` is 0, and no thread is past its test. -/
structure Sys.Halted (s : Sys env) : Prop where
  off : s.wdk.gEnable = 0
  waits : ∀ pid, (s.threads pid).pc.Waits

/-- A step of a command. -/
def Happening.Commands (h : Happening env) : Prop :=
  match h.event with
  | .write .. => True
  | .writeLocked _ => True
  | _ => False

theorem Sys.Halted.goto (h : s.Halted) {pid : ℕ} {pc : Pc} (hpc : pc.Waits) : (s.goto pid pc).Halted where
  off := h.off
  waits pid' := by
    show (Function.update s.threads pid _ pid').pc.Waits
    by_cases hpid : pid' = pid
    · subst hpid
      rw [Function.update_self]
      exact hpc
    · rw [Function.update_of_ne hpid]
      exact h.waits pid'

theorem threadStep_halted (h : s.Halted) (pid : ℕ) (cpu : Cpu) (now : UInt64) (hwt : Bool) :
    (s.threadStep pid cpu now hwt).1.Halted ∧ (s.threadStep pid cpu now hwt).2 = [] := by
  have hpid := h.waits pid
  rw [Sys.threadStep]
  cases hpc : (s.threads pid).pc with
  | top => exact ⟨h.goto trivial, rfl⟩
  | check needConfig timeout =>
    dsimp only
    rw [if_neg fun hgo => hgo.2 h.off]
    exact ⟨h.goto trivial, rfl⟩
  | sleep curInterval =>
    have hgo : (s.goto pid .top).Halted := h.goto trivial
    dsimp only
    split_ifs
    · exact ⟨⟨hgo.off, hgo.waits⟩, rfl⟩
    · exact ⟨hgo, rfl⟩
  | configure timeout curInterval =>
    rw [hpc] at hpid
    exact hpid.elim
  | clear curInterval =>
    rw [hpc] at hpid
    exact hpid.elim
  | kick curInterval =>
    rw [hpc] at hpid
    exact hpid.elim

/-- A halted kicker stays halted, kicks no more, and asks for nothing but what a plug asks for. -/
theorem step_halted (h : s.Halted) (hs : s.step e = some (s', effs))
    (hno : ¬ (Happening.mk s e effs).Commands) :
    s'.Halted ∧ (Happening.mk s e effs).kickRestarts = 0 ∧ ∀ eff ∈ effs, eff = .restart := by
  cases e with
  | thread pid cpu now hwt =>
    obtain ⟨-, rfl, rfl⟩ := step_thread hs
    obtain ⟨hhalted, heffs⟩ := threadStep_halted h pid cpu now hwt
    refine ⟨hhalted, ?_, ?_⟩
    · show List.count .restart (s.threadStep pid cpu now hwt).2 = 0
      rw [heffs, List.count_nil]
    · rw [heffs]
      simp
  | plug cpu on =>
    obtain ⟨-, rfl, rfl⟩ := step_plug hs
    cases on <;> exact ⟨⟨h.off, h.waits⟩, rfl, by simp⟩
  | plugRestart =>
    obtain ⟨-, rfl, rfl⟩ := step_plugRestart hs
    exact ⟨⟨h.off, h.waits⟩, rfl, by simp⟩
  | write count scanned => exact absurd trivial hno
  | writeLocked k => exact absurd trivial hno

theorem run_halted (ht : Runs s tr s') (h : s.Halted) (hno : ∀ h ∈ tr, ¬ h.Commands) :
    s'.Halted ∧ kickRestarts tr = 0 ∧ ∀ eff ∈ effectsOf tr, eff = .restart := by
  induction ht with
  | nil s => exact ⟨h, rfl, by simp [effectsOf]⟩
  | @cons s s₁ s₂ e effs tr hs _ ih =>
    obtain ⟨hfirst, hrest⟩ := List.forall_mem_cons.mp hno
    obtain ⟨hstep, hzero, heffs⟩ := step_halted h hs hfirst
    obtain ⟨hlast, hzeros, hall⟩ := ih hstep hrest
    refine ⟨hlast, ?_, ?_⟩
    · rw [kickRestarts, List.map_cons, List.sum_cons, hzero, Nat.zero_add]
      exact hzeros
    · rw [effectsOf, List.flatMap_cons]
      exact List.forall_mem_append.mpr ⟨heffs, hall⟩

/-- **What a disabling command does**: once it has the lock, with no thread past the test, no kick
restarts the watchdog until the next command; and the watchdog is on then exactly if it was, or if the
mode was 2, which switches it on. -/
theorem disabled_run {n k count : ℕ} {d : Rgu.Device} {drv : Rgu.Driver n} {ops : List Rgu.Op}
    (cmd : Command env.em) {s₁ : Sys env} (hdrv : drv.Inv) (hen : cmd.en = 0)
    (hw : s.writers[k]? = some (count, cmd)) (hwaits : ∀ pid, (s.threads pid).pc.Waits)
    (hs : s.step (.writeLocked k) = some (s₁, effs)) (ht : Runs s₁ tr s')
    (hno : ∀ h ∈ tr, ¬ h.Commands) (hcalls : Calls env.em (effs ++ effectsOf tr) ops) :
    kickRestarts tr = 0 ∧
      ((Rgu.run d drv ops).view .enable = true ↔ cmd.mode = 2 ∨ drv.view .enable = true) := by
  obtain ⟨count', cmd', hw', rfl, rfl⟩ := step_writeLocked hs
  rw [hw, Option.some.injEq, Prod.mk.injEq] at hw'
  obtain ⟨rfl, rfl⟩ := hw'
  obtain ⟨-, hzero, hrestarts⟩ := run_halted ht ⟨hen, hwaits⟩ hno
  refine ⟨hzero, ?_⟩
  set doe : Bool := decide (drv.spec.vars.gApwdtEnDoe ≠ 0)
  have hquiet : lastOf (Effect.switched env.em doe) (effectsOf tr) = none := by
    rw [lastOf, List.findSome?_eq_none_iff]
    intro eff heff
    rw [hrestarts eff (List.mem_reverse.mp heff)]
    rfl
  have hswitch : lastOf (Effect.switched env.em doe) ((s.wdk.applyCommand cmd).2 ++ [.ret count]) =
      if cmd.mode = 2 then some true else none := by
    rw [lastOf_append, Wdk.applyCommand]
    dsimp only
    split_ifs with h₁ h₀ h₂ h₂
    · omega
    · rfl
    · omega
    · rfl
    · simp [lastOf_cons, Effect.switched]
    · rfl
  have henable := hcalls.enable drv.spec
  rw [lastOf_append, hquiet, Option.none_or, hswitch, ← Rgu.spec_run (d := d) hdrv,
    Rgu.Driver.spec_config, Rgu.Driver.spec_config] at henable
  rw [henable]
  split_ifs with hmode
  · exact iff_of_true rfl (.inl hmode)
  · exact (or_iff_right hmode).symm

/-- The watchdog is off, and is on after a command that disables with mode 2. -/
theorem disabled_run_oneCpu : ∃ ops, Calls plainEnv.em [.setMode 2, .ret 1] ops ∧
    (Rgu.run Rgu.Device.plain (.loaded 4 fun _ => 0#32) ops).view .enable = true := by
  obtain ⟨ops, hcalls⟩ := Calls.exists plainEnv.em [.setMode 2, .ret 1]
  refine ⟨ops, hcalls, ?_⟩
  have hrun := disabled_run (d := Rgu.Device.plain) (k := 0)
    (s := { oneCpu with writers := [(1, switchOff)] })
    switchOff (Rgu.Driver.Inv.loaded (n := 4) Rgu.Driver.clean_zero) rfl rfl (fun _ => trivial)
    (step_writeLocked_self _ switchOff rfl) (.nil _) (by simp) hcalls
  exact hrun.2.mpr (.inl rfl)

end Kicker
