/-
The watchdog kicker of `wd_common_drv.c`: one thread for each CPU, the hotplug
callbacks and `/proc/wdk`, interleaved at the points where they take `lock`.

A thread is its program counter in `kwdt_thread`; the callbacks and a write of
`/proc/wdk` do one thing before the lock or after it, so each of them is two
steps.

* `Wdk.Fits.processKick` — a kick restarts the watchdog exactly if it
  completes the CPUs to wait for;
* `run_refines` — the CPU masks and the hang flag over any run are the rounds
  of `Barrier`;
* `boot_fits` — the state at the start is the first of them.
-/
import LittleSpammyMailman.Barrier
import LittleSpammyMailman.Bits

open Bits

namespace Kicker

/-- The tables have room for 16 CPUs. -/
abbrev Cpu := Fin 16

/-- The values of `enum ext_wdt_mode`. -/
structure ExtWdtMode where
  irqOnly : ℤ
  hwRebootOnly : ℤ
  dual : ℤ

/-- What the kicker asks of the watchdog driver and leaves behind. -/
inductive Effect
  /-- `mtk_wdt_restart(WD_TYPE_NORMAL)` -/
  | restart
  /-- `mtk_wdt_enable` with `WK_WDT_EN` or `WK_WDT_DIS`. -/
  | enable (en : Bool)
  /-- `wd_config(WDT_DUAL_MODE, timeout)` -/
  | config (timeout : ℤ)
  /-- `wd_set_mode` -/
  | setMode (mode : ℤ)
  /-- `mtk_wdt_swsysret_config` -/
  | swsysretConfig (bit : BitVec 32) (value : ℤ)
  /-- `__raw_writel` to `apxgpt_base`. -/
  | rawWritel (off word : BitVec 32)
  | dumpWdkBindInfo
  /-- What the write of `/proc/wdk` returns. -/
  | ret (v : ℤ)
  deriving DecidableEq

/-- The state under `lock`. -/
structure Wdk where
  kickBit : BitVec 64
  cpusKickBit : BitVec 32
  gHangDetected : Bool
  gNeedConfig : Bool
  gTimeout : ℤ
  gKinterval : ℤ
  gEnable : ℤ
  gWkWdtMode : ℤ
  gNxtKickTime : UInt64
  /-- The process of `wk_tsk[cpu]`, if there is one. -/
  wkTsk : Cpu → Option ℕ
  gKickerInit : Bool
  wdtStart : Bool
  /-- `g_wd_api` is set and ready. -/
  ready : Bool

namespace Wdk

/-! ### Hotplug -/

/-- `wk_cpu_update_bit_flag` -/
def cpuUpdateBitFlag (s : Wdk) (cpu : Cpu) (plugOn : Bool) : Wdk :=
  if plugOn then
    { s with cpusKickBit := s.cpusKickBit ||| bit 32 cpu, kickBit := 0#64, gHangDetected := false }
  else
    { s with cpusKickBit := s.cpusKickBit &&& ~~~ bit 32 cpu, kickBit := 0#64, gHangDetected := false }

/-! ### A kick -/

/-- `g_kinterval*1000*1000`, as it is used. -/
def intervalUs (s : Wdk) : UInt64 := UInt64.ofInt (s.gKinterval * 1000 * 1000)

/-- Under `KWDT_KICK_TIME_ALIGN`: the time of the next kick, and how long to sleep. The difference
is unsigned, so a kick that is late gives a huge one, which the last test cuts down. -/
def alignKick (s : Wdk) (now : UInt64) : Wdk × UInt64 :=
  let r := if s.kickBit = 0#64 then ({ s with gNxtKickTime := now + s.intervalUs }, s.intervalUs)
    else (s, s.gNxtKickTime - now)
  (r.1, if s.intervalUs < r.2 then s.intervalUs else r.2)

/-- The word for ATF: the "DB" signature, the kicks and the CPUs to wait for. -/
def debugWord (localBit check : BitVec 32) : BitVec 32 :=
  0x4442#32 <<< 16 ||| (localBit &&& 0xFF#32) <<< 8 ||| (check &&& 0xFF#32)

/-- Where it goes, if the timer is mapped; `kick_dbg_off` 0 stands for the default. -/
def writeDebug (apxgpt : Option (BitVec 32)) (word : BitVec 32) : List Effect :=
  match apxgpt with
  | none => []
  | some off => [.rawWritel (if off ≠ 0 then off else 0x7c) word]

/-- The dump of a first timeout. -/
def dumpBind (dumpTimeout : Bool) : List Effect := if dumpTimeout then [.dumpWdkBindInfo] else []

/-- `local_bit` after the CPU's own bit, the hang flag, and whether to dump. -/
def markKick (s : Wdk) (cpu : Cpu) : BitVec 32 × Bool × Bool :=
  let localBit := s.kickBit.setWidth 32
  if localBit &&& bit 32 cpu = 0#32 then (localBit ||| bit 32 cpu, s.gHangDetected, false)
  else if s.gHangDetected = false then (localBit, true, true)
  else (localBit, s.gHangDetected, false)

/-- `kwdt_process_kick` -/
def processKick (apxgpt : Option (BitVec 32)) (s : Wdk) (cpu : Cpu) : Wdk × List Effect :=
  let m := s.markKick cpu
  if m.1 = s.cpusKickBit then
    ({ s with kickBit := 0#64, gHangDetected := false },
      .restart :: writeDebug apxgpt (debugWord 0#32 s.cpusKickBit) ++ dumpBind m.2.2)
  else
    ({ s with kickBit := m.1.signExtend 64, gHangDetected := m.2.1 },
      writeDebug apxgpt (debugWord m.1 s.cpusKickBit) ++ dumpBind m.2.2)

end Wdk

/-! ### `/proc/wdk` -/

/-- A command that `wk_proc_cmd_write` accepts. -/
structure Command (em : ExtWdtMode) where
  mode : ℤ
  kinterval : ℤ
  timeout : ℤ
  en : ℤ
  one_le : 1 ≤ kinterval
  le_timeout : kinterval ≤ timeout
  timeout_le : timeout ≤ 30
  mode_mem : mode = em.irqOnly ∨ mode = em.hwRebootOnly ∨ mode = em.dual

/-- The checks of `wk_proc_cmd_write`, on what `sscanf` found. -/
def checkCommand (em : ExtWdtMode) (count : ℕ) (scanned : Option (ℤ × ℤ × ℤ × ℤ)) :
    Option (Command em) :=
  if count = 0 then none
  else match scanned with
    | none => none
    | some (mode, kinterval, timeout, en) =>
      if hle : timeout < kinterval then none
      else if ht : timeout < 1 ∨ 30 < timeout then none
      else if hk : kinterval < 1 ∨ 30 < kinterval then none
      else if hm : ¬ (mode = em.irqOnly ∨ mode = em.hwRebootOnly ∨ mode = em.dual) then none
      else some ⟨mode, kinterval, timeout, en, by omega, by omega, by omega, not_not.mp hm⟩

/-- What it does before it takes the lock. -/
def Command.enables {em : ExtWdtMode} (cmd : Command em) : List Effect :=
  if cmd.en = 1 then [.enable true] else if cmd.en = 0 then [.enable false] else []

/-- What it does with the lock held. -/
def Wdk.applyCommand {em : ExtWdtMode} (s : Wdk) (cmd : Command em) : Wdk × List Effect :=
  ({ s with gEnable := cmd.en, gKinterval := cmd.kinterval, gWkWdtMode := cmd.mode,
            gTimeout := cmd.timeout,
            gNeedConfig := if cmd.mode ≠ 2 then true else s.gNeedConfig },
    if cmd.mode = 1 then [.swsysretConfig 0x20000000 1]
    else if cmd.mode = 0 then [.swsysretConfig 0x20000000 0]
    else if cmd.mode = 2 then [.setMode em.irqOnly]
    else [])

/-! ### The interleaving -/

/-- Where `kwdt_thread` stands: before it reads the configuration, the test of `g_enable`, the call
of `wd_config`, the reset of the flag, the kick, and `usleep_range`. -/
inductive Pc
  | top
  | check (needConfig : Bool) (timeout : ℤ)
  | configure (timeout : ℤ) (curInterval : UInt64)
  | clear (curInterval : UInt64)
  | kick (curInterval : UInt64)
  | sleep (curInterval : UInt64)

/-- A thread: its place, and its variable `cpu`. -/
structure Thread where
  pc : Pc
  cpu : Cpu

/-- What is fixed: the enumeration, and `kick_dbg_off` if the timer is mapped. -/
structure Env where
  em : ExtWdtMode
  apxgpt : Option (BitVec 32)

/-- The whole system. -/
structure Sys (env : Env) where
  wdk : Wdk
  threads : ℕ → Thread
  /-- The hotplug callback that has changed the masks and has yet to restart the watchdog. -/
  plugging : Option (Cpu × Bool)
  /-- The accepted commands that wait for the lock, and the `count` of each. -/
  writers : List (ℕ × Command env.em)

/-- What can happen next. -/
inductive Event
  /-- The next step of a thread, on a CPU and at a time; `forceHwt` is what
  `aee_kernel_wdt_kick_api` says after the sleep. -/
  | thread (pid : ℕ) (cpu : Cpu) (now : UInt64) (forceHwt : Bool)
  | plug (cpu : Cpu) (on : Bool)
  | plugRestart
  | write (count : ℕ) (scanned : Option (ℤ × ℤ × ℤ × ℤ))
  | writeLocked (n : ℕ)

variable {env : Env}

namespace Sys

/-- The thread goes on at `pc`. -/
def goto (s : Sys env) (pid : ℕ) (pc : Pc) : Sys env :=
  { s with threads := Function.update s.threads pid ⟨pc, (s.threads pid).cpu⟩ }

/-- One step of `kwdt_thread`. -/
def threadStep (s : Sys env) (pid : ℕ) (cpu : Cpu) (now : UInt64) (forceHwt : Bool) :
    Sys env × List Effect :=
  match (s.threads pid).pc with
  | .top => (s.goto pid (.check s.wdk.gNeedConfig s.wdk.gTimeout), [])
  | .check needConfig timeout =>
    if s.wdk.ready ∧ s.wdk.gEnable ≠ 0 then
      (s.goto pid (if needConfig then .configure timeout s.wdk.intervalUs
        else .kick s.wdk.intervalUs), [])
    else (s.goto pid (.sleep s.wdk.intervalUs), [])
  | .configure timeout curInterval => (s.goto pid (.clear curInterval), [.config timeout])
  | .clear curInterval =>
    ({ s.goto pid (.kick curInterval) with wdk := { s.wdk with gNeedConfig := false } }, [])
  | .kick curInterval =>
    -- only thread x on CPU x kicks
    if s.wdk.wkTsk cpu = some pid then
      let a := s.wdk.alignKick now
      let k := a.1.processKick env.apxgpt cpu
      ({ s with wdk := k.1, threads := Function.update s.threads pid ⟨.sleep a.2, cpu⟩ }, k.2)
    else ({ s with threads := Function.update s.threads pid ⟨.sleep curInterval, cpu⟩ }, [])
  | .sleep _ =>
    if (s.threads pid).cpu = 0 ∧ s.wdk.wkTsk 0 = some pid ∧ forceHwt then
      ({ s.goto pid .top with wdk := { s.wdk with cpusKickBit := 0xFFFF#32 } }, [])
    else (s.goto pid .top, [])

/-- One step of the system; `none` where the event cannot happen. Hotplug operations exclude one
another, and commands wait for `lock` in any order. -/
def step (s : Sys env) : Event → Option (Sys env × List Effect)
  | .thread pid cpu now forceHwt =>
    if ∃ c, s.wdk.wkTsk c = some pid then some (s.threadStep pid cpu now forceHwt) else none
  | .plug cpu on =>
    match s.plugging with
    | none => some ({ s with wdk := s.wdk.cpuUpdateBitFlag cpu on, plugging := some (cpu, on) }, [])
    | some _ => none
  | .plugRestart =>
    match s.plugging with
    | none => none
    | some _ => some ({ s with plugging := none }, [.restart])
  | .write count scanned =>
    match checkCommand env.em count scanned with
    | none => some (s, [.ret (-1)])
    | some cmd => some ({ s with writers := s.writers ++ [(min count 255, cmd)] }, cmd.enables)
  | .writeLocked n =>
    match s.writers[n]? with
    | none => none
    | some (count, cmd) =>
      let r := s.wdk.applyCommand cmd
      some ({ s with wdk := r.1, writers := s.writers.eraseIdx n }, r.2 ++ [.ret count])

end Sys

/-! ### Start -/

/-- `init_wk_check_bit`, then what `wdk_work_callback` finds online. -/
def initFlags (nr : ℕ) (online : Cpu → Bool) (s : Wdk) : Wdk :=
  let cpus := (List.finRange 16).filter (·.val < nr)
  let s := cpus.foldl (fun s i => s.cpuUpdateBitFlag i true) s
  cpus.foldl (fun s i => s.cpuUpdateBitFlag i (online i)) s

/-- `start_kicker`: the threads up to the first that `kthread_create` refuses. -/
def startKicker (create : Cpu → Option ℕ) : List Cpu → Wdk → Wdk
  | [], s => { s with gKickerInit := true }
  | i :: is, s =>
    match create i with
    | none => s
    | some pid => startKicker create is { s with wkTsk := Function.update s.wkTsk i (some pid) }

/-- The variables at load time. -/
def loaded (em : ExtWdtMode) : Wdk where
  kickBit := 0#64
  cpusKickBit := 0#32
  gHangDetected := false
  gNeedConfig := false
  gTimeout := -1
  gKinterval := -1
  gEnable := 1
  gWkWdtMode := em.dual
  gNxtKickTime := 0
  wkTsk _ := none
  gKickerInit := false
  wdtStart := false
  ready := false

/-- `wdk_work_callback` on a machine of `nr` CPUs. -/
def boot (env : Env) (nr : ℕ) (online : Cpu → Bool) (ready : Bool) (create : Cpu → Option ℕ) :
    Sys env where
  wdk := startKicker create ((List.finRange 16).filter (·.val < nr))
    { initFlags nr online (loaded env.em) with
      ready, gKinterval := 15, gNeedConfig := false, wdtStart := true }
  threads _ := ⟨.top, 0⟩
  plugging := none
  writers := []

/-! ### Runs -/

/-- What an event is for the round of kicks. -/
def Sys.observe (s : Sys env) : Event → Option (Barrier.Event Cpu)
  | .thread pid cpu _ forceHwt =>
    match (s.threads pid).pc with
    | .kick _ => if s.wdk.wkTsk cpu = some pid then some (.arrive cpu) else none
    | .sleep _ => if (s.threads pid).cpu = 0 ∧ s.wdk.wkTsk 0 = some pid ∧ forceHwt then
        some (.expect Finset.univ) else none
    | _ => none
  | .plug cpu on => some (if on then .join cpu else .leave cpu)
  | _ => none

/-- A step that was taken: where, the event, and what it did. -/
structure Happening (env : Env) where
  before : Sys env
  event : Event
  effects : List Effect

/-- The runs of the system. -/
inductive Runs : Sys env → List (Happening env) → Sys env → Prop
  | nil (s : Sys env) : Runs s [] s
  | cons {s s' s'' : Sys env} {e : Event} {effs : List Effect} {tr : List (Happening env)}
      (h : s.step e = some (s', effs)) (t : Runs s' tr s'') : Runs s (⟨s, e, effs⟩ :: tr) s''

theorem Runs.append {s s₁ s' : Sys env} {tr tr₁ : List (Happening env)} (h : Runs s tr s₁)
    (h' : Runs s₁ tr₁ s') : Runs s (tr ++ tr₁) s' := by
  induction h with
  | nil s => exact h'
  | cons hs _ ih => exact .cons hs (ih h')

/-- The restarts of the watchdog by a kick. -/
def Happening.kickRestarts (h : Happening env) : ℕ :=
  match h.event with
  | .thread .. => h.effects.count .restart
  | _ => 0

/-- All of them in a run. -/
def kickRestarts (tr : List (Happening env)) : ℕ := (tr.map Happening.kickRestarts).sum

/-- A run as events of the round. -/
def seen (tr : List (Happening env)) : List (Barrier.Event Cpu) :=
  tr.filterMap fun h => h.before.observe h.event

theorem seen_cons (h : Happening env) (tr : List (Happening env)) :
    seen (h :: tr) = (h.before.observe h.event).toList ++ seen tr := by
  rw [seen, List.filterMap_cons]
  cases h.before.observe h.event <;> rfl

/-! ### One kick -/

/-- The CPUs to wait for. -/
def Wdk.watched (s : Wdk) : Finset Cpu := places 16 s.cpusKickBit

/-- The CPUs that have kicked. -/
def Wdk.kicked (s : Wdk) : Finset Cpu := places 16 s.kickBit

/-- The state is that of the round. -/
structure Wdk.Fits (s : Wdk) (r : Barrier.Round Cpu) : Prop where
  small_check : Small 16 s.cpusKickBit
  small_kick : Small 16 s.kickBit
  members : s.watched = r.members
  arrived : s.kicked = r.arrived
  hang : s.gHangDetected = true ↔ r.Repeated

section fits

variable {s t : Wdk} {r : Barrier.Round Cpu} {cpu : Cpu} {apxgpt : Option (BitVec 32)}

/-- Only the masks and the flag count. -/
theorem Wdk.Fits.congr (h : s.Fits r) (hc : t.cpusKickBit = s.cpusKickBit)
    (hk : t.kickBit = s.kickBit) (hh : t.gHangDetected = s.gHangDetected) : t.Fits r where
  small_check := hc ▸ h.small_check
  small_kick := hk ▸ h.small_kick
  members := by rw [watched, hc]; exact h.members
  arrived := by rw [kicked, hk]; exact h.arrived
  hang := hh ▸ h.hang

theorem not_repeated_nil (S : Finset Cpu) : ¬ (Barrier.Round.mk S []).Repeated :=
  not_not.mpr List.nodup_nil

theorem Wdk.Fits.plugOn (h : s.Fits r) (cpu : Cpu) :
    (s.cpuUpdateBitFlag cpu true).Fits (r.step (.join cpu)) where
  small_check := h.small_check.or_bit cpu
  small_kick := small_zero
  members := by
    show places 16 (s.cpusKickBit ||| bit 32 cpu) = insert cpu r.members
    rw [places_or_bit (by omega), ← h.members]
    rfl
  arrived := places_zero
  hang := ⟨fun h => absurd h Bool.false_ne_true, fun h => absurd h (not_repeated_nil _)⟩

theorem Wdk.Fits.plugOff (h : s.Fits r) (cpu : Cpu) :
    (s.cpuUpdateBitFlag cpu false).Fits (r.step (.leave cpu)) where
  small_check := h.small_check.and _
  small_kick := small_zero
  members := by
    show places 16 (s.cpusKickBit &&& ~~~ bit 32 cpu) = r.members.erase cpu
    rw [places_and_not_bit (by omega), ← h.members]
    rfl
  arrived := places_zero
  hang := ⟨fun h => absurd h Bool.false_ne_true, fun h => absurd h (not_repeated_nil _)⟩

theorem Wdk.Fits.forceHwt (h : s.Fits r) :
    ({ s with cpusKickBit := 0xFFFF#32 } : Wdk).Fits (r.step (.expect Finset.univ)) where
  small_check i hi := by
    rw [BitVec.getLsbD_ofNat, Nat.testBit_lt_two_pow, Bool.and_false]
    calc 0xFFFF < 2 ^ 16 := by norm_num
      _ ≤ 2 ^ i := Nat.pow_le_pow_right two_pos hi
  small_kick := h.small_kick
  members := by
    show places 16 0xFFFF#32 = Finset.univ
    decide
  arrived := h.arrived
  hang := h.hang

/-- What a kick makes of the mask: the arrival, and the flag of a second one. -/
theorem Wdk.Fits.markKick (h : s.Fits r) (cpu : Cpu) :
    places 16 (s.markKick cpu).1 = insert cpu r.arrived ∧ Small 16 (s.markKick cpu).1 ∧
      ((s.markKick cpu).2.1 = true ↔ (Barrier.Round.mk r.members (cpu :: r.arrivals)).Repeated) := by
  have hplaces : places 16 (s.kickBit.setWidth 32) = r.arrived := by
    rw [places_setWidth (by omega), ← h.arrived]
    rfl
  have hclear : s.kickBit.setWidth 32 &&& bit 32 cpu = 0#32 ↔ cpu ∉ r.arrivals := by
    rw [and_bit_eq_zero_iff (by omega), hplaces, Barrier.Round.arrived, List.mem_toFinset]
  have hnodup : (Barrier.Round.mk r.members (cpu :: r.arrivals)).Repeated ↔
      cpu ∈ r.arrivals ∨ r.Repeated := by
    rw [Barrier.Round.Repeated, List.nodup_cons, not_and_or, not_not]
    rfl
  have hsame (hin : cpu ∈ r.arrivals) : r.arrived = insert cpu r.arrived :=
    (Finset.insert_eq_self.mpr (List.mem_toFinset.mpr hin)).symm
  have hsmall := Small.setWidth (v := 32) h.small_kick
  rw [Wdk.markKick, hnodup]
  simp only [hclear]
  split_ifs with hin hflag
  · exact ⟨hplaces.trans (hsame hin), hsmall, iff_of_true rfl (.inl hin)⟩
  · exact ⟨hplaces.trans (hsame hin), hsmall,
      iff_of_true (Bool.eq_true_of_not_eq_false hflag) (.inl hin)⟩
  · exact ⟨by rw [places_or_bit (by omega), hplaces], hsmall.or_bit cpu,
      by rw [h.hang, or_iff_right hin]⟩

theorem count_writeDebug (apxgpt : Option (BitVec 32)) (word : BitVec 32) :
    (Wdk.writeDebug apxgpt word).count .restart = 0 := by
  cases apxgpt <;> simp [Wdk.writeDebug]

theorem count_dumpBind (b : Bool) : (Wdk.dumpBind b).count .restart = 0 := by
  cases b <;> rfl

/-- **A kick restarts** the watchdog exactly if it completes the round. -/
theorem Wdk.Fits.processKick (h : s.Fits r) (apxgpt : Option (BitVec 32)) (cpu : Cpu) :
    (s.processKick apxgpt cpu).1.Fits (r.step (.arrive cpu)) ∧
      (s.processKick apxgpt cpu).2.count .restart = if r.Releases (.arrive cpu) then 1 else 0 := by
  obtain ⟨hplaces, hsmall, hhang⟩ := h.markKick cpu
  have hiff : (s.markKick cpu).1 = s.cpusKickBit ↔ insert cpu r.arrived = r.members := by
    rw [eq_iff_places hsmall h.small_check, hplaces, ← h.members]
    rfl
  rw [Wdk.processKick, Barrier.Round.step]
  by_cases hall : insert cpu r.arrived = r.members
  · rw [if_pos (hiff.mpr hall), if_pos hall, if_pos (show r.Releases (.arrive cpu) from hall)]
    refine ⟨⟨h.small_check, small_zero, h.members, places_zero, ?_⟩, ?_⟩
    · exact ⟨fun h => absurd h Bool.false_ne_true, fun h => absurd h (not_repeated_nil _)⟩
    · rw [List.cons_append, List.count_cons_self, List.count_append, count_writeDebug,
        count_dumpBind]
  · rw [if_neg (mt hiff.mp hall), if_neg hall, if_neg (show ¬ r.Releases (.arrive cpu) from hall)]
    refine ⟨⟨h.small_check, hsmall.signExtend (by omega), h.members, ?_, hhang⟩, ?_⟩
    · show places 16 ((s.markKick cpu).1.signExtend 64) = _
      rw [← places_setWidth (v := 32) (by omega), setWidth_signExtend (by omega), hplaces,
        Barrier.Round.arrived_mk_cons]
    · rw [List.count_append, count_writeDebug, count_dumpBind]

end fits

/-! ### A run -/

section refinement

variable {s s' : Sys env} {r : Barrier.Round Cpu} {e : Event} {effs : List Effect}
  {tr : List (Happening env)}

theorem alignKick_fits {w : Wdk} (h : w.Fits r) (now : UInt64) : (w.alignKick now).1.Fits r := by
  rw [Wdk.alignKick]
  split_ifs
  all_goals exact h.congr rfl rfl rfl

/-- At the test of its CPU, a thread on its own kicks and goes to sleep. -/
theorem Sys.threadStep_kick {pid : ℕ} {cpu : Cpu} {now cur : UInt64} {hwt : Bool}
    (hpc : (s.threads pid).pc = .kick cur) (htsk : s.wdk.wkTsk cpu = some pid) :
    s.threadStep pid cpu now hwt =
      ({ s with
          wdk := ((s.wdk.alignKick now).1.processKick env.apxgpt cpu).1
          threads := Function.update s.threads pid ⟨.sleep (s.wdk.alignKick now).2, cpu⟩ },
        ((s.wdk.alignKick now).1.processKick env.apxgpt cpu).2) := by
  rw [threadStep, hpc]
  exact if_pos htsk

/-- On another it only goes to sleep. -/
theorem Sys.threadStep_pass {pid : ℕ} {cpu : Cpu} {now cur : UInt64} {hwt : Bool}
    (hpc : (s.threads pid).pc = .kick cur) (htsk : s.wdk.wkTsk cpu ≠ some pid) :
    s.threadStep pid cpu now hwt =
      ({ s with threads := Function.update s.threads pid ⟨.sleep cur, cpu⟩ }, []) := by
  rw [threadStep, hpc]
  exact if_neg htsk

/-- What a step of a thread is for the round. -/
theorem threadStep_refines (h : s.wdk.Fits r) (pid : ℕ) (cpu : Cpu) (now : UInt64) (hwt : Bool) :
    (s.threadStep pid cpu now hwt).1.wdk.Fits
        (r.run (s.observe (.thread pid cpu now hwt)).toList) ∧
      (s.threadStep pid cpu now hwt).2.count .restart =
        r.releases (s.observe (.thread pid cpu now hwt)).toList := by
  rw [Sys.threadStep, Sys.observe]
  cases hpc : (s.threads pid).pc with
  | top => exact ⟨h, rfl⟩
  | check needConfig timeout =>
    dsimp only
    split_ifs
    all_goals exact ⟨h, rfl⟩
  | configure timeout curInterval => exact ⟨h, rfl⟩
  | clear curInterval => exact ⟨h.congr rfl rfl rfl, rfl⟩
  | kick curInterval =>
    dsimp only
    split_ifs
    · have hk := (alignKick_fits h now).processKick env.apxgpt cpu
      simpa [Barrier.Round.releases] using hk
    · exact ⟨h, rfl⟩
  | sleep curInterval =>
    dsimp only
    split_ifs
    · exact ⟨h.forceHwt, rfl⟩
    · exact ⟨h, rfl⟩

theorem step_thread {pid : ℕ} {cpu : Cpu} {now : UInt64} {hwt : Bool}
    (h : s.step (.thread pid cpu now hwt) = some (s', effs)) :
    (∃ c, s.wdk.wkTsk c = some pid) ∧ s' = (s.threadStep pid cpu now hwt).1 ∧
      effs = (s.threadStep pid cpu now hwt).2 := by
  rw [Sys.step] at h
  split_ifs at h with hexists
  have heq := Option.some.inj h
  exact ⟨hexists, by rw [heq], by rw [heq]⟩

theorem step_plug {cpu : Cpu} {on : Bool} (h : s.step (.plug cpu on) = some (s', effs)) :
    s.plugging = none ∧ s' = { s with wdk := s.wdk.cpuUpdateBitFlag cpu on, plugging := some (cpu, on) } ∧
      effs = [] := by
  rw [Sys.step] at h
  cases hp : s.plugging with
  | some p =>
    rw [hp] at h
    cases h
  | none =>
    rw [hp] at h
    cases h
    exact ⟨rfl, rfl, rfl⟩

theorem step_plugRestart (h : s.step .plugRestart = some (s', effs)) :
    s.plugging ≠ none ∧ s' = { s with plugging := none } ∧ effs = [.restart] := by
  rw [Sys.step] at h
  cases hp : s.plugging with
  | none =>
    rw [hp] at h
    cases h
  | some p =>
    rw [hp] at h
    cases h
    exact ⟨Option.some_ne_none p, rfl, rfl⟩

/-- A write is refused and changes nothing, or waits for the lock. -/
theorem step_write {count : ℕ} {scanned : Option (ℤ × ℤ × ℤ × ℤ)}
    (h : s.step (.write count scanned) = some (s', effs)) :
    (checkCommand env.em count scanned = none ∧ s' = s ∧ effs = [.ret (-1)]) ∨
      ∃ cmd, checkCommand env.em count scanned = some cmd ∧
        s' = { s with writers := s.writers ++ [(min count 255, cmd)] } ∧ effs = cmd.enables := by
  rw [Sys.step] at h
  cases hc : checkCommand env.em count scanned with
  | none =>
    rw [hc] at h
    cases h
    exact .inl ⟨rfl, rfl, rfl⟩
  | some cmd =>
    rw [hc] at h
    cases h
    exact .inr ⟨cmd, rfl, rfl, rfl⟩

theorem step_writeLocked {n : ℕ} (h : s.step (.writeLocked n) = some (s', effs)) :
    ∃ count cmd, s.writers[n]? = some (count, cmd) ∧
      s' = { s with wdk := (s.wdk.applyCommand cmd).1, writers := s.writers.eraseIdx n } ∧
      effs = (s.wdk.applyCommand cmd).2 ++ [.ret count] := by
  rw [Sys.step] at h
  cases hw : s.writers[n]? with
  | none =>
    rw [hw] at h
    cases h
  | some w =>
    rw [hw] at h
    cases h
    exact ⟨w.1, w.2, rfl, rfl, rfl⟩

/-- One step of the system. -/
theorem step_refines (h : s.wdk.Fits r) (hs : s.step e = some (s', effs)) :
    s'.wdk.Fits (r.run (s.observe e).toList) ∧
      (Happening.mk s e effs).kickRestarts = r.releases (s.observe e).toList := by
  cases e with
  | thread pid cpu now hwt =>
    obtain ⟨-, rfl, rfl⟩ := step_thread hs
    exact threadStep_refines h pid cpu now hwt
  | plug cpu on =>
    obtain ⟨-, rfl, rfl⟩ := step_plug hs
    cases on with
    | true => exact ⟨h.plugOn cpu, rfl⟩
    | false => exact ⟨h.plugOff cpu, rfl⟩
  | plugRestart =>
    obtain ⟨-, rfl, rfl⟩ := step_plugRestart hs
    exact ⟨h, rfl⟩
  | write count scanned =>
    rcases step_write hs with ⟨-, rfl, rfl⟩ | ⟨cmd, -, rfl, rfl⟩
    all_goals exact ⟨h, rfl⟩
  | writeLocked n =>
    obtain ⟨count, cmd, -, rfl, rfl⟩ := step_writeLocked hs
    exact ⟨h.congr rfl rfl rfl, rfl⟩

/-- **The masks and the hang flag are the rounds** of kicks, over any run from a state that is one;
and the kicks that restart the watchdog are those that release a round. -/
theorem run_refines (ht : Runs s tr s') (h : s.wdk.Fits r) :
    s'.wdk.Fits (r.run (seen tr)) ∧ kickRestarts tr = r.releases (seen tr) := by
  induction ht generalizing r with
  | nil s => exact ⟨h, rfl⟩
  | @cons s s₁ s₂ e effs tr hs _ ih =>
    obtain ⟨hstep, hone⟩ := step_refines h hs
    obtain ⟨hrun, hrest⟩ := ih hstep
    rw [seen_cons, Barrier.Round.run_append, Barrier.Round.releases_append]
    refine ⟨hrun, ?_⟩
    rw [← hone, ← hrest]
    exact List.sum_cons

/-- Which thread belongs to which CPU is settled at the start. -/
theorem step_wkTsk (hs : s.step e = some (s', effs)) : s'.wdk.wkTsk = s.wdk.wkTsk := by
  cases e with
  | thread pid cpu now hwt =>
    obtain ⟨-, rfl, -⟩ := step_thread hs
    rw [Sys.threadStep]
    cases (s.threads pid).pc with
    | kick curInterval =>
      dsimp only
      split_ifs
      · rw [Wdk.processKick, Wdk.alignKick]
        split_ifs <;> rfl
      · rfl
    | check needConfig timeout =>
      dsimp only
      split_ifs <;> rfl
    | sleep curInterval =>
      dsimp only
      split_ifs <;> rfl
    | _ => rfl
  | plug cpu on =>
    obtain ⟨-, rfl, -⟩ := step_plug hs
    cases on <;> rfl
  | plugRestart =>
    obtain ⟨-, rfl, -⟩ := step_plugRestart hs
    rfl
  | write count scanned =>
    rcases step_write hs with ⟨-, rfl, -⟩ | ⟨cmd, -, rfl, -⟩ <;> rfl
  | writeLocked n =>
    obtain ⟨count, cmd, -, rfl, -⟩ := step_writeLocked hs
    rfl

/-! ### From the start -/

theorem foldl_fits (p : Cpu → Bool) (is : List Cpu) {w : Wdk} (h : w.Fits r) :
    (is.foldl (fun w i => w.cpuUpdateBitFlag i (p i)) w).Fits
      (r.run (is.map fun i => if p i then .join i else .leave i)) := by
  induction is generalizing w r with
  | nil => exact h
  | cons i is ih =>
    rw [List.foldl_cons, List.map_cons, Barrier.Round.run_cons]
    cases hp : p i with
    | true => exact ih (h.plugOn i)
    | false => exact ih (h.plugOff i)

theorem startKicker_masks (create : Cpu → Option ℕ) (is : List Cpu) (w : Wdk) :
    (startKicker create is w).cpusKickBit = w.cpusKickBit ∧
      (startKicker create is w).kickBit = w.kickBit ∧
      (startKicker create is w).gHangDetected = w.gHangDetected := by
  induction is generalizing w with
  | nil => exact ⟨rfl, rfl, rfl⟩
  | cons i is ih =>
    rw [startKicker]
    cases create i with
    | none => exact ⟨rfl, rfl, rfl⟩
    | some pid => exact ih _

/-- The CPUs that are there and online at the start. -/
def onlineCpus (nr : ℕ) (online : Cpu → Bool) : Finset Cpu :=
  Finset.univ.filter fun c => c.val < nr ∧ online c = true

/-- **The start**: the CPUs that are online are waited for, and nobody has kicked. -/
theorem boot_fits (env : Env) (nr : ℕ) (online : Cpu → Bool) (ready : Bool)
    (create : Cpu → Option ℕ) :
    (boot env nr online ready create).wdk.Fits ⟨onlineCpus nr online, []⟩ := by
  have hloaded : (loaded env.em).Fits ⟨∅, []⟩ := by
    refine ⟨small_zero, small_zero, places_zero, places_zero, ?_⟩
    exact ⟨fun h => absurd h Bool.false_ne_true, fun h => absurd h (not_repeated_nil _)⟩
  set cpus := (List.finRange 16).filter (·.val < nr) with hcpus
  have hmem (j : Cpu) : j ∈ cpus ↔ j.val < nr := by simp [hcpus]
  have hall := foldl_fits (fun _ => true) cpus hloaded
  obtain ⟨hnil, hjoined⟩ := Barrier.Round.run_join_or_leave (fun _ => true) cpus
    (show (Barrier.Round.mk ∅ []).arrivals = [] from rfl)
  have honline := foldl_fits online cpus hall
  obtain ⟨hnil', hmembers⟩ := Barrier.Round.run_join_or_leave online cpus hnil
  have hround (r : Barrier.Round Cpu) (ha : r.arrivals = []) (hm : r.members = onlineCpus nr online) :
      r = ⟨onlineCpus nr online, []⟩ := by
    rw [← ha, ← hm]
  obtain ⟨hcheck, hkick, hhang⟩ := startKicker_masks create cpus
    { initFlags nr online (loaded env.em) with
      ready, gKinterval := 15, gNeedConfig := false, wdtStart := true }
  refine hround _ hnil' ?_ ▸ honline.congr hcheck hkick hhang
  ext j
  rw [hmembers j, hjoined j, hmem j]
  simp [onlineCpus]

end refinement

end Kicker
