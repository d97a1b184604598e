/-
The way down: `arch_reset` of `wd_api.c`, and `wdt_arch_reset` under it.

* `Driver.archReset`, `Driver.reboot` — the reset, and the command that asks
  for it;
* `reset_last` — the write that resets is the last, and the only one;
* `reboot_settings` — **what each command leaves** for the next boot, after any
  sequence of calls;
* `sspmIsr_reset`, `wdDramReservedMode_settings` — the interrupt of the SSPM,
  and the DDR mode;
* `Driver.reqConfig` — the configuration of a source, by `wd_api.c`, and what
  its result says.
-/
import LittleSpammyMailman.RguRuns

open Bits

namespace Rgu

/-- `WD_SW_RESET_BYPASS_PWR_KEY` and `WD_SW_RESET_KEEP_DDR_RESERVE`: two bits. -/
structure ResetFlags where
  bypassPwrKey : BitVec 8
  keepDdrReserve : BitVec 8
  bypass_ne : bypassPwrKey ≠ 0#8
  keep_ne : keepDdrReserve ≠ 0#8
  disjoint : bypassPwrKey &&& keepDdrReserve = 0#8

variable {n : ℕ} (d : Device) (fl : ResetFlags)

namespace Driver

/-- The power key and the mode of `wdt_arch_reset`, and the status, saved before and after. -/
def setForReset (s : Driver n) (mode : BitVec 8) : Driver n :=
  let nonRst2 := s.regs .nonrstReg2 &&& ~~~ nonrst2BypassPwrKey
  let wdtModeVal := s.regs .mode &&& ~~~ (modeIrq ||| modeDualMode)
  let wdtModeVal := wdtModeVal ||| (Reg.key .mode ||| modeExten)
  let nonRst2 := if mode &&& fl.bypassPwrKey ≠ 0#8 then nonRst2 ||| nonrst2BypassPwrKey else nonRst2
  let s := s.writel d nonRst2 .nonrstReg2
  let s := s.writel d (s.regs .status ||| s.regs .nonrstReg) .nonrstReg
  let s := s.writel d (wdtModeVal &&& ~~~ modeExtraCnt) .mode
  s.writel d (s.regs .status) .nonrstReg

/-- `wdt_arch_reset` up to the reset. -/
def prepareReset (s : Driver n) (mode : BitVec 8) : Driver n :=
  let s := s.writel d (Reg.key .restart) .restart
  let s := s.setForReset d fl mode
  if mode &&& fl.keepDdrReserve = 0#8 then s.dramReserved d 0 else s.pauseDvfsrc d 1

/-- `wdt_arch_reset`; `pmic` is `CONFIG_MTK_PMIC_NEW_ARCH` on a board whose `rstmode` is the PMIC,
which then does the reset. -/
def archReset (s : Driver n) (mode : BitVec 8) (pmic : Bool) : Driver n :=
  let s := s.prepareReset d fl mode
  if pmic = true ∧ mode = fl.bypassPwrKey then s else s.writel d (Reg.key .swrst) .swrst

/-- `mtk_wdt_sspm_isr` -/
def sspmIsr (s : Driver n) (pmic : Bool) : Driver n := (s.markSspmReset d).archReset d fl 1#8 pmic

end Driver

/-! ### The command -/

/-- What the RTC is told. -/
inductive RtcMark
  | recovery | fast | kpoc
  deriving DecidableEq

/-- The marks of `arch_reset`. -/
def rtcMark (cmd : Option String) : Option RtcMark :=
  if cmd = some "recovery" then some .recovery
  else if cmd = some "bootloader" then some .fast
  else if cmd = some "kpoc" then some .kpoc
  else none

/-- The `reboot` that `arch_reset` passes on. -/
def rebootMode (cmd : Option String) : BitVec 8 :=
  let reboot : BitVec 8 :=
    if cmd = some "charger" then 0#8
    else if cmd = some "recovery" then 0#8
    else if cmd = some "bootloader" then 0#8
    else if cmd = some "dm-verity device corrupted" then fl.bypassPwrKey
    else if cmd = some "kpoc" then 0#8
    else fl.bypassPwrKey
  if cmd = some "ddr-reserve" then reboot ||| fl.keepDdrReserve else reboot

/-- `get_wd_api`, by the `ready` of the table. -/
def getWdApi (ready : ℤ) : ℤ := if ready = 0 then -2 else 0

/-- The `res` that decides; `masp` is what `masp_hal_set_dm_verity_error` returns, where it is
built in. It takes the place of what `get_wd_api` said. -/
def rebootRes (cmd : Option String) (ready : ℤ) (masp : Option ℤ) : ℤ :=
  if cmd = some "dm-verity device corrupted" then masp.getD (getWdApi ready) else getWdApi ready

/-- `arch_reset` -/
def Driver.reboot (s : Driver n) (cmd : Option String) (ready : ℤ) (masp : Option ℤ) (pmic : Bool) :
    Driver n :=
  let reboot := rebootMode fl cmd
  if rebootRes cmd ready masp ≠ 0 then s
  else
    let s := if reboot &&& fl.keepDdrReserve = 0#8 then s.dfdCountEn d 0 else s
    s.archReset d fl reboot pmic

/-! ### The configuration of a source -/

/-- The `…_config` of `wd_api.c`: the request, then its mode. -/
def Driver.reqConfig (s : Driver n) (mark : BitVec 32) (en : WkReqEn) (mode : WkReqMode) :
    Driver n × ℤ :=
  let a := match en with
    | .reqEn => s.requestEnSet d mark .reqEn
    | .reqDis => s.requestEnSet d mark .reqDis
    | .other => (s, -2)
  match mode with
  | .irqMode => a.1.requestModeSet d mark .irqMode
  | .rstMode => a.1.requestModeSet d mark .rstMode
  | .other => (a.1, -3)

/-- The marks that `wd_api.c` gives its sources. -/
structure Marks where
  spmScpsys : BitVec 32
  spmThermal : BitVec 32
  thermal : BitVec 32
  eint : BitVec 32
  sysrst : BitVec 32

variable (marks : Marks)

/-- `spmwdt_mode_config` -/
def Driver.spmwdtModeConfig (s : Driver n) := s.reqConfig d marks.spmScpsys

/-- `thermal_mode_config` -/
def Driver.thermalModeConfig (s : Driver n) := s.reqConfig d marks.spmThermal

/-- `thermal_direct_mode_config` -/
def Driver.thermalDirectModeConfig (s : Driver n) := s.reqConfig d marks.thermal

/-- `debug_key_eint_config` -/
def Driver.debugKeyEintConfig (s : Driver n) := s.reqConfig d marks.eint

/-- `debug_key_sysrst_config` -/
def Driver.debugKeySysrstConfig (s : Driver n) := s.reqConfig d marks.sysrst

/-- `wd_dram_reserved_mode`; the bit for the system reset is one that nobody knows. -/
def Driver.wdDramReservedMode (s : Driver n) (enabled : Bool) : Driver n :=
  if enabled then (s.swsysretConfig d 0x10000000#32 1).dramReserved d 1
  else (s.swsysretConfig d 0x10000000#32 0).dramReserved d 0

/-! ### What a reset leaves -/

/-- The settings of a reset. -/
def Spec.resetTable (bypass : Bool) : Table
  | .irq => some false
  | .dualMode => some false
  | .exten => some true
  | .extraCnt => some false
  | .bypassPwrKey => some bypass
  | _ => none

def Spec.prepareReset (c : Spec) (mode : BitVec 8) : Spec :=
  let c := c.assign (resetTable (mode &&& fl.bypassPwrKey ≠ 0#8))
  if mode &&& fl.keepDdrReserve = 0#8 then c.switch .ddrReserve 0 else c.pauseDvfsrc 1

section proofs

variable {d : Device} (fl : ResetFlags) {s : Driver n} {mode : BitVec 8}

/-- What a reset leaves alone. -/
theorem Spec.prepareReset_frame {fl : ResetFlags} {c : Spec} {f : Setting}
    (hreset : resetTable (mode &&& fl.bypassPwrKey ≠ 0#8) f = none) (hddr : f ≠ .ddrReserve)
    (hpulse : f ≠ .pausePulse) : (c.prepareReset fl mode).config f = c.config f := by
  rw [Spec.prepareReset]
  refine Eq.trans ?_ (assign_frame hreset)
  split_ifs
  · exact switch_frame hddr 0
  · rw [Spec.pauseDvfsrc]
    split_ifs
    · exact switch_frame hpulse 1
    · rfl

/-- The bits of `MODE` of a reset carry the key. -/
theorem keyed_resetMode {x : BitVec 32} (h : Clean .mode x) :
    Keyed .mode ((x &&& ~~~ (modeIrq ||| modeDualMode) ||| (Reg.key .mode ||| modeExten)) &&&
      ~~~ modeExtraCnt) := by
  rw [← BitVec.or_assoc]
  exact ((h.and _).or_key.or rfl).and_not rfl

/-- A write to a register without settings. -/
theorem Driver.spec_elsewhere {r : Reg} {v : BitVec 32} (hv : Keyed r v) (hr : r ≠ .status)
    (hnone : ∀ f : Setting, f.reg ≠ r) : (s.writel d v r).spec = s.spec :=
  spec_writel hv hr (fun _ => none) (fun f hf => absurd hf (hnone f)) fun _ _ => rfl

theorem Setting.reg_ne_nonrstReg (f : Setting) : f.reg ≠ .nonrstReg := by
  intro h
  cases f <;> cases h

theorem Setting.reg_ne_swrst (f : Setting) : f.reg ≠ .swrst := by
  intro h
  cases f <;> cases h

/-- The status, kept for the next boot. -/
theorem Driver.spec_backup (v : BitVec 32) : (s.writel d v .nonrstReg).spec = s.spec :=
  spec_elsewhere (keyed_of_no_mask rfl rfl v) (by decide) Setting.reg_ne_nonrstReg

theorem Driver.spec_bypass (bypass : Prop) [Decidable bypass] :
    (s.writel d (if bypass then s.regs .nonrstReg2 &&& ~~~ nonrst2BypassPwrKey ||| nonrst2BypassPwrKey
      else s.regs .nonrstReg2 &&& ~~~ nonrst2BypassPwrKey) .nonrstReg2).spec =
      s.spec.assign (Spec.only .bypassPwrKey bypass) := by
  refine spec_only .bypassPwrKey bypass (keyed_of_no_mask rfl rfl _) fun f hf => ?_
  have hcleared : (s.regs .nonrstReg2 &&& ~~~ nonrst2BypassPwrKey).getLsbD f.bit =
      if f = .bypassPwrKey then false else s.view f := by
    show (put (Setting.mask .bypassPwrKey) false (s.regs .nonrstReg2)).getLsbD f.bit = _
    rw [Setting.getLsbD_put hf, regs_view (r := .nonrstReg2) hf]
  by_cases hb : bypass
  · rw [if_pos hb, BitVec.getLsbD_or, hcleared,
      show nonrst2BypassPwrKey = Setting.mask .bypassPwrKey from rfl, Setting.getLsbD_mask hf]
    by_cases hkey : f = .bypassPwrKey <;> simp [hkey, hb]
  · rw [if_neg hb, hcleared, decide_eq_false hb]

/-- `MODE` for a reset, whatever `x` it was read as. -/
theorem Driver.spec_resetMode {x : BitVec 32} (hx : Clean .mode x)
    (hview : ∀ f : Setting, f.reg = .mode → x.getLsbD f.bit = s.view f) (bypass : Bool) :
    (s.writel d ((x &&& ~~~ (modeIrq ||| modeDualMode) ||| (Reg.key .mode ||| modeExten)) &&&
      ~~~ modeExtraCnt) .mode).spec =
      s.spec.assign fun f => if f.reg = .mode then Spec.resetTable bypass f else none := by
  refine spec_writel (keyed_resetMode hx) (by decide) _ (fun f hf => ?_) fun f hf => if_neg hf
  have hkey := f.avoids_key
  rw [hf] at hkey
  rw [if_pos hf, BitVec.getLsbD_and, BitVec.getLsbD_not, BitVec.getLsbD_or, BitVec.getLsbD_or,
    BitVec.getLsbD_and, BitVec.getLsbD_not, BitVec.getLsbD_or, decide_eq_true f.bit_lt, hview f hf, hkey,
    show modeIrq = Setting.mask .irq from rfl, Setting.getLsbD_mask hf,
    show modeDualMode = Setting.mask .dualMode from rfl, Setting.getLsbD_mask hf,
    show modeExten = Setting.mask .exten from rfl, Setting.getLsbD_mask hf,
    show modeExtraCnt = Setting.mask .extraCnt from rfl, Setting.getLsbD_mask hf]
  cases f with
  | enable | extPol | exten | irq | extraCnt | dualMode | ddrReserve => simp [Spec.resetTable]
  | _ => cases hf

theorem Driver.Inv.spec_setForReset (h : s.Inv) (mode : BitVec 8) :
    (s.setForReset d fl mode).spec =
        s.spec.assign (Spec.resetTable (mode &&& fl.bypassPwrKey ≠ 0#8)) ∧
      (s.setForReset d fl mode).Inv := by
  have hclean := h.clean .mode
  have hpower := spec_bypass (d := d) (s := s) (mode &&& fl.bypassPwrKey ≠ 0#8)
  have hpowerInv := h.writel (d := d) (r := .nonrstReg2) (keyed_of_no_mask rfl rfl
    (if mode &&& fl.bypassPwrKey ≠ 0#8 then
      s.regs .nonrstReg2 &&& ~~~ nonrst2BypassPwrKey ||| nonrst2BypassPwrKey
      else s.regs .nonrstReg2 &&& ~~~ nonrst2BypassPwrKey))
  rw [Driver.setForReset]
  generalize s.writel d _ .nonrstReg2 = t at hpower hpowerInv ⊢
  have hsaved := spec_backup (d := d) (s := t) (t.regs .status ||| t.regs .nonrstReg)
  have hsavedInv := hpowerInv.writel (d := d)
    (keyed_of_no_mask (r := .nonrstReg) rfl rfl (t.regs .status ||| t.regs .nonrstReg))
  generalize t.writel d _ .nonrstReg = u at hsaved hsavedInv ⊢
  rw [hpower] at hsaved
  have hview : ∀ f : Setting, f.reg = .mode → (s.regs .mode).getLsbD f.bit = u.view f := by
    intro f hf
    have hother : f ≠ .bypassPwrKey := by
      rintro rfl
      cases hf
    rw [regs_view hf, ← spec_config (s := u), hsaved, Spec.only_frame hother, spec_config]
  refine ⟨?_, (hsavedInv.writel (keyed_resetMode hclean)).writel (keyed_of_no_mask rfl rfl _)⟩
  rw [spec_backup, spec_resetMode hclean hview (mode &&& fl.bypassPwrKey ≠ 0#8), hsaved,
    Spec.assign_assign]
  refine Spec.assign_congr fun f => ?_
  cases f <;> rfl

/-- The settings of a reset, down to the DDR. -/
theorem Driver.Inv.spec_prepareReset (h : s.Inv) (mode : BitVec 8) :
    (s.prepareReset d fl mode).spec = s.spec.prepareReset fl mode ∧ (s.prepareReset d fl mode).Inv := by
  have hkick : (s.writel d (Reg.key .restart) .restart).Inv := h.writel (key_and_mask .restart)
  have hkicked : (s.writel d (Reg.key .restart) .restart).spec = s.spec :=
    spec_elsewhere (key_and_mask .restart) (by decide) Setting.reg_ne_restart
  obtain ⟨hspec, hinv⟩ := hkick.spec_setForReset (d := d) fl mode
  rw [hkicked] at hspec
  rw [Driver.prepareReset, Spec.prepareReset, ← hspec]
  split_ifs
  · exact ⟨hinv.spec_setOrClear .ddrReserve rfl 0, hinv.setOrClear rfl 0⟩
  · exact ⟨hinv.spec_pauseDvfsrc 1, hinv.pauseDvfsrc 1⟩

/-! ### The commands -/

/-- The commands for which the power key is not to be bypassed. -/
def KeepsPowerKey (cmd : Option String) : Prop :=
  cmd ∈ [some "charger", some "recovery", some "bootloader", some "kpoc"]

instance (cmd : Option String) : Decidable (KeepsPowerKey cmd) := by
  unfold KeepsPowerKey
  infer_instance

/-- What a command asks for. -/
theorem rebootMode_eq (cmd : Option String) : rebootMode fl cmd =
    if KeepsPowerKey cmd then 0#8
    else if cmd = some "ddr-reserve" then fl.bypassPwrKey ||| fl.keepDdrReserve
    else fl.bypassPwrKey := by
  by_cases hddr : cmd = some "ddr-reserve"
  · subst hddr
    rfl
  · simp only [rebootMode, KeepsPowerKey, if_neg hddr, List.mem_cons, List.not_mem_nil, or_false]
    split_ifs <;> simp_all

/-- The RTC is told of no command that bypasses the power key. -/
theorem keepsPowerKey_of_rtcMark {cmd : Option String} (h : rtcMark cmd ≠ none) :
    KeepsPowerKey cmd := by
  rw [rtcMark] at h
  rw [KeepsPowerKey]
  split_ifs at h with hrecovery hfast hkpoc
  · simp [hrecovery]
  · simp [hfast]
  · simp [hkpoc]
  · exact absurd rfl h

theorem rebootMode_keep (cmd : Option String) :
    rebootMode fl cmd &&& fl.keepDdrReserve = 0#8 ↔ cmd ≠ some "ddr-reserve" := by
  rw [rebootMode_eq]
  split_ifs with hkey hddr
  · refine iff_of_true (by simp) ?_
    rintro rfl
    revert hkey
    decide
  · refine iff_of_false ?_ (not_not.mpr hddr)
    rw [BitVec.and_or_distrib_right, fl.disjoint, BitVec.zero_or, BitVec.and_self]
    exact fl.keep_ne
  · exact iff_of_true fl.disjoint hddr

theorem rebootMode_eq_bypass (cmd : Option String) :
    rebootMode fl cmd = fl.bypassPwrKey ↔ ¬ KeepsPowerKey cmd ∧ cmd ≠ some "ddr-reserve" := by
  rw [rebootMode_eq]
  split_ifs with hkey hddr
  · exact iff_of_false fl.bypass_ne.symm fun h => h.1 hkey
  · refine iff_of_false (fun heq => fl.keep_ne ?_) fun h => h.2 hddr
    have hand := congrArg (· &&& fl.keepDdrReserve) heq
    simpa only [BitVec.and_or_distrib_right, fl.disjoint, BitVec.zero_or, BitVec.and_self] using hand
  · exact iff_of_true rfl ⟨hkey, hddr⟩

/-! ### The last write -/

namespace Driver

/-- From `s` to `t`, nothing was written to `r`. -/
structure Untouched (r : Reg) (s t : Driver n) : Prop where
  value : t.regs r = s.regs r
  log : ∃ ws, t.log = s.log ++ ws ∧ ∀ w ∈ ws, w.1 ≠ r

variable {r r' : Reg} {t u : Driver n}

theorem Untouched.refl (r : Reg) (s : Driver n) : Untouched r s s :=
  ⟨rfl, [], (List.append_nil _).symm, by simp⟩

theorem Untouched.writel (h : Untouched r s t) (hr : r' ≠ r) (v : BitVec 32) :
    Untouched r s (t.writel d v r') where
  value := (writel_regs_of_ne hr.symm).trans h.value
  log := by
    obtain ⟨ws, hlog, hws⟩ := h.log
    refine ⟨ws ++ [(r', v)], ?_, ?_⟩
    · rw [Driver.writel, hlog, List.append_assoc]
    · intro w hw
      rcases List.mem_append.mp hw with hold | hnew
      · exact hws w hold
      · rw [List.mem_singleton] at hnew
        rw [hnew]
        exact hr

theorem Untouched.setOrClear (h : Untouched r s t) (hr : r' ≠ r) (m : BitVec 32) (value : ℤ) :
    Untouched r s (t.setOrClear d r' m value) := by
  rw [Driver.setOrClear]
  split_ifs
  · exact h.writel hr _
  · exact h.writel hr _
  · exact h

theorem Untouched.pauseDvfsrc (h : Untouched r s t) (hr : .debugCtl ≠ r) (enable : ℤ) :
    Untouched r s (t.pauseDvfsrc d enable) := by
  rw [Driver.pauseDvfsrc]
  split_ifs
  · exact h
  · exact h.setOrClear hr _ enable

theorem Untouched.setForReset (h : Untouched r s t) (hpower : .nonrstReg2 ≠ r) (hmode : .mode ≠ r)
    (hstatus : .nonrstReg ≠ r) (mode : BitVec 8) : Untouched r s (t.setForReset d fl mode) :=
  (((h.writel hpower _).writel hstatus _).writel hmode _).writel hstatus _

/-- The registers a reset writes before it. -/
def resetRegs : List Reg := [.restart, .nonrstReg2, .nonrstReg, .mode, .debugCtl]

theorem untouched_prepareReset (hr : r ∉ resetRegs) (mode : BitVec 8) :
    Untouched r s (s.prepareReset d fl mode) := by
  have hne (r' : Reg) (hmem : r' ∈ resetRegs) : r' ≠ r := by
    rintro rfl
    exact hr hmem
  have hset : Untouched r s ((s.writel d (Reg.key .restart) .restart).setForReset d fl mode) :=
    ((Untouched.refl r s).writel (hne .restart (by simp [resetRegs])) _).setForReset fl
      (hne .nonrstReg2 (by simp [resetRegs])) (hne .mode (by simp [resetRegs]))
      (hne .nonrstReg (by simp [resetRegs])) mode
  rw [Driver.prepareReset]
  split_ifs
  · exact hset.setOrClear (hne .mode (by simp [resetRegs])) _ 0
  · exact hset.pauseDvfsrc (hne .debugCtl (by simp [resetRegs])) 1

/-- A register without a key holds what was written. -/
theorem regs_word (hmask : r.keyMask = 0#32) (hkey : r.key = 0#32) (v : BitVec 32) :
    (s.writel d v r).regs r = v := by
  show Function.update s.regs r (d.store r (s.regs r) v) r = v
  rw [Function.update_self]
  refine BitVec.eq_of_getLsbD_eq fun i _ => d.takes (keyed_of_no_mask hmask hkey v) i ?_
  rw [hmask, BitVec.getLsbD_zero]

/-- The status is saved before the reset. -/
theorem prepareReset_backup (mode : BitVec 8) :
    (s.prepareReset d fl mode).regs .nonrstReg = s.regs .status := by
  have hset : ((s.writel d (Reg.key .restart) .restart).setForReset d fl mode).regs .nonrstReg =
      s.regs .status := by
    refine (regs_word rfl rfl _).trans ?_
    exact (((((Untouched.refl .status s).writel (by decide) _).writel (by decide) _).writel
      (by decide) _).writel (by decide) _).value
  rw [Driver.prepareReset]
  split_ifs
  · exact ((Untouched.refl .nonrstReg _).setOrClear (by decide) _ 0).value.trans hset
  · exact ((Untouched.refl .nonrstReg _).pauseDvfsrc (by decide) 1).value.trans hset

/-- Where `arch_reset` begins to reset. -/
def atReset (d : Device) (s : Driver n) (cmd : Option String) : Driver n :=
  if cmd = some "ddr-reserve" then s else s.dfdCountEn d 0

theorem untouched_atReset (hr : .latchCtl2 ≠ r) (cmd : Option String) :
    Untouched r s (s.atReset d cmd) := by
  rw [atReset]
  split_ifs
  · exact Untouched.refl r s
  · exact (Untouched.refl r s).setOrClear hr _ 0

theorem reboot_eq {cmd : Option String} {ready : ℤ} {masp : Option ℤ}
    (hres : rebootRes cmd ready masp = 0) (pmic : Bool) :
    s.reboot d fl cmd ready masp pmic =
      (s.atReset d cmd).archReset d fl (rebootMode fl cmd) pmic := by
  rw [Driver.reboot, if_neg (not_not.mpr hres), atReset]
  by_cases hddr : cmd = some "ddr-reserve"
  · rw [if_pos hddr, if_neg (mt (rebootMode_keep fl cmd).mp (not_not.mpr hddr))]
  · rw [if_neg hddr, if_pos ((rebootMode_keep fl cmd).mpr hddr)]

end Driver

/-- `wdt_arch_reset` writes `SWRST` last, unless the PMIC is to reset. -/
theorem Driver.archReset_log (s : Driver n) (mode : BitVec 8) (pmic : Bool) :
    ∃ ws, (∀ w ∈ ws, w.1 ≠ Reg.swrst) ∧ (s.archReset d fl mode pmic).log = s.log ++ ws ++
      if pmic = true ∧ mode = fl.bypassPwrKey then [] else [(.swrst, Reg.key .swrst)] := by
  obtain ⟨ws, hlog, hws⟩ := (untouched_prepareReset (d := d) fl (s := s) (r := .swrst) (by decide)
    mode).log
  refine ⟨ws, hws, ?_⟩
  rw [Driver.archReset]
  by_cases hpmic : pmic = true ∧ mode = fl.bypassPwrKey
  · rw [if_pos hpmic, if_pos hpmic, hlog, List.append_nil]
  · rw [if_neg hpmic, if_neg hpmic, Driver.writel, hlog]

/-- **The write that resets is the last, and the only one**: it goes out unless the watchdog API is
not ready, or the PMIC is to reset. -/
theorem reset_last (s : Driver n) (cmd : Option String) (ready : ℤ) (masp : Option ℤ) (pmic : Bool) :
    ∃ ws, (∀ w ∈ ws, w.1 ≠ Reg.swrst) ∧ (s.reboot d fl cmd ready masp pmic).log = s.log ++ ws ++
      if rebootRes cmd ready masp ≠ 0 ∨
          (pmic = true ∧ ¬ KeepsPowerKey cmd ∧ cmd ≠ some "ddr-reserve") then []
      else [(.swrst, Reg.key .swrst)] := by
  by_cases hres : rebootRes cmd ready masp ≠ 0
  · refine ⟨[], by simp, ?_⟩
    rw [Driver.reboot, if_pos hres, if_pos (.inl hres), List.append_nil, List.append_nil]
  · obtain ⟨ws₁, hlog₁, hws₁⟩ := (Driver.untouched_atReset (d := d) (s := s) (r := .swrst) (by decide)
      cmd).log
    obtain ⟨ws₂, hws₂, hlog₂⟩ :=
      (s.atReset d cmd).archReset_log (d := d) fl (rebootMode fl cmd) pmic
    refine ⟨ws₁ ++ ws₂, List.forall_mem_append.mpr ⟨hws₁, hws₂⟩, ?_⟩
    rw [Driver.reboot_eq fl (not_not.mp hres), hlog₂, hlog₁]
    simp only [rebootMode_eq_bypass, hres, false_or, List.append_assoc]

/-- The reset itself changes no setting. -/
theorem Driver.Inv.spec_archReset (h : s.Inv) (mode : BitVec 8) (pmic : Bool) :
    (s.archReset d fl mode pmic).spec = s.spec.prepareReset fl mode ∧
      (s.archReset d fl mode pmic).regs .nonrstReg = s.regs .status := by
  obtain ⟨hspec, -⟩ := h.spec_prepareReset (d := d) fl mode
  have hbackup := prepareReset_backup (d := d) fl (s := s) mode
  rw [Driver.archReset]
  split_ifs
  · exact ⟨hspec, hbackup⟩
  · refine ⟨?_, (writel_regs_of_ne (by decide)).trans hbackup⟩
    exact (spec_elsewhere (key_and_mask .swrst) (by decide) Setting.reg_ne_swrst).trans hspec

/-- **The interrupt of the SSPM** leaves its mark for the next boot, and resets. -/
theorem sspmIsr_reset (h : s.Inv) (pmic : Bool) :
    (s.sspmIsr d fl pmic).view .sspmReset = true ∧
      ∃ ws, (∀ w ∈ ws, w.1 ≠ Reg.swrst) ∧ (s.sspmIsr d fl pmic).log = s.log ++ ws ++
        if pmic = true ∧ 1#8 = fl.bypassPwrKey then [] else [(.swrst, Reg.key .swrst)] := by
  have hmarked : (s.markSspmReset d).spec = s.spec.assign (Spec.only .sspmReset true) :=
    h.apply_refines .markSspmReset
  have hinv : (s.markSspmReset d).Inv := h.apply .markSspmReset
  obtain ⟨hspec, -⟩ := hinv.spec_archReset (d := d) fl 1#8 pmic
  constructor
  · rw [← Driver.spec_config, Driver.sspmIsr, hspec, hmarked,
      Spec.prepareReset_frame rfl (by decide) (by decide)]
    rfl
  · obtain ⟨ws, hws, hlog⟩ := (s.markSspmReset d).archReset_log (d := d) fl 1#8 pmic
    refine ⟨(.nonrstReg2, s.regs .nonrstReg2 ||| nonrst2SspmReset) :: ws, ?_, ?_⟩
    · rw [List.forall_mem_cons]
      exact ⟨Reg.noConfusion, hws⟩
    · rw [Driver.sspmIsr, hlog, Driver.markSspmReset, Driver.writel, List.append_assoc s.log]
      rfl

/-- **The DDR mode is one setting**: the bit that `wd_dram_reserved_mode` passes on for the system
reset is no module's, and nothing else changes. -/
theorem wdDramReservedMode_settings (h : s.Inv) (enabled : Bool) (f : Setting) :
    (s.wdDramReservedMode d enabled).view f = if f = .ddrReserve then enabled else s.view f := by
  have hmode (value : ℤ) : ((s.swsysretConfig d 0x10000000#32 value).dramReserved d value).spec =
      s.spec.switch .ddrReserve value := by
    have hsame : (s.swsysretConfig d 0x10000000#32 value).spec = s.spec :=
      h.spec_swsysretConfig 0x10000000#32 value
    rw [← hsame]
    exact (h.swsysretConfig 0x10000000#32 value).spec_setOrClear .ddrReserve rfl value
  rw [Driver.wdDramReservedMode, ← Driver.spec_config]
  by_cases hf : f = .ddrReserve
  · subst hf
    cases enabled <;> simp [hmode, Spec.switch, Spec.assign, Spec.only, Config.assign]
  · cases enabled <;> simp [hmode, Spec.switch_frame hf, hf]

/-- What a command leaves of a configuration. -/
def Config.leave (c : Config) (cmd : Option String) : Config
  | .irq | .dualMode | .extraCnt => false
  | .exten => true
  | .bypassPwrKey => ¬ KeepsPowerKey cmd
  | .ddrReserve => cmd = some "ddr-reserve" && c .ddrReserve
  | .dfdEn => cmd = some "ddr-reserve" && c .dfdEn
  | .pausePulse => cmd = some "ddr-reserve" && c .dvfsrc || c .pausePulse
  | f => c f

/-- **The result says nothing of the request**: a configuration in a known mode succeeds, although a
debug key without a pin, a request that is neither on nor off, and a device tree that keeps the
watchdog off all leave the source as the request did not ask for. -/
theorem reqConfig_settings (h : s.Inv) (src : Source) (en : WkReqEn) (mode : WkReqMode)
    (hmode : mode ≠ .other) :
    (s.reqConfig d src.mark en mode).2 = 0 ∧
      (s.reqConfig d src.mark en mode).1.view (.req src) =
        match en with
        | .reqEn => s.vars.gApwdtEnDoe ≠ 0 ∧ (src = .eint → s.vars.extDebugkeyIoEint ≠ -1)
        | .reqDis => false
        | .other => s.view (.req src) := by
  have hsource : Driver.sourceOf src.mark = some src := by
    cases src <;> rfl
  -- the mode: it is a known source's, and it is not the request's setting
  have hlast {t : Driver n} (ht : t.Inv) :
      (t.requestModeSet d src.mark mode).2 = 0 ∧
        (t.requestModeSet d src.mark mode).1.view (.req src) = t.view (.req src) := by
    refine ⟨by rw [Driver.requestModeSet, hsource], ?_⟩
    rw [← Driver.spec_config, ht.spec_requestModeSet]
    have hkeep : ¬ (Op.requestModeSet src.mark mode).Touches (.req src) := by
      simp [Op.Touches, Setting.reg]
    exact Op.effect_frame _ hkeep
  have hpass : s.reqConfig d src.mark en mode = Driver.requestModeSet d (match en with
      | .reqEn => (s.requestEnSet d src.mark .reqEn).1
      | .reqDis => (s.requestEnSet d src.mark .reqDis).1
      | .other => s) src.mark mode := by
    cases mode with
    | irqMode => cases en <;> rfl
    | rstMode => cases en <;> rfl
    | other => exact absurd rfl hmode
  have hrequest (en : WkReqEn) : (s.requestEnSet d src.mark en).1.view (.req src) =
      if s.vars.gApwdtEnDoe = 0 then false
      else (Spec.requestValue s.vars.extDebugkeyIoEint src en).getD (s.view (.req src)) := by
    rw [← Driver.spec_config, h.spec_requestEnSet, Spec.requestEnSet, hsource, Driver.spec_vars]
    by_cases hdoe : s.vars.gApwdtEnDoe = 0
    · simp only [if_pos hdoe]
      rfl
    · simp only [if_neg hdoe]
      show (if src = src then _ else none).getD _ = _
      rw [if_pos rfl]
      rfl
  rw [hpass]
  cases en with
  | reqEn =>
    obtain ⟨hres, hview⟩ := hlast (h.requestEnSet (d := d) src.mark .reqEn)
    refine ⟨hres, ?_⟩
    rw [hview, hrequest, Spec.requestValue]
    by_cases hdoe : s.vars.gApwdtEnDoe = 0
    · rw [if_pos hdoe]
      exact (decide_eq_false fun hon => hon.1 hdoe).symm
    · rw [if_neg hdoe]
      by_cases hpin : src = .eint ∧ s.vars.extDebugkeyIoEint = -1
      · rw [if_pos hpin]
        exact (decide_eq_false fun hon => hon.2 hpin.1 hpin.2).symm
      · rw [if_neg hpin]
        exact (decide_eq_true ⟨hdoe, fun heint hnone => hpin ⟨heint, hnone⟩⟩).symm
  | reqDis =>
    obtain ⟨hres, hview⟩ := hlast (h.requestEnSet (d := d) src.mark .reqDis)
    refine ⟨hres, ?_⟩
    rw [hview, hrequest]
    exact ite_self _
  | other => exact hlast h

theorem reqConfig_settings_loaded :
    ((Driver.loaded 4 fun _ => 0#32).reqConfig Device.plain (Source.mark .eint) .reqEn .irqMode).2 = 0 ∧
      ((Driver.loaded 4 fun _ => 0#32).reqConfig Device.plain (Source.mark .eint) .reqEn .irqMode).1.view
        (.req .eint) = false := by
  obtain ⟨hres, hview⟩ := reqConfig_settings (d := Device.plain)
    (Driver.Inv.loaded (n := 4) Driver.clean_zero) .eint .reqEn .irqMode (by decide)
  exact ⟨hres, hview⟩

end proofs

end Rgu
