/-
What the calls of the watchdog driver configure.

The abstract state is a configuration: one value for each setting the
registers hold. A call assigns some settings and leaves the others alone.

* `Setting`, `Spec`, `Op.effect` — the settings, and what each call assigns;
* `apply_refines`, `spec_run` — the registers, read as settings, follow the
  assignments in any sequence of calls;
* `settings_exact` — from the load on.
-/
import LittleSpammyMailman.Rgu

open Bits

namespace Rgu

/-- What the registers hold. -/
inductive Setting
  | enable | extPol | exten | irq | extraCnt | dualMode | ddrReserve
  | tickBit (i : Fin 11)
  | sspmReset | bypassPwrKey | suspendDis
  | stageBit (i : Fin 3)
  | req (src : Source)
  | reqIrq (src : Source)
  | extReqBit (i : Fin 32)
  | deg1Bit (i : Fin 32)
  | deg2Bit (i : Fin 32)
  | moduleRst (i : Fin 24)
  | cachePreserve | pausePulse
  | emiDcs | dvfsrc
  | latchDvfsrc
  | dfdEn | thermal1Dis | thermal2Dis
  | dfdTimeoutBit (i : Fin 17)
  deriving DecidableEq

/-- The place of a source's bit. -/
def Source.bit : Source → ℕ
  | .scpsys => 1
  | .eint => 2
  | .sysrst => 3
  | .thermal => 18

/-- The register of a setting. -/
def Setting.reg : Setting → Reg
  | .enable | .extPol | .exten | .irq | .extraCnt | .dualMode | .ddrReserve => .mode
  | .tickBit _ => .length
  | .sspmReset | .bypassPwrKey | .suspendDis | .stageBit _ => .nonrstReg2
  | .req _ => .reqMode
  | .reqIrq _ => .reqIrqEn
  | .extReqBit _ => .extReqCon
  | .deg1Bit _ => .sysdbgDegEn1
  | .deg2Bit _ => .sysdbgDegEn2
  | .moduleRst _ => .swsysrst
  | .cachePreserve | .pausePulse => .debugCtl
  | .emiDcs | .dvfsrc => .debugCtl2
  | .latchDvfsrc => .latchCtl
  | .dfdEn | .thermal1Dis | .thermal2Dis | .dfdTimeoutBit _ => .latchCtl2

/-- Its place there. -/
def Setting.bit : Setting → ℕ
  | .enable => 0
  | .extPol => 1
  | .exten => 2
  | .irq => 3
  | .extraCnt => 4
  | .dualMode => 6
  | .ddrReserve => 7
  | .tickBit i => 5 + i
  | .sspmReset => 0
  | .bypassPwrKey => 13
  | .suspendDis => 14
  | .stageBit i => 29 + i
  | .req src | .reqIrq src => src.bit
  | .extReqBit i | .deg1Bit i | .deg2Bit i => i
  | .moduleRst i => i
  | .cachePreserve => 3
  | .pausePulse => 15
  | .emiDcs => 8
  | .dvfsrc => 9
  | .latchDvfsrc => 13
  | .dfdEn => 17
  | .thermal1Dis => 18
  | .thermal2Dis => 19
  | .dfdTimeoutBit i => i

/-- A value for every setting. -/
abbrev Config := Setting → Bool

/-- What a call assigns. -/
abbrev Table := Setting → Option Bool

/-- The assigned settings change, the others stay. -/
def Config.assign (c : Config) (t : Table) : Config := fun f => (t f).getD (c f)

/-- The configuration, the driver's variables and the status. -/
@[ext]
structure Spec where
  config : Config
  vars : Vars
  status : BitVec 32

namespace Spec

def assign (s : Spec) (t : Table) : Spec := { s with config := s.config.assign t }

def setVars (s : Spec) (vars : Vars) : Spec := { s with vars }

/-- One setting. -/
def only (g : Setting) (b : Bool) : Table := fun f => if f = g then some b else none

/-- A switch: on for 1, off for 0. -/
def switch (s : Spec) (g : Setting) (value : ℤ) : Spec :=
  if value = 1 then s.assign (only g true) else if value = 0 then s.assign (only g false) else s

/-- The bits of a number. -/
def stageTable (stage : BitVec 3) : Table
  | .stageBit i => some (stage.getLsbD i)
  | _ => none

/-- Ticks of 1/64 s, as far as 11 bits go. -/
def ticks (value : BitVec 32) : BitVec 32 :=
  if 0x7FF#32 < value * 64#32 then 0x7FF#32 else value * 64#32

def timeOutTable (value : BitVec 32) : Table
  | .tickBit i => some ((ticks value).getLsbD i)
  | _ => none

/-- `mtk_wdt_mode_config`, which also keeps the power key out of the next reset. -/
def modeTable (dualModeEn irq extEn extPol wdtEn : Bool) : Table
  | .enable => some wdtEn
  | .extPol => some extPol
  | .exten => some extEn
  | .irq => some irq
  | .dualMode => some dualModeEn
  | .extraCnt => some true
  | .bypassPwrKey => some true
  | _ => none

def enable (s : Spec) (en : WkWdtEn) : Spec :=
  if s.vars.gApwdtEnDoe = 0 then s
  else match en with
    | .wdtEn => (s.setVars { s.vars with wdtEnable := 1 }).assign (only .enable true)
    | .wdtDis => (s.setVars { s.vars with wdtEnable := 0 }).assign (only .enable false)
    | .other => s

/-- A reset from outside, by the test of suspend and resume. -/
def externalReset (s : Spec) : Prop := s.status &&& (statusSysrstRst ||| statusEintRst) ≠ 0#32

instance (s : Spec) : Decidable s.externalReset := by
  unfold externalReset
  infer_instance

def suspend (s : Spec) : Spec :=
  if s.externalReset then s
  else (s.assign (modeTable true true true false false)).assign (only .suspendDis true)

def resume (s : Spec) : Spec :=
  if s.vars.wdtEnable = 1 then
    let s := s.assign (timeOutTable s.vars.wdtLastTimeoutVal)
    if s.externalReset then s
    else (s.assign (modeTable true true true false true)).assign (only .suspendDis false)
  else s

def cfgDvfsrc (s : Spec) (enable : ℤ) : Spec :=
  if enable = 1 then (s.assign (only .dvfsrc true)).assign (only .latchDvfsrc true) else s

def pauseDvfsrc (s : Spec) (enable : ℤ) : Spec :=
  if s.config .dvfsrc then s.switch .pausePulse enable else s

/-- The modules `mtk_wdt_swsysret_config` knows. -/
def moduleOf (bit : BitVec 32) : Option (Fin 24) :=
  if bit = swsysRstMd then some 7
  else if bit = swsysRstMfg then some 2
  else if bit = swsysRstC2k then some 15
  else if bit = swsysRstConmcu then some 12
  else none

def swsysretConfig (s : Spec) (bit : BitVec 32) (setValue : ℤ) : Spec :=
  match moduleOf bit with
  | some i => s.switch (.moduleRst i) setValue
  | none => s

def dfdTimeoutTable (value : BitVec 32) : Table
  | .dfdTimeoutBit i => some (value.getLsbD i)
  | _ => none

/-- What a request assigns to the bit of its source. -/
def requestValue (eint : ℤ) (src : Source) : WkReqEn → Option Bool
  | .reqEn => if src = .eint ∧ eint = -1 then some false else some true
  | .reqDis => some false
  | .other => none

/-- A request: the source's bit, the pin of the debug key, and the debounce of the reset button. -/
def requestTable (eint : ℤ) (src : Source) (en : WkReqEn) : Table
  | .req src' => if src' = src then requestValue eint src en else none
  | .extReqBit i =>
    if src = .eint ∧ en = .reqEn ∧ eint ≠ -1 then
      some ((BitVec.ofInt 32 eint <<< 4 ||| 0x01#32).getLsbD i)
    else none
  | .deg1Bit i =>
    if src = .sysrst then
      match en with
      | .reqEn => some ((0x1b2a#32).getLsbD i)
      | .reqDis => some false
      | .other => none
    else none
  | .deg2Bit i =>
    if src = .sysrst then
      match en with
      | .reqEn => some ((0x4f59#32).getLsbD i)
      | .reqDis => some false
      | .other => none
    else none
  | _ => none

/-- No source at all. -/
def noRequest : Table
  | .req _ => some false
  | _ => none

def noIrq : Table
  | .reqIrq _ => some false
  | _ => none

def requestEnSet (s : Spec) (markBit : BitVec 32) (en : WkReqEn) : Spec :=
  let en := if s.vars.gApwdtEnDoe = 0 then .reqDis else en
  let s' := match Driver.sourceOf markBit with
    | some src => s.assign (requestTable s.vars.extDebugkeyIoEint src en)
    | none => s
  if s.vars.gApwdtEnDoe = 0 then s'.assign noRequest else s'

def requestModeSet (s : Spec) (markBit : BitVec 32) (mode : WkReqMode) : Spec :=
  let s' := match Driver.sourceOf markBit with
    | some src => match mode with
      | .irqMode => s.assign (only (.reqIrq src) true)
      | .rstMode => s.assign (only (.reqIrq src) false)
      | .other => s
    | none => s
  if s.vars.gApwdtEnDoe = 0 then s'.assign noIrq else s'

def probe (s : Spec) (kicker : Bool) (apwdtEn eint : Option ℤ) (ret : ℤ) : Spec :=
  let s := (s.setVars { s.vars with
    gApwdtEnDoe := apwdtEn.getD 1
    extDebugkeyIoEint := eint.getD s.vars.extDebugkeyIoEint }).assign (stageTable 3#3)
  if ret ≠ 0 then s
  else
    let s := (s.setVars { s.vars with wdtLastTimeoutVal := 32#32 }).assign (timeOutTable 32#32)
    if kicker = true ∧ s.vars.gApwdtEnDoe = 1 then s.assign (modeTable true true true false true)
    else (s.setVars { s.vars with wdtEnable := 0 }).assign (modeTable false false true false false)

end Spec

/-- What a call configures. -/
def Op.effect (s : Spec) : Op → Spec
  | .probe kicker apwdtEn eint ret _ _ _ => s.probe kicker apwdtEn eint ret
  | .setTimeOutValue value => s.assign (Spec.timeOutTable value)
  | .modeConfig dual irq ext pol wdt => s.assign (Spec.modeTable dual irq ext pol wdt)
  | .enable en => s.enable en
  | .confirmHwreboot => s.assign (Spec.modeTable true true true false true)
  | .restart .. => s
  | .suspend .. => s.suspend
  | .resume .. => s.resume
  | .dramReserved e => s.switch .ddrReserve e
  | .cfgEmiDcs e => s.switch .emiDcs e
  | .cfgDvfsrc e => s.cfgDvfsrc e
  | .mcuCachePreserve e => s.switch .cachePreserve e
  | .pauseDvfsrc e => s.pauseDvfsrc e
  | .swsysretConfig bit value => s.swsysretConfig bit value
  | .setC2kSysrst flag shift => s.assign (Spec.only (.moduleRst shift) (flag ≠ 1#32))
  | .dfdCountEn value => s.switch .dfdEn value
  | .dfdThermal1Dis value => s.switch .thermal1Dis value
  | .dfdThermal2Dis value => s.switch .thermal2Dis value
  | .dfdTimeout value => s.assign (Spec.dfdTimeoutTable value)
  | .requestEnSet mark en => s.requestEnSet mark en
  | .requestModeSet mark mode => s.requestModeSet mark mode
  | .markSspmReset => s.assign (Spec.only .sspmReset true)
  | .status value => { s with status := value }

/-! ### The registers as settings -/

variable {n : ℕ} {d : Device} {s : Driver n} {r : Reg} {v : BitVec 32}

/-- The setting as it stands in the registers. -/
def Driver.view (s : Driver n) : Config := fun f => (s.regs f.reg).getLsbD f.bit

def Driver.spec (s : Driver n) : Spec := ⟨s.view, s.vars, s.regs .status⟩

theorem Setting.bit_lt (f : Setting) : f.bit < 32 := by
  cases f with
  | req src => cases src <;> decide
  | reqIrq src => cases src <;> decide
  | _ => simp only [Setting.bit]; omega

/-- No setting stands in the place of a key. -/
theorem Setting.avoids_mask (f : Setting) : f.reg.keyMask.getLsbD f.bit = false := by
  have hbyte : ∀ i, i < 24 → (0xff000000#32).getLsbD i = false := by decide
  have hlength : ∀ i : Fin 11, (0x001f#32).getLsbD (5 + i) = false := by decide
  cases f with
  | tickBit i => exact hlength i
  | moduleRst i => exact hbyte i i.isLt
  | dfdTimeoutBit i => exact hbyte i (i.isLt.trans (by decide))
  | req src => cases src <;> rfl
  | reqIrq src => cases src <;> rfl
  | sspmReset => rfl
  | bypassPwrKey => rfl
  | suspendDis => rfl
  | stageBit i => exact BitVec.getLsbD_zero
  | extReqBit i => exact BitVec.getLsbD_zero
  | deg1Bit i => exact BitVec.getLsbD_zero
  | deg2Bit i => exact BitVec.getLsbD_zero
  | _ => rfl

theorem Setting.avoids_key (f : Setting) : f.reg.key.getLsbD f.bit = false := by
  rw [← key_and_mask, BitVec.getLsbD_and, f.avoids_mask, Bool.and_false]

/-- The setting at a place, if there is one. -/
def Setting.at : Reg → ℕ → Option Setting
  | .mode, 0 => some .enable
  | .mode, 1 => some .extPol
  | .mode, 2 => some .exten
  | .mode, 3 => some .irq
  | .mode, 4 => some .extraCnt
  | .mode, 6 => some .dualMode
  | .mode, 7 => some .ddrReserve
  | .length, k => if h : k - 5 < 11 then some (.tickBit ⟨k - 5, h⟩) else none
  | .nonrstReg2, 0 => some .sspmReset
  | .nonrstReg2, 13 => some .bypassPwrKey
  | .nonrstReg2, 14 => some .suspendDis
  | .nonrstReg2, k => if h : k - 29 < 3 then some (.stageBit ⟨k - 29, h⟩) else none
  | .reqMode, 1 => some (.req .scpsys)
  | .reqMode, 2 => some (.req .eint)
  | .reqMode, 3 => some (.req .sysrst)
  | .reqMode, 18 => some (.req .thermal)
  | .reqIrqEn, 1 => some (.reqIrq .scpsys)
  | .reqIrqEn, 2 => some (.reqIrq .eint)
  | .reqIrqEn, 3 => some (.reqIrq .sysrst)
  | .reqIrqEn, 18 => some (.reqIrq .thermal)
  | .extReqCon, k => if h : k < 32 then some (.extReqBit ⟨k, h⟩) else none
  | .sysdbgDegEn1, k => if h : k < 32 then some (.deg1Bit ⟨k, h⟩) else none
  | .sysdbgDegEn2, k => if h : k < 32 then some (.deg2Bit ⟨k, h⟩) else none
  | .swsysrst, k => if h : k < 24 then some (.moduleRst ⟨k, h⟩) else none
  | .debugCtl, 3 => some .cachePreserve
  | .debugCtl, 15 => some .pausePulse
  | .debugCtl2, 8 => some .emiDcs
  | .debugCtl2, 9 => some .dvfsrc
  | .latchCtl, 13 => some .latchDvfsrc
  | .latchCtl2, 17 => some .dfdEn
  | .latchCtl2, 18 => some .thermal1Dis
  | .latchCtl2, 19 => some .thermal2Dis
  | .latchCtl2, k => if h : k < 17 then some (.dfdTimeoutBit ⟨k, h⟩) else none
  | _, _ => none

theorem Setting.at_place (f : Setting) : Setting.at f.reg f.bit = some f := by
  cases f with
  | req src => cases src <;> rfl
  | reqIrq src => cases src <;> rfl
  | tickBit i => revert i; decide
  | stageBit i => revert i; decide
  | extReqBit i => revert i; decide
  | deg1Bit i => revert i; decide
  | deg2Bit i => revert i; decide
  | moduleRst i => revert i; decide
  | dfdTimeoutBit i => revert i; decide
  | _ => rfl

/-- Two settings have two places. -/
theorem Setting.eq_of_place {f g : Setting} (hreg : f.reg = g.reg) (hbit : f.bit = g.bit) : f = g := by
  rw [← Option.some_inj, ← f.at_place, ← g.at_place, hreg, hbit]

/-- The mask of a setting. -/
def Setting.mask (g : Setting) : BitVec 32 := 1#32 <<< g.bit

theorem Setting.getLsbD_mask {f g : Setting} (hreg : f.reg = g.reg) :
    g.mask.getLsbD f.bit = decide (f = g) := by
  have hmask : g.mask = Bits.bit 32 (⟨g.bit, g.bit_lt⟩ : Fin 32) := rfl
  rw [hmask, Bits.getLsbD_bit, decide_eq_true f.bit_lt, Bool.true_and, decide_eq_decide]
  exact ⟨fun h => Setting.eq_of_place hreg h, fun h => congrArg Setting.bit h⟩

theorem Setting.getLsbD_put {f g : Setting} (hreg : f.reg = g.reg) (b : Bool) (x : BitVec 32) :
    (put g.mask b x).getLsbD f.bit = if f = g then b else x.getLsbD f.bit := by
  simp only [Bits.getLsbD_put, Setting.getLsbD_mask hreg, decide_eq_true_eq]

/-! ### One write -/

@[simp] theorem Driver.writel_vars : (s.writel d v r).vars = s.vars := rfl

theorem Driver.writel_regs_of_ne {r' : Reg} (h : r' ≠ r) : (s.writel d v r).regs r' = s.regs r' :=
  Function.update_of_ne h ..

theorem Driver.view_writel_of_ne {f : Setting} (h : f.reg ≠ r) : (s.writel d v r).view f = s.view f := by
  rw [view, writel_regs_of_ne h, view]

theorem Driver.view_writel (hv : Keyed r v) {f : Setting} (h : f.reg = r) :
    (s.writel d v r).view f = v.getLsbD f.bit := by
  subst h
  show (Function.update s.regs f.reg (d.store f.reg (s.regs f.reg) v) f.reg).getLsbD f.bit = _
  rw [Function.update_self]
  exact d.takes hv _ f.avoids_mask

theorem Setting.reg_ne_status (f : Setting) : f.reg ≠ .status := by
  intro h
  cases f <;> cases h

theorem Setting.reg_ne_restart (f : Setting) : f.reg ≠ .restart := by
  intro h
  cases f <;> cases h

/-- A write of a value that says what the table says. -/
theorem Driver.spec_writel (hv : Keyed r v) (hr : r ≠ .status) (t : Table)
    (hval : ∀ f, f.reg = r → v.getLsbD f.bit = (t f).getD (s.view f))
    (hother : ∀ f, f.reg ≠ r → t f = none) : (s.writel d v r).spec = s.spec.assign t := by
  refine Spec.ext (funext fun f => ?_) rfl (writel_regs_of_ne hr.symm)
  by_cases hf : f.reg = r
  · exact (view_writel hv hf).trans (hval f hf)
  · show (s.writel d v r).view f = (t f).getD (s.view f)
    rw [view_writel_of_ne hf, hother f hf, Option.getD_none]

theorem Spec.assign_assign (c : Spec) (t u : Table) :
    (c.assign t).assign u = c.assign fun f => (u f).or (t f) := by
  refine Spec.ext (funext fun f => ?_) rfl rfl
  show (u f).getD ((t f).getD (c.config f)) = ((u f).or (t f)).getD (c.config f)
  cases u f <;> rfl

/-- A table is what it says of each setting. -/
theorem Spec.assign_congr {c : Spec} {t u : Table}
    (h : ∀ f, (t f).getD (c.config f) = (u f).getD (c.config f)) : c.assign t = c.assign u :=
  Spec.ext (funext h) rfl rfl

@[simp] theorem Driver.spec_setVars (vars : Vars) : (s.setVars vars).spec = s.spec.setVars vars := rfl

@[simp] theorem Driver.spec_vars : s.spec.vars = s.vars := rfl

@[simp] theorem Driver.spec_config : s.spec.config = s.view := rfl

theorem Driver.spec_externalReset : s.spec.externalReset ↔ s.externalReset := Iff.rfl

/-! ### The calls -/

/-- A write that changes one setting. -/
theorem Driver.spec_only (g : Setting) (b : Bool) (hv : Keyed g.reg v)
    (hval : ∀ f, f.reg = g.reg → v.getLsbD f.bit = if f = g then b else s.view f) :
    (s.writel d v g.reg).spec = s.spec.assign (Spec.only g b) := by
  refine spec_writel hv g.reg_ne_status _ (fun f hf => ?_)
    (fun f hf => if_neg fun hfg => hf (congrArg Setting.reg hfg))
  rw [hval f hf, Spec.only]
  split_ifs <;> rfl

/-- The same with the setting's mask, in a register read before. -/
theorem Driver.spec_put (g : Setting) (b : Bool) {x : BitVec 32} (hv : Keyed g.reg (put g.mask b x))
    (hx : ∀ f, f.reg = g.reg → x.getLsbD f.bit = s.view f) :
    (s.writel d (put g.mask b x) g.reg).spec = s.spec.assign (Spec.only g b) := by
  refine spec_only g b hv fun f hf => ?_
  rw [Setting.getLsbD_put hf, hx f hf]

theorem Driver.regs_view {f : Setting} (h : f.reg = r) : (s.regs r).getLsbD f.bit = s.view f := by
  rw [view, h]

/-- The key of a register is not in a setting's place. -/
theorem Driver.key_view {f : Setting} (h : f.reg = r) :
    (s.regs r ||| r.key).getLsbD f.bit = s.view f := by
  rw [BitVec.getLsbD_or, regs_view h, ← h, f.avoids_key, Bool.or_false]

/-- The value as it was read, with the key. -/
theorem Driver.spec_key (hv : Keyed r (s.regs r ||| r.key)) (hr : r ≠ .status) :
    (s.writel d (s.regs r ||| r.key) r).spec = s.spec :=
  spec_writel hv hr (fun _ => none) (fun _ hf => key_view hf) fun _ _ => rfl

theorem Driver.spec_restart (type : WdRestartType) (cpu time : ℤ) (caller : BitVec 64) :
    (s.restart d type cpu time caller).spec = s.spec := by
  have hkick : (s.writel d (Reg.key .restart) .restart).spec = s.spec :=
    spec_writel (key_and_mask .restart) (by decide) (fun _ => none)
      (fun f hf => absurd hf f.reg_ne_restart) fun _ _ => rfl
  cases type with
  | normal => exact hkick
  | nolock => exact hkick
  | other => rfl

theorem Driver.spec_markStage : (s.markStage d stageKernel).spec = s.spec.assign (Spec.stageTable 3#3) := by
  refine spec_writel (keyed_of_no_mask rfl rfl _) (by decide) _ (fun f hf => ?_) (fun f hf => ?_)
  · rw [BitVec.getLsbD_or, BitVec.getLsbD_and, regs_view hf]
    cases f with
    | sspmReset | bypassPwrKey | suspendDis =>
      exact (congrArg (· || false) (Bool.and_true _)).trans (Bool.or_false _)
    | stageBit i =>
      have hplace : ∀ i : Fin 3, (~~~(0x7#32 <<< 29)).getLsbD (29 + i) = false ∧
          (stageKernel <<< 29).getLsbD (29 + i) = (3#3).getLsbD i := by decide
      show (_ && (~~~(0x7#32 <<< 29)).getLsbD (29 + i) || (stageKernel <<< 29).getLsbD (29 + i)) =
        (3#3).getLsbD i
      rw [(hplace i).1, (hplace i).2, Bool.and_false, Bool.false_or]
    | _ => cases hf
  · cases f with
    | stageBit i => exact absurd rfl hf
    | _ => rfl

/-- A bit set before the key is put in. -/
theorem or_mask_or_key (x m k : BitVec 32) : x ||| m ||| k = put m true (x ||| k) := by
  rw [put, if_pos rfl, BitVec.or_assoc, BitVec.or_comm m, ← BitVec.or_assoc]

namespace Driver.Inv

/-- A bit cleared before the key is put in. -/
theorem spec_clear (h : s.Inv) (g : Setting) :
    (s.writel d (s.regs g.reg &&& ~~~ g.mask ||| g.reg.key) g.reg).spec =
      s.spec.assign (Spec.only g false) := by
  refine Driver.spec_only g false ((h.clean _).and _).or_key fun f hf => ?_
  rw [BitVec.getLsbD_or, ← hf, f.avoids_key, Bool.or_false, hf]
  show (put g.mask false (s.regs g.reg)).getLsbD f.bit = _
  rw [Setting.getLsbD_put hf, Driver.regs_view hf]

theorem spec_setOrClear (h : s.Inv) (g : Setting) (hg : g.mask &&& g.reg.keyMask = 0#32) (value : ℤ) :
    (s.setOrClear d g.reg g.mask value).spec = s.spec.switch g value := by
  have hstart := (h.clean g.reg).or_key
  rw [Driver.setOrClear, Spec.switch]
  split_ifs
  · rw [← BitVec.or_assoc, or_mask_or_key]
    exact Driver.spec_put g true (hstart.put hg true) fun f => Driver.key_view
  · exact h.spec_clear g
  · rfl

theorem spec_setTimeOutValue (_ : s.Inv) (value : BitVec 32) :
    (s.setTimeOutValue d value).spec = s.spec.assign (Spec.timeOutTable value) := by
  refine Driver.spec_writel ?_ (by decide) _ (fun f hf => ?_) (fun f hf => ?_)
  · rw [Keyed, BitVec.and_or_distrib_right, length_key_avoids, BitVec.zero_or]
    rfl
  · cases f with
    | tickBit i =>
      have hkey : (Reg.key .length).getLsbD (5 + i) = false := (Setting.tickBit i).avoids_key
      have hi : 5 + i.val < 32 := (Setting.tickBit i).bit_lt
      show (Spec.ticks value <<< 5 ||| Reg.key .length).getLsbD (5 + i) =
        (Spec.ticks value).getLsbD i
      rw [BitVec.getLsbD_or, hkey, Bool.or_false, BitVec.getLsbD_shiftLeft, decide_eq_true hi,
        decide_eq_false (by omega), Bool.not_false, Bool.true_and, Bool.true_and,
        Nat.add_sub_cancel_left]
    | _ => cases hf
  · cases f with
    | tickBit i => exact absurd rfl hf
    | _ => rfl

/-- The bits of `MODE`, and the power key. -/
theorem spec_modeConfig (h : s.Inv) (dual irq ext pol wdt : Bool) :
    (s.modeConfig d dual irq ext pol wdt).spec = s.spec.assign (Spec.modeTable dual irq ext pol wdt) := by
  have hstart : Keyed .mode (s.regs .mode ||| (Reg.key .mode ||| modeExtraCnt)) := by
    rw [← BitVec.or_assoc]
    exact (h.clean .mode).or_key.or rfl
  have hpower : (s.writel d (s.regs .nonrstReg2 ||| nonrst2BypassPwrKey) .nonrstReg2).spec =
      s.spec.assign (Spec.only .bypassPwrKey true) :=
    Driver.spec_put .bypassPwrKey true (keyed_of_no_mask rfl rfl _) fun f => Driver.regs_view
  refine (Driver.spec_writel (((((hstart.put rfl wdt).put rfl pol).put rfl ext).put rfl irq).put rfl
    dual) (by decide) (fun f => if f.reg = .mode then Spec.modeTable dual irq ext pol wdt f else none)
    (fun f hf => ?_) (fun f hf => if_neg hf)).trans ?_
  · have hother : f.reg ≠ .nonrstReg2 := by
      rw [hf]
      decide
    rw [if_pos hf, Driver.view_writel_of_ne hother, show modeDualMode = Setting.mask .dualMode from rfl,
      Setting.getLsbD_put hf, show modeIrq = Setting.mask .irq from rfl, Setting.getLsbD_put hf,
      show modeExten = Setting.mask .exten from rfl, Setting.getLsbD_put hf,
      show modeExtPol = Setting.mask .extPol from rfl, Setting.getLsbD_put hf,
      show modeEnable = Setting.mask .enable from rfl, Setting.getLsbD_put hf,
      ← BitVec.or_assoc, BitVec.getLsbD_or, Driver.key_view hf,
      show modeExtraCnt = Setting.mask .extraCnt from rfl, Setting.getLsbD_mask hf]
    cases f with
    | enable | extPol | exten | irq | dualMode => rfl
    | extraCnt => exact Bool.or_true _
    | ddrReserve => exact Bool.or_false _
    | _ => cases hf
  · rw [hpower, Spec.assign_assign]
    refine Spec.assign_congr fun f => ?_
    cases f <;> rfl

theorem spec_enable (h : s.Inv) (en : WkWdtEn) : (s.enable d en).spec = s.spec.enable en := by
  have hstart := (h.clean .mode).or_key
  rw [Driver.enable, Spec.enable.eq_def, Driver.spec_vars]
  split_ifs
  · rfl
  · cases en with
    | wdtEn =>
      exact Driver.spec_put (s := s.setVars { s.vars with wdtEnable := 1 }) .enable true
        (hstart.or rfl) fun f => Driver.key_view
    | wdtDis =>
      exact Driver.spec_put (s := s.setVars { s.vars with wdtEnable := 0 }) .enable false
        (hstart.and_not rfl) fun f => Driver.key_view
    | other => exact Driver.spec_key hstart (by decide)

theorem spec_suspend (h : s.Inv) (cpu time : ℤ) (caller : BitVec 64) :
    (s.suspend d cpu time caller).spec = s.spec.suspend := by
  rw [Driver.suspend, Driver.spec_restart, Spec.suspend]
  by_cases hext : s.externalReset
  · rw [if_pos hext, if_pos (Driver.spec_externalReset.mpr hext)]
  · rw [if_neg hext, if_neg (mt Driver.spec_externalReset.mp hext), ← h.spec_modeConfig (d := d)]
    exact Driver.spec_put .suspendDis true (keyed_of_no_mask rfl rfl _) fun f => Driver.regs_view

theorem spec_resume (h : s.Inv) (cpu time : ℤ) (caller : BitVec 64) :
    (s.resume d cpu time caller).spec = s.spec.resume := by
  rw [Driver.resume, Spec.resume, Driver.spec_vars]
  split_ifs with hen
  · have hticks := h.spec_setTimeOutValue (d := d) s.vars.wdtLastTimeoutVal
    have hinv := h.setTimeOutValue (d := d) s.vars.wdtLastTimeoutVal
    dsimp only
    rw [Driver.spec_restart, ← hticks]
    generalize s.setTimeOutValue d s.vars.wdtLastTimeoutVal = t at hinv
    by_cases hext : t.externalReset
    · rw [if_pos hext, if_pos (Driver.spec_externalReset.mpr hext)]
    · rw [if_neg hext, if_neg (mt Driver.spec_externalReset.mp hext),
        ← hinv.spec_modeConfig (d := d)]
      exact Driver.spec_put .suspendDis false (keyed_of_no_mask rfl rfl _) fun f => Driver.regs_view
  · rfl

theorem spec_cfgDvfsrc (h : s.Inv) (enable : ℤ) : (s.cfgDvfsrc d enable).1.spec = s.spec.cfgDvfsrc enable := by
  rw [Driver.cfgDvfsrc, Spec.cfgDvfsrc]
  split_ifs
  · have hfirst : (s.writel d (s.regs .debugCtl2 ||| debugCtl2DvfsrcEn ||| Reg.key .debugCtl2)
        .debugCtl2).spec = s.spec.assign (Spec.only .dvfsrc true) := by
      rw [or_mask_or_key]
      exact Driver.spec_put .dvfsrc true ((h.clean .debugCtl2).or_key.or rfl) fun f => Driver.key_view
    rw [← hfirst, or_mask_or_key (s.regs .latchCtl)]
    refine Driver.spec_put .latchDvfsrc true ((h.clean .latchCtl).or_key.or rfl) fun f hf => ?_
    have hother : f.reg ≠ .debugCtl2 := by
      rw [hf]
      decide
    rw [Driver.view_writel_of_ne hother]
    exact Driver.key_view hf
  · rfl

theorem spec_pauseDvfsrc (h : s.Inv) (enable : ℤ) :
    (s.pauseDvfsrc d enable).spec = s.spec.pauseDvfsrc enable := by
  have hoff : s.regs .debugCtl2 &&& debugCtl2DvfsrcEn = 0#32 ↔ ¬ s.view .dvfsrc = true := by
    have hmask : debugCtl2DvfsrcEn = Bits.bit 32 (9 : Fin 32) := rfl
    rw [hmask, and_bit_eq_zero_iff (le_refl 32), mem_places]
    exact Iff.rfl
  rw [Driver.pauseDvfsrc, Spec.pauseDvfsrc, Driver.spec_config]
  by_cases hdvfsrc : s.view .dvfsrc = true
  · rw [if_pos hdvfsrc, if_neg (mt hoff.mp (not_not.mpr hdvfsrc))]
    exact h.spec_setOrClear .pausePulse rfl enable
  · rw [if_neg hdvfsrc, if_pos (hoff.mpr hdvfsrc)]

theorem moduleOf_eq_some {bit : BitVec 32} {i : Fin 24} (hi : Spec.moduleOf bit = some i) :
    bit = Setting.mask (.moduleRst i) ∧
      (bit = swsysRstMd ∨ bit = swsysRstMfg ∨ bit = swsysRstC2k ∨ bit = swsysRstConmcu) := by
  unfold Spec.moduleOf at hi
  split_ifs at hi with h₁ h₂ h₃ h₄
  · exact ⟨by rw [h₁, ← Option.some.inj hi]; rfl, .inl h₁⟩
  · exact ⟨by rw [h₂, ← Option.some.inj hi]; rfl, .inr (.inl h₂)⟩
  · exact ⟨by rw [h₃, ← Option.some.inj hi]; rfl, .inr (.inr (.inl h₃))⟩
  · exact ⟨by rw [h₄, ← Option.some.inj hi]; rfl, .inr (.inr (.inr h₄))⟩

theorem moduleOf_eq_none {bit : BitVec 32} (hi : Spec.moduleOf bit = none) :
    ¬ (bit = swsysRstMd ∨ bit = swsysRstMfg ∨ bit = swsysRstC2k ∨ bit = swsysRstConmcu) := by
  rintro (rfl | rfl | rfl | rfl) <;> cases hi

theorem spec_swsysretConfig (h : s.Inv) (bit : BitVec 32) (setValue : ℤ) :
    (s.swsysretConfig d bit setValue).spec = s.spec.swsysretConfig bit setValue := by
  have hstart := (h.clean .swsysrst).or_key
  rw [Driver.swsysretConfig, Spec.swsysretConfig]
  cases hmod : Spec.moduleOf bit with
  | none =>
    have hknown := moduleOf_eq_none hmod
    rw [if_neg fun hset => hknown hset.1, if_neg fun hclear => hknown hclear.1]
    exact Driver.spec_key hstart (by decide)
  | some i =>
    obtain ⟨hbit, hknown⟩ := moduleOf_eq_some hmod
    have havoid : Setting.mask (.moduleRst i) &&& Reg.keyMask .swsysrst = 0#32 :=
      bit_avoids_key i.isLt
    simp only [hknown, true_and, Spec.switch]
    rw [hbit]
    split_ifs
    · exact Driver.spec_put (.moduleRst i) true (hstart.or havoid) fun f => Driver.key_view
    · exact Driver.spec_put (.moduleRst i) false (hstart.and_not havoid) fun f => Driver.key_view
    · exact Driver.spec_key hstart (by decide)

theorem spec_setC2kSysrst (h : s.Inv) (flag : BitVec 32) (shift : Fin 24) :
    (s.setC2kSysrst d flag shift).spec =
      s.spec.assign (Spec.only (.moduleRst shift) (flag ≠ 1#32)) := by
  have hstart := (h.clean .swsysrst).or_key
  have havoid : Setting.mask (.moduleRst shift) &&& Reg.keyMask .swsysrst = 0#32 :=
    bit_avoids_key shift.isLt
  rw [Driver.setC2kSysrst]
  split_ifs with hflag
  · rw [decide_eq_false (not_not.mpr hflag)]
    exact h.spec_clear (.moduleRst shift)
  · rw [decide_eq_true hflag, or_mask_or_key]
    exact Driver.spec_put (.moduleRst shift) true (hstart.or havoid) fun f => Driver.key_view

theorem spec_dfdTimeout (h : s.Inv) (value : BitVec 32) :
    (s.dfdTimeout d value).spec = s.spec.assign (Spec.dfdTimeoutTable value) := by
  have hvalue : value &&& latchCtl2TimeoutMask &&& Reg.keyMask .latchCtl2 = 0#32 := by
    rw [BitVec.and_assoc, show latchCtl2TimeoutMask &&& Reg.keyMask .latchCtl2 = 0#32 from rfl,
      BitVec.and_zero]
  have hplace : ∀ i : Fin 17, latchCtl2TimeoutMask.getLsbD i = true := by decide
  rw [Driver.dfdTimeout, ← BitVec.or_assoc]
  refine Driver.spec_writel (((h.clean .latchCtl2).and _).or hvalue).or_key (by decide) _
    (fun f hf => ?_) (fun f hf => ?_)
  · rw [BitVec.getLsbD_or, BitVec.getLsbD_or, BitVec.getLsbD_and, BitVec.getLsbD_and,
      BitVec.getLsbD_not, decide_eq_true f.bit_lt, Driver.regs_view hf, ← hf, f.avoids_key]
    cases f with
    | dfdEn | thermal1Dis | thermal2Dis =>
      simp [Setting.bit, latchCtl2TimeoutMask, Spec.dfdTimeoutTable]
    | dfdTimeoutBit i =>
      show (_ && (true && !latchCtl2TimeoutMask.getLsbD i) ||
        value.getLsbD i && latchCtl2TimeoutMask.getLsbD i || false) = value.getLsbD i
      simp [hplace i]
    | _ => cases hf
  · cases f with
    | dfdTimeoutBit i => exact absurd rfl hf
    | _ => rfl

end Driver.Inv

namespace Driver

/-- The bit of a source, as a request leaves it. -/
theorem spec_source (src : Source) (b : Option Bool) {x : BitVec 32} (hx : Keyed .reqMode x)
    (hview : ∀ f : Setting, f.reg = .reqMode → x.getLsbD f.bit = s.view f) :
    (s.writel d (match b with
      | some b => put src.mark b x
      | none => x) .reqMode).spec =
    s.spec.assign fun f => if f = .req src then b else none := by
  have hmark : src.mark = Setting.mask (.req src) := by
    cases src <;> rfl
  cases b with
  | none =>
    refine (spec_writel hx (by decide) (fun _ => none) hview fun _ _ => rfl).trans ?_
    refine Spec.assign_congr fun f => ?_
    rw [ite_self]
  | some b =>
    rw [hmark]
    exact spec_put (.req src) b (hx.put (hmark ▸ src.mark_avoids.1) b) hview

/-- A register of settings written whole. -/
theorem spec_word (hr : r.keyMask = 0#32) (hkey : r.key = 0#32) (hstatus : r ≠ .status)
    (v : BitVec 32) :
    (s.writel d v r).spec = s.spec.assign fun f => if f.reg = r then some (v.getLsbD f.bit) else none :=
  spec_writel (keyed_of_no_mask hr hkey v) hstatus _ (fun f hf => by rw [if_pos hf]; rfl)
    fun f hf => if_neg hf

/-- The registers a request writes beside `REQ_MODE`. -/
def requestSide (d : Device) (s : Driver n) : Source → WkReqEn → Driver n
  | .eint, .reqEn =>
    if s.vars.extDebugkeyIoEint = -1 then s
    else s.writel d (BitVec.ofInt 32 s.vars.extDebugkeyIoEint <<< 4 ||| 0x01#32) .extReqCon
  | .sysrst, .reqEn => (s.writel d 0x1b2a#32 .sysdbgDegEn1).writel d 0x4f59#32 .sysdbgDegEn2
  | .sysrst, .reqDis => (s.writel d 0#32 .sysdbgDegEn1).writel d 0#32 .sysdbgDegEn2
  | _, _ => s

theorem requestEnBranch_mark (src : Source) (en : WkReqEn) (x : BitVec 32) :
    (s.requestEnBranch d src.mark en x).1 = requestSide d s src en ∧
      (s.requestEnBranch d src.mark en x).2.1 =
        match Spec.requestValue s.vars.extDebugkeyIoEint src en with
        | some b => put src.mark b x
        | none => x := by
  cases src with
  | scpsys => cases en <;> exact ⟨rfl, rfl⟩
  | sysrst => cases en <;> exact ⟨rfl, rfl⟩
  | thermal => cases en <;> exact ⟨rfl, rfl⟩
  | eint =>
    have hbranch : s.requestEnBranch d (Source.mark .eint) en x =
        if en = .reqEn ∧ s.vars.extDebugkeyIoEint = -1 then (s, x &&& ~~~ Source.mark .eint, -1)
        else
          (if en = .reqEn then
            s.writel d (BitVec.ofInt 32 s.vars.extDebugkeyIoEint <<< 4 ||| 0x01#32) .extReqCon
            else s, requestBit (Source.mark .eint) en x, 0) := rfl
    rw [hbranch]
    cases en with
    | reqEn =>
      by_cases hmissing : s.vars.extDebugkeyIoEint = -1
      · simp [hmissing, requestSide, Spec.requestValue, put]
      · simp [hmissing, requestSide, Spec.requestValue, put, requestBit]
    | reqDis => exact ⟨rfl, rfl⟩
    | other => exact ⟨rfl, rfl⟩

theorem sourceOf_eq_some {markBit : BitVec 32} {src : Source} (h : sourceOf markBit = some src) :
    markBit = src.mark := by
  unfold sourceOf at h
  split_ifs at h with h₁ h₂ h₃ h₄
  · rw [h₁, ← Option.some.inj h]
  · rw [h₂, ← Option.some.inj h]
  · rw [h₃, ← Option.some.inj h]
  · rw [h₄, ← Option.some.inj h]

theorem requestEnBranch_none {markBit : BitVec 32} (h : sourceOf markBit = none) (en : WkReqEn)
    (x : BitVec 32) : s.requestEnBranch d markBit en x = (s, x, -1) := by
  unfold sourceOf at h
  split_ifs at h with h₁ h₂ h₃ h₄
  rw [requestEnBranch.eq_def, if_neg h₁, if_neg h₂, if_neg h₃, if_neg h₄]

theorem spec_requestSide (src : Source) (en : WkReqEn) :
    (requestSide d s src en).spec = s.spec.assign fun f =>
      if f.reg = .reqMode then none else Spec.requestTable s.vars.extDebugkeyIoEint src en f := by
  have hnothing : s.spec = s.spec.assign fun _ => none := rfl
  have hsysrst (v₁ v₂ : BitVec 32) :
      ((s.writel d v₁ .sysdbgDegEn1).writel d v₂ .sysdbgDegEn2).spec =
        s.spec.assign fun f => (if f.reg = .sysdbgDegEn2 then some (v₂.getLsbD f.bit) else none).or
          (if f.reg = .sysdbgDegEn1 then some (v₁.getLsbD f.bit) else none) := by
    rw [spec_word rfl rfl (by decide), spec_word rfl rfl (by decide), Spec.assign_assign]
  cases src with
  | scpsys =>
    refine hnothing.trans (Spec.assign_congr fun f => ?_)
    cases f <;> rfl
  | thermal =>
    refine hnothing.trans (Spec.assign_congr fun f => ?_)
    cases f <;> rfl
  | eint =>
    cases en with
    | reqEn =>
      by_cases hmissing : s.vars.extDebugkeyIoEint = -1
      · rw [requestSide, if_pos hmissing]
        refine hnothing.trans (Spec.assign_congr fun f => ?_)
        cases f <;> simp [hmissing, Setting.reg, Spec.requestTable]
      · rw [requestSide, if_neg hmissing, spec_word rfl rfl (by decide)]
        refine Spec.assign_congr fun f => ?_
        cases f with
        | extReqBit i => simp [hmissing, Setting.reg, Setting.bit, Spec.requestTable]
        | _ => rfl
    | reqDis =>
      refine hnothing.trans (Spec.assign_congr fun f => ?_)
      cases f <;> rfl
    | other =>
      refine hnothing.trans (Spec.assign_congr fun f => ?_)
      cases f <;> rfl
  | sysrst =>
    cases en with
    | reqEn =>
      refine (hsysrst _ _).trans (Spec.assign_congr fun f => ?_)
      cases f <;> rfl
    | reqDis =>
      refine (hsysrst _ _).trans (Spec.assign_congr fun f => ?_)
      cases f with
      | deg1Bit i => exact BitVec.getLsbD_zero
      | deg2Bit i => exact BitVec.getLsbD_zero
      | _ => rfl
    | other =>
      refine hnothing.trans (Spec.assign_congr fun f => ?_)
      cases f <;> rfl

theorem requestSide_reqMode (src : Source) (en : WkReqEn) :
    (requestSide d s src en).regs .reqMode = s.regs .reqMode := by
  have hstep {t : Driver n} {v : BitVec 32} {r : Reg} (hr : Reg.reqMode ≠ r)
      (ht : t.regs .reqMode = s.regs .reqMode) : (t.writel d v r).regs .reqMode = s.regs .reqMode :=
    (writel_regs_of_ne hr).trans ht
  unfold requestSide
  split
  · split_ifs
    · rfl
    · exact hstep (by decide) rfl
  · exact hstep (by decide) (hstep (by decide) rfl)
  · exact hstep (by decide) (hstep (by decide) rfl)
  · rfl

/-- The branches of a request, with the write of `REQ_MODE` that follows them. -/
theorem Inv.spec_requestEnBranch (h : s.Inv) (markBit : BitVec 32) (en : WkReqEn) :
    ((s.requestEnBranch d markBit en (s.regs .reqMode ||| Reg.key .reqMode)).1.writel d
      (s.requestEnBranch d markBit en (s.regs .reqMode ||| Reg.key .reqMode)).2.1 .reqMode).spec =
    match sourceOf markBit with
    | some src => s.spec.assign (Spec.requestTable s.vars.extDebugkeyIoEint src en)
    | none => s.spec := by
  have hstart := (h.clean .reqMode).or_key
  cases hsrc : sourceOf markBit with
  | none =>
    rw [requestEnBranch_none hsrc]
    exact spec_key hstart (by decide)
  | some src =>
    have hside := requestSide_reqMode (d := d) (s := s) src en
    obtain ⟨hstate, hval⟩ := requestEnBranch_mark (d := d) (s := s) src en
      (s.regs .reqMode ||| Reg.key .reqMode)
    rw [sourceOf_eq_some hsrc, hstate, hval, spec_source src _ hstart fun f hf => ?_,
      spec_requestSide, Spec.assign_assign]
    · refine Spec.assign_congr fun f => ?_
      cases f with
      | req src' => by_cases hsame : src' = src <;> simp [Spec.requestTable, Setting.reg, hsame]
      | _ => rfl
    · rw [← hside]
      exact key_view hf

theorem Inv.spec_requestEnSet (h : s.Inv) (markBit : BitVec 32) (en : WkReqEn) :
    (s.requestEnSet d markBit en).1.spec = s.spec.requestEnSet markBit en := by
  rw [Driver.requestEnSet, Spec.requestEnSet, spec_vars]
  by_cases hdoe : s.vars.gApwdtEnDoe = 0
  · simp only [if_pos hdoe]
    rw [← h.spec_requestEnBranch (d := d)]
    -- the key alone: every source is off
    refine spec_writel (key_and_mask .reqMode) (by decide) _ (fun f hf => ?_) (fun f hf => ?_)
    · rw [← hf, f.avoids_key]
      cases f with
      | req src => rfl
      | _ => cases hf
    · cases f with
      | req src => exact absurd rfl hf
      | _ => rfl
  · simp only [if_neg hdoe]
    exact h.spec_requestEnBranch markBit en

theorem Inv.spec_requestModeSet (h : s.Inv) (markBit : BitVec 32) (mode : WkReqMode) :
    (s.requestModeSet d markBit mode).1.spec = s.spec.requestModeSet markBit mode := by
  have hstart := (h.clean .reqIrqEn).or_key
  have hmark (src : Source) : src.mark = Setting.mask (.reqIrq src) := by
    cases src <;> rfl
  have hset (src : Source) (b : Bool) :
      (s.writel d (put src.mark b (s.regs .reqIrqEn ||| Reg.key .reqIrqEn)) .reqIrqEn).spec =
        s.spec.assign (Spec.only (.reqIrq src) b) := by
    have havoid := src.mark_avoids.2
    rw [hmark] at havoid ⊢
    exact spec_put (.reqIrq src) b (hstart.put havoid b) fun f => key_view
  -- the key alone: every source is for a reset
  have hclear (t : Driver n) :
      (t.writel d (Reg.key .reqIrqEn) .reqIrqEn).spec = t.spec.assign Spec.noIrq := by
    refine spec_writel (key_and_mask .reqIrqEn) (by decide) _ (fun f hf => ?_) (fun f hf => ?_)
    · rw [← hf, f.avoids_key]
      cases f with
      | reqIrq src => rfl
      | _ => cases hf
    · cases f with
      | reqIrq src => exact absurd rfl hf
      | _ => rfl
  rw [Driver.requestModeSet, Spec.requestModeSet, spec_vars]
  cases sourceOf markBit with
  | none =>
    split_ifs
    · exact (hclear _).trans (congrArg (·.assign Spec.noIrq) (spec_key hstart (by decide)))
    · exact spec_key hstart (by decide)
  | some src =>
    cases mode with
    | irqMode =>
      split_ifs
      · exact (hclear _).trans (congrArg (·.assign Spec.noIrq) (hset src true))
      · exact hset src true
    | rstMode =>
      split_ifs
      · exact (hclear _).trans (congrArg (·.assign Spec.noIrq) (hset src false))
      · exact hset src false
    | other =>
      split_ifs
      · exact (hclear _).trans (congrArg (·.assign Spec.noIrq) (spec_key hstart (by decide)))
      · exact spec_key hstart (by decide)

/-- What the device tree says, and the stage. -/
theorem spec_probeTree (apwdtEn eint : Option ℤ) :
    (s.probeTree d apwdtEn eint).spec = (s.spec.setVars { s.vars with
      gApwdtEnDoe := apwdtEn.getD 1
      extDebugkeyIoEint := eint.getD s.vars.extDebugkeyIoEint }).assign (Spec.stageTable 3#3) :=
  spec_markStage

theorem Inv.spec_probe (h : s.Inv) (kicker : Bool) (apwdtEn eint : Option ℤ) (ret cpu time : ℤ)
    (caller : BitVec 64) :
    (s.probe d kicker apwdtEn eint ret cpu time caller).spec = s.spec.probe kicker apwdtEn eint ret := by
  have htree : (s.probeTree d apwdtEn eint).Inv := (h.setVars _).markStage _
  have hspec := spec_probeTree (d := d) (s := s) apwdtEn eint
  rw [Driver.probe, Spec.probe, spec_vars, ← hspec]
  generalize s.probeTree d apwdtEn eint = t at htree
  split_ifs with hret
  · rfl
  · have hvars := htree.setVars { t.vars with wdtLastTimeoutVal := 32#32 }
    have hkicked := (hvars.setTimeOutValue (d := d) 32#32).restart (d := d) .normal cpu time caller
    have hticks := (spec_restart (d := d) .normal cpu time caller).trans
      (hvars.spec_setTimeOutValue (d := d) 32#32)
    by_cases hen : kicker = true ∧ t.vars.gApwdtEnDoe = 1
    · refine (congrArg Driver.spec (if_pos hen)).trans (Eq.trans ?_ (if_pos hen).symm)
      rw [hkicked.spec_modeConfig, hticks]
      rfl
    · refine (congrArg Driver.spec (if_neg hen)).trans (Eq.trans ?_ (if_neg hen).symm)
      rw [spec_setVars, hkicked.spec_modeConfig, hticks]
      rfl

end Driver

/-! ### Runs -/

/-- A call does to the settings what its table says. -/
theorem Driver.Inv.apply_refines (h : s.Inv) (op : Op) : (op.apply d s).spec = op.effect s.spec := by
  cases op with
  | probe kicker apwdtEn eint ret cpu time caller => exact h.spec_probe ..
  | setTimeOutValue value => exact h.spec_setTimeOutValue value
  | modeConfig dual irq ext pol wdt => exact h.spec_modeConfig ..
  | enable en => exact h.spec_enable en
  | confirmHwreboot => exact h.spec_modeConfig ..
  | restart type cpu time caller => exact Driver.spec_restart ..
  | suspend cpu time caller => exact h.spec_suspend ..
  | resume cpu time caller => exact h.spec_resume ..
  | dramReserved e => exact h.spec_setOrClear .ddrReserve rfl e
  | cfgEmiDcs e => exact h.spec_setOrClear .emiDcs rfl e
  | cfgDvfsrc e => exact h.spec_cfgDvfsrc e
  | mcuCachePreserve e => exact h.spec_setOrClear .cachePreserve rfl e
  | pauseDvfsrc e => exact h.spec_pauseDvfsrc e
  | swsysretConfig bit value => exact h.spec_swsysretConfig bit value
  | setC2kSysrst flag shift => exact h.spec_setC2kSysrst flag shift
  | dfdCountEn value => exact h.spec_setOrClear .dfdEn rfl value
  | dfdThermal1Dis value => exact h.spec_setOrClear .thermal1Dis rfl value
  | dfdThermal2Dis value => exact h.spec_setOrClear .thermal2Dis rfl value
  | dfdTimeout value => exact h.spec_dfdTimeout value
  | requestEnSet mark en => exact h.spec_requestEnSet mark en
  | requestModeSet mark mode => exact h.spec_requestModeSet mark mode
  | markSspmReset =>
    exact Driver.spec_put .sspmReset true (keyed_of_no_mask rfl rfl _) fun f => Driver.regs_view
  | status value =>
    refine Spec.ext (funext fun f => ?_) rfl ?_
    · show (Function.update s.regs .status value f.reg).getLsbD f.bit = s.view f
      rw [Function.update_of_ne f.reg_ne_status, Driver.view]
    · show Function.update s.regs .status value .status = value
      rw [Function.update_self]

/-- What a sequence of calls configures. -/
def Spec.run (s : Spec) (ops : List Op) : Spec := ops.foldl Op.effect s

/-- The registers follow the assignments, in any sequence of calls. -/
theorem spec_run (h : s.Inv) (ops : List Op) : (run d s ops).spec = s.spec.run ops := by
  induction ops generalizing s with
  | nil => rfl
  | cons op ops ih =>
    have hstep := h.apply_refines (d := d) op
    calc (run d (op.apply d s) ops).spec
        = (op.apply d s).spec.run ops := ih (h.apply op)
      _ = (op.effect s.spec).run ops := by rw [hstep]

end Rgu
