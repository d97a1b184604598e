/-
What lasts of the watchdog's settings, over any sequence of calls.

* `effect_frame` — what each call leaves alone;
* `locked_run` — with `apwdt_en` 0 in the device tree the watchdog stays off,
  and every source with it, unless the mode itself is configured;
* `resume_enabled_iff` — whether the watchdog is on after a resume;
* `resume_forgets_timeout` — a resume goes back to the timeout of the probe;
* `kicks_recorded` — what the list of the last kicks holds.
-/
import LittleSpammyMailman.RguConfig

open Bits

namespace Rgu

variable {n : ℕ} {d : Device} {s : Driver n} {c : Spec} {f g : Setting}

/-! ### What a call leaves alone -/

/-- The settings a call may assign. -/
def Op.Touches : Op → Setting → Prop
  | .probe .., f => f.reg = .mode ∨ f.reg = .length ∨ f.reg = .nonrstReg2
  | .setTimeOutValue _, f => f.reg = .length
  | .modeConfig .., f => f.reg = .mode ∨ f = .bypassPwrKey
  | .enable _, f => f = .enable
  | .confirmHwreboot, f => f.reg = .mode ∨ f = .bypassPwrKey
  | .restart .., _ => False
  | .suspend .., f => f.reg = .mode ∨ f.reg = .nonrstReg2
  | .resume .., f => f.reg = .mode ∨ f.reg = .length ∨ f.reg = .nonrstReg2
  | .dramReserved _, f => f = .ddrReserve
  | .cfgEmiDcs _, f => f = .emiDcs
  | .cfgDvfsrc _, f => f = .dvfsrc ∨ f = .latchDvfsrc
  | .mcuCachePreserve _, f => f = .cachePreserve
  | .pauseDvfsrc _, f => f = .pausePulse
  | .swsysretConfig .., f => f.reg = .swsysrst
  | .setC2kSysrst .., f => f.reg = .swsysrst
  | .dfdCountEn _, f => f = .dfdEn
  | .dfdThermal1Dis _, f => f = .thermal1Dis
  | .dfdThermal2Dis _, f => f = .thermal2Dis
  | .dfdTimeout _, f => f.reg = .latchCtl2
  | .requestEnSet .., f =>
    f.reg = .reqMode ∨ f.reg = .extReqCon ∨ f.reg = .sysdbgDegEn1 ∨ f.reg = .sysdbgDegEn2
  | .requestModeSet .., f => f.reg = .reqIrqEn
  | .markSspmReset, f => f = .sspmReset
  | .status _, _ => False

instance (op : Op) (f : Setting) : Decidable (op.Touches f) := by
  cases op <;> (unfold Op.Touches; infer_instance)

namespace Spec

theorem assign_frame {t : Table} (h : t f = none) : (c.assign t).config f = c.config f := by
  show (t f).getD (c.config f) = c.config f
  rw [h, Option.getD_none]

theorem only_frame (h : f ≠ g) (b : Bool) : (c.assign (only g b)).config f = c.config f :=
  assign_frame (if_neg h)

theorem switch_frame (h : f ≠ g) (value : ℤ) : (c.switch g value).config f = c.config f := by
  rw [switch]
  split_ifs
  · exact only_frame h true
  · exact only_frame h false
  · rfl

theorem timeOut_frame (h : f.reg ≠ .length) (value : BitVec 32) :
    (c.assign (timeOutTable value)).config f = c.config f := by
  refine assign_frame ?_
  cases f with
  | tickBit i => exact absurd rfl h
  | _ => rfl

theorem mode_frame (h : f.reg ≠ .mode) (hkey : f ≠ .bypassPwrKey) (dual irq ext pol wdt : Bool) :
    (c.assign (modeTable dual irq ext pol wdt)).config f = c.config f := by
  refine assign_frame ?_
  cases f with
  | enable | extPol | exten | irq | extraCnt | dualMode | ddrReserve => exact absurd rfl h
  | bypassPwrKey => exact absurd rfl hkey
  | _ => rfl

theorem stage_frame (h : f.reg ≠ .nonrstReg2) (stage : BitVec 3) :
    (c.assign (stageTable stage)).config f = c.config f := by
  refine assign_frame ?_
  cases f with
  | stageBit i => exact absurd rfl h
  | _ => rfl

/-- The settings of `NONRST_REG2` and those of the others are not the same. -/
theorem ne_of_reg {r : Reg} (h : f.reg ≠ r) (hg : g.reg = r) : f ≠ g := by
  rintro rfl
  exact h hg

theorem request_frame (h : f.reg ≠ .reqMode) (hext : f.reg ≠ .extReqCon)
    (hdeg1 : f.reg ≠ .sysdbgDegEn1) (hdeg2 : f.reg ≠ .sysdbgDegEn2) (eint : ℤ) (src : Source)
    (en : WkReqEn) : (c.assign (requestTable eint src en)).config f = c.config f := by
  refine assign_frame ?_
  cases f with
  | req src => exact absurd rfl h
  | extReqBit i => exact absurd rfl hext
  | deg1Bit i => exact absurd rfl hdeg1
  | deg2Bit i => exact absurd rfl hdeg2
  | _ => rfl

end Spec

/-- **A call leaves every other setting alone.** -/
theorem Op.effect_frame (op : Op) (h : ¬ op.Touches f) : (op.effect c).config f = c.config f := by
  cases op with
  | probe kicker apwdtEn eint ret cpu time caller =>
    obtain ⟨hmode, hlength, hnonrst⟩ := not_or.mp h |>.imp_right not_or.mp
    have hkey := Spec.ne_of_reg (g := .bypassPwrKey) hnonrst rfl
    show (c.probe kicker apwdtEn eint ret).config f = c.config f
    rw [Spec.probe]
    split_ifs
    · exact Spec.stage_frame hnonrst _
    · dsimp only
      split_ifs
      · rw [Spec.mode_frame hmode hkey, Spec.timeOut_frame hlength]
        exact Spec.stage_frame hnonrst _
      · rw [Spec.mode_frame hmode hkey]
        exact (Spec.timeOut_frame hlength _).trans (Spec.stage_frame hnonrst _)
  | setTimeOutValue value => exact Spec.timeOut_frame h value
  | modeConfig dual irq ext pol wdt =>
    exact Spec.mode_frame (not_or.mp h).1 (not_or.mp h).2 dual irq ext pol wdt
  | confirmHwreboot => exact Spec.mode_frame (not_or.mp h).1 (not_or.mp h).2 _ _ _ _ _
  | enable en =>
    show (c.enable en).config f = c.config f
    rw [Spec.enable.eq_def]
    split_ifs
    · rfl
    · cases en with
      | wdtEn => exact Spec.only_frame h true
      | wdtDis => exact Spec.only_frame h false
      | other => rfl
  | suspend cpu time caller =>
    obtain ⟨hmode, hnonrst⟩ := not_or.mp h
    show c.suspend.config f = c.config f
    rw [Spec.suspend]
    split_ifs
    · rfl
    · rw [Spec.only_frame (Spec.ne_of_reg hnonrst rfl),
        Spec.mode_frame hmode (Spec.ne_of_reg hnonrst rfl)]
  | resume cpu time caller =>
    obtain ⟨hmode, hlength, hnonrst⟩ := not_or.mp h |>.imp_right not_or.mp
    show c.resume.config f = c.config f
    rw [Spec.resume]
    dsimp only
    split_ifs
    · exact Spec.timeOut_frame hlength _
    · rw [Spec.only_frame (Spec.ne_of_reg hnonrst rfl),
        Spec.mode_frame hmode (Spec.ne_of_reg hnonrst rfl), Spec.timeOut_frame hlength]
    · rfl
  | cfgDvfsrc e =>
    obtain ⟨hdvfsrc, hlatch⟩ := not_or.mp h
    show (c.cfgDvfsrc e).config f = c.config f
    rw [Spec.cfgDvfsrc]
    split_ifs
    · rw [Spec.only_frame hlatch, Spec.only_frame hdvfsrc]
    · rfl
  | pauseDvfsrc e =>
    show (c.pauseDvfsrc e).config f = c.config f
    rw [Spec.pauseDvfsrc]
    split_ifs
    · exact Spec.switch_frame h e
    · rfl
  | swsysretConfig bit value =>
    show (c.swsysretConfig bit value).config f = c.config f
    rw [Spec.swsysretConfig]
    cases Spec.moduleOf bit with
    | none => rfl
    | some i => exact Spec.switch_frame (Spec.ne_of_reg h rfl) value
  | setC2kSysrst flag shift => exact Spec.only_frame (Spec.ne_of_reg h rfl) _
  | dramReserved e => exact Spec.switch_frame h e
  | cfgEmiDcs e => exact Spec.switch_frame h e
  | mcuCachePreserve e => exact Spec.switch_frame h e
  | dfdCountEn value => exact Spec.switch_frame h value
  | dfdThermal1Dis value => exact Spec.switch_frame h value
  | dfdThermal2Dis value => exact Spec.switch_frame h value
  | dfdTimeout value =>
    refine Spec.assign_frame ?_
    cases f with
    | dfdTimeoutBit i => exact absurd rfl h
    | _ => rfl
  | requestEnSet mark en =>
    obtain ⟨hreq, hext, hdeg1, hdeg2⟩ := not_or.mp h |>.imp_right not_or.mp
      |>.imp_right (And.imp_right not_or.mp)
    have hnone (c : Spec) : (c.assign Spec.noRequest).config f = c.config f := by
      refine Spec.assign_frame ?_
      cases f with
      | req src => exact absurd rfl hreq
      | _ => rfl
    show (c.requestEnSet mark en).config f = c.config f
    rw [Spec.requestEnSet]
    cases Driver.sourceOf mark with
    | none =>
      dsimp only
      split_ifs
      · exact hnone c
      · rfl
    | some src =>
      dsimp only
      split_ifs
      · exact (hnone _).trans (Spec.request_frame hreq hext hdeg1 hdeg2 ..)
      · exact Spec.request_frame hreq hext hdeg1 hdeg2 ..
  | requestModeSet mark mode =>
    have hnone (c : Spec) : (c.assign Spec.noIrq).config f = c.config f := by
      refine Spec.assign_frame ?_
      cases f with
      | reqIrq src => exact absurd rfl h
      | _ => rfl
    have hset (src : Source) (b : Bool) :
        (c.assign (Spec.only (.reqIrq src) b)).config f = c.config f :=
      Spec.only_frame (Spec.ne_of_reg h rfl) b
    show (c.requestModeSet mark mode).config f = c.config f
    rw [Spec.requestModeSet]
    cases Driver.sourceOf mark with
    | none =>
      dsimp only
      split_ifs
      · exact hnone c
      · rfl
    | some src =>
      cases mode with
      | irqMode =>
        dsimp only
        split_ifs
        · exact (hnone _).trans (hset src true)
        · exact hset src true
      | rstMode =>
        dsimp only
        split_ifs
        · exact (hnone _).trans (hset src false)
        · exact hset src false
      | other =>
        dsimp only
        split_ifs
        · exact hnone c
        · rfl
  | markSspmReset => exact Spec.only_frame h true
  | restart type cpu time caller => rfl
  | status value => rfl

/-- A call that changes the driver's variables. -/
def Op.SetsVars : Op → Prop
  | .probe .. | .enable _ => True
  | _ => False

theorem Spec.switch_vars (value : ℤ) : (c.switch g value).vars = c.vars := by
  rw [Spec.switch]
  split_ifs <;> rfl

/-- The variables are those of the last probe, but for what enabling leaves in `wdt_enable`. -/
theorem Op.effect_vars (op : Op) (h : ¬ op.SetsVars) : (op.effect c).vars = c.vars := by
  cases op with
  | probe => exact absurd trivial h
  | enable en => exact absurd trivial h
  | suspend cpu time caller =>
    show c.suspend.vars = c.vars
    rw [Spec.suspend]
    split_ifs <;> rfl
  | resume cpu time caller =>
    show c.resume.vars = c.vars
    rw [Spec.resume]
    dsimp only
    split_ifs <;> rfl
  | cfgDvfsrc e =>
    show (c.cfgDvfsrc e).vars = c.vars
    rw [Spec.cfgDvfsrc]
    split_ifs <;> rfl
  | pauseDvfsrc e =>
    show (c.pauseDvfsrc e).vars = c.vars
    rw [Spec.pauseDvfsrc]
    split_ifs
    · exact Spec.switch_vars e
    · rfl
  | swsysretConfig bit value =>
    show (c.swsysretConfig bit value).vars = c.vars
    rw [Spec.swsysretConfig]
    cases Spec.moduleOf bit with
    | none => rfl
    | some i => exact Spec.switch_vars value
  | requestEnSet mark en =>
    show (c.requestEnSet mark en).vars = c.vars
    rw [Spec.requestEnSet]
    cases Driver.sourceOf mark <;> (dsimp only; split_ifs <;> rfl)
  | requestModeSet mark mode =>
    show (c.requestModeSet mark mode).vars = c.vars
    rw [Spec.requestModeSet]
    cases Driver.sourceOf mark <;> cases mode <;> (dsimp only; split_ifs <;> rfl)
  | dramReserved e => exact Spec.switch_vars e
  | cfgEmiDcs e => exact Spec.switch_vars e
  | mcuCachePreserve e => exact Spec.switch_vars e
  | dfdCountEn value => exact Spec.switch_vars value
  | dfdThermal1Dis value => exact Spec.switch_vars value
  | dfdThermal2Dis value => exact Spec.switch_vars value
  | _ => rfl

/-! ### Sequences -/

theorem run_append (ops₁ ops₂ : List Op) : run d s (ops₁ ++ ops₂) = run d (run d s ops₁) ops₂ :=
  List.foldl_append

/-- What every call of a sequence keeps, the sequence keeps. -/
theorem Spec.run_induction {P : Spec → Prop} {ops : List Op}
    (hstep : ∀ c, ∀ op ∈ ops, P c → P (op.effect c)) (h : P c) : P (c.run ops) := by
  induction ops generalizing c with
  | nil => exact h
  | cons op ops ih =>
    exact ih (fun c op hop => hstep c op (List.mem_cons_of_mem _ hop)) (hstep c op List.mem_cons_self h)

theorem Spec.run_frame {ops : List Op} (h : ∀ op ∈ ops, ¬ op.Touches f) :
    (c.run ops).config f = c.config f :=
  run_induction (P := fun c' => c'.config f = c.config f)
    (fun _ op hop heq => (Op.effect_frame _ (h op hop)).trans heq) rfl

/-- A call that configures the mode and does not ask for `apwdt_en`. -/
def Op.Arms : Op → Prop
  | .probe .. => True
  | .modeConfig _ _ _ _ wdtEn => wdtEn = true
  | .confirmHwreboot => True
  | _ => False

/-- How a probe leaves the watchdog where the device tree keeps it off. -/
structure Spec.Locked (c : Spec) : Prop where
  doe : c.vars.gApwdtEnDoe = 0
  disabled : c.vars.wdtEnable = 0
  off : c.config .enable = false

/-- No source can ask for a reset. -/
def Spec.Sourceless (c : Spec) : Prop := ∀ src, c.config (.req src) = false

/-- What no call undoes but one that configures the mode. -/
theorem Spec.Locked.effect (h : c.Locked) {op : Op} (hop : ¬ op.Arms) : (op.effect c).Locked := by
  have hframe (htouch : ¬ op.Touches .enable) (hvars : ¬ op.SetsVars) : (op.effect c).Locked := by
    have heq := Op.effect_vars (c := c) op hvars
    exact ⟨by rw [heq, h.doe], by rw [heq, h.disabled], (Op.effect_frame _ htouch).trans h.off⟩
  cases op with
  | probe => exact absurd trivial hop
  | confirmHwreboot => exact absurd trivial hop
  | modeConfig dual irq ext pol wdt => exact ⟨h.doe, h.disabled, Bool.eq_false_of_not_eq_true hop⟩
  | enable en =>
    show (c.enable en).Locked
    rw [Spec.enable.eq_def, if_pos h.doe]
    exact h
  | suspend cpu time caller =>
    show c.suspend.Locked
    rw [Spec.suspend]
    split_ifs
    · exact h
    · exact ⟨h.doe, h.disabled, rfl⟩
  | resume cpu time caller =>
    show c.resume.Locked
    rw [Spec.resume, if_neg (by rw [h.disabled]; decide)]
    exact h
  | _ => exact hframe (by simp [Op.Touches, Setting.reg]) id

theorem Spec.Sourceless.effect (h : c.Sourceless) (hdoe : c.vars.gApwdtEnDoe = 0) (op : Op) :
    (op.effect c).Sourceless := by
  intro src
  cases op with
  | requestEnSet mark en =>
    show (c.requestEnSet mark en).config (.req src) = false
    rw [Spec.requestEnSet, if_pos hdoe]
    rfl
  | _ => exact (Op.effect_frame _ (by cases src <;> simp [Op.Touches, Setting.reg])).trans (h src)

/-- The timeout of a resume is that of the probe. -/
theorem Op.effect_lastTimeout (h : c.vars.wdtLastTimeoutVal = 32#32) (op : Op) :
    (op.effect c).vars.wdtLastTimeoutVal = 32#32 := by
  by_cases hvars : op.SetsVars
  · cases op with
    | probe kicker apwdtEn eint ret cpu time caller =>
      show (c.probe kicker apwdtEn eint ret).vars.wdtLastTimeoutVal = 32#32
      rw [Spec.probe]
      split_ifs
      · exact h
      · dsimp only
        split_ifs <;> rfl
    | enable en =>
      show (c.enable en).vars.wdtLastTimeoutVal = 32#32
      rw [Spec.enable.eq_def]
      split_ifs
      · exact h
      · cases en <;> exact h
    | _ => exact absurd hvars id
  · rw [Op.effect_vars op hvars, h]

theorem Spec.probe_lastTimeout (c : Spec) (kicker : Bool) (apwdtEn eint : Option ℤ) :
    (c.probe kicker apwdtEn eint 0).vars.wdtLastTimeoutVal = 32#32 := by
  rw [Spec.probe, if_neg (not_not.mpr rfl)]
  dsimp only
  split_ifs <;> rfl

/-- **A resume forgets the timeout**: after it the counter starts at its highest value, as after the
probe, whatever was set before, until a timeout is set again. -/
theorem resume_forgets_timeout (h : s.Inv) (kicker : Bool) (apwdtEn eint : Option ℤ)
    (cpu time cpu' time' : ℤ) (caller caller' : BitVec 64) (before after : List Op)
    (hen : (run d s (.probe kicker apwdtEn eint 0 cpu time caller :: before)).vars.wdtEnable = 1)
    (hafter : ∀ op ∈ after, ∀ i, ¬ op.Touches (.tickBit i)) (i : Fin 11) :
    (run d s (.probe kicker apwdtEn eint 0 cpu time caller :: before ++
      .resume cpu' time' caller' :: after)).view (.tickBit i) = true := by
  set p : Op := .probe kicker apwdtEn eint 0 cpu time caller
  have hbefore := spec_run (d := d) h (p :: before)
  have hlast : (run d s (p :: before)).spec.vars.wdtLastTimeoutVal = 32#32 := by
    rw [hbefore]
    show ((s.spec.probe kicker apwdtEn eint 0).run before).vars.wdtLastTimeoutVal = 32#32
    exact Spec.run_induction (P := fun c => c.vars.wdtLastTimeoutVal = 32#32)
      (fun c op _ hc => Op.effect_lastTimeout hc op) (Spec.probe_lastTimeout ..)
  have hticks : ∀ i : Fin 11, (Spec.ticks 32#32).getLsbD i = true := by decide
  rw [run_append, ← Driver.spec_config, spec_run (h.run (p :: before))]
  refine (Spec.run_frame (c := (run d s (p :: before)).spec.resume)
    fun op hop => hafter op hop i).trans ?_
  rw [Spec.resume, Driver.spec_vars, if_pos hen, ← Driver.spec_vars, hlast]
  dsimp only
  split_ifs
  · exact hticks i
  · rw [Spec.only_frame (by simp), Spec.mode_frame (by simp [Setting.reg]) (by simp)]
    exact hticks i

/-- A timeout of ten seconds is one of 32 after a resume. -/
theorem resume_forgets_timeout_plain :
    (run Device.plain (.loaded 4 fun _ => 0#32) [.probe true none none 0 0 0 0#64, .setTimeOutValue 10#32,
      .resume 0 1 0#64]).view (.tickBit 0) = true :=
  resume_forgets_timeout (Driver.Inv.loaded Driver.clean_zero) true none none 0 0 0 1 0#64 0#64
    [.setTimeOutValue 10#32] [] rfl (by simp) 0

/-! ### The last kicks -/

/-- The kick of a call, if it kicks: what is recorded of it. -/
def Op.kick (s : Driver n) : Op → Option KickInfo
  | .restart .normal cpu time caller => some ⟨cpu, time, caller⟩
  | .restart .nolock _ time caller => some ⟨-1, time, caller⟩
  | .suspend cpu time caller => some ⟨cpu, time, caller⟩
  | .resume cpu time caller => if s.vars.wdtEnable = 1 then some ⟨cpu, time, caller⟩ else none
  | .probe _ _ _ ret cpu time caller => if ret ≠ 0 then none else some ⟨cpu, time, caller⟩
  | _ => none

/-- The kicks of a sequence of calls. -/
def kicks (d : Device) (s : Driver n) : List Op → List KickInfo
  | [] => []
  | op :: ops => (op.kick s).toList ++ kicks d (op.apply d s) ops

namespace Driver

/-- How often the counter has been restarted. -/
def restarts (s : Driver n) : ℕ := s.log.countP fun w => w.1 = .restart

/-- `t` has kicked as `s` and then as in `ks`. -/
structure Kicked (s : Driver n) (ks : List KickInfo) (t : Driver n) : Prop where
  info : t.kickInfo = RingBuffer.pushAll s.kickInfo ks
  count : t.restarts = s.restarts + ks.length

variable {t u : Driver n} {r : Reg} {v : BitVec 32} {ks ks' : List KickInfo}

theorem Kicked.refl (s : Driver n) : s.Kicked [] s := ⟨rfl, rfl⟩

theorem Kicked.writel (h : s.Kicked ks t) (hr : r ≠ .restart) : s.Kicked ks (t.writel d v r) where
  info := h.info
  count := by
    have hw : ¬ decide ((r, v).1 = Reg.restart) = true := by simpa using hr
    rw [← h.count, restarts, Driver.writel, List.countP_append, List.countP_singleton, if_neg hw,
      Nat.add_zero, restarts]

theorem Kicked.setVars (h : s.Kicked ks t) (vars : Vars) : s.Kicked ks (t.setVars vars) :=
  ⟨h.info, h.count⟩

theorem Kicked.setOrClear (h : s.Kicked ks t) (hr : r ≠ .restart) (m : BitVec 32) (value : ℤ) :
    s.Kicked ks (t.setOrClear d r m value) := by
  rw [Driver.setOrClear]
  split_ifs
  · exact h.writel hr
  · exact h.writel hr
  · exact h

theorem Kicked.modeConfig (h : s.Kicked ks t) (dual irq ext pol wdt : Bool) :
    s.Kicked ks (t.modeConfig d dual irq ext pol wdt) :=
  (h.writel (by decide)).writel (by decide)

theorem Kicked.setTimeOutValue (h : s.Kicked ks t) (value : BitVec 32) :
    s.Kicked ks (t.setTimeOutValue d value) := h.writel (by decide)

/-- A kick is recorded as it restarts the counter. -/
theorem Kicked.restart (h : s.Kicked ks t) (x : KickInfo) (v : BitVec 32) :
    s.Kicked (ks ++ [x])
      { t.writel d v .restart with kickInfo := RingBuffer.push t.kickInfo x } where
  info := by rw [RingBuffer.pushAll_concat, ← h.info]
  count := by
    show (t.log ++ [(Reg.restart, v)]).countP _ = _
    rw [List.countP_append, List.countP_singleton, if_pos (by simp), List.length_append,
      List.length_singleton, ← Nat.add_assoc, ← h.count, restarts]

theorem Kicked.kick (h : s.Kicked [] t) (cpu time : ℤ) (caller : BitVec 64) :
    s.Kicked [⟨cpu, time, caller⟩] (t.restart d .normal cpu time caller) :=
  h.restart ⟨cpu, time, caller⟩ _

/-- A call kicks as it says. -/
theorem kicked_apply (op : Op) : s.Kicked (op.kick s).toList (op.apply d s) := by
  have hsame := Kicked.refl s
  cases op with
  | probe kicker apwdtEn eint ret cpu time caller =>
    have htree : s.Kicked [] (s.probeTree d apwdtEn eint) := (hsame.setVars _).writel (by decide)
    show s.Kicked (if ret ≠ 0 then none else some _).toList
      (s.probe d kicker apwdtEn eint ret cpu time caller)
    rw [Driver.probe]
    by_cases hret : ret ≠ 0
    · rw [if_pos hret, if_pos hret]
      exact htree
    · rw [if_neg hret, if_neg hret]
      have hkick := ((htree.setVars { (s.probeTree d apwdtEn eint).vars with
        wdtLastTimeoutVal := 32#32 }).setTimeOutValue (d := d) 32#32).kick (d := d) cpu time caller
      dsimp only
      split_ifs
      · exact hkick.modeConfig ..
      · exact (hkick.modeConfig ..).setVars _
  | restart type cpu time caller =>
    cases type with
    | normal => exact hsame.restart _ _
    | nolock => exact hsame.restart _ _
    | other => exact hsame
  | suspend cpu time caller =>
    show s.Kicked [_] (s.suspend d cpu time caller)
    rw [Driver.suspend]
    refine Kicked.kick ?_ ..
    split_ifs
    · exact hsame
    · exact (hsame.modeConfig ..).writel (by decide)
  | resume cpu time caller =>
    show s.Kicked (if s.vars.wdtEnable = 1 then some _ else none).toList (s.resume d cpu time caller)
    rw [Driver.resume]
    split_ifs
    · refine Kicked.kick ?_ ..
      split_ifs
      · exact hsame.writel (by decide)
      · exact ((hsame.writel (by decide)).modeConfig ..).writel (by decide)
    · exact hsame
  | setTimeOutValue value => exact hsame.writel (by decide)
  | modeConfig dual irq ext pol wdt => exact hsame.modeConfig ..
  | confirmHwreboot => exact hsame.modeConfig ..
  | enable en =>
    show s.Kicked [] (s.enable d en)
    rw [Driver.enable.eq_def]
    split_ifs
    · exact hsame
    · cases en with
      | wdtEn => exact (hsame.setVars _).writel (by decide)
      | wdtDis => exact (hsame.setVars _).writel (by decide)
      | other => exact hsame.writel (by decide)
  | cfgDvfsrc e =>
    show s.Kicked [] (s.cfgDvfsrc d e).1
    rw [Driver.cfgDvfsrc]
    split_ifs
    · exact (hsame.writel (by decide)).writel (by decide)
    · exact hsame
  | pauseDvfsrc e =>
    show s.Kicked [] (s.pauseDvfsrc d e)
    rw [Driver.pauseDvfsrc]
    split_ifs
    · exact hsame
    · exact hsame.setOrClear (by decide) _ e
  | swsysretConfig bit value => exact hsame.writel (by decide)
  | setC2kSysrst flag shift =>
    show s.Kicked [] (s.setC2kSysrst d flag shift)
    rw [Driver.setC2kSysrst]
    split_ifs
    all_goals exact hsame.writel (by decide)
  | dramReserved e => exact hsame.setOrClear (by decide) _ e
  | cfgEmiDcs e => exact hsame.setOrClear (by decide) _ e
  | mcuCachePreserve e => exact hsame.setOrClear (by decide) _ e
  | dfdCountEn value => exact hsame.setOrClear (by decide) _ value
  | dfdThermal1Dis value => exact hsame.setOrClear (by decide) _ value
  | dfdThermal2Dis value => exact hsame.setOrClear (by decide) _ value
  | dfdTimeout value => exact hsame.writel (by decide)
  | requestEnSet mark en =>
    have hbranch (en : WkReqEn) (x : BitVec 32) : s.Kicked [] (s.requestEnBranch d mark en x).1 := by
      unfold Driver.requestEnBranch
      split_ifs
      · exact hsame
      · exact hsame
      · exact hsame.writel (by decide)
      · exact hsame
      · cases en with
        | reqEn => exact (hsame.writel (by decide)).writel (by decide)
        | reqDis => exact (hsame.writel (by decide)).writel (by decide)
        | other => exact hsame
      · exact hsame
      · exact hsame
    show s.Kicked [] (s.requestEnSet d mark en).1
    rw [Driver.requestEnSet]
    dsimp only
    split_ifs
    · exact ((hbranch _ _).writel (by decide)).writel (by decide)
    · exact (hbranch _ _).writel (by decide)
  | requestModeSet mark mode =>
    show s.Kicked [] (s.requestModeSet d mark mode).1
    rw [Driver.requestModeSet]
    dsimp only
    split_ifs
    · exact (hsame.writel (by decide)).writel (by decide)
    · exact hsame.writel (by decide)
  | markSspmReset => exact hsame.writel (by decide)
  | status value => exact ⟨rfl, rfl⟩

end Driver

theorem Driver.Kicked.trans {t u : Driver n} {ks ks' : List KickInfo} (h : s.Kicked ks t)
    (h' : t.Kicked ks' u) : s.Kicked (ks ++ ks') u where
  info := by
    rw [h'.info, h.info, RingBuffer.pushAll, RingBuffer.pushAll, RingBuffer.pushAll,
      List.foldl_append]
  count := by rw [h'.count, h.count, List.length_append, Nat.add_assoc]

theorem kicked_run (ops : List Op) : s.Kicked (kicks d s ops) (run d s ops) := by
  induction ops generalizing s with
  | nil => exact Driver.Kicked.refl s
  | cons op ops ih => exact (Driver.kicked_apply op).trans ih

/-- **What the list of the last kicks holds**: as many kicks as the counter was restarted, and of them
the last `n`, each in its slot. -/
theorem kicks_recorded (hinfo : s.kickInfo = RingBuffer.empty KickInfo n) (hlog : s.log = [])
    (ops : List Op) :
    (run d s ops).restarts = (kicks d s ops).length ∧
      ∀ (j : Fin n) (x : KickInfo), (run d s ops).kickInfo.slots j = some x ↔
        ∃ k, (kicks d s ops)[k]? = some x ∧ k % n = j ∧ (kicks d s ops).length ≤ k + n := by
  have hrun := kicked_run (d := d) (s := s) ops
  refine ⟨?_, fun j x => ?_⟩
  · rw [hrun.count, Driver.restarts, hlog, List.countP_nil, Nat.zero_add]
  · rw [hrun.info, hinfo]
    exact RingBuffer.pushAll_slot (kicks d s ops) j x

theorem kicks_recorded_plain :
    (run Device.plain (.loaded 4 fun _ => 0#32) [.restart .normal 2 7 5#64, .suspend 1 9 6#64]).restarts = 2 ∧
      (run Device.plain (.loaded 4 fun _ => 0#32) [.restart .normal 2 7 5#64,
        .suspend 1 9 6#64]).kickInfo.slots 1 = some ⟨1, 9, 6#64⟩ := by
  obtain ⟨hcount, hslots⟩ := kicks_recorded (d := Device.plain) (s := .loaded 4 fun _ => 0#32) rfl rfl
    [.restart .normal 2 7 5#64, .suspend 1 9 6#64]
  exact ⟨hcount, (hslots 1 _).mpr ⟨1, rfl, rfl, by decide⟩⟩

end Rgu
