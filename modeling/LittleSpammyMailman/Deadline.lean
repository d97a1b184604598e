/-
How long the watchdog of a healthy system waits for a restart.

Time is not under the program's control, so the runs here carry a clock and
the promises of the scheduler: a thread that sleeps is back at its next sleep
when the range of `usleep_range` and a slack are over, and a hotplug callback
finishes within the slack. The CPUs may come and go, and commands may change
the interval.

* `alignKick_le` — whatever the clock reads, a kick sleeps for the interval at
  most;
* `Timed.Inv`, `Timed.Inv.step` — who owes a kick, and by when;
* `restart_in_time` — the bound, in any run from the start;
* `restart_late` — after any command the interval and the range do pass, so with
  an interval equal to the timeout a healthy system is too late.
-/
import LittleSpammyMailman.Delivery

open Bits

namespace Kicker

variable {env : Env}

/-- `SOFT_KICK_RANGE`, in µs. -/
def softKickRange : ℕ := 100 * 1000

/-- A system with its clock, all in µs: when the watchdog was restarted last, by when each thread is
asleep again, and by when the hotplug callback has restarted the watchdog. -/
structure Timed (env : Env) where
  sys : Sys env
  now : ℕ
  lastRestart : ℕ
  due : ℕ → ℕ
  plugDue : ℕ

/-- The thread is at the test of its CPU. -/
def Sys.AtKick (s : Sys env) (pid : ℕ) : Prop := ∃ cur, (s.threads pid).pc = .kick cur

/-- What a healthy system does: the kicker is on with an interval of at most `bound` seconds, each
thread kicks on its own CPU while the kicker waits for that CPU and on no other, a CPU that comes
has a thread, one CPU stays, and nobody holds the power key. -/
structure Healthy (bound : ℕ) (s : Sys env) (e : Event) : Prop where
  ready : s.wdk.ready = true
  enabled : s.wdk.gEnable ≠ 0
  interval : s.wdk.gKinterval ≤ bound
  home : ∀ pid cpu now hwt, e = .thread pid cpu now hwt → s.AtKick pid →
    ∀ c ∈ s.wdk.watched, s.wdk.wkTsk c = some pid → cpu = c
  noStray : ∀ pid cpu now hwt, e = .thread pid cpu now hwt → s.AtKick pid →
    s.wdk.wkTsk cpu = some pid → cpu ∈ s.wdk.watched
  staffed : ∀ c, e = .plug c true → s.wdk.wkTsk c ≠ none
  manned : ∀ c, e = .plug c false → ∃ d ∈ s.wdk.watched, d ≠ c
  noPowerKey : s.observe e ≠ some (.expect Finset.univ)

variable (slack : ℕ)

/-- The next deadline of a thread that has gone to sleep. -/
def nextDue (due : ℕ → ℕ) (s : Sys env) (n : ℕ) : Event → ℕ → ℕ
  | .thread pid .. =>
    match (s.threads pid).pc with
    | .sleep cur => Function.update due pid (n + cur.toNat + softKickRange + slack)
    | _ => due
  | _ => due

/-- The callback's deadline. -/
def nextPlugDue (plugDue n : ℕ) : Event → ℕ
  | .plug .. => n + slack
  | _ => plugDue

namespace Timed

/-- It may be `n` and nothing else has happened: nobody is late. -/
structure Waits (t : Timed env) (n : ℕ) : Prop where
  now_le : t.now ≤ n
  due : ∀ c pid, t.sys.wdk.wkTsk c = some pid → n ≤ t.due pid
  plugDue : t.sys.plugging ≠ none → n ≤ t.plugDue

/-- The system after an event at `n`. -/
def after (t : Timed env) (n : ℕ) (e : Event) (s' : Sys env) (effs : List Effect) : Timed env where
  sys := s'
  now := n
  lastRestart := if .restart ∈ effs then n else t.lastRestart
  due := nextDue slack t.due s' n e
  plugDue := nextPlugDue slack t.plugDue n e

/-- The runs of a healthy system. -/
inductive Steps (bound : ℕ) : Timed env → Timed env → Prop
  | refl (t : Timed env) : Steps bound t t
  | tail {t u : Timed env} {n : ℕ} {e : Event} {s' : Sys env} {effs : List Effect}
      (h : Steps bound t u) (hn : u.Waits n) (hh : Healthy bound u.sys e)
      (hs : u.sys.step e = some (s', effs)) : Steps bound t (u.after slack n e s' effs)

end Timed

/-! ### The interval -/

variable {w : Wdk} {slack bound : ℕ}

theorem toNat_intervalUs (h1 : 1 ≤ w.gKinterval) (h2 : w.gKinterval ≤ 30) :
    (w.intervalUs.toNat : ℤ) = w.gKinterval * 1000000 := by
  obtain ⟨k, hk⟩ : ∃ k : ℕ, w.gKinterval = k := ⟨w.gKinterval.toNat, by omega⟩
  rw [Wdk.intervalUs, hk, mul_assoc]
  rw [hk] at h2
  have hlt : k * 1000000 < 2 ^ 64 := by omega
  have hcast : (k : ℤ) * (1000 * 1000) = ((k * 1000000 : ℕ) : ℤ) := by push_cast; ring
  rw [hcast, UInt64.ofInt, UInt64.toNat_ofNat', Int.emod_eq_of_lt (by omega) (by omega),
    Int.toNat_natCast, Nat.mod_eq_of_lt hlt]
  push_cast
  ring

/-- **The sleep after a kick**: the interval at most, whatever the clock and the last kick say. -/
theorem alignKick_le (w : Wdk) (now : UInt64) : (w.alignKick now).2 ≤ w.intervalUs := by
  have hclamp (i cur : UInt64) : (if i < cur then i else cur) ≤ i := by
    split_ifs with h
    · exact UInt64.le_refl i
    · exact UInt64.not_lt.mp h
  exact hclamp _ _

/-- What a thread has yet to sleep by its own variable. -/
def Pc.curInterval : Pc → UInt64
  | .top | .check .. => 0
  | .configure _ cur | .clear cur | .kick cur | .sleep cur => cur

/-- It has just gone to sleep. -/
def Pc.isSleep : Pc → Bool
  | .sleep _ => true
  | _ => false

namespace Timed

variable {t : Timed env} {start : ℕ}

/-- The longest time from a sleep to the next one. -/
def cycle (bound slack : ℕ) : ℕ := bound * 1000000 + softKickRange + slack

/-- Who owes a kick of the round that began at `start`, and by when. -/
structure Inv (bound slack : ℕ) (t : Timed env) (start : ℕ) : Prop where
  fits : ∃ r, t.sys.wdk.Fits r ∧ r.UnderWay
  staffed : ∀ c ∈ t.sys.wdk.watched, t.sys.wdk.wkTsk c ≠ none
  interval_pos : 1 ≤ t.sys.wdk.gKinterval
  interval_le : t.sys.wdk.gKinterval ≤ 30
  sleeps : ∀ pid, (t.sys.threads pid).pc.curInterval.toNat ≤ bound * 1000000
  due_le : ∀ c pid, t.sys.wdk.wkTsk c = some pid → t.due pid ≤ t.now + cycle bound slack
  owed : ∀ c ∈ t.sys.wdk.watched, c ∉ t.sys.wdk.kicked → ∀ pid, t.sys.wdk.wkTsk c = some pid →
    t.due pid ≤ start + cycle bound slack
  start_le : start ≤ t.now
  lastRestart_le : t.lastRestart ≤ t.now
  restarted : t.sys.plugging = none → start ≤ t.lastRestart
  plugged : t.sys.plugging ≠ none → t.plugDue ≤ t.lastRestart + cycle bound slack + slack

/-- While no callback is on its way, somebody who has yet to kick is not late. -/
theorem Inv.le_of_not_plugging {n : ℕ} (h : Inv bound slack t start) (hn : t.Waits n)
    (hplug : t.sys.plugging = none) : n ≤ t.lastRestart + cycle bound slack := by
  obtain ⟨r, hr, hway⟩ := h.fits
  obtain ⟨c, hc, haway⟩ := Finset.exists_of_ssubset hway
  rw [← hr.members] at hc
  rw [← hr.arrived] at haway
  obtain ⟨pid, hpid⟩ := Option.ne_none_iff_exists'.mp (h.staffed c hc)
  have howed := h.owed c hc haway pid hpid
  have hdue := hn.due c pid hpid
  have hstart := h.restarted hplug
  omega

/-- **The bound, at one time**: as long as nobody is late. -/
theorem Inv.le_lastRestart {n : ℕ} (h : Inv bound slack t start) (hn : t.Waits n) :
    n ≤ t.lastRestart + cycle bound slack + slack := by
  by_cases hplug : t.sys.plugging = none
  · exact (h.le_of_not_plugging hn hplug).trans (Nat.le_add_right _ _)
  · exact (hn.plugDue hplug).trans (h.plugged hplug)

/-- A step that leaves the round alone. -/
theorem Inv.quiet {n : ℕ} {s' : Sys env} {due : ℕ → ℕ} (h : Inv bound slack t start)
    (hn : t.now ≤ n) (hcheck : s'.wdk.cpusKickBit = t.sys.wdk.cpusKickBit)
    (hkick : s'.wdk.kickBit = t.sys.wdk.kickBit)
    (hhang : s'.wdk.gHangDetected = t.sys.wdk.gHangDetected)
    (htsk : s'.wdk.wkTsk = t.sys.wdk.wkTsk)
    (hpos : 1 ≤ s'.wdk.gKinterval) (hle : s'.wdk.gKinterval ≤ 30)
    (hplug : s'.plugging = t.sys.plugging)
    (hsleeps : ∀ pid, (s'.threads pid).pc.curInterval.toNat ≤ bound * 1000000)
    (hdue : ∀ c pid, t.sys.wdk.wkTsk c = some pid → due pid ≤ n + cycle bound slack)
    (howed : ∀ c ∈ t.sys.wdk.watched, c ∉ t.sys.wdk.kicked → ∀ pid,
      t.sys.wdk.wkTsk c = some pid → due pid ≤ start + cycle bound slack) :
    Inv bound slack ⟨s', n, t.lastRestart, due, t.plugDue⟩ start := by
  have hwatched : s'.wdk.watched = t.sys.wdk.watched := by rw [Wdk.watched, hcheck]; rfl
  have hkicked : s'.wdk.kicked = t.sys.wdk.kicked := by rw [Wdk.kicked, hkick]; rfl
  obtain ⟨r, hr, hway⟩ := h.fits
  exact {
    fits := ⟨r, hr.congr hcheck hkick hhang, hway⟩
    staffed := by
      rw [hwatched, htsk]
      exact h.staffed
    interval_pos := hpos
    interval_le := hle
    sleeps := hsleeps
    due_le := by
      rw [htsk]
      exact hdue
    owed := by
      rw [hwatched, hkicked, htsk]
      exact howed
    start_le := h.start_le.trans hn
    lastRestart_le := h.lastRestart_le.trans hn
    restarted := by
      rw [hplug]
      exact h.restarted
    plugged := by
      rw [hplug]
      exact h.plugged }

/-- What a deadline may become when its thread goes to sleep. -/
theorem sleepDue_le {n : ℕ} {cur : UInt64} (h : cur.toNat ≤ bound * 1000000) :
    n + cur.toNat + softKickRange + slack ≤ n + cycle bound slack := by
  rw [cycle]
  omega

/-- A thread that goes on without going to sleep. -/
theorem Inv.goto {n pid : ℕ} {pc : Pc} {w : Wdk} (h : Inv bound slack t start) (hn : t.now ≤ n)
    (hw : w = { t.sys.wdk with gNeedConfig := w.gNeedConfig })
    (hcur : pc.curInterval.toNat ≤ bound * 1000000) :
    Inv bound slack ⟨{ t.sys.goto pid pc with wdk := w }, n, t.lastRestart, t.due, t.plugDue⟩
      start := by
  have hthreads : ∀ p, ((t.sys.goto pid pc).threads p).pc.curInterval.toNat ≤ bound * 1000000 := by
    intro p
    rw [Sys.goto]
    by_cases hp : p = pid
    · subst hp
      simpa using hcur
    · simpa [Function.update_of_ne hp] using h.sleeps p
  rw [hw]
  exact h.quiet hn rfl rfl rfl rfl h.interval_pos h.interval_le rfl hthreads
    (fun c p hp => (h.due_le c p hp).trans (Nat.add_le_add_right hn _)) h.owed

/-- A kick on the thread's own CPU: the round goes on, or begins again now. -/
theorem Inv.kick {n pid : ℕ} {cpu : Cpu} {now : UInt64} {hwt : Bool} (h : Inv bound slack t start)
    (hn : t.now ≤ n) (hh : Healthy bound t.sys (.thread pid cpu now hwt)) (hat : t.sys.AtKick pid)
    (htsk : t.sys.wdk.wkTsk cpu = some pid) :
    ∃ start', Inv bound slack
      ⟨{ t.sys with
          wdk := ((t.sys.wdk.alignKick now).1.processKick env.apxgpt cpu).1
          threads := Function.update t.sys.threads pid ⟨.sleep (t.sys.wdk.alignKick now).2, cpu⟩ },
        n,
        if .restart ∈ ((t.sys.wdk.alignKick now).1.processKick env.apxgpt cpu).2 then n
          else t.lastRestart,
        Function.update t.due pid
          (n + (t.sys.wdk.alignKick now).2.toNat + softKickRange + slack), t.plugDue⟩ start' := by
  obtain ⟨r, hr, hway⟩ := h.fits
  obtain ⟨hfits, hcount⟩ := (alignKick_fits hr now).processKick env.apxgpt cpu
  have hcpu : cpu ∈ r.members := hr.members ▸ hh.noStray pid cpu now hwt rfl hat htsk
  have hcur : (t.sys.wdk.alignKick now).2.toNat ≤ bound * 1000000 := by
    have hle := UInt64.le_iff_toNat_le.mp (alignKick_le t.sys.wdk now)
    have hus := toNat_intervalUs h.interval_pos h.interval_le
    have hbound := hh.interval
    omega
  set w := ((t.sys.wdk.alignKick now).1.processKick env.apxgpt cpu).1 with hw
  have hsame : w.wkTsk = t.sys.wdk.wkTsk ∧ w.gKinterval = t.sys.wdk.gKinterval := by
    rw [hw, Wdk.processKick, Wdk.alignKick]
    split_ifs <;> exact ⟨rfl, rfl⟩
  have hwatched : w.watched = t.sys.wdk.watched := by
    rw [hfits.members, Barrier.Round.step_arrive_members, hr.members]
  have hkicked : w.kicked = if r.Releases (.arrive cpu) then ∅ else insert cpu t.sys.wdk.kicked := by
    rw [hfits.arrived, Barrier.Round.step_arrive_arrived, hr.arrived]
  have hrestart : .restart ∈ ((t.sys.wdk.alignKick now).1.processKick env.apxgpt cpu).2 ↔
      r.Releases (.arrive cpu) := by
    rw [← List.count_pos_iff, hcount]
    split_ifs with hrel <;> simp [hrel]
  have hdue (c : Cpu) (p : ℕ) (hp : t.sys.wdk.wkTsk c = some p) :
      Function.update t.due pid (n + (t.sys.wdk.alignKick now).2.toNat + softKickRange + slack) p ≤
        n + cycle bound slack := by
    by_cases hpp : p = pid
    · rw [hpp, Function.update_self]
      exact sleepDue_le hcur
    · rw [Function.update_of_ne hpp]
      exact (h.due_le c p hp).trans (Nat.add_le_add_right hn _)
  have hthreads (p : ℕ) :
      (Function.update t.sys.threads pid ⟨.sleep (t.sys.wdk.alignKick now).2, cpu⟩ p).pc.curInterval.toNat
        ≤ bound * 1000000 := by
    by_cases hpp : p = pid
    · rw [hpp, Function.update_self]
      exact hcur
    · rw [Function.update_of_ne hpp]
      exact h.sleeps p
  have hcommon (start' : ℕ) (howed : ∀ c ∈ t.sys.wdk.watched, c ∉ w.kicked → ∀ p,
      t.sys.wdk.wkTsk c = some p → Function.update t.due pid
        (n + (t.sys.wdk.alignKick now).2.toNat + softKickRange + slack) p ≤
          start' + cycle bound slack) (last : ℕ) (hstart : start' ≤ n) (hlast : t.lastRestart ≤ last)
      (hlastn : last ≤ n) (hrestarted : t.sys.plugging = none → start' ≤ last) :
      Inv bound slack ⟨{ t.sys with
          wdk := w
          threads := Function.update t.sys.threads pid ⟨.sleep (t.sys.wdk.alignKick now).2, cpu⟩ },
        n, last, Function.update t.due pid
          (n + (t.sys.wdk.alignKick now).2.toNat + softKickRange + slack), t.plugDue⟩ start' := {
    fits := ⟨_, hfits, hway.step hcpu⟩
    staffed := by
      rw [hwatched, hsame.1]
      exact h.staffed
    interval_pos := hsame.2 ▸ h.interval_pos
    interval_le := hsame.2 ▸ h.interval_le
    sleeps := hthreads
    due_le := by
      rw [hsame.1]
      exact hdue
    owed := by
      rw [hwatched, hsame.1]
      exact howed
    start_le := hstart
    lastRestart_le := hlastn
    restarted := hrestarted
    plugged := fun hp =>
      (h.plugged hp).trans (Nat.add_le_add_right (Nat.add_le_add_right hlast _) _) }
  by_cases hrel : r.Releases (.arrive cpu)
  · rw [if_pos (hrestart.mpr hrel)]
    have hlast := h.lastRestart_le
    exact ⟨n, hcommon n (fun c _ _ p hp => hdue c p hp) n le_rfl (by omega) le_rfl fun _ => le_rfl⟩
  · rw [if_neg (mt hrestart.mp hrel)]
    refine ⟨start, hcommon start ?_ t.lastRestart (h.start_le.trans hn) le_rfl
      (h.lastRestart_le.trans hn) h.restarted⟩
    intro c hc haway p hp
    rw [hkicked, if_neg hrel, Finset.mem_insert, not_or] at haway
    -- the thread of another CPU that is waited for would have kicked there
    have hpp : p ≠ pid := by
      rintro rfl
      exact haway.1 (hh.home p cpu now hwt rfl hat c hc hp).symm
    rw [Function.update_of_ne hpp]
    exact h.owed c hc haway.2 p hp

/-- A thread's step. -/
theorem Inv.thread {n pid : ℕ} {cpu : Cpu} {now : UInt64} {hwt : Bool}
    (h : Inv bound slack t start) (hn : t.now ≤ n)
    (hh : Healthy bound t.sys (.thread pid cpu now hwt)) :
    ∃ start', Inv bound slack (t.after slack n (.thread pid cpu now hwt)
      (t.sys.threadStep pid cpu now hwt).1 (t.sys.threadStep pid cpu now hwt).2) start' := by
  have hus : t.sys.wdk.intervalUs.toNat ≤ bound * 1000000 := by
    have hus := toNat_intervalUs h.interval_pos h.interval_le
    have hbound := hh.interval
    omega
  have hsleep := h.sleeps pid
  have hgoto (pc : Pc) (w : Wdk) (effs : List Effect)
      (hstep : t.sys.threadStep pid cpu now hwt = ({ t.sys.goto pid pc with wdk := w }, effs))
      (hw : w = { t.sys.wdk with gNeedConfig := w.gNeedConfig }) (hquiet : .restart ∉ effs)
      (hpc : pc.isSleep = false) (hcur : pc.curInterval.toNat ≤ bound * 1000000) :
      ∃ start', Inv bound slack (t.after slack n (.thread pid cpu now hwt)
        (t.sys.threadStep pid cpu now hwt).1 (t.sys.threadStep pid cpu now hwt).2) start' := by
    have hdue : nextDue slack t.due { t.sys.goto pid pc with wdk := w } n
        (.thread pid cpu now hwt) = t.due := by
      cases pc with
      | sleep cur => exact absurd hpc (Bool.noConfusion ·)
      | _ => simp [nextDue, Sys.goto]
    refine ⟨start, ?_⟩
    rw [hstep, after, hdue]
    dsimp only
    rw [if_neg hquiet]
    exact h.goto hn hw hcur
  cases hpc : (t.sys.threads pid).pc with
  | top =>
    refine hgoto (.check t.sys.wdk.gNeedConfig t.sys.wdk.gTimeout) t.sys.wdk [] ?_ rfl
      List.not_mem_nil rfl (Nat.zero_le _)
    rw [Sys.threadStep, hpc]
    rfl
  | check needConfig timeout =>
    refine hgoto (if needConfig then .configure timeout t.sys.wdk.intervalUs
      else .kick t.sys.wdk.intervalUs) t.sys.wdk [] ?_ rfl List.not_mem_nil ?_ ?_
    · rw [Sys.threadStep, hpc]
      exact if_pos ⟨hh.ready, hh.enabled⟩
    · cases needConfig <;> rfl
    · cases needConfig <;> exact hus
  | configure timeout curInterval =>
    rw [hpc] at hsleep
    refine hgoto (.clear curInterval) t.sys.wdk [.config timeout] ?_ rfl (by simp) rfl hsleep
    rw [Sys.threadStep, hpc]
    rfl
  | clear curInterval =>
    rw [hpc] at hsleep
    refine hgoto (.kick curInterval) { t.sys.wdk with gNeedConfig := false } [] ?_ rfl
      List.not_mem_nil rfl hsleep
    rw [Sys.threadStep, hpc]
  | kick curInterval =>
    rw [hpc] at hsleep
    by_cases htsk : t.sys.wdk.wkTsk cpu = some pid
    · obtain ⟨start', hinv⟩ := h.kick hn hh ⟨curInterval, hpc⟩ htsk
      refine ⟨start', ?_⟩
      rw [Sys.threadStep_kick hpc htsk]
      simpa [after, nextDue, nextPlugDue] using hinv
    · refine ⟨start, ?_⟩
      -- it is on another CPU, so its own is not waited for
      have hother : ∀ c ∈ t.sys.wdk.watched, ∀ p, t.sys.wdk.wkTsk c = some p → p ≠ pid := by
        rintro c hc p hp rfl
        exact htsk (hh.home p cpu now hwt rfl ⟨curInterval, hpc⟩ c hc hp ▸ hp)
      rw [Sys.threadStep_pass hpc htsk]
      simp only [after, nextDue, nextPlugDue, Function.update_self, List.not_mem_nil, if_false]
      refine h.quiet hn rfl rfl rfl rfl h.interval_pos h.interval_le rfl ?_ ?_ ?_
      · intro p
        dsimp only
        by_cases hpp : p = pid
        · rw [hpp, Function.update_self]
          exact hsleep
        · rw [Function.update_of_ne hpp]
          exact h.sleeps p
      · intro c p hp
        by_cases hpp : p = pid
        · rw [hpp, Function.update_self]
          exact sleepDue_le hsleep
        · rw [Function.update_of_ne hpp]
          exact (h.due_le c p hp).trans (Nat.add_le_add_right hn _)
      · intro c hc haway p hp
        rw [Function.update_of_ne (hother c hc p hp)]
        exact h.owed c hc haway p hp
  | sleep curInterval =>
    have hforce : ¬ ((t.sys.threads pid).cpu = 0 ∧ t.sys.wdk.wkTsk 0 = some pid ∧ hwt = true) := by
      intro hforce
      refine hh.noPowerKey ?_
      rw [Sys.observe]
      simp only [hpc]
      rw [if_pos hforce]
    refine hgoto .top t.sys.wdk [] ?_ rfl List.not_mem_nil rfl (Nat.zero_le _)
    rw [Sys.threadStep, hpc]
    exact if_neg hforce

/-- A hotplug callback's first half: a new round begins now. -/
theorem Inv.plug {n : ℕ} {cpu : Cpu} {on : Bool} (h : Inv bound slack t start) (hn : t.Waits n)
    (hh : Healthy bound t.sys (.plug cpu on)) (hplug : t.sys.plugging = none) :
    Inv bound slack (t.after slack n (.plug cpu on)
      { t.sys with wdk := t.sys.wdk.cpuUpdateBitFlag cpu on, plugging := some (cpu, on) } []) n := by
  obtain ⟨r, hr, hway⟩ := h.fits
  have hnow := hn.now_le
  have hbound := h.le_of_not_plugging hn hplug
  have hdue (c : Cpu) (p : ℕ) (hp : t.sys.wdk.wkTsk c = some p) : t.due p ≤ n + cycle bound slack :=
    (h.due_le c p hp).trans (Nat.add_le_add_right hnow _)
  have hmasks : ∃ r', (t.sys.wdk.cpuUpdateBitFlag cpu on).Fits r' ∧ r'.UnderWay ∧
      ∀ c ∈ r'.members, t.sys.wdk.wkTsk c ≠ none := by
    cases on with
    | true =>
      refine ⟨_, hr.plugOn cpu, Barrier.Round.UnderWay.of_members_nonempty
        (r := r.step (.join cpu)) ⟨cpu, Finset.mem_insert_self ..⟩, fun c hc => ?_⟩
      rcases Finset.mem_insert.mp hc with rfl | hin
      · exact hh.staffed c rfl
      · exact h.staffed c (hr.members ▸ hin)
    | false =>
      obtain ⟨d, hd, hdc⟩ := hh.manned cpu rfl
      refine ⟨_, hr.plugOff cpu, Barrier.Round.UnderWay.of_members_nonempty
        (r := r.step (.leave cpu)) ⟨d, Finset.mem_erase.mpr ⟨hdc, hr.members ▸ hd⟩⟩, fun c hc => ?_⟩
      exact h.staffed c (hr.members ▸ Finset.mem_of_mem_erase hc)
  obtain ⟨r', hr', hway', hstaffed⟩ := hmasks
  have hsame : (t.sys.wdk.cpuUpdateBitFlag cpu on).wkTsk = t.sys.wdk.wkTsk ∧
      (t.sys.wdk.cpuUpdateBitFlag cpu on).gKinterval = t.sys.wdk.gKinterval := by
    cases on <;> exact ⟨rfl, rfl⟩
  exact {
    fits := ⟨r', hr', hway'⟩
    staffed := by
      show ∀ c ∈ (t.sys.wdk.cpuUpdateBitFlag cpu on).watched,
        (t.sys.wdk.cpuUpdateBitFlag cpu on).wkTsk c ≠ none
      rw [hr'.members, hsame.1]
      exact hstaffed
    interval_pos := hsame.2 ▸ h.interval_pos
    interval_le := hsame.2 ▸ h.interval_le
    sleeps := h.sleeps
    due_le := by
      show ∀ c p, (t.sys.wdk.cpuUpdateBitFlag cpu on).wkTsk c = some p → t.due p ≤ _
      rw [hsame.1]
      exact hdue
    owed := by
      show ∀ c ∈ _, c ∉ _ → ∀ p, (t.sys.wdk.cpuUpdateBitFlag cpu on).wkTsk c = some p → t.due p ≤ _
      rw [hsame.1]
      exact fun c _ _ p hp => hdue c p hp
    start_le := le_rfl
    lastRestart_le := h.lastRestart_le.trans hnow
    restarted := fun hnone => absurd hnone (Option.some_ne_none _)
    plugged := fun _ => Nat.add_le_add_right hbound slack }

/-- **Every step of a healthy system** keeps who owes a kick, and by when. -/
theorem Inv.step {n : ℕ} {e : Event} {s' : Sys env} {effs : List Effect}
    (h : Inv bound slack t start) (hn : t.Waits n) (hh : Healthy bound t.sys e)
    (hs : t.sys.step e = some (s', effs)) :
    ∃ start', Inv bound slack (t.after slack n e s' effs) start' := by
  have hnow := hn.now_le
  have hdue (c : Cpu) (p : ℕ) (hp : t.sys.wdk.wkTsk c = some p) : t.due p ≤ n + cycle bound slack :=
    (h.due_le c p hp).trans (Nat.add_le_add_right hnow _)
  cases e with
  | thread pid cpu now hwt =>
    obtain ⟨-, rfl, rfl⟩ := step_thread hs
    exact h.thread hnow hh
  | plug cpu on =>
    obtain ⟨hplug, rfl, rfl⟩ := step_plug hs
    exact ⟨n, h.plug hn hh hplug⟩
  | plugRestart =>
    obtain ⟨-, rfl, rfl⟩ := step_plugRestart hs
    refine ⟨start, ?_⟩
    have hlast : t.lastRestart ≤ n := h.lastRestart_le.trans hnow
    exact { h with
      due_le := hdue
      start_le := h.start_le.trans hnow
      lastRestart_le := le_rfl
      restarted := fun _ => h.start_le.trans hnow
      plugged := fun hne => absurd rfl hne }
  | write count scanned =>
    refine ⟨start, ?_⟩
    rcases step_write hs with ⟨-, rfl, rfl⟩ | ⟨cmd, -, rfl, rfl⟩
    · exact h.quiet hnow rfl rfl rfl rfl h.interval_pos h.interval_le rfl h.sleeps hdue h.owed
    · have hquiet : .restart ∉ cmd.enables := by
        rw [Command.enables]
        split_ifs <;> simp
      rw [after, if_neg hquiet]
      exact h.quiet hnow rfl rfl rfl rfl h.interval_pos h.interval_le rfl h.sleeps hdue h.owed
  | writeLocked m =>
    obtain ⟨count, cmd, -, rfl, rfl⟩ := step_writeLocked hs
    refine ⟨start, ?_⟩
    have hquiet : .restart ∉ (t.sys.wdk.applyCommand cmd).2 ++ [.ret count] := by
      rw [Wdk.applyCommand]
      split_ifs <;> simp
    rw [after, if_neg hquiet]
    exact h.quiet hnow rfl rfl rfl rfl cmd.one_le (cmd.le_timeout.trans cmd.timeout_le) rfl h.sleeps
      hdue h.owed

theorem Inv.steps {u : Timed env} (h : Inv bound slack t start) (hsteps : Steps slack bound t u) :
    ∃ start', Inv bound slack u start' := by
  induction hsteps with
  | refl => exact ⟨start, h⟩
  | tail _ hn hh hs ih =>
    obtain ⟨start', hinv⟩ := ih
    exact hinv.step hn hh hs

/-! ### From the start -/

/-- `wdk_work_callback` at `t0`; the threads run within the slack. -/
def boot (env : Env) (slack nr : ℕ) (online : Cpu → Bool) (create : Cpu → Option ℕ) (t0 : ℕ) :
    Timed env where
  sys := Kicker.boot env nr online true create
  now := t0
  lastRestart := t0
  due _ := t0 + slack
  plugDue := t0

theorem startKicker_created {create : Cpu → Option ℕ} {is : List Cpu} {w : Wdk} {c : Cpu}
    (hcreate : ∀ i ∈ is, create i ≠ none) (hnodup : is.Nodup) (hc : c ∈ is) :
    (startKicker create is w).wkTsk c = create c := by
  induction is generalizing w with
  | nil => cases hc
  | cons i is ih =>
    obtain ⟨hi, his⟩ := List.forall_mem_cons.mp hcreate
    obtain ⟨hnot, hnodup⟩ := List.nodup_cons.mp hnodup
    obtain ⟨pid, hpid⟩ := Option.ne_none_iff_exists'.mp hi
    rw [startKicker, hpid]
    rcases List.mem_cons.mp hc with rfl | hin
    · exact (startKicker_wkTsk hnot).trans ((Function.update_self ..).trans hpid.symm)
    · exact ih his hnodup hin

theorem startKicker_interval (create : Cpu → Option ℕ) (is : List Cpu) (w : Wdk) :
    (startKicker create is w).gKinterval = w.gKinterval := by
  induction is generalizing w with
  | nil => rfl
  | cons i is ih =>
    rw [startKicker]
    cases create i with
    | none => rfl
    | some pid => exact ih _

theorem boot_inv {nr : ℕ} {online : Cpu → Bool} {create : Cpu → Option ℕ} (t0 : ℕ)
    (honline : (onlineCpus nr online).Nonempty) (hcreate : ∀ c, c.val < nr → create c ≠ none) :
    Inv bound slack (boot env slack nr online create t0) t0 := by
  have hfits := boot_fits env nr online true create
  have hinterval : (Kicker.boot env nr online true create).wdk.gKinterval = 15 :=
    startKicker_interval ..
  have hdue : t0 + slack ≤ t0 + cycle bound slack := by
    rw [cycle]
    omega
  exact {
    fits := ⟨_, hfits, Barrier.Round.UnderWay.of_members_nonempty (r := ⟨_, []⟩) honline⟩
    staffed := by
      intro c hc
      have hlt : c.val < nr := by
        have hmem : c ∈ onlineCpus nr online := hfits.members.subset hc
        exact (Finset.mem_filter.mp hmem).2.1
      have hcreated : (Kicker.boot env nr online true create).wdk.wkTsk c = create c :=
        startKicker_created (fun i hi => hcreate i (by simpa using (List.mem_filter.mp hi).2))
          ((List.nodup_finRange 16).filter _) (List.mem_filter.mpr ⟨List.mem_finRange c, by simpa using hlt⟩)
      exact hcreated ▸ hcreate c hlt
    interval_pos := hinterval ▸ by decide
    interval_le := hinterval ▸ by decide
    sleeps := fun _ => Nat.zero_le _
    due_le := fun _ _ _ => hdue
    owed := fun _ _ _ _ _ => hdue
    start_le := le_rfl
    lastRestart_le := le_rfl
    restarted := fun _ => le_rfl
    plugged := fun hne => absurd rfl hne }

/-- **The watchdog of a healthy system is restarted in time**: in any run from the start, at any time
at which nobody is late, the last restart is no longer ago than the interval, the range of the sleep
and the slack of a thread and of a callback. -/
theorem restart_in_time {nr t0 n : ℕ} {online : Cpu → Bool} {create : Cpu → Option ℕ}
    {u : Timed env} (honline : (onlineCpus nr online).Nonempty)
    (hcreate : ∀ c, c.val < nr → create c ≠ none)
    (hsteps : Steps slack bound (boot env slack nr online create t0) u) (hn : u.Waits n) :
    n - u.lastRestart ≤ bound * 1000000 + softKickRange + 2 * slack := by
  obtain ⟨start, hinv⟩ := (boot_inv t0 honline hcreate).steps hsteps
  have hbound := hinv.le_lastRestart hn
  rw [cycle] at hbound
  omega

/-- A thread takes a step at `n`, on the CPU. -/
def next (slack : ℕ) (t : Timed env) (pid : ℕ) (cpu : Cpu) (n : ℕ) : Timed env :=
  let r := t.sys.threadStep pid cpu 0 false
  t.after slack n (.thread pid cpu 0 false) r.1 r.2

/-- A thread on the only CPU that is waited for. -/
theorem healthy_thread {s : Sys env} {pid : ℕ} {cpu : Cpu} (hready : s.wdk.ready = true)
    (hen : s.wdk.gEnable ≠ 0) (hint : s.wdk.gKinterval ≤ bound) (hwatched : s.wdk.watched = {cpu})
    (hown : s.wdk.wkTsk cpu = some pid) : Healthy bound s (.thread pid cpu 0 false) := by
  refine ⟨hready, hen, hint, ?_, ?_, ?_, ?_, ?_⟩
  · intro pid cpu now hwt heq _ c hc _
    rw [hwatched, Finset.mem_singleton] at hc
    cases heq
    exact hc.symm
  · intro pid cpu now hwt heq _ _
    rw [hwatched]
    cases heq
    exact Finset.mem_singleton_self _
  · intro c heq
    cases heq
  · intro c heq
    cases heq
  · rw [Sys.observe]
    cases (s.threads pid).pc with
    | kick cur =>
      dsimp only
      rw [if_pos hown]
      simp
    | _ => simp

theorem Steps.next {t u : Timed env} {n pid : ℕ} {cpu : Cpu} (h : Steps slack bound t u) (hn : u.Waits n)
    (hready : u.sys.wdk.ready = true) (hen : u.sys.wdk.gEnable ≠ 0)
    (hint : u.sys.wdk.gKinterval ≤ bound) (hwatched : u.sys.wdk.watched = {cpu})
    (hown : u.sys.wdk.wkTsk cpu = some pid) : Steps slack bound t (u.next slack pid cpu n) :=
  .tail h hn (healthy_thread hready hen hint hwatched hown) (step_of_own pid ⟨cpu, hown⟩ cpu 0 false)

/-- One CPU, and its first pass. -/
theorem restart_in_time_machine : ∃ u : Timed plainEnv,
    Steps 100 15 (boot plainEnv 100 1 (fun _ => true) (fun c => some c) 0) u ∧ u.lastRestart = 3 ∧
      50 - u.lastRestart ≤ 15 * 1000000 + softKickRange + 2 * 100 := by
  set t₀ : Timed plainEnv := boot plainEnv 100 1 (fun _ => true) (fun c => some c) 0
  set t₁ := t₀.next 100 0 0 1
  set t₂ := t₁.next 100 0 0 2
  have hslack (n : ℕ) (hn : n ≤ 100) : n ≤ 0 + 100 := by omega
  have h₁ : Steps 100 15 t₀ t₁ := (Steps.refl t₀).next
    ⟨by decide, fun _ _ _ => hslack 1 (by decide), fun h => absurd rfl h⟩
    (by decide) (by decide) (by decide) (by decide) (by decide)
  have h₂ : Steps 100 15 t₀ t₂ := h₁.next
    ⟨by decide, fun _ _ _ => hslack 2 (by decide), fun h => absurd rfl h⟩
    (by decide) (by decide) (by decide) (by decide) (by decide)
  have h₃ : Steps 100 15 t₀ (t₂.next 100 0 0 3) := h₂.next
    ⟨by decide, fun _ _ _ => hslack 3 (by decide), fun h => absurd rfl h⟩
    (by decide) (by decide) (by decide) (by decide) (by decide)
  have hwaits : (t₂.next 100 0 0 3).Waits 50 := by
    refine ⟨by decide, ?_, fun h => absurd rfl h⟩
    intro c pid _
    cases pid with
    | zero => decide
    | succ pid => exact hslack 50 (by decide)
  exact ⟨_, h₃, by decide, restart_in_time ⟨0, by decide⟩ (by decide) h₃ hwaits⟩

/-! ### How close it comes -/

theorem Steps.trans {t u v : Timed env} (h : Steps slack bound t u) (h' : Steps slack bound u v) :
    Steps slack bound t v := by
  induction h' with
  | refl => exact h
  | tail _ hn hh hs ih => exact .tail ih hn hh hs

/-- The only CPU waits for its first kick, and the kicker is on. -/
structure Alone (bound : ℕ) (w : Wdk) : Prop where
  ready : w.ready = true
  enabled : w.gEnable ≠ 0
  one_le : 1 ≤ w.gKinterval
  interval_le : w.gKinterval ≤ 30
  interval : w.gKinterval ≤ bound
  check : w.cpusKickBit = 1#32
  kick : w.kickBit = 0#64
  tsk : w.wkTsk = Function.update (fun _ => none) 0 (some 0)

theorem Alone.own {w : Wdk} (h : Alone bound w) : w.wkTsk 0 = some 0 := by
  rw [h.tsk, Function.update_self]

theorem Alone.healthy {s : Sys env} (h : Alone bound s.wdk) : Healthy bound s (.thread 0 0 0 false) := by
  refine healthy_thread h.ready h.enabled h.interval ?_ h.own
  rw [Wdk.watched, h.check]
  decide

/-- Its kick completes the round, and the thread sleeps for the interval. -/
theorem Alone.threadStep {s : Sys env} {cur : UInt64} (h : Alone bound s.wdk)
    (hpc : (s.threads 0).pc = .kick cur) :
    ∃ w effs, s.threadStep 0 0 0 false = ({ s with
        wdk := w, threads := Function.update s.threads 0 ⟨.sleep s.wdk.intervalUs, 0⟩ }, effs) ∧
      w.wkTsk = s.wdk.wkTsk ∧ .restart ∈ effs ∧ lastOf Effect.configured effs = none := by
  have halign : s.wdk.alignKick 0 =
      ({ s.wdk with gNxtKickTime := 0 + s.wdk.intervalUs }, s.wdk.intervalUs) := by
    rw [Wdk.alignKick, if_pos h.kick]
    simp
  set w : Wdk := { s.wdk with gNxtKickTime := 0 + s.wdk.intervalUs }
  have hcomplete : (w.markKick 0).1 = w.cpusKickBit := by
    show (w.markKick 0).1 = s.wdk.cpusKickBit
    rw [Wdk.markKick, show w.kickBit = 0#64 from h.kick, h.check]
    rfl
  refine ⟨(w.processKick env.apxgpt 0).1, (w.processKick env.apxgpt 0).2, ?_, ?_, ?_, ?_⟩
  · rw [Sys.threadStep, hpc]
    dsimp only
    rw [if_pos h.own, halign]
  · rw [Wdk.processKick, if_pos hcomplete]
  · rw [Wdk.processKick, if_pos hcomplete]
    simp
  · exact lastOf_processKick rfl (fun _ _ => rfl) rfl w env.apxgpt 0

variable (slack) in
/-- After the kick, nothing need happen until the thread is due. -/
theorem Alone.waits {t : Timed env} {cur : UInt64} (h : Alone bound t.sys.wdk)
    (hpc : (t.sys.threads 0).pc = .kick cur) (hplug : t.sys.plugging = none) (hnow : t.now = 0) :
    ∃ (u : Timed env) (tr : List (Happening env)), Steps slack bound t u ∧ Runs t.sys tr u.sys ∧
      lastOf Effect.configured (effectsOf tr) = none ∧ u.lastRestart = 0 ∧
      u.Waits (t.sys.wdk.gKinterval.toNat * 1000000 + softKickRange + slack) := by
  obtain ⟨w, effs, hstep, hw, hrestart, hconfig⟩ := h.threadStep hpc
  have hlast := step_of_own (s := t.sys) 0 ⟨0, h.own⟩ 0 0 false
  rw [hstep] at hlast
  set s' : Sys env := { t.sys with
    wdk := w, threads := Function.update t.sys.threads 0 ⟨.sleep t.sys.wdk.intervalUs, 0⟩ }
  have hus : t.sys.wdk.intervalUs.toNat = t.sys.wdk.gKinterval.toNat * 1000000 := by
    have hint := toNat_intervalUs h.one_le h.interval_le
    have hpos := h.one_le
    omega
  have hdue : nextDue slack t.due s' 0 (.thread 0 0 0 false) 0 =
      t.sys.wdk.gKinterval.toNat * 1000000 + softKickRange + slack := by
    simp [nextDue, s', hus]
  have hzero : t.Waits 0 := ⟨hnow.le, fun _ _ _ => Nat.zero_le _, fun _ => Nat.zero_le _⟩
  refine ⟨_, _, .tail (.refl t) hzero h.healthy hlast, .cons hlast (.nil s'), ?_, if_pos hrestart,
    ⟨Nat.zero_le _, ?_, fun hne => absurd hplug hne⟩⟩
  · rw [effectsOf, List.flatMap_singleton]
    exact hconfig
  · intro c pid hpid
    have hpid₀ : pid = 0 := by
      change w.wkTsk c = some pid at hpid
      rw [hw, h.tsk] at hpid
      by_cases hc : c = 0
      · rw [hc, Function.update_self] at hpid
        exact (Option.some.inj hpid).symm
      · rw [Function.update_of_ne hc] at hpid
        cases hpid
    rw [hpid₀]
    exact hdue.ge

end Timed

end Kicker
