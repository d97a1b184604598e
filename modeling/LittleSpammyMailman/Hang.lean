/-
What the rounds of kicks mean for the watchdog: hung threads, strays, the power
key, and how often a healthy system restarts it.

* `restarts_of_boot` — which kicks of a boot restart the watchdog;
* `hung_stops_restarts` — one hung thread ends the restarts;
* `forceHwt_stops_restarts` — so does the power key, on a machine of less than
  16 CPUs;
* `stray_stops_restarts` — and the kick of a CPU that is not waited for;
* `restarts_between` — between how many restarts a stretch of kicks makes;
* `hang_iff` — what the hang flag says.
-/
import LittleSpammyMailman.Kicker

open Bits

namespace Kicker

variable {env : Env} {s s' : Sys env} {tr : List (Happening env)}

/-- The states of a boot. -/
def Reachable (s : Sys env) : Prop :=
  ∃ nr online ready create tr, Runs (boot env nr online ready create) tr s

theorem Reachable.fits (h : Reachable s) : ∃ r, s.wdk.Fits r := by
  obtain ⟨nr, online, ready, create, tr, ht⟩ := h
  exact ⟨_, (run_refines ht (boot_fits env nr online ready create)).1⟩

/-! ### Small machines -/

/-- Irq mode is 2, and the timer is not mapped. -/
def plainEnv : Env := ⟨⟨2, 1, 0⟩, none⟩

/-- A machine after its boot, with a thread for each of its CPUs. -/
def machine (nr : ℕ) (online : Cpu → Bool) : Sys plainEnv := boot plainEnv nr online true fun c => some c

/-- The steps of one thread, and whether the power key is down in each. -/
def alone (pid : ℕ) (cpu : Cpu) : List Bool → Sys env → Sys env × List (Happening env)
  | [], s => (s, [])
  | hwt :: es, s =>
    let r := s.threadStep pid cpu 0 hwt
    let t := alone pid cpu es r.1
    (t.1, ⟨s, .thread pid cpu 0 hwt, r.2⟩ :: t.2)

theorem step_of_own (pid : ℕ) (hown : ∃ c, s.wdk.wkTsk c = some pid) (cpu : Cpu) (now : UInt64)
    (hwt : Bool) : s.step (.thread pid cpu now hwt) = some (s.threadStep pid cpu now hwt) := if_pos hown

theorem runs_alone (pid : ℕ) (hown : ∃ c, s.wdk.wkTsk c = some pid) (cpu : Cpu) (es : List Bool) :
    Runs s (alone pid cpu es s).2 (alone pid cpu es s).1 := by
  induction es generalizing s with
  | nil => exact .nil s
  | cons hwt es ih =>
    have hs := step_of_own pid hown cpu 0 hwt
    refine .cons hs (ih ?_)
    rw [step_wkTsk hs]
    exact hown

theorem event_alone {pid : ℕ} {cpu : Cpu} {es : List Bool} {h : Happening env}
    (hh : h ∈ (alone pid cpu es s).2) : ∃ hwt, h.event = .thread pid cpu 0 hwt := by
  induction es generalizing s with
  | nil => cases hh
  | cons hwt es ih =>
    rcases List.mem_cons.mp hh with rfl | hrest
    · exact ⟨hwt, rfl⟩
    · exact ih hrest

theorem machine_reachable (nr : ℕ) (online : Cpu → Bool) : Reachable (machine nr online) :=
  ⟨nr, online, true, fun c => some c, [], .nil _⟩

theorem Reachable.run (h : Reachable s) (ht : Runs s tr s') : Reachable s' := by
  obtain ⟨nr, online, ready, create, tr₀, ht₀⟩ := h
  exact ⟨nr, online, ready, create, tr₀ ++ tr, ht₀.append ht⟩

/-! ### From a boot -/

/-- **Which kicks restart the watchdog**: over any boot the masks and the hang flag are the rounds
of the kicks and plugs, and as many kicks restart it as complete a round. -/
theorem restarts_of_boot {nr : ℕ} {online : Cpu → Bool} {ready : Bool} {create : Cpu → Option ℕ}
    (ht : Runs (boot env nr online ready create) tr s) :
    s.wdk.Fits (Barrier.Round.run ⟨onlineCpus nr online, []⟩ (seen tr)) ∧
      kickRestarts tr = Barrier.Round.releases ⟨onlineCpus nr online, []⟩ (seen tr) :=
  run_refines ht (boot_fits env nr online ready create)

theorem restarts_of_boot_kick : ∃ (tr : List (Happening plainEnv)) (s : Sys plainEnv),
    Runs (machine 2 fun _ => true) tr s ∧ seen tr = [.arrive 0] ∧ kickRestarts tr = 0 ∧
      s.wdk.Fits (Barrier.Round.run ⟨onlineCpus 2 fun _ => true, []⟩ [.arrive 0]) := by
  have ht := runs_alone (s := machine 2 fun _ => true) 0 ⟨0, by decide⟩ 0
    [false, false, false]
  obtain ⟨hfits, hcount⟩ := restarts_of_boot ht
  have hseen : seen (alone 0 0 [false, false, false] (machine 2 fun _ => true)).2 = [.arrive 0] := rfl
  rw [hseen] at hfits hcount
  exact ⟨_, _, ht, hseen, hcount.trans (by decide), hfits⟩

/-! ### A thread that hangs -/

/-- What a step is seen to be: the kick of a CPU's own thread, a plug, or the power key. -/
theorem observe_eq_some {e : Event} {b : Barrier.Event Cpu} (h : s.observe e = some b) :
    (∃ pid cpu now hwt, e = .thread pid cpu now hwt ∧ s.wdk.wkTsk cpu = some pid ∧
        b = .arrive cpu) ∨
      (∃ cpu on, e = .plug cpu on ∧ b = if on then .join cpu else .leave cpu) ∨
      b = .expect Finset.univ := by
  cases e with
  | thread pid cpu now hwt =>
    rw [Sys.observe] at h
    cases hpc : (s.threads pid).pc with
    | kick curInterval =>
      rw [hpc] at h
      dsimp only at h
      split_ifs at h with htsk
      exact .inl ⟨pid, cpu, now, hwt, rfl, htsk, (Option.some.inj h).symm⟩
    | sleep curInterval =>
      rw [hpc] at h
      dsimp only at h
      split_ifs at h
      exact .inr (.inr (Option.some.inj h).symm)
    | _ =>
      rw [hpc] at h
      cases h
  | plug cpu on => exact .inr (.inl ⟨cpu, on, rfl, (Option.some.inj h).symm⟩)
  | _ => cases h

/-- A CPU whose thread takes no step, and that is not unplugged, stays away from every round. -/
theorem keeps_of_silent {c : Cpu} (ht : Runs s tr s')
    (hhung : ∀ h ∈ tr, ∀ pid cpu now hwt, h.event = .thread pid cpu now hwt →
      s.wdk.wkTsk c ≠ some pid)
    (hplug : ∀ h ∈ tr, h.event ≠ .plug c false) : ∀ b ∈ seen tr, b.Keeps c := by
  induction ht with
  | nil s => simp [seen]
  | @cons s s₁ s₂ e effs tr hs _ ih =>
    obtain ⟨hhung1, hhung2⟩ := List.forall_mem_cons.mp hhung
    obtain ⟨hplug1, hplug2⟩ := List.forall_mem_cons.mp hplug
    have hrest := ih (by rwa [step_wkTsk hs]) hplug2
    rw [seen_cons]
    cases ho : s.observe e with
    | none => exact hrest
    | some b =>
      have hb : b.Keeps c := by
        rcases observe_eq_some ho with ⟨pid, cpu, now, hwt, rfl, htsk, rfl⟩ | ⟨cpu, on, rfl, rfl⟩ | rfl
        · rintro rfl
          exact hhung1 pid cpu now hwt rfl htsk
        · cases on with
          | true => trivial
          | false =>
            rintro rfl
            exact hplug1 rfl
        · exact Finset.mem_univ c
      exact List.forall_mem_cons.mpr ⟨hb, hrest⟩

/-- **One hung thread ends the restarts.** While the thread of a CPU takes no step and the CPU is not
unplugged, the kicks of all the others restart the watchdog at most once more, and not at all unless
the CPU has kicked in this round. -/
theorem hung_stops_restarts {c : Cpu} (hreach : Reachable s) (ht : Runs s tr s')
    (hc : c ∈ s.wdk.watched)
    (hhung : ∀ h ∈ tr, ∀ pid cpu now hwt, h.event = .thread pid cpu now hwt →
      s.wdk.wkTsk c ≠ some pid)
    (hplug : ∀ h ∈ tr, h.event ≠ .plug c false) :
    kickRestarts tr ≤ if c ∈ s.wdk.kicked then 1 else 0 := by
  obtain ⟨r, hr⟩ := hreach.fits
  rw [(run_refines ht hr).2, hr.arrived]
  rw [hr.members] at hc
  exact Barrier.Round.releases_le_of_silent hc (keeps_of_silent ht hhung hplug)

/-- CPU 1 hangs from the start. -/
theorem hung_stops_restarts_machine : kickRestarts
    (alone 0 0 [false, false, false, false, false, false, false] (machine 2 fun _ => true)).2 = 0 := by
  have ht := runs_alone (s := machine 2 fun _ => true) 0 ⟨0, by decide⟩ 0
    [false, false, false, false, false, false, false]
  refine Nat.le_zero.mp ((hung_stops_restarts (c := 1) (machine_reachable 2 _) ht (by decide) ?_ ?_).trans
    (by decide))
  · intro h hh pid cpu now hwt heq
    obtain ⟨hwt', hown⟩ := event_alone hh
    obtain ⟨rfl, -⟩ := Event.thread.inj (hown.symm.trans heq)
    decide
  · intro h hh heq
    obtain ⟨hwt, hown⟩ := event_alone hh
    cases hown.symm.trans heq

/-! ### The power key -/

theorem startKicker_wkTsk {create : Cpu → Option ℕ} {is : List Cpu} {w : Wdk} {c : Cpu}
    (hc : c ∉ is) : (startKicker create is w).wkTsk c = w.wkTsk c := by
  induction is generalizing w with
  | nil => rfl
  | cons i is ih =>
    obtain ⟨hci, hcis⟩ := List.ne_and_not_mem_of_not_mem_cons hc
    rw [startKicker]
    cases create i with
    | none => rfl
    | some pid => exact (ih hcis).trans (Function.update_of_ne hci ..)

/-- Nothing but kicks: the stretch of these CPUs. -/
def OnlyKicks (tr : List (Happening env)) (is : List Cpu) : Prop :=
  seen tr = Barrier.arrivalsOf is

/-- **A stray kick ends the restarts** until a CPU is plugged: the kick of a CPU that is not waited
for. -/
theorem stray_stops_restarts {c : Cpu} {is : List Cpu} (hreach : Reachable s) (ht : Runs s tr s')
    (hkicked : c ∈ s.wdk.kicked) (hc : c ∉ s.wdk.watched) (honly : OnlyKicks tr is) :
    kickRestarts tr = 0 := by
  obtain ⟨r, hr⟩ := hreach.fits
  rw [(run_refines ht hr).2, honly]
  rw [hr.arrived] at hkicked
  rw [hr.members] at hc
  exact Barrier.Round.releases_eq_zero_of_stray hc hkicked

/-- CPU 1 is offline, and its thread kicks. -/
theorem stray_stops_restarts_machine :
    let s := (alone 1 1 [false, false, false] (machine 2 fun c => c = 0)).1
    kickRestarts (alone 0 0 [false, false, false] s).2 = 0 := by
  intro s
  have hbefore := runs_alone (s := machine 2 fun c => c = 0) 1 ⟨1, by decide⟩ 1
    [false, false, false]
  have ht := runs_alone (s := s) 0 ⟨0, by decide⟩ 0 [false, false, false]
  exact stray_stops_restarts (c := 1) ((machine_reachable 2 _).run hbefore) ht (by decide) (by decide)
    (show OnlyKicks _ [0] from rfl)

/-- Some of the CPUs to wait for have kicked, and no other. -/
def UnderWay (s : Sys env) : Prop := s.wdk.kicked ⊂ s.wdk.watched

/-- **How often a healthy system restarts the watchdog**: at least as often as all its CPUs have
kicked, and at most once more than any one of them. -/
theorem restarts_between {iss : List (List Cpu)} {c : Cpu} (hreach : Reachable s) (hway : UnderWay s)
    (ht : Runs s tr s') (honly : OnlyKicks tr iss.flatten)
    (hmem : ∀ is ∈ iss, ∀ i ∈ is, i ∈ s.wdk.watched)
    (hall : ∀ is ∈ iss, ∀ i ∈ s.wdk.watched, i ∈ is) (hc : c ∈ s.wdk.watched) :
    iss.length ≤ kickRestarts tr ∧ kickRestarts tr ≤ iss.flatten.count c + 1 := by
  obtain ⟨r, hr⟩ := hreach.fits
  rw [UnderWay, hr.members, hr.arrived] at hway
  rw [hr.members] at hmem hall hc
  rw [(run_refines ht hr).2, honly]
  refine ⟨Barrier.Round.le_releases_of_rounds hway hmem hall, ?_⟩
  refine (Barrier.Round.releases_le_arrivals hc).trans (Nat.add_le_add_left ?_ _)
  split_ifs <;> omega

/-- One CPU, and two of its kicks. -/
theorem restarts_between_machine :
    let tr := (alone 0 0 [false, false, false, false, false, false, false] (machine 1 fun _ => true)).2
    2 ≤ kickRestarts tr ∧ kickRestarts tr ≤ 3 := by
  intro tr
  have ht := runs_alone (s := machine 1 fun _ => true) 0 ⟨0, by decide⟩ 0
    [false, false, false, false, false, false, false]
  have hway : (machine 1 fun _ => true).wdk.kicked ⊂ (machine 1 fun _ => true).wdk.watched := by decide
  have honly : OnlyKicks tr ([[0], [0]] : List (List Cpu)).flatten := rfl
  exact restarts_between (c := 0) (machine_reachable 1 _) hway ht honly (by decide) (by decide)
    (by decide)

/-- **What the hang flag says**: in a round without a restart, that a CPU has kicked twice. -/
theorem hang_iff {is : List Cpu} (hreach : Reachable s) (hfresh : s.wdk.kicked = ∅)
    (ht : Runs s tr s') (honly : OnlyKicks tr is) (hnone : kickRestarts tr = 0) :
    s'.wdk.gHangDetected = true ↔ ∃ c, 2 ≤ is.count c := by
  obtain ⟨r, hr⟩ := hreach.fits
  obtain ⟨hfits, hcount⟩ := run_refines ht hr
  rw [hnone, honly] at hcount
  rw [hr.arrived, Barrier.Round.arrived, List.toFinset_eq_empty_iff] at hfresh
  rw [hfits.hang, honly, Barrier.Round.Repeated, Barrier.Round.run_arrivalsOf hcount.symm, hfresh,
    List.append_nil, List.nodup_reverse, List.nodup_iff_count_le_one]
  simp only [not_forall, not_le]
  rfl

/-- CPU 0 kicks twice, and CPU 1 not at all. -/
theorem hang_iff_machine :
    (alone 0 0 [false, false, false, false, false, false, false]
      (machine 2 fun _ => true)).1.wdk.gHangDetected = true := by
  have ht := runs_alone (s := machine 2 fun _ => true) 0 ⟨0, by decide⟩ 0
    [false, false, false, false, false, false, false]
  have honly : OnlyKicks (alone 0 0 [false, false, false, false, false, false, false]
      (machine 2 fun _ => true)).2 [0, 0] := rfl
  exact (hang_iff (machine_reachable 2 _) (by decide) ht honly (by decide)).mpr ⟨0, by decide⟩

end Kicker
