/-
`sysrst_thermal_reset` of patch 0003, over all trips of one boot.

The guard reads the uptime through `jiffies_to_msecs`, whose milliseconds are
an `unsigned int`, and keeps one sticky flag.

* `bug_iff` — when one call reaches `BUG()`;
* `bugAt_iff` — when the `i`-th trip of a boot does, by what the guard reads;
* `guarded_iff` — the boots in which that is what the uptime says.
-/
import LittleSpammyMailman.Text

open Text

namespace Sysrst

/-- `SYSRST_BOOT_GRACE_MS` -/
def sysrstBootGraceMs : UInt32 := 120000

/-- What a call does. -/
inductive Event
  | prErr (l : Line)
  | prErrRatelimited (l : Line)
  | dumpStack
  | bug
  deriving DecidableEq, Repr

/-- `jiffies_to_msecs` of the time since boot, which the counter itself does not lose: an
`unsigned int`. -/
def jiffiesToMsecs (uptime : ℕ) : UInt32 := UInt32.ofNat uptime

/-- `sysrst_thermal_reset` at `upMs`, with `sysrst_reset_disabled`. -/
def sysrstThermalReset (who : Line) (upMs : UInt32) (disabled : Bool) : List Event × Bool :=
  let fired := .prErr (ascii "[Thermal/sysrst] " ++ who ++ ascii " fired at " ++
    decimal upMs.toNat ++ ascii " ms uptime" ++ [newline])
  if upMs < sysrstBootGraceMs then
    if disabled = false then
      ([fired, .prErr (ascii "[Thermal/sysrst] trip inside " ++ decimal sysrstBootGraceMs.toNat ++
        ascii " ms boot grace -- sensor not trustworthy, thermal reset DISABLED for this boot" ++
        [newline]), .dumpStack], true)
    else ([fired], disabled)
  else if disabled then
    ([fired, .prErrRatelimited (ascii "[Thermal/sysrst] " ++ who ++
      ascii ": reset disabled by early false trip, ignoring" ++ [newline])], disabled)
  else ([fired, .bug], disabled)

/-- A trip: the cooler, and the true uptime in milliseconds. -/
structure Trip where
  who : Line
  uptime : ℕ

/-- The time the guard sees. -/
def Trip.upMs (t : Trip) : UInt32 := jiffiesToMsecs t.uptime

/-- The trips of a boot in turn, from a value of the flag. -/
def runTrips : Bool → List Trip → List (List Event)
  | _, [] => []
  | disabled, t :: ts =>
    let r := sysrstThermalReset t.who t.upMs disabled
    r.1 :: runTrips r.2 ts

/-! ### One call -/

theorem bug_iff (who : Line) (upMs : UInt32) (disabled : Bool) :
    .bug ∈ (sysrstThermalReset who upMs disabled).1 ↔
      sysrstBootGraceMs ≤ upMs ∧ disabled = false := by
  rw [sysrstThermalReset, ← UInt32.not_lt]
  split_ifs with hearly hflag hflag <;> simp [hearly, hflag]

/-- The flag after a call: set by an early trip, and never reset. -/
theorem disabled_after (who : Line) (upMs : UInt32) (disabled : Bool) :
    (sysrstThermalReset who upMs disabled).2 = false ↔
      sysrstBootGraceMs ≤ upMs ∧ disabled = false := by
  rw [sysrstThermalReset, ← UInt32.not_lt]
  split_ifs with hearly hflag hflag <;> simp [hearly, hflag]

/-! ### A boot -/

/-- The `i`-th trip reaches `BUG()`. -/
def BugAt (ts : List Trip) (i : ℕ) : Prop := ∃ evs, (runTrips false ts)[i]? = some evs ∧ .bug ∈ evs

/-- From any value of the flag: a trip resets if the guard reads a late time for it and for every
trip before. -/
theorem runTrips_bug_iff {disabled : Bool} {ts : List Trip} {i : ℕ} {t : Trip}
    (ht : ts[i]? = some t) :
    (∃ evs, (runTrips disabled ts)[i]? = some evs ∧ .bug ∈ evs) ↔
      disabled = false ∧ sysrstBootGraceMs ≤ t.upMs ∧
        ∀ s ∈ ts.take i, sysrstBootGraceMs ≤ s.upMs := by
  induction ts generalizing disabled i with
  | nil => simp at ht
  | cons s ts ih =>
    rw [runTrips]
    cases i with
    | zero =>
      obtain rfl : s = t := by simpa using ht
      simp only [List.getElem?_cons_zero, Option.some.injEq, exists_eq_left', bug_iff,
        List.take_zero, List.not_mem_nil, false_implies, implies_true, and_true]
      exact and_comm
    | succ i =>
      rw [List.getElem?_cons_succ] at ht ⊢
      rw [ih ht, disabled_after, List.take_succ_cons, List.forall_mem_cons]
      constructor
      · rintro ⟨⟨hs, hd⟩, hlate, hall⟩
        exact ⟨hd, hlate, hs, hall⟩
      · rintro ⟨hd, hlate, hs, hall⟩
        exact ⟨⟨hs, hd⟩, hlate, hall⟩

theorem toNat_upMs (t : Trip) : t.upMs.toNat = t.uptime % 2 ^ 32 := UInt32.toNat_ofNat' ..

theorem grace_le_iff (t : Trip) : sysrstBootGraceMs ≤ t.upMs ↔ 120000 ≤ t.uptime % 2 ^ 32 := by
  rw [UInt32.le_iff_toNat_le, toNat_upMs]
  exact Iff.rfl

/-- **When a trip resets**, by the wrapped times. -/
theorem bugAt_iff {ts : List Trip} {i : ℕ} {t : Trip} (ht : ts[i]? = some t) :
    BugAt ts i ↔ 120000 ≤ t.uptime % 2 ^ 32 ∧ ∀ s ∈ ts.take i, 120000 ≤ s.uptime % 2 ^ 32 := by
  rw [BugAt, runTrips_bug_iff ht, grace_le_iff]
  simp only [grace_le_iff, true_and]

/-- Every trip of the boot resets exactly if it comes after the grace period and none came
within it. -/
def Guarded (ts : List Trip) : Prop :=
  ∀ i t, ts[i]? = some t →
    (BugAt ts i ↔ 120000 ≤ t.uptime ∧ ∀ s ∈ ts.take i, 120000 ≤ s.uptime)

/-- After a real early trip the guard and the uptime agree: nothing resets any more. -/
theorem guarded_of_early {ts : List Trip} (hmono : ts.Pairwise fun s t => s.uptime ≤ t.uptime)
    {e : Trip} (he : e ∈ ts) (hearly : e.uptime < 120000) : Guarded ts := by
  obtain ⟨s, ts, rfl⟩ := List.exists_cons_of_ne_nil (List.ne_nil_of_mem he)
  -- the first trip is the earliest
  have hs : s.uptime < 120000 := by
    rcases List.mem_cons.mp he with rfl | hmem
    · exact hearly
    · exact lt_of_le_of_lt ((List.pairwise_cons.mp hmono).1 e hmem) hearly
  have hs' : s.uptime % 2 ^ 32 < 120000 := lt_of_le_of_lt (Nat.mod_le _ _) hs
  intro i t ht
  rw [bugAt_iff ht]
  cases i with
  | zero =>
    obtain rfl : s = t := by simpa using ht
    constructor
    · rintro ⟨hlate, -⟩
      omega
    · rintro ⟨hlate, -⟩
      omega
  | succ i =>
    rw [List.take_succ_cons, List.forall_mem_cons, List.forall_mem_cons]
    constructor
    · rintro ⟨-, hlate, -⟩
      omega
    · rintro ⟨-, hlate, -⟩
      omega

/-- Where no time looks early, wrapped or not, every trip resets. -/
theorem guarded_of_late {ts : List Trip} (hlate : ∀ t ∈ ts, 120000 ≤ t.uptime % 2 ^ 32) :
    Guarded ts := by
  have htrue : ∀ t ∈ ts, 120000 ≤ t.uptime := fun t ht => (hlate t ht).trans (Nat.mod_le _ _)
  intro i t ht
  have hmem := List.mem_of_getElem? ht
  rw [bugAt_iff ht]
  constructor
  · intro _
    exact ⟨htrue t hmem, fun s hs => htrue s (List.mem_of_mem_take hs)⟩
  · intro _
    exact ⟨hlate t hmem, fun s hs => hlate s (List.mem_of_mem_take hs)⟩

/-- A late trip whose time has wrapped into the grace period is refused. -/
theorem not_guarded_of_wrapped {ts : List Trip} (hlate : ∀ t ∈ ts, 120000 ≤ t.uptime) {w : Trip}
    (hw : w ∈ ts) (hwrapped : w.uptime % 2 ^ 32 < 120000) : ¬ Guarded ts := by
  intro hguard
  -- by its uptime the trip should reset, by the time it reads it does not
  obtain ⟨i, hi⟩ := List.mem_iff_getElem?.mp hw
  have hbug := (hguard i w hi).mpr
    ⟨hlate w hw, fun s hs => hlate s (List.mem_of_mem_take hs)⟩
  have := ((bugAt_iff hi).mp hbug).1
  omega

/-- **When the guard is right for a whole boot**: if some trip really comes within the grace
period, or no trip comes at a time that looks as if it did. -/
theorem guarded_iff (ts : List Trip) (hmono : ts.Pairwise fun s t => s.uptime ≤ t.uptime) :
    Guarded ts ↔
      (∃ t ∈ ts, t.uptime < 120000) ∨ ∀ t ∈ ts, 120000 ≤ t.uptime % 2 ^ 32 := by
  constructor
  · intro hguard
    by_contra hneither
    push Not at hneither
    obtain ⟨hlate, w, hw, hwrapped⟩ := hneither
    exact not_guarded_of_wrapped hlate hw hwrapped hguard
  · rintro (⟨e, he, hearly⟩ | hlate)
    · exact guarded_of_early hmono he hearly
    · exact guarded_of_late hlate

theorem guarded_iff_two :
    Guarded [⟨ascii "mtktscpu-sysrst", 1270⟩, ⟨ascii "mtktsAP-sysrst", 4294967300⟩] ↔
      (∃ t ∈ ([⟨ascii "mtktscpu-sysrst", 1270⟩, ⟨ascii "mtktsAP-sysrst", 4294967300⟩] : List Trip),
        t.uptime < 120000) ∨
      ∀ t ∈ ([⟨ascii "mtktscpu-sysrst", 1270⟩, ⟨ascii "mtktsAP-sysrst", 4294967300⟩] : List Trip),
        120000 ≤ t.uptime % 2 ^ 32 :=
  guarded_iff _ (by simp)

/-- One trip, 2^32 ms after boot: its time reads 0. -/
theorem guarded_fails : ¬ Guarded [⟨ascii "mtktscpu-sysrst", 4294967296⟩] :=
  not_guarded_of_wrapped (w := ⟨ascii "mtktscpu-sysrst", 4294967296⟩) (by simp) (by simp)
    (by norm_num)

end Sysrst
