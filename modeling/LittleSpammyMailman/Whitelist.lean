/-
Which addresses the dump commands read.

A command either hands `dump_region` a `Grant`, an address and a length that
`mem_allowed` accepts, or fails.

* `DumpCmd.run_of_grant`, `DumpCmd.run_of_none` — so it does, in the source's
  order of checks, and `DumpCmd.performs_of_grant`: with these effects;
* `Grant.mem_span`, `Grant.inWhitelist` — a grant does not wrap, so what is
  copied under it is what was checked;
* `dumpCmd_guarded` — nothing outside the whitelist is read, nothing inside it
  is refused.
-/
import LittleSpammyMailman.Effects
import LittleSpammyMailman.Window

open Text Layout

namespace Selene

/-- The addresses of the whitelist. -/
def InWhitelist (a : UInt32) : Prop :=
  (0x00100000 ≤ a.toNat ∧ a.toNat < 0x00120000) ∨ (0x40000000 ≤ a.toNat ∧ a.toNat < 0xC0000000)

/-- An address and a length that `mem_allowed` accepts. -/
structure Grant where
  addr : UInt32
  len : UInt32
  allowed : memAllowed addr len = true

namespace Grant

def check (addr len : UInt32) : Option Grant :=
  if h : memAllowed addr len = true then some ⟨addr, len, h⟩ else none

theorem check_of_allowed {addr len : UInt32} (h : memAllowed addr len = true) :
    check addr len = some ⟨addr, len, h⟩ := dif_pos h

theorem check_eq_none {addr len : UInt32} : check addr len = none ↔ memAllowed addr len = false := by
  rw [check]
  split
  · rename_i h
    simp [h]
  · rename_i h
    simpa using h

/-- **The range read is the range checked.** -/
theorem mem_span (g : Grant) (m : Machine) (lk : LK) {a : UInt32}
    (ha : a ∈ copied (regionEffects m g.addr g.len lk)) :
    g.addr.toNat ≤ a.toNat ∧ a.toNat < g.addr.toNat + g.len.toNat := by
  obtain ⟨k, hk, hcopied⟩ := copied_region m g.addr g.len lk
  rw [hcopied, List.mem_map] at ha
  obtain ⟨i, hi, rfl⟩ := ha
  have hlt := List.mem_range.mp hi
  -- both areas end below 2^32
  obtain ⟨_, hmax, harea⟩ := (memAllowed_iff g.addr g.len).mp g.allowed
  have hadd : (g.addr + UInt32.ofNat i).toNat = g.addr.toNat + i := by
    rw [UInt32.toNat_add, UInt32.toNat_ofNat']
    rcases harea with h | h <;> omega
  omega

theorem length_copied_le (g : Grant) (m : Machine) (lk : LK) :
    (copied (regionEffects m g.addr g.len lk)).length ≤ g.len.toNat := by
  obtain ⟨k, hk, hcopied⟩ := copied_region m g.addr g.len lk
  rw [hcopied, List.length_map, List.length_range]
  exact hk

theorem inWhitelist (g : Grant) {a : UInt32} (hlo : g.addr.toNat ≤ a.toNat)
    (hhi : a.toNat < g.addr.toNat + g.len.toNat) : InWhitelist a := by
  obtain ⟨_, _, harea⟩ := (memAllowed_iff g.addr g.len).mp g.allowed
  rcases harea with h | h
  · left
    omega
  · right
    omega

end Grant

/-- The checks of `dump_window`. -/
def Region.grant (r : Region) (w : WindowArgs) : Option Grant :=
  if r.total ≤ w.off then none
  else Grant.check (r.base + w.off) (clampLen r.total w.off w.len)

/-- The checks of `cmd_rdmem`. -/
def rdmemGrant (w : WindowArgs) : Option Grant := Grant.check w.off (rdmemLen w.len)

namespace DumpCmd

/-- The region of a window command. -/
def region : DumpCmd → Option Region
  | ramoops => some Region.ramoops
  | rrlog => some Region.mboot
  | sram => some Region.sram
  | rdmem => none

/-- What the command hands to `dump_region`, if it does not fail. -/
def grant (cmd : DumpCmd) (w : WindowArgs) : Option Grant :=
  match cmd.region with
  | some r => r.grant w
  | none => rdmemGrant w

/-- What the command says when it fails. -/
def refusal (cmd : DumpCmd) : Line :=
  match cmd.region with
  | some _ => ascii "ofset bolge disinda"
  | none => ascii "adres/uzunluk izinli bolgede degil"

/-- LK when `dump_region` is called: the header sent, the emitter reset. -/
def entry (cmd : DumpCmd) (arg : Option Line) (lk : LK) : LK :=
  let em := (cmd.header arg).foldl Emitter.fastbootInfo lk.em
  { lk with em := emitReset dumpLinesMax (windowArgs arg).mode em }

/-- The effects of a command on memory and tables. -/
def effects (cmd : DumpCmd) (m : Machine) (arg : Option Line) (lk : LK) : List Effect :=
  match cmd.grant (windowArgs arg) with
  | some g => regionEffects m g.addr g.len (cmd.entry arg lk)
  | none => []

end DumpCmd

/-! ### The checks -/

theorem Region.grant_eq_none (r : Region) (w : WindowArgs) :
    r.grant w = none ↔ r.total ≤ w.off := by
  rw [Region.grant]
  by_cases h : r.total ≤ w.off
  · simp [h]
  · -- the second check of `dump_window` never fails
    have hoff : w.off < r.total := UInt32.not_le.mp h
    have hallowed := r.memAllowed_clampLen hoff w.len
    rw [if_neg h, Grant.check_of_allowed hallowed]
    simp [h]

theorem rdmemGrant_eq_none (w : WindowArgs) :
    rdmemGrant w = none ↔ w.len = 0 ∨ ¬ InArea w.off.toNat (min w.len.toNat 0x1000) := by
  have hzero : w.len = 0 ↔ w.len.toNat = 0 := UInt32.toNat_inj.symm
  rw [rdmemGrant, Grant.check_eq_none, ← Bool.not_eq_true, memAllowed_iff, toNat_rdmemLen, hzero]
  constructor
  · intro h
    by_contra hno
    push Not at hno
    exact h ⟨by omega, by omega, hno.2⟩
  · rintro (h | h) ⟨hpos, _, harea⟩
    · omega
    · exact h harea

theorem Grant.check_eq_some {addr len : UInt32} {g : Grant} (h : Grant.check addr len = some g) :
    memAllowed addr len = true ∧ g.addr = addr ∧ g.len = len := by
  rw [Grant.check] at h
  split at h
  · rename_i hallowed
    obtain rfl := Option.some.inj h
    exact ⟨hallowed, rfl, rfl⟩
  · exact absurd h (by simp)

/-- What `dump_window` has checked when it reads. -/
theorem Region.grant_eq_some {r : Region} {w : WindowArgs} {g : Grant} (h : r.grant w = some g) :
    w.off < r.total ∧ g.addr = r.base + w.off ∧ g.len = clampLen r.total w.off w.len := by
  have hoff : ¬ r.total ≤ w.off := by
    rw [← r.grant_eq_none, h]
    simp
  rw [Region.grant, if_neg hoff] at h
  exact ⟨UInt32.not_le.mp hoff, (Grant.check_eq_some h).2⟩

/-- A window command reads inside its region. -/
theorem Region.grant_span {r : Region} {w : WindowArgs} {g : Grant} (h : r.grant w = some g) :
    g.addr.toNat = r.base.toNat + w.off.toNat ∧ w.off.toNat + g.len.toNat ≤ r.total.toNat ∧
      g.len.toNat ≤ 0x1000 := by
  obtain ⟨hoff, haddr, hlen⟩ := r.grant_eq_some h
  have hlt := UInt32.lt_iff_toNat_lt.mp hoff
  have hclamp := toNat_clampLen hoff r.total_le w.len
  rw [haddr, hlen]
  exact ⟨r.toNat_base_add hoff, by omega, clampLen_le hoff r.total_le w.len⟩

theorem DumpCmd.grant_len_le {cmd : DumpCmd} {w : WindowArgs} {g : Grant}
    (h : cmd.grant w = some g) : g.len.toNat ≤ 0x1000 := by
  rw [DumpCmd.grant] at h
  cases hr : cmd.region with
  | some r =>
    rw [hr] at h
    exact (Region.grant_span h).2.2
  | none =>
    rw [hr] at h
    rw [(Grant.check_eq_some h).2.2, toNat_rdmemLen]
    exact min_le_right _ _

/-! ### The commands -/

section

variable {cmd : DumpCmd} {m : Machine} {arg : Option Line} {lk : LK}

/-- **A command that is granted a range** reads it, between the header and the trailer. -/
theorem DumpCmd.run_of_grant {g : Grant} (h : cmd.grant (windowArgs arg) = some g) :
    cmd.run m arg lk = trailer (dumpRegion m g.addr g.len (cmd.entry arg lk)) := by
  have hregion : ∀ r : Region, r.grant (windowArgs arg) = some g →
      r.command m arg lk = trailer (dumpRegion m g.addr g.len
        { lk with
          em := emitReset dumpLinesMax (windowArgs arg).mode
            ((r.header (windowArgs arg)).foldl Emitter.fastbootInfo lk.em) }) := by
    intro r hr
    obtain ⟨hoff, haddr, hlen⟩ := r.grant_eq_some hr
    rw [r.command_of_lt m arg lk hoff, haddr, hlen]
  cases cmd with
  | ramoops => exact hregion Region.ramoops h
  | rrlog => exact hregion Region.mboot h
  | sram => exact hregion Region.sram h
  | rdmem =>
    obtain ⟨hallowed, haddr, hlen⟩ := Grant.check_eq_some h
    rw [DumpCmd.run, cmdRdmem_of_allowed m arg lk hallowed, haddr, hlen]
    rfl

/-- **A command that is granted nothing** fails, and does nothing else. -/
theorem DumpCmd.run_of_none (h : cmd.grant (windowArgs arg) = none) :
    cmd.run m arg lk = { lk with em := lk.em.fastbootFail cmd.refusal } := by
  have hregion : ∀ r : Region, r.grant (windowArgs arg) = none →
      r.command m arg lk = { lk with em := lk.em.fastbootFail (ascii "ofset bolge disinda") } :=
    fun r hr => r.command_of_le m arg lk ((r.grant_eq_none _).mp hr)
  cases cmd with
  | ramoops => exact hregion Region.ramoops h
  | rrlog => exact hregion Region.mboot h
  | sram => exact hregion Region.sram h
  | rdmem => exact cmdRdmem_of_refused m arg lk (Grant.check_eq_none.mp h)

theorem DumpCmd.entry_sent :
    (cmd.entry arg lk).em.sent = lk.em.sent ++ (cmd.header arg).map .info :=
  foldl_fastbootInfo_sent _ _

/-- **The effects** of a command that is granted a range are those of its `dump_region`. -/
theorem DumpCmd.performs_of_grant {g : Grant} (h : cmd.grant (windowArgs arg) = some g) :
    Performs m g.addr g.len (cmd.entry arg lk) (cmd.effects m arg lk) := by
  rw [DumpCmd.effects, h]
  exact performs_region m g.addr g.len (cmd.entry arg lk)

theorem DumpCmd.effects_of_none (h : cmd.grant (windowArgs arg) = none) :
    cmd.effects m arg lk = [] := by
  rw [DumpCmd.effects, h]

/-- The messages of a command that is granted a range. -/
theorem DumpCmd.sent_of_grant (m : Machine) (lk : LK) {g : Grant}
    (h : cmd.grant (windowArgs arg) = some g) : ∃ used, (cmd.run m arg lk).em.sent
      = lk.em.sent ++ reply (cmd.header arg) (messages (cmd.effects m arg lk)) used := by
  refine ⟨(dumpRegion m g.addr g.len (cmd.entry arg lk)).1, ?_⟩
  rw [DumpCmd.run_of_grant h]
  show (dumpRegion m g.addr g.len (cmd.entry arg lk)).2.em.sent ++ [.info _] ++ [.okay []] = _
  rw [(DumpCmd.performs_of_grant h).sent, DumpCmd.entry_sent]
  simp [reply]

end

/-- The command ends with `fastboot_fail`. -/
def DumpCmd.Fails (cmd : DumpCmd) (m : Machine) (arg : Option Line) (lk : LK) : Prop :=
  ∃ why, .fail why ∈ (cmd.run m arg lk.quiet).em.sent

/-- The only message of a command that fails. -/
theorem DumpCmd.fail_mem_iff {cmd : DumpCmd} {m : Machine} {arg : Option Line} {lk : LK}
    {why : Line} : .fail why ∈ (cmd.run m arg lk.quiet).em.sent ↔
      cmd.grant (windowArgs arg) = none ∧ why = cmd.refusal := by
  cases hg : cmd.grant (windowArgs arg) with
  | none =>
    have hsent : (cmd.run m arg lk.quiet).em.sent = [.fail cmd.refusal] := by
      rw [DumpCmd.run_of_none hg]
      rfl
    simp [hsent]
  | some g =>
    obtain ⟨used, hsent⟩ := DumpCmd.sent_of_grant m lk.quiet hg
    rw [hsent]
    simp [reply, LK.quiet]

theorem DumpCmd.fails_iff (cmd : DumpCmd) (m : Machine) (arg : Option Line) (lk : LK) :
    cmd.Fails m arg lk ↔ cmd.grant (windowArgs arg) = none := by
  rw [DumpCmd.Fails]
  simp only [DumpCmd.fail_mem_iff, exists_and_left, exists_eq, and_true]

section

variable {cmd : DumpCmd} {m : Machine} {arg : Option Line} {lk : LK}

theorem DumpCmd.grant_of_region {r : Region} (h : cmd.region = some r) (w : WindowArgs) :
    cmd.grant w = r.grant w := by
  rw [DumpCmd.grant, h]

theorem DumpCmd.grant_of_no_region (h : cmd.region = none) (w : WindowArgs) :
    cmd.grant w = rdmemGrant w := by
  rw [DumpCmd.grant, h]

/-- What is copied is copied under a grant. -/
theorem DumpCmd.mem_copied {a : UInt32} (ha : a ∈ copied (cmd.effects m arg lk)) :
    ∃ g, cmd.grant (windowArgs arg) = some g ∧
      g.addr.toNat ≤ a.toNat ∧ a.toNat < g.addr.toNat + g.len.toNat := by
  rw [DumpCmd.effects] at ha
  cases hg : cmd.grant (windowArgs arg) with
  | none => simp [hg, copied] at ha
  | some g =>
    rw [hg] at ha
    exact ⟨g, rfl, g.mem_span m _ ha⟩

theorem DumpCmd.length_copied_le : (copied (cmd.effects m arg lk)).length ≤ 0x1000 := by
  rw [DumpCmd.effects]
  cases hg : cmd.grant (windowArgs arg) with
  | none => exact Nat.zero_le _
  | some g => exact (g.length_copied_le m _).trans (DumpCmd.grant_len_le hg)

end

/-- What the whitelist guarantees of a command.  The first two fields say that the command is its
`dump_region` under the grant, with these effects, or nothing but a failure. -/
structure Guarded (cmd : DumpCmd) (m : Machine) (arg : Option Line) (lk : LK) : Prop where
  granted : ∀ g ∈ cmd.grant (windowArgs arg),
    cmd.run m arg lk = trailer (dumpRegion m g.addr g.len (cmd.entry arg lk)) ∧
      Performs m g.addr g.len (cmd.entry arg lk) (cmd.effects m arg lk)
  refused : cmd.grant (windowArgs arg) = none →
    cmd.run m arg lk = { lk with em := lk.em.fastbootFail cmd.refusal } ∧ cmd.effects m arg lk = []
  whitelisted : ∀ a ∈ copied (cmd.effects m arg lk), InWhitelist a
  oneshot : (copied (cmd.effects m arg lk)).length ≤ 0x1000
  in_region : ∀ r ∈ cmd.region, ∀ a ∈ copied (cmd.effects m arg lk),
    r.base.toNat ≤ a.toNat ∧ a.toNat < r.base.toNat + r.total.toNat
  window_fails : ∀ r ∈ cmd.region, (cmd.Fails m arg lk ↔ r.total ≤ (windowArgs arg).off)
  second_fail : ∀ r ∈ cmd.region, .fail (ascii "adres/uzunluk izinli bolgede degil") ∉
    (cmd.run m arg lk.quiet).em.sent
  rdmem_fails : cmd.region = none → (cmd.Fails m arg lk ↔ (windowArgs arg).len = 0 ∨
    ¬ InArea (windowArgs arg).off.toNat (min (windowArgs arg).len.toNat 0x1000))

/-- **The whitelist is exact**, whatever the argument: a command copies at most `0x1000` bytes, all
of them inside the whitelist and inside its region, and it fails only when the offset is behind the
region, for `oem rdmem` only when the range asked for is empty or not inside one area. -/
theorem dumpCmd_guarded (cmd : DumpCmd) (m : Machine) (arg : Option Line) (lk : LK) :
    Guarded cmd m arg lk := by
  constructor
  · intro g hg
    exact ⟨DumpCmd.run_of_grant hg, DumpCmd.performs_of_grant hg⟩
  · intro hg
    exact ⟨DumpCmd.run_of_none hg, DumpCmd.effects_of_none hg⟩
  · intro a ha
    obtain ⟨g, _, hlo, hhi⟩ := DumpCmd.mem_copied ha
    exact g.inWhitelist hlo hhi
  · exact DumpCmd.length_copied_le
  · intro r hr a ha
    obtain ⟨g, hg, hlo, hhi⟩ := DumpCmd.mem_copied ha
    rw [DumpCmd.grant_of_region hr] at hg
    obtain ⟨haddr, hend, _⟩ := Region.grant_span hg
    omega
  · intro r hr
    rw [cmd.fails_iff, DumpCmd.grant_of_region hr]
    exact r.grant_eq_none _
  · -- a window command fails by its first check only
    intro r hr hmem
    have hwhy := (DumpCmd.fail_mem_iff.mp hmem).2
    have hne : ascii "adres/uzunluk izinli bolgede degil" ≠ ascii "ofset bolge disinda" := by decide
    rw [DumpCmd.refusal, Option.mem_def.mp hr] at hwhy
    exact hne hwhy
  · intro hr
    rw [cmd.fails_iff, DumpCmd.grant_of_no_region hr]
    exact rdmemGrant_eq_none _

end Selene
