/-
`tools/flash-session/07-fbdump.sh` over `oem rdmem`.

The script asks for 4 KB at a time and goes on by what it asked for; the
device stops on its line budget and says so in a trailer the script does not
read.

* `Tiles` — ranges laid end to end;
* `ChunkFits` — the device consumes the whole of a chunk;
* `Advanced` — the invariant: the ranges consumed tile what has been asked for
  exactly as long as every chunk fits;
* `covers_iff` — when a run covers its window.
-/
import LittleSpammyMailman.Lkdump

open Text Layout Shell

namespace Selene

/-- The variables of the script and its output file. -/
structure Fb where
  addr : ℤ
  fail : ℤ
  doneB : ℤ
  out : List Line

/-- The script and the device.  `consumed` records, for every command that succeeded, from where
and how much the device read; the script has no such list. -/
structure FbSys where
  fb : Fb
  lk : LK
  issued : ℕ
  consumed : List (ℕ × ℕ)

/-- `n` -/
def fbLen (addr stop : ℤ) : ℤ :=
  if stop < wrap64 (addr + 0x1000) then wrap64 (stop - addr) else 0x1000

/-- What reaches the device behind `oem rdmem`. -/
def Tools.rdmemArgument (t : Tools) (addr n : ℤ) : Line :=
  List.replicate t.lead space ++ (shPrintfX addr ++ (ascii " " ++ shPrintfX n))

/-- The branch of a command that succeeded. -/
def FbSys.took (t : Tools) (n : ℤ) (arg : Line) (lk : LK) (s : FbSys) : FbSys where
  fb :=
    { addr := wrap64 (s.fb.addr + n)
      fail := 0
      doneB := wrap64 (s.fb.doneB + n)
      out := s.fb.out ++
        sedStrip bootloader (echoed (capture (t.output s.issued (infos lk.em.sent)))) }
  lk := lk
  issued := s.issued + 1
  consumed := s.consumed ++ [((windowArgs (some arg)).off.toNat, reportedUsed lk.em.sent)]

/-- One iteration; `fault k` makes the `k`-th command fail on its way. -/
def fbStep (t : Tools) (m : Machine) (fault : ℕ → Bool) (stop : ℤ) (s : FbSys) :
    FbSys ⊕ FbSys :=
  if s.fb.addr < stop then
    let n := fbLen s.fb.addr stop
    let arg := t.rdmemArgument s.fb.addr n
    let lk := cmdRdmem m (some arg) s.lk.quiet
    if fault s.issued ∨ succeeded lk.em.sent = false then
      let fb := { s.fb with fail := s.fb.fail + 1 }
      if 3 ≤ fb.fail then .inr ⟨fb, lk, s.issued + 1, s.consumed⟩
      else .inl ⟨{ fb with addr := wrap64 (fb.addr + n) }, lk, s.issued + 1, s.consumed⟩
    else .inl (s.took t n arg lk)
  else .inr s

/-- The script on its two arguments; `none` while it runs, or if they are no numerals. -/
def fbdump (t : Tools) (m : Machine) (fault : ℕ → Bool) (addrHex lenHex : Line) (lk : LK)
    (fuel : ℕ) : Option FbSys :=
  match shHex addrHex, shHex lenHex with
  | some addr, some len =>
    Loop.run (fbStep t m fault (wrap64 (addr + len))) fuel ⟨⟨addr, 0, 0, []⟩, lk, 0, []⟩
  | _, _ => none

/-! ### Ranges laid end to end -/

/-- The ranges `[x, x + n)` lie end to end from `a` to `b`. -/
def Tiles : List (ℕ × ℕ) → ℕ → ℕ → Prop
  | [], a, b => a = b
  | (x, n) :: l, a, b => x = a ∧ Tiles l (a + n) b

theorem tiles_concat {l : List (ℕ × ℕ)} {a b x n : ℕ} :
    Tiles (l ++ [(x, n)]) a b ↔ Tiles l a x ∧ x + n = b := by
  induction l generalizing a with
  | nil =>
    simp only [List.nil_append, Tiles]
    constructor
    · rintro ⟨rfl, h⟩
      exact ⟨rfl, h⟩
    · rintro ⟨rfl, h⟩
      exact ⟨rfl, h⟩
  | cons y l ih =>
    obtain ⟨y, k⟩ := y
    rw [List.cons_append, Tiles, Tiles, ih, and_assoc]

theorem Tiles.sum {l : List (ℕ × ℕ)} {a b : ℕ} (h : Tiles l a b) :
    a + (l.map Prod.snd).sum = b := by
  induction l generalizing a with
  | nil => exact h
  | cons y l ih =>
    obtain ⟨y, k⟩ := y
    rw [List.map_cons, List.sum_cons, ← Nat.add_assoc]
    exact ih h.2

/-! ### One chunk -/

/-- The device consumes all of a chunk of these bytes: they have at most 64 display lines, or one
more that the end of the chunk leaves in the line buffer. -/
def ChunkFits (bs : List UInt8) : Prop :=
  (displayLines Mode.text.format bs).length ≤ dumpLinesMax ∨
    ((displayLines Mode.text.format bs).length = dumpLinesMax + 1 ∧
      bs.getLast? ≠ some newline)

theorem usedBytes_text_eq_iff (bs : List UInt8) :
    usedBytes .text bs = bs.length ↔ ChunkFits bs := by
  have hlast : (displayLines Mode.text.format bs).length = dumpLinesMax + 1 →
      ((¬ ∀ a ∈ bs.getLast?, Mode.text.format.sep a = true) ↔ bs.getLast? ≠ some newline) := by
    intro hlen
    obtain ⟨c, hc⟩ : ∃ c, bs.getLast? = some c := by
      refine Option.ne_none_iff_exists'.mp ?_
      intro hnone
      rw [List.getLast?_eq_none_iff.mp hnone] at hlen
      exact absurd hlen (by simp [displayLines, dumpLinesMax])
    simp [hc, Mode.format]
  rw [usedBytes, Page.taken_eq_length_iff, ChunkFits]
  exact or_congr_right (and_congr_right hlast)

/-- The device reads the arguments the script gives. -/
theorem windowArgs_rdmemArgument (t : Tools) {a n : ℕ} (ha : a < 2 ^ 64) (hn : n < 2 ^ 64) :
    windowArgs (some (t.rdmemArgument a n)) = ⟨UInt32.ofNat a, UInt32.ofNat n, .text⟩ := by
  have harg : t.rdmemArgument a n = List.replicate t.lead space ++
      (printfX a ++ (List.replicate 1 space ++ (printfX n ++ []))) := by
    rw [Tools.rdmemArgument, shPrintfX_natCast ha, shPrintfX_natCast hn, List.append_nil]
    rfl
  rw [harg, windowArgs_printfX _ _ _ _ Nat.one_pos (by simp)]
  rfl

/-- `oem rdmem` inside the DRAM area: accepted, with the bytes of the range. -/
theorem rdmem_at (t : Tools) (m : Machine) (lk : LK) {a n : ℕ} (ha : 0x40000000 ≤ a)
    (hend : a + n ≤ 0xC0000000) (hpos : 0 < n) (hn : n ≤ 0x1000) :
    ∃ bs : List UInt8, bs.length = n ∧
      (∀ content, m.Holds content lk.tables (UInt32.ofNat a) n →
        bs = window content (UInt32.ofNat a) n) ∧
      m.Meets (UInt32.ofNat a) n lk.tables
        (cmdRdmem m (some (t.rdmemArgument a n)) lk.quiet).tables ∧
      reportedUsed (cmdRdmem m (some (t.rdmemArgument a n)) lk.quiet).em.sent
        = usedBytes .text bs ∧
      succeeded (cmdRdmem m (some (t.rdmemArgument a n)) lk.quiet).em.sent = true := by
  have ha' : (UInt32.ofNat a).toNat = a :=
    UInt32.toNat_ofNat_of_lt' (show a < 2 ^ 32 by omega)
  have hn' : (UInt32.ofNat n).toNat = n :=
    UInt32.toNat_ofNat_of_lt' (show n < 2 ^ 32 by omega)
  have hlen : rdmemLen (UInt32.ofNat n) = UInt32.ofNat n := by
    rw [← UInt32.toNat_inj, toNat_rdmemLen, hn']
    omega
  have hargs := windowArgs_rdmemArgument t (a := a) (n := n) (by omega) (by omega)
  have hallowed : memAllowed (UInt32.ofNat a) (UInt32.ofNat n) = true := by
    rw [memAllowed_iff, ha', hn']
    exact ⟨hpos, by omega, Or.inr ⟨ha, hend⟩⟩
  obtain ⟨bs, hbs, hcont, hsent⟩ := rdmem_accepted m (some (t.rdmemArgument a n)) lk.quiet
    (by rw [hargs]; simpa only [hlen] using hallowed)
  have hmeets := cmdRdmem_meets m (some (t.rdmemArgument a n)) lk.quiet
  rw [hargs] at hbs hcont hsent hmeets
  simp only [hlen, hn'] at hbs hcont hsent hmeets
  have hused := usedBytes_le .text bs
  have hsent' : (cmdRdmem m (some (t.rdmemArgument a n)) lk.quiet).em.sent
      = reply [] (dataLines .text bs) (UInt32.ofNat (usedBytes .text bs)) := hsent
  refine ⟨bs, hbs, ?_, hmeets, ?_, ?_⟩
  · intro content hm
    rw [← hbs]
    exact hcont content (hbs ▸ hm)
  · rw [hsent', reportedUsed_reply]
    exact UInt32.toNat_ofNat_of_lt' (show usedBytes .text bs < 2 ^ 32 by omega)
  · rw [hsent', succeeded_reply]

/-! ### A run -/

/-- The bytes of the `k`-th chunk of a window. -/
def chunk (content : UInt32 → UInt8) (addr len k : ℕ) : List UInt8 :=
  window content (UInt32.ofNat (addr + 4096 * k)) (min 4096 (len - 4096 * k))

/-- `d` bytes of the window have been asked for, every command having succeeded. -/
structure Advanced (content : UInt32 → UInt8) (addr len : ℕ) (s : FbSys) (d : ℕ) : Prop where
  addr_eq : s.fb.addr = (addr + d : ℕ)
  doneB_eq : s.fb.doneB = d
  le : d ≤ len
  aligned : d < len → 4096 ∣ d
  tiles : Tiles s.consumed addr (addr + d) ↔
    ∀ k, 4096 * k < d → ChunkFits (chunk content addr len k)

section

variable {content : UInt32 → UInt8} {addr len d : ℕ} {s : FbSys}

theorem fbLen_eq (hend : addr + len ≤ 0xC0000000) (hd : d < len) :
    fbLen ((addr + d : ℕ) : ℤ) ((addr + len : ℕ) : ℤ) = (min 0x1000 (len - d) : ℕ) := by
  rw [fbLen, wrap64_of_lt (by omega) (by omega), wrap64_of_lt (by omega) (by omega)]
  split <;> omega

theorem fbStep_of_succeeded {t : Tools} {m : Machine} {stop : ℤ} (hlt : s.fb.addr < stop) :
    let n := fbLen s.fb.addr stop
    let arg := t.rdmemArgument s.fb.addr n
    let lk := cmdRdmem m (some arg) s.lk.quiet
    succeeded lk.em.sent = true →
      fbStep t m (fun _ => false) stop s = .inl (s.took t n arg lk) := by
  intro n arg lk hok
  rw [fbStep, if_pos hlt]
  exact if_neg fun h => by simp [arg, n, lk, hok] at h

/-- The chunks asked for after one more command. -/
theorem forall_chunk_succ {P : ℕ → Prop} {j : ℕ} (hd : 4096 * j < len) :
    (∀ k, 4096 * k < 4096 * j + min 0x1000 (len - 4096 * j) → P k) ↔
      (∀ k, 4096 * k < 4096 * j → P k) ∧ P j := by
  constructor
  · intro h
    exact ⟨fun k hk => h k (by omega), h j (by omega)⟩
  · rintro ⟨h, hj⟩ k hk
    rcases Nat.lt_or_ge k j with hlt | hge
    · exact h k (by omega)
    · obtain rfl : k = j := by omega
      exact hj

/-- **One iteration.** -/
theorem Advanced.step (t : Tools) (m : Machine) (hc : Advanced content addr len s d)
    (haddr : 0x40000000 ≤ addr) (hend : addr + len ≤ 0xC0000000)
    (hm : m.Holds content s.lk.tables (UInt32.ofNat addr) len) (hd : d < len) :
    ∃ s', fbStep t m (fun _ => false) ((addr + len : ℕ) : ℤ) s = .inl s' ∧
      m.Holds content s'.lk.tables (UInt32.ofNat addr) len ∧
      Advanced content addr len s' (d + min 0x1000 (len - d)) := by
  -- a window that is not finished has been asked for in whole chunks
  obtain ⟨j, rfl⟩ := hc.aligned hd
  set n := min 0x1000 (len - 4096 * j) with hn
  obtain ⟨bs, hlen, hcont, hmeets, hused, hok⟩ := rdmem_at t m s.lk (a := addr + 4096 * j) (n := n)
    (by omega) (by omega) (by omega) (by omega)
  have hbs : bs = chunk content addr len j := by
    refine hcont content ?_
    rw [UInt32.ofNat_add]
    exact hm.shift (by omega)
  have hoff : (windowArgs (some (t.rdmemArgument ((addr + 4096 * j : ℕ) : ℤ) (n : ℤ)))).off.toNat
      = addr + 4096 * j := by
    rw [windowArgs_rdmemArgument t (by omega) (by omega)]
    exact UInt32.toNat_ofNat_of_lt' (show addr + 4096 * j < 2 ^ 32 by omega)
  have hlt : s.fb.addr < ((addr + len : ℕ) : ℤ) := by
    rw [hc.addr_eq]
    omega
  have hstep := fbStep_of_succeeded (t := t) (m := m) hlt
  rw [hc.addr_eq, fbLen_eq hend hd, ← hn] at hstep
  rw [UInt32.ofNat_add] at hmeets
  refine ⟨_, hstep hok, hm.meets (hmeets.mono (by omega)), ?_⟩
  constructor
  · show wrap64 (s.fb.addr + n) = _
    rw [hc.addr_eq, wrap64_of_lt (by omega) (by omega)]
    omega
  · show wrap64 (s.fb.doneB + n) = _
    rw [hc.doneB_eq, wrap64_of_lt (by omega) (by omega)]
    omega
  · omega
  · intro hmore
    exact ⟨j + 1, by omega⟩
  · rw [FbSys.took]
    simp only [hoff, hused]
    rw [tiles_concat, hc.tiles, forall_chunk_succ hd, ← hbs, ← usedBytes_text_eq_iff, hlen]
    refine and_congr_right ?_
    intro _
    omega

end

/-- **A run in which every command succeeds** asks for the whole window. -/
theorem fbdump_ends (t : Tools) (m : Machine) (content : UInt32 → UInt8) {addr len : ℕ}
    {addrHex lenHex : Line} (lk : LK) (ha : shHex addrHex = some (addr : ℤ))
    (hl : shHex lenHex = some (len : ℤ)) (haddr : 0x40000000 ≤ addr)
    (hend : addr + len ≤ 0xC0000000) (hm : m.Holds content lk.tables (UInt32.ofNat addr) len) :
    ∃ fuel s, fbdump t m (fun _ => false) addrHex lenHex lk fuel = some s ∧
      Advanced content addr len s len := by
  have hstop : wrap64 ((addr : ℤ) + len) = ((addr + len : ℕ) : ℤ) := by
    rw [wrap64_of_lt (by omega) (by omega)]
    omega
  have hstart : Advanced content addr len ⟨⟨addr, 0, 0, []⟩, lk, 0, []⟩ 0 := by
    refine ⟨rfl, rfl, Nat.zero_le _, fun _ => Nat.dvd_zero _, ?_⟩
    simp [Tiles]
  have hgo : ∀ s s' : FbSys,
      (m.Holds content s.lk.tables (UInt32.ofNat addr) len ∧ ∃ d, Advanced content addr len s d) →
      fbStep t m (fun _ => false) ((addr + len : ℕ) : ℤ) s = .inl s' →
      (m.Holds content s'.lk.tables (UInt32.ofNat addr) len ∧ ∃ d, Advanced content addr len s' d) ∧
        (((addr + len : ℕ) : ℤ) - s'.fb.addr).toNat < (((addr + len : ℕ) : ℤ) - s.fb.addr).toNat := by
    rintro s s' ⟨hm, d, hc⟩ hstep
    have haddr' := hc.addr_eq
    -- the loop goes on only before the end
    have hd : d < len := by
      by_contra hd
      rw [fbStep, if_neg (by omega)] at hstep
      exact absurd hstep (by simp)
    obtain ⟨s'', hs'', hm'', hc''⟩ := hc.step t m haddr hend hm hd
    obtain rfl : s'' = s' := Sum.inl.inj (hs''.symm.trans hstep)
    have haddr'' := hc''.addr_eq
    exact ⟨⟨hm'', _, hc''⟩, by omega⟩
  have hleave : ∀ s e : FbSys,
      (m.Holds content s.lk.tables (UInt32.ofNat addr) len ∧ ∃ d, Advanced content addr len s d) →
      fbStep t m (fun _ => false) ((addr + len : ℕ) : ℤ) s = .inr e →
      Advanced content addr len e len := by
    rintro s e ⟨hm, d, hc⟩ hstep
    rcases Nat.lt_or_ge d len with hd | hd
    · obtain ⟨s'', hs'', _⟩ := hc.step t m haddr hend hm hd
      rw [hs''] at hstep
      exact absurd hstep (by simp)
    · obtain rfl : d = len := le_antisymm hc.le hd
      have haddr' := hc.addr_eq
      rw [fbStep, if_neg (by omega)] at hstep
      rwa [← Sum.inr.inj hstep]
  have hloop : ∀ fuel, fbdump t m (fun _ => false) addrHex lenHex lk fuel
      = Loop.run (fbStep t m (fun _ => false) ((addr + len : ℕ) : ℤ)) fuel
          ⟨⟨addr, 0, 0, []⟩, lk, 0, []⟩ := by
    intro fuel
    rw [fbdump, ha, hl, ← hstop]
  obtain ⟨s, hrun, hpost⟩ := Loop.run_rule hgo hleave ⟨hm, 0, hstart⟩
  exact ⟨_, s, (hloop _).trans hrun, hpost⟩

/-- A run in which every command succeeds consumes the window: the ranges the device read lie end
to end from its first byte to its last, and are as long as the script says. -/
def Covers (t : Tools) (m : Machine) (addr len : ℕ) (addrHex lenHex : Line) (lk : LK) : Prop :=
  ∃ fuel s, fbdump t m (fun _ => false) addrHex lenHex lk fuel = some s ∧
    Tiles s.consumed addr (addr + len) ∧ (s.consumed.map Prod.snd).sum = len ∧ s.fb.doneB = len

theorem fbdump_unique {t : Tools} {m : Machine} {fault : ℕ → Bool} {addrHex lenHex : Line} {lk : LK}
    {fuel fuel' : ℕ} {s s' : FbSys} (h : fbdump t m fault addrHex lenHex lk fuel = some s)
    (h' : fbdump t m fault addrHex lenHex lk fuel' = some s') : s = s' := by
  rw [fbdump] at h h'
  cases ha : shHex addrHex with
  | none => simp [ha] at h
  | some addr =>
    cases hl : shHex lenHex with
    | none => simp [ha, hl] at h
    | some len =>
      rw [ha, hl] at h h'
      exact Loop.run_unique h h'

section

variable {t : Tools} {m : Machine} {content : UInt32 → UInt8} {addr len : ℕ}
  {addrHex lenHex : Line} {lk : LK}

theorem covers_of_fits (ha : shHex addrHex = some (addr : ℤ)) (hl : shHex lenHex = some (len : ℤ))
    (haddr : 0x40000000 ≤ addr) (hend : addr + len ≤ 0xC0000000)
    (hm : m.Holds content lk.tables (UInt32.ofNat addr) len)
    (hfits : ∀ k, 4096 * k < len → ChunkFits (chunk content addr len k)) :
    Covers t m addr len addrHex lenHex lk := by
  obtain ⟨fuel, s, hrun, hc⟩ := fbdump_ends t m content lk ha hl haddr hend hm
  have htiles := hc.tiles.mpr hfits
  have hsum := htiles.sum
  exact ⟨fuel, s, hrun, htiles, by omega, hc.doneB_eq⟩

theorem Covers.fits (h : Covers t m addr len addrHex lenHex lk)
    (ha : shHex addrHex = some (addr : ℤ)) (hl : shHex lenHex = some (len : ℤ))
    (haddr : 0x40000000 ≤ addr) (hend : addr + len ≤ 0xC0000000)
    (hm : m.Holds content lk.tables (UInt32.ofNat addr) len) :
    ∀ k, 4096 * k < len → ChunkFits (chunk content addr len k) := by
  obtain ⟨fuel, s, hrun, hc⟩ := fbdump_ends t m content lk ha hl haddr hend hm
  obtain ⟨fuel', s', hrun', htiles, -⟩ := h
  obtain rfl := fbdump_unique hrun hrun'
  exact hc.tiles.mp htiles

end

/-- **When `07-fbdump.sh` covers its window**: exactly when the device consumes every 4 KB chunk in
one command. -/
theorem covers_iff (t : Tools) (m : Machine) (content : UInt32 → UInt8) (addr len : ℕ)
    (addrHex lenHex : Line) (lk : LK) (ha : shHex addrHex = some (addr : ℤ))
    (hl : shHex lenHex = some (len : ℤ)) (haddr : 0x40000000 ≤ addr)
    (hend : addr + len ≤ 0xC0000000) (hm : m.Holds content lk.tables (UInt32.ofNat addr) len) :
    Covers t m addr len addrHex lenHex lk ↔
      ∀ k, 4096 * k < len → ChunkFits (chunk content addr len k) :=
  ⟨fun h => h.fits ha hl haddr hend hm, covers_of_fits ha hl haddr hend hm⟩

theorem covers_iff_ramoops : Covers Tools.usual (Machine.plain fun _ => 0x41) 0x4D010000 0x40000
      (ascii "4d010000") (ascii "40000") LK.boot ↔
    ∀ k, 4096 * k < 0x40000 → ChunkFits (chunk (fun _ => 0x41) 0x4D010000 0x40000 k) :=
  covers_iff _ _ _ _ _ _ _ _ (by decide) (by decide) (by decide) (by decide)
    (Machine.plain_holds _ _ _ _)

/-- A window of `A`s: the first chunk is cut after 65 lines, and the script skips the rest of it. -/
theorem covers_fails : ¬ Covers Tools.usual (Machine.plain fun _ => 0x41) 0x4D010000 0x40000
    (ascii "4d010000") (ascii "40000") LK.boot := by
  intro h
  have hfits := h.fits (by decide) (by decide) (by decide) (by decide)
    (Machine.plain_holds (fun _ => 0x41) _ _ _) 0 (by decide)
  rw [chunk, window_const] at hfits
  have hneed := le_length_displayLines_replicate (f := Mode.text.format) (a := 0x41) rfl
    (min 4096 (0x40000 - 4096 * 0))
  -- 4096 bytes need 74 lines
  rw [show Mode.text.format.width = 56 from rfl] at hneed
  have hbudget : dumpLinesMax = 64 := rfl
  rcases hfits with hle | ⟨heq, -⟩ <;> omega

end Selene
