/-
What `dump_region` does to the world, effect by effect.

An `Effect` is a store to a table entry, a byte copied into `dump_buf`, or an
INFO message; `regionEffects` lists those of one call in order.  The buffers of
the dump are no table memory, so only a store changes the tables.

* `performs_region` — the list is what the call does: it leaves the tables the
  call leaves, has its messages, and the bytes loaded under the tables then in
  force determine its result;
* `copied_region` — the bytes copied are those of the window, each once and in
  order;
* `dumpRegion_chunks` — the chunks do not show.
-/
import LittleSpammyMailman.Dump
import LittleSpammyMailman.Replay

open Text Layout Replay

namespace Selene

/-- A store to a table entry, `dump_buf[i] = *(a)`, or a message. -/
inductive Effect
  | store (slot : UInt32) (desc : UInt64)
  | copy (i : ℕ) (a : UInt32)
  | info (l : Line)
  deriving DecidableEq, Repr

/-- The tables after an effect. -/
def Effect.apply (t : Tables) : Effect → Tables
  | store slot desc => Function.update t slot desc
  | copy _ _ => t
  | info _ => t

/-- The store of `mmu_map_page`: what it leaves in the slot, if it maps. -/
def mapEffects (m : Machine) (t : Tables) (va : UInt32) : List Effect :=
  let slot := mmuL3Slot m t va
  let r := mmuMapPage m t va
  if r.mapped then [.store slot (r.tables slot)] else []

/-- The store of `mmu_restore_page`. -/
def restoreEffects (m : Machine) (t : Tables) (va : UInt32) (old : UInt64) : List Effect :=
  let slot := mmuL3Slot m t va
  if slot = 0 then [] else [.store slot (mmuRestorePage m t va old slot)]

def copyEffects (a n : UInt32) : List Effect :=
  (List.range n.toNat).map fun i => .copy i (a + UInt32.ofNat i)

/-- The messages between two states of the emitter. -/
def infoEffects (e e' : Emitter) : List Effect := (infos (e'.sent.drop e.sent.length)).map .info

/-- One pass of the outer loop: map, copy, restore, push. -/
def passEffects (m : Machine) (addr len : UInt32) (s : DumpState) : List Effect :=
  let a := addr + s.done
  let r := mmuMapPage m s.lk.tables (pageOf a)
  mapEffects m s.lk.tables (pageOf a) ++ copyEffects a (chunkLen addr len s.done) ++
    (if r.mapped then restoreEffects m r.tables (pageOf a) r.old else []) ++
    infoEffects s.lk.em (dumpPass m addr len s).lk.em

/-- The states before each pass. -/
def passesFrom (m : Machine) (addr len : UInt32) : DumpState → List DumpState :=
  Loop.trace (dumpStep m addr len) (dumpMeasure len) (dumpStep_decreases m addr len)

def passes (m : Machine) (addr len : UInt32) (lk : LK) : List DumpState :=
  passesFrom m addr len ⟨0, false, lk⟩

/-- All effects of `dump_region`: those of the passes, then the flush. -/
def regionEffects (m : Machine) (addr len : UInt32) (lk : LK) : List Effect :=
  (passes m addr len lk).flatMap (passEffects m addr len) ++
    infoEffects (dumpLoop m addr len ⟨0, false, lk⟩).lk.em (dumpRegion m addr len lk).2.em

/-! ### The loop, pass by pass -/

section

variable {m : Machine} {addr len : UInt32} {s : DumpState}

theorem passesFrom_of_go (h : s.done < len ∧ s.stop = false) :
    passesFrom m addr len s = s :: passesFrom m addr len (dumpPass m addr len s) :=
  Loop.trace_of_inl (dumpStep_of_go h)

theorem passesFrom_of_leave (h : ¬ (s.done < len ∧ s.stop = false)) :
    passesFrom m addr len s = [] := Loop.trace_of_inr (dumpStep_of_leave h)

end

/-! ### The messages -/

theorem infoEffects_eq {e e' : Emitter} {ls : List Line}
    (h : e'.sent = e.sent ++ ls.map .info) : infoEffects e e' = ls.map .info := by
  rw [infoEffects, h, List.drop_left]
  exact congrArg _ ((infos_map_info id ls).trans (List.map_id ls))

theorem emitLineOut_sent (e : Emitter) :
    ∃ ls : List Line, (emitLineOut e).2.sent = e.sent ++ ls.map .info := by
  rw [emitLineOut]
  split
  · exact ⟨[], by simp⟩
  · exact ⟨[_], rfl⟩

theorem ite_emitLineOut_sent (e : Emitter) (q : Prop) [Decidable q] :
    ∃ ls : List Line, (if q then emitLineOut e else (true, e)).2.sent = e.sent ++ ls.map .info := by
  split
  · exact emitLineOut_sent e
  · exact ⟨[], by simp⟩

theorem emitPush_sent (c : UInt8) (e : Emitter) :
    ∃ ls : List Line, (emitPush c e).2.sent = e.sent ++ ls.map .info := by
  rw [emitPush]
  cases e.emitMode with
  | hex =>
    obtain ⟨ls, hls⟩ := ite_emitLineOut_sent e (dumpHexb * 2 ≤ e.emitCol)
    refine ⟨ls, ?_⟩
    generalize (if dumpHexb * 2 ≤ e.emitCol then emitLineOut e else (true, e)) = r at hls
    rw [← hls]
    by_cases hr : r.1 = false
    · simp only [if_pos hr]
    · simp only [if_neg hr]
      rfl
  | text =>
    simp only
    by_cases hend : c = newline ∨ e.emitCol = dumpLine
    · obtain ⟨ls, hls⟩ := ite_emitLineOut_sent e (e.emitCol ≠ 0)
      refine ⟨ls, ?_⟩
      generalize (if e.emitCol ≠ 0 then emitLineOut e else (true, e)) = r at hls
      rw [← hls, if_pos hend]
      by_cases hr : r.1 = false
      · rw [if_pos hr]
      · rw [if_neg hr]
        by_cases hc : c = newline
        · rw [if_pos hc]
        · rw [if_neg hc]
          rfl
    · rw [if_neg hend]
      exact ⟨[], (List.append_nil _).symm⟩

theorem pushAll_sent (cs : List UInt8) (e : Emitter) :
    ∃ ls : List Line, (pushAll cs e).2.2.sent = e.sent ++ ls.map .info := by
  induction cs generalizing e with
  | nil => exact ⟨[], by simp [pushAll]⟩
  | cons c cs ih =>
    obtain ⟨ls, hls⟩ := emitPush_sent c e
    cases hp : (emitPush c e).1 with
    | false => exact ⟨ls, by rw [pushAll_cons_refused hp, hls]⟩
    | true =>
      obtain ⟨ls', hls'⟩ := ih (emitPush c e).2
      refine ⟨ls ++ ls', ?_⟩
      rw [pushAll_cons_accepted hp, hls', hls, List.map_append, List.append_assoc]

theorem emitFlush_infos (e : Emitter) :
    ∃ ls : List Line, (emitFlush e).sent = e.sent ++ ls.map .info := by
  rw [emitFlush]
  split
  · exact emitLineOut_sent e
  · exact ⟨[], by simp⟩

/-! ### Reading the list -/

/-- The addresses copied from. -/
def copied (es : List Effect) : List UInt32 :=
  es.filterMap fun
    | .copy _ a => some a
    | _ => none

/-- The messages. -/
def messages (es : List Effect) : List Line :=
  es.filterMap fun
    | .info l => some l
    | _ => none

/-- The bytes the copies load, each under the tables then in force. -/
def loaded (m : Machine) : Tables → List Effect → List UInt8
  | _, [] => []
  | t, .store slot desc :: es => loaded m (Effect.apply t (.store slot desc)) es
  | t, .copy _ a :: es => m.load t a :: loaded m t es
  | t, .info _ :: es => loaded m t es

theorem loaded_append (m : Machine) (t : Tables) (es fs : List Effect) :
    loaded m t (es ++ fs) = loaded m t es ++ loaded m (replay Effect.apply t es) fs := by
  induction es generalizing t with
  | nil => rfl
  | cons e es ih =>
    cases e with
    | store slot desc => exact ih _
    | copy i a =>
      rw [List.cons_append, loaded, loaded, ih, List.cons_append]
      rfl
    | info l => exact ih _

theorem copied_append (es fs : List Effect) : copied (es ++ fs) = copied es ++ copied fs :=
  List.filterMap_append

theorem messages_append (es fs : List Effect) : messages (es ++ fs) = messages es ++ messages fs :=
  List.filterMap_append

section

variable (m : Machine) (t : Tables) (va : UInt32)

theorem mapEffects_spec : replay Effect.apply t (mapEffects m t va) = (mmuMapPage m t va).tables ∧
    copied (mapEffects m t va) = [] ∧ messages (mapEffects m t va) = [] ∧
    loaded m t (mapEffects m t va) = [] := by
  rw [mapEffects, mmuMapPage]
  by_cases hz : mmuL3Slot m t va = 0
  · simp only [if_pos hz]
    exact ⟨rfl, rfl, rfl, rfl⟩
  · simp only [if_neg hz, if_true, Function.update_self]
    exact ⟨rfl, rfl, rfl, rfl⟩

theorem restoreEffects_spec (old : UInt64) :
    replay Effect.apply t (restoreEffects m t va old) = mmuRestorePage m t va old ∧
      copied (restoreEffects m t va old) = [] ∧ messages (restoreEffects m t va old) = [] ∧
      loaded m t (restoreEffects m t va old) = [] := by
  rw [restoreEffects, mmuRestorePage]
  by_cases hz : mmuL3Slot m t va = 0
  · simp only [if_pos hz]
    exact ⟨rfl, rfl, rfl, rfl⟩
  · simp only [if_neg hz, Function.update_self]
    exact ⟨rfl, rfl, rfl, rfl⟩

theorem copyEffects_still (a n : UInt32) : ∀ e ∈ copyEffects a n, e.apply t = t := by
  intro e he
  obtain ⟨i, _, rfl⟩ := List.mem_map.mp he
  rfl

theorem infoEffects_still (e e' : Emitter) : ∀ f ∈ infoEffects e e', f.apply t = t := by
  intro f hf
  obtain ⟨l, _, rfl⟩ := List.mem_map.mp hf
  rfl

theorem replay_infoEffects (e e' : Emitter) :
    replay Effect.apply t (infoEffects e e') = t :=
  (still (P := fun _ _ => True) (infoEffects_still t e e')).1

theorem replay_copyEffects (a n : UInt32) : replay Effect.apply t (copyEffects a n) = t :=
  (still (P := fun _ _ => True) (copyEffects_still t a n)).1

theorem copied_copyEffects (a n : UInt32) :
    copied (copyEffects a n) = (List.range n.toNat).map fun i => a + UInt32.ofNat i := by
  rw [copied, copyEffects, List.filterMap_map]
  exact congrFun List.filterMap_eq_map _

theorem messages_copyEffects (a n : UInt32) : messages (copyEffects a n) = [] := by
  rw [messages, copyEffects, List.filterMap_map, List.filterMap_eq_nil_iff]
  intro i _
  rfl

theorem loaded_copyEffects (a n : UInt32) :
    loaded m t (copyEffects a n) = window (m.load t) a n.toNat := by
  rw [copyEffects, window]
  induction List.range n.toNat with
  | nil => rfl
  | cons i is ih => rw [List.map_cons, List.map_cons, loaded, ih]

theorem copied_infoEffects (e e' : Emitter) : copied (infoEffects e e') = [] := by
  rw [copied, infoEffects, List.filterMap_map, List.filterMap_eq_nil_iff]
  intro l _
  rfl

theorem messages_infoEffects {e e' : Emitter} {ls : List Line}
    (h : e'.sent = e.sent ++ ls.map .info) : messages (infoEffects e e') = ls := by
  rw [infoEffects_eq h, messages, List.filterMap_map]
  exact List.filterMap_some

theorem loaded_infoEffects (e e' : Emitter) : loaded m t (infoEffects e e') = [] := by
  rw [infoEffects]
  induction infos (e'.sent.drop e.sent.length) with
  | nil => rfl
  | cons l ls ih => rw [List.map_cons, loaded, ih]

end

/-! ### One pass -/

section

variable (m : Machine) (addr len : UInt32) (s : DumpState)

/-- The chunk a pass copies. -/
def passChunk : Copied :=
  copyChunk m s.lk.tables (pageOf (addr + s.done)) (addr + s.done) (chunkLen addr len s.done)

/-- The page is restored only if it was mapped. -/
theorem restore_spec :
    let r := mmuMapPage m s.lk.tables (pageOf (addr + s.done))
    let es := if r.mapped then restoreEffects m r.tables (pageOf (addr + s.done)) r.old else []
    replay Effect.apply r.tables es = (passChunk m addr len s).after ∧ copied es = [] ∧
      messages es = [] ∧ loaded m r.tables es = [] := by
  intro r es
  by_cases hr : r.mapped = true
  · obtain ⟨h1, h2, h3, h4⟩ := restoreEffects_spec m r.tables (pageOf (addr + s.done)) r.old
    have hes : es = restoreEffects m r.tables (pageOf (addr + s.done)) r.old := if_pos hr
    rw [hes]
    exact ⟨h1.trans (if_pos hr).symm, h2, h3, h4⟩
  · have hes : es = [] := if_neg hr
    rw [hes]
    exact ⟨(if_neg hr).symm, rfl, rfl, rfl⟩

/-- **The effects of a pass are what the pass does.** -/
theorem passEffects_spec :
    replay Effect.apply s.lk.tables (passEffects m addr len s)
        = (dumpPass m addr len s).lk.tables ∧
      copied (passEffects m addr len s)
        = (List.range (chunkLen addr len s.done).toNat).map
            (fun i => addr + s.done + UInt32.ofNat i) ∧
      loaded m s.lk.tables (passEffects m addr len s) = (passChunk m addr len s).bytes ∧
      (dumpPass m addr len s).lk.em.sent
        = s.lk.em.sent ++ (messages (passEffects m addr len s)).map .info := by
  obtain ⟨hm1, hm2, hm3, hm4⟩ := mapEffects_spec m s.lk.tables (pageOf (addr + s.done))
  obtain ⟨hr1, hr2, hr3, hr4⟩ := restore_spec m addr len s
  obtain ⟨ls, hls⟩ := pushAll_sent (passChunk m addr len s).bytes s.lk.em
  have hsent : (dumpPass m addr len s).lk.em.sent = s.lk.em.sent ++ ls.map .info := hls
  rw [passEffects]
  refine ⟨?_, ?_, ?_, ?_⟩
  · rw [replay_append, replay_append, replay_append, hm1, replay_copyEffects, hr1,
      replay_infoEffects]
    rfl
  · rw [copied_append, copied_append, copied_append, hm2, hr2, copied_copyEffects,
      copied_infoEffects, List.nil_append, List.append_nil, List.append_nil]
  · rw [loaded_append, loaded_append, loaded_append, replay_append, hm1, hm4,
      replay_copyEffects, hr4, loaded_copyEffects, loaded_infoEffects, List.nil_append,
      List.append_nil, List.append_nil]
    rfl
  · rw [messages_append, messages_append, messages_append, hm3, hr3, messages_copyEffects,
      messages_infoEffects hsent, hsent]
    rfl

end

/-! ### The whole call -/

/-- The effects of the passes still to come. -/
def effectsFrom (m : Machine) (addr len : UInt32) (s : DumpState) : List Effect :=
  (passesFrom m addr len s).flatMap (passEffects m addr len)

section

variable {m : Machine} {addr len : UInt32} {s : DumpState}

theorem effectsFrom_of_go (h : s.done < len ∧ s.stop = false) :
    effectsFrom m addr len s
      = passEffects m addr len s ++ effectsFrom m addr len (dumpPass m addr len s) := by
  rw [effectsFrom, passesFrom_of_go h, List.flatMap_cons]
  rfl

theorem effectsFrom_of_leave (h : ¬ (s.done < len ∧ s.stop = false)) :
    effectsFrom m addr len s = [] := by
  rw [effectsFrom, passesFrom_of_leave h, List.flatMap_nil]

end

/-- What a pass counts. -/
theorem dumpPass_count (m : Machine) (addr : UInt32) {len : UInt32} {s : DumpState}
    (h : s.done < len) :
    (dumpPass m addr len s).done.toNat
      = s.done.toNat + (pushAll (passChunk m addr len s).bytes s.lk.em).1 := by
  obtain ⟨_, _, hrest, _⟩ := chunkLen_spec addr h
  have hlen := len.toNat_lt
  have hlt := UInt32.lt_iff_toNat_lt.mp h
  have hle := pushAll_le_length (passChunk m addr len s).bytes s.lk.em
  rw [passChunk, length_copyChunk, ← passChunk] at hle
  show (s.done + UInt32.ofNat (pushAll (passChunk m addr len s).bytes s.lk.em).1).toNat = _
  rw [UInt32.toNat_add, UInt32.toNat_ofNat']
  omega

theorem replay_from (m : Machine) (addr len : UInt32) (s : DumpState) :
    replay Effect.apply s.lk.tables (effectsFrom m addr len s)
      = (dumpLoop m addr len s).lk.tables := by
  induction s using pass_induction m addr len with
  | go s h ih =>
    rw [effectsFrom_of_go h, dumpLoop_of_go h, replay_append, (passEffects_spec m addr len s).1, ih]
  | leave s h =>
    rw [effectsFrom_of_leave h, dumpLoop_of_leave h]
    rfl

theorem sent_from (m : Machine) (addr len : UInt32) (s : DumpState) :
    (dumpLoop m addr len s).lk.em.sent
      = s.lk.em.sent ++ (messages (effectsFrom m addr len s)).map .info := by
  induction s using pass_induction m addr len with
  | go s h ih =>
    rw [effectsFrom_of_go h, dumpLoop_of_go h, ih, (passEffects_spec m addr len s).2.2.2,
      messages_append, List.map_append, List.append_assoc]
  | leave s h =>
    rw [effectsFrom_of_leave h, dumpLoop_of_leave h]
    exact (List.append_nil _).symm

/-- The bytes loaded determine what is counted and sent. -/
theorem pushAll_loaded_from (m : Machine) (addr len : UInt32) (s : DumpState)
    (hstop : s.stop = false) :
    (dumpLoop m addr len s).done.toNat = s.done.toNat +
        (pushAll (loaded m s.lk.tables (effectsFrom m addr len s)) s.lk.em).1 ∧
      (dumpLoop m addr len s).lk.em
        = (pushAll (loaded m s.lk.tables (effectsFrom m addr len s)) s.lk.em).2.2 := by
  induction s using pass_induction m addr len with
  | go s h ih =>
    obtain ⟨htab, _, hload, _⟩ := passEffects_spec m addr len s
    have hcount := dumpPass_count m addr h.1
    rw [effectsFrom_of_go h, dumpLoop_of_go h, loaded_append, htab, hload]
    by_cases hst : (dumpPass m addr len s).stop = true
    · -- refused in the middle of the chunk: it is the last one
      have hleave : ¬ ((dumpPass m addr len s).done < len ∧ (dumpPass m addr len s).stop = false) :=
        fun hx => by simp [hst] at hx
      rw [effectsFrom_of_leave hleave, dumpLoop_of_leave hleave, loaded, List.append_nil]
      exact ⟨hcount, rfl⟩
    · rw [Bool.not_eq_true] at hst
      obtain ⟨hdone, hem⟩ := ih hst
      have hst' : (pushAll (passChunk m addr len s).bytes s.lk.em).2.1 = false := hst
      have hem' : (dumpPass m addr len s).lk.em
          = (pushAll (passChunk m addr len s).bytes s.lk.em).2.2 := rfl
      rw [hem'] at hdone hem
      rw [pushAll_append, hst', if_neg Bool.false_ne_true, ← pushAll_of_not_stopped hst']
      exact ⟨by rw [hdone, hcount, Nat.add_assoc], hem⟩
  | leave s h =>
    rw [effectsFrom_of_leave h, dumpLoop_of_leave h]
    exact ⟨rfl, rfl⟩

/-- The addresses copied from, from here on. -/
theorem copied_from (m : Machine) (addr len : UInt32) (s : DumpState)
    (hdone : s.done.toNat ≤ len.toNat) :
    ∃ k ≤ len.toNat - s.done.toNat, copied (effectsFrom m addr len s)
      = (List.range k).map fun i => addr + s.done + UInt32.ofNat i := by
  induction s using pass_induction m addr len with
  | go s h ih =>
    obtain ⟨_, _, hrest, _⟩ := chunkLen_spec addr h.1
    rw [effectsFrom_of_go h, copied_append, (passEffects_spec m addr len s).2.1]
    by_cases hst : (dumpPass m addr len s).stop = true
    · refine ⟨(chunkLen addr len s.done).toNat, hrest, ?_⟩
      rw [effectsFrom_of_leave fun hx => by simp [hst] at hx]
      exact List.append_nil _
    · rw [Bool.not_eq_true] at hst
      have hnext := dumpPass_done h.1 hst
      obtain ⟨k, hk, hcopied⟩ := ih (by omega)
      refine ⟨(chunkLen addr len s.done).toNat + k, by omega, ?_⟩
      rw [hcopied, List.range_add, List.map_append, List.map_map]
      refine congrArg _ (List.map_congr_left ?_)
      intro i _
      -- the next chunk begins where this one ends
      have hpos : (dumpPass m addr len s).done
          = s.done + UInt32.ofNat (chunkLen addr len s.done).toNat := by
        rw [← UInt32.ofNat_toNat (x := (dumpPass m addr len s).done), hnext, UInt32.ofNat_add,
          UInt32.ofNat_toNat]
      rw [Function.comp, hpos, UInt32.ofNat_add]
      simp only [UInt32.add_assoc]
  | leave s h => exact ⟨0, Nat.zero_le _, by rw [effectsFrom_of_leave h]; rfl⟩

section

variable (m : Machine) (addr len : UInt32) (lk : LK)

theorem regionEffects_eq : regionEffects m addr len lk
    = effectsFrom m addr len ⟨0, false, lk⟩ ++
      infoEffects (dumpLoop m addr len ⟨0, false, lk⟩).lk.em (dumpRegion m addr len lk).2.em := rfl

/-- **The tables** the effects leave are those `dump_region` leaves. -/
theorem replay_region : replay Effect.apply lk.tables (regionEffects m addr len lk)
    = (dumpRegion m addr len lk).2.tables := by
  rw [regionEffects_eq, replay_append, replay_infoEffects]
  exact replay_from m addr len ⟨0, false, lk⟩

/-- **The messages** of the effects are those `dump_region` sends. -/
theorem sent_region : (dumpRegion m addr len lk).2.em.sent
    = lk.em.sent ++ (messages (regionEffects m addr len lk)).map .info := by
  obtain ⟨ls, hls⟩ := emitFlush_infos (dumpLoop m addr len ⟨0, false, lk⟩).lk.em
  have hflush : (dumpRegion m addr len lk).2.em.sent
      = (dumpLoop m addr len ⟨0, false, lk⟩).lk.em.sent ++ ls.map .info := hls
  rw [regionEffects_eq, messages_append, messages_infoEffects hflush, hflush, sent_from,
    List.map_append, List.append_assoc]

/-- **The bytes loaded** determine the count and the emitter. -/
theorem region_eq_loaded :
    (dumpRegion m addr len lk).1.toNat
        = (pushAll (loaded m lk.tables (regionEffects m addr len lk)) lk.em).1 ∧
      (dumpRegion m addr len lk).2.em
        = emitFlush (pushAll (loaded m lk.tables (regionEffects m addr len lk)) lk.em).2.2 := by
  obtain ⟨hdone, hem⟩ := pushAll_loaded_from m addr len ⟨0, false, lk⟩ rfl
  rw [regionEffects_eq, loaded_append, loaded_infoEffects, List.append_nil]
  refine ⟨?_, congrArg emitFlush hem⟩
  exact hdone.trans (Nat.zero_add _)

/-- **The bytes copied** are those of the window from its start on, each once. -/
theorem copied_region : ∃ k ≤ len.toNat, copied (regionEffects m addr len lk)
    = (List.range k).map fun i => addr + UInt32.ofNat i := by
  obtain ⟨k, hk, hcopied⟩ := copied_from m addr len ⟨0, false, lk⟩ (Nat.zero_le _)
  refine ⟨k, hk, ?_⟩
  rw [regionEffects_eq, copied_append, copied_infoEffects, List.append_nil, hcopied]
  simp only [UInt32.add_zero]

end

/-- A list of effects is what `dump_region` does: it leaves the tables and has the messages of the
call, and the bytes it loads give the count and the emitter. -/
structure Performs (m : Machine) (addr len : UInt32) (lk : LK) (es : List Effect) : Prop where
  tables : replay Effect.apply lk.tables es = (dumpRegion m addr len lk).2.tables
  sent : (dumpRegion m addr len lk).2.em.sent = lk.em.sent ++ (messages es).map .info
  count : (dumpRegion m addr len lk).1.toNat = (pushAll (loaded m lk.tables es) lk.em).1
  em : (dumpRegion m addr len lk).2.em = emitFlush (pushAll (loaded m lk.tables es) lk.em).2.2

theorem performs_region (m : Machine) (addr len : UInt32) (lk : LK) :
    Performs m addr len lk (regionEffects m addr len lk) where
  tables := replay_region m addr len lk
  sent := sent_region m addr len lk
  count := (region_eq_loaded m addr len lk).1
  em := (region_eq_loaded m addr len lk).2

/-! ### Where the copies go -/

theorem copy_of_mem_pass {m : Machine} {addr len : UInt32} {s : DumpState} {i : ℕ} {a : UInt32}
    (h : .copy i a ∈ passEffects m addr len s) :
    i < (chunkLen addr len s.done).toNat ∧ a = addr + s.done + UInt32.ofNat i := by
  have hmap : .copy i a ∉ mapEffects m s.lk.tables (pageOf (addr + s.done)) := by
    rw [mapEffects]
    split <;> simp
  have hrestore : ∀ (q : Prop) [Decidable q] (t : Tables) (va : UInt32) (old : UInt64),
      .copy i a ∉ if q then restoreEffects m t va old else [] := by
    intro q _ t va old
    rw [List.mem_ite_nil_right, restoreEffects]
    split <;> simp
  have hinfo : ∀ e e' : Emitter, .copy i a ∉ infoEffects e e' := by
    intro e e'
    simp [infoEffects]
  rw [passEffects] at h
  simp only [List.mem_append, hmap, hrestore, hinfo, false_or, or_false] at h
  obtain ⟨j, hj, heq⟩ := List.mem_map.mp h
  obtain ⟨rfl, rfl⟩ := Effect.copy.inj heq
  exact ⟨List.mem_range.mp hj, rfl⟩

/-- **Invariant rule for the passes.**  A pass is made only while bytes are missing. -/
theorem passes_rule {m : Machine} {addr len : UInt32} {lk : LK} {Inv : DumpState → Prop}
    (hgo : ∀ s ∈ passes m addr len lk, Inv s → Inv (dumpPass m addr len s))
    (h : Inv ⟨0, false, lk⟩) :
    (∀ s ∈ passes m addr len lk, Inv s ∧ s.done < len ∧ s.stop = false) ∧
      Inv (dumpLoop m addr len ⟨0, false, lk⟩) := by
  have hstep : ∀ s ∈ passes m addr len lk, ∀ s', Inv s → dumpStep m addr len s = .inl s' →
      Inv s' := by
    intro s hs s' hinv heq
    rw [dumpStep] at heq
    split at heq
    · rw [← Sum.inl.inj heq]
      exact hgo s hs hinv
    · exact absurd heq (by simp)
  obtain ⟨hall, u, hu, hleave⟩ := Loop.trace_rule hstep h
  constructor
  · intro s hs
    obtain ⟨hinv, s', heq⟩ := hall s hs
    refine ⟨hinv, ?_⟩
    by_contra hno
    rw [dumpStep_of_leave hno] at heq
    exact absurd heq (by simp)
  · -- the loop leaves with the state it has reached
    rw [dumpStep] at hleave
    split at hleave
    · exact absurd hleave (by simp)
    · rw [Sum.inr.inj hleave] at hu
      exact hu

theorem go_of_mem_passes {m : Machine} {addr len : UInt32} {lk : LK} {s : DumpState}
    (h : s ∈ passes m addr len lk) : s.done < len := by
  have hrule : (∀ t ∈ passes m addr len lk, True ∧ t.done < len ∧ t.stop = false) ∧ True :=
    passes_rule (fun _ _ _ => trivial) trivial
  exact (hrule.1 s h).2.1

theorem copy_of_mem_region {m : Machine} {addr len : UInt32} {lk : LK} {i : ℕ} {a : UInt32}
    (h : .copy i a ∈ regionEffects m addr len lk) :
    ∃ s ∈ passes m addr len lk, .copy i a ∈ passEffects m addr len s := by
  rw [regionEffects, List.mem_append, List.mem_flatMap] at h
  exact h.resolve_right (by simp [infoEffects])

/-! ### The chunks do not show -/

/-- The dump without chunks: push the bytes from `a` on until one is refused or `n` are accepted,
then flush. -/
def singlePass (content : UInt32 → UInt8) : UInt32 → ℕ → Emitter → ℕ × Emitter
  | _, 0, e => (0, emitFlush e)
  | a, n + 1, e =>
    let r := emitPush (content a) e
    if r.1 = false then (0, emitFlush r.2)
    else
      let t := singlePass content (a + 1) n r.2
      (t.1 + 1, t.2)

theorem singlePass_eq (content : UInt32 → UInt8) (a : UInt32) (n : ℕ) (e : Emitter) :
    singlePass content a n e = ((pushAll (window content a n) e).1,
      emitFlush (pushAll (window content a n) e).2.2) := by
  induction n generalizing a e with
  | zero => rfl
  | succ n ih =>
    have hcons : window content a (n + 1) = content a :: window content (a + 1) n := by
      rw [Nat.add_comm, window_add]
      simp [window]
    rw [singlePass, hcons]
    cases hp : (emitPush (content a) e).1 with
    | false =>
      rw [pushAll_cons_refused hp]
      simp only [if_true]
    | true =>
      rw [pushAll_cons_accepted hp]
      simp only [Bool.true_eq_false, if_false, ih]

/-- **`dump_region` is the single pass**, where the content is constant. -/
theorem dumpRegion_eq_singlePass {m : Machine} {content : UInt32 → UInt8} {addr len : UInt32}
    {lk : LK} (hm : m.Holds content lk.tables addr len.toNat) :
    ((dumpRegion m addr len lk).1.toNat, (dumpRegion m addr len lk).2.em)
      = singlePass content addr len.toNat lk.em := by
  obtain ⟨bs, _, hcont, hused, hem⟩ := dumpRegion_eq_pushAll m addr len lk
  rw [singlePass_eq, ← hcont content hm, hused, hem]

/-- The chunks of a call do not show. -/
structure Transparent (m : Machine) (content : UInt32 → UInt8) (addr len : UInt32) (lk : LK) :
    Prop where
  performs : Performs m addr len lk (regionEffects m addr len lk)
  result : ((dumpRegion m addr len lk).1.toNat, (dumpRegion m addr len lk).2.em)
    = singlePass content addr len.toNat lk.em
  ends : ∃ fuel, Loop.run (dumpStep m addr len) fuel ⟨0, false, lk⟩
    = some (dumpLoop m addr len ⟨0, false, lk⟩)
  in_order : ∃ k ≤ len.toNat, copied (regionEffects m addr len lk)
    = (List.range k).map fun i => addr + UInt32.ofNat i
  copy_lt : ∀ i a, .copy i a ∈ regionEffects m addr len lk → i < 2048
  chunk_le : ∀ s ∈ passes m addr len lk, (passChunk m addr len s).bytes.length ≤ 2048

/-- **Chunking is transparent**: `dump_region` ends, with the count and the emitter of the single
pass; it copies the bytes of the window in order, each once, and never past the end of `dump_buf`;
and the buffer is never read past what was copied. -/
theorem dumpRegion_chunks (m : Machine) (content : UInt32 → UInt8) (addr len : UInt32)
    (budget : ℤ) (mode : Mode) (lk : LK) (hm : m.Holds content lk.tables addr len.toNat) :
    Transparent m content addr len { lk with em := emitReset budget mode lk.em } := by
  constructor
  · exact performs_region ..
  · exact dumpRegion_eq_singlePass hm
  · exact ⟨_, Loop.run_iterate (dumpStep_decreases m addr len) _⟩
  · exact copied_region m addr len _
  · intro i a h
    obtain ⟨s, hs, hpass⟩ := copy_of_mem_region h
    have hi := (copy_of_mem_pass hpass).1
    have hn := (chunkLen_spec addr (go_of_mem_passes hs)).2.1
    omega
  · intro s hs
    rw [passChunk, length_copyChunk]
    exact (chunkLen_spec addr (go_of_mem_passes hs)).2.1

/-- From an odd address across a page end. -/
theorem dumpRegion_chunks_odd : Transparent (Machine.plain fun a => a.toUInt8)
    (fun a => a.toUInt8) 0x0010EFFF 0x801 { LK.boot with em := emitReset 64 .text LK.boot.em } :=
  dumpRegion_chunks _ _ _ _ _ _ _ (Machine.plain_holds _ _ _ _)

end Selene
