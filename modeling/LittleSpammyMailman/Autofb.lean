/-
`auto_fastboot_check` of `lk/board-selene.c`, boot after boot.

The state between boots is one environment variable, a C string that anyone
may have written.  Arithmetic on `int` is checked: a boot whose count leaves
the range of `int` has no defined behaviour and is `none`.

* `parseCount_eq` — the parse loop reads the leading digits, or overflows;
* `itoa_eq` — the text written back is the decimal numeral;
* `next`, `fires` — the counter the code is meant to be, and `boot_next`: every
  boot is one step of it;
* `conforms_iff` — the starting values from which the boots are regular;
* `justFastboots_iff` — the histories whose fastboot requests are earned.
-/
import LittleSpammyMailman.Text

open Text Numeral

namespace Autofb

/-- `KAERU_ENV_BOOTCOUNT` -/
def kaeruEnvBootcount : Line := ascii "kaeru.bootcount"

/-- `BOOTLOOP_THRESHOLD` -/
def bootloopThreshold : ℤ := 5

/-- The environment of the bootloader: `get_env` is application. -/
abbrev Env := Line → Option Line

/-- What `board_late_init` does to the world. -/
inductive Act
  | printf (l : Line)
  | videoPrintf (l : Line)
  | setEnv (key val : Line)
  | setBootmodeFastboot
  deriving DecidableEq, Repr

/-- The result of an operation on `int`, between `INT_MIN` and `INT_MAX`. -/
def cInt (z : ℤ) : Option ℤ := if -2147483648 ≤ z ∧ z ≤ 2147483647 then some z else none

/-- `for (p = val; *p >= '0' && *p <= '9'; p++) count = count * 10 + (*p - '0');` -/
def parseCount (count : ℤ) : Line → Option ℤ
  | [] => some count
  | c :: p =>
    match decVal c with
    | none => some count
    | some d => do
      let ten ← cInt (count * 10)
      let count ← cInt (ten + d)
      parseCount count p

/-- The loop that fills `tmp`, with `room` of its seven places left. -/
def itoaLoop : ℕ → ℤ → Line → Line
  | 0, _, tmp => tmp
  | room + 1, n, tmp =>
    if 0 < n then itoaLoop room (n.tdiv 10) (tmp ++ [UInt8.ofNat ('0'.toNat + (n.tmod 10).toNat)])
    else tmp

/-- The string left in `buf`. -/
def itoa (n : ℤ) : Line :=
  let tmp := if n = 0 then ['0'.toUInt8] else []
  (itoaLoop (7 - tmp.length) n tmp).reverse

/-- `count` after the parse loop; 0 if the variable is absent. -/
def readCount (env : Env) : Option ℤ :=
  match env kaeruEnvBootcount with
  | some val => parseCount 0 val
  | none => some 0

/-- The line of every boot. -/
def attempt (count : ℤ) : Act :=
  .printf (ascii "[autofb] boot denemesi " ++ decimal count.toNat ++ ascii " / " ++
    decimal bootloopThreshold.toNat ++ [newline])

/-- What follows `count++`. -/
def onAttempt (count : ℤ) : List Act :=
  if bootloopThreshold ≤ count then
    [attempt count, .printf (ascii "[autofb] esik asildi -> fastboot" ++ [newline]),
      .videoPrintf (ascii " => auto-fastboot (bootloop " ++ decimal count.toNat ++ ascii ")" ++ [newline]),
      .setEnv kaeruEnvBootcount (ascii "0"), .setBootmodeFastboot]
  else [attempt count, .setEnv kaeruEnvBootcount (itoa count)]

/-- `auto_fastboot_check` -/
def autoFastbootCheck (env : Env) : Option (List Act) := do
  let count ← readCount env
  let count ← cInt (count + 1)
  return onAttempt count

/-- The line of `board_late_init`. -/
def entering : Act := .printf (ascii "Entering late init for Redmi 10 2022 (selene)" ++ [newline])

/-- `board_late_init` -/
def boardLateInit (env : Env) : Option (List Act) :=
  (autoFastbootCheck env).map fun acts => entering :: acts

/-- What an action leaves in the environment. -/
def store (env : Env) : Act → Env
  | .setEnv key val => Function.update env key (some val)
  | _ => env

/-- One boot: the environment it leaves and what it did. -/
def boot (env : Env) : Option (Env × List Act) :=
  (boardLateInit env).map fun acts => (acts.foldl store env, acts)

/-! ### The texts of the counter -/

/-- The number the leading digits denote, 0 if there are none. -/
def leadingValue (s : Line) : ℕ := value 10 (digitSpan decVal s).1

/-- The count an environment holds. -/
def bootcount (env : Env) : ℕ := ((env kaeruEnvBootcount).map leadingValue).getD 0

theorem cInt_of_lt {n : ℕ} (h : n < 2 ^ 31) : cInt n = some (n : ℤ) := if_pos (by omega)

theorem cInt_of_ge {n : ℕ} (h : 2 ^ 31 ≤ n) : cInt n = none := if_neg (by omega)

/-- **The parse loop** computes the number the leading digits continue, and leaves the range of
`int` exactly when that number does. -/
theorem parseCount_eq {v : ℕ} (hv : v < 2 ^ 31) (p : Line) :
    parseCount v p = cInt ((digitSpan decVal p).1.foldl (fun v d => v * 10 + d) v : ℕ) := by
  induction p generalizing v with
  | nil => exact (cInt_of_lt hv).symm
  | cons c p ih =>
    cases hd : decVal c with
    | none =>
      rw [parseCount, digitSpan, hd]
      exact (cInt_of_lt hv).symm
    | some d =>
      have hspan : (digitSpan decVal (c :: p)).1 = d :: (digitSpan decVal p).1 := by
        rw [digitSpan, hd]
      -- what is still to be read only makes the number larger
      have hgrow : v * 10 + d ≤ (digitSpan decVal p).1.foldl (fun v d => v * 10 + d)
          (v * 10 + d) := by
        rw [foldl_eq_value]
        exact le_add_right (Nat.le_mul_of_pos_right _ (Nat.pow_pos (by omega)))
      rw [parseCount, hd, hspan, List.foldl_cons]
      show (cInt ((v * 10 : ℕ) : ℤ)).bind (fun ten => (cInt (ten + d)).bind (parseCount · p)) = _
      rcases Nat.lt_or_ge (v * 10 + d) (2 ^ 31) with hnext | hnext
      · rw [cInt_of_lt (show v * 10 < 2 ^ 31 by omega), Option.bind_some]
        show (cInt ((v * 10 + d : ℕ) : ℤ)).bind (parseCount · p) = _
        rw [cInt_of_lt hnext, Option.bind_some]
        exact ih hnext
      · -- this digit overflows, in the product or in the sum, and the number only grows
        rw [cInt_of_ge (hnext.trans hgrow)]
        rcases Nat.lt_or_ge (v * 10) (2 ^ 31) with h10 | h10
        · rw [cInt_of_lt h10, Option.bind_some]
          show (cInt ((v * 10 + d : ℕ) : ℤ)).bind (parseCount · p) = _
          rw [cInt_of_ge hnext, Option.bind_none]
        · rw [cInt_of_ge h10, Option.bind_none]

/-- The count of a string, if `int` can hold it. -/
theorem parseCount_zero (s : Line) : parseCount 0 s = cInt (leadingValue s) :=
  parseCount_eq (v := 0) (by omega) s

theorem digit_eq_hexChar : ∀ d < 10, UInt8.ofNat ('0'.toNat + d) = hexChar d := by decide

theorem decVal_hexChar : ∀ d < 10, decVal (hexChar d) = some d := by decide

theorem itoaLoop_eq (room : ℕ) {n : ℕ} (hn : n < 10 ^ room) (tmp : Line) :
    itoaLoop room n tmp = tmp ++ (Nat.digits 10 n).map hexChar := by
  induction room generalizing n tmp with
  | zero =>
    obtain rfl : n = 0 := by simpa using hn
    simp [itoaLoop]
  | succ room ih =>
    rw [itoaLoop]
    rcases Nat.eq_zero_or_pos n with rfl | hpos
    · simp
    -- C division truncates, which for these numbers is rounding down
    · have hdiv : ((n : ℤ).tdiv 10) = ((n / 10 : ℕ) : ℤ) := by
        rw [Int.tdiv_eq_ediv_of_nonneg (by omega)]
        rfl
      have hmod : ((n : ℤ).tmod 10).toNat = n % 10 := by
        rw [Int.tmod_eq_emod_of_nonneg (by omega)]
        omega
      have hsmall : n / 10 < 10 ^ room := by
        rw [pow_succ] at hn
        omega
      rw [if_pos (by omega), hdiv, hmod, ih hsmall, digit_eq_hexChar _ (Nat.mod_lt _ (by omega)),
        Nat.digits_def' (by omega) hpos, List.map_cons, List.append_assoc]
      rfl

/-- **The text written back** is the decimal numeral, as long as seven digits hold it. -/
theorem itoa_eq {n : ℕ} (hn : n < 10 ^ 7) : itoa n = decimal n := by
  rw [itoa, decimal, numeral]
  rcases Nat.eq_zero_or_pos n with rfl | hpos
  · rfl
  · rw [if_neg (by omega), if_neg (by omega), List.map_reverse]
    exact congrArg List.reverse ((itoaLoop_eq 7 hn []).trans (List.nil_append _))

theorem length_itoaLoop_le (room : ℕ) (n : ℤ) (tmp : Line) :
    (itoaLoop room n tmp).length ≤ tmp.length + room := by
  induction room generalizing n tmp with
  | zero => exact le_rfl
  | succ room ih =>
    rw [itoaLoop]
    split
    · refine (ih _ _).trans ?_
      rw [List.length_append, List.length_singleton]
      omega
    · omega

/-- The text and its terminator fit the eight bytes of `buf`, whatever the number. -/
theorem length_itoa_le (n : ℤ) : (itoa n).length + 1 ≤ 8 := by
  rw [itoa, List.length_reverse]
  rcases eq_or_ne n 0 with h0 | h0
  · rw [if_pos h0]
    exact Nat.succ_le_succ (length_itoaLoop_le 6 n ['0'.toUInt8])
  · rw [if_neg h0]
    exact Nat.succ_le_succ (length_itoaLoop_le 7 n [])

theorem leadingValue_itoa {n : ℕ} (hn : n < 10 ^ 7) : leadingValue (itoa n) = n := by
  have hspan : digitSpan decVal ((numeral 10 n).map hexChar ++ []) = (numeral 10 n, []) :=
    digitSpan_map_append (fun d hd => decVal_hexChar d (numeral_lt (by omega) d hd)) (by simp)
  rw [List.append_nil] at hspan
  rw [leadingValue, itoa_eq hn, decimal, hspan, value_numeral]

theorem readCount_eq (env : Env) : readCount env = cInt (bootcount env) := by
  rw [readCount, bootcount]
  cases env kaeruEnvBootcount with
  | none => exact (cInt_of_lt (show 0 < 2 ^ 31 by omega)).symm
  | some val => exact parseCount_zero val

/-! ### One boot -/

/-- The counter the code is meant to be: after the fifth attempt it starts again. -/
def next (c : ℕ) : ℕ := if 5 ≤ c + 1 then 0 else c + 1

/-- The variables a boot writes. -/
def written (acts : List Act) : List (Line × Line) :=
  acts.filterMap fun
    | .setEnv key val => some (key, val)
    | _ => none

/-- A boot at count `c`. -/
structure Booted (c : ℕ) (env : Env) (acts : List Act) : Prop where
  request : .setBootmodeFastboot ∈ acts ↔ 5 ≤ c + 1
  written : written acts = [(kaeruEnvBootcount, if 5 ≤ c + 1 then ascii "0" else itoa (c + 1 : ℕ))]
  count : bootcount env = next c

theorem autoFastbootCheck_eq (env : Env) :
    autoFastbootCheck env = (cInt (bootcount env)).bind fun _ =>
      (cInt ((bootcount env + 1 : ℕ) : ℤ)).map onAttempt := by
  rw [autoFastbootCheck, readCount_eq, Nat.cast_succ]
  rcases Nat.lt_or_ge (bootcount env) (2 ^ 31) with hlt | hge
  · rw [cInt_of_lt hlt, Option.bind_eq_bind, Option.bind_some, Option.bind_some]
    cases cInt ((bootcount env : ℤ) + 1) with
    | none => rfl
    | some count => rfl
  · rw [cInt_of_ge hge, Option.bind_eq_bind, Option.bind_none, Option.bind_none]

/-- A count that fills `int` has no next attempt. -/
theorem boardLateInit_of_ge {env : Env} (h : 2 ^ 31 ≤ bootcount env + 1) :
    boardLateInit env = none := by
  rw [boardLateInit, autoFastbootCheck_eq, cInt_of_ge h]
  rcases Nat.lt_or_ge (bootcount env) (2 ^ 31) with hlt | hge
  · rw [cInt_of_lt hlt, Option.bind_some, Option.map_none, Option.map_none]
  · rw [cInt_of_ge hge, Option.bind_none, Option.map_none]

theorem boardLateInit_of_lt {env : Env} (h : bootcount env + 1 < 2 ^ 31) :
    boardLateInit env = some (entering :: onAttempt (bootcount env + 1 : ℕ)) := by
  rw [boardLateInit, autoFastbootCheck_eq, cInt_of_lt (by omega), cInt_of_lt h, Option.bind_some,
    Option.map_some, Option.map_some]

theorem booted_onAttempt (env : Env) (c : ℕ) :
    Booted c ((entering :: onAttempt (c + 1 : ℕ)).foldl store env)
      (entering :: onAttempt (c + 1 : ℕ)) := by
  rcases Nat.lt_or_ge (c + 1) 5 with hlow | hhigh
  · -- below the threshold: the attempt is written back
    rw [onAttempt, if_neg (by rw [bootloopThreshold]; omega)]
    refine ⟨?_, ?_, ?_⟩
    · simp only [List.mem_cons, List.not_mem_nil, reduceCtorEq, entering, attempt, or_self, false_iff]
      omega
    · rw [if_neg (by omega)]
      rfl
    · rw [next, if_neg (by omega), bootcount]
      simp only [List.foldl_cons, List.foldl_nil, store, entering, attempt, Function.update_self,
        Option.map_some, Option.getD_some]
      exact leadingValue_itoa (by omega)
  · -- at the threshold: fastboot, and from zero again
    rw [onAttempt, if_pos (by rw [bootloopThreshold]; omega)]
    refine ⟨?_, ?_, ?_⟩
    · simp only [List.mem_cons, or_true, true_or, true_iff]
      exact hhigh
    · rw [if_pos hhigh]
      rfl
    · rw [next, if_pos hhigh, bootcount]
      simp only [List.foldl_cons, List.foldl_nil, store, entering, attempt, Function.update_self,
        Option.map_some, Option.getD_some]
      decide

/-- **Every boot is one step of the counter**, as long as `int` can hold the attempt. -/
theorem boot_next {env : Env} (h : bootcount env + 1 < 2 ^ 31) :
    ∃ env' acts, boot env = some (env', acts) ∧ boardLateInit env = some acts ∧
      Booted (bootcount env) env' acts := by
  refine ⟨_, _, ?_, boardLateInit_of_lt h, booted_onAttempt env _⟩
  rw [boot, boardLateInit_of_lt h, Option.map_some]

/-! ### Boot after boot -/

/-- The environment before the `n`-th boot, with no other writer. -/
def envAt (env : Env) : ℕ → Option Env
  | 0 => some env
  | n + 1 => (envAt env n).bind fun e => (boot e).map Prod.fst

theorem next_le (c : ℕ) : next c ≤ 4 := by
  rw [next]
  split <;> omega

/-- The counter after `n` boots: up to four, and then round. -/
theorem iterate_next (n k : ℕ) :
    next^[n] k = if n ≤ 4 - k then k + n else (n - (4 - k) - 1) % 5 := by
  induction n with
  | zero => simp
  | succ n ih =>
    rw [Function.iterate_succ_apply', ih, next]
    by_cases hlow : n ≤ 4 - k
    · rw [if_pos hlow]
      split_ifs <;> omega
    · rw [if_neg hlow]
      split_ifs <;> omega

/-- The boots at which the counter reaches its threshold. -/
theorem iterate_next_fires (n k : ℕ) :
    5 ≤ next^[n] k + 1 ↔ 4 - k ≤ n ∧ (n - (4 - k)) % 5 = 0 := by
  rw [iterate_next]
  split <;> omega

/-- **A run is the run of the counter.** -/
theorem envAt_next {env : Env} (h : bootcount env + 1 < 2 ^ 31) (n : ℕ) :
    ∃ e, envAt env n = some e ∧ bootcount e = next^[n] (bootcount env) ∧
      bootcount e + 1 < 2 ^ 31 := by
  induction n with
  | zero => exact ⟨env, rfl, rfl, h⟩
  | succ n ih =>
    obtain ⟨e, he, hcount, hlt⟩ := ih
    obtain ⟨e', acts, hboot, _, hb⟩ := boot_next hlt
    have hle := next_le (bootcount e)
    refine ⟨e', ?_, ?_, ?_⟩
    · rw [envAt, he, Option.bind_some, hboot, Option.map_some]
    · rw [Function.iterate_succ_apply', ← hcount]
      exact hb.count
    · rw [hb.count]
      omega

/-- What the `n`-th boot of a run has to do, if the run starts at count `k` and this boot
at count `c`: ask for fastboot in every fifth boot from the first that reaches the threshold on,
and store 0; otherwise write the attempt, as a text that fits `buf` and reads back. -/
structure Regular (k n c : ℕ) (acts : List Act) : Prop where
  request : .setBootmodeFastboot ∈ acts ↔ 4 - k ≤ n ∧ (n - (4 - k)) % 5 = 0
  reset : .setBootmodeFastboot ∈ acts → written acts = [(kaeruEnvBootcount, ascii "0")]
  attempt : .setBootmodeFastboot ∉ acts → ∃ text, written acts = [(kaeruEnvBootcount, text)] ∧
    text.length + 1 ≤ 8 ∧ parseCount 0 text = some ((c + 1 : ℕ) : ℤ)

theorem Booted.regular {k n c : ℕ} {e : Env} {acts : List Act} (hb : Booted c e acts)
    (hc : c = next^[n] k) : Regular k n c acts := by
  have hrequest := hb.request
  have hwritten := hb.written
  refine ⟨?_, ?_, ?_⟩
  · rw [hrequest, hc, iterate_next_fires]
  · intro hmem
    rw [hwritten, if_pos (hrequest.mp hmem)]
  · intro hmem
    have hlow : ¬ 5 ≤ c + 1 := fun h => hmem (hrequest.mpr h)
    refine ⟨itoa (c + 1 : ℕ), ?_, length_itoa_le _, ?_⟩
    · rw [hwritten, if_neg hlow]
    · rw [parseCount_zero, leadingValue_itoa (by omega), cInt_of_lt (by omega)]

/-- Every boot of the run has defined behaviour and is regular. -/
def Conforms (env : Env) : Prop :=
  ∀ n, ∃ e acts, envAt env n = some e ∧ boardLateInit e = some acts ∧
    Regular (bootcount env) n (bootcount e) acts

theorem conforms_of_lt {env : Env} (h : bootcount env + 1 < 2 ^ 31) : Conforms env := by
  intro n
  obtain ⟨e, he, hcount, hlt⟩ := envAt_next h n
  obtain ⟨e', acts, _, hacts, hb⟩ := boot_next hlt
  exact ⟨e, acts, he, hacts, hb.regular hcount⟩

/-- The first boot is already undefined when its attempt overflows. -/
theorem not_conforms_of_ge {env : Env} (h : 2 ^ 31 ≤ bootcount env + 1) : ¬ Conforms env := by
  intro hconf
  obtain ⟨e, acts, he, hacts, _⟩ := hconf 0
  obtain rfl : env = e := Option.some.inj he
  rw [boardLateInit_of_ge h] at hacts
  exact absurd hacts (by simp)

/-- **When the boots are regular**: from every stored string whose digits leave room in `int`
for one more attempt. -/
theorem conforms_iff (env : Env) : Conforms env ↔ bootcount env < 2 ^ 31 - 1 := by
  constructor
  · intro hconf
    by_contra hge
    exact not_conforms_of_ge (by omega) hconf
  · intro hlt
    exact conforms_of_lt (by omega)

/-- A variable set to the largest `int`: the next attempt overflows. -/
theorem conforms_fails :
    ¬ Conforms (Function.update (fun _ => none) kaeruEnvBootcount (some (ascii "2147483647"))) := by
  refine not_conforms_of_ge ?_
  rw [bootcount, Function.update_self, Option.map_some, Option.getD_some]
  decide

/-! ### What a request says about the boots before it -/

/-- How a boot ends that is not diverted. -/
inductive Outcome
  | success
  | failure
  deriving DecidableEq, Repr

/-- One boot of a history. -/
inductive Record
  | fastboot
  | normal (o : Outcome)
  deriving DecidableEq, Repr

/-- The history of boots that would end as listed; a diverted boot has no outcome. -/
def bootLog : Env → List Outcome → Option (List Record)
  | _, [] => some []
  | env, o :: os => do
    let b ← boot env
    let log ← bootLog b.1 os
    return (if .setBootmodeFastboot ∈ b.2 then .fastboot else .normal o) :: log

/-- The outcomes since the last fastboot entry of a log, the most recent first. -/
def sinceFastboot (log : List Record) : List Outcome :=
  (log.reverse.takeWhile (· ≠ .fastboot)).filterMap fun
    | .normal o => some o
    | .fastboot => none

/-- Every fastboot request of the history comes after five normal boots in a row that all failed,
none of them before the last fastboot entry. -/
def JustFastboots (env : Env) (os : List Outcome) : Prop :=
  ∃ log, bootLog env os = some log ∧ ∀ before after, log = before ++ .fastboot :: after →
    (sinceFastboot before).take 5 = List.replicate 5 .failure

/-- The history, by the counter alone. -/
def counterLog : ℕ → List Outcome → List Record
  | _, [] => []
  | c, o :: os => (if 5 ≤ c + 1 then .fastboot else .normal o) :: counterLog (next c) os

theorem bootLog_eq {env : Env} (h : bootcount env + 1 < 2 ^ 31) (os : List Outcome) :
    bootLog env os = some (counterLog (bootcount env) os) := by
  induction os generalizing env with
  | nil => rfl
  | cons o os ih =>
    obtain ⟨env', acts, hboot, _, hb⟩ := boot_next h
    have hle := next_le (bootcount env)
    rw [bootLog, hboot, Option.bind_eq_bind, Option.bind_some, ih (by rw [hb.count]; omega),
      Option.bind_eq_bind, Option.bind_some, hb.count, counterLog]
    simp only [hb.request]
    rfl

/-- Below the threshold nothing is diverted. -/
theorem fastboot_not_mem_counterLog {c : ℕ} {os : List Outcome} (h : c + os.length ≤ 4) :
    .fastboot ∉ counterLog c os := by
  induction os generalizing c with
  | nil => simp [counterLog]
  | cons o os ih =>
    rw [List.length_cons] at h
    rw [counterLog, if_neg (by omega), next, if_neg (by omega)]
    simpa using ih (by omega)

theorem justFastboots_of_short {env : Env} (h0 : bootcount env = 0) {os : List Outcome}
    (h : os.length ≤ 4) : JustFastboots env os := by
  refine ⟨counterLog 0 os, by rw [bootLog_eq (by omega), h0], ?_⟩
  intro before after hlog
  refine absurd ?_ (fastboot_not_mem_counterLog (c := 0) (by omega : 0 + os.length ≤ 4))
  rw [hlog]
  simp

/-- The fifth boot is diverted after only four, however they ended. -/
theorem not_justFastboots_of_long {env : Env} (h0 : bootcount env = 0) {os : List Outcome}
    (h : 5 ≤ os.length) : ¬ JustFastboots env os := by
  rintro ⟨log, hlog, hjust⟩
  rw [bootLog_eq (by omega), h0] at hlog
  match os, h with
  | o₁ :: o₂ :: o₃ :: o₄ :: o₅ :: os, _ =>
    have hfive : log = [.normal o₁, .normal o₂, .normal o₃, .normal o₄] ++
        .fastboot :: counterLog 0 os := (Option.some.inj hlog).symm
    -- four outcomes are not five
    have htake := congrArg List.length (hjust _ _ hfive)
    rw [List.length_replicate, List.length_take] at htake
    have hfour : (sinceFastboot [.normal o₁, .normal o₂, .normal o₃, .normal o₄]).length = 4 := rfl
    omega

/-- **When the fastboot requests are earned**: only in histories too short to have one.  The fifth
boot is always diverted, after four boots and not five, and a success in between does not restart
the count. -/
theorem justFastboots_iff (env : Env) (h0 : bootcount env = 0) (os : List Outcome) :
    JustFastboots env os ↔ os.length ≤ 4 := by
  constructor
  · intro hjust
    by_contra hlong
    exact not_justFastboots_of_long h0 (by omega) hjust
  · exact justFastboots_of_short h0

/-- Four failures with the variable absent: the fifth boot is diverted, the sixth is normal. -/
theorem justFastboots_iff_absent :
    let os : List Outcome := [.failure, .failure, .failure, .failure, .failure, .success]
    bootLog (fun _ => none) os = some [.normal .failure, .normal .failure, .normal .failure,
        .normal .failure, .fastboot, .normal .success] ∧
      (JustFastboots (fun _ => none) os ↔ os.length ≤ 4) := by
  intro os
  refine ⟨?_, justFastboots_iff _ rfl os⟩
  rw [bootLog_eq (by decide)]
  rfl

/-- Five successful boots in a row: the fifth never happens, it goes to fastboot. -/
theorem justFastboots_fails : ¬ JustFastboots (fun _ => none) (List.replicate 5 .success) :=
  not_justFastboots_of_long rfl (by simp)

end Autofb
