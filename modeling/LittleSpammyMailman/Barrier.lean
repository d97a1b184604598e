/-
Rounds of arrivals (general library).

A round waits for a set of members. It is released by the arrival after which
exactly the members have arrived; a change of one member starts it afresh.

* `Round`, `step`, `run`, `releases` — the rounds of a sequence of events, with
  the arrivals since the last fresh start as part of the state;
* `releases_le_of_silent`, `releases_eq_zero_of_stray` — one member that stays
  away, or one stranger that came, holds up the releases;
* `releases_le_arrivals` — no more releases than arrivals of any one member;
* `releases_pos_of_all`, `le_releases_of_rounds` — the members alone, all of
  them, release, and do so once for each time they have all come.
-/
import Mathlib

namespace Barrier

variable {ι : Type*}

/-- Who is waited for, and who has arrived since the round began, the last one first. -/
structure Round (ι : Type*) where
  members : Finset ι
  arrivals : List ι

/-- What happens to a round. -/
inductive Event (ι : Type*)
  /-- A member more. -/
  | join (i : ι)
  /-- A member less. -/
  | leave (i : ι)
  /-- Other members, in the middle of the round. -/
  | expect (S : Finset ι)
  | arrive (i : ι)

/-- A stretch of arrivals. -/
def arrivalsOf (is : List ι) : List (Event ι) := is.map .arrive

@[simp] theorem arrivalsOf_nil : arrivalsOf ([] : List ι) = [] := rfl

@[simp] theorem arrivalsOf_cons (i : ι) (is : List ι) :
    arrivalsOf (i :: is) = .arrive i :: arrivalsOf is := rfl

theorem arrivalsOf_append (is js : List ι) :
    arrivalsOf (is ++ js) = arrivalsOf is ++ arrivalsOf js := List.map_append

/-- The event neither is `m`'s arrival nor gives `m` up. -/
def Event.Keeps (m : ι) : Event ι → Prop
  | .join _ => True
  | .leave i => i ≠ m
  | .expect S => m ∈ S
  | .arrive i => i ≠ m

namespace Round

variable [DecidableEq ι]

/-- Who has arrived. -/
def arrived (r : Round ι) : Finset ι := r.arrivals.toFinset

/-- Somebody has arrived twice in the round. -/
def Repeated (r : Round ι) : Prop := ¬ r.arrivals.Nodup

/-- The event releases the round. -/
def Releases (r : Round ι) : Event ι → Prop
  | .arrive i => insert i r.arrived = r.members
  | _ => False

instance (r : Round ι) (e : Event ι) : Decidable (r.Releases e) := by
  cases e <;> unfold Releases <;> infer_instance

def step (r : Round ι) : Event ι → Round ι
  | .join i => ⟨insert i r.members, []⟩
  | .leave i => ⟨r.members.erase i, []⟩
  | .expect S => ⟨S, r.arrivals⟩
  | .arrive i => if insert i r.arrived = r.members then ⟨r.members, []⟩
      else ⟨r.members, i :: r.arrivals⟩

def run (r : Round ι) (es : List (Event ι)) : Round ι := es.foldl step r

/-- How many of the events release. -/
def releases : Round ι → List (Event ι) → ℕ
  | _, [] => 0
  | r, e :: es => (if r.Releases e then 1 else 0) + (r.step e).releases es

/-- The round is under way: only members have arrived, and not all of them. -/
def UnderWay (r : Round ι) : Prop := r.arrived ⊂ r.members

variable {r : Round ι} {e : Event ι} {es fs : List (Event ι)} {i m : ι}

@[simp] theorem run_nil : r.run [] = r := rfl

@[simp] theorem run_cons : r.run (e :: es) = (r.step e).run es := rfl

theorem run_append : r.run (es ++ fs) = (r.run es).run fs := List.foldl_append

theorem releases_append : r.releases (es ++ fs) = r.releases es + (r.run es).releases fs := by
  induction es generalizing r with
  | nil => simp [releases]
  | cons e es ih => rw [List.cons_append, releases, releases, ih, run_cons, add_assoc]

@[simp] theorem arrived_mk_nil (S : Finset ι) : (Round.mk S []).arrived = ∅ := rfl

@[simp] theorem arrived_mk_cons (S : Finset ι) (i : ι) (as : List ι) :
    (Round.mk S (i :: as)).arrived = insert i (Round.mk S as).arrived := List.toFinset_cons

theorem not_releases_join : ¬ r.Releases (.join i) := fun h => h

theorem not_releases_leave : ¬ r.Releases (.leave i) := fun h => h

theorem not_releases_expect {S : Finset ι} : ¬ r.Releases (.expect S) := fun h => h

theorem step_arrive_members (r : Round ι) (i : ι) : (r.step (.arrive i)).members = r.members := by
  rw [step]
  split_ifs <;> rfl

/-- What an arrival leaves. -/
theorem step_arrive_arrived (r : Round ι) (i : ι) :
    (r.step (.arrive i)).arrived = if r.Releases (.arrive i) then ∅ else insert i r.arrived := by
  by_cases h : insert i r.arrived = r.members
  · rw [step, if_pos h, if_pos (show r.Releases (.arrive i) from h), arrived_mk_nil]
  · rw [step, if_neg h, if_neg (show ¬ r.Releases (.arrive i) from h), arrived_mk_cons]

/-- Members set one after another. -/
theorem run_join_or_leave (p : ι → Bool) (is : List ι) (hr : r.arrivals = []) :
    (r.run (is.map fun i => if p i then .join i else .leave i)).arrivals = [] ∧
      ∀ j, j ∈ (r.run (is.map fun i => if p i then .join i else .leave i)).members ↔
        j ∈ is ∧ p j = true ∨ j ∉ is ∧ j ∈ r.members := by
  induction is generalizing r with
  | nil => simp [hr]
  | cons i is ih =>
    rw [List.map_cons, run_cons]
    have hstep : (r.step (if p i then .join i else .leave i)).arrivals = [] := by
      split_ifs <;> rfl
    refine ⟨(ih hstep).1, fun j => ?_⟩
    rw [(ih hstep).2 j, List.mem_cons]
    by_cases hji : j = i
    · subst hji
      cases hp : p j <;> simp [step, em]
    · cases hp : p i <;> simp [step, hji]

/-- A stretch of arrivals without a release keeps them all. -/
theorem run_arrivalsOf {is : List ι} (h : r.releases (arrivalsOf is) = 0) :
    (r.run (arrivalsOf is)).arrivals = is.reverse ++ r.arrivals := by
  induction is generalizing r with
  | nil => rfl
  | cons i is ih =>
    rw [arrivalsOf_cons, releases] at h
    have hnot : ¬ insert i r.arrived = r.members := by
      intro hrel
      rw [if_pos (show r.Releases (.arrive i) from hrel)] at h
      omega
    rw [if_neg (show ¬ r.Releases (.arrive i) from hnot), zero_add] at h
    rw [arrivalsOf_cons, run_cons, ih h, step, if_neg hnot, List.reverse_cons, List.append_assoc]
    rfl

/-! ### What holds up a release -/

theorem run_arrivalsOf_members (r : Round ι) (is : List ι) :
    (r.run (arrivalsOf is)).members = r.members := by
  induction is generalizing r with
  | nil => rfl
  | cons i is ih => rw [arrivalsOf_cons, run_cons, ih, step_arrive_members]

/-- **A member that stays away** holds up every release, whatever the others do. -/
theorem releases_eq_zero_of_silent (hm : m ∈ r.members) (haway : m ∉ r.arrived)
    (hkeep : ∀ e ∈ es, e.Keeps m) : r.releases es = 0 := by
  induction es generalizing r with
  | nil => rfl
  | cons e es ih =>
    obtain ⟨he, hes⟩ := List.forall_mem_cons.mp hkeep
    have hnot : ¬ r.Releases e := by
      intro h
      cases e with
      | arrive i =>
        have hmem : m ∈ insert i r.arrived := (show insert i r.arrived = r.members from h) ▸ hm
        exact (Finset.mem_insert.mp hmem).elim (Ne.symm he) haway
      | _ => exact h
    rw [releases, if_neg hnot, zero_add]
    cases e with
    | join i => exact ih (Finset.mem_insert_of_mem hm) (Finset.notMem_empty m) hes
    | leave i => exact ih (Finset.mem_erase.mpr ⟨Ne.symm he, hm⟩) (Finset.notMem_empty m) hes
    | expect S => exact ih he haway hes
    | arrive i =>
      have hstep := step_arrive_arrived r i
      rw [if_neg hnot] at hstep
      refine ih (by rwa [step_arrive_members]) ?_ hes
      rw [hstep]
      exact fun h => (Finset.mem_insert.mp h).elim (Ne.symm he) haway

/-- If it has arrived already, there is one release left. -/
theorem releases_le_of_silent (hm : m ∈ r.members) (hkeep : ∀ e ∈ es, e.Keeps m) :
    r.releases es ≤ if m ∈ r.arrived then 1 else 0 := by
  induction es generalizing r with
  | nil => exact Nat.zero_le _
  | cons e es ih =>
    by_cases haway : m ∈ r.arrived
    · obtain ⟨he, hes⟩ := List.forall_mem_cons.mp hkeep
      rw [if_pos haway, releases]
      have hle {r' : Round ι} (h : m ∈ r'.members) : r'.releases es ≤ 1 :=
        (ih h hes).trans (by split_ifs <;> omega)
      cases e with
      | join i =>
        rw [if_neg not_releases_join, zero_add]
        exact hle (Finset.mem_insert_of_mem hm)
      | leave i =>
        rw [if_neg not_releases_leave, zero_add]
        exact hle (Finset.mem_erase.mpr ⟨Ne.symm he, hm⟩)
      | expect S =>
        rw [if_neg not_releases_expect, zero_add]
        exact hle he
      | arrive i =>
        have hm' : m ∈ (r.step (.arrive i)).members := by rwa [step_arrive_members]
        have hstep := step_arrive_arrived r i
        split_ifs with hrel
        · rw [if_pos hrel] at hstep
          rw [releases_eq_zero_of_silent hm' (by simp [hstep]) hes]
        · rw [zero_add]
          exact hle hm'
    · rw [if_neg haway, releases_eq_zero_of_silent hm haway hkeep]

/-- **A stranger that came** holds up every release. -/
theorem releases_eq_zero_of_stray {is : List ι} {j : ι} (hj : j ∉ r.members) (hcame : j ∈ r.arrived) :
    r.releases (arrivalsOf is) = 0 := by
  induction is generalizing r with
  | nil => rfl
  | cons i is ih =>
    have hnot : ¬ r.Releases (.arrive i) := by
      intro h
      exact hj (h ▸ Finset.mem_insert_of_mem hcame)
    have hstep := step_arrive_arrived r i
    rw [if_neg hnot] at hstep
    rw [arrivalsOf_cons, releases, if_neg hnot, zero_add]
    refine ih (by rwa [step_arrive_members]) ?_
    rw [hstep]
    exact Finset.mem_insert_of_mem hcame

/-- A member need arrive once for every release. -/
theorem releases_le_arrivals {is : List ι} (hm : m ∈ r.members) :
    r.releases (arrivalsOf is) ≤ is.count m + if m ∈ r.arrived then 1 else 0 := by
  induction is generalizing r with
  | nil => exact Nat.zero_le _
  | cons i is ih =>
    have hm' : m ∈ (r.step (.arrive i)).members := by rwa [step_arrive_members]
    have hstep := step_arrive_arrived r i
    have hrest := ih hm'
    rw [hstep] at hrest
    rw [arrivalsOf_cons, releases, List.count_cons]
    by_cases hrel : r.Releases (.arrive i)
    · rw [if_pos hrel] at hrest ⊢
      rw [if_neg (Finset.notMem_empty m)] at hrest
      -- the arrival that releases is the member's own, or the member came before it
      have hmem : m ∈ insert i r.arrived := by
        rw [show insert i r.arrived = r.members from hrel]
        exact hm
      rcases Finset.mem_insert.mp hmem with rfl | hin
      · rw [if_pos (beq_self_eq_true _)]
        omega
      · rw [if_pos hin]
        omega
    · rw [if_neg hrel] at hrest ⊢
      by_cases him : i = m
      · subst him
        rw [if_pos (beq_self_eq_true _)]
        split_ifs at hrest <;> omega
      · have hiff : m ∈ insert i r.arrived ↔ m ∈ r.arrived := by
          rw [Finset.mem_insert, or_iff_right (Ne.symm him)]
        rw [if_neg (by simpa using him)]
        simp only [hiff] at hrest
        omega

/-! ### What makes a release -/

theorem UnderWay.of_members_nonempty (h : r.members.Nonempty) :
    UnderWay (Round.mk r.members []) := by
  rw [UnderWay, arrived_mk_nil]
  exact Finset.empty_ssubset.mpr h

/-- A member's arrival leaves a round under way. -/
theorem UnderWay.step (h : r.UnderWay) (hi : i ∈ r.members) : (r.step (.arrive i)).UnderWay := by
  have hsub : insert i r.arrived ⊆ r.members := Finset.insert_subset hi h.subset
  rw [UnderWay, step_arrive_arrived, step_arrive_members]
  split_ifs with hrel
  · exact Finset.empty_ssubset.mpr ⟨i, hi⟩
  · exact hsub.ssubset_of_ne hrel

theorem UnderWay.run {is : List ι} (h : r.UnderWay) (hmem : ∀ i ∈ is, i ∈ r.members) :
    (r.run (arrivalsOf is)).UnderWay := by
  induction is generalizing r with
  | nil => exact h
  | cons i is ih =>
    rw [arrivalsOf_cons, run_cons]
    refine ih (h.step (hmem i (List.mem_cons_self ..))) fun j hj => ?_
    rw [step_arrive_members]
    exact hmem j (List.mem_cons_of_mem _ hj)

/-- **All the members, and nobody else**, release the round. -/
theorem releases_pos_of_all {is : List ι} (h : r.UnderWay) (hmem : ∀ i ∈ is, i ∈ r.members)
    (hall : ∀ m ∈ r.members, m ∈ r.arrived ∨ m ∈ is) : 0 < r.releases (arrivalsOf is) := by
  induction is generalizing r with
  | nil =>
    obtain ⟨m, hm, haway⟩ := Finset.exists_of_ssubset h
    exact absurd (hall m hm) (by simp [haway])
  | cons i is ih =>
    rw [arrivalsOf_cons, releases]
    by_cases hrel : r.Releases (.arrive i)
    · rw [if_pos hrel]
      exact Nat.lt_of_lt_of_le Nat.one_pos (Nat.le_add_right _ _)
    · have hstep := step_arrive_arrived r i
      rw [if_neg hrel] at hstep
      rw [if_neg hrel, zero_add]
      refine ih (h.step (hmem i (List.mem_cons_self ..))) ?_ ?_
      · intro j hj
        rw [step_arrive_members]
        exact hmem j (List.mem_cons_of_mem _ hj)
      · intro m hm
        rw [step_arrive_members] at hm
        rw [hstep, Finset.mem_insert]
        rcases hall m hm with hin | hin
        · exact .inl (.inr hin)
        · rcases List.mem_cons.mp hin with rfl | htail
          · exact .inl (.inl rfl)
          · exact .inr htail

/-- **As many releases as times that all the members came.** -/
theorem le_releases_of_rounds {iss : List (List ι)} (h : r.UnderWay)
    (hmem : ∀ is ∈ iss, ∀ i ∈ is, i ∈ r.members) (hall : ∀ is ∈ iss, ∀ m ∈ r.members, m ∈ is) :
    iss.length ≤ r.releases (arrivalsOf iss.flatten) := by
  induction iss generalizing r with
  | nil => exact Nat.zero_le _
  | cons is iss ih =>
    obtain ⟨hmem1, hmem2⟩ := List.forall_mem_cons.mp hmem
    obtain ⟨hall1, hall2⟩ := List.forall_mem_cons.mp hall
    have hone := releases_pos_of_all h hmem1 fun m hm => .inr (hall1 m hm)
    have hrest := ih (h.run hmem1) (by simpa only [run_arrivalsOf_members] using hmem2)
      (by simpa only [run_arrivalsOf_members] using hall2)
    rw [List.flatten_cons, arrivalsOf_append, releases_append, List.length_cons]
    omega

end Round

end Barrier
