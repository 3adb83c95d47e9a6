import Mathlib.Data.List.Chain
import MixedWorkload.Log.Phases

/-!
# Boundaries tell all phases

A list of phases is described by its first phase and by where it changes. The boundaries of a
log are such a description: there is one wherever a record differs in its phase from the
record before it, and nowhere else, and each says what the phase changes from and to
(`MixedWorkload.mem_boundariesFrom`). Nothing is lost on the way, since
`MixedWorkload.expandPhases` makes the phases out of their boundaries again.

`MixedWorkload.DescribePhases` lists this for boundaries beside a list of phases, and
`MixedWorkload.TimingLog.describePhases_phaseBoundaries` says that it holds for every log, so
that logs of one length that begin in one phase have the same phases if and only if they have
the same boundaries.
-/

namespace MixedWorkload

/-! ### From boundaries to phases -/

/-- The phase at a position: what the last boundary up to it changes to, and the first phase
where there is none. -/
def phaseAt (first : Int64) (bs : List PhaseBoundary) (position : ℕ) : Int64 :=
  bs.foldl (fun phase b => if b.index ≤ position then b.after else phase) first

/-- **The phases of a number of records**, by the first of them and the boundaries. -/
def expandPhases (first : Int64) (bs : List PhaseBoundary) (length : ℕ) : List Int64 :=
  (List.range length).map (phaseAt first bs)

/-- **Boundaries describe a list of phases.** -/
structure DescribePhases (bs : List PhaseBoundary) (phases : List Int64) : Prop where
  /-- Their positions ascend. -/
  ascending : (bs.map PhaseBoundary.index).Pairwise (· < ·)
  /-- They lie behind the first record. -/
  index_mem : ∀ b ∈ bs, 1 ≤ b.index ∧ b.index < phases.length
  /-- There is one at a record if and only if its phase differs from that of the record before
  it. -/
  exists_iff : ∀ (k : ℕ) (h : k + 1 < phases.length),
    (∃ b ∈ bs, b.index = k + 1) ↔ phases[k + 1] ≠ phases[k]
  /-- It changes from the phase of the record before it -/
  before_eq : ∀ b ∈ bs, phases[b.index - 1]? = some b.before
  /-- to that of the record itself, -/
  after_eq : ∀ b ∈ bs, phases[b.index]? = some b.after
  /-- which is another one. -/
  before_ne_after : ∀ b ∈ bs, b.before ≠ b.after
  /-- From one boundary to the next nothing changes. -/
  linked : bs.IsChain fun b b' => b.after = b'.before
  /-- The first phase and the boundaries give back all phases. Without a record there is no first
  phase, and any number does for it. -/
  expand_eq : ∀ first, (∀ phase ∈ phases.head?, phase = first) →
    expandPhases first bs phases.length = phases

/-! ### Boundaries behind a record -/

section Boundaries

variable {index : ℕ} {before : Int64} {phases : List Int64} {b : PhaseBoundary}

/-- **The boundaries are where the phase changes.** -/
theorem mem_boundariesFrom :
    b ∈ boundariesFrom index before phases ↔
      ∃ j, b.index = index + j ∧ (before :: phases)[j]? = some b.before ∧
        phases[j]? = some b.after ∧ b.before ≠ b.after := by
  induction phases generalizing index before with
  | nil => simp [boundariesFrom]
  | cons phase phases ih =>
    -- the first of the phases, or one of those behind it
    have hsplit : b ∈ boundariesFrom index before (phase :: phases) ↔
        (b = ⟨index, before, phase⟩ ∧ before ≠ phase) ∨
          b ∈ boundariesFrom (index + 1) phase phases := by
      by_cases hphase : phase = before
      · simp [boundariesFrom, hphase]
      · simp [boundariesFrom, hphase, Ne.symm hphase]
    refine (hsplit.trans (or_congr ?_ (ih.trans (exists_congr fun j => ?_)))).trans
      Nat.or_exists_add_one
    · obtain ⟨i, p, q⟩ := b
      constructor
      · rintro ⟨hb, hne⟩
        obtain ⟨rfl, rfl, rfl⟩ := PhaseBoundary.mk.inj hb
        exact ⟨rfl, rfl, rfl, hne⟩
      · rintro ⟨hi, hp, hq, hne⟩
        obtain rfl : i = index := hi
        obtain rfl : before = p := Option.some.inj hp
        obtain rfl : phase = q := Option.some.inj hq
        exact ⟨rfl, hne⟩
    · rw [List.getElem?_cons_succ, List.getElem?_cons_succ, Nat.add_assoc, Nat.add_comm 1 j]

theorem le_index (h : b ∈ boundariesFrom index before phases) : index ≤ b.index := by
  obtain ⟨j, hj, -⟩ := mem_boundariesFrom.mp h
  omega

/-- **Boundaries are found in the order of the records.** -/
theorem pairwise_boundariesFrom (index : ℕ) (before : Int64) (phases : List Int64) :
    (boundariesFrom index before phases).Pairwise fun b b' => b.index < b'.index := by
  induction phases generalizing index before with
  | nil => exact .nil
  | cons phase phases ih =>
    rw [boundariesFrom]
    split
    · exact ih (index + 1) phase
    · refine List.pairwise_cons.mpr ⟨fun b hb => ?_, ih (index + 1) phase⟩
      have hle := le_index hb
      show index < b.index
      omega

/-- **The first boundary changes from the phase before**, and each other one from what the one
before it changed to. -/
theorem isChain_boundariesFrom (index : ℕ) (before : Int64) (phases : List Int64) :
    (∀ b ∈ (boundariesFrom index before phases).head?, b.before = before) ∧
      (boundariesFrom index before phases).IsChain fun b b' => b.after = b'.before := by
  induction phases generalizing index before with
  | nil => exact ⟨by simp [boundariesFrom], .nil⟩
  | cons phase phases ih =>
    obtain ⟨hfirst, hchain⟩ := ih (index + 1) phase
    rw [boundariesFrom]
    split
    · next h => exact ⟨fun b hb => (hfirst b hb).trans h, hchain⟩
    · refine ⟨by simp, List.isChain_cons.mpr ⟨fun b hb => ?_, hchain⟩⟩
      exact (hfirst b hb).symm

/-! ### Expanding them -/

theorem phaseAt_of_forall_lt {first : Int64} {bs : List PhaseBoundary} {k : ℕ}
    (h : ∀ b ∈ bs, k < b.index) : phaseAt first bs k = first := by
  induction bs with
  | nil => rfl
  | cons b bs ih =>
    have hb := h b List.mem_cons_self
    have hstep : phaseAt first (b :: bs) k = phaseAt first bs k := by
      simp [phaseAt, Nat.not_le.mpr hb]
    rw [hstep]
    exact ih fun b' hb' => h b' (List.mem_cons_of_mem b hb')

/-- From a record on, the phases do not depend on what was before it. -/
theorem phaseAt_boundariesFrom_cons {phase : Int64} {k : ℕ} (h : index ≤ k) :
    phaseAt before (boundariesFrom index before (phase :: phases)) k =
      phaseAt phase (boundariesFrom (index + 1) phase phases) k := by
  by_cases hphase : phase = before
  · simp [boundariesFrom, hphase]
  · simp [boundariesFrom, hphase, phaseAt, h]

/-- **Expanding finds the phase of every record.** -/
theorem phaseAt_boundariesFrom (j : ℕ) (h : j < phases.length) :
    phaseAt before (boundariesFrom index before phases) (index + j) = phases[j] := by
  induction phases generalizing index before j with
  | nil => simp at h
  | cons phase phases ih =>
    rw [phaseAt_boundariesFrom_cons (Nat.le_add_right index j)]
    rcases j with _ | j
    · -- all boundaries that are left lie behind this record
      exact phaseAt_of_forall_lt fun b hb => le_index hb
    · have hj : j < phases.length := by simpa using h
      have hindex : index + (j + 1) = index + 1 + j := by omega
      rw [hindex, ih j hj, List.getElem_cons_succ]

end Boundaries

/-! ### The boundaries of a log -/

section Phases

variable (phases : List Int64)

/-- **A boundary stands between two neighbours of different phases.** -/
theorem mem_boundaries {b : PhaseBoundary} :
    b ∈ boundaries phases ↔
      ∃ j, b.index = j + 1 ∧ phases[j]? = some b.before ∧ phases[j + 1]? = some b.after ∧
        b.before ≠ b.after := by
  rcases phases with _ | ⟨phase, phases⟩
  · simp [boundaries]
  · rw [boundaries, mem_boundariesFrom]
    simp only [Nat.add_comm 1, List.getElem?_cons_succ]

/-- **Nothing is lost**: the boundaries expand to the phases that they come from. -/
theorem expandPhases_boundaries {first : Int64} (hfirst : ∀ phase ∈ phases.head?, phase = first) :
    expandPhases first (boundaries phases) phases.length = phases := by
  rcases phases with _ | ⟨phase, phases⟩
  · rfl
  obtain rfl : phase = first := hfirst phase rfl
  rw [expandPhases, List.length_cons, List.range_succ_eq_map, List.map_cons, List.map_map]
  congr 1
  · exact phaseAt_of_forall_lt fun b hb => le_index hb
  · refine List.ext_getElem (by simp) fun j hj hj' => ?_
    rw [List.getElem_map, List.getElem_range, Function.comp_apply, Nat.succ_eq_one_add]
    exact phaseAt_boundariesFrom j hj'

/-- **The boundaries of a list of phases describe it.** -/
theorem describePhases_boundaries : DescribePhases (boundaries phases) phases where
  ascending := by
    rcases phases with _ | ⟨phase, phases⟩
    · exact .nil
    · exact List.pairwise_map.mpr (pairwise_boundariesFrom 1 phase phases)
  index_mem b hb := by
    obtain ⟨j, hj, -, hafter, -⟩ := (mem_boundaries phases).mp hb
    obtain ⟨hlt, -⟩ := List.getElem?_eq_some_iff.mp hafter
    omega
  exists_iff k hk := by
    constructor
    · rintro ⟨b, hb, hindex⟩
      obtain ⟨j, hj, hbefore, hafter, hne⟩ := (mem_boundaries phases).mp hb
      obtain rfl : j = k := by omega
      rw [List.getElem?_eq_getElem (by omega)] at hbefore hafter
      rw [Option.some.inj hbefore, Option.some.inj hafter]
      exact hne.symm
    · intro hne
      refine ⟨⟨k + 1, phases[k], phases[k + 1]⟩, (mem_boundaries phases).mpr ?_, rfl⟩
      exact ⟨k, rfl, List.getElem?_eq_getElem _, List.getElem?_eq_getElem _, hne.symm⟩
  before_eq b hb := by
    obtain ⟨j, hj, hbefore, -⟩ := (mem_boundaries phases).mp hb
    rwa [hj, Nat.add_sub_cancel]
  after_eq b hb := by
    obtain ⟨j, hj, -, hafter, -⟩ := (mem_boundaries phases).mp hb
    rwa [hj]
  before_ne_after b hb := by
    obtain ⟨-, -, -, -, hne⟩ := (mem_boundaries phases).mp hb
    exact hne
  linked := by
    rcases phases with _ | ⟨phase, phases⟩
    · exact .nil
    · exact (isChain_boundariesFrom 1 phase phases).2
  expand_eq _ := expandPhases_boundaries phases

end Phases

/-- Phases that recur come back in their places. -/
example : expandPhases 3 (boundaries [3, 1, 1, 3, 2]) 5 = [3, 1, 1, 3, 2] := by decide

namespace TimingLog

/-- The phases of the records in the order of the log. -/
def phases (log : TimingLog) : List Int64 :=
  log.records.map TimingRecord.phase

/-- **The boundaries of a log describe its phases**, and no other ones: logs of one length that
begin in one phase have the same boundaries if and only if they have the same phases. -/
theorem describePhases_phaseBoundaries (log : TimingLog) :
    DescribePhases log.phaseBoundaries log.phases ∧
      ∀ log' : TimingLog, log.length = log'.length → log.phases.head? = log'.phases.head? →
        (log.phaseBoundaries = log'.phaseBoundaries ↔ log.phases = log'.phases) := by
  have hdescribe (log : TimingLog) : DescribePhases log.phaseBoundaries log.phases :=
    describePhases_boundaries log.phases
  refine ⟨hdescribe log, fun log' hlength hhead => ⟨fun hboundaries => ?_, fun hphases => ?_⟩⟩
  · have hlength' : log.phases.length = log'.phases.length := by
      simpa [phases, length] using hlength
    -- for logs without records any number does for the first phase
    have hfirst : ∀ phase ∈ log.phases.head?, phase = log.phases.head?.getD 0 := by
      intro phase hphase
      rw [Option.mem_def.mp hphase, Option.getD_some]
    rw [← (hdescribe log).expand_eq _ hfirst, hboundaries, hlength']
    exact (hdescribe log').expand_eq _ (hhead ▸ hfirst)
  · exact congrArg boundaries hphases

/-- A log that leaves its first phase and comes back to it. -/
def recurringLog : TimingLog :=
  ⟨[⟨2, 0.0, 0.1, "a", 3⟩, ⟨7, 1.0, 1.0, "b", 1⟩, ⟨2, 2.0, 0.1, "a", 3⟩]⟩

/-- A log that stays in it. -/
def steadyLog : TimingLog :=
  ⟨[⟨2, 0.0, 0.1, "a", 3⟩, ⟨7, 1.0, 1.0, "b", 3⟩, ⟨2, 2.0, 0.1, "a", 3⟩]⟩

/-- Both begin and end in the same phase, and their boundaries tell them apart. -/
theorem describePhases_recurringLog :
    recurringLog.length = steadyLog.length ∧
      recurringLog.phases.head? = steadyLog.phases.head? ∧
      recurringLog.phases ≠ steadyLog.phases ∧
      DescribePhases recurringLog.phaseBoundaries recurringLog.phases ∧
      recurringLog.phaseBoundaries ≠ steadyLog.phaseBoundaries := by
  have hphases : recurringLog.phases ≠ steadyLog.phases := by decide
  obtain ⟨hdescribe, hsame⟩ := recurringLog.describePhases_phaseBoundaries
  exact ⟨rfl, rfl, hphases, hdescribe, mt (hsame steadyLog rfl rfl).mp hphases⟩

end TimingLog

end MixedWorkload
