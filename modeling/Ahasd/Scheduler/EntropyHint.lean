/-
  File:      Ahasd/Scheduler/EntropyHint.lean
  Subject:   THE ENTROPY HINT OF A ROUND and the values its consumers see.

  The hint is computed anew for every consumer, of the request as it is at that moment. EDC is asked
  before the round counter moves, the others after.

  * `computeEntropyHint_step`: the hints of two consecutive rounds differ;
  * `HintsOk`: the hand-overs of a round against the entropy its trace keeps, `HintsOk.move`;
  * `entropy_hint_shared`: which consumers see one value, for every run.
-/
import Mathlib.Algebra.Order.Field.Basic
import Mathlib.Tactic.Linarith
import Ahasd.Scheduler.Rounds

namespace Ahasd

open Std Transition OrderedMap

/-! ## 1. The hint -/

/-- **The jitter of the round on top of a base that no clamp touches**: the base is between 5/2 and
    5, the jitter between 0 and 3/2. -/
theorem computeEntropyHint_jitter (r : LangRequest) : ∃ base : ℚ, ∀ n : Nat,
    computeEntropyHint { r with specRound := n } = base + 1 / 2 * (n % 4 : Nat) := by
  refine ⟨5 / 2 + 5 / 2 * min 1 (((r.currentLength - r.promptLength : Nat) : ℚ) /
    (max 1 (if r.targetLength > r.promptLength then r.targetLength - r.promptLength else 1) : Nat)),
    fun n => ?_⟩
  unfold computeEntropyHint
  dsimp only
  generalize hratio : min (1 : ℚ) _ = ratio
  have hhigh : ratio ≤ 1 := hratio ▸ min_le_left _ _
  have hlow : 0 ≤ ratio := by
    rw [← hratio]
    exact le_min zero_le_one (div_nonneg (Nat.cast_nonneg _) (Nat.cast_nonneg _))
  have hjitter : ((n % 4 : Nat) : ℚ) ≤ 3 := by
    exact_mod_cast Nat.le_of_lt_succ (Nat.mod_lt n (by decide))
  have hpos : (0 : ℚ) ≤ ((n % 4 : Nat) : ℚ) := Nat.cast_nonneg _
  rw [max_eq_right (by linarith), min_eq_right (by linarith)]

/-- **The hints of consecutive rounds differ.** -/
theorem computeEntropyHint_step (r : LangRequest) :
    computeEntropyHint { r with specRound := r.specRound + 1 } ≠ computeEntropyHint r := by
  obtain ⟨base, hbase⟩ := computeEntropyHint_jitter r
  intro heq
  have hsame : base + 1 / 2 * ((r.specRound + 1) % 4 : Nat) = base + 1 / 2 * (r.specRound % 4 : Nat) :=
    (hbase _).symm.trans (heq.trans (hbase r.specRound))
  have hmod : ((r.specRound + 1) % 4 : Nat) = r.specRound % 4 := by
    have hcast : (((r.specRound + 1) % 4 : Nat) : ℚ) = (r.specRound % 4 : Nat) := by linarith
    exact_mod_cast hcast
  omega

/-- The configuration asks EDC for the draft lengths. -/
def Setup.asksEdc (c : Setup) : Prop :=
  c.config.enableAhasd = true ∧ c.config.enableEdc = true

namespace SpecDecodeScheduler

/-! ## 2. The hand-overs of a run -/

/-- **The hand-overs and the traces.** Every hand-over belongs to a planned round; its value is the
    entropy of the round's trace exactly when it did not go to EDC; and inside a round the hint of
    the request is still that entropy. -/
structure HintsOk (c : Setup) (s : SpecDecodeScheduler) : Prop where
  used : ∀ u ∈ s.hintUses, ∃ k e, s.planOf u.requestId u.specRound = some (k, e) ∧
    (u.hint = e ↔ u.consumer ≠ .edc)
  asked : ∀ id n p, s.planOf id n = some p → c.asksEdc →
    ∃ u ∈ s.hintUses, u.requestId = id ∧ u.specRound = n ∧ u.consumer = .edc
  unasked : ∀ u ∈ s.hintUses, u.consumer = .edc → c.asksEdc
  current : ∀ (id : Nat) (r : LangRequest), s.activeRequests[id]? = some r → r.InRound →
    ∃ k, s.planOf id r.specRound = some (k, computeEntropyHint r)

/-- A step that keeps the plans, adds hand-overs that agree, and keeps the requests' hints. -/
theorem HintsOk.frame {c : Setup} {s s' : SpecDecodeScheduler} (H : HintsOk c s)
    (hplans : ∀ id n, s'.planOf id n = s.planOf id n) {new : List HintUse}
    (hhints : s'.hintUses = s.hintUses ++ new)
    (hnew : ∀ u ∈ new, u.consumer = .sample ∧
      ∃ k, s.planOf u.requestId u.specRound = some (k, u.hint))
    (hcurrent : ∀ (id : Nat) (r' : LangRequest), s'.activeRequests[id]? = some r' → r'.InRound →
      ∃ r : LangRequest, s.activeRequests[id]? = some r ∧ r.InRound ∧ r'.specRound = r.specRound ∧
        computeEntropyHint r' = computeEntropyHint r) : HintsOk c s' := by
  refine ⟨fun u hu => ?_, fun id n p hp hedc => ?_, fun u hu hedc => ?_, fun id r' hr' hin => ?_⟩
  · rw [hhints] at hu
    rw [hplans]
    rcases List.mem_append.mp hu with hu | hu
    · exact H.used u hu
    · obtain ⟨hsample, k, hplan⟩ := hnew u hu
      exact ⟨k, u.hint, hplan, by simp [hsample]⟩
  · obtain ⟨u, hu, huse⟩ := H.asked id n p (hplans id n ▸ hp) hedc
    exact ⟨u, hhints ▸ List.mem_append_left new hu, huse⟩
  · rw [hhints] at hu
    rcases List.mem_append.mp hu with hu | hu
    · exact H.unasked u hu hedc
    · obtain ⟨hsample, _⟩ := hnew u hu
      rw [hsample] at hedc
      cases hedc
  · obtain ⟨r, hr, hin', hround, hhint⟩ := hcurrent id r' hr' hin
    rw [hplans, hround, hhint]
    exact H.current id r hr hin'

/-- The coordinator of the configuration is asked. -/
theorem Configured.consultsEdc_iff {c : Setup} {s : SpecDecodeScheduler} (C : Configured c s) :
    s.consultsEdc = true ↔ c.asksEdc := by
  have hconfig := C.ahasd
  unfold consultsEdc Setup.asksEdc
  unfold Setup.ahasd at hconfig
  cases ha : s.ahasd with
  | none =>
      rw [ha] at hconfig
      split at hconfig
      · cases hconfig
      · next hoff => simp [hoff]
  | some a =>
      rw [ha] at hconfig
      split at hconfig
      · next hon =>
          have hedc : a.config = c.config.toAHASDConfig := Option.some.inj hconfig
          rw [Option.any_some, hedc]
          exact ⟨fun h => ⟨hon, h⟩, fun h => h.2⟩
      · cases hconfig

theorem HintsOk.plan {c : Setup} {s : SpecDecodeScheduler} (I : ProtocolOk s) (C : Configured c s)
    (H : HintsOk c s) {req : LangRequest} (hact : s.activeRequests[req.requestId]? = some req) :
    HintsOk c (s.planRound req).2 := by
  have hplans := s.planRound_planOf req
  have hactive := s.planRound_lookup req
  have hunplanned := (I.requests _ _ hact).unplanned _ (Nat.lt_succ_self req.specRound)
  have hhints : (s.planRound req).2.hintUses = s.hintUses ++ s.planHints req := by
    obtain ⟨ssrc, deferred, heq⟩ := s.planRound_eq req
    rw [heq]
  have hdiffer : computeEntropyHint req ≠ computeEntropyHint (s.plannedRequest req) :=
    (computeEntropyHint_step req).symm
  -- no plan of another round changes, and the new round has had no hand-over
  have hold : ∀ id n p, s.planOf id n = some p → (s.planRound req).2.planOf id n = some p := by
    intro id n p hp
    rw [hplans, if_neg]
    · exact hp
    · rintro ⟨rfl, rfl⟩
      rw [hunplanned] at hp
      cases hp
  have hnew : ∀ u ∈ s.planHints req, u.requestId = req.requestId ∧
      u.specRound = req.specRound + 1 ∧
      (u.hint = computeEntropyHint (s.plannedRequest req) ↔ u.consumer ≠ .edc) ∧
      (u.consumer = .edc → s.consultsEdc = true) := by
    intro u hu
    unfold planHints at hu
    dsimp only at hu
    rcases List.mem_append.mp hu with hu | hu
    · split at hu
      · next hedc =>
          cases List.mem_singleton.mp hu
          exact ⟨rfl, rfl, by simp [hdiffer], fun _ => hedc⟩
      · cases hu
    · rcases List.mem_cons.mp hu with rfl | hu
      · exact ⟨rfl, rfl, by simp, fun h => by cases h⟩
      · split at hu
        · cases List.mem_singleton.mp hu
          exact ⟨rfl, rfl, by simp, fun h => by cases h⟩
        · cases hu
  refine ⟨fun u hu => ?_, fun id n p hp hedc => ?_, fun u hu hedc => ?_, fun id q hq hin => ?_⟩
  · rw [hhints] at hu
    rcases List.mem_append.mp hu with hu | hu
    · obtain ⟨k, e, hp, huse⟩ := H.used u hu
      exact ⟨k, e, hold _ _ _ hp, huse⟩
    · obtain ⟨hid, hround, huse, _⟩ := hnew u hu
      exact ⟨_, _, by rw [hplans, if_pos ⟨hid, hround⟩], huse⟩
  · rw [hplans] at hp
    rw [hhints]
    split at hp
    · next hkey =>
        refine ⟨⟨.edc, req.requestId, req.specRound + 1, computeEntropyHint req⟩,
          List.mem_append_right _ ?_, hkey.1.symm, hkey.2.symm, rfl⟩
        unfold planHints
        dsimp only
        rw [if_pos (C.consultsEdc_iff.mpr hedc)]
        exact List.mem_append_left _ (List.mem_singleton.mpr rfl)
    · obtain ⟨u, hu, huse⟩ := H.asked id n p hp hedc
      exact ⟨u, List.mem_append_left _ hu, huse⟩
  · rw [hhints] at hu
    rcases List.mem_append.mp hu with hu | hu
    · exact H.unasked u hu hedc
    · exact C.consultsEdc_iff.mp ((hnew u hu).2.2.2 hedc)
  · rw [hactive] at hq
    split at hq
    · next hid =>
        cases hq
        exact ⟨_, by rw [hplans, if_pos ⟨hid, rfl⟩]⟩
    · obtain ⟨k, hp⟩ := H.current id q hq hin
      exact ⟨k, hold _ _ _ hp⟩

/-- A task that leaves its request inside the round leaves its hint. -/
theorem TaskDone.hint {s : SpecDecodeScheduler} {req r : LangRequest} {info : ModelMeta}
    (htask : TaskDone s req info (some r)) (hin : r.InRound) :
    req.InRound ∧ r.specRound = req.specRound ∧ computeEntropyHint r = computeEntropyHint req := by
  obtain ⟨hin', _, rfl | rfl⟩ := htask.stays hin
  · exact ⟨hin', rfl, rfl⟩
  · exact ⟨hin', rfl, rfl⟩

/-- A task that samples is done inside the round. -/
theorem TaskDone.sampled {s : SpecDecodeScheduler} {req : LangRequest} {info : ModelMeta}
    {after : Option LangRequest} (htask : TaskDone s req info after) {u : HintUse}
    (hu : u ∈ taskHints req info) : req.InRound ∧
      u = ⟨.sample, req.requestId, req.specRound, computeEntropyHint req⟩ := by
  unfold taskHints at hu
  cases htask with
  | prompt hty => rw [hty] at hu; cases hu
  | draft hty => rw [hty] at hu; cases hu
  | verify hty hphase =>
      rw [hty] at hu
      exact ⟨.inr hphase, List.mem_singleton.mp hu⟩
  | retire hty hphase =>
      rw [hty] at hu
      exact ⟨.inr hphase, List.mem_singleton.mp hu⟩
  | preVerify hty hphase =>
      rw [hty] at hu
      exact ⟨.inr hphase, List.mem_singleton.mp hu⟩

/-- **Every move keeps the agreement.** -/
theorem HintsOk.move {c : Setup} {s s' : SpecDecodeScheduler} {e : List Event} (I : ProtocolOk s)
    (C : Configured c s) (H : HintsOk c s) (hm : Move s s' e) : HintsOk c s' := by
  cases hm with
  | minor s' hm =>
      refine H.frame (fun id n => ?_) (hm.hints.trans (List.append_nil _).symm)
        (fun u hu => absurd hu List.not_mem_nil) fun id r hr hin => ?_
      · unfold planOf
        rw [hm.traces]
      · rw [hm.active] at hr
        exact ⟨r, hr, hin, rfl, rfl⟩
  | admitOne r rest hq =>
      refine H.frame (fun id n => rfl) (List.append_nil _).symm
        (fun u hu => absurd hu List.not_mem_nil) fun id q hact hin => ?_
      rw [s.admit_lookup r rest] at hact
      split at hact
      · cases hact
        exact absurd hin (LangRequest.not_inRound (.inl rfl))
      · exact ⟨q, hact, hin, rfl, rfl⟩
  | plan req hact hrun hphase => exact H.plan I C hact
  | issue s₁ req req' model seqLength info built g hact hrun hprep hgen =>
      have L := hprep.launched hgen
      obtain ⟨v, hactive⟩ := L.active
      refine H.frame (fun id n => (rfl : _ = s₁.planOf id n).trans (I.prepared_planOf hact hprep id n))
        (L.hints.trans (List.append_nil _).symm) (fun u hu => absurd hu List.not_mem_nil)
        fun id q hq hin => ?_
      rw [hactive] at hq
      split at hq
      · next hid =>
          cases hq
          exact ⟨req, hid ▸ hact, hin, rfl, rfl⟩
      · exact ⟨q, hq, hin, rfl, rfl⟩
  | finish modelId info req hinfo hid hact htask =>
      refine H.frame (I.completed_plans hinfo hid hact) (s.completed_hintUses modelId req info)
        (fun u hu => ?_) fun id q hq hin => ?_
      · obtain ⟨hin, rfl⟩ := htask.sampled hu
        exact ⟨rfl, H.current _ req hact hin⟩
      · rw [s.completed_activeRequests modelId req info hid hact] at hq
        split at hq
        · next heq =>
            obtain ⟨r, hr, rfl⟩ := Option.map_eq_some_iff.mp hq
            obtain ⟨hin', hround, hhint⟩ := (hr ▸ htask).hint hin
            exact ⟨req, heq ▸ hact, hin', hround, hhint⟩
        · exact ⟨q, hq, hin, rfl, rfl⟩

end SpecDecodeScheduler

section

open SpecDecodeScheduler

variable {c : Setup} {s : SpecDecodeScheduler} {h : List Event}

theorem Setup.Reach.hints (ht : c.targetModel.isSome = true) (hr : c.Reach s h) : HintsOk c s := by
  refine hr.induct ht (P := fun s _ => HintsOk c s) (fun s₀ F => ⟨fun u hu => ?_, fun id n p hp => ?_,
    fun u hu => ?_, fun id r hact => ?_⟩) fun s h s' e I C H hm => H.move I C hm
  · rw [F.hints] at hu
    cases hu
  · rw [F.noPlan] at hp
    cases hp
  · rw [F.hints] at hu
    cases hu
  · rw [F.noActive] at hact
    cases hact

/-- **The consumers of a round's hint see one value exactly when EDC is not asked.** Every hand-over
    belongs to a round with a trace; all but EDC's have the value of the trace; and all have it only
    when the configuration does not ask EDC. -/
theorem entropy_hint_shared (hr : c.Reach s h) (id n : Nat) :
    (∀ u ∈ s.hintUses, u.requestId = id → u.specRound = n → ∃ k e, s.planOf id n = some (k, e) ∧
      (u.consumer ≠ .edc → u.hint = e)) ∧
    ∀ k e, s.planOf id n = some (k, e) →
      ((∀ u ∈ s.hintUses, u.requestId = id → u.specRound = n → u.hint = e) ↔
        ¬ (c.config.enableAhasd = true ∧ c.config.enableEdc = true)) := by
  cases ht : c.targetModel.isSome with
  | false =>
      have N := hr.fallback ht
      refine ⟨fun u hu => ?_, fun k e hp => ?_⟩
      · rw [N.hints] at hu
        cases hu
      · rw [N.noPlan] at hp
        cases hp
  | true =>
      have H := hr.hints ht
      refine ⟨fun u hu hid hn => ?_, fun k e hp => ⟨fun hall hedc => ?_, fun hoff u hu hid hn => ?_⟩⟩
      · obtain ⟨k, e, hp, huse⟩ := H.used u hu
        rw [hid, hn] at hp
        exact ⟨k, e, hp, huse.mpr⟩
      · -- the hand-over to EDC differs
        obtain ⟨u, hu, hid, hn, hconsumer⟩ := H.asked id n _ hp hedc
        obtain ⟨k', e', hp', huse⟩ := H.used u hu
        rw [hid, hn, hp] at hp'
        cases hp'
        exact huse.mp (hall u hu hid hn) hconsumer
      · obtain ⟨k', e', hp', huse⟩ := H.used u hu
        rw [hid, hn, hp] at hp'
        cases hp'
        exact huse.mpr fun hconsumer => hoff (H.unasked u hu hconsumer)

/-- The first round of a request: the sample of its verification has the entropy of the trace. -/
theorem entropy_hint_shared_sample : ∃ s h k e,
    (sampleSetup [⟨0, 4, 6, 1⟩] [(⟨0, 1⟩, ⟨3, 0, 3⟩)]).Reach s h ∧ s.planOf 0 1 = some (k, e) ∧
      ∃ u ∈ s.hintUses, u.consumer = .sample ∧ u.hint = e := by
  obtain ⟨s, h, hr, hfacts⟩ := Setup.exists_reach
    (c := sampleSetup [⟨0, 4, 6, 1⟩] [(⟨0, 1⟩, ⟨3, 0, 3⟩)]) (l := finishing [2, 3, 4, 5, 6])
    (p := fun r => r.1.hintUses.any fun u =>
      u.requestId = 0 ∧ u.specRound = 1 ∧ u.consumer = .sample) (by decide +kernel)
  obtain ⟨u, hu, huse⟩ := List.any_eq_true.mp hfacts
  obtain ⟨hid, hround, hsample⟩ := of_decide_eq_true huse
  obtain ⟨k, e, hp, hshared⟩ := (entropy_hint_shared hr 0 1).1 u hu hid hround
  exact ⟨s, h, k, e, hr, hp, u, hu, hsample, hshared (by rw [hsample]; simp)⟩

/-- In the first round of a request EDC sees another value than the trace. -/
theorem edc_hint_of_previous_round : ¬ ∀ s h u u',
    (sampleSetup [⟨0, 4, 6, 1⟩] [(⟨0, 1⟩, ⟨3, 0, 3⟩)]).Reach s h →
    u ∈ s.hintUses → u' ∈ s.hintUses → u.requestId = u'.requestId → u.specRound = u'.specRound →
    u.hint = u'.hint := by
  intro hclaim
  obtain ⟨s, h, hr, hfacts⟩ := Setup.exists_reach
    (c := sampleSetup [⟨0, 4, 6, 1⟩] [(⟨0, 1⟩, ⟨3, 0, 3⟩)]) (l := finishing [2] ++ [.cycle])
    (p := fun r => r.1.hintUses.any fun u => r.1.hintUses.any fun u' =>
      u.requestId = u'.requestId ∧ u.specRound = u'.specRound ∧ u.hint ≠ u'.hint)
    (by decide +kernel)
  obtain ⟨u, hu, hother⟩ := List.any_eq_true.mp hfacts
  obtain ⟨u', hu', hdiffer⟩ := List.any_eq_true.mp hother
  obtain ⟨hid, hround, hne⟩ := of_decide_eq_true hdiffer
  exact hne (hclaim s h u u' hr hu hu' hid hround)

end

end Ahasd
