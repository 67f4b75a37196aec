/-
  File:      Ahasd/Scheduler/Bypass.lean
  Subject:   THE WRITES THE SSRC BYPASS ABSORBS: whose they are.

  The bypass looks at the request of a write, not at its task. A deferral is active from the start
  of its round to the end of the verification, so the writes of the round's verification and
  pre-verification, and late writes of earlier tasks, meet it as well.

  * `IssuedFor`: every model of a history carries the request and the task of its record;
  * `SpecDecodeScheduler.MeetsDeferral`: the write finds a deferral it is no draft of;
  * `bypass_absorbs_drafts`: only drafts of the deferred round are absorbed, exactly when this does
    not happen.
-/
import Ahasd.KVWrites
import Ahasd.Scheduler.Deferral

namespace Ahasd

open Std Transition OrderedMap

/-- The models of a history are for one request each, and carry its id and the task of their
    record. -/
def IssuedFor (h : List Event) : Prop :=
  ∀ built info, .issued built info ∈ h → ∃ input : LangInput, built.reqs = [input] ∧
    input.requestId = info.requestId ∧ input.specTaskType = info.taskType.code

namespace SpecDecodeScheduler

theorem issuedFor_move {s s' : SpecDecodeScheduler} {h e : List Event} (J : IssuedFor h)
    (hm : Move s s' e) : IssuedFor (h ++ e) := by
  intro built info hmem
  rcases List.mem_append.mp hmem with hmem | hmem
  · exact J built info hmem
  · cases hm with
    | minor s' hm => cases hmem
    | admitOne r rest hq => cases hmem
    | plan req hact hrun hphase => cases List.mem_singleton.mp hmem
    | finish modelId info req hinfo hid hact htask => cases List.mem_singleton.mp hmem
    | issue s₁ req req' model seqLength info' built' g hact hrun hprep hgen =>
        cases List.mem_singleton.mp hmem
        obtain ⟨_, _, hreqs, _⟩ := LanguageModel.generateModel_spec hgen
        refine ⟨_, hreqs, ?_, rfl⟩
        rw [hprep.request.2, hprep.request.1]
        rfl

/-- The write reaches a PIM channel while a deferral of its request is active, and is not of a draft
    of the deferred round. -/
def MeetsDeferral (s : SpecDecodeScheduler) (p : PIMBackend) (cid : Nat) (access : MemoryAccess)
    (round : Nat) : Prop :=
  p.active = true ∧ p.isPimChannel cid = true ∧ p.ssrcBypassNpuCycles ≠ 0 ∧
    access.requestId ≠ invalidRequestId ∧
    ∃ n, s.ssrcDeferredRound[access.requestId]? = some n ∧
      ¬ (access.specTaskType = LangTaskType.draft.code ∧ n = round)

/-- A request has an active deferral exactly when its round is in the scheduler's map. -/
theorem DeferralOk.active_iff {s : SpecDecodeScheduler} {c : SSRCCoordinator} (D : DeferralOk s c)
    (id : Nat) : c.isActiveRequest id = true ↔ ∃ n, s.ssrcDeferredRound[id]? = some n := by
  have hkey := D.keys id
  unfold SSRCCoordinator.isActiveRequest
  rw [Bool.and_eq_true, TreeMap.contains_eq_isSome_getElem?, ← hkey]
  constructor
  · rintro ⟨_, hsome⟩
    obtain ⟨rec, hrec⟩ := Option.isSome_iff_exists.mp hsome
    exact ⟨rec.specRound, by rw [hrec]; rfl⟩
  · rintro ⟨n, hn⟩
    obtain ⟨rec, hrec, _⟩ := Option.map_eq_some_iff.mp hn
    exact ⟨D.enabled id rec hrec, by rw [hrec]; rfl⟩

/-- A task in flight under a deferral is of the deferred round, and not the prompt's. -/
theorem DeferralOk.in_flight {s : SpecDecodeScheduler} {c : SSRCCoordinator} (I : ProtocolOk s)
    (D : DeferralOk s c) {modelId : Nat} {info : ModelMeta}
    (hinfo : s.modelMeta[modelId]? = some info) {n : Nat}
    (hn : s.ssrcDeferredRound[info.requestId]? = some n) :
    info.verifyRound = n ∧
      (info.taskType = .draft ∨ info.taskType = .verify ∨ info.taskType = .preVerify) := by
  obtain ⟨_, r, hact, _, htask⟩ := I.tasks _ _ hinfo
  rw [← D.keys] at hn
  obtain ⟨rec, hrec, rfl⟩ := Option.map_eq_some_iff.mp hn
  obtain ⟨q, hq, hok⟩ := D.records _ _ hrec
  rw [hact, Option.some.injEq] at hq
  subst hq
  unfold TaskOk at htask
  cases hty : info.taskType with
  | autoreg =>
      rw [hty] at htask
      exact htask.elim
  | prompt =>
      rw [hty] at htask
      exact absurd hok.inRound (LangRequest.not_inRound (.inl htask.1))
  | draft =>
      rw [hty] at htask
      exact ⟨htask.2.2.trans hok.round, .inl rfl⟩
  | verify =>
      rw [hty] at htask
      exact ⟨htask.2.2.trans hok.round, .inr (.inl rfl)⟩
  | preVerify =>
      rw [hty] at htask
      exact ⟨htask.2.2.1.trans hok.round, .inr (.inr rfl)⟩

end SpecDecodeScheduler

section

open SpecDecodeScheduler

variable {c : Setup} {s : SpecDecodeScheduler} {h : List Event}

theorem Setup.Reach.issuedFor (hr : c.Reach s h) : IssuedFor h := by
  cases ht : c.targetModel.isSome with
  | true =>
      exact hr.induct ht (P := fun _ h => IssuedFor h)
        (fun _ _ _ _ hmem => absurd hmem List.not_mem_nil) fun _ _ _ _ _ _ J hm => issuedFor_move J hm
  | false =>
      intro built info hmem
      obtain ⟨ev, hev, _⟩ := (hr.fallback ht).autoreg _ hmem
      cases hev

/-- **The writes the bypass absorbs**, in every reachable state, for every key/value write of every
    model issued so far, and for whatever state the PIM backend is in: the write is absorbed only as
    a draft's write of the deferred round exactly when it does not meet a deferral it is no draft
    of. While the model is in flight that means: exactly when it is not a verification or
    pre-verification of the deferred round. -/
theorem bypass_absorbs_drafts (hr : c.Reach s h) {built : Model} {info : ModelMeta}
    (hi : .issued built info ∈ h) {access : MemoryAccess} (hw : built.KvWrite access)
    {coord : SSRCCoordinator} (hc : s.ssrc = some coord) (p : PIMBackend) (cid : Nat) :
    (((p.trySsrcBypass coord cid access).1 = true →
        access.specTaskType = LangTaskType.draft.code ∧ info.taskType = .draft ∧
          s.ssrcDeferredRound[access.requestId]? = some info.verifyRound) ↔
      ¬ s.MeetsDeferral p cid access info.verifyRound) ∧
    ∀ modelId n : Nat, s.modelMeta[modelId]? = some info →
      s.ssrcDeferredRound[access.requestId]? = some n →
        n = info.verifyRound ∧
          (info.taskType = .draft ∨ info.taskType = .verify ∨ info.taskType = .preVerify) := by
  obtain ⟨input, hreqs, hid, htask⟩ := hr.issuedFor built info hi
  obtain ⟨hwrite, htagged, hrequest, hspec⟩ := hw.tags hreqs
  obtain ⟨coord', hc', D⟩ := hr.deferrals
  rw [hc, Option.some.injEq] at hc'
  subst hc'
  have hdraft : access.specTaskType = LangTaskType.draft.code ↔ info.taskType = .draft := by
    rw [hspec, htask]
    cases info.taskType <;> decide
  refine ⟨?_, fun modelId n hinfo hn => ?_⟩
  · rw [p.trySsrcBypass_absorbs cid access coord, D.active_iff]
    constructor
    · rintro honly ⟨hon, hpim, hcycles, hvalid, n, hn, hforeign⟩
      obtain ⟨hkind, _, hround⟩ := honly ⟨hon, hpim, hcycles, ⟨hwrite, htagged⟩, hvalid, n, hn⟩
      rw [hn, Option.some.injEq] at hround
      exact hforeign ⟨hkind, hround⟩
    · rintro hno ⟨hon, hpim, hcycles, _, hvalid, n, hn⟩
      have hown : access.specTaskType = LangTaskType.draft.code ∧ n = info.verifyRound := by
        by_contra hforeign
        exact hno ⟨hon, hpim, hcycles, hvalid, n, hn, hforeign⟩
      exact ⟨hown.1, hdraft.mp hown.1, hown.2 ▸ hn⟩
  · cases ht : c.targetModel.isSome with
    | true =>
        obtain ⟨I, _⟩ := hr.inv ht
        rw [hrequest, hid] at hn
        obtain ⟨hround, hkind⟩ := D.in_flight I hinfo hn
        exact ⟨hround.symm, hkind⟩
    | false => exact absurd ((hr.fallback ht).noModel modelId) (by rw [hinfo]; simp)

/-- A key/value write of the model, of request 0, to channel 0. -/
def sampleWrite (built : Model) : MemoryAccess :=
  match LanguageModel.annotateSpecTaskType built.reqs
      (KVCacheConcat.kvStores built.reqs [[0]] [] 0) with
  | inst :: _ => Core.storeAccess inst 0 0 32 0
  | [] => ⟨0, 0, 0, false, false, 0, 0, false, 0⟩

theorem sampleWrite_kvWrite {built : Model} {input : LangInput} (h : built.reqs = [input]) :
    built.KvWrite (sampleWrite built) := by
  refine ⟨[[0]], [], 0, ?_⟩
  unfold sampleWrite
  rw [h]
  exact ⟨_, List.mem_cons_self, 0, List.mem_cons_self, 0, 32, 0, rfl⟩

/-- The last draft of a deferred round is issued: its writes are absorbed, and may be. -/
theorem bypass_absorbs_drafts_sample : ∃ s h built info p coord,
    (deferringSetup [⟨0, 4, 6, 1⟩] [(⟨0, 1⟩, ⟨3, 0, 2⟩)]).Reach s h ∧ .issued built info ∈ h ∧
      (p.trySsrcBypass coord 0 (sampleWrite built)).1 = true ∧
      ¬ s.MeetsDeferral p 0 (sampleWrite built) info.verifyRound := by
  obtain ⟨s, h, hr, hfacts⟩ := Setup.exists_reach
    (c := deferringSetup [⟨0, 4, 6, 1⟩] [(⟨0, 1⟩, ⟨3, 0, 2⟩)])
    (l := finishing [2, 3, 4] ++ [.cycle])
    (p := fun r => r.2.any <| Event.issuedWith fun built info =>
      r.1.pim.any fun p => r.1.ssrc.any fun coord =>
        (p.trySsrcBypass coord 0 (sampleWrite built)).1 && decide (info.taskType = .draft ∧
          (sampleWrite built).specTaskType = LangTaskType.draft.code ∧
          built.reqs.length = 1 ∧
          r.1.ssrcDeferredRound[(sampleWrite built).requestId]? = some info.verifyRound))
    (by decide +kernel)
  obtain ⟨built, info, hx, hfacts⟩ := Event.exists_issued hfacts
  obtain ⟨p, hp, hfacts⟩ := (Option.any_eq_true _ _).mp hfacts
  obtain ⟨coord, hc, hfacts⟩ := (Option.any_eq_true _ _).mp hfacts
  obtain ⟨habsorbed, hfacts⟩ := Bool.and_eq_true_iff.mp hfacts
  obtain ⟨hdraft, hkind, hone, hround⟩ := of_decide_eq_true hfacts
  obtain ⟨input, hreqs⟩ := List.length_eq_one_iff.mp hone
  obtain ⟨hiff, _⟩ := bypass_absorbs_drafts hr hx (sampleWrite_kvWrite hreqs) hc p 0
  exact ⟨s, h, built, info, p, coord, hr, hx, habsorbed,
    hiff.mp fun _ => ⟨hkind, hdraft, hround⟩⟩

/-- **The verification of a deferred round has its writes absorbed.** -/
theorem verification_absorbed : ¬ ∀ (c : Setup) (s : SpecDecodeScheduler) (h : List Event)
    (built : Model) (info : ModelMeta) (access : MemoryAccess) (p : PIMBackend)
    (coord : SSRCCoordinator) (cid : Nat), c.Reach s h → .issued built info ∈ h →
    built.KvWrite access → s.pim = some p → s.ssrc = some coord →
    (p.trySsrcBypass coord cid access).1 = true →
      access.specTaskType = LangTaskType.draft.code := by
  intro hclaim
  obtain ⟨s, h, hr, hfacts⟩ := Setup.exists_reach
    (c := deferringSetup [⟨0, 4, 6, 1⟩] [(⟨0, 1⟩, ⟨3, 0, 2⟩)])
    (l := finishing [2, 3, 4, 5] ++ [.cycle])
    (p := fun r => r.2.any <| Event.issuedWith fun built info =>
      r.1.pim.any fun p => r.1.ssrc.any fun coord =>
        (p.trySsrcBypass coord 0 (sampleWrite built)).1 && decide (info.taskType = .verify ∧
          (sampleWrite built).specTaskType ≠ LangTaskType.draft.code ∧ built.reqs.length = 1))
    (by decide +kernel)
  obtain ⟨built, info, hx, hfacts⟩ := Event.exists_issued hfacts
  obtain ⟨p, hp, hfacts⟩ := (Option.any_eq_true _ _).mp hfacts
  obtain ⟨coord, hc, hfacts⟩ := (Option.any_eq_true _ _).mp hfacts
  obtain ⟨habsorbed, hfacts⟩ := Bool.and_eq_true_iff.mp hfacts
  obtain ⟨_, hkind, hone⟩ := of_decide_eq_true hfacts
  obtain ⟨input, hreqs⟩ := List.length_eq_one_iff.mp hone
  exact hkind (hclaim _ s h built info _ p coord 0 hr hx (sampleWrite_kvWrite hreqs) hp hc
    habsorbed)

end

end Ahasd
