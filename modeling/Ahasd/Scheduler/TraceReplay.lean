/-
  File:      Ahasd/Scheduler/TraceReplay.lean
  Subject:   A GENERATED TRACE IN THE SCHEDULER: which row decides which round.

  The generator counts its rows from 0, the scheduler its rounds from 1, and the trace is looked up
  by the round.

  * `plannedRounds`, `verifiedRounds`: the rounds of a request in a run, numbered 1, 2, …
    (`Numbered`);
  * `TakesRow`, `RowsInOrder`: a round takes its acceptance from a row; each takes its own;
  * **`generated_rows_shifted`**: no round takes its row, and each takes that of the next.
-/
import Ahasd.Scheduler.Solo
import Ahasd.TraceRoundTrip

namespace Ahasd

open Std Transition OrderedMap AcceptanceTrace

/-! ## 1. The rounds of a request, numbered -/

/-- The rounds a request plans, in order. -/
def plannedRounds (id : Nat) (h : List Event) : List Nat :=
  h.filterMap fun
    | .planned requestId specRound _ _ => if requestId = id then some specRound else none
    | _ => none

/-- The rounds of a request that are verified, in order. -/
def verifiedRounds (id : Nat) (h : List Event) : List Nat :=
  ((completions id h).filter fun e => e.taskType = .verify).map LangStepEvent.specRound

/-- The rounds a request has finished. -/
def LangRequest.finishedRounds (r : LangRequest) : Nat :=
  match r.specPhase with
  | .drafting => r.specRound - 1
  | .awaitVerify => r.specRound - 1
  | _ => r.specRound

namespace SpecDecodeScheduler

section Numbered

variable {id : Nat} {s s' : SpecDecodeScheduler} {h e : List Event} {planned verified : List Nat}

@[simp] theorem plannedRounds_issued (built : Model) (info : ModelMeta) :
    plannedRounds id (h ++ [.issued built info]) = plannedRounds id h :=
  List.filterMap_append.trans (List.append_nil _)

@[simp] theorem plannedRounds_finished (e : LangStepEvent) :
    plannedRounds id (h ++ [.finished e]) = plannedRounds id h :=
  List.filterMap_append.trans (List.append_nil _)

theorem plannedRounds_planned (requestId specRound : Nat) (hint : ℚ) (preds : List (Nat × Bool)) :
    plannedRounds id (h ++ [.planned requestId specRound hint preds]) =
      plannedRounds id h ++ if requestId = id then [specRound] else [] := by
  refine List.filterMap_append.trans (congrArg (_ ++ ·) ?_)
  by_cases heq : requestId = id <;> simp [heq]

@[simp] theorem verifiedRounds_issued (built : Model) (info : ModelMeta) :
    verifiedRounds id (h ++ [.issued built info]) = verifiedRounds id h := by
  unfold verifiedRounds
  rw [completions_issued]

@[simp] theorem verifiedRounds_planned (requestId specRound : Nat) (hint : ℚ)
    (preds : List (Nat × Bool)) :
    verifiedRounds id (h ++ [.planned requestId specRound hint preds]) = verifiedRounds id h := by
  unfold verifiedRounds
  rw [completions_planned]

theorem verifiedRounds_finished (e : LangStepEvent) : verifiedRounds id (h ++ [.finished e]) =
    verifiedRounds id h ++
      if e.requestId = id ∧ e.taskType = .verify then [e.specRound] else [] := by
  unfold verifiedRounds
  rw [completions_finished, List.filter_append, List.map_append]
  refine congrArg (_ ++ ·) ?_
  by_cases hid : e.requestId = id
  · by_cases hty : e.taskType = .verify <;> simp [hid, hty]
  · simp [hid]

/-- **The rounds are planned and verified as 1, 2, …**; an active request is in the last planned
    one, or behind it. -/
structure Numbered (id : Nat) (s : SpecDecodeScheduler) (planned verified : List Nat) : Prop where
  active : ∀ r : LangRequest, s.activeRequests[id]? = some r →
    planned = List.range' 1 r.specRound ∧ verified = List.range' 1 r.finishedRounds
  queued : ∀ q ∈ s.requestQueue, q.requestId = id → planned = [] ∧ verified = []
  counted : ∃ m n, planned = List.range' 1 m ∧ verified = List.range' 1 n

/-- **What a finished task adds to the rounds of its request.** -/
theorem TaskDone.rounds {req : LangRequest} {info : ModelMeta} {after : Option LangRequest}
    (h : TaskDone s req info after) : ∃ m,
    (List.range' 1 req.finishedRounds ++
        if info.taskType = .verify then [info.verifyRound] else []) = List.range' 1 m ∧
      ∀ r, after = some r → r.specRound = req.specRound ∧ r.finishedRounds = m := by
  have hverified : req.specPhase = .awaitVerify → info.verifyRound = req.specRound →
      1 ≤ req.specRound → List.range' 1 req.finishedRounds ++ [info.verifyRound] =
        List.range' 1 req.specRound := by
    intro hphase hround hpos
    unfold LangRequest.finishedRounds
    rw [hphase, hround]
    obtain ⟨n, hn⟩ := Nat.exists_eq_add_of_le' hpos
    rw [hn]
    show List.range' 1 (n + 1 - 1) ++ [n + 1] = List.range' 1 (n + 1)
    rw [Nat.add_sub_cancel, List.range'_concat, Nat.add_comm 1]
    simp
  cases h with
  | prompt hty hphase hround =>
      refine ⟨req.finishedRounds, by rw [hty, if_neg (by decide), List.append_nil], ?_⟩
      rintro r ⟨⟩
      refine ⟨rfl, ?_⟩
      unfold LangRequest.finishedRounds
      rw [hphase]
      rfl
  | draft hty hphase hround hpos hlength hlt =>
      refine ⟨req.finishedRounds, by rw [hty, if_neg (by decide), List.append_nil], ?_⟩
      rintro r ⟨⟩
      refine ⟨rfl, ?_⟩
      unfold LangRequest.finishedRounds draftedRequest LangRequest.resizeCache
      rw [hphase]
      dsimp only
      by_cases hlast : req.draftedInRound + 1 ≥ req.plannedDraftLength
      · rw [if_pos hlast]
      · rw [if_neg hlast]
  | verify hty hphase hround hpos hlength hdrafted hplanned hnext =>
      refine ⟨req.specRound, by rw [hty, if_pos rfl, hverified hphase hround hpos], ?_⟩
      rintro r ⟨⟩
      have hsame := (s.applyVerifyResult_round req (s.acceptedBy req info)).1
      refine ⟨hsame, ?_⟩
      unfold LangRequest.finishedRounds
      rw [hnext]
      exact hsame
  | retire hty hphase hround hpos =>
      exact ⟨req.specRound, by rw [hty, if_pos rfl, hverified hphase hround hpos],
        fun r hr => absurd hr.symm (Option.some_ne_none r)⟩
  | preVerify hty =>
      refine ⟨req.finishedRounds, by rw [hty, if_neg (by decide), List.append_nil], ?_⟩
      rintro r ⟨⟩
      exact ⟨rfl, rfl⟩

theorem Numbered.admitOne (N : Numbered id s planned verified) {r : LangRequest}
    {rest : List LangRequest} (hq : s.requestQueue = r :: rest) :
    Numbered id
      { s with toLangScheduler := s.toLangScheduler.admitOne (prepareRequest true) r rest }
      planned verified := by
  have hactive := s.admit_lookup r rest id
  refine ⟨fun q hqa => ?_, fun q hqq => N.queued q (hq ▸ List.mem_cons_of_mem r hqq), N.counted⟩
  rw [hactive] at hqa
  split at hqa
  · next hid =>
      cases hqa
      obtain ⟨rfl, rfl⟩ := N.queued r (hq ▸ List.mem_cons_self) hid.symm
      exact ⟨rfl, rfl⟩
  · exact N.active q hqa

theorem Numbered.finish (I : ProtocolOk s)
    (N : Numbered id s (plannedRounds id h) (verifiedRounds id h)) {modelId : Nat}
    {info : ModelMeta} {req : LangRequest}
    (hid : info.requestId = req.requestId) (hact : s.activeRequests[req.requestId]? = some req)
    (htask : TaskDone s req info (s.afterTask req info)) :
    Numbered id (s.completed modelId req info).2
      (plannedRounds id (h ++ [.finished (s.completed modelId req info).1]))
      (verifiedRounds id (h ++ [.finished (s.completed modelId req info).1])) := by
  have hactive := s.completed_activeRequests modelId req info hid hact id
  have hqueue := s.completed_requestQueue modelId req info
  obtain ⟨heid, hety, heround, _⟩ := s.completed_event modelId req info
  rw [plannedRounds_finished, verifiedRounds_finished, heid, hety, heround]
  by_cases hreq : id = req.requestId
  · subst hreq
    obtain ⟨hplanned, hverified⟩ := N.active req hact
    obtain ⟨m, hm, hafter⟩ := htask.rounds
    simp only [true_and]
    rw [hverified, hm]
    refine ⟨fun r hr => ?_, fun q hq heq => ?_, ⟨_, _, hplanned, rfl⟩⟩
    · rw [hactive, if_pos rfl] at hr
      obtain ⟨r', hr', rfl⟩ := Option.map_eq_some_iff.mp hr
      obtain ⟨hround, hcount⟩ := hafter r' hr'
      rw [← hround] at hplanned
      rw [← hcount]
      exact ⟨hplanned, rfl⟩
    · rw [hqueue] at hq
      exact absurd ((I.requests _ _ hact).admitted q hq) (heq ▸ Nat.lt_irrefl _)
  · rw [if_neg fun hboth => hreq hboth.1.symm, List.append_nil]
    rw [if_neg hreq] at hactive
    refine ⟨?_, ?_, N.counted⟩
    · rw [hactive]
      exact N.active
    · rw [hqueue]
      exact N.queued

/-- **Every move keeps the numbering.** -/
theorem Numbered.move (I : ProtocolOk s)
    (N : Numbered id s (plannedRounds id h) (verifiedRounds id h)) (hm : Move s s' e) :
    Numbered id s' (plannedRounds id (h ++ e)) (verifiedRounds id (h ++ e)) := by
  cases hm with
  | minor s' hm =>
      rw [List.append_nil]
      refine ⟨?_, ?_, N.counted⟩
      · rw [hm.active]
        exact N.active
      · rw [hm.queue]
        exact N.queued
  | admitOne r rest hq =>
      rw [List.append_nil]
      exact N.admitOne hq
  | plan req hact hrun hphase =>
      have hactive := s.planRound_lookup req id
      obtain ⟨_, hqueue, _⟩ := s.planRound_frame req
      rw [plannedRounds_planned, verifiedRounds_planned]
      by_cases hreq : id = req.requestId
      · subst hreq
        obtain ⟨hplanned, hverified⟩ := N.active req hact
        have hnext : List.range' 1 req.specRound ++ [req.specRound + 1] =
            List.range' 1 (req.specRound + 1) := by
          rw [List.range'_concat, Nat.mul_comm, Nat.mul_one, Nat.add_comm 1]
        rw [if_pos rfl, hplanned, hverified, hnext]
        refine ⟨fun r hr => ?_, fun q hq heq => ?_, ⟨_, _, rfl, rfl⟩⟩
        · rw [hactive, if_pos rfl] at hr
          cases hr
          refine ⟨rfl, ?_⟩
          unfold LangRequest.finishedRounds
          rw [hphase]
          rfl
        · rw [hqueue] at hq
          exact absurd ((I.requests _ _ hact).admitted q hq) (heq ▸ Nat.lt_irrefl _)
      · rw [if_neg (Ne.symm hreq), List.append_nil]
        rw [if_neg hreq] at hactive
        refine ⟨?_, ?_, N.counted⟩
        · rw [hactive]
          exact N.active
        · rw [hqueue]
          exact N.queued
  | issue s₁ req req' model seqLength info built g hact hrun hprep hgen =>
      have L := hprep.launched hgen
      obtain ⟨v, hactive⟩ := L.active
      rw [plannedRounds_issued, verifiedRounds_issued]
      refine ⟨fun r hr => ?_, ?_, N.counted⟩
      · rw [hactive] at hr
        split at hr
        · next hid =>
            cases hr
            exact N.active req (hid ▸ hact)
        · exact N.active r hr
      · rw [L.queue]
        exact N.queued
  | finish modelId info req hinfo hid hact htask => exact N.finish I hid hact htask

end Numbered

end SpecDecodeScheduler

/-! ## 2. What the verifications accept -/

section

open SpecDecodeScheduler

variable {c : Setup} {s s' : SpecDecodeScheduler} {h e : List Event}

/-- Every verification of the history accepts what the model samples for its round. -/
def Sampled (c : Setup) (h : List Event) : Prop :=
  ∀ (id : Nat) (e : LangStepEvent), e ∈ completions id h → e.taskType = .verify → ∃ hint : ℚ,
    e.acceptedLength = min (max 1 e.draftLength)
      (c.roundSettings.acceptModel.sample id e.specRound (max 1 e.draftLength) hint)

/-- A finished verification accepts what the model samples. -/
theorem Sampled.finish (S : Sampled c h) (hsettings : s.roundSettings = c.roundSettings)
    {modelId : Nat} {info : ModelMeta} {req : LangRequest}
    (htask : TaskDone s req info (s.afterTask req info)) :
    Sampled c (h ++ [.finished (s.completed modelId req info).1]) := by
  obtain ⟨heid, hety, heround, helength, _, haccepted, _⟩ := s.completed_event modelId req info
  intro id ev hev hty
  rw [completions_finished] at hev
  rcases List.mem_append.mp hev with hev | hev
  · exact S id ev hev hty
  · split at hev
    · next hid =>
        obtain rfl := List.mem_singleton.mp hev
        rw [hety] at hty
        have hround : info.verifyRound = req.specRound := by
          rcases htask.round with ⟨hprompt, _⟩ | ⟨hround, _⟩
          · rw [hty] at hprompt
            cases hprompt
          · exact hround
        refine ⟨computeEntropyHint req, ?_⟩
        rw [haccepted (.inl hty), heround, helength, hround, ← hid, heid, ← hsettings]
        rfl
    · cases hev

/-- **Every move keeps it.** -/
theorem Sampled.move (S : Sampled c h) (hsettings : s.roundSettings = c.roundSettings)
    (hm : Move s s' e) : Sampled c (h ++ e) := by
  cases hm with
  | minor => rwa [List.append_nil]
  | admitOne => rwa [List.append_nil]
  | plan req =>
      intro id ev hev
      rw [completions_planned] at hev
      exact S id ev hev
  | issue =>
      intro id ev hev
      rw [completions_issued] at hev
      exact S id ev hev
  | finish modelId info req hinfo hid hact htask => exact S.finish hsettings htask

/-- **In every run the rounds are numbered**, and the verifications accept what the model samples
    for them. -/
theorem Setup.Reach.numbered (id : Nat) (hr : c.Reach s h) :
    (∃ m n, plannedRounds id h = List.range' 1 m ∧ verifiedRounds id h = List.range' 1 n) ∧
      Sampled c h := by
  cases ht : c.targetModel.isSome with
  | false =>
      have N := hr.fallback ht
      have hplanned : plannedRounds id h = [] := by
        refine List.filterMap_eq_nil_iff.mpr fun x hx => ?_
        obtain ⟨ev, rfl, _⟩ := N.autoreg x hx
        rfl
      have hverified : verifiedRounds id h = [] := by
        refine List.map_eq_nil_iff.mpr (List.filter_eq_nil_iff.mpr fun ev hev => ?_)
        rw [N.completions hev]
        decide
      refine ⟨⟨0, 0, hplanned, hverified⟩, fun id ev hev hty => ?_⟩
      rw [N.completions hev] at hty
      cases hty
  | true =>
      obtain ⟨s₀, hstart, hexec⟩ := hr
      have F := Setup.start_fresh hstart
      have hrule : ∀ s h s' e, ProtocolOk s → Configured c s →
          s.roundSettings = c.roundSettings ∧
            Numbered id s (plannedRounds id h) (verifiedRounds id h) ∧ Sampled c h →
          Rule s s' e → s'.roundSettings = c.roundSettings ∧
            Numbered id s' (plannedRounds id (h ++ e)) (verifiedRounds id (h ++ e)) ∧
            Sampled c (h ++ e) := by
        rintro s h s' e I C ⟨hsettings, N, S⟩ hs
        have hm := I.move hs
        exact ⟨hs.roundSettings.trans hsettings, N.move I hm, S.move hsettings hm⟩
      have hfirst : Numbered id s₀ [] [] := by
        refine ⟨fun r hact => ?_, fun q hq heq => ⟨rfl, rfl⟩, ⟨0, 0, rfl, rfl⟩⟩
        rw [F.noActive] at hact
        cases hact
      obtain ⟨_, _, _, N, S⟩ := exec_rules hrule (F.protocolOk ht) F.configured
        ⟨Setup.start_roundSettings hstart, hfirst, fun _ _ hev => absurd hev List.not_mem_nil⟩ hexec
      exact ⟨N.counted, S⟩

end

/-! ## 3. The rows of a generated trace -/

section

open SpecDecodeScheduler

variable {c : Setup} {s : SpecDecodeScheduler} {h : List Event}

/-- The verification takes its acceptance from the row: the row's entry is the one the trace gives
    for its round. -/
def TakesRow (acceptRows : List (TraceKey × TraceRow)) (requestId : Option Int)
    (e : LangStepEvent) (r : TraceLine) : Prop :=
  ∃ row, parseTraceLine (r.line requestId) = some (⟨e.requestId, e.specRound⟩, row) ∧
    acceptRows.lookup ⟨e.requestId, e.specRound⟩ = some row ∧
    e.acceptedLength = min row.acceptedLength (max 1 e.draftLength)

/-- The n-th round of request 0 takes its acceptance from the n-th row, as long as there are
    rows. -/
def RowsInOrder (acceptRows : List (TraceKey × TraceRow)) (requestId : Option Int)
    (rows : List TraceLine) (h : List Event) : Prop :=
  ∀ e ∈ completions 0 h, e.taskType = .verify → ∀ r, rows[e.specRound - 1]? = some r →
    TakesRow acceptRows requestId e r

theorem generateRows_get (rounds : Nat) (draw : Nat → Nat × ℚ × Nat) (n : Nat) :
    (generateRows rounds draw)[n]? =
      if n < rounds then some ⟨n, (draw n).1, (draw n).2.1, (draw n).2.2⟩ else none := by
  unfold generateRows
  rw [List.getElem?_map]
  split
  · next hlt => rw [List.getElem?_range hlt, Option.map_some]
  · next hge => rw [List.getElem?_eq_none (by simpa using hge), Option.map_none]

/-- The first round does not take the first row: its key is another. -/
theorem not_takesRow_first {acceptRows : List (TraceKey × TraceRow)} {requestId : Option Int}
    {e : LangStepEvent} {r : TraceLine} (he : e.specRound = 1) (hr : r.round = 0) :
    ¬ TakesRow acceptRows requestId e r := by
  rintro ⟨row, hparse, _⟩
  have hround := TraceLine.parse_round hparse
  rw [hr] at hround
  exact absurd (he.symm.trans hround) (by decide)

/-- **What the scheduler finds for a round**: the row after it, and nothing behind the last. -/
theorem lookup_generated {provenance : Option Provenance}
    (hp : ∀ p ∈ provenance, OneLine p.modelPair) {requestId : Option Int}
    (hid : ∀ id ∈ requestId, id = 0) {rounds : Nat} {draw : Nat → Nat × ℚ × Nat}
    (hfit : ∀ r ∈ generateRows rounds draw, r.Fits) (n : Nat) :
    (loadTraceCsv (writeTrace provenance requestId (generateRows rounds draw))).lookup ⟨0, n⟩ =
      (generateRows rounds draw)[n]?.map fun r =>
        ⟨r.draftLength, Text.roundTo 4 r.avgEntropy, r.acceptedLength⟩ := by
  have hzero : (requestId.getD 0).toNat = 0 := by
    cases requestId with
    | none => rfl
    | some id => rw [hid id rfl]; rfl
  have hrange : ∀ id ∈ requestId, 0 ≤ id ∧ id < 2 ^ 32 := by
    intro id hmem
    obtain rfl := hid id hmem
    decide
  have hrounds : (generateRows rounds draw).map TraceLine.round = List.range rounds := by
    unfold generateRows
    rw [List.map_map]
    exact List.map_id _
  have hget := generateRows_get rounds draw n
  rw [loadTraceCsv_fits hp hrange hfit, hzero]
  by_cases hlt : n < rounds
  · rw [if_pos hlt] at hget
    rw [hget, Option.map_some]
    exact lookup_entries 0 (hrounds ▸ List.nodup_range) (List.mem_of_getElem? hget)
  · rw [if_neg hlt] at hget
    rw [hget, Option.map_none, List.lookup_eq_none_iff]
    intro x hx
    obtain ⟨r, hr, rfl⟩ := List.mem_map.mp (List.mem_reverse.mp hx)
    have hmem : r.round ∈ List.range rounds := hrounds ▸ List.mem_map.mpr ⟨r, hr, rfl⟩
    refine bne_iff_ne.mpr fun heq => hlt ?_
    rw [show n = r.round from congrArg TraceKey.specRound heq]
    exact List.mem_range.mp hmem

/-- **A generated trace is replayed one row off.** The rounds of request 0 are planned and verified
    as 1, 2, …, and none of them takes its row: the rows are in order only in runs that verify no
    round of it, or without rows. When the rows fit their fields, round n accepts what row n + 1
    says, and the round of the last row finds none. -/
theorem generated_rows_shifted {provenance : Option Provenance} {requestId : Option Int}
    {rounds : Nat} {draw : Nat → Nat × ℚ × Nat} (hmode : c.config.acceptMode = "trace_replay")
    (hrows : c.acceptRows =
      loadTraceCsv (writeTrace provenance requestId (generateRows rounds draw)))
    (hr : c.Reach s h) :
    (∃ m n, plannedRounds 0 h = List.range' 1 m ∧ verifiedRounds 0 h = List.range' 1 n) ∧
      (RowsInOrder c.acceptRows requestId (generateRows rounds draw) h ↔
        rounds = 0 ∨ verifiedRounds 0 h = []) ∧
      ((∀ p ∈ provenance, OneLine p.modelPair) → (∀ id ∈ requestId, id = 0) →
        (∀ r ∈ generateRows rounds draw, r.Fits) →
        ∀ e ∈ completions 0 h, e.taskType = .verify →
          (e.specRound < rounds →
            e.acceptedLength = min (draw e.specRound).2.2 (max 1 e.draftLength)) ∧
          (rounds ≤ e.specRound → c.acceptRows.lookup ⟨0, e.specRound⟩ = none)) := by
  obtain ⟨hnumbered, S⟩ := hr.numbered 0
  refine ⟨hnumbered, ⟨fun hin => ?_, fun hnone => ?_⟩, fun hp hid hfit e he hty => ?_⟩
  · -- a verified round means that the first one is
    obtain ⟨_, n, _, hverified⟩ := hnumbered
    by_contra hboth
    obtain ⟨hpos, hne⟩ := not_or.mp hboth
    have hone : 1 ∈ verifiedRounds 0 h := by
      rw [hverified] at hne ⊢
      refine List.mem_range'_1.mpr ⟨Nat.le_refl 1, ?_⟩
      have hn : n ≠ 0 := fun hzero => hne (by rw [hzero]; rfl)
      omega
    obtain ⟨e, he, hround⟩ := List.mem_map.mp hone
    obtain ⟨he, hty⟩ := List.mem_filter.mp he
    have hget := generateRows_get rounds draw 0
    rw [if_pos (Nat.pos_of_ne_zero hpos)] at hget
    exact not_takesRow_first hround rfl
      (hin e he (of_decide_eq_true hty) _ (by rw [hround]; exact hget))
  · intro e he hty r hr
    rcases hnone with rfl | hnone
    · cases hr
    · exact absurd (List.mem_map.mpr ⟨e, List.mem_filter.mpr ⟨he, decide_eq_true hty⟩, rfl⟩)
        (hnone ▸ List.not_mem_nil)
  · have hlookup := lookup_generated hp hid hfit e.specRound
    rw [← hrows, generateRows_get] at hlookup
    refine ⟨fun hlt => ?_, fun hge => ?_⟩
    · rw [if_pos hlt, Option.map_some] at hlookup
      obtain ⟨hint, haccepted⟩ := S 0 e he hty
      have hmodel : c.roundSettings.acceptModel.sample 0 e.specRound (max 1 e.draftLength) hint =
          min (draw e.specRound).2.2 (max 1 e.draftLength) := by
        unfold SyntheticAcceptanceModel.sample SyntheticAcceptanceModel.lookupTrace
        unfold Setup.roundSettings SyntheticAcceptanceModel.loadFromConfig
        dsimp only
        rw [hmode, hlookup]
        rfl
      rw [haccepted, hmodel]
      omega
    · rw [if_neg (by omega), Option.map_none] at hlookup
      exact hlookup

/-- Two rows: the first accepts all three drafts, the second none. -/
def twoRows : List TraceLine := generateRows 2 fun r => (3, 5 / 2, 3 - 3 * r)

/-- A request alone, with the trace of these rows. -/
def twoRowSetup : Setup :=
  { aloneSetup with acceptRows := loadTraceCsv (writeTrace none none twoRows) }

/-- The first round drafts three tokens and accepts none of them: the first row is never read. -/
theorem first_row_skipped : twoRowSetup.config.acceptMode = "trace_replay" ∧
    twoRowSetup.acceptRows = loadTraceCsv (writeTrace none none twoRows) ∧
    ∃ s h e, twoRowSetup.Reach s h ∧ e ∈ completions 0 h ∧ e.taskType = .verify ∧
      e.specRound = 1 ∧ e.draftLength = 3 ∧ e.acceptedLength = 0 ∧
      twoRows[0]? = some ⟨0, 3, 5 / 2, 3⟩ ∧ ¬ RowsInOrder twoRowSetup.acceptRows none twoRows h := by
  refine ⟨rfl, rfl, ?_⟩
  obtain ⟨s, h, hr, hfacts⟩ := Setup.exists_reach (c := twoRowSetup)
    (l := finishing [2, 3, 4, 5, 6]) (p := fun r => (completions 0 r.2).any fun e =>
      e.taskType = .verify && e.specRound = 1 && e.draftLength = 3 && e.acceptedLength = 0)
    (by decide +kernel)
  obtain ⟨e, he, hev⟩ := List.any_eq_true.mp hfacts
  simp only [Bool.and_eq_true, decide_eq_true_eq] at hev
  obtain ⟨⟨⟨hty, hround⟩, hdraft⟩, haccepted⟩ := hev
  have hfirst : twoRows[0]? = some ⟨0, 3, 5 / 2, 3⟩ := by decide +kernel
  exact ⟨s, h, e, hr, he, hty, hround, hdraft, haccepted, hfirst, fun hin =>
    not_takesRow_first hround rfl (hin e he hty _ (by rw [hround]; exact hfirst))⟩

/-- The same run, by the theorem. -/
theorem generated_rows_shifted_sample : ∃ s h, twoRowSetup.Reach s h ∧
    verifiedRounds 0 h ≠ [] ∧ ¬ RowsInOrder twoRowSetup.acceptRows none twoRows h := by
  obtain ⟨s, h, hr, hfacts⟩ := Setup.exists_reach (c := twoRowSetup)
    (l := finishing [2, 3, 4, 5, 6]) (p := fun r => decide (verifiedRounds 0 r.2 ≠ []))
    (by decide +kernel)
  have hverified := of_decide_eq_true hfacts
  have hrows : twoRowSetup.acceptRows = loadTraceCsv (writeTrace none none twoRows) := rfl
  refine ⟨s, h, hr, hverified, fun hin => ?_⟩
  rcases (generated_rows_shifted rfl hrows hr).2.1.mp hin with hzero | hnone
  · cases hzero
  · exact hverified hnone

end

end Ahasd
