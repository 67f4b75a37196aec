/-
  File:      Ahasd/Scheduler/Versions.lean
  Subject:   THE VERSION IDS OF THE ROUNDS IN FLIGHT.

  VSKM hands out its version ids by a counter that wraps at the number of version entries, to all
  requests alike, and does not look whether the round that had an id before is still in flight.

  * `roundsBegun`, `openSince`: the rounds a history begun, and the one of a request that is not
    verified yet;
  * `VersionsOk`, `VersionsOk.move`: a round in flight holds the id of its number among all rounds;
  * **`version_ids_cyclic`**: two rounds in flight share an id exactly when a multiple of the
    entries lies between them; `slow_round_shares`: one slow round and two fast ones do.
-/
import Ahasd.Scheduler.Rounds
import Mathlib.Data.Nat.ModEq

namespace Ahasd

open Std Transition OrderedMap

/-! ## 1. The rounds of a history -/

/-- One event for a request: the rounds begun by any request so far, and among them the one of this
    request that is not verified. -/
def trackOpen (id : Nat) (o : Nat × Option Nat) : Event → Nat × Option Nat
  | .planned requestId _ _ _ => (o.1 + 1, if requestId = id then some o.1 else o.2)
  | .finished e => (o.1, if e.requestId = id ∧ e.taskType = .verify then none else o.2)
  | .issued _ _ => o

/-- The rounds a history begun. -/
def roundsBegun (h : List Event) : Nat :=
  h.countP (Event.plannedWith fun _ _ _ _ => true)

/-- The round of a request that is begun and not verified, by the number of rounds begun before
    it. -/
def openSince (id : Nat) (h : List Event) : Option Nat :=
  (h.foldl (trackOpen id) (0, none)).2

section History

variable (id : Nat) (h : List Event)

theorem foldl_trackOpen_fst : (h.foldl (trackOpen id) (0, none)).1 = roundsBegun h := by
  induction h using List.reverseRecOn with
  | nil => rfl
  | append_singleton h e ih =>
      unfold roundsBegun at ih ⊢
      rw [List.foldl_append, List.countP_append, ← ih]
      cases e <;> rfl

@[simp] theorem roundsBegun_planned (requestId round : Nat) (hint : ℚ)
    (preds : List (Nat × Bool)) :
    roundsBegun (h ++ [.planned requestId round hint preds]) = roundsBegun h + 1 :=
  List.countP_append

@[simp] theorem roundsBegun_issued (built : Model) (info : ModelMeta) :
    roundsBegun (h ++ [.issued built info]) = roundsBegun h :=
  List.countP_append

@[simp] theorem roundsBegun_finished (e : LangStepEvent) :
    roundsBegun (h ++ [.finished e]) = roundsBegun h :=
  List.countP_append

theorem openSince_planned (requestId round : Nat) (hint : ℚ) (preds : List (Nat × Bool)) :
    openSince id (h ++ [.planned requestId round hint preds]) =
      if requestId = id then some (roundsBegun h) else openSince id h := by
  unfold openSince
  rw [List.foldl_append, ← foldl_trackOpen_fst id h]
  rfl

@[simp] theorem openSince_issued (built : Model) (info : ModelMeta) :
    openSince id (h ++ [.issued built info]) = openSince id h := by
  unfold openSince
  rw [List.foldl_append]
  rfl

theorem openSince_finished (e : LangStepEvent) : openSince id (h ++ [.finished e]) =
    if e.requestId = id ∧ e.taskType = .verify then none else openSince id h := by
  unfold openSince
  rw [List.foldl_append]
  rfl

end History

/-- An open round is among the rounds begun. -/
theorem openSince_lt {id n : Nat} {h : List Event} (ho : openSince id h = some n) :
    n < roundsBegun h := by
  induction h using List.reverseRecOn with
  | nil => cases ho
  | append_singleton h e ih =>
      cases e with
      | issued built info =>
          rw [openSince_issued] at ho
          rw [roundsBegun_issued]
          exact ih ho
      | planned requestId round hint preds =>
          rw [openSince_planned] at ho
          rw [roundsBegun_planned]
          split at ho
          · cases ho
            exact Nat.lt_succ_self _
          · exact (ih ho).trans (Nat.lt_succ_self _)
      | finished e =>
          rw [openSince_finished] at ho
          rw [roundsBegun_finished]
          split at ho
          · cases ho
          · exact ih ho

/-- A round is of one request. -/
theorem openSince_inj {id id' n : Nat} {h : List Event} (ho : openSince id h = some n)
    (ho' : openSince id' h = some n) : id = id' := by
  induction h using List.reverseRecOn with
  | nil => cases ho
  | append_singleton h e ih =>
      cases e with
      | issued built info =>
          rw [openSince_issued] at ho ho'
          exact ih ho ho'
      | planned requestId round hint preds =>
          rw [openSince_planned] at ho ho'
          -- the new round is the only one with its number
          split at ho
          · next heq =>
              split at ho'
              · next heq' => exact heq.symm.trans heq'
              · cases ho
                exact absurd (openSince_lt ho') (Nat.lt_irrefl _)
          · split at ho'
            · cases ho'
              exact absurd (openSince_lt ho) (Nat.lt_irrefl _)
            · exact ih ho ho'
      | finished e =>
          rw [openSince_finished] at ho ho'
          split at ho
          · cases ho
          · split at ho'
            · cases ho'
            · exact ih ho ho'

namespace SpecDecodeScheduler

/-! ## 2. The ids of the rounds -/

/-- **A round in flight holds the id of its number**, its request is inside a round, and the counter
    stands at the id of the round to come. -/
structure VersionsOk (entries : Nat) (s : SpecDecodeScheduler) (h : List Event) : Prop where
  config : s.vskm.cfg.versionEntries = entries
  next : s.vskm.nextVersionId = VSKM.versionNumber entries (roundsBegun h)
  opened : ∀ id n : Nat, openSince id h = some n →
    s.vskm.versionIdOf id = some (VSKM.versionNumber entries n) ∧
      ∃ r : LangRequest, s.activeRequests[id]? = some r ∧ r.InRound

theorem taskVskm_counter (s : SpecDecodeScheduler) (req : LangRequest) (info : ModelMeta) :
    (s.taskVskm req info).cfg = s.vskm.cfg ∧
      (s.taskVskm req info).nextVersionId = s.vskm.nextVersionId := by
  unfold taskVskm
  cases info.taskType with
  | prompt => exact ⟨rfl, rfl⟩
  | draft => exact ⟨rfl, rfl⟩
  | autoreg => exact ⟨rfl, rfl⟩
  | preVerify =>
      dsimp only
      unfold VSKM.preVerify
      split <;> exact ⟨rfl, rfl⟩
  | verify =>
      dsimp only
      unfold VSKM.completeVerify
      split <;> exact ⟨rfl, rfl⟩

/-- A task keeps the ids: only the prompt's reset forgets one, and its request is in no round. -/
theorem taskVskm_versionIdOf {s : SpecDecodeScheduler} {req : LangRequest} {info : ModelMeta}
    {id n : Nat} (h : s.vskm.versionIdOf id = some n)
    (hprompt : info.taskType = .prompt → id ≠ req.requestId) :
    (s.taskVskm req info).versionIdOf id = some n := by
  unfold taskVskm
  cases hty : info.taskType with
  | prompt => exact (s.vskm.resetRequest_versionIdOf_other _ _ _ (hprompt hty)).trans h
  | draft => exact s.vskm.draftToken_versionIdOf _ _ h
  | verify => exact (s.vskm.completeVerify_versionIdOf _ _ _ _).trans h
  | preVerify => exact (s.vskm.preVerify_versionIdOf _ _).trans h
  | autoreg => exact h

/-- A task that is not the verification leaves a request inside its round there. -/
theorem TaskDone.inRound {s : SpecDecodeScheduler} {req : LangRequest} {info : ModelMeta}
    {after : Option LangRequest} (htask : TaskDone s req info after) (hin : req.InRound)
    (hty : info.taskType ≠ .verify) : info.taskType ≠ .prompt ∧ ∃ r, after = some r ∧ r.InRound := by
  cases htask with
  | prompt h hphase hround => exact absurd hin (LangRequest.not_inRound (.inl hphase))
  | draft h => exact ⟨by rw [h]; decide, _, rfl, s.draftedRequest_inRound req⟩
  | verify h => exact absurd h hty
  | retire h => exact absurd h hty
  | preVerify h => exact ⟨by rw [h]; decide, _, rfl, hin⟩

theorem VersionsOk.finish {entries : Nat} {s : SpecDecodeScheduler} {h : List Event}
    (V : VersionsOk entries s h) {modelId : Nat} {info : ModelMeta} {req : LangRequest}
    (hid : info.requestId = req.requestId) (hact : s.activeRequests[req.requestId]? = some req)
    (htask : TaskDone s req info (s.afterTask req info)) :
    VersionsOk entries (s.completed modelId req info).2
      (h ++ [.finished (s.completed modelId req info).1]) := by
  have hactive := s.completed_activeRequests modelId req info hid hact
  obtain ⟨hreq, hty, _⟩ := s.completed_event modelId req info
  obtain ⟨hcfg, hnext⟩ := s.taskVskm_counter req info
  refine ⟨?_, ?_, fun id n ho => ?_⟩
  · rw [completed_vskm, hcfg]
    exact V.config
  · rw [completed_vskm, hnext, roundsBegun_finished]
    exact V.next
  · rw [openSince_finished, hreq, hty] at ho
    split at ho
    · cases ho
    · next hopen =>
        obtain ⟨hversion, q, hq, hin⟩ := V.opened id n ho
        rw [completed_vskm, hactive]
        by_cases heq : id = req.requestId
        · subst heq
          rw [hact, Option.some.injEq] at hq
          subst hq
          obtain ⟨hprompt, r, hr, hrin⟩ := htask.inRound hin fun hv => hopen ⟨rfl, hv⟩
          refine ⟨taskVskm_versionIdOf hversion fun hp => absurd hp hprompt, ?_⟩
          rw [if_pos rfl, hr]
          exact ⟨_, rfl, hrin⟩
        · refine ⟨taskVskm_versionIdOf hversion fun _ => heq, q, ?_, hin⟩
          rw [if_neg heq]
          exact hq

theorem VersionsOk.plan {entries : Nat} (hpos : 1 ≤ entries) {s : SpecDecodeScheduler}
    {h : List Event} (V : VersionsOk entries s h) (req : LangRequest) {hint : ℚ}
    {preds : List (Nat × Bool)} : VersionsOk entries (s.planRound req).2
      (h ++ [.planned req.requestId (req.specRound + 1) hint preds]) := by
  obtain ⟨ssrc, deferred, heq⟩ := s.planRound_eq req
  have hvskm : (s.planRound req).2.vskm = s.vskm.beginRound req.requestId (req.specRound + 1)
      req.currentLength (s.pickDraftLength req).1 := by rw [heq]
  refine ⟨?_, ?_, fun id n ho => ?_⟩
  · rw [hvskm]
    exact V.config
  · rw [hvskm, roundsBegun_planned, ← VSKM.versionNumber_succ hpos, ← V.next, ← V.config]
    rfl
  · rw [openSince_planned] at ho
    rw [hvskm, VSKM.beginRound_versionIdOf, s.planRound_lookup req]
    by_cases hid : id = req.requestId
    · rw [if_pos hid.symm] at ho
      cases ho
      rw [if_pos hid, if_pos hid, V.next]
      exact ⟨rfl, _, rfl, .inl rfl⟩
    · rw [if_neg fun h => hid h.symm] at ho
      rw [if_neg hid, if_neg hid]
      exact V.opened id n ho

/-- **Every move keeps the ids of the rounds.** -/
theorem VersionsOk.move {entries : Nat} (hpos : 1 ≤ entries) {s s' : SpecDecodeScheduler}
    {h e : List Event} (I : ProtocolOk s) (V : VersionsOk entries s h) (hm : Move s s' e) :
    VersionsOk entries s' (h ++ e) := by
  cases hm with
  | minor s' hm =>
      rw [List.append_nil]
      refine ⟨by rw [hm.vskm]; exact V.config, by rw [hm.vskm]; exact V.next, ?_⟩
      rw [hm.vskm, hm.active]
      exact V.opened
  | admitOne r rest hq =>
      rw [List.append_nil]
      refine ⟨V.config, V.next, fun id n ho => ?_⟩
      obtain ⟨hversion, q, hact, hin⟩ := V.opened id n ho
      refine ⟨hversion, q, ?_, hin⟩
      rw [s.admit_lookup r rest, if_neg]
      · exact hact
      · intro heq
        rw [heq, I.admit_fresh hq] at hact
        cases hact
  | plan req hact hrun hphase => exact V.plan hpos req
  | issue s₁ req req' model seqLength info built g hact hrun hprep hgen =>
      have L := hprep.launched hgen
      obtain ⟨v, hactive⟩ := L.active
      refine ⟨by rw [L.vskm]; exact V.config, by rw [L.vskm, roundsBegun_issued]; exact V.next,
        fun id n ho => ?_⟩
      rw [openSince_issued] at ho
      obtain ⟨hversion, q, hq, hin⟩ := V.opened id n ho
      rw [L.vskm, hactive]
      refine ⟨hversion, ?_⟩
      split
      · next heq =>
          rw [heq, hact, Option.some.injEq] at hq
          subst hq
          exact ⟨_, rfl, hin⟩
      · exact ⟨q, hq, hin⟩
  | finish modelId info req hinfo hid hact htask => exact V.finish hid hact htask

end SpecDecodeScheduler

/-! ## 3. Every run -/

section

open SpecDecodeScheduler

variable {c : Setup} {s : SpecDecodeScheduler} {h : List Event}

/-- The ids in every reachable state. -/
theorem Setup.Reach.versions (hpos : 1 ≤ c.config.vskmVersionEntries)
    (ht : c.targetModel.isSome = true) (hr : c.Reach s h) :
    VersionsOk c.config.vskmVersionEntries s h := by
  obtain ⟨s₀, hstart, hexec⟩ := hr
  have F := Setup.start_fresh hstart
  have hfirst : VersionsOk c.config.vskmVersionEntries s₀ [] := by
    obtain ⟨base, _, rfl⟩ := Setup.start_eq hstart
    refine ⟨rfl, ?_, fun id n ho => nomatch ho⟩
    show 1 = VSKM.versionNumber _ 0
    unfold VSKM.versionNumber
    rw [Nat.zero_mod]
    rfl
  exact (exec_moves (fun s h s' e I _ V hm => V.move hpos I hm) (F.protocolOk ht) F.configured hfirst
    hexec).2.2

/-- Without a target model no round begins. -/
theorem SpecDecodeScheduler.Fallback.roundsBegun (N : Fallback c s h) : roundsBegun h = 0 := by
  refine List.countP_eq_zero.mpr fun e he => ?_
  obtain ⟨ev, rfl, _⟩ := N.autoreg e he
  simp [Event.plannedWith]

/-- **The version ids go round**: a round in flight holds the id of its number among all rounds
    begun; two rounds in flight hold one id exactly when a multiple of the period lies between them,
    so never while both are among the rounds of the last period. -/
theorem version_ids_cyclic (hpos : 1 ≤ c.config.vskmVersionEntries) (hr : c.Reach s h)
    {id id' n n' : Nat} (ho : openSince id h = some n) (ho' : openSince id' h = some n') :
    s.vskm.versionIdOf id = some (VSKM.versionNumber c.config.vskmVersionEntries n) ∧
      (s.vskm.versionIdOf id = s.vskm.versionIdOf id' ↔
        n % VSKM.versionPeriod c.config.vskmVersionEntries =
          n' % VSKM.versionPeriod c.config.vskmVersionEntries) ∧
      (id ≠ id' → roundsBegun h ≤ n + VSKM.versionPeriod c.config.vskmVersionEntries →
        roundsBegun h ≤ n' + VSKM.versionPeriod c.config.vskmVersionEntries →
        s.vskm.versionIdOf id ≠ s.vskm.versionIdOf id') := by
  have hlt := openSince_lt ho
  have hlt' := openSince_lt ho'
  cases ht : c.targetModel.isSome with
  | false =>
      rw [(hr.fallback ht).roundsBegun] at hlt
      cases hlt
  | true =>
      have V := hr.versions hpos ht
      have hid := (V.opened id n ho).1
      have hid' := (V.opened id' n' ho').1
      have hshare : s.vskm.versionIdOf id = s.vskm.versionIdOf id' ↔
          n % VSKM.versionPeriod c.config.vskmVersionEntries =
            n' % VSKM.versionPeriod c.config.vskmVersionEntries := by
        rw [hid, hid', Option.some.injEq]
        exact VSKM.versionNumber_inj hpos n n'
      refine ⟨hid, hshare, fun hne hrecent hrecent' heq => hne ?_⟩
      -- both are among the last rounds, so their numbers agree
      have hsame : n = n' := by
        have hmod := hshare.mp heq
        rcases Nat.lt_trichotomy n n' with hbefore | hsame | hafter
        · have hdvd := (Nat.modEq_iff_dvd' hbefore.le).mp hmod
          have hle := Nat.le_of_dvd (by omega) hdvd
          omega
        · exact hsame
        · have hdvd := (Nat.modEq_iff_dvd' hafter.le).mp hmod.symm
          have hle := Nat.le_of_dvd (by omega) hdvd
          omega
      exact openSince_inj (hsame ▸ ho) ho'

/-- The requests of the trace that have a round in flight. -/
def Setup.inFlight (c : Setup) (h : List Event) : Nat :=
  (List.range c.rows.length).countP fun id => (openSince id h).isSome

/-- Two requests, two version entries, drafts of one token. -/
def twoEntries : Setup :=
  let c := sampleSetup [⟨0, 4, 9, 1⟩, ⟨0, 4, 9, 1⟩] [(⟨0, 1⟩, ⟨1, 0, 1⟩), (⟨1, 1⟩, ⟨1, 0, 1⟩)]
  { c with config := { c.config with
      vskmVersionEntries := 2, maxDraftLength := 1, enableEdc := false, enableTvc := false } }

/-- The calls that plan a round of each request. -/
def roundOfEach : List Act :=
  [.cycle, .cycle, .finishModel 4, .finishModel 5, .cycle, .cycle]

theorem version_ids_cyclic_sample : ∃ s h, twoEntries.Reach s h ∧
    s.vskm.versionIdOf 0 ≠ s.vskm.versionIdOf 1 := by
  obtain ⟨s, h, hr, hfacts⟩ := Setup.exists_reach (c := twoEntries) (l := roundOfEach)
    (p := fun r => decide (openSince 0 r.2 = some 0 ∧ openSince 1 r.2 = some 1 ∧ roundsBegun r.2 = 2))
    (by decide +kernel)
  obtain ⟨ho, ho', hbegun⟩ := of_decide_eq_true hfacts
  have hperiod : VSKM.versionPeriod twoEntries.config.vskmVersionEntries = 2 := by decide
  have hcyclic := version_ids_cyclic (c := twoEntries) (by decide) hr ho ho'
  rw [hperiod, hbegun] at hcyclic
  exact ⟨s, h, hr, hcyclic.2.2 (by decide) (by decide) (by decide)⟩

/-- **A slow round and two fast ones**: never more rounds in flight than entries, and the third
    round takes the id of the first, which is still in flight. -/
theorem slow_round_shares : ¬ ∀ (c : Setup) (as : List Act) (s : SpecDecodeScheduler)
    (h : List Event), 1 ≤ c.config.vskmVersionEntries → c.run as = some (s, h) →
    (∀ bs, bs <+: as → ∀ t k, c.run bs = some (t, k) →
      c.inFlight k ≤ c.config.vskmVersionEntries) →
    ∀ id id' n n', id ≠ id' → openSince id h = some n → openSince id' h = some n' →
      s.vskm.versionIdOf id ≠ s.vskm.versionIdOf id' := by
  intro hclaim
  have hrun : (twoEntries.run (roundOfEach ++ [.finishModel 7, .cycle, .finishModel 8, .cycle])).any
      (fun r => decide (openSince 0 r.2 = some 0 ∧ openSince 1 r.2 = some 2 ∧
        r.1.vskm.versionIdOf 0 = r.1.vskm.versionIdOf 1)) = true := by decide +kernel
  obtain ⟨⟨s, h⟩, hr, hfacts⟩ := (Option.any_eq_true _ _).mp hrun
  obtain ⟨ho, ho', hshared⟩ := of_decide_eq_true hfacts
  refine hclaim twoEntries _ s h (by decide) hr ?_ 0 1 0 2 (by decide) ho ho' hshared
  intro bs _ t k _
  exact List.countP_le_length

end

end Ahasd
