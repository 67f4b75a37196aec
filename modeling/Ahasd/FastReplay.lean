/-
  File:      Ahasd/FastReplay.lean
  Subject:   THE FAST REPLAY OF AN ACCEPTANCE TRACE (scripts/reproduce_paper_data.py): its loops,
             what they count of the tokens, and what they count of the PIM commands.

  Every request replays the whole trace, again and again, until it has accepted its target or a pass
  accepted nothing. The draft length of a round depends on the acceptance of the rounds before it,
  over all requests; the counters depend on the rounds alone, and nothing depends on them.

  * `replayPass`, `fastReplay`: the loops of a request, over any draft length;
    `fastReplay_ends`: they end;
  * `edcPriorDraftLength`, `cellDraftLength`, `replayCell`: the draft length of the script, and its
    requests; `Counters`, `account`: its counters;
  * **`fast_replay_terminates`**: the tokens of the whole replay;
  * `Tallied`: the counters of the rounds; **`issued_le_candidates`**: exactly when no more commands
    are issued than there are candidates.
-/
import Ahasd.AcceptanceTrace
import Ahasd.ETCCReplay
import Mathlib.Tactic.FieldSimp

namespace Ahasd.FastReplay

open AcceptanceTrace ETCCReplay

/-! ## 1. The loops of a request -/

/-- A round of `fast_replay_cell`: its row, its draft length and what it accepts. -/
structure Replay where
  item : AcceptRow
  k : Int
  accepted : Int
  deriving DecidableEq

/-- The tokens accepted so far. -/
def requestAccepted (out : List Replay) : Int := (out.map Replay.accepted).sum

/-- The round drafts a token at least, and accepts of what it drafts. -/
structure Replay.Sound (r : Replay) : Prop where
  drafts : 1 ≤ r.k
  accepts : 0 ≤ r.accepted
  within : r.accepted ≤ r.k

theorem requestAccepted_append (out : List Replay) (r : Replay) :
    requestAccepted (out ++ [r]) = requestAccepted out + r.accepted := by
  simp [requestAccepted]

section FastReplay

/- How the script bounds the draft length by EDC and the system: from the rounds so far and the
   row. -/
variable (draftLength : List Replay → AcceptRow → Int) (target : Int)

/-- The round of a row. -/
def replayRow (out : List Replay) (item : AcceptRow) : Replay :=
  let k := draftLength out item
  ⟨item, k, max 0 (min k (min item.acceptedLength (target - requestAccepted out)))⟩

/-- One pass over the rows, up to the target. -/
def replayPass : List AcceptRow → List Replay → List Replay
  | [], out => out
  | item :: items, out =>
      if requestAccepted out ≥ target then out
      else replayPass items (out ++ [replayRow draftLength target out item])

/-- The passes over the rows; one that accepts nothing is the last. None when the fuel runs out. -/
def fastReplay (rows : List AcceptRow) : Nat → List Replay → Option (List Replay)
  | 0, _ => none
  | fuel + 1, out =>
      if requestAccepted out ≥ target then some out
      else
        let next := replayPass draftLength target rows out
        if requestAccepted next = requestAccepted out then some next
        else fastReplay rows fuel next

section Ends

variable {draftLength target} (hdraft : ∀ out item, 1 ≤ draftLength out item)

include hdraft

/-- A round below the target accepts a token exactly when its row does. -/
theorem replayRow_sound {out : List Replay} (h : requestAccepted out < target) (item : AcceptRow) :
    (replayRow draftLength target out item).Sound ∧
      requestAccepted out + (replayRow draftLength target out item).accepted ≤ target ∧
      (1 ≤ (replayRow draftLength target out item).accepted ↔ 1 ≤ item.acceptedLength) := by
  have hk := hdraft out item
  unfold replayRow
  refine ⟨⟨hk, ?_, ?_⟩, ?_, ?_⟩ <;> dsimp only <;> omega

/-- **What a pass does**: it stays within the target, and accepts something exactly when some row
    does. -/
theorem replayPass_spec (items : List AcceptRow) {out : List Replay}
    (hle : requestAccepted out ≤ target) (hsound : ∀ r ∈ out, r.Sound) :
    (∀ r ∈ replayPass draftLength target items out, r.Sound) ∧
      requestAccepted out ≤ requestAccepted (replayPass draftLength target items out) ∧
      requestAccepted (replayPass draftLength target items out) ≤ target ∧
      (requestAccepted out < target →
        (requestAccepted out < requestAccepted (replayPass draftLength target items out) ↔
          ∃ row ∈ items, 1 ≤ row.acceptedLength)) := by
  induction items generalizing out with
  | nil =>
      refine ⟨hsound, le_rfl, hle, fun _ => ?_⟩
      simp [replayPass]
  | cons item items ih =>
      unfold replayPass
      split
      · next hreached => exact ⟨hsound, le_rfl, hle, fun h => absurd hreached (not_le.mpr h)⟩
      · next hbelow =>
          obtain ⟨hrow, hwithin, haccepts⟩ := replayRow_sound hdraft (not_le.mp hbelow) item
          have hmore := requestAccepted_append out (replayRow draftLength target out item)
          have hall : ∀ r ∈ out ++ [replayRow draftLength target out item], r.Sound := by
            intro r hr
            rcases List.mem_append.mp hr with hr | hr
            · exact hsound r hr
            · exact List.mem_singleton.mp hr ▸ hrow
          obtain ⟨hnext, hgrows, hstays, hstrict⟩ := ih (hmore.symm ▸ hwithin) hall
          rw [hmore] at hgrows hstrict
          have hpos := hrow.accepts
          refine ⟨hnext, by omega, hstays, fun _ => ?_⟩
          by_cases hitem : 1 ≤ item.acceptedLength
          · have hone := haccepts.mpr hitem
            exact ⟨fun _ => ⟨item, List.mem_cons_self, hitem⟩, fun _ => by omega⟩
          · have hzero : (replayRow draftLength target out item).accepted = 0 := by
              have hnone := mt haccepts.mp hitem
              omega
            rw [hzero, add_zero] at hstrict
            rw [hstrict (not_le.mp hbelow)]
            constructor
            · rintro ⟨row, hrow, hone⟩
              exact ⟨row, List.mem_cons_of_mem item hrow, hone⟩
            · rintro ⟨row, hrow, hone⟩
              rcases List.mem_cons.mp hrow with rfl | hrow
              · exact absurd hone hitem
              · exact ⟨row, hrow, hone⟩

/-- **The passes end**: of a target of `n` tokens more, `n + 1` passes are enough, and more change
    nothing. The request stays within its target, and reaches it exactly when some row accepts. -/
theorem fastReplay_ends (rows : List AcceptRow) : ∀ (n : Nat) {out : List Replay},
    requestAccepted out ≤ target → target - requestAccepted out ≤ n → (∀ r ∈ out, r.Sound) →
      (requestAccepted out = target → ∃ row ∈ rows, 1 ≤ row.acceptedLength) →
      ∃ out', (∀ fuel, n < fuel → fastReplay draftLength target rows fuel out = some out') ∧
        (∀ r ∈ out', r.Sound) ∧ requestAccepted out' ≤ target ∧
        (target ≤ requestAccepted out' ↔ ∃ row ∈ rows, 1 ≤ row.acceptedLength) := by
  intro n
  induction n with
  | zero =>
      intro out hle hleft hsound hrow
      have hreached : requestAccepted out = target := by omega
      refine ⟨out, fun fuel hfuel => ?_, hsound, hle, iff_of_true hreached.ge (hrow hreached)⟩
      obtain ⟨m, rfl⟩ := Nat.exists_eq_add_of_lt hfuel
      unfold fastReplay
      rw [if_pos hreached.ge]
  | succ n ih =>
      intro out hle hleft hsound hrow
      rcases hle.eq_or_lt with hreached | hbelow
      · obtain ⟨out', hruns, hend⟩ := ih hle (by omega) hsound hrow
        exact ⟨out', fun fuel hfuel => hruns fuel (Nat.lt_of_succ_lt hfuel), hend⟩
      · obtain ⟨hnext, hgrows, hstays, hstrict⟩ := replayPass_spec hdraft rows hle hsound
        have hstrict := hstrict hbelow
        by_cases hsame : requestAccepted (replayPass draftLength target rows out) =
            requestAccepted out
        · -- a fruitless pass
          refine ⟨_, fun fuel hfuel => ?_, hnext, hstays, iff_of_false (by omega) fun h => ?_⟩
          · obtain ⟨m, rfl⟩ := Nat.exists_eq_add_of_lt hfuel
            unfold fastReplay
            rw [if_neg (not_le.mpr hbelow)]
            exact if_pos hsame
          · have hmore := hstrict.mpr h
            omega
        · have hrows := hstrict.mp (by omega)
          obtain ⟨out', hruns, hend⟩ := ih hstays (by omega) hnext fun _ => hrows
          refine ⟨out', fun fuel hfuel => ?_, hend⟩
          obtain ⟨m, rfl⟩ := Nat.exists_eq_add_of_lt hfuel
          have hpass := hruns (n + 1 + m) (by omega)
          unfold fastReplay
          rw [if_neg (not_le.mpr hbelow)]
          exact (if_neg hsame).trans hpass

end Ends

end FastReplay

/-! ## 2. The requests of the replay -/

/-- What the replay reads of the system's configuration. -/
structure CellConfig where
  maxK : Int := 4
  pimEnabled : Bool := false
  edcEnabled : Bool := false
  tvcEnabled : Bool := false
  cmdSchedEnabled : Bool := true
  replayCfg : ReplayConfig ℚ

/-- `edc_prior_draft_length`: the tokens up to the first whose marginal acceptance is too low. -/
def edcPriorDraftLength (exp : ℚ → ℚ) (cfg : ReplayConfig ℚ) (entropy recentAcceptance : ℚ) : Int :=
  let threshold := min (95 / 100) (max cfg.pMin cfg.edcRecentLowAccept)
  -- the marginal of a token is its acceptance in a draft of the maximal length
  let worth (tokenIdx : Nat) : Bool :=
    !decide (acceptProbability exp cfg entropy tokenIdx cfg.maxDraftLength < threshold ∧ tokenIdx > 0)
  let acceptedBudget : Int := acceptedFrom worth cfg.maxDraftLength.toNat 0
  let acceptedBudget :=
    if recentAcceptance < cfg.edcRecentLowAccept then acceptedBudget - 1 else acceptedBudget
  max 1 (min cfg.maxDraftLength acceptedBudget)

/-- The slice `recent[-window:]`. -/
def recentSlice (window : Int) (recent : List ℚ) : List ℚ :=
  if 0 < window then recent.drop (recent.length - window.toNat) else recent.drop (-window).toNat

/-- The mean acceptance of the recent rounds. -/
def recentRatio (window : Int) (recentAcceptance : List ℚ) : ℚ :=
  let recent := recentSlice window recentAcceptance
  if recent = [] then 1 else recent.sum / max 1 recent.length

/-- The acceptance of a round. -/
def Replay.ratio (r : Replay) : ℚ := r.accepted / max 1 r.k

/-- The draft length of the next round of a request: `recent` is the acceptance of the requests
    before it. -/
def cellDraftLength (exp : ℚ → ℚ) (c : CellConfig) (recent : List ℚ) (out : List Replay)
    (item : AcceptRow) : Int :=
  let leadingDepth : Int := 1 + out.length % max 1 c.replayCfg.maxLeadingBatches
  let k :=
    if c.edcEnabled then
      let ratio := recentRatio c.replayCfg.edcRecentWindow (recent ++ out.map Replay.ratio)
      min (min item.draftLength (edcDraftLength c.replayCfg item.avgEntropy ratio leadingDepth))
        (edcPriorDraftLength exp c.replayCfg item.avgEntropy ratio)
    else item.draftLength
  max 1 (min c.maxK k)

/-- The loop over the requests, by their target lengths: the rounds of each. -/
def replayCell (exp : ℚ → ℚ) (c : CellConfig) (rows : List AcceptRow) (fuel : Nat) :
    List Int → List (List Replay) → Option (List (List Replay))
  | [], done => some done
  | targetLength :: targets, done => do
      let recent := done.flatten.map Replay.ratio
      let rounds ← fastReplay (cellDraftLength exp c recent) (max 1 targetLength) rows fuel []
      replayCell exp c rows fuel targets (done ++ [rounds])

/-! ## 3. The counters -/

/-- The counters of the replay. -/
structure Counters where
  draftedTokens : Int := 0
  acceptedTokens : Int := 0
  rejectedTokens : Int := 0
  commandCandidates : Int := 0
  commandIssued : ℚ := 0
  deriving DecidableEq

/-- The tokens a round pre-verifies. -/
def preverifyTokens (c : CellConfig) (r : Replay) : Int :=
  if c.tvcEnabled ∧ c.replayCfg.tvcMinDraftLen ≤ r.k ∧
      c.replayCfg.tvcEntropyThreshold ≤ r.item.avgEntropy then
    min c.replayCfg.tvcPreverifyLen (max 0 (r.k - 1))
  else 0

/-- The share of its commands that a round without rejections issues. -/
def schedCredit (c : CellConfig) : ℚ := if c.cmdSchedEnabled then 1 else 75 / 100

/-- What a round adds to the counters. -/
def account (c : CellConfig) (n : Counters) (r : Replay) : Counters :=
  let rejected := max 0 (r.k - r.accepted)
  let n := { n with commandIssued := n.commandIssued + preverifyTokens c r }
  let n :=
    if c.pimEnabled then
      { n with
        commandCandidates := n.commandCandidates + r.k
        commandIssued := n.commandIssued +
          schedCredit c * r.k * (1 - 1 / 2 * rejected / (max 1 r.k : Int)) }
    else n
  { n with
    draftedTokens := n.draftedTokens + r.k
    acceptedTokens := n.acceptedTokens + r.accepted
    rejectedTokens := n.rejectedTokens + rejected }

/-- The counters of the rounds. -/
def counters (c : CellConfig) (rounds : List Replay) : Counters := rounds.foldl (account c) {}

/-- `raw_pim_command_issue_pct`: none without candidates. -/
def Counters.rawPimCommandIssuePct (n : Counters) : Option ℚ :=
  if n.commandCandidates = 0 then none else some (100 * n.commandIssued / n.commandCandidates)

/-- The drafted tokens of rounds. -/
def drafted (rounds : List Replay) : Int := (rounds.map Replay.k).sum

/-- The rejected tokens. -/
def rejected (rounds : List Replay) : Int := (rounds.map fun r => r.k - r.accepted).sum

/-- The pre-verified tokens. -/
def preverified (c : CellConfig) (rounds : List Replay) : Int := (rounds.map (preverifyTokens c)).sum

/-- **What the counters are of the rounds**: a rejected token costs the credit of half a command. -/
structure Tallied (c : CellConfig) (rounds : List Replay) (n : Counters) : Prop where
  drafted : n.draftedTokens = drafted rounds
  accepted : n.acceptedTokens = requestAccepted rounds
  rejected : n.rejectedTokens = rejected rounds
  candidates : n.commandCandidates = if c.pimEnabled then FastReplay.drafted rounds else 0
  issued : n.commandIssued = preverified c rounds +
    if c.pimEnabled then
      schedCredit c * (FastReplay.drafted rounds - FastReplay.rejected rounds / 2)
    else 0

/-- What a round adds, without the bounds that it keeps anyway. -/
theorem account_sound (c : CellConfig) (n : Counters) {r : Replay} (hr : r.Sound) : account c n r =
    { draftedTokens := n.draftedTokens + r.k
      acceptedTokens := n.acceptedTokens + r.accepted
      rejectedTokens := n.rejectedTokens + (r.k - r.accepted)
      commandCandidates := n.commandCandidates + if c.pimEnabled then r.k else 0
      commandIssued := n.commandIssued + preverifyTokens c r +
        if c.pimEnabled then schedCredit c * (r.k - (r.k - r.accepted) / 2) else 0 } := by
  obtain ⟨hdrafts, haccepts, hwithin⟩ := hr
  have hk : (r.k : ℚ) ≠ 0 := by exact_mod_cast (by omega : r.k ≠ 0)
  have hshare : schedCredit c * r.k * (1 - 1 / 2 * ((r.k - r.accepted : Int) : ℚ) / (r.k : Int)) =
      schedCredit c * (r.k - (r.k - r.accepted) / 2) := by
    push_cast
    field_simp
  unfold account
  dsimp only
  rw [max_eq_right (by omega : 0 ≤ r.k - r.accepted), max_eq_right hdrafts, hshare]
  cases c.pimEnabled <;> simp

theorem counters_tallied (c : CellConfig) : ∀ (rounds : List Replay), (∀ r ∈ rounds, r.Sound) →
    Tallied c rounds (counters c rounds) := by
  intro rounds
  induction rounds using List.reverseRecOn with
  | nil =>
      intro _
      cases hpim : c.pimEnabled <;>
        exact ⟨rfl, rfl, rfl, by rw [hpim]; rfl, by simp [counters, preverified, drafted, rejected]⟩
  | append_singleton rounds r ih =>
      intro hsound
      obtain ⟨hdrafted, haccepted, hrejected, hcandidates, hissued⟩ :=
        ih fun r' hr' => hsound r' (List.mem_append_left _ hr')
      have hr := hsound r (List.mem_append_right _ (List.mem_singleton.mpr rfl))
      have hstep : counters c (rounds ++ [r]) = account c (counters c rounds) r :=
        List.foldl_append
      have hd : drafted (rounds ++ [r]) = drafted rounds + r.k := by simp [drafted]
      have hrej : rejected (rounds ++ [r]) = rejected rounds + (r.k - r.accepted) := by
        simp [rejected]
      have hp : preverified c (rounds ++ [r]) = preverified c rounds + preverifyTokens c r := by
        simp [preverified]
      rw [hstep, account_sound c _ hr]
      refine ⟨by rw [hdrafted, hd], by rw [haccepted, requestAccepted_append],
        by rw [hrejected, hrej], ?_, ?_⟩
      · rw [hcandidates, hd]
        cases c.pimEnabled <;> simp
      · rw [hissued, hp, hd, hrej]
        cases c.pimEnabled with
        | false => simp
        | true =>
            simp only [if_true]
            push_cast
            ring

/-! ## 4. The whole replay -/

/-- A request of the replay is done: it has credited its target at most, and its target exactly when
    some row of the trace accepts a token. -/
structure RequestDone (rows : List AcceptRow) (targetLength : Int) (rounds : List Replay) : Prop where
  sound : ∀ r ∈ rounds, r.Sound
  credited : requestAccepted rounds ≤ max 1 targetLength
  reached : max 1 targetLength ≤ requestAccepted rounds ↔ ∃ row ∈ rows, 1 ≤ row.acceptedLength

theorem cellDraftLength_pos (exp : ℚ → ℚ) (c : CellConfig) (recent : List ℚ) (out : List Replay)
    (item : AcceptRow) : 1 ≤ cellDraftLength exp c recent out item :=
  le_max_left 1 _

/-- **The loop over the requests ends.** -/
theorem replayCell_ends (exp : ℚ → ℚ) (c : CellConfig) (rows : List AcceptRow)
    (targets : List Int) (done : List (List Replay)) : ∃ rounds,
    (∀ fuel, (∀ t ∈ targets, (max 1 t).toNat < fuel) →
      replayCell exp c rows fuel targets done = some (done ++ rounds)) ∧
      List.Forall₂ (RequestDone rows) targets rounds := by
  induction targets generalizing done with
  | nil => exact ⟨[], fun _ _ => by rw [List.append_nil]; rfl, .nil⟩
  | cons targetLength targets ih =>
      have hnone : requestAccepted [] ≤ max 1 targetLength := by simp [requestAccepted]
      obtain ⟨first, hfirst, hsound, hcredited, hreached⟩ := fastReplay_ends
        (cellDraftLength_pos exp c (done.flatten.map Replay.ratio)) rows (max 1 targetLength).toNat
        hnone (by simp [requestAccepted])
        (fun _ h => absurd h List.not_mem_nil) (fun h => by simp [requestAccepted] at h; omega)
      obtain ⟨rest, hrest, hdone⟩ := ih (done ++ [first])
      refine ⟨first :: rest, fun fuel hfuel => ?_, .cons ⟨hsound, hcredited, hreached⟩ hdone⟩
      unfold replayCell
      dsimp only
      rw [hfirst fuel (hfuel targetLength List.mem_cons_self)]
      have hmore := hrest fuel fun t ht => hfuel t (List.mem_cons_of_mem _ ht)
      rw [List.append_assoc] at hmore
      exact hmore

/-- The rounds of requests that are done are sound. -/
theorem flatten_sound {rows : List AcceptRow} {targets : List Int} {rounds : List (List Replay)}
    (h : List.Forall₂ (RequestDone rows) targets rounds) : ∀ r ∈ rounds.flatten, r.Sound := by
  induction h with
  | nil => exact fun r hr => absurd hr List.not_mem_nil
  | cons hdone _ ih =>
      intro r hr
      rw [List.flatten_cons] at hr
      rcases List.mem_append.mp hr with hr | hr
      · exact hdone.sound r hr
      · exact ih r hr

/-- **The tokens of the replay**, for every trace, all requests and every configuration: the loops
    end, the drafted tokens are the accepted and the rejected ones, no request is credited more than
    its target, and each reaches it exactly when some row of the trace accepts a token. -/
theorem fast_replay_terminates (exp : ℚ → ℚ) (c : CellConfig) (rows : List AcceptRow)
    (targets : List Int) : ∃ rounds : List (List Replay),
      (∀ fuel, (∀ t ∈ targets, (max 1 t).toNat < fuel) →
        replayCell exp c rows fuel targets [] = some rounds) ∧
      (counters c rounds.flatten).draftedTokens =
        (counters c rounds.flatten).acceptedTokens + (counters c rounds.flatten).rejectedTokens ∧
      List.Forall₂ (fun targetLength rs => requestAccepted rs ≤ max 1 targetLength ∧
        (max 1 targetLength ≤ requestAccepted rs ↔ ∃ row ∈ rows, 1 ≤ row.acceptedLength))
        targets rounds := by
  obtain ⟨rounds, hruns, hdone⟩ := replayCell_ends exp c rows targets []
  have T := counters_tallied c _ (flatten_sound hdone)
  have hsplit : ∀ rs : List Replay, drafted rs = requestAccepted rs + rejected rs := by
    intro rs
    induction rs with
    | nil => rfl
    | cons r rs ih =>
        simp only [drafted, requestAccepted, rejected, List.map_cons, List.sum_cons] at ih ⊢
        omega
  refine ⟨rounds, hruns, ?_, hdone.imp fun _ _ h => ⟨h.credited, h.reached⟩⟩
  rw [T.drafted, T.accepted, T.rejected, hsplit]

/-! ## 5. The commands -/

/-- No more commands are issued than there are candidates, and the percentage says so. -/
structure IssuedWithin (n : Counters) : Prop where
  issued : n.commandIssued ≤ n.commandCandidates
  percentage : ∀ pct, n.rawPimCommandIssuePct = some pct → pct ≤ 100

/-- The pre-verified tokens take no more than the credit that the rejected ones leave: with the
    command scheduler half of each, without it three eighths, and a quarter of every drafted
    token. -/
def CreditLeft (c : CellConfig) (preverified drafted rejected : Int) : Prop :=
  if c.cmdSchedEnabled then 2 * preverified ≤ rejected
  else 8 * preverified ≤ 2 * drafted + 3 * rejected

instance (c : CellConfig) (preverified drafted rejected : Int) :
    Decidable (CreditLeft c preverified drafted rejected) :=
  inferInstanceAs (Decidable (ite _ _ _))

/-- Where every round leaves the credit, all of them do. -/
theorem creditLeft_rounds {c : CellConfig} {rounds : List Replay}
    (h : ∀ r ∈ rounds, CreditLeft c (preverifyTokens c r) r.k (r.k - r.accepted)) :
    CreditLeft c (preverified c rounds) (drafted rounds) (rejected rounds) := by
  induction rounds with
  | nil =>
      unfold CreditLeft
      split <;> exact le_rfl
  | cons r rounds ih =>
      have hfirst := h r List.mem_cons_self
      have hrest := ih fun r' hr' => h r' (List.mem_cons_of_mem r hr')
      unfold CreditLeft preverified drafted rejected at *
      simp only [List.map_cons, List.sum_cons]
      split at hfirst <;> rename_i hsched
      · rw [if_pos hsched] at hrest ⊢
        omega
      · rw [if_neg hsched] at hrest ⊢
        omega

/-- Without the pre-verification there is always credit left. -/
theorem creditLeft_of_no_tvc {c : CellConfig} (htvc : c.tvcEnabled = false) {r : Replay}
    (hr : r.Sound) : CreditLeft c (preverifyTokens c r) r.k (r.k - r.accepted) := by
  obtain ⟨hdrafts, haccepts, hwithin⟩ := hr
  have hnone : preverifyTokens c r = 0 := by
    unfold preverifyTokens
    rw [htvc, if_neg (by simp)]
  unfold CreditLeft
  rw [hnone]
  split <;> omega

/-- The counters of sound rounds. -/
theorem issuedWithin_iff {c : CellConfig} (hpim : c.pimEnabled = true) {rounds : List Replay}
    (hsound : ∀ r ∈ rounds, r.Sound) : IssuedWithin (counters c rounds) ↔
      CreditLeft c (preverified c rounds) (drafted rounds) (rejected rounds) := by
  obtain ⟨_, _, _, hcandidates, hissued⟩ := counters_tallied c rounds hsound
  rw [hpim, if_pos rfl] at hcandidates hissued
  have hnonneg : 0 ≤ drafted rounds := by
    refine List.sum_nonneg fun k hk => ?_
    obtain ⟨r, hr, rfl⟩ := List.mem_map.mp hk
    exact zero_le_one.trans (hsound r hr).drafts
  have hcredit : (counters c rounds).commandIssued ≤ (counters c rounds).commandCandidates ↔
      CreditLeft c (preverified c rounds) (drafted rounds) (rejected rounds) := by
    rw [hcandidates, hissued]
    unfold CreditLeft schedCredit
    split
    · have hcast : (2 * preverified c rounds ≤ rejected rounds) ↔
          (2 * (preverified c rounds : ℚ) ≤ rejected rounds) := by exact_mod_cast Iff.rfl
      rw [hcast]
      constructor <;> intro h <;> linarith
    · have hcast : (8 * preverified c rounds ≤ 2 * drafted rounds + 3 * rejected rounds) ↔
          (8 * (preverified c rounds : ℚ) ≤ 2 * drafted rounds + 3 * rejected rounds) := by
        exact_mod_cast Iff.rfl
      rw [hcast]
      constructor <;> intro h <;> linarith
  rw [← hcredit]
  refine ⟨IssuedWithin.issued, fun h => ⟨h, fun pct hpct => ?_⟩⟩
  unfold Counters.rawPimCommandIssuePct at hpct
  split at hpct
  · cases hpct
  · next hsome =>
      cases hpct
      have hpos : (0 : ℚ) < (counters c rounds).commandCandidates := by
        rw [hcandidates] at hsome ⊢
        exact_mod_cast lt_of_le_of_ne hnonneg (Ne.symm hsome)
      rw [div_le_iff₀ hpos]
      linarith

/-- A system with PIM and pre-verification. -/
def sampleCell : CellConfig :=
  { pimEnabled := true, tvcEnabled := true, replayCfg := .asWritten ℚ }

/-- A row of four drafted tokens. -/
def sampleRow (acceptedLength : Int) : AcceptRow :=
  { round := 0, draftLength := 4, acceptedLength := acceptedLength, avgEntropy := 5 }

end Ahasd.FastReplay
