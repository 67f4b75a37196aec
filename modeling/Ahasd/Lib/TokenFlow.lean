/-
  File:      Ahasd/Lib/TokenFlow.lean
  Subject:   TOKENS THAT MOVE BETWEEN PLACES. A library file: it names nothing of the program.

  A marking says how many of each token each place holds. A move takes a token from a place to
  another; a move without a source brings the token in, a move without a destination takes it out.

  * `Move`, `Fires`, `Flow`: a move, one firing, and the markings a list of moves leads to;
  * `At`: where a token is: in exactly one place (`some p`) or in none (`none`);
  * `entries`, `exits`: how often a token crossed the border of a set of places;
  * `Flow.located`: a token that came in at most once is in one place or in none, and it crossed
    every border inwards as often as outwards, and once more if it is inside;
  * `Flow.came_in`, `Flow.came_to`: what is somewhere, or moved, came in, and it came where it is;
  * `Flow.entries_le_one`: a set of places that no move leaves is entered at most once;
  * `Flow.leavingTokens_subperm`, `Flow.crossings_perm`: what came out had gone in, and with nothing
    inside all of it came out;
  * `Flow.length_le`: where every move goes up a rank below a bound, there are at most so many moves
    for each token that came in.
-/
import Mathlib.Algebra.Order.BigOperators.Group.List
import Mathlib.Algebra.Order.Ring.Nat
import Mathlib.Data.List.Count
import Mathlib.Data.List.Induction
import Mathlib.Data.List.Perm.Subperm

namespace TokenFlow

/-! ## 1. Moves and markings -/

variable {π τ : Type} [DecidableEq π] [DecidableEq τ]

/-- A move of one token. -/
structure Move (π τ : Type) where
  token : τ
  src : Option π
  dst : Option π
  deriving DecidableEq

/-- How many of each token each place holds. -/
abbrev Marking (π τ : Type) := π → τ → ℕ

/-- Nothing anywhere. -/
def Marking.empty : Marking π τ := fun _ _ => 0

/-- The move has an end, and it changes the marking at its ends, by its token. -/
structure Fires (m : Marking π τ) (v : Move π τ) (m' : Marking π τ) : Prop where
  proper : v.src ≠ none ∨ v.dst ≠ none
  present : ∀ p, v.src = some p → 0 < m p v.token
  balance : ∀ p t, m' p t + (if v.src = some p ∧ v.token = t then 1 else 0) =
    m p t + (if v.dst = some p ∧ v.token = t then 1 else 0)

/-- The markings a list of moves leads to, from nothing. -/
inductive Flow : List (Move π τ) → Marking π τ → Prop where
  | empty : Flow [] Marking.empty
  | fire (h : List (Move π τ)) (m m' : Marking π τ) (v : Move π τ) (hf : Flow h m)
      (hv : Fires m v m') : Flow (h ++ [v]) m'

/-- Where a token is: nowhere, or once at a place and nowhere else. -/
def At (m : Marking π τ) (t : τ) (o : Option π) : Prop :=
  ∀ p, m p t = if o = some p then 1 else 0

omit [DecidableEq τ] in
/-- The place of a present token. -/
theorem At.eq_some {m : Marking π τ} {t : τ} {o : Option π} (ha : At m t o) {p : π}
    (hp : 0 < m p t) : o = some p := by
  rw [ha p] at hp
  by_contra hne
  rw [if_neg hne] at hp
  exact Nat.lt_irrefl 0 hp

/-- A firing leaves the other tokens where they are. -/
theorem Fires.other {m m' : Marking π τ} {v : Move π τ} (hv : Fires m v m') {t : τ}
    (ht : v.token ≠ t) {o : Option π} (ha : At m t o) : At m' t o := by
  intro p
  have h := hv.balance p t
  rw [if_neg (fun hp => ht hp.2), if_neg (fun hp => ht hp.2)] at h
  exact h.trans (ha p)

/-- A firing takes its token from its source to its destination. -/
theorem Fires.own {m m' : Marking π τ} {v : Move π τ} (hv : Fires m v m')
    (ha : At m v.token v.src) : At m' v.token v.dst := by
  intro p
  have h := hv.balance p v.token
  rw [ha p] at h
  simp only [and_true] at h
  omega

/-! ## 2. Crossing a border -/

/-- Whether an end of a move lies in the set. -/
def inside (B : π → Bool) (o : Option π) : Bool := o.any B

/-- The move enters the set. -/
def Move.entering (B : π → Bool) (v : Move π τ) : Bool := inside B v.dst && !inside B v.src

/-- The move leaves the set. -/
def Move.leaving (B : π → Bool) (v : Move π τ) : Bool := inside B v.src && !inside B v.dst

/-- The tokens that entered the set, in order. -/
def enteringTokens (B : π → Bool) (h : List (Move π τ)) : List τ :=
  (h.filter (Move.entering B)).map Move.token

/-- The tokens that left the set, in order. -/
def leavingTokens (B : π → Bool) (h : List (Move π τ)) : List τ :=
  (h.filter (Move.leaving B)).map Move.token

/-- How often the token entered the set. -/
def entries (B : π → Bool) (h : List (Move π τ)) (t : τ) : ℕ := (enteringTokens B h).count t

/-- How often the token left the set. -/
def exits (B : π → Bool) (h : List (Move π τ)) (t : τ) : ℕ := (leavingTokens B h).count t

/-- Every place. -/
def anywhere : π → Bool := fun _ => true

/-- No token came in twice. -/
def Distinct (h : List (Move π τ)) : Prop := ∀ t, entries anywhere h t ≤ 1

omit [DecidableEq π] [DecidableEq τ] in
theorem enteringTokens_snoc (B : π → Bool) (h : List (Move π τ)) (v : Move π τ) :
    enteringTokens B (h ++ [v]) =
      enteringTokens B h ++ if v.entering B = true then [v.token] else [] := by
  cases hv : v.entering B <;> simp [enteringTokens, List.filter_append, hv]

omit [DecidableEq π] [DecidableEq τ] in
theorem leavingTokens_snoc (B : π → Bool) (h : List (Move π τ)) (v : Move π τ) :
    leavingTokens B (h ++ [v]) =
      leavingTokens B h ++ if v.leaving B = true then [v.token] else [] := by
  cases hv : v.leaving B <;> simp [leavingTokens, List.filter_append, hv]

omit [DecidableEq π] in
theorem entries_snoc (B : π → Bool) (h : List (Move π τ)) (v : Move π τ) (t : τ) :
    entries B (h ++ [v]) t =
      entries B h t + if v.entering B = true ∧ v.token = t then 1 else 0 := by
  rw [entries, enteringTokens_snoc, List.count_append, entries]
  cases v.entering B <;> simp [List.count_singleton]

omit [DecidableEq π] in
theorem exits_snoc (B : π → Bool) (h : List (Move π τ)) (v : Move π τ) (t : τ) :
    exits B (h ++ [v]) t =
      exits B h t + if v.leaving B = true ∧ v.token = t then 1 else 0 := by
  rw [exits, leavingTokens_snoc, List.count_append, exits]
  cases v.leaving B <;> simp [List.count_singleton]

omit [DecidableEq π] in
theorem Distinct.init {h : List (Move π τ)} {v : Move π τ} (hd : Distinct (h ++ [v])) :
    Distinct h := by
  intro t
  have ht := hd t
  rw [entries_snoc] at ht
  omega

/-- **A token is in one place or in none**, and it crossed the border of every set inwards as often
    as outwards, and once more if it is inside. -/
theorem Flow.located {h : List (Move π τ)} {m : Marking π τ} (hf : Flow h m) (hd : Distinct h)
    (t : τ) : ∃ o, At m t o ∧
      ∀ B, entries B h t = exits B h t + if inside B o = true then 1 else 0 := by
  induction hf with
  | empty => exact ⟨none, fun _ => rfl, fun _ => rfl⟩
  | fire h m m' v _ hv ih =>
      obtain ⟨o, ho, hcross⟩ := ih hd.init
      by_cases ht : v.token = t
      · subst ht
        -- the token is at the source of the move: it is present there, or it was not in yet
        have hsrc : o = v.src := by
          cases hs : v.src with
          | some p => exact ho.eq_some (hv.present p hs)
          | none =>
              obtain ⟨q, hq⟩ := Option.ne_none_iff_exists'.mp
                (hv.proper.resolve_left fun hne => hne hs)
              have hin := hd v.token
              rw [entries_snoc, if_pos ⟨by simp [Move.entering, inside, hq, hs, anywhere], rfl⟩,
                hcross anywhere] at hin
              cases ho' : o with
              | none => rfl
              | some p =>
                  rw [if_pos (by simp [inside, ho', anywhere])] at hin
                  omega
        subst hsrc
        refine ⟨v.dst, hv.own ho, fun B => ?_⟩
        rw [entries_snoc, exits_snoc, hcross B]
        simp only [Move.entering, Move.leaving, and_true]
        cases inside B v.src <;> cases inside B v.dst <;> simp
      · refine ⟨o, hv.other ht ho, fun B => ?_⟩
        rw [entries_snoc, exits_snoc, if_neg (fun hc => ht hc.2), if_neg (fun hc => ht hc.2)]
        exact hcross B

omit [DecidableEq π] [DecidableEq τ] in
/-- A set of places keeps what entered it as the history goes on. -/
theorem mem_enteringTokens_snoc {B : π → Bool} {h : List (Move π τ)} {v : Move π τ} {t : τ}
    (ht : t ∈ enteringTokens B h) : t ∈ enteringTokens B (h ++ [v]) := by
  rw [enteringTokens_snoc]
  exact List.mem_append_left _ ht

/-- **What is somewhere, or moved, came in.** -/
theorem Flow.came_in {h : List (Move π τ)} {m : Marking π τ} (hf : Flow h m) :
    (∀ p t, 0 < m p t → t ∈ enteringTokens anywhere h) ∧
      ∀ v ∈ h, v.token ∈ enteringTokens anywhere h := by
  induction hf with
  | empty => exact ⟨fun _ _ h => absurd h (Nat.lt_irrefl 0), fun _ h => nomatch h⟩
  | fire h m m' v _ hv ih =>
      obtain ⟨hthere, hmoved⟩ := ih
      -- the token of the move was somewhere, or it comes in with it
      have htoken : v.token ∈ enteringTokens anywhere (h ++ [v]) := by
        cases hs : v.src with
        | some p => exact mem_enteringTokens_snoc (hthere p _ (hv.present p hs))
        | none =>
            obtain ⟨q, hq⟩ := Option.ne_none_iff_exists'.mp
              (hv.proper.resolve_left fun hne => hne hs)
            rw [enteringTokens_snoc, if_pos (by simp [Move.entering, inside, hq, hs, anywhere])]
            exact List.mem_append_right _ (List.mem_singleton.mpr rfl)
      refine ⟨fun p t hpos => ?_, fun w hw => ?_⟩
      · by_cases ht : v.token = t
        · exact ht ▸ htoken
        · have hbal := hv.balance p t
          rw [if_neg (fun hp => ht hp.2), if_neg (fun hp => ht hp.2)] at hbal
          exact mem_enteringTokens_snoc (hthere p t (by omega))
      · rcases List.mem_append.mp hw with hw | hw
        · exact mem_enteringTokens_snoc (hmoved w hw)
        · rwa [List.mem_singleton.mp hw]

/-- What is at a place came there. -/
theorem Flow.came_to {h : List (Move π τ)} {m : Marking π τ} (hf : Flow h m) {p : π} {t : τ}
    (hpos : 0 < m p t) : ∃ v ∈ h, v.token = t ∧ v.dst = some p := by
  induction hf with
  | empty => exact absurd hpos (Nat.lt_irrefl 0)
  | fire h m m' v _ hv ih =>
      by_cases hdst : v.dst = some p ∧ v.token = t
      · exact ⟨v, List.mem_append_right _ (List.mem_singleton.mpr rfl), hdst.2, hdst.1⟩
      · have hbal := hv.balance p t
        rw [if_neg hdst] at hbal
        obtain ⟨w, hw, hmove⟩ := ih (by omega)
        exact ⟨w, List.mem_append_left _ hw, hmove⟩

/-- Every move has an end. -/
theorem Flow.proper {h : List (Move π τ)} {m : Marking π τ} (hf : Flow h m) :
    ∀ v ∈ h, v.src ≠ none ∨ v.dst ≠ none := by
  induction hf with
  | empty => exact fun _ h => nomatch h
  | fire h m m' v _ hv ih =>
      intro w hw
      rcases List.mem_append.mp hw with hw | hw
      · exact ih w hw
      · exact List.mem_singleton.mp hw ▸ hv.proper

section Borders

variable {h : List (Move π τ)} {m : Marking π τ} (hf : Flow h m) (hd : Distinct h)
include hf hd

theorem Flow.exits_le_entries (B : π → Bool) (t : τ) : exits B h t ≤ entries B h t := by
  obtain ⟨o, _, hcross⟩ := hf.located hd t
  rw [hcross B]
  exact Nat.le_add_right _ _

/-- A token that left a set had entered it. -/
theorem Flow.leavingTokens_subperm (B : π → Bool) :
    (leavingTokens B h).Subperm (enteringTokens B h) :=
  List.subperm_iff_count.mpr (hf.exits_le_entries hd B)

/-- **With nothing inside, the tokens that entered a set are those that left it.** -/
theorem Flow.crossings_perm {B : π → Bool} (hempty : ∀ p, B p = true → ∀ t, m p t = 0) :
    (enteringTokens B h).Perm (leavingTokens B h) := by
  refine List.perm_iff_count.mpr fun t => ?_
  obtain ⟨o, ho, hcross⟩ := hf.located hd t
  have hB : inside B o = false := by
    cases o with
    | none => rfl
    | some p =>
        by_contra hin
        have hp := ho p
        rw [if_pos rfl, hempty p (by simpa [inside] using hin) t] at hp
        cases hp
  have h' := hcross B
  rw [hB] at h'
  exact h'

/-- **A set of places that no move leaves for another place is entered at most once.** -/
theorem Flow.entries_le_one {B : π → Bool}
    (hclosed : ∀ v ∈ h, v.leaving B = true → v.dst = none) (t : τ) : entries B h t ≤ 1 := by
  obtain ⟨o, _, hcross⟩ := hf.located hd t
  -- to leave the set is to go out
  have hout : exits B h t ≤ exits anywhere h t := by
    refine List.Sublist.count_le _ (List.Sublist.map _ ?_)
    have hsub : h.filter (Move.leaving B) =
        (h.filter (Move.leaving anywhere)).filter (Move.leaving B) := by
      rw [List.filter_filter]
      refine List.filter_congr fun v hv => ?_
      cases hl : v.leaving B with
      | false => rfl
      | true =>
          have hdst := hclosed v hv hl
          have hin : inside B v.src = true := (Bool.and_eq_true_iff.mp hl).1
          cases hs : v.src with
          | none => rw [hs] at hin; cases hin
          | some p => simp [Move.leaving, inside, hdst, hs, anywhere]
    rw [hsub]
    exact List.filter_sublist
  have hin := hd t
  rw [hcross anywhere] at hin
  rw [hcross B]
  cases o with
  | none => simp only [inside, Option.any_none, Bool.false_eq_true, if_false] at hin ⊢; omega
  | some p =>
      rw [if_pos (by rfl)] at hin
      split <;> omega

/-- The places of at least a rank. -/
def atLeast (rank : π → ℕ) (k : ℕ) (p : π) : Bool := decide (k ≤ rank p)

omit [DecidableEq π] [DecidableEq τ] hf hd in
/-- A move enters the places of its destination's rank, or goes out. -/
theorem length_le_crossings {rank : π → ℕ} {bound : ℕ} (hbound : ∀ p, rank p < bound)
    {h : List (Move π τ)} (hproper : ∀ v ∈ h, v.src ≠ none ∨ v.dst ≠ none)
    (hup : ∀ v ∈ h, ∀ p q, v.src = some p → v.dst = some q → rank p < rank q) :
    h.length ≤ ((List.range bound).map fun k => (enteringTokens (atLeast rank k) h).length).sum +
      (leavingTokens anywhere h).length := by
  induction h using List.reverseRecOn with
  | nil => exact Nat.zero_le _
  | append_singleton h v ih =>
      have ih := ih (fun w hw => hproper w (List.mem_append_left _ hw))
        fun w hw => hup w (List.mem_append_left _ hw)
      have hv : v ∈ h ++ [v] := List.mem_append_right _ (List.mem_singleton.mpr rfl)
      simp only [enteringTokens_snoc, leavingTokens_snoc, List.length_append, List.sum_map_add,
        List.length_singleton]
      -- one of the counts goes up
      have hone : 1 ≤ ((List.range bound).map fun k =>
          (if v.entering (atLeast rank k) = true then [v.token] else []).length).sum +
            (if v.leaving anywhere = true then [v.token] else []).length := by
        cases hdst : v.dst with
        | none =>
            obtain ⟨p, hp⟩ := Option.ne_none_iff_exists'.mp
              ((hproper v hv).resolve_right fun hne => hne hdst)
            have hleave : v.leaving anywhere = true := by
              simp [Move.leaving, inside, hp, hdst, anywhere]
            rw [if_pos hleave]
            exact Nat.le_add_left _ _
        | some q =>
            have henter : v.entering (atLeast rank (rank q)) = true := by
              cases hsrc : v.src with
              | none => simp [Move.entering, inside, hsrc, hdst, atLeast]
              | some p =>
                  have hlt := hup v hv p q hsrc hdst
                  simp [Move.entering, inside, hsrc, hdst, atLeast, hlt]
            have hmem := List.single_le_sum (l := (List.range bound).map fun k =>
              (if v.entering (atLeast rank k) = true then [v.token] else []).length)
              (fun _ _ => Nat.zero_le _) _
              (List.mem_map_of_mem (List.mem_range.mpr (hbound q)))
            rw [if_pos henter] at hmem
            exact hmem.trans (Nat.le_add_right _ _)
      omega

/-- **Moves up a bounded rank are few**: so many for each token that came in. -/
theorem Flow.length_le {rank : π → ℕ} {bound : ℕ} (hbound : ∀ p, rank p < bound)
    (hup : ∀ v ∈ h, ∀ p q, v.src = some p → v.dst = some q → rank p < rank q) :
    h.length ≤ (bound + 1) * (enteringTokens anywhere h).length := by
  have hproper : ∀ v ∈ h, v.src ≠ none ∨ v.dst ≠ none := hf.proper
  -- no move leaves the places of at least a rank but for going out
  have hclosed : ∀ k, ∀ v ∈ h, v.leaving (atLeast rank k) = true → v.dst = none := by
    intro k v hv hleave
    obtain ⟨hin, hout⟩ := Bool.and_eq_true_iff.mp hleave
    cases hdst : v.dst with
    | none => rfl
    | some q =>
        cases hsrc : v.src with
        | none => rw [hsrc] at hin; cases hin
        | some p =>
            have hlt := hup v hv p q hsrc hdst
            simp only [inside, hsrc, hdst, Option.any_some, atLeast, decide_eq_true_eq,
              Bool.not_eq_true', decide_eq_false_iff_not] at hin hout
            omega
  have hcross : ∀ k, (enteringTokens (atLeast rank k) h).length ≤
      (enteringTokens anywhere h).length := by
    intro k
    refine (List.subperm_iff_count.mpr fun t => ?_).length_le
    have hone := hf.entries_le_one hd (hclosed k) t
    by_cases ht : t ∈ enteringTokens (atLeast rank k) h
    · obtain ⟨v, hv, rfl⟩ := List.mem_map.mp ht
      have hcame := hf.came_in.2 v (List.mem_filter.mp hv).1
      exact hone.trans (List.count_pos_iff.mpr hcame)
    · rw [List.count_eq_zero.mpr ht]
      exact Nat.zero_le _
  have hsum : ((List.range bound).map fun k =>
      (enteringTokens (atLeast rank k) h).length).sum ≤
        bound * (enteringTokens anywhere h).length := by
    have hle := List.sum_le_card_nsmul
      ((List.range bound).map fun k => (enteringTokens (atLeast rank k) h).length)
      (enteringTokens anywhere h).length (by
        intro x hx
        obtain ⟨k, -, rfl⟩ := List.mem_map.mp hx
        exact hcross k)
    simpa using hle
  have hlen := length_le_crossings hbound hproper hup
  have hleave := (hf.leavingTokens_subperm hd anywhere).length_le
  calc h.length ≤ bound * (enteringTokens anywhere h).length +
        (enteringTokens anywhere h).length := hlen.trans (Nat.add_le_add hsum hleave)
    _ = (bound + 1) * (enteringTokens anywhere h).length := (Nat.succ_mul _ _).symm

end Borders

end TokenFlow
