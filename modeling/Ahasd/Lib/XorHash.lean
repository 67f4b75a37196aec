/-
  File:      Ahasd/Lib/XorHash.lean
  Subject:   HASHES MADE OF PARITIES. A library file: it names nothing of the program.

  A hash is given by one list of bit positions (taps) for each bit of its value; that bit is the
  parity of the bits at the positions.

  * `hash_xor`: such a hash is linear over exclusive or;
  * `Window j k n n'`: the numbers differ at most in the `k` bits from `j` on;
  * **`injective_iff`**, `existsUnique_iff`: the hash tells the numbers of a window apart, and takes every value
    once, if and only if it is not zero on a number that has bits in the window alone;
    `hash_eq_zero`: that fails where a bit of the window is no tap;
  * `Remainders`, `Remainders.window`: a hash that takes polynomials to their remainders does it at
    every window if it does it at the first.
-/
import Mathlib.Data.Fintype.EquivFin
import Mathlib.Data.Nat.Bitwise
import Mathlib.Tactic.Ring

namespace XorHash

/-! ## 1. The hash -/

/-- The parity of some bits of a number. -/
def parity (taps : List Nat) (a : Nat) : Bool :=
  taps.foldr (fun t acc => a.testBit t ^^ acc) false

/-- The hash: one parity for each bit, the lowest first. -/
def hash : List (List Nat) → Nat → Nat
  | [], _ => 0
  | taps :: eqs, a => Nat.bit (parity taps a) (hash eqs a)

theorem parity_xor (taps : List Nat) (a b : Nat) :
    parity taps (a ^^^ b) = (parity taps a ^^ parity taps b) := by
  induction taps with
  | nil => rfl
  | cons t taps ih =>
      simp only [parity, List.foldr_cons] at ih ⊢
      rw [ih, Nat.testBit_xor]
      cases a.testBit t <;> cases b.testBit t <;> simp

/-- **The hash is linear.** -/
theorem hash_xor (eqs : List (List Nat)) (a b : Nat) :
    hash eqs (a ^^^ b) = hash eqs a ^^^ hash eqs b := by
  induction eqs with
  | nil => simp [hash]
  | cons taps eqs ih =>
      simp only [hash, ih, parity_xor]
      exact (Nat.xor_bit _ _ _ _).symm

theorem hash_lt (eqs : List (List Nat)) (a : Nat) : hash eqs a < 2 ^ eqs.length := by
  induction eqs with
  | nil => exact Nat.one_pos
  | cons taps eqs ih =>
      simp only [hash, List.length_cons, Nat.pow_succ, Nat.bit_val]
      cases parity taps a <;> simp <;> omega

/-- A bit that is no tap does not count. -/
theorem hash_eq_zero {eqs : List (List Nat)} {m : Nat} (h : ∀ taps ∈ eqs, m ∉ taps) :
    hash eqs (2 ^ m) = 0 := by
  induction eqs with
  | nil => rfl
  | cons taps eqs ih =>
      have hpar : parity taps (2 ^ m) = false := by
        have hm := h taps List.mem_cons_self
        clear h ih
        induction taps with
        | nil => rfl
        | cons t taps ih =>
            have hne : m ≠ t := fun he => hm (he ▸ List.mem_cons_self)
            simp only [parity, List.foldr_cons] at ih ⊢
            rw [ih fun hm' => hm (List.mem_cons_of_mem t hm'), Nat.testBit_two_pow_of_ne hne]
            rfl
      simp only [hash, hpar, ih fun taps' h' => h taps' (List.mem_cons_of_mem taps h')]
      rfl

/-! ## 2. Windows -/

/-- The numbers differ at most in the `k` bits from `j` on. -/
def Window (j k n n' : Nat) : Prop := ∀ t, t < j ∨ j + k ≤ t → n.testBit t = n'.testBit t

/-- The same, said with quotients and remainders. -/
theorem window_iff {j k n n' : Nat} :
    Window j k n n' ↔ n % 2 ^ j = n' % 2 ^ j ∧ n / 2 ^ (j + k) = n' / 2 ^ (j + k) := by
  constructor
  · intro h
    constructor
    · refine Nat.eq_of_testBit_eq fun t => ?_
      rw [Nat.testBit_mod_two_pow, Nat.testBit_mod_two_pow]
      by_cases ht : t < j
      · rw [h t (.inl ht)]
      · simp [ht]
    · refine Nat.eq_of_testBit_eq fun t => ?_
      rw [Nat.testBit_div_two_pow, Nat.testBit_div_two_pow, h _ (.inr (by omega))]
  · rintro ⟨hlow, hhigh⟩ t (ht | ht)
    · have hb := congrArg (·.testBit t) hlow
      simpa [Nat.testBit_mod_two_pow, ht] using hb
    · have hb := congrArg (·.testBit (t - (j + k))) hhigh
      simpa [Nat.testBit_div_two_pow, Nat.sub_add_cancel ht] using hb

/-- The difference of two numbers of a window has its bits in the window. -/
theorem Window.xor {j k n n' : Nat} (h : Window j k n n') :
    ∃ i, i < 2 ^ k ∧ n ^^^ n' = i <<< j := by
  refine ⟨(n ^^^ n') >>> j, ?_, ?_⟩
  · refine Nat.lt_pow_two_of_testBit _ fun t ht => ?_
    rw [Nat.testBit_shiftRight, Nat.testBit_xor, h (j + t) (.inr (by omega)), Bool.xor_self]
  · refine Nat.eq_of_testBit_eq fun t => ?_
    rw [Nat.testBit_shiftLeft, Nat.testBit_shiftRight]
    by_cases ht : j ≤ t
    · simp [ht]
    · rw [Nat.testBit_xor, h t (.inl (by omega)), Bool.xor_self]
      simp [ht]

theorem window_xor {j k i : Nat} (hi : i < 2 ^ k) (n : Nat) : Window j k n (n ^^^ i <<< j) := by
  intro t ht
  rw [Nat.testBit_xor, Nat.testBit_shiftLeft]
  rcases ht with ht | ht
  · simp [Nat.not_le.mpr ht]
  · have hzero : i.testBit (t - j) = false :=
      Nat.testBit_lt_two_pow (hi.trans_le (Nat.pow_le_pow_right Nat.two_pos (by omega)))
    simp [hzero]

/-- The numbers of a window are at a stride of `2 ^ j`. -/
theorem window_stride {j k high low : Nat} (hlow : low < 2 ^ j) {n : Nat} :
    Window j k (high * 2 ^ (j + k) + low) n ↔
      ∃ i < 2 ^ k, n = high * 2 ^ (j + k) + i * 2 ^ j + low := by
  have hj : 0 < 2 ^ j := Nat.two_pow_pos j
  have hjk : 2 ^ (j + k) = 2 ^ k * 2 ^ j := by rw [Nat.add_comm, Nat.pow_add]
  have hpos : 0 < 2 ^ (j + k) := Nat.two_pow_pos _
  have hle : 2 ^ j ≤ 2 ^ (j + k) := Nat.pow_le_pow_right Nat.two_pos (Nat.le_add_right j k)
  have hmod : (high * 2 ^ (j + k) + low) % 2 ^ j = low := by
    rw [hjk, ← Nat.mul_assoc, Nat.mul_add_mod_self_right, Nat.mod_eq_of_lt hlow]
  have hdiv : (high * 2 ^ (j + k) + low) / 2 ^ (j + k) = high := by
    rw [Nat.mul_comm, Nat.mul_add_div hpos, Nat.div_eq_of_lt (hlow.trans_le hle), Nat.add_zero]
  rw [window_iff, hmod, hdiv]
  constructor
  · rintro ⟨hl, hh⟩
    refine ⟨n / 2 ^ j % 2 ^ k, Nat.mod_lt _ (Nat.two_pow_pos k), ?_⟩
    have h1 := Nat.div_add_mod n (2 ^ j)
    have h2 := Nat.div_add_mod (n / 2 ^ j) (2 ^ k)
    rw [Nat.div_div_eq_div_mul, ← Nat.pow_add, ← hh] at h2
    calc n = 2 ^ j * (n / 2 ^ j) + low := by rw [hl, h1]
      _ = 2 ^ j * (2 ^ k * high + n / 2 ^ j % 2 ^ k) + low := by rw [h2]
      _ = high * 2 ^ (j + k) + n / 2 ^ j % 2 ^ k * 2 ^ j + low := by rw [hjk]; ring
  · rintro ⟨i, hi, rfl⟩
    have hin : i * 2 ^ j + low < 2 ^ (j + k) :=
      calc i * 2 ^ j + low < i * 2 ^ j + 2 ^ j := by omega
        _ = (i + 1) * 2 ^ j := by ring
        _ ≤ 2 ^ k * 2 ^ j := Nat.mul_le_mul_right _ hi
        _ = 2 ^ (j + k) := hjk.symm
    constructor
    · rw [hjk, ← Nat.mul_assoc, ← Nat.add_mul, Nat.mul_add_mod_self_right, Nat.mod_eq_of_lt hlow]
    · rw [Nat.add_assoc, Nat.mul_comm high, Nat.mul_add_div hpos, Nat.div_eq_of_lt hin, Nat.add_zero]

/-- **The hash tells the numbers of a window apart if and only if it is not zero on a number that
    has bits in the window alone**, whichever number of the window one starts from. -/
theorem injective_iff (eqs : List (List Nat)) (j k n : Nat) :
    (∀ a b, Window j k n a → Window j k n b → hash eqs a = hash eqs b → a = b) ↔
      ∀ i < 2 ^ k, hash eqs (i <<< j) = 0 → i = 0 := by
  constructor
  · intro h i hi hz
    have heq := h n (n ^^^ i <<< j) (fun _ _ => rfl) (window_xor hi n) (by
      rw [hash_xor, hz, Nat.xor_zero])
    have hshift : i <<< j = 0 :=
      calc i <<< j = n ^^^ (n ^^^ i <<< j) := by rw [← Nat.xor_assoc, Nat.xor_self, Nat.zero_xor]
        _ = n ^^^ n := by rw [← heq]
        _ = 0 := Nat.xor_self n
    rw [Nat.shiftLeft_eq] at hshift
    rcases Nat.mul_eq_zero.mp hshift with h0 | h0
    · exact h0
    · exact absurd h0 (Nat.two_pow_pos j).ne'
  · intro h a b ha hb heq
    have hab : Window j k a b := fun t ht => (ha t ht).symm.trans (hb t ht)
    obtain ⟨i, hi, hx⟩ := hab.xor
    have hz : hash eqs (i <<< j) = 0 := by rw [← hx, hash_xor, heq, Nat.xor_self]
    rw [h i hi hz, Nat.zero_shiftLeft] at hx
    exact Nat.xor_eq_zero_iff.mp hx

/-- **A hash of `k` bits takes every value once at a stride of `2 ^ j`** if and only if it is not
    zero on a number that has bits in the window alone. -/
theorem existsUnique_iff {eqs : List (List Nat)} {j k high low : Nat} (hk : eqs.length = k)
    (hlow : low < 2 ^ j) :
    (∀ c < 2 ^ k, ∃! i, i < 2 ^ k ∧ hash eqs (high * 2 ^ (j + k) + i * 2 ^ j + low) = c) ↔
      ∀ i < 2 ^ k, hash eqs (i <<< j) = 0 → i = 0 := by
  rw [← injective_iff eqs j k (high * 2 ^ (j + k) + low)]
  have hlt : ∀ a, hash eqs a < 2 ^ k := fun a => by
    rw [← hk]
    exact hash_lt eqs a
  let f : Fin (2 ^ k) → Fin (2 ^ k) := fun i =>
    ⟨hash eqs (high * 2 ^ (j + k) + i * 2 ^ j + low), hlt _⟩
  -- as many values as numbers: one-to-one is the same as onto
  have hfin : f.Injective ↔ ∀ c, ∃! i, f i = c :=
    Finite.injective_iff_bijective.trans (Function.bijective_iff_existsUnique f)
  constructor
  · intro h a b ha hb hab
    have hinj : f.Injective := hfin.mpr fun c => by
      obtain ⟨i, ⟨hi, hc⟩, huniq⟩ := h c c.isLt
      exact ⟨⟨i, hi⟩, Fin.ext hc, fun i' hi' =>
        Fin.ext (huniq i' ⟨i'.isLt, congrArg Fin.val hi'⟩)⟩
    obtain ⟨i, hi, rfl⟩ := (window_stride hlow).mp ha
    obtain ⟨i', hi', rfl⟩ := (window_stride hlow).mp hb
    have heq : (⟨i, hi⟩ : Fin (2 ^ k)) = ⟨i', hi'⟩ := hinj (Fin.ext hab)
    rw [Fin.mk.inj heq]
  · intro h c hc
    have hinj : f.Injective := by
      intro i i' hii
      have heq := h _ _ ((window_stride hlow).mpr ⟨i, i.isLt, rfl⟩)
        ((window_stride hlow).mpr ⟨i', i'.isLt, rfl⟩) (congrArg Fin.val hii)
      have hmul : i.val * 2 ^ j = i'.val * 2 ^ j := by omega
      exact Fin.ext (Nat.eq_of_mul_eq_mul_right (Nat.two_pow_pos j) hmul)
    obtain ⟨i, hi, huniq⟩ := hfin.mp hinj ⟨c, hc⟩
    exact ⟨i, ⟨i.isLt, congrArg Fin.val hi⟩, fun i' ⟨hi', hc'⟩ =>
      congrArg Fin.val (huniq ⟨i', hi'⟩ (Fin.ext hc'))⟩

/-! ## 3. Remainders of a polynomial -/

/-- Numbers as polynomials over the field of two elements: the remainder of a polynomial of degree
    `k`, times the variable, is again a remainder. -/
def timesX (poly k a : Nat) : Nat := a <<< 1 ^^^ if a.testBit (k - 1) then poly else 0

theorem timesX_xor (poly k a b : Nat) :
    timesX poly k (a ^^^ b) = timesX poly k a ^^^ timesX poly k b := by
  have hif : (if (a ^^^ b).testBit (k - 1) then poly else 0) =
      (if a.testBit (k - 1) then poly else 0) ^^^ if b.testBit (k - 1) then poly else 0 := by
    rw [Nat.testBit_xor]
    cases a.testBit (k - 1) <;> cases b.testBit (k - 1) <;> simp
  unfold timesX
  rw [hif, Nat.shiftLeft_xor_distrib]
  ac_rfl

/-- The hash takes the first `m` powers of the variable to their remainders, times some factor. -/
def Remainders (eqs : List (List Nat)) (poly k m : Nat) : Prop :=
  ∀ t, t + 1 < m → hash eqs (2 ^ (t + 1)) = timesX poly k (hash eqs (2 ^ t))

/-- Then it does so with all polynomials of a smaller degree. -/
theorem Remainders.shift {eqs : List (List Nat)} {poly k m : Nat} (h : Remainders eqs poly k m) :
    ∀ t, t < m → ∀ a < 2 ^ t, hash eqs (a <<< 1) = timesX poly k (hash eqs a) := by
  have hzero : hash eqs 0 = 0 := by
    have hx := hash_xor eqs 0 0
    rwa [Nat.xor_self, Nat.xor_self] at hx
  intro t
  induction t with
  | zero =>
      intro _ a ha
      obtain rfl : a = 0 := by omega
      simp [hzero, timesX]
  | succ t ih =>
      intro ht a ha
      by_cases hbit : a.testBit t
      · -- the leading term, and the rest
        have hrest : a ^^^ 2 ^ t < 2 ^ t := by
          refine Nat.lt_pow_two_of_testBit _ fun u hu => ?_
          rw [Nat.testBit_xor, Nat.testBit_two_pow]
          rcases Nat.eq_or_lt_of_le hu with rfl | hlt
          · simp [hbit]
          · have hz : a.testBit u = false :=
              Nat.testBit_lt_two_pow (ha.trans_le (Nat.pow_le_pow_right Nat.two_pos hlt))
            simp [hz, hlt.ne]
        have hsplit : a = 2 ^ t ^^^ (a ^^^ 2 ^ t) := by
          rw [Nat.xor_comm a, ← Nat.xor_assoc, Nat.xor_self, Nat.zero_xor]
        have htop : (2 ^ t) <<< 1 = 2 ^ (t + 1) := by
          rw [Nat.shiftLeft_eq, ← Nat.pow_add]
        calc hash eqs (a <<< 1)
            = hash eqs (2 ^ (t + 1) ^^^ (a ^^^ 2 ^ t) <<< 1) := by
              rw [← htop, ← Nat.shiftLeft_xor_distrib, ← hsplit]
          _ = timesX poly k (hash eqs (2 ^ t)) ^^^ timesX poly k (hash eqs (a ^^^ 2 ^ t)) := by
              rw [hash_xor, h t ht, ih (by omega) _ hrest]
          _ = timesX poly k (hash eqs a) := by
              rw [← timesX_xor, ← hash_xor, ← hsplit]
      · refine ih (by omega) a (Nat.lt_pow_two_of_testBit _ fun u hu => ?_)
        rcases Nat.eq_or_lt_of_le hu with rfl | hlt
        · simpa using hbit
        · exact Nat.testBit_lt_two_pow (ha.trans_le (Nat.pow_le_pow_right Nat.two_pos hlt))

/-- **Where the variable is no divisor of zero, all windows are like the first.** -/
theorem Remainders.window {eqs : List (List Nat)} {poly k m : Nat} (h : Remainders eqs poly k m)
    (hdiv : ∀ a < 2 ^ eqs.length, timesX poly k a = 0 → a = 0) {n : Nat}
    (hfirst : ∀ i < 2 ^ n, hash eqs i = 0 → i = 0) :
    ∀ j, j + n ≤ m → ∀ i < 2 ^ n, hash eqs (i <<< j) = 0 → i = 0 := by
  intro j
  induction j with
  | zero => exact fun _ i hi hz => hfirst i hi hz
  | succ j ih =>
      intro hj i hi hz
      refine ih (by omega) i hi (hdiv _ (hash_lt eqs _) ?_)
      have hlt : i <<< j < 2 ^ (n + j) := by
        rw [Nat.shiftLeft_eq, Nat.pow_add]
        exact Nat.mul_lt_mul_of_pos_right hi (Nat.two_pow_pos j)
      rwa [Nat.shiftLeft_add, h.shift (n + j) (by omega) _ hlt] at hz

end XorHash
