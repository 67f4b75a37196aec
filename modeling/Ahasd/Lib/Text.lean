/-
  File:      Ahasd/Lib/Text.lean
  Subject:   TEXT IN PIECES, AND NUMBERS IN DECIMALS.

  * `pieces`: what a reader that stops at a separator takes; `pieces_append`, `pieces_intercalate`,
    `pieces_flatMap`;
  * `scanDecimal`: the decimal number a text begins with;
  * `fixed`: a number written with a fixed number of decimals; `roundTo`: the value that is;
  * **`scanDecimal_fixed`**: what is written is read back as that value.
-/
import Mathlib.Data.Rat.Floor
import Mathlib.Tactic.IntervalCases
import Mathlib.Tactic.Positivity

namespace Text

/-! ## 1. Pieces -/

/-- What stands before each separator, and what is left after the last one, if anything. -/
def pieces (sep : Char) : List Char → List (List Char)
  | [] => []
  | c :: cs =>
      if c = sep then [] :: pieces sep cs
      else
        match pieces sep cs with
        | [] => [[c]]
        | p :: ps => (c :: p) :: ps

variable {sep : Char} {l : List Char}

/-- A piece comes off at its separator. -/
theorem pieces_append (h : sep ∉ l) (rest : List Char) :
    pieces sep (l ++ sep :: rest) = l :: pieces sep rest := by
  induction l with
  | nil => exact if_pos rfl
  | cons c l ih =>
      obtain ⟨hc, hl⟩ := List.ne_and_not_mem_of_not_mem_cons h
      rw [List.cons_append, pieces, if_neg (Ne.symm hc), ih hl]

/-- The last piece needs no separator. -/
theorem pieces_last (h : sep ∉ l) (hne : l ≠ []) : pieces sep l = [l] := by
  induction l with
  | nil => exact absurd rfl hne
  | cons c l ih =>
      obtain ⟨hc, hl⟩ := List.ne_and_not_mem_of_not_mem_cons h
      rw [pieces, if_neg (Ne.symm hc)]
      cases l with
      | nil => rfl
      | cons d l => rw [ih hl (List.cons_ne_nil d l)]

/-- Fields that are not empty come back from between their separators. -/
theorem pieces_intercalate : ∀ {fs : List (List Char)}, (∀ f ∈ fs, sep ∉ f ∧ f ≠ []) →
    pieces sep ([sep].intercalate fs) = fs
  | [], _ => rfl
  | [f], h => by
      obtain ⟨hsep, hne⟩ := h f List.mem_cons_self
      simpa [List.intercalate] using pieces_last hsep hne
  | f :: g :: fs, h => by
      have hrest := pieces_intercalate fun x hx => h x (List.mem_cons_of_mem f hx)
      have hjoin : [sep].intercalate (f :: g :: fs) =
          f ++ sep :: [sep].intercalate (g :: fs) := by
        simp [List.intercalate]
      rw [hjoin, pieces_append (h f List.mem_cons_self).1, hrest]

/-- A joined text is made of its fields and of separators. -/
theorem mem_intercalate {c : Char} : ∀ {fs : List (List Char)}, c ∈ [sep].intercalate fs →
    c = sep ∨ ∃ f ∈ fs, c ∈ f
  | [], h => by simp [List.intercalate] at h
  | [f], h => .inr ⟨f, List.mem_cons_self, by simpa [List.intercalate] using h⟩
  | f :: g :: fs, h => by
      have hjoin : [sep].intercalate (f :: g :: fs) = f ++ sep :: [sep].intercalate (g :: fs) := by
        simp [List.intercalate]
      rw [hjoin] at h
      rcases List.mem_append.mp h with h | h
      · exact .inr ⟨f, List.mem_cons_self, h⟩
      · rcases List.mem_cons.mp h with h | h
        · exact .inl h
        · exact (mem_intercalate h).imp_right fun ⟨x, hx, hc⟩ =>
            ⟨x, List.mem_cons_of_mem f hx, hc⟩

/-- So do pieces that all end in the separator. -/
theorem pieces_flatMap {ls : List (List Char)} (h : ∀ l ∈ ls, sep ∉ l) :
    pieces sep (ls.flatMap (· ++ [sep])) = ls := by
  induction ls with
  | nil => rfl
  | cons l ls ih =>
      have hrest := ih fun x hx => h x (List.mem_cons_of_mem l hx)
      rw [List.flatMap_cons, List.append_assoc, List.singleton_append,
        pieces_append (h l List.mem_cons_self), hrest]

/-! ## 2. Digits and decimals -/

/-- The number of a list of digits. -/
def number (digits : List Char) : Nat := Nat.ofDigitChars 10 digits 0

/-- An optional sign; whether it is a minus. -/
def scanSign : List Char → Bool × List Char
  | '-' :: cs => (true, cs)
  | '+' :: cs => (false, cs)
  | cs => (false, cs)

/-- The number with its sign. -/
def signed (negative : Bool) (x : ℚ) : ℚ := if negative then -x else x

/-- An optional exponent, with at least one digit. -/
def scanExponent : List Char → Int × List Char
  | [] => (0, [])
  | c :: cs =>
      if c = 'e' ∨ c = 'E' then
        let (negative, r) := scanSign cs
        let (digits, r) := r.span Char.isDigit
        if digits = [] then (0, c :: cs)
        else (if negative then -(number digits : Int) else number digits, r)
      else (0, c :: cs)

/-- The decimals after a point. -/
def scanFraction : List Char → List Char × List Char
  | '.' :: cs => cs.span Char.isDigit
  | cs => ([], cs)

/-- **The decimal number a text begins with**, and what follows it: a sign, digits with or without a
    point, an exponent. -/
def scanDecimal (cs : List Char) : Option (ℚ × List Char) :=
  let (negative, cs) := scanSign cs
  let (whole, cs) := cs.span Char.isDigit
  let (fraction, cs) := scanFraction cs
  if whole = [] ∧ fraction = [] then none
  else
    let (e, cs) := scanExponent cs
    some (signed negative (number (whole ++ fraction) * 10 ^ e.toNat /
      10 ^ (fraction.length + (-e).toNat)), cs)

theorem isDigit_toDigits (n : Nat) : ∀ c ∈ Nat.toDigits 10 n, c.isDigit = true :=
  fun _ hc => Nat.isDigit_of_mem_toDigits (by decide) (by decide) hc

/-- The digits at the beginning of a text. -/
theorem span_digits {ds : List Char} (hd : ∀ c ∈ ds, c.isDigit = true) {rest : List Char}
    (hr : ∀ c ∈ rest.head?, c.isDigit = false) :
    (ds ++ rest).span Char.isDigit = (ds, rest) := by
  rw [List.span_eq_takeWhile_dropWhile, List.takeWhile_append_of_pos hd,
    List.dropWhile_append_of_pos hd]
  cases rest with
  | nil => simp
  | cons c rest =>
      have hc : c.isDigit = false := hr c rfl
      simp [hc]

/-- Digits begin with no sign. -/
theorem scanSign_digits {ds : List Char} (hd : ∀ c ∈ ds, c.isDigit = true) (hne : ds ≠ [])
    (rest : List Char) : scanSign (ds ++ rest) = (false, ds ++ rest) := by
  cases ds with
  | nil => exact absurd rfl hne
  | cons c ds =>
      have hc := hd c List.mem_cons_self
      unfold scanSign
      split
      · next heq =>
          cases heq
          cases hc
      · next heq =>
          cases heq
          cases hc
      · rfl

theorem number_toDigits (n : Nat) : number (Nat.toDigits 10 n) = n :=
  Nat.ofDigitChars_ten_toDigits

theorem number_append (l m : List Char) :
    number (l ++ m) = number l * 10 ^ m.length + number m := by
  unfold number
  rw [Nat.ofDigitChars_append, Nat.ofDigitChars_eq_ofDigitChars_zero, Nat.mul_comm]

/-! ## 3. Numbers with a fixed number of decimals -/

/-- To the nearest number, to the even one of two. -/
def roundHalfEven (x : ℚ) : Nat :=
  let whole := ⌊x⌋₊
  if x - whole < 1 / 2 ∨ x - whole = 1 / 2 ∧ whole % 2 = 0 then whole else whole + 1

/-- The number in units of the last decimal, without its sign. -/
def units (decimals : Nat) (x : ℚ) : Nat := roundHalfEven (|x| * 10 ^ decimals)

/-- The number rounded to its decimals. -/
def roundTo (decimals : Nat) (x : ℚ) : ℚ := signed (x < 0) (units decimals x / 10 ^ decimals)

/-- The number written with its decimals. -/
def fixed (decimals : Nat) (x : ℚ) : List Char :=
  (if x < 0 then ['-'] else []) ++ Nat.toDigits 10 (units decimals x / 10 ^ decimals) ++
    '.' :: (Nat.toDigits 10 (units decimals x % 10 ^ decimals)).leftpad decimals '0'

variable {decimals : Nat}

theorem abs_roundTo (x : ℚ) : |roundTo decimals x| = units decimals x / 10 ^ decimals := by
  have hpos : (0 : ℚ) ≤ units decimals x / 10 ^ decimals := by positivity
  unfold roundTo signed
  split
  · rw [abs_neg, abs_of_nonneg hpos]
  · exact abs_of_nonneg hpos

/-- The decimals of a fraction: its digits, filled up with zeros. -/
theorem leftpad_digits (hd : 0 < decimals) {n : Nat} (hn : n < 10 ^ decimals) :
    (∀ c ∈ (Nat.toDigits 10 n).leftpad decimals '0', c.isDigit = true) ∧
      ((Nat.toDigits 10 n).leftpad decimals '0').length = decimals ∧
      number ((Nat.toDigits 10 n).leftpad decimals '0') = n := by
  refine ⟨fun c hc => ?_, ?_, ?_⟩
  · rcases List.mem_append.mp hc with hc | hc
    · rw [(List.mem_replicate.mp hc).2]
      rfl
    · exact isDigit_toDigits n c hc
  · rw [List.length_leftpad]
    exact max_eq_left ((Nat.length_toDigits_le_iff (by decide) hd).mpr hn)
  · unfold List.leftpad number
    rw [Nat.ofDigitChars_append, Nat.ofDigitChars_replicate_zero, Nat.mul_zero]
    exact number_toDigits n

/-- **What is written with decimals is read back as the rounded number**, and nothing is left. -/
theorem scanDecimal_fixed (hd : 0 < decimals) (x : ℚ) :
    scanDecimal (fixed decimals x) = some (roundTo decimals x, []) := by
  have hpos : 0 < 10 ^ decimals := Nat.pow_pos (by decide)
  obtain ⟨hdigits, hlength, hvalue⟩ :=
    leftpad_digits hd (Nat.mod_lt (units decimals x) hpos)
  have hwhole := isDigit_toDigits (units decimals x / 10 ^ decimals)
  have hne : Nat.toDigits 10 (units decimals x / 10 ^ decimals) ≠ [] := Nat.toDigits_ne_nil
  have hnumber : number (Nat.toDigits 10 (units decimals x / 10 ^ decimals) ++
      (Nat.toDigits 10 (units decimals x % 10 ^ decimals)).leftpad decimals '0') =
      units decimals x := by
    rw [number_append, number_toDigits, hlength, hvalue, Nat.mul_comm]
    exact Nat.div_add_mod _ _
  unfold fixed roundTo
  generalize Nat.toDigits 10 (units decimals x / 10 ^ decimals) = whole at *
  generalize (Nat.toDigits 10 (units decimals x % 10 ^ decimals)).leftpad decimals '0' = frac at *
  have hsign : scanSign ((if x < 0 then ['-'] else []) ++ whole ++ '.' :: frac) =
      (decide (x < 0), whole ++ '.' :: frac) := by
    by_cases hx : x < 0
    · simp [hx, scanSign]
    · simpa [hx] using scanSign_digits hwhole hne ('.' :: frac)
  have hbefore : (whole ++ '.' :: frac).span Char.isDigit = (whole, '.' :: frac) :=
    span_digits hwhole fun c hc => by
      cases hc
      rfl
  have hafter : (frac ++ []).span Char.isDigit = (frac, []) :=
    span_digits hdigits fun c hc => by cases hc
  rw [List.append_nil] at hafter
  have hfraction : scanFraction ('.' :: frac) = (frac, []) := hafter
  simp only [scanDecimal, hsign, hbefore, hfraction]
  rw [if_neg fun h => hne h.1, hnumber, hlength]
  simp [scanExponent]

/-- The characters a number is written with. -/
def numerals : List Char := "0123456789-.".toList

theorem mem_numerals_of_isDigit {c : Char} (h : c.isDigit = true) : c ∈ numerals := by
  have hrange : 48 ≤ c.toNat ∧ c.toNat ≤ 57 := by
    simpa [Char.isDigit, UInt32.le_iff_toNat_le] using h
  obtain ⟨hlow, hhigh⟩ := hrange
  have hc : c = Char.ofNat c.toNat := (Char.ofNat_toNat c).symm
  generalize c.toNat = n at hlow hhigh hc
  subst hc
  interval_cases n <;> decide

theorem toDigits_numerals (n : Nat) : ∀ c ∈ Nat.toDigits 10 n, c ∈ numerals :=
  fun c hc => mem_numerals_of_isDigit (isDigit_toDigits n c hc)

theorem fixed_numerals (x : ℚ) : ∀ c ∈ fixed decimals x, c ∈ numerals := by
  intro c hc
  unfold fixed at hc
  rcases List.mem_append.mp hc with hc | hc
  · rcases List.mem_append.mp hc with hc | hc
    · split at hc
      · rw [List.mem_singleton.mp hc]
        decide
      · cases hc
    · exact toDigits_numerals _ c hc
  · rcases List.mem_cons.mp hc with rfl | hc
    · decide
    · rcases List.mem_append.mp hc with hc | hc
      · rw [(List.mem_replicate.mp hc).2]
        decide
      · exact toDigits_numerals _ c hc

theorem fixed_ne_nil (x : ℚ) : fixed decimals x ≠ [] := by
  unfold fixed
  simp

end Text
